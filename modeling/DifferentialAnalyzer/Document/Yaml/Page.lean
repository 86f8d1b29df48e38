/-! Texts in which the place of a character matters. -/

namespace DifferentialAnalyzer.Yaml

/-- A character with the number of its line, its column, and how many characters are before it. -/
structure Placed where
  char : Char
  line : Nat
  column : Nat
  index : Nat

abbrev Page :=
  List Placed

/-- The separators of lines and paragraphs that Unicode has beside the line feed. -/
def isSeparator (c : Char) : Bool :=
  c.toNat == 0x2028 || c.toNat == 0x2029

/-- The mark of byte order, which a text may start with. -/
def isByteOrder (c : Char) : Bool :=
  c.toNat == 0xfeff

namespace Placed

def isBlank (p : Placed) : Bool :=
  p.char == ' ' || p.char == '\t'

def isBreak (p : Placed) : Bool :=
  p.char == '\n' || isSeparator p.char

end Placed

namespace Page

/-- No control characters, apart from tabs and line breaks. -/
def isAllowed (c : Char) : Bool :=
  let n := c.toNat
  c == '\t' || c == '\n' || c == '\x0d' || (0x20 ≤ n && n ≤ 0x7e) || n == 0x85
    || (0xa0 ≤ n && n ≤ 0xfffd) || 0x10000 ≤ n

/-- A carriage return, a line feed or both, and a next line are line feeds. -/
def place (line column index : Nat) : List Char → Page
  | [] => []
  | '\x0d' :: '\n' :: cs => ⟨'\n', line, column, index⟩ :: place (line + 1) 0 (index + 2) cs
  | c :: cs =>
    if c == '\n' || c == '\x0d' || c.toNat == 0x85 then
      ⟨'\n', line, column, index⟩ :: place (line + 1) 0 (index + 1) cs
    else if isSeparator c then ⟨c, line, column, index⟩ :: place (line + 1) 0 (index + 1) cs
    else ⟨c, line, column, index⟩ :: place line (column + 1) (index + 1) cs

/-- The page of a text. Up to two marks of byte order may come first; the second one takes room. -/
def ofText (text : String) : Option Page :=
  if text.toList.all isAllowed then
    match text.toList with
    | a :: b :: cs =>
      if isByteOrder a then
        if isByteOrder b then some (place 0 1 1 cs) else some (place 0 0 0 (b :: cs))
      else some (place 0 0 0 (a :: b :: cs))
    | cs => some (place 0 0 0 (cs.filter (!isByteOrder ·)))
  else none

/-- A blank, a line break or the end. -/
def blankAhead : Page → Bool
  | [] => true
  | p :: _ => p.isBlank || p.isBreak

/-- A line break or the end. -/
def breakAhead : Page → Bool
  | [] => true
  | p :: _ => p.isBreak

def skipBlanks (page : Page) : Page :=
  page.dropWhile Placed.isBlank

/-- The following line, if there is nothing more on this one apart from a comment. -/
def nextLine (page : Page) : Option Page :=
  let rest := match skipBlanks page with
    | p :: rest => if p.char == '#' then rest.dropWhile (!Placed.isBreak ·) else p :: rest
    | [] => []
  match rest with
  | [] => some []
  | p :: rest => if p.isBreak then some rest else none

/-- Three of a character at the start of a line, with nothing attached to them. -/
def isTripled (c : Char) : Page → Bool
  | p :: q :: r :: rest =>
    p.column == 0 && p.char == c && q.char == c && r.char == c && blankAhead rest
  | _ => false

/-- Where one document ends or another one starts. -/
def isBoundary (page : Page) : Bool :=
  isTripled '-' page || isTripled '.' page

end Page

end DifferentialAnalyzer.Yaml
