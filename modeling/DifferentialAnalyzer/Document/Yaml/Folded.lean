import DifferentialAnalyzer.Document.Yaml.Page
import DifferentialAnalyzer.Text.Radix

/-! Texts that go on over several lines and are one line nevertheless: words without quotes, and
texts in single or double quotes. -/

namespace DifferentialAnalyzer.Yaml

/-- Blanks or line breaks within a text. -/
structure Gap where
  /-- The blanks before any line break. -/
  blanks : List Char
  breaks : List Char
  /-- The line before went on behind an escape, which hides its end. -/
  escaped : Bool

namespace Gap

def empty : Gap :=
  ⟨[], [], false⟩

def isEmpty (g : Gap) : Bool :=
  g.blanks.isEmpty && g.breaks.isEmpty

/-- Blanks count only up to the end of a line. -/
def addBlank (g : Gap) (c : Char) : Gap :=
  if g.breaks.isEmpty && !g.escaped then { g with blanks := g.blanks ++ [c] } else g

def addBreak (g : Gap) (c : Char) : Gap :=
  { g with blanks := [], breaks := g.breaks ++ [c] }

/-- What stands for the gap: a space for the end of one line, a line feed for each empty line, and
separators as they are. -/
def text (g : Gap) : List Char :=
  match g.breaks with
  | [] => g.blanks
  | c :: more =>
    if g.escaped || c != '\n' then c :: more
    else if more.isEmpty then [' ']
    else more

end Gap

namespace Page

/-- The rest of a text in single quotes, where two of them are one. -/
def scanSingle (gap : Gap) (page : Page) : Option (List Char × Page) :=
  match page with
  | [] => none
  | p :: rest =>
    if isBoundary page then none
    else if p.isBlank then scanSingle (gap.addBlank p.char) rest
    else if p.isBreak then scanSingle (gap.addBreak p.char) rest
    else if p.char == '\'' then
      match rest with
      | ⟨'\'', _, _, _⟩ :: rest => do
        let (cs, page) ← scanSingle Gap.empty rest
        some (gap.text ++ '\'' :: cs, page)
      | _ => some (gap.text, rest)
    else do
      let (cs, page) ← scanSingle Gap.empty rest
      some (gap.text ++ p.char :: cs, page)

/-- The character of an escape that is a single letter. -/
def escaped? : Char → Option Char
  | '0' => some '\x00'
  | 'a' => some '\x07'
  | 'b' => some '\x08'
  | 't' | '\t' => some '\t'
  | 'n' => some '\n'
  | 'v' => some '\x0b'
  | 'f' => some '\x0c'
  | 'r' => some '\x0d'
  | 'e' => some '\x1b'
  | ' ' => some ' '
  | '"' => some '"'
  | '/' => some '/'
  | '\\' => some '\\'
  | 'N' => some (Char.ofNat 0x85)
  | '_' => some (Char.ofNat 0xa0)
  | 'L' => some (Char.ofNat 0x2028)
  | 'P' => some (Char.ofNat 0x2029)
  | _ => none

/-- How many hexadecimal digits follow the letter of an escape. -/
def codeLength : Char → Nat
  | 'x' => 2
  | 'u' => 4
  | 'U' => 8
  | _ => 0

/-- The character with a code of so many digits. -/
def codeAhead (length : Nat) (page : Page) : Option Char := do
  let digits := page.take length
  let n ← ofRadix 16 (digits.map Placed.char)
  if digits.length = length ∧ n.isValidChar then some (Char.ofNat n) else none

/-- The character of the escape behind a backslash, and how many characters the escape takes. -/
def escapeAhead : Page → Option (Char × Nat)
  | [] => none
  | p :: rest =>
    match codeLength p.char with
    | 0 => (escaped? p.char).map (·, 1)
    | length => (codeAhead length rest).map (·, length + 1)

/-- The rest of a text in double quotes behind `skip` characters. -/
def scanDouble (skip : Nat) (gap : Gap) (page : Page) : Option (List Char × Page) :=
  match skip, page with
  | _, [] => none
  | skip + 1, _ :: rest => scanDouble skip gap rest
  | 0, p :: rest =>
    if isBoundary (p :: rest) then none
    else if p.isBlank then scanDouble 0 (gap.addBlank p.char) rest
    else if p.isBreak then scanDouble 0 (gap.addBreak p.char) rest
    else if p.char == '"' then some (gap.text, rest)
    else if p.char != '\\' then do
      let (cs, page) ← scanDouble 0 Gap.empty rest
      some (gap.text ++ p.char :: cs, page)
    else if breakAhead rest then do
      let (cs, page) ← scanDouble 1 { Gap.empty with escaped := true } rest
      some (gap.text ++ cs, page)
    else do
      let (c, length) ← escapeAhead rest
      let (cs, page) ← scanDouble length Gap.empty rest
      some (gap.text ++ c :: cs, page)

/-- What separates values between brackets. -/
def isBracket (p : Placed) : Bool :=
  p.char == ',' || p.char == '[' || p.char == ']' || p.char == '\x7b' || p.char == '\x7d'

/-- Between brackets a colon may be part of a word, but not the last character of one. -/
def isLostColon (flow : Bool) : Page → Bool
  | ⟨':', _, _, _⟩ :: q :: _ => flow && (isBracket q || q.char == '?')
  | _ => false

/-- Words end with a colon that a blank follows, and between brackets with the next of them. -/
def endsWords (flow : Bool) : Page → Bool
  | [] => true
  | p :: rest => p.char == ':' && blankAhead rest || flow && isBracket p

/-- Words without quotes from column `least` on, up to a comment or what ends them. The result tells
whether line breaks are behind them. A tab before column `least` is an error. -/
def scanWords (flow : Bool) (least : Nat) (gap : Gap) (page : Page) :
    Option (List Char × Bool × Page) :=
  let done := some ([], !gap.breaks.isEmpty, page)
  match page with
  | [] => done
  | p :: rest =>
    if p.isBlank then
      if p.char == '\t' && p.column < least && !gap.breaks.isEmpty then none
      else scanWords flow least (gap.addBlank p.char) rest
    else if p.isBreak then scanWords flow least (gap.addBreak p.char) rest
    else if !gap.isEmpty && (!flow && p.column < least || p.char == '#') || isBoundary page then
      done
    else if isLostColon flow page then none
    else if endsWords flow page then done
    else do
      let (cs, broken, page) ← scanWords flow least Gap.empty rest
      some (gap.text ++ p.char :: cs, broken, page)

end Page

end DifferentialAnalyzer.Yaml
