import DifferentialAnalyzer.Document.Yaml.Page
import DifferentialAnalyzer.Text.Radix

/-! The tokens of a text, and those among them that name something: anchors, tags and directives. -/

namespace DifferentialAnalyzer.Yaml

/-- How a text is written. -/
inductive Style where
  | words
  /-- As it stands in lines of its own. -/
  | lines
  /-- In quotes, or in lines of its own that are joined. -/
  | folded
  deriving DecidableEq

inductive Token where
  /-- The version of the format that the text is written in. -/
  | version (major minor : Nat)
  /-- A short name for the start of tags. -/
  | shorthand (name stem : String)
  | documentStart
  | documentEnd
  /-- The start of a list or record that is laid out by columns. -/
  | blockList
  | blockRecord
  | blockEnd
  | flowList
  | flowListEnd
  | flowRecord
  | flowRecordEnd
  /-- A dash before an item. -/
  | item
  | comma
  | key
  | value
  | anchor (name : String)
  | reference (name : String)
  | tag (shorthand rest : String)
  | scalar (style : Style) (s : String)
  deriving DecidableEq

namespace Page

def isWordChar (p : Placed) : Bool :=
  p.char.isAlphanum || p.char == '_' || p.char == '-'

/-- The longest start of a page with characters of a kind. -/
def takeChars (kind : Placed → Bool) (page : Page) : List Char × Page :=
  ((page.takeWhile kind).map Placed.char, page.dropWhile kind)

/-- The name of an anchor, which ends before a blank or certain marks. -/
def scanName (page : Page) : Option (String × Page) :=
  let (name, rest) := takeChars isWordChar page
  let ends := blankAhead rest || rest.head?.any fun p =>
    ['?', ':', ',', ']', '\x7d', '%', '@', '\x60'].contains p.char
  if name.isEmpty || !ends then none else some (String.ofList name, rest)

/-- The bytes that a first byte announces, itself included. -/
def byteCount (n : Nat) : Option Nat :=
  if n < 0x80 then some 1
  else if n < 0xc0 then none
  else if n < 0xe0 then some 2
  else if n < 0xf0 then some 3
  else if n < 0xf8 then some 4
  else none

/-- A byte as a percent sign and two digits. -/
def scanByte : Page → Option (Nat × Page)
  | ⟨'%', _, _, _⟩ :: a :: b :: rest => (ofRadix 16 [a.char, b.char]).map (·, rest)
  | _ => none

/-- So many bytes that continue a character. -/
def scanMoreBytes : Nat → Page → Option (List Nat × Page)
  | 0, page => some ([], page)
  | count + 1, page => do
    let (n, page) ← scanByte page
    if n < 0x80 ∨ 0xc0 ≤ n then none
    else
      let (ns, page) ← scanMoreBytes count page
      some (n :: ns, page)

/-- The character of the bytes, or the one that stands for what is none. -/
def ofBytes (bytes : List Nat) : Char :=
  let text := String.fromUTF8? ⟨(bytes.map UInt8.ofNat).toArray⟩
  (text.bind fun s => s.toList.head?).getD (Char.ofNat 0xfffd)

/-- A character as its bytes. -/
def scanBytes (page : Page) : Option (Char × Nat) := do
  let (n, rest) ← scanByte page
  let count ← byteCount n
  let (ns, _) ← scanMoreBytes (count - 1) rest
  some (ofBytes (n :: ns), 3 * count)

/-- The characters of tags. Those that separate values between brackets are allowed between angles
and in directives only. -/
def isTagChar (wide : Bool) (p : Placed) : Bool :=
  isWordChar p || [';', '/', '?', ':', '@', '&', '=', '+', '$', '.', '%', '!', '~', '*', '\'',
    '(', ')'].contains p.char || wide && [',', '[', ']'].contains p.char

/-- The characters of a tag behind `skip` others. -/
def scanTagChars (wide : Bool) (skip : Nat) (page : Page) : Option (List Char × Page) :=
  match skip, page with
  | _, [] => some ([], [])
  | skip + 1, _ :: rest => scanTagChars wide skip rest
  | 0, p :: rest =>
    if !isTagChar wide p then some ([], p :: rest)
    else do
      let (c, length) ← if p.char == '%' then scanBytes (p :: rest) else some (p.char, 1)
      let (cs, page) ← scanTagChars wide (length - 1) rest
      some (c :: cs, page)

/-- An exclamation mark, perhaps with a word and another mark behind it, and whether there is such a
mark. -/
def scanShorthand : Page → Option (List Char × Bool × Page)
  | ⟨'!', _, _, _⟩ :: rest =>
    let (word, rest) := takeChars isWordChar rest
    match rest with
    | ⟨'!', _, _, _⟩ :: rest => some ('!' :: word ++ ['!'], true, rest)
    | _ => some ('!' :: word, false, rest)
  | _ => none

/-- A tag between angles, behind a shorthand, or a word behind an exclamation mark. A mark alone is
a tag too. -/
def scanTagBody (page : Page) : Option (Token × Page) :=
  match page with
  | _ :: ⟨'<', _, _, _⟩ :: rest => do
    let (cs, rest) ← scanTagChars true 0 rest
    match rest with
    | ⟨'>', _, _, _⟩ :: rest =>
      if cs.isEmpty then none else some (.tag "" (String.ofList cs), rest)
    | _ => none
  | _ => do
    let (name, closed, rest) ← scanShorthand page
    let (cs, rest) ← scanTagChars false 0 rest
    if closed then
      if cs.isEmpty then none else some (.tag (String.ofList name) (String.ofList cs), rest)
    else
      match name.drop 1 ++ cs with
      | [] => some (.tag "" "!", rest)
      | cs => some (.tag "!" (String.ofList cs), rest)

/-- A blank follows a tag, or between brackets a comma. -/
def scanTag (flow : Bool) (page : Page) : Option (Token × Page) := do
  let (tag, rest) ← scanTagBody page
  let ends := blankAhead rest || flow && rest.head?.any fun p => p.char == ','
  if ends then some (tag, rest) else none

/-- Up to nine digits. -/
def scanVersionNumber (page : Page) : Option (Nat × Page) :=
  let (digits, rest) := takeChars (·.char.isDigit) page
  if 9 < digits.length then none else (ofRadix 10 digits).map (·, rest)

def scanVersion (page : Page) : Option (Token × Page) := do
  let (major, rest) ← scanVersionNumber (skipBlanks page)
  match rest with
  | ⟨'.', _, _, _⟩ :: rest =>
    let (minor, rest) ← scanVersionNumber rest
    some (.version major minor, rest)
  | _ => none

/-- A shorthand and what it stands for, with blanks between them. -/
def scanShorthandRule (page : Page) : Option (Token × Page) := do
  let (name, closed, rest) ← scanShorthand (skipBlanks page)
  let isBlank := rest.head?.any Placed.isBlank
  let (stem, rest) ← scanTagChars true 0 (skipBlanks rest)
  if (closed || name.length = 1) && isBlank && !stem.isEmpty && blankAhead rest then
    some (.shorthand (String.ofList name) (String.ofList stem), rest)
  else none

/-- A directive behind its percent sign, and the line after it. -/
def scanDirective (page : Page) : Option (Token × Page) := do
  let (name, rest) := takeChars isWordChar page
  let (token, rest) ←
    if !blankAhead rest then none
    else if name == "YAML".toList then scanVersion rest
    else if name == "TAG".toList then scanShorthandRule rest
    else none
  some (token, ← nextLine rest)

end Page

end DifferentialAnalyzer.Yaml
