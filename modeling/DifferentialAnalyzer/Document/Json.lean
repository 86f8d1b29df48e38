import DifferentialAnalyzer.Decimal.Text
import DifferentialAnalyzer.Document.Numeral
import DifferentialAnalyzer.Document.Quoted

/-! Reading and writing trees as JSON text. -/

namespace DifferentialAnalyzer.Document

def isJsonBlank (c : Char) : Bool :=
  c == ' ' || c == '\t' || c == '\n' || c == '\x0d'

def skipBlanks (cs : List Char) : List Char :=
  cs.dropWhile isJsonBlank

/-- A word of the format. -/
def scanWord (word : String) (d : Document) (cs : List Char) : Option (Document × List Char) :=
  if word.toList.isPrefixOf cs then some (d, cs.drop word.length) else none

/-- A text, if what is written is one. -/
def ofText : Option String → Document
  | some s => .text s
  | none => .unreadable

/-- A value without parts. -/
def scanScalar (cs : List Char) : Option (Document × List Char) :=
  match cs with
  | 'n' :: _ => scanWord "null" .null cs
  | 't' :: _ => scanWord "true" (.bool true) cs
  | 'f' :: _ => scanWord "false" (.bool false) cs
  | '"' :: rest => do
    let (s, rest) ← scanText rest
    some (ofText s, rest)
  | _ => do
    let (n, rest) ← Numeral.scan cs
    some (n.value, rest)

mutual

/-- A value at the start of a text, and what follows it. Each call takes one of `fuel`. -/
def scanValue : Nat → List Char → Option (Document × List Char)
  | 0, _ => none
  | fuel + 1, cs =>
    match skipBlanks cs with
    | '[' :: rest =>
      match skipBlanks rest with
      | ']' :: rest => some (.list [], rest)
      | rest => do
        let (items, rest) ← scanItems fuel rest
        some (.list items, rest)
    | '\x7b' :: rest =>
      match skipBlanks rest with
      | '\x7d' :: rest => some (.record [], rest)
      | rest => do
        let (entries, rest) ← scanEntries fuel rest
        some (.record entries, rest)
    | cs => scanScalar cs

/-- The items of a list, at least one, up to the closing bracket. -/
def scanItems : Nat → List Char → Option (List Document × List Char)
  | 0, _ => none
  | fuel + 1, cs => do
    let (d, rest) ← scanValue fuel cs
    match skipBlanks rest with
    | ']' :: rest => some ([d], rest)
    | ',' :: rest => do
      let (items, rest) ← scanItems fuel rest
      some (d :: items, rest)
    | _ => none

/-- The entries of a record, at least one, up to the closing brace. -/
def scanEntries : Nat → List Char → Option (Entries × List Char)
  | 0, _ => none
  | fuel + 1, cs =>
    match skipBlanks cs with
    | '"' :: rest => do
      let (key, rest) ← scanText rest
      match skipBlanks rest with
      | ':' :: rest => do
        let (d, rest) ← scanValue fuel rest
        match skipBlanks rest with
        | '\x7d' :: rest => some ([(ofText key, d)], rest)
        | ',' :: rest => do
          let (entries, rest) ← scanEntries fuel rest
          some ((ofText key, d) :: entries, rest)
        | _ => none
      | _ => none
    | _ => none

end

/-- The tree of a whole text. A call that does not take a character is followed by one that does. -/
def ofJson (text : String) : Option Document := do
  let (d, rest) ← scanValue (2 * text.length + 2) text.toList
  if (skipBlanks rest).isEmpty then some d else none

/-- The start of a line. -/
def newLine (indent : Nat) : List Char :=
  '\n' :: List.replicate (2 * indent) ' '

/-- How a format writes numbers and texts. -/
structure Spelling where
  real : Float → String
  quote : String → List Char

mutual

/-- The text of a value with its parts on lines of their own. -/
def layout (f : Spelling) (indent : Nat) : Document → List Char
  | .null | .unreadable => "null".toList
  | .bool b => (if b then "true" else "false").toList
  | .number (.integer n) => (toString n).toList
  | .number (.real x) => (f.real x).toList
  | .text s | .plain s | .lines s => f.quote s
  | .tagged _ d | .reference _ d => layout f indent d
  | .list [] => ['[', ']']
  | .list (d :: rest) =>
    '[' :: newLine (indent + 1) ++ layout f (indent + 1) d
      ++ layoutItems f (indent + 1) rest ++ newLine indent ++ [']']
  | .record [] => ['\x7b', '\x7d']
  | .record ((key, d) :: rest) =>
    '\x7b' :: newLine (indent + 1) ++ f.quote (key.asText.getD "") ++ ':' :: ' '
      :: layout f (indent + 1) d
      ++ layoutEntries f (indent + 1) rest ++ newLine indent ++ ['\x7d']

/-- The items behind the first one. -/
def layoutItems (f : Spelling) (indent : Nat) : List Document → List Char
  | [] => []
  | d :: rest => ',' :: newLine indent ++ layout f indent d ++ layoutItems f indent rest

/-- The entries behind the first one. -/
def layoutEntries (f : Spelling) (indent : Nat) : Entries → List Char
  | [] => []
  | (key, d) :: rest =>
    ',' :: newLine indent ++ f.quote (key.asText.getD "") ++ ':' :: ' ' :: layout f indent d
      ++ layoutEntries f indent rest

end

/-- Numbers that are not finite become empty values. -/
def toJson (d : Document) : String :=
  String.ofList (layout ⟨dataFloat, quote⟩ 0 d)

end DifferentialAnalyzer.Document
