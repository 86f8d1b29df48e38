import DifferentialAnalyzer.Decimal.Basic

/-! The trees that data files hold. Some values are written as they should be and still mean
nothing, a number that no double is near to or a text that ends within a character. They do no harm
where nobody looks at them, so that a tree may hold them. -/

namespace DifferentialAnalyzer

inductive Number where
  /-- A whole number that 64 bits hold, be it with a sign or without. -/
  | integer (n : Int)
  | real (x : Float)

def Number.toFloat : Number → Float
  | .integer n => Decimal.toFloat (n < 0) ⟨n.natAbs, 0⟩
  | .real x => x

/-- What a file says that a value is. -/
inductive Tag where
  | null
  | bool
  | integer
  | real
  /-- A name that only the author of the file knows. -/
  | custom
  /-- Any other name; a text with such a tag is just that. -/
  | other
  deriving DecidableEq

inductive Document where
  | null
  | bool (b : Bool)
  | number (n : Number)
  | text (s : String)
  /-- A text without quotes, which stands for what it looks like. -/
  | plain (s : String)
  /-- A text that fills lines of its own. -/
  | lines (s : String)
  /-- What has no meaning. -/
  | unreadable
  | list (items : List Document)
  /-- Keys and their values in the order of the file. -/
  | record (entries : List (Document × Document))
  | tagged (tag : Tag) (d : Document)
  /-- A value that stands elsewhere. To see all of it one follows so many references, this one
  among them. -/
  | reference (steps : Nat) (d : Document)

namespace Document

abbrev Entries :=
  List (Document × Document)

/-- The value itself, without its tag. -/
def untag : Document → Document
  | .tagged _ d => d
  | .reference _ d => untag d
  | d => d

/-- Any text, even one that without quotes looks like a number. -/
def asText (d : Document) : Option String :=
  match d.untag with
  | .text s | .plain s | .lines s => some s
  | _ => none

mutual

/-- The sum of `leaf` over the values that hold no others, and of `brackets` over those that do. -/
def total (brackets : Nat) (leaf : Document → Nat) : Document → Nat
  | .list items => brackets + totalItems brackets leaf items
  | .record entries => brackets + totalEntries brackets leaf entries
  | .tagged _ d => total brackets leaf d
  | d => leaf d

def totalItems (brackets : Nat) (leaf : Document → Nat) : List Document → Nat
  | [] => 0
  | d :: rest => total brackets leaf d + totalItems brackets leaf rest

def totalEntries (brackets : Nat) (leaf : Document → Nat) : Entries → Nat
  | [] => 0
  | (key, d) :: rest =>
    total brackets leaf key + total brackets leaf d + totalEntries brackets leaf rest

end

/-- How much is written in the file. A list or record counts once for its start and once for its
end. -/
def size : Document → Nat :=
  total 2 fun _ => 1

/-- How many references one follows to see all of a value. -/
def steps : Document → Nat :=
  total 0 fun
    | .reference steps _ => steps
    | _ => 0

end Document

end DifferentialAnalyzer
