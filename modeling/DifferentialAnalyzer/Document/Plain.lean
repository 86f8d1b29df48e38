import DifferentialAnalyzer.Decimal.Reader
import DifferentialAnalyzer.Document.Basic
import DifferentialAnalyzer.Text.Radix
import DifferentialAnalyzer.Word

/-! What a text without quotes stands for: nothing, a truth value or a number if it looks like one,
and itself otherwise. A tag says which of them it has to be. -/

namespace DifferentialAnalyzer.Document

def isNullWord (s : String) : Bool :=
  ["~", "null", "Null", "NULL"].contains s

def plainBool (s : String) : Option Bool :=
  if ["true", "True", "TRUE"].contains s then some true
  else if ["false", "False", "FALSE"].contains s then some false
  else none

/-- A whole number; one of several decimal digits does not start with a zero. -/
def plainMagnitude : List Char → Option Nat
  | '0' :: 'x' :: cs => ofRadix 16 cs
  | '0' :: 'o' :: cs => ofRadix 8 cs
  | '0' :: 'b' :: cs => ofRadix 2 cs
  | ['0'] => some 0
  | '0' :: _ => none
  | cs => ofRadix 10 cs

def plainInteger (s : String) : Option Int :=
  match s.toList with
  | '-' :: cs => (plainMagnitude cs).map fun n => -(n : Int)
  | '+' :: cs => (plainMagnitude cs).map Int.ofNat
  | cs => (plainMagnitude cs).map Int.ofNat

/-- A finite number, or what stands for the others. -/
def plainReal (s : String) : Option Float :=
  if [".inf", ".Inf", ".INF", "+.inf", "+.Inf", "+.INF"].contains s then
    some (Binary64.toFloat false Binary64.infinityRank)
  else if ["-.inf", "-.Inf", "-.INF"].contains s then
    some (Binary64.toFloat true Binary64.infinityRank)
  else if [".nan", ".NaN", ".NAN"].contains s then some notANumber
  else (readFloat s).filter Float.isFinite

def unsigned : List Char → List Char
  | '-' :: cs => cs
  | '+' :: cs => cs
  | cs => cs

/-- Digits with a zero before them are a number only where one is asked for. -/
def padded (cs : List Char) : Bool :=
  match unsigned cs with
  | '0' :: c :: rest => (c :: rest).all Char.isDigit
  | _ => false

/-- Whole numbers have room in a word. If only two words have room for one no field can hold it, and
larger ones are no whole numbers. -/
def ofInteger (n : Int) : Option Document :=
  if Word.holds n then some (.number (.integer n))
  else if Word.pairHolds n then some .unreadable
  else none

def ofReal (s : String) : Option Document :=
  if padded s.toList then none else (plainReal s).map (.number <| .real ·)

def ofPlain (s : String) : Document :=
  if s.isEmpty || isNullWord s then .null
  else
    match plainBool s, (plainInteger s).bind ofInteger with
    | some b, _ => .bool b
    | none, some d => d
    | none, none => (ofReal s).getD (.text s)

/-- What a text with a tag is. It has to look like what the tag says. -/
def ofTagged (s : String) : Tag → Option Document
  | .null => if isNullWord s then some .null else none
  | .bool => (plainBool s).map .bool
  | .integer => (plainInteger s).bind ofInteger
  | .real => (plainReal s).map (.number <| .real ·)
  | .custom => none
  | .other => some (.text s)

/-- The value, if it has a meaning. -/
def meaning : Document → Option Document
  | .unreadable => none
  | d => some d

mutual

/-- The tree with every value for what it stands for. There is none if a part has no meaning or
lists and records are inside each other more than `depth` times. -/
def resolved (depth : Nat) : Document → Option Document
  | .unreadable => none
  | .plain s => meaning (ofPlain s)
  | .lines s => some (.text s)
  | .list items =>
    match depth with
    | 0 => none
    | depth + 1 => (resolvedItems depth items).map .list
  | .record entries =>
    match depth with
    | 0 => none
    | depth + 1 => (resolvedEntries depth entries).map .record
  | .tagged tag d =>
    match d.asText with
    | some s => (ofTagged s tag).bind meaning
    | none => if tag = .custom then none else resolved depth d
  | .reference _ d => resolved depth d
  | d => some d

def resolvedItems (depth : Nat) : List Document → Option (List Document)
  | [] => some []
  | d :: rest => do some ((← resolved depth d) :: (← resolvedItems depth rest))

def resolvedEntries (depth : Nat) : Entries → Option Entries
  | [] => some []
  | (key, d) :: rest => do
    some ((← resolved depth key, ← resolved depth d) :: (← resolvedEntries depth rest))

end

end DifferentialAnalyzer.Document
