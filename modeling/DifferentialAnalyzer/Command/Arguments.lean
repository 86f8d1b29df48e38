import DifferentialAnalyzer.Decimal.Reader
import DifferentialAnalyzer.Expr.Bindings
import DifferentialAnalyzer.Text.Blank
import DifferentialAnalyzer.Word

/-! The arguments of the program. Options and their values may stand anywhere among the others; what
does not make a command is a mistake in the use of the program. -/

namespace DifferentialAnalyzer

inductive TableFormat where
  | csv
  | json
  deriving DecidableEq, Repr

structure RunCommand where
  path : String
  steps : Nat
  /-- How far the motor turns, whatever the description says. -/
  motorRate : Option Float
  /-- The place of the table to be shown among all output tables. -/
  table : Nat
  /-- How many ticks there are in a second, if the run is to take its time. -/
  realtime : Option Float
  format : TableFormat
  /-- Where the table is written instead of being printed. -/
  output : Option String

inductive Command where
  | validate (path : String)
  | run (command : RunCommand)
  | eval (source : String) (scope : Bindings)
  | vars (path : String)

namespace Arguments

/-- Arguments sorted into values that stand alone and options with their values. -/
structure Sorted where
  plain : List String
  options : List (String × String)

namespace Sorted

def addPlain (value : String) (s : Sorted) : Sorted :=
  { s with plain := value :: s.plain }

def addOption (name value : String) (s : Sorted) : Sorted :=
  { s with options := (name, value) :: s.options }

end Sorted

/-- The options that a command has: a name and perhaps a letter. -/
abbrev Known :=
  List (String × Option Char)

/-- Splits a text at its first equals sign. -/
def splitEquals (cs : List Char) : List Char × Option (List Char) :=
  match cs.span (· != '=') with
  | (front, []) => (front, none)
  | (front, _ :: value) => (front, some value)

/-- The option that an argument names, and a value that stands in the same argument. The answer is
`none` for an argument that names none, and its option is `none` if there is no such option. -/
def readOption (known : Known) (arg : String) : Option (Option (String × Option String)) :=
  match arg.toList with
  | '-' :: '-' :: cs =>
    let (name, value) := splitEquals cs
    some ((known.find? fun option => option.1.toList == name).map fun option =>
      (option.1, value.map String.ofList))
  | '-' :: c :: cs =>
    some ((known.find? fun option => option.2 == some c).map fun option =>
      (option.1, match cs with
        | [] => none
        | '=' :: cs => some (String.ofList cs)
        | cs => some (String.ofList cs)))
  | _ => none

/-- Two dashes end the options. -/
def sort (known : Known) : List String → Option Sorted
  | [] => some ⟨[], []⟩
  | "--" :: rest => some ⟨rest, []⟩
  | arg :: rest =>
    match readOption known arg with
    | none => (sort known rest).map (.addPlain arg)
    | some none => none
    | some (some (name, some value)) => (sort known rest).map (.addOption name value)
    | some (some (name, none)) =>
      match rest with
      | [] => none
      | value :: rest =>
        if value == "--" || (readOption known value).isSome then none
        else (sort known rest).map (.addOption name value)

/-- An option that may be given once. -/
def option (s : Sorted) (name : String) (read : String → Option α) : Option (Option α) :=
  match s.options.filter fun entry => entry.1 == name with
  | [] => some none
  | [(_, value)] => (read value).map some
  | _ => none

/-- A whole number, perhaps with a plus sign, that a word of 64 bits holds. -/
def readCount (text : String) : Option Nat :=
  let digits := match text.toList with
    | '+' :: cs => cs
    | cs => cs
  if digits.isEmpty || !digits.all Char.isDigit then none
  else
    let n := Decimal.ofDigits digits
    if n < Word.count then some n else none

def readFormat : String → Option TableFormat
  | "csv" => some .csv
  | "json" => some .json
  | _ => none

/-- A path has at least one character. -/
def readPath (text : String) : Option String :=
  if text.isEmpty then none else some text

/-- A name and a number with an equals sign between them. -/
def readBinding (text : String) : Option (String × Float) :=
  match splitEquals text.toList with
  | (_, none) => none
  | (name, some value) =>
    (readFloat (trimBlanks (String.ofList value))).map fun x =>
      (trimBlanks (String.ofList name), x)

def single : List String → Option String
  | [value] => some value
  | _ => none

def readRun (args : List String) : Option Command := do
  let s ← sort [("steps", none), ("motor-rate", none), ("table", none), ("realtime", none),
    ("format", none), ("output", some 'o')] args
  let path ← (single s.plain).bind readPath
  let steps ← ← option s "steps" readCount
  let motorRate ← option s "motor-rate" readFloat
  let table ← option s "table" readCount
  let realtime ← option s "realtime" readFloat
  let format ← option s "format" readFormat
  let output ← option s "output" readPath
  some (.run ⟨path, steps, motorRate, table.getD 0, realtime, format.getD .csv, output⟩)

/-- Of two values for a variable the last counts. -/
def readEval (args : List String) : Option Command := do
  let s ← sort [("var", none)] args
  let source ← single s.plain
  let entries ← s.options.mapM fun entry => readBinding entry.2
  some (.eval source (.ofList entries))

/-- A path and nothing else. -/
def readOnlyPath (args : List String) (command : String → Command) : Option Command := do
  let s ← sort [] args
  ((single s.plain).bind readPath).map command

/-- The command that the arguments ask for. -/
def read : List String → Option Command
  | "validate" :: args => readOnlyPath args .validate
  | "run" :: args => readRun args
  | "eval" :: args => readEval args
  | "vars" :: args => readOnlyPath args .vars
  | _ => none

end Arguments

end DifferentialAnalyzer
