import DifferentialAnalyzer.Command.Arguments
import DifferentialAnalyzer.Command.Failure
import DifferentialAnalyzer.Description.Build
import DifferentialAnalyzer.Description.Files
import DifferentialAnalyzer.Machine.Runner

/-! What the commands do, apart from reading and writing files. -/

namespace DifferentialAnalyzer

namespace OutputTable

/-- The recorded totals in the order of the ticks. -/
def columns (t : OutputTable) : List (List Float) :=
  [t.xs.reverse, t.y1s.reverse] ++ (t.y2s.map List.reverse).toList

def columnNames (t : OutputTable) : List String :=
  ["x", "y1"] ++ if t.y2s.isSome then ["y2"] else []

/-- Reads columns of one length line by line. -/
def rows : List Float → List (List Float) → List (List Float)
  | [], _ => []
  | x :: xs, columns => (x :: columns.map (·.headD 0.0)) :: rows xs (columns.map List.tail)

def toCsv (t : OutputTable) : String :=
  let line (cells : List String) : String := ",".intercalate cells ++ "\n"
  let body := match t.columns with
    | [] => []
    | xs :: columns => rows xs columns
  line t.columnNames ++ String.join (body.map fun row => line (row.map displayFloat))

def toJson (t : OutputTable) : String :=
  Document.toJson (.record ((t.columnNames.zip t.columns).map fun (name, xs) =>
    (.text name, .list (xs.map Document.ofFloat))))

def render (t : OutputTable) : TableFormat → String
  | .csv => t.toCsv
  | .json => t.toJson

end OutputTable

/-- How a command ends once everything is computed. -/
inductive Ending where
  | done
  | failed (cause : Failure)
  /-- A file is to be written, and `note` printed if that succeeds. -/
  | write (path text note : String)

structure Outcome where
  printed : String
  ending : Ending

namespace Outcome

def fail (cause : Failure) : Outcome :=
  ⟨"", .failed cause⟩

def ofResult : Except Failure Outcome → Outcome
  | .ok outcome => outcome
  | .error cause => fail cause

/-- Puts a text before what is printed. -/
def after (first : String) (o : Outcome) : Outcome :=
  { o with printed := first ++ o.printed }

end Outcome

/-- The answer of the program: what it prints, what it reports as an error, and whether it
failed. -/
structure Answer where
  printed : String
  reported : String
  failed : Bool

namespace Outcome

/-- The answer, if `written` tells whether the file could be written. -/
def settle (o : Outcome) (written : Bool) : Answer :=
  let failure (cause : Failure) : Answer := ⟨o.printed, s!"Error: {cause.dump}\n", true⟩
  match o.ending with
  | .done => ⟨o.printed, "", false⟩
  | .failed cause => failure cause
  | .write _ _ note => if written then ⟨o.printed ++ note, "", false⟩ else failure .missingFile

end Outcome

namespace RunCommand

/-- The machine of a description. -/
def prepare (c : RunCommand) (text : Option String) : Except Failure Simulator :=
  (do (← Description.load c.path text).build ⟨c.motorRate⟩).mapError .description

/-- A runner that keeps time. -/
def pace (c : RunCommand) (s : Simulator) (rate : Float) : Except Failure Runner := do
  let clock ← (Clock.ofFrequency rate).mapError .machine
  .ok (Runner.ofSimulator s clock (some c.steps)).run

/-- What is printed or written after the run. -/
def report (c : RunCommand) (s : Simulator) : Except Failure Outcome := do
  let t ← (s.outputTable c.table).mapError fun e => .machine (.fault e)
  let text := t.render c.format
  match c.output with
  | none => .ok ⟨text, .done⟩
  | some path =>
    let note := s!"✓ Ran {s.tick} ticks, exported table {c.table} to {path}\n"
    .ok ⟨"", .write path text note⟩

/-- A run that keeps time has the same outcome as one that does not, so only its clock matters. -/
def execute (c : RunCommand) (text : Option String) : Except Failure Outcome := do
  let s ← c.prepare text
  match c.realtime with
  | some rate => discard (c.pace s rate)
  | none => .ok ()
  match s.run c.steps with
  | (s, none) => c.report s
  | (_, some e) => .error (.machine e)

end RunCommand

namespace Command

/-- The file that a command reads. -/
def input? : Command → Option String
  | .validate path | .vars path => some path
  | .run c => some c.path
  | .eval _ _ => none

/-- The size of a machine. -/
def summary (s : Simulator) : String :=
  let unconnected := s.topology.unconnected.length
  s!"✓ Machine is valid\n  Shafts: {s.topology.shafts.size}\n"
    ++ s!"  Devices: {s.devices.size}\n  Output tables: {s.outputTables.length}\n"
    ++ if 0 < unconnected then s!"  Unconnected shafts: {unconnected}\n" else ""

def validated (path : String) (text : Option String) : Except Failure Outcome := do
  let s ← (do (← Description.load path text).build .standard).mapError .description
  .ok ⟨summary s, .done⟩

def evaluated (source : String) (scope : Bindings) : Except Failure Outcome := do
  let x ← (evalText source scope).mapError .expression
  .ok ⟨displayFloat x ++ "\n", .done⟩

def variableLines (c : LetChain) : String :=
  if c.values.isEmpty then "No variables defined\n"
  else String.join (c.values.map fun (name, value) => s!"  {name} = {displayFloat value}\n")

def resolved (text : Option String) : Except Failure Outcome :=
  match text with
  | none => .error .missingFile
  | some text => do
    let c ← (Settings.resolve ⟨some text⟩).mapError .description
    .ok ⟨variableLines c, .done⟩

/-- Carries a command out on the text of its file, which is absent if there is no such file. -/
def execute (text : Option String) : Command → Outcome
  | .validate path =>
    (Outcome.ofResult (validated path text)).after s!"Validating machine: {path}\n"
  | .run c => .ofResult (c.execute text)
  | .eval source scope => .ofResult (evaluated source scope)
  | .vars _ => .ofResult (resolved text)

end Command

end DifferentialAnalyzer
