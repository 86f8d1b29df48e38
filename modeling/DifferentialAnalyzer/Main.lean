import DifferentialAnalyzer.Command.Execute

/-! The program: it reads the file that a command needs, lets the time of a paced run pass, prints,
and writes. -/

namespace DifferentialAnalyzer.Main

/-- The text of a file, if there is such a file. -/
def readText (path : String) : IO (Option String) := do
  try
    return some (← IO.FS.readFile path)
  catch
    | .noFileOrDirectory .. => return none
    | e => throw e

/-- Whether the file could be written. -/
def writeText (path text : String) : IO Bool := do
  try
    IO.FS.writeFile path text
    return true
  catch
    | .noFileOrDirectory .. => return false
    | e => throw e

/-- Hands the time that passes to a runner until it has finished. -/
partial def keepPace (milliseconds : UInt32) (last : Nat) (r : Runner) :
    IO (Except MachineError Simulator) := do
  if r.state = .finished then
    return .ok r.simulator
  IO.sleep milliseconds
  let now ← IO.monoNanosNow
  match r.advance ((now - last).toFloat / 1e9) with
  | (r, .ok _) => keepPace milliseconds now r
  | (_, .error e) => return .error e

/-- The longest pause between two looks at the clock, in seconds. -/
def longestPause : Float := 0.05

def runPaced (c : RunCommand) (rate : Float) (text : Option String) : IO Outcome := do
  match c.prepare text >>= fun s => c.pace s rate with
  | .error e => return .fail e
  | .ok r =>
    let pause := if r.clock.period < longestPause then r.clock.period else longestPause
    match ← keepPace (pause * 1000.0).toUInt32 (← IO.monoNanosNow) r with
    | .ok s => return .ofResult (c.report s)
    | .error e => return .fail (.machine e)

def perform (command : Command) (text : Option String) : IO Outcome :=
  match command with
  | .run c =>
    match c.realtime with
    | some rate => runPaced c rate text
    | none => return command.execute text
  | _ => return command.execute text

def usage : String :=
  "usage: differential-analyzer validate PATH
       differential-analyzer run PATH --steps N [--motor-rate X] [--table N]
                             [--realtime X] [--format csv|json] [-o PATH]
       differential-analyzer eval EXPRESSION [--var NAME=VALUE]...
       differential-analyzer vars PATH"

def run (args : List String) : IO UInt32 := do
  match Arguments.read args with
  | none =>
    IO.eprintln usage
    return 2
  | some command =>
    let text ← match command.input? with
      | some path => readText path
      | none => pure none
    let outcome ← perform command text
    let written ← match outcome.ending with
      | .write path text _ => writeText path text
      | _ => pure true
    let answer := outcome.settle written
    IO.print answer.printed
    IO.eprint answer.reported
    return if answer.failed then 1 else 0

end DifferentialAnalyzer.Main

def main (args : List String) : IO UInt32 :=
  DifferentialAnalyzer.Main.run args
