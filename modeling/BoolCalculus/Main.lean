import BoolCalculus.CommandLine

/-!
# The command

Runs the command line on the machine and prints what it answers. A fault is printed to the error output.
-/

namespace BoolCalculus.Machine

open Settings

/-- The variables that the command looks up, as far as they are set. -/
def environment : IO Environment := do
  let names := [pathVariable, variableOf ["engine", "device"], variableOf ["engine", "check_membership"]]
  let values ← names.filterMapM fun name => do
    pure ((← IO.getEnv name.toString).map fun value => (name, Text.ofString value))
  pure fun name => values.lookup name

/-- What is found at a path of the machine. -/
def find (path : Text) : IO Found := do
  try pure (.file (← IO.FS.readBinFile path.toString))
  catch
    | .noFileOrDirectory .. | .inappropriateType .. => pure .nothing
    | _ => pure .unreadable

/-- The machine as the command sees it; its file of settings is read at once. -/
def host : IO Host := do
  let values ← environment
  let found ← find (settingsPath values none)
  pure { environment := values, files := fun _ => found, nesting := 980 }

end BoolCalculus.Machine

/-- The command: prints the outcome of its arguments and ends with its code. -/
def main (args : List String) : IO UInt32 := do
  match BoolCalculus.CommandLine.run (← BoolCalculus.Machine.host) .processor args with
  | .ok outcome =>
    IO.print outcome.stdout.toString
    if outcome.exit = 2 then
      IO.eprintln "usage: see --help"
    pure outcome.exit.toUInt32
  | .error fault =>
    IO.eprintln fault.message.toString
    pure 1
