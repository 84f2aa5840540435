import Reannotate.Command.Run

/-!
# The command

Reads the files that the arguments name, runs the command on them, and takes its actions.
-/

namespace Reannotate.Command

def plainName (name : Text) : String :=
  (Way.ofName name).name.display

def readFile (name : Text) : IO (Option Text) := do
  try
    return (String.fromUTF8? (← IO.FS.readBinFile (plainName name))).map Text.ofString
  catch _ => return none

def takeAction : Action → IO Unit
  | .print text => IO.print text.display
  | .note text => IO.eprint text.display
  | .write name text => IO.FS.writeFile (plainName name) text.display

end Reannotate.Command

open Reannotate Reannotate.Command

def main (args : List String) : IO UInt32 := do
  let args := args.map Text.ofString
  let table ← (filesNamed args).mapM fun name => do return (name, ← readFile name)
  let draw ← IO.rand 0 (Report.exclamationCount - 1)
  let run := invoke (fun name => (table.lookup name).join) draw args
  run.actions.forM takeAction
  match run.status with
  | .ok status => return (status.getD 0).toNat.toUInt32
  | .error _ =>
    IO.eprintln "flow2ts: the input is not a tree of the expected form"
    return 1
