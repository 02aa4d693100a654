import LineShell.Application
import LineShell.Programs.System

/-!
# The command line

Runs the shell on standard input, in a world of its own whose files are held in memory.
-/

namespace LineShell

def inheritedVariables : List String := [Application.homeVariable, Application.filterVariable]

def inherited : IO (List (Bytes × Bytes)) :=
  inheritedVariables.filterMapM fun name => do
    return (← IO.getEnv name).map fun value => (bytesOf name, bytesOf value)

partial def readAll (stream : IO.FS.Stream) : IO Bytes := do
  let block ← stream.read 65536
  if block.isEmpty then return []
  return block.toList ++ (← readAll stream)

partial def waitForEver : IO UInt32 := do
  IO.sleep 1000
  waitForEver

end LineShell

open LineShell

def main (arguments : List String) : IO UInt32 := do
  let stdin ← readAll (← IO.getStdin)
  let clock := Time.Clock.ofZone (Time.Zone.ofText ((← IO.getEnv "TZ").getD ""))
  let world := { World.fresh with environment := ← inherited, clock }
  let session : Session := { world, stdin, out := { buffering := .byLine } }
  let ending := Application.run .standard (.system false) (arguments.map bytesOf) session
  let (_, out) := ending.session.out.drain
  (← IO.getStdout).write ⟨out.written.toArray⟩
  for line in ending.log do
    IO.eprintln line
  IO.eprint ending.complaint
  match ending.code with
  | some code => return code.toUInt32
  | none => waitForEver
