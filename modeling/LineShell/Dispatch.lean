import LineShell.Builtin.Registry
import LineShell.CommandLine
import LineShell.Programs.Launch
import LineShell.Resolution

/-!
# Dispatching command lines

A command line calls for a built-in command, for the end of the shell, or for a program, in this
order. What the shell has written is flushed before a program is launched, so that it comes
before what the program writes.
-/

namespace LineShell

/-- Runs the program at a path with some arguments to its end. -/
abbrev Launcher := String → List String → Action LaunchError ChildResult

structure Dispatcher where
  searchPath : SearchPath
  launch : Launcher

namespace Dispatcher

def onHost (host : Programs.Host) (searchPath : SearchPath) : Dispatcher where
  searchPath
  launch := Programs.launch host

def exitName : String := "exit"

def missing (command : String) : Action CommandError Outcome := do
  (Action.writeLine ("Executable file " ++ command ++ " not found")).mapError .output
  return .notFound

def conclude (command : String) : Except LaunchError ChildResult → Action CommandError Outcome
  | .ok (.exited code) => do
    Action.note (.finished command code)
    return .external (.exited code)
  | .ok (.killed pid signal) => do
    (Action.writeLine s!"Child process {pid} terminated abnormally").mapError .output
    return .external (.killed pid signal)
  | .error (.notExecutable _) => missing command
  | .error error => throw (.launch error)

def runProgram (d : Dispatcher) (line : CommandLine) : Action CommandError Outcome := do
  let w ← Action.world
  Action.noteAll (d.searchPath.resolveEvents w line.name)
  match d.searchPath.program? w line.name with
  | none => missing line.name
  | some path => do
    Action.flush.mapError .output
    let result ← (d.launch path line.fields).attempt
    conclude line.name result

def dispatch (d : Dispatcher) (line : CommandLine) : Action (Stop CommandError) Outcome := do
  if ← Builtin.Registry.standard.execute line.fields then return .builtin
  else if line.name = exitName then return .exit
  else (d.runProgram line).mapError .refused

end Dispatcher

end LineShell
