/-!
# Outcomes of commands

What became of a child process, and what became of a command line.
-/

namespace LineShell

inductive ChildResult
  | exited (code : Nat)
  | killed (pid : Nat) (signal : Nat)
deriving DecidableEq, Repr

inductive Outcome
  | builtin
  | external (result : ChildResult)
  | notFound
  | exit
deriving DecidableEq, Repr

def ChildResult.text : ChildResult → String
  | .exited code => s!"Exited({code})"
  | .killed pid signal => s!"TerminatedAbnormally \x7b pid: {pid}, signal: {signal} \x7d"

def Outcome.text : Outcome → String
  | .builtin => "Builtin"
  | .external result => "External(" ++ result.text ++ ")"
  | .notFound => "NotFound"
  | .exit => "Exit"

end LineShell
