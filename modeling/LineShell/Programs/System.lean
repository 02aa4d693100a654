import LineShell.Programs.Interpreter
import LineShell.World.Fresh
import LineShell.Script.Invocation

/-!
# The system as a host

How images are executed. A file is executed if it is the script shell, under any name, or if its
first line names an interpreter, which is executed instead and gets the file's path. Everything
else cannot be executed, and neither can an image whose arguments are too long.

This host is one of many. Whatever is proved about launching programs holds on all hosts; this one
is for running the shell from the command line, and for runs that can be computed.
-/

namespace LineShell.Programs

open Script (Chars charsIn charsOf bytesFrom)

def longestArgument : Nat := 131071

def mostArgumentBytes : Nat := 2097152

def fits (argv : List Chars) : Bool :=
  argv.all (·.length ≤ longestArgument) && argv.foldl (· + ·.length + 9) 0 ≤ mostArgumentBytes

/-- How many interpreters may be named one by the other. -/
def mostInterpreters : Nat := 5

/-- The arguments with which the script shell is executed in the end, if it is. -/
def shellArguments (w : World) (depth : Nat) (path : Chars) (argv : List Chars) :
    Option (List Chars) := do
  let node ← (w.follow? (bytesFrom path)).filter w.mayRun
  let bytes ← node.bytes?
  if World.shellSignature.isPrefixOf bytes then some argv
  else match depth with
    | 0 => none
    | depth + 1 => do
      let ⟨interpreter, argument⟩ ← Interpreter.ofFile? bytes
      shellArguments w depth interpreter (interpreter :: argument.toList ++ path :: argv.tail)

/-- How deep programs may run programs. -/
def deepestProgram : Nat := 16

def executeAt : Nat → Script.Executor
  | 0, _, _, _, _ => none
  | depth + 1, path, argv, w, streams =>
    if fits argv then
      (shellArguments w mostInterpreters path argv).map
        (Script.shellRun (executeAt depth) w streams)
    else none

def execute (image : Image) (w : World) (streams : Streams) : Option Run :=
  executeAt deepestProgram (charsIn image.path) (image.argv.map charsIn) w streams

/-- The host on which every process gets the next number. If ended children are discarded, waiting
for one only finds out that it is gone. -/
def Host.system (discards : Bool) : Host where
  fork _ w := .ok (w.lastPid + 1)
  exec := execute
  reports _ status := if discards then [.failed .noChild] else [.status status]

end LineShell.Programs
