import LineShell.Programs.Wait
import LineShell.Script.Grammar
import LineShell.World

/-!
# The state of a running script

A script works on the world and on what is left of standard input, and collects what it writes.
It may leave the place where it is: the loops around it, itself, or life, and what it did until
then stays done.

Scripts are what the children of the shell run, and no part of the shell, which knows nothing of a
program but its `Programs.Run`. Only the host of a whole system, `Programs.Host.system`, knows
their language.
-/

namespace LineShell.Script

inductive Outlet
  | transcript
  | nowhere
  /-- To another part of the same script. -/
  | pipe
  | file (id : Files.NodeId)
deriving DecidableEq, Repr

structure Outlets where
  output : Outlet := .transcript
  errors : Outlet := .nowhere
deriving DecidableEq, Repr

namespace Outlets

def get (o : Outlets) (descriptor : Nat) : Outlet :=
  if descriptor = 1 then o.output else if descriptor = 2 then o.errors else .nowhere

def set (o : Outlets) (descriptor : Nat) (outlet : Outlet) : Outlets :=
  if descriptor = 1 then { o with output := outlet }
  else if descriptor = 2 then { o with errors := outlet }
  else o

end Outlets

structure Machine where
  world : World
  stdin : Bytes
  taken : Nat := 0
  /-- What stands in for standard input, the innermost first. -/
  inputs : List Bytes := []
  output : Bytes := []
  /-- The transcript takes nothing. -/
  shut : Bool := false
  outlets : Outlets := {}
  /-- What went into the pipe. -/
  piped : Bytes := []
  name : Chars
  args : List Chars
  bindings : List (Chars × Chars) := []
  status : Nat := 0
  /-- How the last script inside a word ended. -/
  innerStatus : Nat := 0
  /-- How many loops there are around the command that runs. -/
  loops : Nat := 0
  /-- Handlers by signal, where nothing is done about an ignored one. -/
  handlers : List (Nat × Option Chars) := []
  /-- Signals whose handlers have not run yet. -/
  waiting : List Nat := []
  /-- The script ends at a command that fails. -/
  strict : Bool := false
  /-- This is a part that runs apart, and leaves handlers to the script. -/
  apart : Bool := false
  /-- The variables that programs see. -/
  exported : List Chars := []

inductive Jump
  /-- It leaves a loop, and so many around it. -/
  | leaveLoop (outer : Nat)
  /-- It begins the next turn of a loop, or of one that is so many further out. -/
  | nextTurn (outer : Nat)
  | exit (code : Nat)
  | killed (signal : Nat)
deriving DecidableEq, Repr

abbrev Step := ExceptT Jump (StateM Machine)

def misuse : Nat := 2

def leave (code : Nat) : Step α := throw (.exit code)

def setStatus (status : Nat) : Step Unit := modify ({ · with status })

namespace Machine

def value? (m : Machine) (name : Chars) : Option Chars :=
  (m.bindings.find? (·.1 = name)).map (·.2)

def unset (m : Machine) (name : Chars) : Machine :=
  { m with bindings := m.bindings.filter (·.1 ≠ name) }

def assign (m : Machine) (name value : Chars) : Machine :=
  { m with bindings := (name, value) :: (m.unset name).bindings }

def handle (m : Machine) (signal : Nat) (handler : Option (Option Chars)) : Machine :=
  let others := m.handlers.filter (·.1 ≠ signal)
  { m with handlers := handler.elim others fun h => (signal, h) :: others }

def input (m : Machine) : Bytes := m.inputs.headD m.stdin

def skipInput (m : Machine) (count : Nat) : Machine :=
  match m.inputs with
  | [] => { m with stdin := m.stdin.drop count, taken := m.taken + count }
  | bytes :: outer => { m with inputs := bytes.drop count :: outer }

end Machine

-- ---------------------------------------------------------------------------
-- Signals

def killSignal : Nat := 9

def pipeSignal : Nat := 13

def stopSignals : List Nat := [19, 20, 21, 22]

/-- Signals that pass without a trace. A shell's children ignore broken pipes. -/
def passes (signal : Nat) : Bool :=
  signal = 0 || signal = pipeSignal || Programs.ignoredByDefault.contains signal ||
    stopSignals.contains signal

def receive (signal : Nat) : Step Unit := do
  let m ← get
  match if signal = killSignal then none else m.handlers.find? (·.1 = signal) with
  | some (_, none) => pure ()
  | some (_, some _) => set { m with waiting := m.waiting ++ [signal] }
  | none => if passes signal then pure () else throw (.killed signal)

end LineShell.Script
