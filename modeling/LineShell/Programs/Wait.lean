import LineShell.Log.Event

/-!
# Waiting for a child process

What the system reports while a child process runs, and how the end of the child is found in it.
A report decides if it is a terminal status or a failure; interruptions and changes of state
that are no end are waited out.
-/

namespace LineShell.Programs

inductive WaitResult
  | status (word : Nat)
  | failed (errno : Errno)
deriving DecidableEq, Repr

def exitStatus (code : Nat) : Nat := code % 256 * 256

def signalStatus (signal : Nat) : Nat := signal

/-- How a process ended, if its status word is a terminal one. -/
def ending? (pid word : Nat) : Option ChildResult :=
  let low := word % 128
  if low = 0 then some (.exited (word / 256 % 256))
  else if low < 127 then some (.killed pid low)
  else none

def endingEvent (pid : Nat) : ChildResult → Log.Event
  | .exited code => .exited pid code
  | .killed _ signal => .killed pid signal

/-- How the child ends, and what there is to note on the way. A child of which nothing more is
reported is no child any more. -/
def await (pid : Nat) : List WaitResult → Except Errno ChildResult × List Log.Event
  | [] => (.error .noChild, [.waitFailed pid .noChild])
  | .failed errno :: rest =>
    if errno = .interrupted then await pid rest else (.error errno, [.waitFailed pid errno])
  | .status word :: rest =>
    match ending? pid word with
    | some result => (.ok result, [endingEvent pid result])
    | none =>
      let (result, events) := await pid rest
      (result, .stateChanged pid word :: events)

end LineShell.Programs
