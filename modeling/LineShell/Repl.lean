import LineShell.Dispatch

/-!
# The read loop

A shell prompts, reads a line, dispatches it and begins again. It ends at an exit command, at the
end of its input and at a failure to read, but not at a line that is no text and not at a failing
command. Only a failure to write what the loop itself has to say stops it with an error. A command
that waits for ever keeps the loop waiting with it.
-/

namespace LineShell

inductive ReplState
  | running
  | terminated
deriving DecidableEq, Repr

structure Repl where
  prompt : String
  dispatcher : Dispatcher
  session : Session
  state : ReplState := .running

/-- How many lines a source can still give, with the one that its end cuts short. -/
def Source.linesLeft (s : Source) : Nat :=
  let counts := s.reads.map fun
    | .data [] => 1
    | .data bytes => bytes.count Sink.lineFeed
    | .failure f => if f.kind = .invalidData then 1 else 0
  s.held.count Sink.lineFeed + counts.foldr (· + ·) 0 + 1

def Session.linesLeft (s : Session) : Nat :=
  match s.input with
  | .own source => source.linesLeft
  | .standard held => (held ++ s.stdin).count Sink.lineFeed + 1

namespace Repl

def own (write : Action Failure Unit) : Action (Stop Failure) Unit := write.mapError .refused

def obey (d : Dispatcher) (line : CommandLine) : Action (Stop Failure) ReplState := do
  match ← (d.dispatch line).attempt with
  | .ok .exit => do
    Action.note .exitRequested
    return .terminated
  | .ok outcome => do
    Action.note (.dispatched outcome)
    return .running
  | .error (.refused error) => do
    Action.note (.refused error line.name)
    own (Action.writeLine error.message)
    return .running
  | .error .waits => throw .waits

def complain (failure : Failure) : Action (Stop Failure) Unit :=
  own (Action.writeLine ("Error reading input: " ++ failure.message))

/-- What follows a line that was read. No text at all is the end of the input. -/
def react (d : Dispatcher) : Except Failure String → Action (Stop Failure) ReplState
  | .error failure =>
    if failure.kind = .invalidData then do
      complain failure
      return .running
    else do
      Action.note (.unreadable failure)
      complain failure
      return .terminated
  | .ok text =>
    if text = "" then do
      own (Action.writeLine "")
      return .terminated
    else match CommandLine.parse text with
      | none => return .running
      | some line => obey d line

/-- One turn of the loop. -/
def turn (prompt : String) (d : Dispatcher) : Action (Stop Failure) ReplState := do
  own (Action.write prompt)
  own Action.flush
  let line ← Action.takeLine
  react d (line.bind lineText)

/-- A turn without a result leaves the state as it was. -/
def step (r : Repl) : Except (Stop Failure) ReplState × Repl :=
  match r.state with
  | .terminated => (.ok .terminated, r)
  | .running =>
    match (turn r.prompt r.dispatcher).perform r.session with
    | (.ok state, session) => (.ok state, { r with session, state })
    | (.error stop, session) => (.error stop, { r with session })

def runFor : Nat → Repl → Except (Stop Failure) Unit × Repl
  | 0, r => (.ok (), r)
  | turns + 1, r =>
    match r.state with
    | .terminated => (.ok (), r)
    | .running =>
      match r.step with
      | (.ok _, r) => runFor turns r
      | (.error stop, r) => (.error stop, r)

/-- Turns until the end, which comes at the latest after the last line. -/
def run (r : Repl) : Except (Stop Failure) Unit × Repl := r.runFor (r.session.linesLeft + 1)

end Repl

end LineShell
