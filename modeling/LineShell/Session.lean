import LineShell.Log.Event
import LineShell.Programs.Child
import LineShell.Sink
import LineShell.Source
import LineShell.World

/-!
# Sessions

All that the commands of a shell work on: the world, the output, the input, the children and the
record of what happened. An action changes the session and yields a value or an error; what it did
before an error stays done.
-/

namespace LineShell

inductive Input
  /-- A source that is the shell's alone. -/
  | own (source : Source)
  /-- Standard input, which child processes share, with what the shell has taken from it. -/
  | standard (held : Bytes)
deriving DecidableEq

structure Session where
  world : World
  out : Sink := {}
  input : Input := .standard []
  /-- What standard input still holds. -/
  stdin : Bytes := []
  /-- Everything that was noted, the oldest first. -/
  log : List Log.Event := []
  /-- How often a new process was asked for. -/
  forks : Nat := 0
  /-- The processes that were made, the oldest first. -/
  children : List Programs.Child := []

namespace Session

/-- How many bytes of standard input the shell takes at a time. -/
def blockSize : Nat := 8192

def takeLine (s : Session) : Except Failure Bytes × Session :=
  match s.input with
  | .own source =>
    let (line, source) := source.takeLine
    (line, { s with input := .own source })
  | .standard held =>
    let (line, source) := Source.takeLine ⟨held, Source.readsOf blockSize s.stdin⟩
    (line, { s with input := .standard source.held, stdin := Source.upcoming source.reads })

end Session

abbrev Action (ε : Type) := ExceptT ε (StateM Session)

namespace Action

/-- The session after an action, with its result. -/
def perform (action : Action ε α) (s : Session) : Except ε α × Session := action.run s

def ofStep (step : Session → Except ε α × Session) : Action ε α := ExceptT.mk step

def world : Action ε World := ofStep fun s => (.ok s.world, s)

def query (question : World → Except ε α) : Action ε α := ofStep fun s => (question s.world, s)

/-- Asks for a change of the world. A request that is refused changes nothing. -/
def request (change : World → Except ε (α × World)) : Action ε α :=
  ofStep fun s =>
    match change s.world with
    | .ok (a, world) => (.ok a, { s with world })
    | .error e => (.error e, s)

def change (f : World → World) : Action ε Unit :=
  ofStep fun s => (.ok (), { s with world := f s.world })

def note (event : Log.Event) : Action ε Unit :=
  ofStep fun s => (.ok (), { s with log := s.log ++ [event] })

def noteAll (events : List Log.Event) : Action ε Unit :=
  ofStep fun s => (.ok (), { s with log := s.log ++ events })

def takeLine : Action ε (Except Failure Bytes) :=
  ofStep fun s =>
    let (line, s) := s.takeLine
    (.ok line, s)

def write (text : String) : Action Failure Unit :=
  ofStep fun s =>
    let (result, out) := s.out.put (bytesOf text)
    (result, { s with out })

def writeLine (text : String) : Action Failure Unit := write (text ++ "\n")

def flush : Action Failure Unit :=
  ofStep fun s =>
    let (result, out) := s.out.flush
    (result, { s with out })

/-- The same action, whose errors are errors of another kind. -/
def mapError (action : Action ε α) (error : ε → ε') : Action ε' α :=
  ofStep fun s =>
    let (result, s) := action.perform s
    (result.mapError error, s)

def attempt (action : Action ε α) : Action ε' (Except ε α) :=
  ofStep fun s =>
    let (result, s) := action.perform s
    (.ok result, s)

-- ---------------------------------------------------------------------------
-- Laws

@[simp] theorem perform_ofStep (step : Session → Except ε α × Session) (s : Session) :
    (ofStep step).perform s = step s := rfl

@[simp] theorem perform_pure (a : α) (s : Session) :
    (pure a : Action ε α).perform s = (.ok a, s) := rfl

@[simp] theorem perform_throw (e : ε) (s : Session) :
    (throw e : Action ε α).perform s = (.error e, s) := rfl

theorem perform_bind (action : Action ε α) (next : α → Action ε β) (s : Session) :
    (action >>= next).perform s =
      match action.perform s with
      | (.ok a, s) => (next a).perform s
      | (.error e, s) => (.error e, s) := by
  change (match action.perform s with | (result, s) => ExceptT.bindCont next result s) = _
  rcases action.perform s with ⟨_ | _, _⟩ <;> rfl

theorem perform_bind_ok {action : Action ε α} {s s' : Session} {a : α}
    (h : action.perform s = (.ok a, s')) (next : α → Action ε β) :
    (action >>= next).perform s = (next a).perform s' := by
  rw [perform_bind, h]

theorem perform_bind_error {action : Action ε α} {s s' : Session} {e : ε}
    (h : action.perform s = (.error e, s')) (next : α → Action ε β) :
    (action >>= next).perform s = (.error e, s') := by
  rw [perform_bind, h]

theorem perform_attempt (action : Action ε α) (s : Session) :
    (attempt action : Action ε' (Except ε α)).perform s =
      (.ok (action.perform s).1, (action.perform s).2) := rfl

theorem perform_mapError (action : Action ε α) (error : ε → ε') (s : Session) :
    (action.mapError error).perform s =
      ((action.perform s).1.mapError error, (action.perform s).2) := rfl

end Action

end LineShell
