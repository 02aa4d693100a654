import LineShell.Failure
import LineShell.Text.Utf8

/-!
# Output sinks

What the shell writes passes a gate, which counts the bytes it lets through and may refuse to,
and then waits until it is drained to the device. A straight sink drains with every write, a
buffering one at a flush or at the end of each line. A write that is refused has been let
through up to the refusal.
-/

namespace LineShell

inductive Buffering
  | straight
  | untilFlush
  | byLine
deriving DecidableEq, Repr

/-- A failure that strikes when a count has reached some number. -/
structure Obstacle where
  count : Nat
  failure : Failure
deriving DecidableEq, Repr

structure Sink where
  buffering : Buffering := .straight
  accepted : Nat := 0
  /-- Where the gate closes for good. -/
  limit : Option Obstacle := none
  /-- Where the gate refuses once, one after the other. -/
  faults : List Obstacle := []
  flushes : Nat := 0
  flushFaults : List Obstacle := []
  /-- Why the device takes nothing, if it does not. -/
  blocked : Option Failure := none
  pending : Bytes := []
  /-- What has reached the device, from child processes too. -/
  written : Bytes := []
deriving DecidableEq

namespace Sink

def lineFeed : UInt8 := 0x0A

def before (s : Sink) (o : Option Obstacle) (wanted : Nat) : Nat :=
  (o.map (·.count - s.accepted)).elim wanted (min wanted)

def admitted (s : Sink) (bytes : Bytes) : Bytes :=
  bytes.take (min (s.before s.limit bytes.length) (s.before s.faults.head? bytes.length))

/-- A write at the gate. A passing fault is used up by the refusal. -/
def accept (s : Sink) (bytes : Bytes) : Except Failure Unit × Sink :=
  let taken := s.admitted bytes
  let s := { s with accepted := s.accepted + taken.length, pending := s.pending ++ taken }
  if taken.length = bytes.length then (.ok (), s)
  else match s.limit.filter (·.count ≤ s.accepted), s.faults with
    | some limit, _ => (.error limit.failure, s)
    | none, fault :: rest => (.error fault.failure, { s with faults := rest })
    | none, [] => (.ok (), s)

def drain (s : Sink) : Except Failure Unit × Sink :=
  match s.blocked with
  | some failure => if s.pending = [] then (.ok (), s) else (.error failure, s)
  | none => (.ok (), { s with pending := [], written := s.written ++ s.pending })

def settle (s : Sink) (bytes : Bytes) : Except Failure Unit × Sink :=
  match s.buffering with
  | .straight => s.drain
  | .untilFlush => (.ok (), s)
  | .byLine => if lineFeed ∈ bytes then s.drain else (.ok (), s)

def put (s : Sink) (bytes : Bytes) : Except Failure Unit × Sink :=
  let (accepted, s) := s.accept bytes
  match s.settle bytes with
  | (.error failure, s) => (.error failure, s)
  | (.ok (), s) => (accepted, s)

def flush (s : Sink) : Except Failure Unit × Sink :=
  let s := { s with flushes := s.flushes + 1 }
  match s.flushFaults.find? (·.count = s.flushes) with
  | some fault => (.error fault.failure, s)
  | none => s.drain

/-- Everything that was let through, and what child processes wrote. -/
def contents (s : Sink) : Bytes := s.written ++ s.pending

/-- What a child process writes goes to the device at once. -/
def passThrough (s : Sink) (bytes : Bytes) : Sink :=
  if s.blocked.isSome then s else { s with written := s.written ++ bytes }

-- ---------------------------------------------------------------------------
-- Laws

theorem contents_accept (s : Sink) (bytes : Bytes) :
    (s.accept bytes).2.contents = s.contents ++ s.admitted bytes := by
  simp only [accept]
  split
  · simp [contents]
  · split <;> simp [contents]

theorem contents_drain (s : Sink) : s.drain.2.contents = s.contents := by
  unfold drain
  split
  · split <;> rfl
  · simp [contents]

theorem contents_settle (s : Sink) (bytes : Bytes) : (s.settle bytes).2.contents = s.contents := by
  unfold settle
  split
  · exact contents_drain s
  · rfl
  · split
    · exact contents_drain s
    · rfl

theorem put_snd (s : Sink) (bytes : Bytes) :
    (s.put bytes).2 = ((s.accept bytes).2.settle bytes).2 := by
  simp only [put]
  rcases (s.accept bytes).2.settle bytes with ⟨_ | _, _⟩ <;> rfl

theorem contents_put (s : Sink) (bytes : Bytes) :
    (s.put bytes).2.contents = s.contents ++ s.admitted bytes := by
  rw [put_snd, contents_settle, contents_accept]

theorem contents_flush (s : Sink) : s.flush.2.contents = s.contents := by
  simp only [flush]
  split
  · rfl
  · exact contents_drain _

theorem pending_flush {s s' : Sink} (h : s.flush = (.ok (), s')) : s'.pending = [] := by
  simp only [flush] at h
  split at h
  · cases h
  · simp only [drain] at h
    split at h
    · split at h
      · next hp => cases h; exact hp
      · cases h
    · cases h; rfl

end Sink

end LineShell
