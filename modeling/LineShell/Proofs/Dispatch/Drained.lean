import LineShell.Proofs.Dispatch.Demands

/-!
# Nothing is pending when a child is made

A guarded spawn does something else, whatever that may be, if something is still pending.
`dispatch_guarded`: guarding the spawns of a dispatcher changes nothing, so what the guard is there
for never happens. After a flush that fails there is no spawn at all.
-/

namespace LineShell

open LineShell.Action

abbrev Spawner := Programs.Image → Action LaunchError ChildResult

/-- Spawns if nothing is pending, and raises an alarm otherwise. -/
def Spawner.guarded (spawn alarm : Spawner) : Spawner := fun image =>
  ofStep fun s => if s.out.pending = [] then (spawn image).perform s else (alarm image).perform s

namespace Dispatcher

def launching (d : Dispatcher) (launch : Launcher) : Dispatcher := { d with launch }

def spawning (d : Dispatcher) (spawn : Spawner) : Dispatcher :=
  d.launching (Programs.launchWith spawn)

/-- The results of several command lines, one after the other, and the session in the end. No line
comes after one that waits for ever. -/
def dispatchAll (d : Dispatcher) : List CommandLine → Session →
    List (Except (Stop CommandError) Outcome) × Session
  | [], s => ([], s)
  | line :: rest, s =>
    match (d.dispatch line).perform s with
    | (.error .waits, s) => ([.error .waits], s)
    | (result, s) =>
      let (results, s) := dispatchAll d rest s
      (result :: results, s)

-- ---------------------------------------------------------------------------
-- Launches after a flush
-- ---------------------------------------------------------------------------

variable {d : Dispatcher} {launch : Launcher} {line : CommandLine} {s : Session}

theorem runProgram_congr
    (h : ∀ path out, s.out.flush = (.ok (), out) →
      (d.launch path line.fields).perform { d.lookedUp line s with out } =
        (launch path line.fields).perform { d.lookedUp line s with out }) :
    (d.runProgram line).perform s = ((d.launching launch).runProgram line).perform s := by
  cases hp : d.searchPath.program? s.world line.name with
  | none =>
    rw [perform_runProgram_missing hp, perform_runProgram_missing (d := d.launching launch) hp]
    rfl
  | some path =>
    rw [perform_runProgram_found hp, perform_runProgram_found (d := d.launching launch) hp]
    rcases hflush : s.out.flush with ⟨f | _, out⟩
    · rfl
    · simp only [h path out hflush]
      rfl

theorem dispatch_congr
    (h : ∀ path out, s.out.flush = (.ok (), out) →
      (d.launch path line.fields).perform { d.lookedUp line s with out } =
        (launch path line.fields).perform { d.lookedUp line s with out }) :
    (d.dispatch line).perform s = ((d.launching launch).dispatch line).perform s := by
  cases hb : Builtin.replies? line.name with
  | some replies =>
    rw [perform_dispatch_builtin hb, perform_dispatch_builtin (d := d.launching launch) hb]
  | none =>
    by_cases hn : line.name = exitName
    · rw [perform_dispatch_exit hb hn, perform_dispatch_exit (d := d.launching launch) hb hn]
    · rw [perform_dispatch_external ⟨hb, hn⟩,
        perform_dispatch_external (d := d.launching launch) ⟨hb, hn⟩]
      rw [runProgram_congr h]

-- ---------------------------------------------------------------------------
-- Guarded spawns
-- ---------------------------------------------------------------------------

variable {spawn spawn' alarm : Spawner}

theorem perform_launchWith_guarded (hp : s.out.pending = []) (path : String) (argv : List String) :
    (Programs.launchWith (spawn.guarded alarm) path argv).perform s =
      (Programs.launchWith spawn path argv).perform s := by
  rw [Programs.launchWith, Programs.launchWith, perform_bind_of_ok rfl, perform_bind_of_ok rfl]
  simp only [perform_world]
  split
  · rfl
  · split
    · rfl
    · simp only [Spawner.guarded, perform_ofStep, hp, if_true]

theorem dispatch_guarded (d : Dispatcher) (spawn alarm : Spawner) :
    (d.spawning (spawn.guarded alarm)).dispatch = (d.spawning spawn).dispatch := by
  funext line
  apply Action.ext
  intro s
  apply dispatch_congr (d := d.spawning (spawn.guarded alarm))
  intro path out hflush
  exact perform_launchWith_guarded (Sink.pending_flush hflush) path line.fields

theorem dispatch_unflushed {f : Failure} (h : s.out.flush.1 = .error f) :
    ((d.spawning spawn).dispatch line).perform s =
      ((d.spawning spawn').dispatch line).perform s := by
  apply dispatch_congr (d := d.spawning spawn)
  intro path out hflush
  rw [hflush] at h
  cases h

theorem dispatchAll_guarded (d : Dispatcher) (spawn alarm : Spawner) (lines : List CommandLine)
    (s : Session) :
    (d.spawning (spawn.guarded alarm)).dispatchAll lines s =
      (d.spawning spawn).dispatchAll lines s := by
  induction lines generalizing s with
  | nil => rfl
  | cons line rest ih => simp only [dispatchAll, dispatch_guarded, ih]

end Dispatcher

end LineShell
