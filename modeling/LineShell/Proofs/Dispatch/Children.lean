import LineShell.Proofs.Builtin.Performance
import LineShell.Proofs.Dispatch.Drained
import LineShell.Proofs.Programs.Launches

/-!
# Children of a command line

A dispatch asks for one child at most, and asks for it once. Which image the child is to become
is a matter of the world alone, `request?`; of the output it only matters whether the flush before
succeeds.
-/

namespace LineShell

open LineShell.Action
open Programs (Image Host Granted granted_iff launchWith spawn perform_launchWith_refused
  perform_spawn_born perform_spawn_unborn)

-- ---------------------------------------------------------------------------
-- Processes
-- ---------------------------------------------------------------------------

/-- The processes of a session: how often one was asked for, and those that were made. -/
def Session.processes (s : Session) : Nat × List Programs.Child := (s.forks, s.children)

/-- The children made so far, whether or not they are collected, each with its image. -/
def Session.born (s : Session) : List (Nat × Image) :=
  s.children.map fun child => (child.pid, child.image)

theorem Session.born_congr {s t : Session} (h : s.processes = t.processes) : s.born = t.born := by
  rw [born, born, show s.children = t.children from congrArg Prod.snd h]

def Programs.Host.made (host : Host) (s : Session) : Option Image → List (Nat × Image)
  | none => []
  | some image => (host.fork s.forks s.world).toOption.toList.map (·, image)

theorem born_spawn (host : Host) (image : Image) (s : Session) :
    ((spawn host image).perform s).2.born = s.born ++ host.made s (some image) := by
  rw [Host.made]
  cases hfork : host.fork s.forks s.world with
  | error errno =>
    rw [perform_spawn_unborn hfork]
    exact (List.append_nil _).symm
  | ok pid =>
    rw [perform_spawn_born hfork]
    exact List.map_append

namespace Dispatcher

variable {d : Dispatcher} {line : CommandLine} {s t : Session}

theorem perform_dispatch_command {d : Dispatcher} {replies : Builtin.Replies}
    (h : Builtin.replies? line.name = some replies) :
    (d.dispatch line).perform s =
      (((Builtin.Registry.standard.execute line.fields).perform s).1.map fun _ => .builtin,
        ((Builtin.Registry.standard.execute line.fields).perform s).2) := by
  rw [perform_dispatch_builtin h, CommandLine.fields,
    (Builtin.standard_serves h line.args).perform_execute]
  rcases Action.perform _ _ with ⟨e | _, t⟩
  · rfl
  · rfl

theorem processes_remark (text : String) (outcome : Outcome) :
    ((remark text outcome).perform s).2.processes = s.processes := by
  rw [perform_remark]
  rcases s.out.grant _ with ⟨f | _, out⟩
  · rfl
  · rfl

theorem processes_conclude (command : String) (result : Except LaunchError ChildResult) :
    ((conclude command result).perform s).2.processes = s.processes := by
  cases result with
  | ok child =>
    cases child with
    | exited code => rfl
    | killed pid signal => exact processes_remark _ _
  | error e =>
    cases e with
    | notExecutable path => exact processes_remark _ _
    | _ => rfl

-- ---------------------------------------------------------------------------
-- What is asked for
-- ---------------------------------------------------------------------------

def concluded (command : String) (launched : Except LaunchError ChildResult × Session) :
    Except (Stop CommandError) Outcome × Session :=
  ((conclude command launched.1).mapError .refused).perform launched.2

theorem processes_concluded (command : String)
    (launched : Except LaunchError ChildResult × Session) :
    (concluded command launched).2.processes = launched.2.processes :=
  processes_conclude command launched.1

/-- Whoever makes the children, a dispatch asks for none, or for one image just once and after a
flush. -/
inductive Spawns (d : Dispatcher) (line : CommandLine) (s : Session) : Option Image → Prop
  | nothing {outcome : Except (Stop CommandError) Outcome × Session} :
      (∀ spawn, ((d.spawning spawn).dispatch line).perform s = outcome) →
      outcome.2.processes = s.processes → Spawns d line s none
  | once {image : Image} {before : Session} : s.out.flush.1 = .ok () →
      before = { s with out := s.out.flush.2, log := before.log } →
      (∀ spawn, ((d.spawning spawn).dispatch line).perform s =
        concluded line.name ((spawn image).perform before)) →
      Spawns d line s (some image)

theorem Spawns.indifferent (h : d.Spawns line s none) (spawn spawn' : Spawner) :
    ((d.spawning spawn).dispatch line).perform s =
      ((d.spawning spawn').dispatch line).perform s := by
  obtain ⟨hsame, -⟩ := h
  rw [hsame, hsame]

/-- Refuses every image in words of its own. -/
def refusing (word : Image → String) : Spawner := fun image => throw (.invalidArgument (word image))

theorem Spawns.refusing {image : Image} (h : d.Spawns line s (some image))
    (word : Image → String) :
    (((d.spawning (refusing word)).dispatch line).perform s).1 =
      .error (.refused (.launch (.invalidArgument (word image)))) := by
  cases h with
  | once _ _ hsame =>
    rw [hsame]
    rfl

theorem Spawns.not_none {image : Image} (h : d.Spawns line s (some image)) :
    ¬ d.Spawns line s none := by
  intro hnone
  have hthis := h.refusing fun _ => "this"
  rw [hnone.indifferent _ (Dispatcher.refusing fun _ => "that"), h.refusing] at hthis
  simp at hthis

theorem Spawns.unique {request request' : Option Image} (h : d.Spawns line s request)
    (h' : d.Spawns line s request') : request = request' := by
  cases request with
  | none =>
    cases request' with
    | none => rfl
    | some image' => exact absurd h h'.not_none
  | some image =>
    cases request' with
    | none => exact absurd h' h.not_none
    | some image' =>
      have hword := h.refusing fun other => if other = image then "this" else "that"
      rw [h'.refusing] at hword
      by_cases hsame : image' = image
      · rw [hsame]
      · simp [hsame] at hword

theorem Spawns.iff {request : Option Image} (h : d.Spawns line s request)
    (other : Option Image) : d.Spawns line s other ↔ other = request := by
  constructor
  · intro h'
    exact h'.unique h
  · rintro rfl
    exact h

theorem Spawns.born {request : Option Image} (h : d.Spawns line s request) (host : Host) :
    (((d.spawning (spawn host)).dispatch line).perform s).2.born =
      s.born ++ host.made s request := by
  cases h with
  | nothing hsame hprocesses =>
    rw [hsame, Session.born_congr hprocesses, Host.made, List.append_nil]
  | once _ hbefore hsame =>
    rw [hsame, Session.born_congr (processes_concluded _ _), born_spawn, hbefore]
    rfl

theorem Spawns.processes (h : d.Spawns line s none) (spawn : Spawner) :
    (((d.spawning spawn).dispatch line).perform s).2.processes = s.processes := by
  obtain ⟨hsame, hprocesses⟩ := h
  rw [hsame, hprocesses]

-- ---------------------------------------------------------------------------
-- Requests
-- ---------------------------------------------------------------------------

/-- The image that a command line calls for, unless it calls for no program or for one that cannot
be launched. -/
def request? (d : Dispatcher) (line : CommandLine) (w : World) : Option Image :=
  match d.searchPath.program? w line.name with
  | none => none
  | some path =>
    if w.isExecutable path ∧ ∀ field ∈ line.fields, ¬ HoldsNul field then some ⟨path, line.fields⟩
    else none

theorem spawns_missing (h : External line)
    (hp : d.searchPath.program? s.world line.name = none) : d.Spawns line s none := by
  have hsame (spawn : Spawner) : ((d.spawning spawn).dispatch line).perform s =
      ((missing line.name).mapError .refused).perform (d.lookedUp line s) := by
    rw [perform_dispatch_external h, perform_runProgram_missing (d := d.spawning spawn) hp]
    rfl
  exact .nothing hsame (processes_remark _ _)

def prepared (d : Dispatcher) (line : CommandLine) (s : Session) : Session :=
  { d.lookedUp line s with out := s.out.flush.2 }

section
variable {path : String} (h : External line)
  (hp : d.searchPath.program? s.world line.name = some path)
include h hp

theorem perform_dispatch_unflushed {f : Failure} (hf : s.out.flush.1 = .error f) :
    (d.dispatch line).perform s = (.error (.refused (.output f)), d.prepared line s) := by
  have hflush : s.out.flush = (.error f, s.out.flush.2) := Prod.ext hf rfl
  rw [perform_dispatch_external h, perform_runProgram_found hp, hflush]
  rfl

theorem perform_dispatch_flushed (hf : s.out.flush.1 = .ok ()) :
    (d.dispatch line).perform s =
      concluded line.name ((d.launch path line.fields).perform (d.prepared line s)) := by
  have hflush : s.out.flush = (.ok (), s.out.flush.2) := Prod.ext hf rfl
  rw [perform_dispatch_external h, perform_runProgram_found hp, hflush]
  rfl

end

theorem spawns_unflushed {f : Failure} (h : External line) (hf : s.out.flush.1 = .error f) :
    d.Spawns line s none := by
  cases hp : d.searchPath.program? s.world line.name with
  | none => exact spawns_missing h hp
  | some path =>
    have hsame (spawn : Spawner) : ((d.spawning spawn).dispatch line).perform s =
        (.error (.refused (.output f)), d.prepared line s) :=
      perform_dispatch_unflushed (d := d.spawning spawn) h hp hf
    exact .nothing hsame rfl

theorem spawns_flushed (h : External line) (hf : s.out.flush.1 = .ok ()) :
    d.Spawns line s (d.request? line s.world) := by
  cases hp : d.searchPath.program? s.world line.name with
  | none =>
    rw [request?, hp]
    exact spawns_missing h hp
  | some path =>
    have hlaunch (spawn : Spawner) : ((d.spawning spawn).dispatch line).perform s =
        concluded line.name ((launchWith spawn path line.fields).perform (d.prepared line s)) :=
      perform_dispatch_flushed h hp hf
    simp only [request?, hp]
    split
    · next hgranted =>
      have hspawn (spawn : Spawner) : ((d.spawning spawn).dispatch line).perform s =
          concluded line.name ((spawn ⟨path, line.fields⟩).perform (d.prepared line s)) := by
        have hrequest : Granted (d.prepared line s).world path line.fields :=
          granted_iff.mpr hgranted
        rw [hlaunch, hrequest.perform_launchWith]
        rfl
      exact .once hf rfl hspawn
    · next hrefused =>
      obtain ⟨e, he⟩ := perform_launchWith_refused (mt granted_iff.mp hrefused)
      have hsame (spawn : Spawner) : ((d.spawning spawn).dispatch line).perform s =
          concluded line.name (.error e, d.prepared line s) := by
        rw [hlaunch, he spawn (d.prepared line s) rfl]
      exact .nothing hsame (processes_concluded _ _)

end Dispatcher

end LineShell
