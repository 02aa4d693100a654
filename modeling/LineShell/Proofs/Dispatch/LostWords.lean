import LineShell.Programs.System
import LineShell.Proofs.Builtin.Performance
import LineShell.Proofs.Dispatch.Children

/-!
# Effects and lost words

Commands write while they work, and any of their words may be lost. No word comes between a command
and what it does: in one world commands have the same effects on every output. Only the flush
before a program counts: if it fails there is no child.
-/

namespace LineShell.Dispatcher

open LineShell.Action
open Programs (Host)

variable {d : Dispatcher} {line : CommandLine} {s t : Session}

/-- What is the same for two sessions, of whose outputs nothing is known. -/
structure SameEffects (d : Dispatcher) (s t : Session) : Prop where
  builtins : ∀ fields, ((Builtin.Registry.standard.execute fields).perform s).2.world =
    ((Builtin.Registry.standard.execute fields).perform t).2.world
  /-- Of an output it only matters whether it can be flushed. -/
  spawns : ∀ line, External line → (s.out.flush.1 = .ok () ↔ t.out.flush.1 = .ok ()) →
    ∃ request, ∀ other, (d.Spawns line s other ↔ other = request) ∧
      (d.Spawns line t other ↔ other = request)
  born : ∀ line, External line → (s.out.flush.1 = .ok () ↔ t.out.flush.1 = .ok ()) →
    ∃ made, ((d.dispatch line).perform s).2.born = s.born ++ made ∧
      ((d.dispatch line).perform t).2.born = t.born ++ made
  unflushed : ∀ line f, External line → s.out.flush.1 = .error f →
    (∀ other, d.Spawns line s other ↔ other = none) ∧
      ((d.dispatch line).perform s).2.processes = s.processes ∧
      ((d.searchPath.program? s.world line.name).isSome →
        ((d.dispatch line).perform s).1 = .error (.refused (.output f)))

theorem spawns_alike (hw : s.world = t.world) (h : External line)
    (hflush : s.out.flush.1 = .ok () ↔ t.out.flush.1 = .ok ()) :
    ∃ request, d.Spawns line s request ∧ d.Spawns line t request := by
  rcases hs : s.out.flush.1 with f | _
  · rcases ht : t.out.flush.1 with f' | _
    · exact ⟨none, spawns_unflushed h hs, spawns_unflushed h ht⟩
    · rw [hs, ht] at hflush
      simp at hflush
  · refine ⟨d.request? line s.world, spawns_flushed h hs, ?_⟩
    rw [hw]
    exact spawns_flushed h (hflush.mp hs)

theorem execute_alike (fields : List String) (hw : s.world = t.world) :
    ((Builtin.Registry.standard.execute fields).perform s).2.world =
      ((Builtin.Registry.standard.execute fields).perform t).2.world := by
  cases fields with
  | nil => exact hw
  | cons name args =>
    cases hreplies : Builtin.replies? name with
    | none =>
      simp only [Builtin.Registry.execute, Builtin.replies?_eq_none.mp hreplies, perform_pure]
      exact hw
    | some replies =>
      have hserves := Builtin.standard_serves hreplies args
      rw [hserves.execute_world, hserves.execute_world, hw]

/-- Commands have the same effects on every output, but for a flush before a program that fails:
then there is no child. -/
theorem dispatch_sameEffects (host : Host) (path : SearchPath) {s t : Session}
    (hw : s.world = t.world) (hforks : s.forks = t.forks) :
    (onHost host path).SameEffects s t where
  builtins fields := execute_alike fields hw
  spawns line h hflush := by
    obtain ⟨request, hs, ht⟩ := spawns_alike (d := onHost host path) hw h hflush
    exact ⟨request, fun other => ⟨hs.iff other, ht.iff other⟩⟩
  born line h hflush := by
    obtain ⟨request, hs, ht⟩ := spawns_alike (d := onHost host path) hw h hflush
    have hmade : host.made t request = host.made s request := by
      cases request with
      | none => rfl
      | some image => rw [Host.made, Host.made, hw, hforks]
    have hborn := ht.born host
    rw [hmade] at hborn
    exact ⟨host.made s request, hs.born host, hborn⟩
  unflushed line f h hf := by
    have hnone : (onHost host path).Spawns line s none := spawns_unflushed h hf
    refine ⟨hnone.iff, hnone.processes _, fun hp => ?_⟩
    obtain ⟨program, hprogram⟩ := Option.isSome_iff_exists.mp hp
    rw [perform_dispatch_unflushed h hprogram hf]

def heard : Session := { world := .fresh }

def unheard : Session :=
  { heard with
    out := {
      limit := some ⟨0, .system .noSpace⟩
      flushFaults := [⟨1, .system .noSpace⟩] } }

theorem dispatch_sameEffects_unheard :
    heard.world = unheard.world ∧ heard.forks = unheard.forks ∧
      ((Builtin.Registry.standard.execute ["delete", "bin/true"]).perform heard).2.world =
        ((Builtin.Registry.standard.execute ["delete", "bin/true"]).perform unheard).2.world ∧
      (((onHost (.system false) .default).dispatch ⟨"true", []⟩).perform heard).2.born =
        [(2, ⟨"/bin/true", ["true"]⟩)] ∧
      (((onHost (.system false) .default).dispatch ⟨"true", []⟩).perform unheard).2.born = [] ∧
      (((onHost (.system false) .default).dispatch ⟨"true", []⟩).perform unheard).1 =
        .error (.refused (.output (.system .noSpace))) := by
  have h := dispatch_sameEffects (.system false) .default (s := unheard) (t := heard) rfl rfl
  have hexternal : External ⟨"true", []⟩ := ⟨rfl, by decide⟩
  have hresolve : SearchPath.default.resolve? .fresh "true" = some "/bin/true" :=
    List.find?_cons_of_pos World.fresh_isExecutable_true
  have hprogram : (onHost (.system false) .default).searchPath.program? .fresh "true" =
      some "/bin/true" := by
    change (SearchPath.default.resolve? .fresh "true").or _ = _
    rw [hresolve, Option.some_or]
  have hrequest : (onHost (.system false) .default).request? ⟨"true", []⟩ .fresh =
      some ⟨"/bin/true", ["true"]⟩ := by
    simp only [request?, hprogram]
    exact if_pos ⟨World.fresh_isExecutable_true, by decide⟩
  have hheard := (spawns_flushed (d := onHost (.system false) .default) (s := heard) hexternal
    rfl).born (.system false)
  rw [show heard.world = .fresh from rfl, hrequest] at hheard
  obtain ⟨-, hunheard, hresult⟩ := h.unflushed ⟨"true", []⟩ (.system .noSpace) hexternal rfl
  refine ⟨rfl, rfl, (h.builtins _).symm, hheard, Session.born_congr hunheard, hresult ?_⟩
  exact Option.isSome_iff_exists.mpr ⟨_, hprogram⟩

end LineShell.Dispatcher
