import Mathlib.Data.List.Nodup
import Mathlib.Tactic.Tauto
import LineShell.Proofs.Builtin.Performance
import LineShell.Proofs.Dispatch.Course
import LineShell.Proofs.Text.Shown

/-!
# Registering commands

A registry after any commands have been registered, under new names and under names that are
taken. `registerAll_registered`: its names stand once each, in order, and a name runs the command
that was registered last under it.
-/

namespace LineShell.Builtin

open LineShell.Action

namespace Registry

def registerAll (r : Registry) (calls : List (String × Command)) : Registry :=
  calls.foldl (fun r (name, command) => r.register name command) r

/-- No name stands twice, and the names stand in the order of their bytes. -/
def Ordered (r : Registry) : Prop := r.names.Pairwise fun a b => bytesOf a < bytesOf b

variable {r r' : Registry} {name other : String} {args : List String} {command : Command}
  {calls : List (String × Command)}

-- ---------------------------------------------------------------------------
-- Names
-- ---------------------------------------------------------------------------

theorem mem_names_iff : name ∈ r.names ↔ ∃ command, r.find? name = some command := by
  rw [← contains_iff, contains, Option.isSome_iff_exists]

theorem mem_names_register :
    other ∈ (r.register name command).names ↔ other = name ∨ other ∈ r.names := by
  rw [← contains_iff, ← contains_iff, contains, contains, find?_register]
  split
  · next h => simp [h]
  · next h => simp [h]

theorem mem_names_registerAll :
    name ∈ (r.registerAll calls).names ↔ name ∈ r.names ∨ name ∈ calls.map (·.1) := by
  induction calls generalizing r with
  | nil => simp [registerAll]
  | cons call rest ih =>
    calc name ∈ ((r.register call.1 call.2).registerAll rest).names
      _ ↔ (name = call.1 ∨ name ∈ r.names) ∨ name ∈ rest.map (·.1) := by
        rw [ih, mem_names_register]
      _ ↔ name ∈ r.names ∨ name ∈ (call :: rest).map (·.1) := by
        rw [List.map_cons, List.mem_cons]
        tauto

theorem Ordered.register (h : r.Ordered) : (r.register name command).Ordered := by
  obtain ⟨commands⟩ := r
  rw [Registry.register]
  induction commands with
  | nil => exact List.pairwise_singleton _ _
  | cons entry rest ih =>
    obtain ⟨first, old⟩ := entry
    obtain ⟨hfirst, hrest⟩ := List.pairwise_cons.mp h
    rw [put]
    split
    · next heq =>
      subst heq
      exact h
    next hne =>
    split
    · next hlt =>
      refine List.pairwise_cons.mpr ⟨fun after hafter => ?_, h⟩
      rcases List.mem_cons.mp hafter with rfl | hafter
      · exact hlt
      · exact List.lt_trans hlt (hfirst after hafter)
    · next hle =>
      have hlt : bytesOf first < bytesOf name :=
        Std.lt_of_le_of_ne (List.not_lt.mp hle) fun h => hne (bytesOf_inj.mp h).symm
      -- The rest has no other names than it had and the new one.
      refine List.pairwise_cons.mpr ⟨fun after hafter => ?_, ih hrest⟩
      have hafter : after ∈ (Registry.register ⟨rest⟩ name command).names := hafter
      rcases mem_names_register.mp hafter with rfl | hafter
      · exact hlt
      · exact hfirst after hafter

theorem Ordered.registerAll (h : r.Ordered) (calls : List (String × Command)) :
    (r.registerAll calls).Ordered := by
  induction calls generalizing r with
  | nil => exact h
  | cons call rest ih => exact ih h.register

theorem ordered_standard : standard.Ordered :=
  Ordered.registerAll (r := empty) .nil standardCommands

theorem names_standard : standard.names.Perm Dispatcher.builtinNames := by decide

theorem Ordered.nodup (h : r.Ordered) : r.names.Nodup := by
  refine h.imp fun {a b} hlt heq => ?_
  rw [heq] at hlt
  exact List.lt_irrefl _ hlt

/-- Sorting the names in whatever order they come gives them in order. -/
theorem Ordered.eq_of_perm (h : r.Ordered) {names : List String} (hperm : names.Perm r.names)
    (hsorted : names.Pairwise fun a b => bytesOf a ≤ bytesOf b) : names = r.names :=
  hperm.eq_of_pairwise (fun _ _ _ _ hle hge => bytesOf_inj.mp (List.le_antisymm hle hge)) hsorted
    (h.imp fun hlt => List.le_of_lt hlt)

-- ---------------------------------------------------------------------------
-- Commands
-- ---------------------------------------------------------------------------

theorem find?_eq_some_iff (h : r.names.Nodup) :
    r.find? name = some command ↔ (name, command) ∈ r.commands := by
  refine ⟨mem_of_find?, fun hmem => ?_⟩
  obtain ⟨found, hfind⟩ := mem_names_iff.mp (List.mem_map_of_mem (f := Prod.fst) hmem)
  cases List.inj_on_of_nodup_map h (mem_of_find? hfind) hmem rfl
  exact hfind

theorem find?_eq_of_perm (h : r.names.Nodup) (hperm : r'.commands.Perm r.commands) :
    r'.find? name = r.find? name := by
  have hnodup : r'.names.Nodup := (hperm.map Prod.fst).nodup_iff.mpr h
  refine Option.ext fun command => ?_
  rw [find?_eq_some_iff h, find?_eq_some_iff hnodup, hperm.mem_iff]

theorem execute_congr (h : r'.find? name = r.find? name) :
    r'.execute (name :: args) = r.execute (name :: args) := by
  simp only [execute, h]

theorem perform_execute_some (h : r.find? name = some command) (s : Session) :
    (r.execute (name :: args)).perform s =
      match (command (name :: args)).perform
          { s with log := s.log ++ [.running name args.length] } with
      | (.error e, t) => (.error e, t)
      | (.ok (), t) => (.ok true, t) := by
  simp only [execute, h, perform_bind, perform_note]
  rcases Action.perform _ _ with ⟨e | _, t⟩
  · rfl
  · rfl

theorem perform_execute_idle {fields : List String} (h : ∀ name ∈ fields.head?, name ∉ r.names)
    (s : Session) : (r.execute fields).perform s = (.ok false, s) := by
  cases fields with
  | nil => rfl
  | cons name args =>
    have hnone : r.find? name = none := by
      refine Option.eq_none_iff_forall_ne_some.mpr fun command hfind => ?_
      exact h name rfl (mem_names_iff.mpr ⟨command, hfind⟩)
    simp only [execute, hnone, perform_pure]

/-- The command that a name stands for after some have been registered: the last one under that
name, or else the one that every shell has. -/
inductive StandsFor (calls : List (String × Command)) (name : String) (command : Command) : Prop
  | last {before after : List (String × Command)} : calls = before ++ (name, command) :: after →
      (∀ call ∈ after, call.1 ≠ name) → StandsFor calls name command
  | own : (∀ call ∈ calls, call.1 ≠ name) → (name, command) ∈ standardCommands →
      StandsFor calls name command

theorem last_or_none (calls : List (String × Command)) (name : String) :
    (∃ before command after, calls = before ++ (name, command) :: after ∧
      ∀ call ∈ after, call.1 ≠ name) ∨ ∀ call ∈ calls, call.1 ≠ name := by
  induction calls with
  | nil => exact .inr nofun
  | cons call rest ih =>
    rcases ih with ⟨before, command, after, rfl, hafter⟩ | hrest
    · exact .inl ⟨call :: before, command, after, rfl, hafter⟩
    · by_cases hcall : call.1 = name
      · exact .inl ⟨[], call.2, rest, by rw [← hcall]; rfl, hrest⟩
      · exact .inr (List.forall_mem_cons.mpr ⟨hcall, hrest⟩)

theorem find?_registerAll_of_ne (h : ∀ call ∈ calls, call.1 ≠ name) :
    (r.registerAll calls).find? name = r.find? name := by
  induction calls generalizing r with
  | nil => rfl
  | cons call rest ih =>
    obtain ⟨hcall, hrest⟩ := List.forall_mem_cons.mp h
    calc ((r.register call.1 call.2).registerAll rest).find? name
      _ = (r.register call.1 call.2).find? name := ih hrest
      _ = r.find? name := by rw [find?_register, if_neg hcall.symm]

theorem find?_standard :
    standard.find? name = some command ↔ (name, command) ∈ standardCommands := by
  rw [find?_eq_some_iff ordered_standard.nodup, standard_commands]
  simp only [standardCommands, List.mem_cons, List.not_mem_nil, or_false]
  tauto

theorem StandsFor.find? (h : StandsFor calls name command) :
    (standard.registerAll calls).find? name = some command := by
  cases h with
  | @last before after hcalls hafter =>
    have hsplit : standard.registerAll calls =
        ((standard.registerAll before).register name command).registerAll after := by
      rw [hcalls]
      exact List.foldl_append
    rw [hsplit, find?_registerAll_of_ne hafter, find?_register, if_pos rfl]
  | own hcalls hmem =>
    rw [find?_registerAll_of_ne hcalls, find?_standard]
    exact hmem

theorem find?_registerAll :
    (standard.registerAll calls).find? name = some command ↔ StandsFor calls name command := by
  refine ⟨fun hfind => ?_, StandsFor.find?⟩
  rcases last_or_none calls name with ⟨before, last, after, hcalls, hafter⟩ | hcalls
  · have hlast : StandsFor calls name last := .last hcalls hafter
    cases hfind.symm.trans hlast.find?
    exact hlast
  · refine .own hcalls (find?_standard.mp ?_)
    rw [← hfind, find?_registerAll_of_ne hcalls]

end Registry

-- ---------------------------------------------------------------------------
-- Registries
-- ---------------------------------------------------------------------------

open Dispatcher (builtinNames)
open Registry (StandsFor)

structure Registered (calls : List (String × Command)) (r : Registry) : Prop where
  ascending : r.names.Pairwise fun a b => bytesOf a < bytesOf b
  nodup : r.names.Nodup
  names : ∀ name, name ∈ r.names ↔ name ∈ builtinNames ∨ name ∈ calls.map (·.1)
  contains : ∀ name, r.contains name ↔ name ∈ r.names
  stands : ∀ name, name ∈ r.names ↔ ∃ command, StandsFor calls name command
  /-- The command runs once on all the fields, and what it comes to decides. -/
  runs : ∀ name args command, StandsFor calls name command → ∀ s,
    (r.execute (name :: args)).perform s =
      match (command (name :: args)).perform
          { s with log := s.log ++ [.running name args.length] } with
      | (.error e, t) => (.error e, t)
      | (.ok (), t) => (.ok true, t)
  idle : ∀ fields, (∀ name ∈ fields.head?, name ∉ r.names) → ∀ s,
    (r.execute fields).perform s = (.ok false, s)
  apart : ∀ name command other, other ≠ name →
    (r.register name command).contains other = r.contains other ∧
      ∀ args, (r.register name command).execute (other :: args) = r.execute (other :: args)
  /-- The order in which the entries lie does not matter. -/
  unordered : ∀ r' : Registry, r'.commands.Perm r.commands →
    (∀ fields, r'.execute fields = r.execute fields) ∧
      ∀ names, names.Perm r'.names → (names.Pairwise fun a b => bytesOf a ≤ bytesOf b) →
        names = r.names

theorem registerAll_registered (calls : List (String × Command)) :
    Registered calls (Registry.standard.registerAll calls) where
  ascending := Registry.ordered_standard.registerAll calls
  nodup := (Registry.ordered_standard.registerAll calls).nodup
  names _ := by rw [Registry.mem_names_registerAll, Registry.names_standard.mem_iff]
  contains := Registry.contains_iff _
  stands _ := Registry.mem_names_iff.trans (exists_congr fun _ => Registry.find?_registerAll)
  runs _ _ _ h := Registry.perform_execute_some h.find?
  idle _ h := Registry.perform_execute_idle h
  apart name command other h := by
    have hfind : ((Registry.standard.registerAll calls).register name command).find? other =
        (Registry.standard.registerAll calls).find? other := by
      rw [Registry.find?_register, if_neg h]
    refine ⟨?_, fun args => Registry.execute_congr hfind⟩
    rw [Registry.contains, Registry.contains, hfind]
  unordered r' hperm := by
    have hordered := Registry.ordered_standard.registerAll calls
    refine ⟨fun fields => ?_, fun names hnames hsorted => ?_⟩
    · cases fields with
      | nil => rfl
      | cons name args =>
        exact Registry.execute_congr (Registry.find?_eq_of_perm hordered.nodup hperm)
    · exact hordered.eq_of_perm (hnames.trans (hperm.map Prod.fst)) hsorted

example : (Registry.standard.registerAll [("up", down), ("exit", files), ("", up)]).names =
    ["", "copy", "delete", "down", "exit", "files", "info", "up", "where"] := by
  decide

end LineShell.Builtin
