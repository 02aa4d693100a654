import Mathlib.Logic.Relation
import LineShell.Proofs.Config.Written
import LineShell.Proofs.Programs.Launches
import LineShell.Proofs.Resolution.Candidates

/-!
# First matches

A name is looked up in the entries of a list from the front, and the first executable file ends the
look-up. `ofList_looksUp`: how lists are put together and how their entries are written makes no
difference to that but for the order, and an entry without a directory or without an executable
file of the name is passed over.
-/

namespace LineShell

open Programs (Executable Unfit isExecutable_iff unfit_iff)

namespace SearchPath

-- ---------------------------------------------------------------------------
-- Lists as they were written
-- ---------------------------------------------------------------------------

/-- Another way to write a list down. -/
inductive Respells : List String → List String → Prop
  | drop (before after : List String) : Respells (before ++ "" :: after) (before ++ after)
  | insert (before after : List String) : Respells (before ++ after) (before ++ "" :: after)
  | close {dir : String} (before after : List String) : dir ≠ "" → ¬ EndsInSlash dir →
      Respells (before ++ dir :: after) (before ++ (dir ++ "/") :: after)

theorem ofList_append (raw more : List String) :
    (ofList (raw ++ more)).dirs = (ofList raw).dirs ++ (ofList more).dirs := by
  simp [ofList]

theorem Respells.ofList {raw raw' : List String} (h : Respells raw raw') :
    ofList raw = ofList raw' := by
  apply ext_dirs
  cases h with
  | drop before after => rw [ofList_append, ofList_append, ofList_cons_empty]
  | insert before after => rw [ofList_append, ofList_append, ofList_cons_empty]
  | @close dir before after hempty hslash =>
    have hclose : SearchPath.close (dir ++ "/") = SearchPath.close dir := by
      have hclosed : EndsInSlash (dir ++ "/") := by simp [EndsInSlash, String.toList_append]
      rw [SearchPath.close, SearchPath.close, if_pos hclosed, if_neg hslash]
    have hempty' : dir ++ "/" ≠ "" := by simp
    rw [ofList_append, ofList_append, ofList_cons hempty, ofList_cons hempty', hclose]

theorem ofList_of_respells {raw raw' : List String} (h : Relation.ReflTransGen Respells raw raw') :
    ofList raw = ofList raw' := by
  induction h with
  | refl => rfl
  | tail _ hlast ih => exact ih.trans hlast.ofList

-- ---------------------------------------------------------------------------
-- Look-ups
-- ---------------------------------------------------------------------------

variable {w : World} {name target : String}

/-- The first of some entries in which the name is an executable file. -/
def FirstIn (dirs : List String) (w : World) (name target : String) : Prop :=
  ∃ before dir after, dirs = before ++ dir :: after ∧
    (∀ other ∈ before, ¬ Executable w (other ++ name)) ∧ Executable w (dir ++ name) ∧
    target = dir ++ name

/-- An entry in which there is nothing to execute under the name. -/
inductive PassedOver (w : World) (name dir : String) : Prop
  /-- Nothing is there, or something that is no directory. -/
  | noDirectory : ¬ w.isDirectory dir → PassedOver w name dir
  | unfit : Unfit w (close dir ++ name) → PassedOver w name dir

theorem resolve?_iff_firstIn {path : SearchPath} (hpath : ¬ IsPath name) :
    path.resolve? w name = some target ↔ FirstIn path.dirs w name target := by
  simp only [resolve?_of_not_isPath hpath, find?_candidates_iff, isExecutable_iff, FirstIn,
    eq_comm (a := target)]

theorem resolve?_append (raw more : List String) (w : World) (name : String) :
    (ofList (raw ++ more)).resolve? w name =
      ((ofList raw).resolve? w name).or ((ofList more).resolve? w name) := by
  by_cases hpath : IsPath name
  · simp only [resolve?_of_isPath hpath, Option.some_or]
  · simp only [resolve?_of_not_isPath hpath, candidates, ofList_append, List.map_append,
      List.find?_append]

theorem PassedOver.unfit_candidate {dir : String} (h : PassedOver w name dir) (hdir : dir ≠ "")
    (hpath : ¬ IsPath name) : Unfit w (close dir ++ name) := by
  by_cases hname : name = ""
  · -- What ends in a slash is no file.
    rw [hname, String.append_empty, unfit_iff, ← isExecutable_iff]
    exact World.not_isExecutable_of_endsInSlash (endsInSlash_close dir)
  cases h with
  | unfit hunfit => exact hunfit
  | noDirectory hno =>
    cases hlocate : w.locate (close dir ++ name) with
    | error f => exact .nowhere (f := f) (by simp only [World.stat, hlocate])
    | ok id =>
      have hinto := World.leadsInto_of_candidate hdir hname (mt Or.inl hpath) hlocate
      exact absurd (World.isDirectory_iff.mpr hinto) hno

theorem resolve?_passedOver {dir : String} (h : PassedOver w name dir) (hpath : ¬ IsPath name) :
    (ofList [dir]).resolve? w name = none := by
  rw [resolve?_of_not_isPath hpath]
  by_cases hdir : dir = ""
  · subst hdir
    rfl
  · have hunfit := unfit_iff.mp (h.unfit_candidate hdir hpath)
    have hdirs : (ofList [dir]).dirs = [close dir] := ofList_cons hdir []
    rw [find?_candidates_eq_none, hdirs, List.forall_mem_singleton]
    exact mt isExecutable_iff.mp hunfit

-- ---------------------------------------------------------------------------
-- All look-ups
-- ---------------------------------------------------------------------------

structure LooksUp (raw more : List String) (w : World) (name : String) : Prop where
  append : (ofList (raw ++ more)).resolve? w name =
    ((ofList raw).resolve? w name).or ((ofList more).resolve? w name)
  found_iff : ¬ IsPath name → ∀ target, (ofList raw).resolve? w name = some target ↔
    FirstIn (ofList raw).dirs w name target
  passed : ¬ IsPath name → ∀ dir, PassedOver w name dir →
    (ofList (raw ++ dir :: more)).resolve? w name = (ofList (raw ++ more)).resolve? w name
  kept : ∀ target, (ofList raw).resolve? w name = some target →
    (ofList (raw ++ more)).resolve? w name = some target
  entries : Closes raw (ofList raw).dirs ∧ ∀ dir ∈ (ofList raw).dirs, dir ≠ "" ∧ EndsInSlash dir
  idempotent : ofList (ofList raw).dirs = ofList raw
  respelled : ∀ raw', Relation.ReflTransGen Respells raw raw' →
    (ofList raw).resolve? w name = (ofList raw').resolve? w name
  itself : IsPath name → (ofList raw).resolve? w name = some name
  unnamed : name = "" → (ofList raw).resolve? w name = none

/-- Of the lists that are searched only the order of their entries counts. -/
theorem ofList_looksUp (raw more : List String) (w : World) (name : String) :
    LooksUp raw more w name where
  append := resolve?_append raw more w name
  found_iff hpath target := resolve?_iff_firstIn hpath
  passed hpath dir h := by
    have hone : (ofList (dir :: more)).resolve? w name = (ofList more).resolve? w name := by
      rw [← List.singleton_append, resolve?_append, resolve?_passedOver h hpath, Option.none_or]
    rw [resolve?_append, hone, resolve?_append]
  kept target h := by rw [resolve?_append, h, Option.some_or]
  entries := by
    refine ⟨closes_ofList raw, fun dir hdir => ?_⟩
    obtain ⟨origin, -, rfl⟩ := List.mem_map.mp hdir
    exact ⟨close_ne_empty origin, endsInSlash_close origin⟩
  idempotent := ofList_dirs (ofList raw)
  respelled raw' h := by rw [ofList_of_respells h]
  itself hpath := resolve?_of_isPath hpath
  unnamed hname := by rw [resolve?, if_pos hname]

end SearchPath

end LineShell
