import LineShell.Proofs.Files.Change
import LineShell.Resolution

/-!
# The program a name calls for

A name calls for a file by one of three rules, and by no more than one: it is a path, or some
directory of the search path is the first to have an executable file of that name, or there is
none and the directory in use has one. `callsFor_iff`: that is the file which is launched. The
empty name calls for nothing, since an entry of the search path leads to a directory if anywhere.
-/

namespace LineShell

-- ---------------------------------------------------------------------------
-- Paths with a slash at the end
-- ---------------------------------------------------------------------------

theorem getLast?_bytesOf {path : String} (h : EndsInSlash path) :
    (bytesOf path).getLast? = some Files.slash := by
  obtain ⟨init, hinit⟩ := List.getLast?_eq_some_iff.mp h
  rw [bytesOf, Utf8.encode, hinit, List.flatMap_append, List.getLast?_append]
  rfl

theorem Files.FileTree.directory?_of_lookup {t : FileTree} {u : User} {cwd id : NodeId}
    {bytes : Bytes} (hslash : bytes.getLast? = some slash) (h : t.lookup u cwd bytes = .ok id) :
    (t.directory? id).isSome := by
  obtain ⟨-, -, hroute⟩ := place_eq_ok.mp (lookup_eq_ok.mp h)
  exact hroute.isSome (decide_eq_true hslash)

theorem World.directory?_of_locate {w : World} {path : String} {id : Files.NodeId}
    (hslash : EndsInSlash path) (h : w.locate path = .ok id) : (w.files.directory? id).isSome := by
  obtain ⟨bytes, hbytes, hlookup⟩ := locate_eq_ok.mp h
  unfold pathBytes at hbytes
  split at hbytes
  · cases hbytes
  · cases hbytes
    exact Files.FileTree.directory?_of_lookup (getLast?_bytesOf hslash) hlookup

theorem World.not_isExecutable_of_endsInSlash {w : World} {path : String} (h : EndsInSlash path) :
    ¬ w.isExecutable path := by
  cases hlocate : w.locate path with
  | error f => simp [isExecutable, leadsTo, stat, hlocate, Except.toOption]
  | ok id =>
    obtain ⟨dir, hdir⟩ := Option.isSome_iff_exists.mp (directory?_of_locate h hlocate)
    obtain ⟨node, hnode, hcontent⟩ := Files.FileTree.directory?_eq_some.mp hdir
    simp [isExecutable, leadsTo, stat, hlocate, hnode, hcontent, Except.toOption,
      mayRun, Files.Node.isFile]

namespace SearchPath

/-- The file that a name calls for. If the name is a path the file need not be there. -/
inductive CallsFor (path : SearchPath) (w : World) (name : String) : String → Prop
  | itself : IsPath name → CallsFor path w name name
  | listed {before after : List String} {dir : String} : ¬ IsPath name →
      path.dirs = before ++ dir :: after → (∀ other ∈ before, ¬ w.isExecutable (other ++ name)) →
      w.isExecutable (dir ++ name) → CallsFor path w name (dir ++ name)
  | nearby : ¬ IsPath name → (∀ dir ∈ path.dirs, ¬ w.isExecutable (dir ++ name)) →
      w.isExecutable name → CallsFor path w name name

variable {path : SearchPath} {w : World} {name target : String}

theorem find?_candidates_iff : (path.candidates name).find? w.isExecutable = some target ↔
    ∃ before dir after, path.dirs = before ++ dir :: after ∧
      (∀ other ∈ before, ¬ w.isExecutable (other ++ name)) ∧ w.isExecutable (dir ++ name) ∧
      dir ++ name = target := by
  rw [candidates, List.find?_map, Option.map_eq_some_iff]
  constructor
  · rintro ⟨dir, hfind, rfl⟩
    obtain ⟨hx, before, after, hdirs, hbefore⟩ := List.find?_eq_some_iff_append.mp hfind
    exact ⟨before, dir, after, hdirs, by simpa using hbefore, hx, rfl⟩
  · rintro ⟨before, dir, after, hdirs, hbefore, hx, rfl⟩
    refine ⟨dir, List.find?_eq_some_iff_append.mpr ⟨hx, before, after, hdirs, ?_⟩, rfl⟩
    simpa using hbefore

theorem find?_candidates_eq_none : (path.candidates name).find? w.isExecutable = none ↔
    ∀ dir ∈ path.dirs, ¬ w.isExecutable (dir ++ name) := by
  simp [candidates]

theorem find?_candidates_empty : (path.candidates "").find? w.isExecutable = none := by
  rw [find?_candidates_eq_none]
  intro dir hdir
  rw [String.append_empty]
  exact World.not_isExecutable_of_endsInSlash (path.closed dir hdir)

theorem not_isPath_empty : ¬ IsPath "" := by decide

theorem resolve?_of_isPath (h : IsPath name) : path.resolve? w name = some name := by
  have hne : name ≠ "" := by
    rintro rfl
    exact not_isPath_empty h
  simp [resolve?, hne, h]

theorem resolve?_of_not_isPath (h : ¬ IsPath name) :
    path.resolve? w name = (path.candidates name).find? w.isExecutable := by
  unfold resolve?
  split
  · next hempty => rw [hempty, find?_candidates_empty]
  · rfl

/-- A name calls for one file at most, and that is the program which is launched. -/
theorem callsFor_iff : path.CallsFor w name target ↔ path.program? w name = some target := by
  constructor
  · intro h
    cases h with
    | itself hpath => rw [program?, resolve?_of_isPath hpath, Option.some_or]
    | listed hpath hdirs hbefore hx =>
      have hfind := find?_candidates_iff.mpr ⟨_, _, _, hdirs, hbefore, hx, rfl⟩
      rw [program?, resolve?_of_not_isPath hpath, hfind, Option.some_or]
    | nearby hpath hdirs hx =>
      have hfind := find?_candidates_eq_none.mpr hdirs
      rw [program?, resolve?_of_not_isPath hpath, hfind, Option.none_or, if_pos hx]
  · intro h
    by_cases hpath : IsPath name
    · rw [program?, resolve?_of_isPath hpath, Option.some_or, Option.some.injEq] at h
      rw [← h]
      exact .itself hpath
    · rw [program?, resolve?_of_not_isPath hpath] at h
      cases hfind : (path.candidates name).find? w.isExecutable with
      | some found =>
        rw [hfind, Option.some_or, Option.some.injEq] at h
        obtain ⟨before, dir, after, hdirs, hbefore, hx, rfl⟩ := find?_candidates_iff.mp hfind
        rw [← h]
        exact .listed hpath hdirs hbefore hx
      | none =>
        rw [hfind, Option.none_or, Option.ite_none_right_eq_some, Option.some.injEq] at h
        obtain ⟨hx, rfl⟩ := h
        exact .nearby hpath (find?_candidates_eq_none.mp hfind) hx

end SearchPath

end LineShell
