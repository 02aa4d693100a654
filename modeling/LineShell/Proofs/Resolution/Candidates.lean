import LineShell.Proofs.Builtin.Moving
import LineShell.Proofs.Dispatch.Target

/-!
# Paths of candidates

An entry of a search path and a name are one path, whose names are those of the entry and then
those of the name. So it leads nowhere unless the entry leads to a directory, and the entry for the
directory in use leads wherever the name leads by itself, as far as the path is not too long.
-/

namespace LineShell

open Files (FileTree NodeId Path)

-- ---------------------------------------------------------------------------
-- Names of paths
-- ---------------------------------------------------------------------------

namespace Files.Path

theorem names_join (front rest : Bytes) :
    (ofBytes (front ++ slash :: rest)).names = (ofBytes front).names ++ (ofBytes rest).names := by
  simp only [ofBytes, Text.pieces_join, List.filter_append]

theorem names_ne_nil {bytes : Bytes} (hne : bytes ≠ []) (hfirst : bytes.head? ≠ some slash) :
    (ofBytes bytes).names ≠ [] := by
  obtain ⟨b, rest, rfl⟩ := List.exists_cons_of_ne_nil hne
  have hb : b ≠ slash := fun h => hfirst (congrArg some h)
  rw [ofBytes, Text.pieces, if_neg hb]
  cases Text.pieces slash rest <;> simp

end Files.Path

theorem head?_bytesOf_slash {path : String} :
    (bytesOf path).head? = some Files.slash ↔ path.toList.head? = some '/' := by
  cases hpath : path.toList with
  | nil => simp [bytesOf, Utf8.encode, hpath]
  | cons c cs =>
    obtain ⟨b, more, hc, hwritten⟩ := Utf8.exists_written c
    simp only [bytesOf, Utf8.encode, hpath, List.flatMap_cons, hc, List.cons_append,
      List.head?_cons, Option.some.injEq]
    constructor
    · rintro rfl
      cases hwritten with
      | one _ hb => exact Char.toNat_inj.mp hb.symm
      | two _ _ hb _ | three _ _ _ hb _ _ | four _ _ hb _ _ _ =>
        have hslash : Files.slash.toNat = 0x2F := rfl
        omega
    · rintro rfl
      cases hc
      rfl

theorem names_bytesOf_ne_nil {name : String} (hne : name ≠ "")
    (hfirst : name.toList.head? ≠ some '/') : (Path.ofBytes (bytesOf name)).names ≠ [] :=
  Path.names_ne_nil (mt World.bytesOf_eq_nil.mp hne) (mt head?_bytesOf_slash.mp hfirst)

-- ---------------------------------------------------------------------------
-- Entries and names
-- ---------------------------------------------------------------------------

namespace SearchPath

theorem bytesOf_candidate (dir name : String) :
    ∃ front, bytesOf (close dir ++ name) = front ++ Files.slash :: bytesOf name ∧
      (Path.ofBytes front).names = (Path.ofBytes (bytesOf dir)).names := by
  unfold close
  split
  · next hslash =>
    obtain ⟨front, hfront⟩ := List.getLast?_eq_some_iff.mp (getLast?_bytesOf hslash)
    have hnil : (Path.ofBytes []).names = [] := rfl
    refine ⟨front, ?_, ?_⟩
    · rw [bytesOf_append, hfront, List.append_assoc, List.singleton_append]
    · rw [hfront, Path.names_join, hnil, List.append_nil]
  · have hone : bytesOf "/" = [Files.slash] := rfl
    refine ⟨bytesOf dir, ?_, rfl⟩
    rw [bytesOf_append, bytesOf_append, hone, List.append_assoc,
      List.singleton_append]

theorem exists_close (dir : String) : ∃ more, close dir = dir ++ more := by
  unfold close
  split
  · exact ⟨"", (String.append_empty).symm⟩
  · exact ⟨"/", rfl⟩

end SearchPath

namespace World

variable {w : World} {dir name : String} {id : NodeId}

theorem start_append (hdir : dir ≠ "") (more : String) : w.start (dir ++ more) = w.start dir := by
  obtain ⟨b, rest, hb⟩ := List.exists_cons_of_ne_nil (mt bytesOf_eq_nil.mp hdir)
  simp only [start, Path.ofBytes, bytesOf_append, hb, List.cons_append, List.head?_cons]

theorem Followable.front {more : String} (h : Followable (dir ++ more)) (hdir : dir ≠ "") :
    Followable dir := by
  obtain ⟨hnul, -, hshort⟩ := h
  simp only [HoldsNul, String.toList_append, List.mem_append, not_or] at hnul
  simp only [bytesOf_append, List.length_append] at hshort
  exact ⟨hnul.1, hdir, Nat.le_trans (Nat.le_add_right _ _) hshort⟩

/-- A candidate that leads somewhere is in the directory that the entry leads to. -/
theorem leadsInto_of_candidate (hdir : dir ≠ "") (hname : name ≠ "")
    (hfirst : name.toList.head? ≠ some '/') (h : w.locate (SearchPath.close dir ++ name) = .ok id) :
    ∃ mid, w.LeadsInto dir mid := by
  obtain ⟨front, hbytes, hfront⟩ := SearchPath.bytesOf_candidate dir name
  obtain ⟨more, hmore⟩ := SearchPath.exists_close dir
  have hpath : SearchPath.close dir ++ name = dir ++ (more ++ name) := by
    rw [hmore, String.append_assoc]
  have hfollowable := followable_of_locate h
  have hroute := (locate_reaches hfollowable).mp h
  rw [hbytes, Path.names_join, hfront, hpath, start_append hdir] at hroute
  obtain ⟨mid, hmid, hdirectory⟩ :=
    hroute.front fun hnil => absurd hnil (names_bytesOf_ne_nil hname hfirst)
  rw [hpath] at hfollowable
  exact ⟨mid, hfollowable.front hdir, hmid.relax fun _ => rfl, hdirectory⟩

-- ---------------------------------------------------------------------------
-- The directory in use
-- ---------------------------------------------------------------------------

theorem walk_here {t : FileTree} {u : Files.User} {aim : Files.Aim} {links : Nat}
    {names : List Files.Name} (hne : names ≠ []) (cur : NodeId) (toDirectory : Bool) :
    t.walk u aim links (Files.here :: names) cur toDirectory =
      t.walk u aim links names cur toDirectory := by
  obtain ⟨first, rest, rfl⟩ := List.exists_cons_of_ne_nil hne
  cases hcur : t.directory? cur with
  -- From no directory there is no way, and both have one to go.
  | none => rw [FileTree.walk, hcur, FileTree.walk, hcur]
  | some d =>
    by_cases hopens : t.Opens u cur
    · exact FileTree.walk_here hcur hopens
    · have hdenied := Bool.eq_false_iff.mpr hopens
      rw [FileTree.walk, hcur, FileTree.walk, hcur]
      simp [hdenied]

theorem locate_here (hname : name ≠ "") (hfirst : name.toList.head? ≠ some '/')
    (hshort : (bytesOf ("./" ++ name)).length ≤ Files.longestPath) :
    w.locate ("./" ++ name) = w.locate name := by
  by_cases hnul : HoldsNul name
  · have hnul' : HoldsNul ("./" ++ name) := by
      simp only [HoldsNul, String.toList_append, List.mem_append]
      exact .inr hnul
    simp [locate, pathBytes, hnul, hnul']
  have hnul' : ¬ HoldsNul ("./" ++ name) := by
    simp only [HoldsNul, String.toList_append, List.mem_append, not_or]
    exact ⟨by decide, hnul⟩
  have hbytes : bytesOf ("./" ++ name) = Files.here ++ Files.slash :: bytesOf name :=
    bytesOf_append "./" name
  have hlength : (bytesOf name).length ≤ Files.longestPath := by
    rw [hbytes, List.length_append, List.length_cons] at hshort
    omega
  have hhere : Followable ("./" ++ name) := ⟨hnul', by simp, hshort⟩
  have hplain : Followable name := ⟨hnul, hname, hlength⟩
  have hnames : (Path.ofBytes (bytesOf ("./" ++ name))).names =
      Files.here :: (Path.ofBytes (bytesOf name)).names := by
    rw [hbytes, Path.names_join]
    rfl
  have hto : (Path.ofBytes (bytesOf ("./" ++ name))).toDirectory =
      (Path.ofBytes (bytesOf name)).toDirectory := by
    obtain ⟨b, rest, hb⟩ := List.exists_cons_of_ne_nil (mt bytesOf_eq_nil.mp hname)
    simp only [Path.ofBytes, hbytes, hb, List.getLast?_append, List.getLast?_cons_cons]
    rw [List.getLast?_cons]
    rfl
  have hstart : w.start ("./" ++ name) = w.start name := by
    have habsolute : (Path.ofBytes (bytesOf name)).absolute = false :=
      decide_eq_false (mt head?_bytesOf_slash.mp hfirst)
    rw [start_append (by decide), start, start, habsolute]
    rfl
  rw [locate_followable hhere, locate_followable hplain, hnames, hto, hstart,
    walk_here (names_bytesOf_ne_nil hname hfirst)]

end World

end LineShell
