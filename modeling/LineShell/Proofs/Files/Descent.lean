import LineShell.Proofs.Files.Routes

/-!
# Directories one below the other

In a tree each directory lies in the one it is an entry of, under one name. So there is one way down
to it from the root, and the names on that way are the names of the directory: `namesOf?_iff`.
Taking away an entry that leads to no directory and adding a file keep all directories in place.
-/

namespace LineShell.Files

/-- A directory as it stands in a tree under its number. No name is given twice, and what lies in it
as a directory says so, is numbered after it and has one name. -/
structure Directory.Placed (dir : Directory) (t : FileTree) (id : NodeId) : Prop where
  once : (dir.entries.map (·.1)).Nodup
  inside : ∀ entry ∈ dir.entries, ∀ sub, t.directory? entry.2 = some sub →
    sub.parent = id ∧ id < entry.2
  oneName : ∀ entry ∈ dir.entries, ∀ other ∈ dir.entries, (t.directory? entry.2).isSome →
    other.2 = entry.2 → other.1 = entry.1

namespace FileTree

def IsTree (t : FileTree) : Prop := ∀ id dir, t.directory? id = some dir → dir.Placed t id

inductive Descends (t : FileTree) (start : NodeId) : List Name → NodeId → Prop
  | here : Descends t start [] start
  | into {names : List Name} {id child : NodeId} {name : Name} : Descends t start names id →
      t.Enters id name child → (t.directory? child).isSome →
      Descends t start (names ++ [name]) child

variable {t t' : FileTree} {start id child : NodeId} {names more : List Name} {name : Name}
  {dir sub : Directory}

theorem mem_of_find? (h : dir.find? name = some id) : (name, id) ∈ dir.entries := by
  obtain ⟨entry, hentry, rfl⟩ := Option.map_eq_some_iff.mp h
  obtain rfl : entry.1 = name := by simpa using List.find?_some hentry
  exact List.mem_of_find?_eq_some hentry

theorem not_mem_of_find? (h : dir.find? name = none) : name ∉ dir.entries.map (·.1) := by
  intro hmem
  obtain ⟨entry, hentry, rfl⟩ := List.mem_map.mp hmem
  rw [Directory.find?, Option.map_eq_none_iff, List.find?_eq_none] at h
  exact h entry hentry (by simp)

theorem nodup_concat (honce : (dir.entries.map (·.1)).Nodup) (h : dir.find? name = none) :
    ((dir.entries ++ [(name, id)]).map (·.1)).Nodup := by
  rw [List.map_append, List.nodup_append]
  refine ⟨honce, by simp, fun other hother last hlast he => not_mem_of_find? h ?_⟩
  obtain rfl := List.mem_singleton.mp hlast
  exact he ▸ hother

theorem find?_of_mem (honce : (dir.entries.map (·.1)).Nodup) (h : (name, id) ∈ dir.entries) :
    dir.find? name = some id := by
  obtain ⟨before, after, hentries⟩ := List.append_of_mem h
  refine Option.map_eq_some_iff.mpr ⟨(name, id), ?_, rfl⟩
  rw [List.find?_eq_some_iff_append]
  refine ⟨by simp, before, after, hentries, fun other hother => ?_⟩
  rw [hentries, List.map_append, List.map_cons] at honce
  have hne := (List.nodup_append.mp honce).2.2 other.1 (List.mem_map_of_mem hother) name (by simp)
  simpa using hne

-- ---------------------------------------------------------------------------
-- Trees
-- ---------------------------------------------------------------------------

namespace IsTree

variable (h : t.IsTree)
include h

theorem inside (henters : t.Enters id name child) (hsub : t.directory? child = some sub) :
    sub.parent = id ∧ id < child := by
  obtain ⟨dir, hdir, hfind⟩ := henters
  exact (h id dir hdir).inside _ (mem_of_find? hfind) sub hsub

theorem nameOf? (henters : t.Enters id name child) (hchild : (t.directory? child).isSome) :
    (t.directory? id).bind (·.nameOf? child) = some name := by
  obtain ⟨dir, hdir, hfind⟩ := henters
  have hmem := mem_of_find? hfind
  have hsome : (dir.entries.find? (·.2 = child)).isSome :=
    List.find?_isSome.mpr ⟨_, hmem, by simp⟩
  obtain ⟨entry, hentry⟩ := Option.isSome_iff_exists.mp hsome
  have hsame : entry.2 = child := by simpa using List.find?_some hentry
  have hname := (h id dir hdir).oneName _ hmem entry (List.mem_of_find?_eq_some hentry) hchild hsame
  rw [hdir, Option.bind_some, Directory.nameOf?, hentry, Option.map_some, hname]

theorem enters_of_nameOf? (hname : (t.directory? id).bind (·.nameOf? child) = some name) :
    t.Enters id name child := by
  obtain ⟨dir, hdir, hname⟩ := Option.bind_eq_some_iff.mp hname
  obtain ⟨entry, hentry, rfl⟩ := Option.map_eq_some_iff.mp hname
  obtain rfl : entry.2 = child := by simpa using List.find?_some hentry
  exact ⟨dir, hdir, find?_of_mem (h id dir hdir).once (List.mem_of_find?_eq_some hentry)⟩

theorem namesOf?_iff : t.namesOf? id = some names ↔ t.Descends root names id := by
  constructor
  · intro hnames
    fun_induction t.namesOf? id generalizing names with
    | case1 =>
      cases hnames
      exact .here
    | case2 | case4 => cases hnames
    | case3 id _ dir hdir hlt ih =>
      obtain ⟨up, hup, hnames⟩ := Option.bind_eq_some_iff.mp hnames
      obtain ⟨name, hname, hnames⟩ := Option.bind_eq_some_iff.mp hnames
      cases hnames
      exact .into (ih hup) (h.enters_of_nameOf? hname) (by simp [hdir])
  · intro hdescends
    induction hdescends with
    | here => simp [FileTree.namesOf?]
    | @into names id child name _ henters hchild ih =>
      obtain ⟨sub, hsub⟩ := Option.isSome_iff_exists.mp hchild
      obtain ⟨rfl, hlt⟩ := h.inside henters hsub
      have hroot : child ≠ root := Nat.ne_of_gt (Nat.lt_of_le_of_lt (Nat.zero_le _) hlt)
      rw [FileTree.namesOf?, if_neg hroot]
      simp [hsub, hlt, ih, h.nameOf? henters hchild]

end IsTree

namespace Descends

theorem trans (h : t.Descends start names id) (hmore : t.Descends id more child) :
    t.Descends start (names ++ more) child := by
  induction hmore with
  | here => rwa [List.append_nil]
  | into _ henters hchild ih =>
    rw [← List.append_assoc]
    exact .into ih henters hchild

theorem eq_start (h : t.Descends start [] id) : id = start := by
  generalize hnames : [] = names at h
  cases h with
  | here => rfl
  | into _ _ _ => simp at hnames

theorem last (h : t.Descends start (names ++ [name]) child) :
    ∃ id, t.Descends start names id ∧ t.Enters id name child ∧ (t.directory? child).isSome := by
  generalize hmore : names ++ [name] = more at h
  cases h with
  | here => simp at hmore
  | into hfront henters hchild =>
    obtain ⟨rfl, hname⟩ := List.append_inj' hmore rfl
    cases hname
    exact ⟨_, hfront, henters, hchild⟩

end Descends

-- ---------------------------------------------------------------------------
-- Changes that keep directories
-- ---------------------------------------------------------------------------

/-- All directories are where they were and there are no others. -/
structure Keeps (t t' : FileTree) : Prop where
  old : ∀ id dir', t'.directory? id = some dir' → ∃ dir, t.directory? id = some dir ∧
    dir'.parent = dir.parent ∧
    ((dir.entries.map (·.1)).Nodup → (dir'.entries.map (·.1)).Nodup) ∧
    ∀ entry ∈ dir'.entries, (t'.directory? entry.2).isSome → entry ∈ dir.entries
  enters : ∀ id name child, t.Enters id name child → (t.directory? child).isSome →
    t'.Enters id name child ∧ (t'.directory? child).isSome
  opens : ∀ u id, t.Opens u id → t'.Opens u id

theorem keeps_refl (t : FileTree) : t.Keeps t where
  old _ dir hdir := ⟨dir, hdir, rfl, id, fun _ hentry _ => hentry⟩
  enters _ _ _ henters hchild := ⟨henters, hchild⟩
  opens _ _ hopens := hopens

/-- The user may follow names in every directory. -/
def OpenTo (t : FileTree) (u : User) : Prop := ∀ id, (t.directory? id).isSome → t.Opens u id

theorem OpenTo.keeps {u : User} (h : t.OpenTo u) (hk : t.Keeps t') : t'.OpenTo u := by
  intro id hdir'
  obtain ⟨dir', hdir'⟩ := Option.isSome_iff_exists.mp hdir'
  obtain ⟨dir, hdir, -⟩ := hk.old id dir' hdir'
  exact hk.opens u id (h id (by simp [hdir]))

theorem Descends.keeps (h : t.Descends start names id) (hk : t.Keeps t') :
    t'.Descends start names id := by
  induction h with
  | here => exact .here
  | into _ henters hchild ih =>
    obtain ⟨henters, hchild⟩ := hk.enters _ _ _ henters hchild
    exact .into ih henters hchild

theorem IsTree.keeps (h : t.IsTree) (hk : t.Keeps t') : t'.IsTree := by
  intro id dir' hdir'
  obtain ⟨dir, hdir, -, honce, hold⟩ := hk.old id dir' hdir'
  have hplaced := h id dir hdir
  have hisSome {child : NodeId} (hchild : (t'.directory? child).isSome) :
      (t.directory? child).isSome := by
    obtain ⟨sub, hsub⟩ := Option.isSome_iff_exists.mp hchild
    obtain ⟨_, hsub, -⟩ := hk.old child sub hsub
    simp [hsub]
  refine ⟨honce hplaced.once, fun entry hentry sub' hsub' => ?_,
    fun entry hentry other hother hchild hsame => ?_⟩
  · obtain ⟨sub, hsub, hparent, -⟩ := hk.old _ sub' hsub'
    rw [hparent]
    exact hplaced.inside entry (hold entry hentry (by simp [hsub'])) sub hsub
  · exact hplaced.oneName entry (hold entry hentry hchild) other
      (hold other hother (hsame ▸ hchild)) (hisSome hchild) hsame

theorem DropsEntry.keeps {parent : NodeId} (h : t.DropsEntry t' parent name) : t.Keeps t' where
  old id dir' hdir' := by
    by_cases hp : id = parent
    · subst hp
      obtain ⟨dir, hdir, hdropped⟩ := h.directory?
      obtain rfl := Option.some.inj (hdir'.symm.trans hdropped)
      refine ⟨dir, hdir, rfl, fun honce => ?_, fun entry hentry _ => (List.mem_filter.mp hentry).1⟩
      exact honce.sublist (List.filter_sublist.map _)
    · rw [directory?_congr (h.others id hp)] at hdir'
      exact ⟨dir', hdir', rfl, fun honce => honce, fun _ hentry _ => hentry⟩
  enters id other child henters hchild := by
    refine ⟨h.enters henters ?_, by rwa [h.isSome]⟩
    -- What was dropped is no directory.
    rintro ⟨rfl, rfl⟩
    obtain ⟨dir, hdir, hfind⟩ := henters
    obtain ⟨node, dir', target, now, hnode, hdir', hfind', hno, -⟩ := h.entry
    obtain rfl := Option.some.inj (hdir.symm.trans (directory?_eq_some.mpr ⟨node, hnode, hdir'⟩))
    obtain rfl := Option.some.inj (hfind.symm.trans hfind')
    simp [hno] at hchild
  opens _ _ hopens := by rwa [Opens, h.grants]

theorem AddsFile.keeps {parent : NodeId} (h : t.AddsFile t' parent name) : t.Keeps t' where
  old id dir' hdir' := by
    have hnew : t'.directory? t.nodes.size = none := by
      obtain ⟨⟨content, _, _, _⟩, hnode, hfile⟩ := h.file
      cases content with
      | file bytes => simp [FileTree.directory?, hnode]
      | _ => cases hfile
    by_cases hp : id = parent
    · subst hp
      obtain ⟨dir, hdir, hfind, hadded⟩ := h.directory?
      obtain rfl := Option.some.inj (hdir'.symm.trans hadded)
      refine ⟨dir, hdir, rfl, fun honce => nodup_concat honce hfind, fun entry hentry hchild => ?_⟩
      refine (List.mem_append.mp hentry).resolve_right fun hlast => ?_
      rw [List.mem_singleton.mp hlast, hnew] at hchild
      cases hchild
    · by_cases hsize : id = t.nodes.size
      · rw [hsize, hnew] at hdir'
        cases hdir'
      · rw [directory?_congr (h.others id hp hsize)] at hdir'
        exact ⟨dir', hdir', rfl, fun honce => honce, fun _ hentry _ => hentry⟩
  enters _ _ _ henters hchild := ⟨h.grows.enters henters, h.grows.isSome hchild⟩
  opens := h.grows.opens

end FileTree

end LineShell.Files
