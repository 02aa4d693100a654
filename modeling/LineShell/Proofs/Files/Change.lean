import LineShell.World
import LineShell.Proofs.Files.Walk

/-!
# What changes of a tree leave alone

Taking away an entry changes one directory, and filling a gap with a new file changes one directory
and adds one node. Everything else stays, whatever links lead where.
-/

namespace LineShell.Files.FileTree

-- ---------------------------------------------------------------------------
-- Nodes and sizes
-- ---------------------------------------------------------------------------

theorem size_update (t : FileTree) (id : NodeId) (change : Node → Node) :
    (t.update id change).nodes.size = t.nodes.size := Array.size_modify

theorem lt_size_of_node? {t : FileTree} {id : NodeId} {node : Node} (h : t.node? id = some node) :
    id < t.nodes.size := (Array.getElem?_eq_some_iff.mp h).1

theorem grants_iff {t : FileTree} {u : User} {access : Access} {id : NodeId} :
    t.grants u access id = true ↔
      ∃ node, t.node? id = some node ∧ u.may access node.rights = true := by
  simp [grants, Option.any_eq_true]

theorem directory?_eq_some {t : FileTree} {id : NodeId} {dir : Directory} :
    t.directory? id = some dir ↔
      ∃ node, t.node? id = some node ∧ node.content = .directory dir := by
  unfold directory?
  split
  · next hn => simp [hn]
  · next hn =>
    simp only [reduceCtorEq, false_iff]
    rintro ⟨⟨_, mode, owner, modified⟩, hnode, rfl⟩
    exact hn _ _ _ _ hnode

theorem node?_setEntries_self {t : FileTree} {id : NodeId} {node : Node} {dir : Directory}
    (hnode : t.node? id = some node) (hdir : node.content = .directory dir) (now : Time.Instant)
    (change : List (Name × NodeId) → List (Name × NodeId)) :
    (t.setEntries id now change).node? id =
      some { node with
        content := .directory { dir with entries := change dir.entries }, modified := now } := by
  rw [setEntries, node?_update, if_pos rfl, hnode, Option.map_some, hdir]

theorem node?_setEntries_other {t : FileTree} {id other : NodeId} (h : other ≠ id)
    (now : Time.Instant) (change : List (Name × NodeId) → List (Name × NodeId)) :
    (t.setEntries id now change).node? other = t.node? other := by
  rw [setEntries, node?_update, if_neg h]

-- ---------------------------------------------------------------------------
-- Taking away an entry
-- ---------------------------------------------------------------------------

/-- The path names an entry `name` of the directory `parent`: the names before the last one lead
there, through links if need be. The entry itself may be a link and is not followed. -/
structure NamesEntry (t : FileTree) (u : User) (cwd : NodeId) (path : Bytes) (parent : NodeId)
    (name : Name) : Prop where
  proper : name ≠ here ∧ name ≠ above
  leads : ∃ front, (Path.ofBytes path).names = front ++ [name] ∧
    t.walk u .target mostLinks front (if (Path.ofBytes path).absolute then root else cwd) true =
      .ok (.node parent)

/-- The entries of a name are gone, which lead to no directory, and nothing else has changed but
the time of the directory they were in. Where names are not given twice it is just one entry. -/
structure DropsEntry (t t' : FileTree) (parent : NodeId) (name : Name) : Prop where
  others : ∀ id, id ≠ parent → t'.node? id = t.node? id
  entry : ∃ node dir target now, t.node? parent = some node ∧ node.content = .directory dir ∧
    dir.find? name = some target ∧ t.directory? target = none ∧
    t'.node? parent = some { node with
      content := .directory { dir with entries := dir.entries.filter (·.1 ≠ name) },
      modified := now }
  once : ∀ dir, t.directory? parent = some dir → (dir.entries.map (·.1)).Nodup →
    ∃ before target after, dir.entries = before ++ (name, target) :: after ∧
      t'.directory? parent = some { dir with entries := before ++ after }

theorem filter_of_nodup {entries : List (Name × NodeId)} {name : Name} {entry : Name × NodeId}
    (hn : (entries.map (·.1)).Nodup) (hfind : entries.find? (·.1 = name) = some entry) :
    ∃ before after, entries = before ++ (name, entry.2) :: after ∧
      entries.filter (·.1 ≠ name) = before ++ after := by
  obtain ⟨hname, before, after, rfl, hbefore⟩ := List.find?_eq_some_iff_append.mp hfind
  obtain rfl : entry.1 = name := of_decide_eq_true hname
  refine ⟨before, after, rfl, ?_⟩
  have hafter : ∀ other ∈ after, other.1 ≠ entry.1 := by
    intro other hother he
    rw [List.map_append, List.map_cons] at hn
    have hmem := (List.nodup_cons.mp (List.nodup_append.mp hn).2.1).1
    exact hmem (he ▸ List.mem_map_of_mem hother)
  have hb : before.filter (·.1 ≠ entry.1) = before :=
    List.filter_eq_self.mpr (by simpa using hbefore)
  have ha : after.filter (·.1 ≠ entry.1) = after := List.filter_eq_self.mpr (by simpa using hafter)
  rw [List.filter_append, List.filter_cons, hb, ha]
  simp

theorem dropsEntry_drop {t : FileTree} {parent : NodeId} {name : Name} {dir : Directory}
    {target : NodeId} (hparent : t.directory? parent = some dir)
    (hfind : dir.find? name = some target) (hno : t.directory? target = none)
    (now : Time.Instant) : t.DropsEntry (t.drop parent name now) parent name := by
  obtain ⟨node, hnode, hdir⟩ := directory?_eq_some.mp hparent
  have hself : (t.drop parent name now).node? parent = _ := node?_setEntries_self hnode hdir _ _
  refine ⟨fun id h => node?_setEntries_other h _ _,
    ⟨node, dir, target, now, hnode, hdir, hfind, hno, hself⟩, ?_⟩
  intro dir' hdir' hn
  obtain rfl := Option.some.inj (hparent.symm.trans hdir')
  obtain ⟨entry, hentry, -⟩ := Option.map_eq_some_iff.mp hfind
  obtain ⟨before, after, hcut, hfilter⟩ := filter_of_nodup hn hentry
  refine ⟨before, entry.2, after, hcut, directory?_eq_some.mpr ⟨_, hself, ?_⟩⟩
  rw [hfilter]

theorem unlink_ok {t t' : FileTree} {u : User} {cwd : NodeId} {path : Bytes} {now : Time.Instant}
    (h : t.unlink u cwd path now = .ok t') :
    ∃ parent name, t.NamesEntry u cwd path parent name ∧ t.DropsEntry t' parent name := by
  simp only [unlink] at h
  split at h
  · cases h
  split at h
  · cases h
  split at h
  · cases h
  · cases h
  next parent hwalk =>
  split at h
  · next name dir hlast hdir =>
    obtain ⟨front, hnames⟩ := List.getLast?_eq_some_iff.mp hlast
    rw [hnames, List.dropLast_concat] at hwalk
    split at h
    · cases h
    split at h
    · cases h
    next hproper =>
    split at h
    · cases h
    split at h
    · cases h
    next target hfind =>
    iterate 3
      split at h
      · cases h
    split at h
    · cases h
    next hno =>
    cases h
    refine ⟨parent, name, ⟨not_or.mp hproper, front, hnames, hwalk⟩, ?_⟩
    exact dropsEntry_drop hdir hfind (by simpa using hno) now
  · cases h
  · cases h

-- ---------------------------------------------------------------------------
-- Adding a file
-- ---------------------------------------------------------------------------

/-- One regular file is new, under a name that its directory had no entry for, and nothing else
has changed but the time of that directory. -/
structure AddsFile (t t' : FileTree) (parent : NodeId) (name : Name) : Prop where
  size : t'.nodes.size = t.nodes.size + 1
  file : ∃ node, t'.node? t.nodes.size = some node ∧ node.isFile
  others : ∀ id, id ≠ parent → id ≠ t.nodes.size → t'.node? id = t.node? id
  entry : ∃ node dir now, t.node? parent = some node ∧ node.content = .directory dir ∧
    dir.find? name = none ∧
    t'.node? parent = some { node with
      content := .directory { dir with entries := dir.entries ++ [(name, t.nodes.size)] },
      modified := now }

theorem addsFile_add {t : FileTree} {parent : NodeId} {name : Name} (h : t.Lacks parent name)
    {node : Node} (hfile : node.isFile) (now : Time.Instant) :
    t.AddsFile (t.add parent name node now).2 parent name := by
  obtain ⟨dir, hdirectory, hfind⟩ := h
  obtain ⟨old, hold, hdir⟩ := directory?_eq_some.mp hdirectory
  have hne : parent ≠ t.nodes.size := Nat.ne_of_lt (lt_size_of_node? hold)
  have hpushed : (⟨t.nodes.push node⟩ : FileTree).node? parent = some old := by
    rw [node?_push, if_neg hne, hold]
  refine ⟨?_, ⟨node, ?_, hfile⟩, ?_, old, dir, now, hold, hdir, hfind, ?_⟩
  · exact (size_update _ _ _).trans (Array.size_push node)
  · exact (node?_setEntries_other hne.symm _ _).trans (by rw [node?_push, if_pos rfl])
  · intro id hparent hnew
    exact (node?_setEntries_other hparent _ _).trans (by rw [node?_push, if_neg hnew])
  · exact node?_setEntries_self hpushed hdir _ _

/-- The new file may still be given other bytes and attributes. -/
theorem AddsFile.update {t t' : FileTree} {parent : NodeId} {name : Name}
    (h : t.AddsFile t' parent name) {change : Node → Node}
    (hc : ∀ node, node.isFile → (change node).isFile) :
    t.AddsFile (t'.update t.nodes.size change) parent name := by
  obtain ⟨hsize, ⟨new, hnew, hfile⟩, hothers, old, dir, now, hold, hdir, hfind, hentry⟩ := h
  have hne : parent ≠ t.nodes.size := Nat.ne_of_lt (lt_size_of_node? hold)
  refine ⟨(size_update _ _ _).trans hsize, ⟨change new, ?_, hc new hfile⟩, ?_,
    old, dir, now, hold, hdir, hfind, ?_⟩
  · rw [node?_update, if_pos rfl, hnew, Option.map_some]
  · intro id hparent hid
    rw [node?_update, if_neg hid, hothers id hparent hid]
  · rw [node?_update, if_neg hne, hentry]

theorem lookup_of_place_creation {t : FileTree} {u : User} {cwd id : NodeId} {path : Bytes}
    (h : t.place u cwd .creation path = .ok (.node id)) : t.lookup u cwd path = .ok id :=
  lookup_eq_ok.mpr (place_of_routes h Route.target_of_creation)

theorem openNode_missing {t : FileTree} {id : NodeId} (h : t.node? id = none) (u : User) :
    t.openNode u id = .error (.refused .denied) := by
  simp [openNode, directory?, grants, h]

end LineShell.Files.FileTree
