import LineShell.Proofs.Files.Descent
import LineShell.Proofs.World.Fresh

/-!
# Planted trees

What grows from an empty tree by planting is a tree, in which every entry leads to a node:
`rooted_plantAll`.
-/

namespace LineShell.Files

namespace FileTree

/-- A tree whose entries all lead to nodes. -/
structure Rooted (t : FileTree) : Prop where
  tree : t.IsTree
  nodes : ∀ id dir, t.directory? id = some dir → ∀ entry ∈ dir.entries, entry.2 < t.nodes.size

variable {t t' : FileTree} {id parent : NodeId} {name : Name} {now : Time.Instant}

theorem rooted_empty (now : Time.Instant) : (empty now).Rooted := by
  have hempty (id : NodeId) (dir : Directory) (h : (empty now).directory? id = some dir) :
      dir.entries = [] := by
    match id, h with
    | 0, h =>
      cases h
      rfl
  refine ⟨fun id dir hdir => ?_, fun id dir hdir => by simp [hempty id dir hdir]⟩
  exact ⟨by simp [hempty id dir hdir], by simp [hempty id dir hdir], by simp [hempty id dir hdir]⟩

-- ---------------------------------------------------------------------------
-- Nodes that change
-- ---------------------------------------------------------------------------

theorem directory?_update {change : Node → Node} (h : ∀ node, t.node? id = some node →
    ∀ dir, (change node).content = .directory dir ↔ node.content = .directory dir)
    (other : NodeId) : (t.update id change).directory? other = t.directory? other := by
  ext dir
  rw [directory?_eq_some, directory?_eq_some, node?_update]
  by_cases hid : other = id
  · subst hid
    cases hnode : t.node? other with
    | none => simp
    | some node => simp [h node hnode]
  · simp [hid]

theorem Rooted.update (h : t.Rooted) {change : Node → Node} (hc : ∀ node, t.node? id = some node →
    ∀ dir, (change node).content = .directory dir ↔ node.content = .directory dir) :
    (t.update id change).Rooted := by
  have hsame := directory?_update hc
  refine ⟨fun other dir hdir => ?_, fun other dir hdir => ?_⟩
  · obtain ⟨honce, hinside, hname⟩ := h.tree other dir (hsame other ▸ hdir)
    exact ⟨honce, by simpa only [hsame] using hinside, by simpa only [hsame] using hname⟩
  · rw [size_update]
    exact h.nodes other dir (hsame other ▸ hdir)

theorem Rooted.setTime (h : t.Rooted) (base : NodeId) (path : Bytes) (time : Time.Instant) :
    (t.setTime base path time).Rooted := by
  unfold FileTree.setTime
  split
  · exact h.update fun _ _ _ => Iff.rfl
  · exact h

theorem Rooted.overgrow (h : t.Rooted) {p : Plant} (hp : t.overgrow id p = .ok t') :
    t'.Rooted := by
  unfold FileTree.overgrow at hp
  split at hp
  · next hnode =>
    cases hp
    refine h.update fun node hnode' dir => ?_
    obtain rfl := Option.some.inj (hnode.symm.trans hnode')
    simp
  · cases hp
  · cases hp
    exact h.update fun _ _ _ => Iff.rfl
  · cases hp

-- ---------------------------------------------------------------------------
-- Nodes that are new
-- ---------------------------------------------------------------------------

section
variable {dir : Directory} {child : NodeId}

theorem placed_concat (h : dir.Placed t id) (hname : dir.find? name = none)
    (hfresh : ∀ entry ∈ dir.entries, entry.2 ≠ child)
    (hchild : ∀ sub, t.directory? child = some sub → sub.parent = id ∧ id < child) :
    Directory.Placed { dir with entries := dir.entries ++ [(name, child)] } t id where
  once := nodup_concat h.once hname
  inside entry hentry sub hsub := by
    rcases List.mem_append.mp hentry with hentry | hlast
    · exact h.inside entry hentry sub hsub
    · obtain rfl := List.mem_singleton.mp hlast
      exact hchild sub hsub
  oneName entry hentry other hother hsome hsame := by
    rcases List.mem_append.mp hentry with hentry | hlast <;>
      rcases List.mem_append.mp hother with hother | hlast'
    · exact h.oneName entry hentry other hother hsome hsame
    · rw [List.mem_singleton.mp hlast'] at hsame
      exact absurd hsame.symm (hfresh entry hentry)
    · rw [List.mem_singleton.mp hlast] at hsame
      exact absurd hsame (hfresh other hother)
    · rw [List.mem_singleton.mp hlast, List.mem_singleton.mp hlast']

theorem placed_of_old (h : dir.Placed t id) (hold : ∀ entry ∈ dir.entries, ∀ sub',
    t'.directory? entry.2 = some sub' →
      ∃ sub, t.directory? entry.2 = some sub ∧ sub.parent = sub'.parent) :
    dir.Placed t' id where
  once := h.once
  inside entry hentry sub' hsub' := by
    obtain ⟨sub, hsub, hparent⟩ := hold entry hentry sub' hsub'
    rw [← hparent]
    exact h.inside entry hentry sub hsub
  oneName entry hentry other hother hsome hsame := by
    obtain ⟨sub', hsub'⟩ := Option.isSome_iff_exists.mp hsome
    obtain ⟨sub, hsub, -⟩ := hold entry hentry sub' hsub'
    exact h.oneName entry hentry other hother (by simp [hsub]) hsame

end

/-- One node is new, at the end of a directory, where it lies empty if it is a directory. -/
structure Gains (t t' : FileTree) (parent : NodeId) (name : Name) : Prop where
  size : t'.nodes.size = t.nodes.size + 1
  entry : ∃ dir, t.directory? parent = some dir ∧ dir.find? name = none ∧
    t'.directory? parent = some { dir with entries := dir.entries ++ [(name, t.nodes.size)] }
  child : ∀ sub, t'.directory? t.nodes.size = some sub → sub = ⟨parent, []⟩
  others : ∀ id, id ≠ parent → id ≠ t.nodes.size → t'.directory? id = t.directory? id

theorem gains_add (hlacks : t.Lacks parent name) {node : Node}
    (hnode : ∀ dir, node.content = .directory dir → dir = ⟨parent, []⟩) :
    t.Gains (t.add parent name node now).2 parent name := by
  have hnew := node?_add hlacks node now
  obtain ⟨dir, hdir, hfind⟩ := hlacks
  obtain ⟨old, hold, hcontent⟩ := directory?_eq_some.mp hdir
  have hpushed : (⟨t.nodes.push node⟩ : FileTree).node? parent = some old := by
    rw [node?_push, if_neg (Nat.ne_of_lt (lt_size_of_node? hold)), hold]
  refine ⟨(size_update _ _ _).trans (Array.size_push node), ⟨dir, hdir, hfind, ?_⟩,
    fun sub hsub => ?_, fun id hne hne' => ?_⟩
  · exact directory?_eq_some.mpr ⟨_, node?_setEntries_self hpushed hcontent _ _, rfl⟩
  · obtain ⟨other, hother, hsub⟩ := directory?_eq_some.mp hsub
    obtain rfl := Option.some.inj (hnew.symm.trans hother)
    exact hnode sub hsub
  · exact directory?_congr
      ((node?_setEntries_other hne _ _).trans (by rw [node?_push, if_neg hne']))

theorem Gains.directory_cases (hg : t.Gains t' parent name) {dir' : Directory}
    (hdir' : t'.directory? id = some dir') :
    (∃ dir, t.directory? id = some dir ∧ id = parent ∧ dir.find? name = none ∧
      dir' = { dir with entries := dir.entries ++ [(name, t.nodes.size)] }) ∨
      id = t.nodes.size ∧ dir' = ⟨parent, []⟩ ∨ t.directory? id = some dir' := by
  by_cases hp : id = parent
  · subst hp
    obtain ⟨dir, hdir, hfind, hgained⟩ := hg.entry
    exact .inl ⟨dir, hdir, rfl, hfind, Option.some.inj (hdir'.symm.trans hgained)⟩
  · by_cases hnew : id = t.nodes.size
    · subst hnew
      exact .inr (.inl ⟨rfl, hg.child dir' hdir'⟩)
    · exact .inr (.inr (hg.others id hp hnew ▸ hdir'))

theorem Rooted.gains (h : t.Rooted) (hg : t.Gains t' parent name) : t'.Rooted := by
  -- What lay in a directory before is numbered below the new node.
  have hkept {id : NodeId} {dir : Directory} (hdir : t.directory? id = some dir) :
      dir.Placed t' id := by
    refine placed_of_old (h.tree id dir hdir) fun entry hentry sub' hsub' => ?_
    obtain ⟨sub, hsub, -, -, rfl⟩ | ⟨hnew, -⟩ | hsub := hg.directory_cases hsub'
    · exact ⟨sub, hsub, rfl⟩
    · exact absurd hnew (Nat.ne_of_lt (h.nodes id dir hdir entry hentry))
    · exact ⟨sub', hsub, rfl⟩
  constructor
  · intro id dir' hdir'
    obtain ⟨dir, hdir, rfl, hfind, rfl⟩ | ⟨rfl, rfl⟩ | hdir := hg.directory_cases hdir'
    · refine placed_concat (hkept hdir) hfind (fun entry hentry => ?_) fun sub hsub => ?_
      · exact Nat.ne_of_lt (h.nodes id dir hdir entry hentry)
      · obtain ⟨node, hnode, -⟩ := directory?_eq_some.mp hdir
        rw [hg.child sub hsub]
        exact ⟨rfl, lt_size_of_node? hnode⟩
    · exact ⟨by simp, by simp, by simp⟩
    · exact hkept hdir
  · intro id dir' hdir' entry hentry
    rw [hg.size]
    obtain ⟨dir, hdir, -, -, rfl⟩ | ⟨-, rfl⟩ | hdir := hg.directory_cases hdir'
    · rcases List.mem_append.mp hentry with hentry | hlast
      · exact Nat.lt_succ_of_lt (h.nodes id dir hdir entry hentry)
      · rw [List.mem_singleton.mp hlast]
        exact Nat.lt_succ_self _
    · cases hentry
    · exact Nat.lt_succ_of_lt (h.nodes id dir' hdir entry hentry)

theorem Rooted.add (h : t.Rooted) (hlacks : t.Lacks parent name) {node : Node}
    (hnode : ∀ dir, node.content = .directory dir → dir = ⟨parent, []⟩) :
    (t.add parent name node now).2.Rooted := h.gains (gains_add hlacks hnode)

-- ---------------------------------------------------------------------------
-- Plants
-- ---------------------------------------------------------------------------

theorem Rooted.makeDirectories {names : List Name} {cur : NodeId} (h : t.Rooted)
    (hm : t.makeDirectories cur now names = .ok (id, t')) : t'.Rooted := by
  induction names generalizing t cur with
  | nil =>
    cases hm
    exact h
  | cons name names ih =>
    rw [FileTree.makeDirectories] at hm
    split at hm
    · cases hm
    · exact ih h hm
    · next hwalk =>
      refine ih (h.add (route_of_walk hwalk).lacks fun dir hdir => ?_) hm
      cases hdir
      rfl

theorem bind_eq_ok {x : Except Errno α} {f : α → Except Errno β} {b : β} (h : x >>= f = .ok b) :
    ∃ a, x = .ok a ∧ f a = .ok b := by
  cases x with
  | error e => cases h
  | ok a => exact ⟨a, rfl, h⟩

theorem Rooted.plant {base : NodeId} {p : Plant} (h : t.Rooted)
    (hp : t.plant base now p = .ok t') : t'.Rooted := by
  unfold FileTree.plant at hp
  split at hp
  · cases hp
  obtain ⟨⟨parent, grown⟩, hgrown, hp⟩ := bind_eq_ok hp
  have hrooted := h.makeDirectories hgrown
  dsimp only at hp
  split at hp
  · exact hrooted.overgrow hp
  · obtain ⟨place, hwalk, hp⟩ := bind_eq_ok hp
    split at hp
    · exact hrooted.overgrow hp
    · cases hp
      refine hrooted.add (route_of_walk hwalk).lacks fun sub hsub => ?_
      cases hkind : p.kind with
      | directory => simpa [Plant.node, hkind, directoryNode, eq_comm] using hsub
      | file _ | fifo | link _ => simp [Plant.node, hkind] at hsub

theorem Rooted.plants {base : NodeId} {plants : List Plant} (h : t.Rooted)
    (hp : plants.foldlM (fun t p => t.plant base now p) t = .ok t') : t'.Rooted := by
  induction plants generalizing t with
  | nil =>
    cases hp
    exact h
  | cons p plants ih =>
    rw [List.foldlM_cons] at hp
    obtain ⟨next, hnext, hp⟩ := bind_eq_ok hp
    exact ih (h.plant hnext) hp

theorem Rooted.setTimes {base : NodeId} {plants : List Plant} (h : t.Rooted) :
    (plants.foldl (fun t p => t.setTime base p.path p.modified) t).Rooted := by
  induction plants generalizing t with
  | nil => exact h
  | cons p plants ih => exact ih (h.setTime base p.path p.modified)

theorem rooted_plantAll {base : NodeId} {plants : List Plant} (h : t.Rooted)
    (hp : t.plantAll base now plants = .ok t') : t'.Rooted := by
  unfold FileTree.plantAll at hp
  obtain ⟨grown, hgrown, hp⟩ := bind_eq_ok hp
  cases hp
  exact (h.plants hgrown).setTimes

end FileTree

end LineShell.Files

namespace LineShell.World

open Files (FileTree)

theorem rooted_plantedTree : plantedTree.Rooted := by
  unfold plantedTree
  cases hp : (FileTree.empty dawn).plantAll FileTree.root dawn systemPlants with
  | error e => exact FileTree.rooted_empty dawn
  | ok t => exact FileTree.rooted_plantAll (FileTree.rooted_empty dawn) hp

theorem rooted_systemTree : systemTree.Rooted := by
  have hplanted := rooted_plantedTree
  have hlacks := plantedTree_lacks_null
  unfold plantedTree at hplanted hlacks
  unfold systemTree
  dsimp only
  split
  · next dir t hdev =>
    rw [hdev] at hlacks
    change ((t.directory? dir).any fun dir => (dir.find? (bytesOf "null")).isNone) = true at hlacks
    obtain ⟨found, hfound, hfind⟩ := (Option.any_eq_true _ _).mp hlacks
    refine (hplanted.makeDirectories hdev).add ⟨found, hfound, by simpa using hfind⟩ ?_
    intro dir hdir
    cases hdir
  · exact hplanted

end LineShell.World
