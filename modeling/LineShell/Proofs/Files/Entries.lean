import LineShell.Proofs.Files.Routes
import LineShell.Proofs.Text.Lines
import LineShell.World.Fresh

/-!
# What is at a path

A path can have an entry, be it a link, or lead somewhere through links, which are two questions
and have one answer but at links that lead nowhere: `EntryAt.link_of_nowhere`. A path with a gap at
its end has neither.
-/

namespace LineShell

namespace Files

-- ---------------------------------------------------------------------------
-- Names of entries
-- ---------------------------------------------------------------------------

/-- A name that an entry can have. -/
structure ProperName (name : Name) : Prop where
  nonempty : name ≠ []
  noSlash : slash ∉ name
  noNul : 0 ∉ name
  notDots : name ≠ here ∧ name ≠ above
  short : name.length ≤ longestName

/-- A directory as a system keeps it: no name stands for two entries, and every entry leads to a
node. -/
structure Directory.Proper (dir : Directory) (t : FileTree) : Prop where
  names : ∀ entry ∈ dir.entries, ProperName entry.1
  once : (dir.entries.map (·.1)).Nodup
  nodes : ∀ entry ∈ dir.entries, (t.node? entry.2).isSome

variable {name : Name} {dir : Directory} {t : FileTree} {u : User}

instance : Decidable (ProperName name) :=
  decidable_of_iff (name ≠ [] ∧ slash ∉ name ∧ 0 ∉ name ∧ (name ≠ here ∧ name ≠ above) ∧
      name.length ≤ longestName)
    ⟨fun ⟨hne, hslash, hnul, hdots, hshort⟩ => ⟨hne, hslash, hnul, hdots, hshort⟩,
      fun h => ⟨h.nonempty, h.noSlash, h.noNul, h.notDots, h.short⟩⟩

instance : Decidable (dir.Proper t) :=
  decidable_of_iff ((∀ entry ∈ dir.entries, ProperName entry.1) ∧ (dir.entries.map (·.1)).Nodup ∧
      ∀ entry ∈ dir.entries, (t.node? entry.2).isSome)
    ⟨fun ⟨hnames, honce, hnodes⟩ => ⟨hnames, honce, hnodes⟩,
      fun h => ⟨h.names, h.once, h.nodes⟩⟩

theorem Directory.Proper.properName (h : dir.Proper t) (hname : name ∈ dir.entries.map (·.1)) :
    ProperName name := by
  obtain ⟨entry, hmem, rfl⟩ := List.mem_map.mp hname
  exact h.names entry hmem

theorem Directory.Proper.find? (h : dir.Proper t) (hname : name ∈ dir.entries.map (·.1)) :
    ∃ id node, dir.find? name = some id ∧ t.node? id = some node := by
  obtain ⟨entry, hmem, rfl⟩ := List.mem_map.mp hname
  have hsome : (dir.entries.find? (·.1 = entry.1)).isSome :=
    List.find?_isSome.mpr ⟨entry, hmem, by simp⟩
  obtain ⟨found, hfound⟩ := Option.isSome_iff_exists.mp hsome
  obtain ⟨node, hnode⟩ := Option.isSome_iff_exists.mp (h.nodes _ (List.mem_of_find?_eq_some hfound))
  exact ⟨found.2, node, by rw [Directory.find?, hfound]; rfl, hnode⟩

theorem FileTree.directory?_isSome_iff {t : FileTree} {id : NodeId} :
    (t.directory? id).isSome ↔ ∃ node, t.node? id = some node ∧ node.isDirectory := by
  rw [Option.isSome_iff_exists]
  constructor
  · rintro ⟨dir, hdir⟩
    obtain ⟨node, hnode, hcontent⟩ := FileTree.directory?_eq_some.mp hdir
    exact ⟨node, hnode, by simp [Node.isDirectory, hcontent]⟩
  · rintro ⟨⟨content, _, _, _⟩, hnode, hdir⟩
    cases content with
    | directory dir => exact ⟨dir, FileTree.directory?_eq_some.mpr ⟨_, hnode, rfl⟩⟩
    | _ => cases hdir

theorem FileTree.grants_superuser {t : FileTree} {id : NodeId} {dir : Directory}
    (h : t.directory? id = some dir) (access : Access) : t.grants .superuser access id = true := by
  obtain ⟨node, hnode, hcontent⟩ := FileTree.directory?_eq_some.mp h
  simp [FileTree.grants, hnode, User.superuser, Node.rights, Node.isDirectory, hcontent]

theorem Path.ofBytes_of_noSlash (hne : name ≠ []) (hslash : slash ∉ name) :
    Path.ofBytes name = ⟨false, [name], false⟩ := by
  have hfirst : name.head? ≠ some slash := fun he => hslash (List.mem_of_head? he)
  have hlast : name.getLast? ≠ some slash := fun he => hslash (List.mem_of_getLast? he)
  simp [Path.ofBytes, Text.pieces_of_not_mem hslash, hfirst, hlast, hne]

theorem ProperName.ofBytes (h : ProperName name) : Path.ofBytes name = ⟨false, [name], false⟩ :=
  Path.ofBytes_of_noSlash h.nonempty h.noSlash

theorem ProperName.sought (h : ProperName name) (aim : Aim) (rest : List Name) :
    FileTree.Sought aim name rest false :=
  ⟨h.notDots.1, h.notDots.2, h.short, fun _ _ => rfl⟩

theorem ProperName.place_eq_ok (h : ProperName name) {cwd : NodeId} {aim : Aim} {place : Place} :
    t.place u cwd aim name = .ok place ↔ t.Route u aim mostLinks [name] cwd false place := by
  have hshort : name.length ≤ longestPath := Nat.le_trans h.short (by decide)
  rw [FileTree.place_eq_ok, h.ofBytes]
  simp [h.nonempty, hshort]

end Files

namespace World

open Files (FileTree Name Node NodeId Path)

-- ---------------------------------------------------------------------------
-- Entries and gaps
-- ---------------------------------------------------------------------------

/-- What is at a path itself. Links are not followed at its end. -/
def EntryAt (w : World) (path : String) (node : Node) : Prop :=
  ∃ bytes id, pathBytes path = .ok bytes ∧
    w.files.place w.user w.cwd .entry bytes = .ok (.node id) ∧ w.files.node? id = some node

/-- The directory a path ends in is there and has not been removed, the user may add entries to it,
and it has none of the last name, which is no longer than names can be. -/
structure GapAt (w : World) (path : String) (parent : NodeId) (name : Name) : Prop where
  noNul : ¬ HoldsNul path
  names : w.files.NamesEntry w.user w.cwd (bytesOf path) parent name
  lacks : w.files.Lacks parent name
  present : (w.files.namesOf? parent).isSome
  opens : w.files.Opens w.user parent
  writable : w.files.grants w.user .write parent
  short : (bytesOf path).length ≤ Files.longestPath ∧ name.length ≤ Files.longestName
  toFile : (bytesOf path).getLast? ≠ some Files.slash

/-- A new file for a path has its place under a name of a directory. -/
def RoomFor (w : World) (path : String) (parent : NodeId) (name : Name) : Prop :=
  ∃ bytes, pathBytes path = .ok bytes ∧
    w.files.place w.user w.cwd .creation bytes = .ok (.vacant parent name) ∧
    (w.files.namesOf? parent).isSome ∧ w.files.grants w.user .write parent

variable {w : World} {path : String} {node : Node}

theorem pathBytes_eq_ok {bytes : Bytes} :
    pathBytes path = .ok bytes ↔ ¬ HoldsNul path ∧ bytesOf path = bytes := by
  unfold pathBytes
  split
  · next h => simp [h]
  · next h => simp [h]

theorem stat_eq_ok : w.stat path = .ok node ↔
    ∃ id, w.locate path = .ok id ∧ w.files.node? id = some node := by
  unfold stat
  rcases w.locate path with f | id
  · simp
  · cases h : w.files.node? id with
    | none => simp [h]
    | some other => simp [h]

theorem leadsSomewhere_iff : w.leadsSomewhere path = true ↔ ∃ node, w.stat path = .ok node := by
  unfold leadsSomewhere
  cases w.stat path with
  | error f => simp [Except.toOption]
  | ok node => simp [Except.toOption]

theorem entryAt_of_stat (h : w.stat path = .ok node) : ∃ entry, w.EntryAt path entry := by
  obtain ⟨id, hid, hnode⟩ := stat_eq_ok.mp h
  obtain ⟨bytes, hbytes, hlookup⟩ := locate_eq_ok.mp hid
  obtain ⟨hne, hshort, hroute⟩ := FileTree.place_eq_ok.mp (FileTree.lookup_eq_ok.mp hlookup)
  obtain ⟨id', hroute', rfl | hlink⟩ := hroute.entry_of_target
  · exact ⟨node, bytes, id', hbytes, FileTree.place_eq_ok.mpr ⟨hne, hshort, hroute'⟩, hnode⟩
  · obtain ⟨target, hlink⟩ := Option.isSome_iff_exists.mp hlink
    obtain ⟨entry, hentry, -⟩ := FileTree.link?_eq_some.mp hlink
    exact ⟨entry, bytes, id', hbytes, FileTree.place_eq_ok.mpr ⟨hne, hshort, hroute'⟩, hentry⟩

theorem EntryAt.stat (h : w.EntryAt path node) (hnode : ∀ target, node.content ≠ .link target) :
    w.stat path = .ok node := by
  obtain ⟨bytes, id, hbytes, hplace, hid⟩ := h
  have hlink : w.files.link? id = none := by
    rw [Option.eq_none_iff_forall_ne_some]
    intro target htarget
    obtain ⟨entry, hentry, hcontent⟩ := FileTree.link?_eq_some.mp htarget
    obtain rfl := Option.some.inj (hid.symm.trans hentry)
    exact hnode target hcontent
  have htarget := FileTree.place_of_routes hplace fun hroute => hroute.target_of_entry hlink
  have hlocate := locate_eq_ok.mpr ⟨bytes, hbytes, FileTree.lookup_eq_ok.mpr htarget⟩
  exact stat_eq_ok.mpr ⟨id, hlocate, hid⟩

/-- Only a link can be at a path and lead nowhere. -/
theorem EntryAt.link_of_nowhere (h : w.EntryAt path node) (hno : w.leadsSomewhere path = false) :
    ∃ target, node.content = .link target := by
  cases hcontent : node.content with
  | link target => exact ⟨target, rfl⟩
  | _ =>
    have hstat := h.stat (by simp [hcontent])
    rw [leadsSomewhere_iff.mpr ⟨node, hstat⟩] at hno
    cases hno

theorem pathBytes_of_proper (h : Files.ProperName (bytesOf path)) :
    pathBytes path = .ok (bytesOf path) := by
  refine pathBytes_eq_ok.mpr ⟨fun hnul => h.noNul ?_, rfl⟩
  exact List.mem_flatMap.mpr ⟨'\x00', hnul, by decide⟩

theorem entryAt_of_find? {dir : Files.Directory} {id : NodeId}
    (hcwd : w.files.directory? w.cwd = some dir) (hopens : w.files.Opens w.user w.cwd)
    (hname : Files.ProperName (bytesOf path)) (hfind : dir.find? (bytesOf path) = some id)
    (hnode : w.files.node? id = some node) : w.EntryAt path node := by
  refine ⟨_, id, pathBytes_of_proper hname, hname.place_eq_ok.mpr ?_, hnode⟩
  cases hlink : w.files.link? id with
  | some target =>
    exact .itself rfl (hname.sought _ []) hopens ⟨dir, hcwd, hfind⟩ (by simp [hlink])
  | none => exact .entry (hname.sought _ []) hopens ⟨dir, hcwd, hfind⟩ hlink (.done nofun)

section
variable {parent : NodeId} {name : Name}

theorem GapAt.place (h : w.GapAt path parent name) (aim : Files.Aim) :
    w.files.place w.user w.cwd aim (bytesOf path) = .ok (.vacant parent name) := by
  obtain ⟨front, hnames, hwalk⟩ := h.names.leads
  have hne : bytesOf path ≠ [] := by
    rintro hnil
    rw [hnil] at hnames
    simp [Path.ofBytes, Text.pieces] at hnames
  refine FileTree.place_eq_ok.mpr ⟨hne, h.short.1, ?_⟩
  have hto : (Path.ofBytes (bytesOf path)).toDirectory = false := decide_eq_false h.toFile
  rw [hnames, hto]
  exact (FileTree.walk_eq_ok.mp hwalk).gap_after
    ⟨h.names.proper.1, h.names.proper.2, h.short.2, fun _ _ => rfl⟩ h.opens h.lacks

theorem GapAt.roomFor (h : w.GapAt path parent name) : w.RoomFor path parent name :=
  ⟨_, pathBytes_eq_ok.mpr ⟨h.noNul, rfl⟩, h.place .creation, h.present, h.writable⟩

theorem RoomFor.leadsNowhere (h : w.RoomFor path parent name) : w.leadsSomewhere path = false := by
  obtain ⟨bytes, hbytes, hplace, -, -⟩ := h
  have htarget := FileTree.place_of_routes hplace FileTree.Route.target_of_creation
  rw [← Bool.not_eq_true, leadsSomewhere_iff]
  rintro ⟨node, hstat⟩
  obtain ⟨id, hid, -⟩ := stat_eq_ok.mp hstat
  obtain ⟨bytes', hbytes', hlookup⟩ := locate_eq_ok.mp hid
  obtain rfl := Except.ok.inj (hbytes.symm.trans hbytes')
  cases htarget.symm.trans (FileTree.lookup_eq_ok.mp hlookup)

end

-- ---------------------------------------------------------------------------
-- Links
-- ---------------------------------------------------------------------------

/-- The names of a file, of a link to the file and of a link that leads nowhere. -/
def linkedNames : Files.Directory :=
  ⟨FileTree.root, [(bytesOf "far", 1), (bytesOf "file", 2), (bytesOf "near", 3)]⟩

def linked : World := { fresh with
  files := ⟨#[
    ⟨.directory linkedNames, 0o755, 0, dawn⟩,
    ⟨.link (bytesOf "gone"), 0o777, 0, dawn⟩,
    ⟨.file (bytesOf "text"), 0o666, 0, dawn⟩,
    ⟨.link (bytesOf "file"), 0o777, 0, dawn⟩]⟩ }

theorem linked_find? : linkedNames.find? (bytesOf "far") = some 1 ∧
    linkedNames.find? (bytesOf "file") = some 2 ∧ linkedNames.find? (bytesOf "near") = some 3 := by
  decide

theorem entryAt_far : linked.EntryAt "far" ⟨.link (bytesOf "gone"), 0o777, 0, dawn⟩ :=
  entryAt_of_find? rfl rfl (by decide) linked_find?.1 rfl

theorem route_far : linked.files.Route linked.user .creation Files.mostLinks [bytesOf "far"]
    linked.cwd false (.vacant FileTree.root (bytesOf "gone")) := by
  have hfar : Files.ProperName (bytesOf "far") := by decide
  have hgone : Files.ProperName (bytesOf "gone") := by decide
  refine .through (hfar.sought _ []) rfl ⟨linkedNames, rfl, linked_find?.1⟩ rfl nofun ?_
  rw [hgone.ofBytes]
  exact .gap (hgone.sought _ []) rfl ⟨linkedNames, rfl, by decide⟩

theorem route_file : linked.files.Route linked.user .target Files.mostLinks [bytesOf "file"]
    linked.cwd false (.node 2) := by
  have hfile : Files.ProperName (bytesOf "file") := by decide
  exact .entry (hfile.sought _ []) rfl ⟨linkedNames, rfl, linked_find?.2.1⟩ rfl (.done nofun)

theorem route_near : linked.files.Route linked.user .target Files.mostLinks [bytesOf "near"]
    linked.cwd false (.node 2) := by
  have hnear : Files.ProperName (bytesOf "near") := by decide
  have hfile : Files.ProperName (bytesOf "file") := by decide
  refine .through (hnear.sought _ []) rfl ⟨linkedNames, rfl, linked_find?.2.2⟩ rfl nofun ?_
  rw [hfile.ofBytes]
  exact .entry (hfile.sought _ []) rfl ⟨linkedNames, rfl, linked_find?.2.1⟩ rfl (.done nofun)

theorem roomFor_far : linked.RoomFor "far" FileTree.root (bytesOf "gone") := by
  have hfar : Files.ProperName (bytesOf "far") := by decide
  refine ⟨_, pathBytes_of_proper hfar, hfar.place_eq_ok.mpr route_far, ?_, rfl⟩
  rw [FileTree.namesOf?]
  rfl

theorem stat_file : linked.stat "file" = .ok ⟨.file (bytesOf "text"), 0o666, 0, dawn⟩ := by
  have hentry := entryAt_of_find? (w := linked) rfl rfl (by decide) linked_find?.2.1 rfl
  exact hentry.stat nofun

theorem stat_near : linked.stat "near" = .ok ⟨.file (bytesOf "text"), 0o666, 0, dawn⟩ := by
  have hnear : Files.ProperName (bytesOf "near") := by decide
  have hlookup := FileTree.lookup_eq_ok.mpr (hnear.place_eq_ok.mpr route_near)
  exact stat_eq_ok.mpr ⟨2, locate_eq_ok.mpr ⟨_, pathBytes_of_proper hnear, hlookup⟩, rfl⟩

end World

end LineShell
