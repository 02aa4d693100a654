import LineShell.Proofs.Files.Change

/-!
# Routes in trees that change

What a change of a tree makes of a path is seen step by step: a route to a node stays when entries
are added, a route to a gap leads to the file that fills it, and a route to a directory never passes
an entry that leads to none, so it stays when such an entry is taken away.
-/

namespace LineShell.Files.FileTree

section
variable {t : FileTree} {u : User} {aim : Aim} {links : Nat} {names : List Name} {cur : NodeId}
  {toDirectory : Bool} {place : Place}

-- ---------------------------------------------------------------------------
-- Aims
-- ---------------------------------------------------------------------------

/-- Where the end is no link, a path leads to what is at it. -/
theorem Route.target_of_entry {id : NodeId}
    (h : t.Route u .entry links names cur toDirectory (.node id)) (hid : t.link? id = none) :
    t.Route u .target links names cur toDirectory (.node id) := by
  generalize hplace : Place.node id = place at h
  induction h with
  | done hcur => exact .done hcur
  | here hcur hopens _ ih => exact .here hcur hopens (ih hplace)
  | above hdir hopens _ ih => exact .above hdir hopens (ih hplace)
  | gap _ _ _ => cases hplace
  | entry hsought hopens henters hlink _ ih =>
    exact .entry (hsought.toward nofun) hopens henters hlink (ih hplace)
  | itself _ _ _ _ hlink =>
    cases hplace
    simp [hid] at hlink
  | through hsought hopens henters hlink _ _ ih =>
    exact .through (hsought.toward nofun) hopens henters hlink nofun (ih hplace)

theorem Route.entry_of_target {id : NodeId}
    (h : t.Route u .target links names cur toDirectory (.node id)) :
    ∃ id', t.Route u .entry links names cur toDirectory (.node id') ∧
      (id' = id ∨ (t.link? id').isSome) := by
  generalize hplace : Place.node id = place at h
  induction h with
  | done hcur =>
    cases hplace
    exact ⟨_, .done hcur, .inl rfl⟩
  | here hcur hopens _ ih =>
    obtain ⟨id', hroute, hid'⟩ := ih hplace
    exact ⟨id', .here hcur hopens hroute, hid'⟩
  | above hdir hopens _ ih =>
    obtain ⟨id', hroute, hid'⟩ := ih hplace
    exact ⟨id', .above hdir hopens hroute, hid'⟩
  | gap _ _ _ => cases hplace
  | entry hsought hopens henters hlink _ ih =>
    obtain ⟨id', hroute, hid'⟩ := ih hplace
    exact ⟨id', .entry (hsought.toward nofun) hopens henters hlink hroute, hid'⟩
  | itself haim _ _ _ _ => cases haim
  | @through _ _ rest _ entry toDirectory _ _ hsought hopens henters hlink _ _ ih =>
    have hentry : Sought .entry _ rest toDirectory := hsought.toward nofun
    by_cases hlast : rest = [] ∧ toDirectory = false
    · obtain ⟨rfl, rfl⟩ := hlast
      have hsome : (t.link? entry).isSome := by simp [hlink]
      exact ⟨entry, .itself rfl hentry hopens henters hsome, .inr hsome⟩
    · obtain ⟨id', hroute, hid'⟩ := ih hplace
      refine ⟨id', .through hentry hopens henters hlink ?_ hroute, hid'⟩
      exact fun _ hrest => Bool.of_not_eq_false fun hto => hlast ⟨hrest, hto⟩

-- ---------------------------------------------------------------------------
-- Trees that grow
-- ---------------------------------------------------------------------------

/-- The tree has all the entries of another one, and its links, and users may follow names in it
where they could in the other. -/
structure Grows (t t' : FileTree) : Prop where
  opens : ∀ u id, t.Opens u id → t'.Opens u id
  link : ∀ id, t'.link? id = t.link? id
  directory : ∀ id dir, t.directory? id = some dir → ∃ dir', t'.directory? id = some dir' ∧
    dir'.parent = dir.parent ∧
    ∀ name target, dir.find? name = some target → dir'.find? name = some target

variable {t' : FileTree}

theorem Grows.isSome (hg : t.Grows t') {id : NodeId} (h : (t.directory? id).isSome) :
    (t'.directory? id).isSome := by
  obtain ⟨dir, hdir⟩ := Option.isSome_iff_exists.mp h
  obtain ⟨dir', hdir', -⟩ := hg.directory id dir hdir
  simp [hdir']

theorem Grows.enters (hg : t.Grows t') {name : Name} {id : NodeId} (h : t.Enters cur name id) :
    t'.Enters cur name id := by
  obtain ⟨dir, hdir, hfind⟩ := h
  obtain ⟨dir', hdir', -, hkept⟩ := hg.directory cur dir hdir
  exact ⟨dir', hdir', hkept name id hfind⟩

/-- A path leads where it led before. -/
theorem Route.grows {id : NodeId} (h : t.Route u aim links names cur toDirectory (.node id))
    (hg : t.Grows t') : t'.Route u aim links names cur toDirectory (.node id) := by
  generalize hplace : Place.node id = place at h
  induction h with
  | done hcur => exact .done fun hto => hg.isSome (hcur hto)
  | here hcur hopens _ ih => exact .here (hg.isSome hcur) (hg.opens _ _ hopens) (ih hplace)
  | @above _ _ cur _ _ dir hdir hopens _ ih =>
    obtain ⟨dir', hdir', hparent, -⟩ := hg.directory cur dir hdir
    exact .above hdir' (hg.opens _ _ hopens) (hparent ▸ ih hplace)
  | gap _ _ _ => cases hplace
  | entry hsought hopens henters hlink _ ih =>
    exact .entry hsought (hg.opens _ _ hopens) (hg.enters henters) ((hg.link _).trans hlink)
      (ih hplace)
  | itself haim hsought hopens henters hlink =>
    exact .itself haim hsought (hg.opens _ _ hopens) (hg.enters henters) (by rwa [hg.link])
  | through hsought hopens henters hlink haim _ ih =>
    exact .through hsought (hg.opens _ _ hopens) (hg.enters henters) ((hg.link _).trans hlink) haim
      (ih hplace)

/-- A gap that a file could be created in, or at which there is no link, leads to what fills it. -/
theorem Route.fills {parent id : NodeId} {name : Name}
    (h : t.Route u aim links names cur toDirectory (.vacant parent name))
    (haim : aim = .creation ∨ aim = .entry ∧ toDirectory = false) (hg : t.Grows t')
    (hnew : t'.Enters parent name id) (hlink : t'.link? id = none) :
    t'.Route u aim links names cur toDirectory (.node id) := by
  generalize hplace : Place.vacant parent name = place at h
  induction h with
  | done _ => cases hplace
  | here hcur hopens _ ih => exact .here (hg.isSome hcur) (hg.opens _ _ hopens) (ih haim hplace)
  | @above _ _ cur _ _ dir hdir hopens _ ih =>
    obtain ⟨dir', hdir', hparent, -⟩ := hg.directory cur dir hdir
    exact .above hdir' (hg.opens _ _ hopens) (hparent ▸ ih haim hplace)
  | gap hsought hopens hlacks =>
    cases hplace
    refine .entry hsought (hg.opens _ _ hopens) hnew hlink (.done fun hto => ?_)
    rcases haim with haim | ⟨-, hfile⟩
    · exact absurd (hsought.creatable haim rfl) (by simp [hto])
    · exact absurd hfile (by simp [hto])
  | entry hsought hopens henters hlink _ ih =>
    exact .entry hsought (hg.opens _ _ hopens) (hg.enters henters) ((hg.link _).trans hlink)
      (ih haim hplace)
  | itself _ _ _ _ _ => cases hplace
  | through hsought hopens henters hlink hfollowed _ ih =>
    refine .through hsought (hg.opens _ _ hopens) (hg.enters henters) ((hg.link _).trans hlink)
      hfollowed (ih ?_ hplace)
    refine haim.imp_right fun ⟨hentry, hfile⟩ => ⟨hentry, ?_⟩
    have hmore := mt (hfollowed hentry) (by simp [hfile])
    simp [hfile, hmore]

-- ---------------------------------------------------------------------------
-- Routes to directories
-- ---------------------------------------------------------------------------

theorem Route.mono {links' : Nat} (h : t.Route u aim links names cur toDirectory place)
    (hl : links ≤ links') : t.Route u aim links' names cur toDirectory place := by
  induction h generalizing links' with
  | done hcur => exact .done hcur
  | here hcur hopens _ ih => exact .here hcur hopens (ih hl)
  | above hdir hopens _ ih => exact .above hdir hopens (ih hl)
  | gap hsought hopens hlacks => exact .gap hsought hopens hlacks
  | entry hsought hopens henters hlink _ ih => exact .entry hsought hopens henters hlink (ih hl)
  | itself haim hsought hopens henters hlink => exact .itself haim hsought hopens henters hlink
  | through hsought hopens henters hlink haim _ ih =>
    obtain ⟨more, rfl⟩ := Nat.exists_eq_add_of_lt (Nat.lt_of_succ_le hl)
    exact .through hsought hopens henters hlink haim (ih (by omega))

theorem Route.gap_after {parent : NodeId} {name : Name}
    (h : t.Route u .target links names cur true (.node parent)) (hsought : Sought aim name [] false)
    (hopens : t.Opens u parent) (hlacks : t.Lacks parent name) :
    t.Route u aim links (names ++ [name]) cur false (.vacant parent name) := by
  generalize hto : true = toDirectory at h
  generalize hplace : Place.node parent = place at h
  induction h with
  | done _ =>
    cases hplace
    exact .gap hsought hopens hlacks
  | here hcur ho _ ih => exact .here hcur ho (ih hto hplace)
  | above hdir ho _ ih => exact .above hdir ho (ih hto hplace)
  | gap _ _ _ => cases hplace
  | entry hname ho henters hlink _ ih =>
    exact .entry (hname.toward (by simp)) ho henters hlink (ih hto hplace)
  | itself _ _ _ _ _ => cases hto
  | @through _ _ rest _ _ _ _ _ hname ho henters hlink _ _ ih =>
    subst hto
    have hmore : (rest ++ [name]).isEmpty = false := by simp
    rw [List.cons_append]
    refine .through (hname.toward (by simp)) ho henters hlink (by simp) ?_
    simpa only [hmore, Bool.false_and, Bool.or_false, List.append_assoc] using ih rfl hplace

/-- A path that leads somewhere does so if it need not lead to a directory. -/
theorem Route.relax (h : t.Route u .target links names cur toDirectory place)
    {toDirectory' : Bool} (hto : toDirectory' = true → toDirectory = true) :
    t.Route u .target links names cur toDirectory' place := by
  induction h generalizing toDirectory' with
  | done hcur => exact .done fun h => hcur (hto h)
  | here hcur hopens _ ih => exact .here hcur hopens (ih hto)
  | above hdir hopens _ ih => exact .above hdir hopens (ih hto)
  | gap hname hopens hlacks => exact .gap (hname.toward nofun) hopens hlacks
  | entry hname hopens henters hlink _ ih =>
    exact .entry (hname.toward nofun) hopens henters hlink (ih hto)
  | itself haim _ _ _ _ => cases haim
  | through hname hopens henters hlink _ _ ih =>
    refine .through (hname.toward nofun) hopens henters hlink nofun (ih ?_)
    simp only [Bool.or_eq_true]
    exact Or.imp_left hto

theorem Route.front {d : NodeId} {front rest : List Name}
    (h : t.Route u .target links (front ++ rest) cur toDirectory (.node d))
    (hd : rest = [] → (t.directory? d).isSome) :
    ∃ mid, t.Route u .target links front cur true (.node mid) ∧ (t.directory? mid).isSome := by
  generalize hnames : front ++ rest = names at h
  generalize hplace : Place.node d = place at h
  induction h generalizing front with
  | done _ =>
    cases hplace
    obtain ⟨rfl, hrest⟩ := List.append_eq_nil_iff.mp hnames
    exact ⟨_, .done fun _ => hd hrest, hd hrest⟩
  | here hcur hopens _ ih =>
    rcases List.append_eq_cons_iff.mp hnames with ⟨rfl, rfl⟩ | ⟨more, rfl, hrest⟩
    · exact ⟨_, .done fun _ => hcur, hcur⟩
    · obtain ⟨mid, hroute, hmid⟩ := ih hrest.symm hplace
      exact ⟨mid, .here hcur hopens hroute, hmid⟩
  | above hdir hopens _ ih =>
    rcases List.append_eq_cons_iff.mp hnames with ⟨rfl, rfl⟩ | ⟨more, rfl, hrest⟩
    · exact ⟨_, .done fun _ => by simp [hdir], by simp [hdir]⟩
    · obtain ⟨mid, hroute, hmid⟩ := ih hrest.symm hplace
      exact ⟨mid, .above hdir hopens hroute, hmid⟩
  | gap _ _ _ => cases hplace
  | entry hsought hopens henters hlink _ ih =>
    rcases List.append_eq_cons_iff.mp hnames with ⟨rfl, rfl⟩ | ⟨more, rfl, hrest⟩
    · exact ⟨_, .done fun _ => henters.isSome, henters.isSome⟩
    · obtain ⟨mid, hroute, hmid⟩ := ih hrest.symm hplace
      exact ⟨mid, .entry (hsought.toward nofun) hopens henters hlink hroute, hmid⟩
  | itself haim _ _ _ _ => cases haim
  | through hsought hopens henters hlink _ _ ih =>
    rcases List.append_eq_cons_iff.mp hnames with ⟨rfl, rfl⟩ | ⟨more, rfl, hrest⟩
    · exact ⟨_, .done fun _ => henters.isSome, henters.isSome⟩
    · obtain ⟨mid, hroute, hmid⟩ := ih (by rw [hrest, List.append_assoc]) hplace
      exact ⟨mid, .through (hsought.toward nofun) hopens henters hlink nofun
        (by simpa using hroute), hmid⟩

variable {d : NodeId} (hd : (t.directory? d).isSome)
include hd

theorem Route.start (h : t.Route u .target links names cur toDirectory (.node d)) :
    (t.directory? cur).isSome := by
  cases h with
  | done _ => exact hd
  | here hcur _ _ => exact hcur
  | above hdir _ _ => simp [hdir]
  | entry _ _ henters _ _ | through _ _ henters _ _ _ => exact henters.isSome
  | itself haim _ _ _ _ => cases haim

end

-- ---------------------------------------------------------------------------
-- What changes make of routes
-- ---------------------------------------------------------------------------

section
variable {t t' : FileTree} {u : User} {parent : NodeId} {name : Name}

theorem grants_congr {access : Access} {id : NodeId}
    (h : (t'.node? id).map Node.rights = (t.node? id).map Node.rights) :
    t'.grants u access id = t.grants u access id := by
  have hgrants (t : FileTree) :
      t.grants u access id = ((t.node? id).map Node.rights).any (u.may access) := by
    simp [grants, Option.any_map]
  rw [hgrants, hgrants, h]

theorem link?_congr {id : NodeId} (h : t'.node? id = t.node? id) : t'.link? id = t.link? id := by
  simp only [link?, h]

theorem directory?_congr {id : NodeId} (h : t'.node? id = t.node? id) :
    t'.directory? id = t.directory? id := by simp only [directory?, h]

theorem link?_eq_some {id : NodeId} {target : Bytes} :
    t.link? id = some target ↔ ∃ node, t.node? id = some node ∧ node.content = .link target := by
  unfold link?
  split
  · next hn => simp [hn]
  · next hn =>
    simp only [reduceCtorEq, false_iff]
    rintro ⟨⟨_, mode, owner, modified⟩, hnode, rfl⟩
    exact hn _ _ _ _ hnode

theorem link?_of_directory? {id : NodeId} {dir : Directory} (h : t.directory? id = some dir) :
    t.link? id = none := by
  obtain ⟨⟨_, _, _, _⟩, hnode, rfl⟩ := directory?_eq_some.mp h
  simp [link?, hnode]

theorem node?_add (h : t.Lacks parent name) (node : Node) (now : Time.Instant) :
    (t.add parent name node now).2.node? t.nodes.size = some node := by
  obtain ⟨dir, hdir, -⟩ := h
  obtain ⟨old, hold, -⟩ := directory?_eq_some.mp hdir
  have hne : t.nodes.size ≠ parent := (Nat.ne_of_lt (lt_size_of_node? hold)).symm
  refine (node?_setEntries_other hne _ _).trans ?_
  rw [node?_push, if_pos rfl]

theorem AddsFile.directory? (h : t.AddsFile t' parent name) : ∃ dir,
    t.directory? parent = some dir ∧ dir.find? name = none ∧
      t'.directory? parent =
        some { dir with entries := dir.entries ++ [(name, t.nodes.size)] } := by
  obtain ⟨node, dir, now, hnode, hdir, hfind, hnode'⟩ := h.entry
  exact ⟨dir, directory?_eq_some.mpr ⟨node, hnode, hdir⟩, hfind,
    directory?_eq_some.mpr ⟨_, hnode', rfl⟩⟩

theorem AddsFile.link? (h : t.AddsFile t' parent name) : t'.link? t.nodes.size = none := by
  obtain ⟨⟨content, mode, owner, modified⟩, hnode, hfile⟩ := h.file
  cases content with
  | file bytes => simp [FileTree.link?, hnode]
  | _ => cases hfile

theorem AddsFile.enters (h : t.AddsFile t' parent name) : t'.Enters parent name t.nodes.size := by
  obtain ⟨dir, -, hfind, hdir'⟩ := h.directory?
  refine ⟨_, hdir', ?_⟩
  rw [Directory.find?, Option.map_eq_none_iff] at hfind
  simp [Directory.find?, List.find?_append, hfind]

theorem AddsFile.grants (h : t.AddsFile t' parent name) {access : Access} {id : NodeId}
    (hid : id ≠ t.nodes.size) : t'.grants u access id = t.grants u access id := by
  by_cases hp : id = parent
  · subst hp
    obtain ⟨node, dir, now, hnode, hdir, -, hnode'⟩ := h.entry
    refine grants_congr ?_
    simp [hnode, hnode', Node.rights, Node.isDirectory, hdir]
  · exact grants_congr (by rw [h.others id hp hid])

theorem AddsFile.grows (h : t.AddsFile t' parent name) : t.Grows t' where
  opens u id hopens := by
    obtain ⟨node, hnode, -⟩ := grants_iff.mp hopens
    rwa [Opens, h.grants (Nat.ne_of_lt (lt_size_of_node? hnode))]
  link id := by
    obtain ⟨dir, hdir, -, hdir'⟩ := h.directory?
    by_cases hp : id = parent
    · subst hp
      rw [link?_of_directory? hdir, link?_of_directory? hdir']
    by_cases hnew : id = t.nodes.size
    · subst hnew
      rw [h.link?]
      simp [FileTree.link?, node?]
    · exact link?_congr (h.others id hp hnew)
  directory id dir hdir := by
    by_cases hp : id = parent
    · subst hp
      obtain ⟨dir', hdirectory, -, hdir'⟩ := h.directory?
      obtain rfl := Option.some.inj (hdir.symm.trans hdirectory)
      refine ⟨_, hdir', rfl, fun other target hfind => ?_⟩
      obtain ⟨entry, hentry, rfl⟩ := Option.map_eq_some_iff.mp hfind
      simp [Directory.find?, List.find?_append, hentry]
    · obtain ⟨node, hnode, -⟩ := directory?_eq_some.mp hdir
      have hnew : id ≠ t.nodes.size := Nat.ne_of_lt (lt_size_of_node? hnode)
      exact ⟨dir, (directory?_congr (h.others id hp hnew)).trans hdir, rfl, fun _ _ hfind => hfind⟩

theorem find?_filter_ne (dir : Directory) (name other : Name) :
    ({ dir with entries := dir.entries.filter (·.1 ≠ name) } : Directory).find? other =
      if other = name then none else dir.find? other := by
  simp only [Directory.find?, List.find?_filter]
  split
  · next h => simp [h]
  · next h =>
    congr 2
    funext entry
    by_cases he : entry.1 = other
    · simp [he, h]
    · simp [he]

theorem DropsEntry.directory? (h : t.DropsEntry t' parent name) : ∃ dir,
    t.directory? parent = some dir ∧
      t'.directory? parent = some { dir with entries := dir.entries.filter (·.1 ≠ name) } := by
  obtain ⟨node, dir, target, now, hnode, hdir, -, -, hnode'⟩ := h.entry
  exact ⟨dir, directory?_eq_some.mpr ⟨node, hnode, hdir⟩, directory?_eq_some.mpr ⟨_, hnode', rfl⟩⟩

theorem DropsEntry.isSome (h : t.DropsEntry t' parent name) (id : NodeId) :
    (t'.directory? id).isSome = (t.directory? id).isSome := by
  by_cases hp : id = parent
  · subst hp
    obtain ⟨dir, hdir, hdir'⟩ := h.directory?
    simp [hdir, hdir']
  · rw [directory?_congr (h.others id hp)]

theorem DropsEntry.grants (h : t.DropsEntry t' parent name) {access : Access} {id : NodeId} :
    t'.grants u access id = t.grants u access id := by
  by_cases hp : id = parent
  · subst hp
    obtain ⟨node, dir, target, now, hnode, hdir, -, -, hnode'⟩ := h.entry
    refine grants_congr ?_
    simp [hnode, hnode', Node.rights, Node.isDirectory, hdir]
  · exact grants_congr (by rw [h.others id hp])

/-- A tree that lost an entry grows into what it was. -/
theorem DropsEntry.grows (h : t.DropsEntry t' parent name) : t'.Grows t where
  opens u id hopens := by rwa [Opens, ← h.grants]
  link id := by
    by_cases hp : id = parent
    · subst hp
      obtain ⟨dir, hdir, hdir'⟩ := h.directory?
      rw [link?_of_directory? hdir, link?_of_directory? hdir']
    · exact (link?_congr (h.others id hp)).symm
  directory id dir hdir := by
    by_cases hp : id = parent
    · subst hp
      obtain ⟨dir', hdirectory, hdir'⟩ := h.directory?
      obtain rfl := Option.some.inj (hdir.symm.trans hdir')
      refine ⟨dir', hdirectory, rfl, fun other target hfind => ?_⟩
      rw [find?_filter_ne] at hfind
      split at hfind
      · cases hfind
      · exact hfind
    · exact ⟨dir, (directory?_congr (h.others id hp)).symm.trans hdir, rfl, fun _ _ hfind => hfind⟩

theorem DropsEntry.enters (h : t.DropsEntry t' parent name) {cur id : NodeId} {other : Name}
    (henters : t.Enters cur other id) (hother : ¬ (cur = parent ∧ other = name)) :
    t'.Enters cur other id := by
  obtain ⟨dir, hdir, hfind⟩ := henters
  by_cases hp : cur = parent
  · subst hp
    obtain ⟨dir', hdirectory, hdir'⟩ := h.directory?
    obtain rfl := Option.some.inj (hdir.symm.trans hdirectory)
    refine ⟨_, hdir', ?_⟩
    rw [find?_filter_ne, if_neg fun he => hother ⟨rfl, he⟩, hfind]
  · exact ⟨dir, (directory?_congr (h.others cur hp)).trans hdir, hfind⟩

/-- A route to a directory passes no entry that leads to none, and stays when such an entry is
taken away. -/
theorem Route.drops {links : Nat} {names : List Name} {cur d : NodeId} {toDirectory : Bool}
    (h : t.Route u .target links names cur toDirectory (.node d)) (hd : (t.directory? d).isSome)
    (hl : links ≤ mostLinks) (hdrops : t.DropsEntry t' parent name)
    (hno : ∀ mid, ¬ t.Route u .target mostLinks [name] parent true (.node mid)) :
    t'.Route u .target links names cur toDirectory (.node d) := by
  generalize hplace : Place.node d = place at h
  induction h with
  | done hcur => exact .done fun hto => by rw [hdrops.isSome, hcur hto]
  | here hcur hopens _ ih =>
    exact .here (by rwa [hdrops.isSome]) (by rwa [Opens, hdrops.grants]) (ih hl hplace)
  | @above _ _ cur _ _ dir hdir hopens _ ih =>
    have hcur : (t'.directory? cur).isSome := by simp [hdrops.isSome, hdir]
    obtain ⟨dir', hdir'⟩ := Option.isSome_iff_exists.mp hcur
    obtain ⟨_, hdirectory, hparent, -⟩ := hdrops.grows.directory cur dir' hdir'
    obtain rfl := Option.some.inj (hdir.symm.trans hdirectory)
    exact .above hdir' (by rwa [Opens, hdrops.grants]) (hparent ▸ ih hl hplace)
  | gap _ _ _ => cases hplace
  | entry hsought hopens henters hlink hroute ih =>
    subst hplace
    refine .entry hsought (by rwa [Opens, hdrops.grants]) (hdrops.enters henters ?_) ?_ (ih hl rfl)
    · rintro ⟨rfl, rfl⟩
      exact hno _ (.entry (hsought.toward nofun) hopens henters hlink
        (.done fun _ => hroute.start hd))
    · rw [← hlink, hdrops.grows.link]
  | itself haim _ _ _ _ => cases haim
  | through hsought hopens henters hlink _ hroute ih =>
    subst hplace
    refine .through hsought (by rwa [Opens, hdrops.grants]) (hdrops.enters henters ?_) ?_ nofun
      (ih (by omega) rfl)
    · rintro ⟨rfl, rfl⟩
      obtain ⟨mid, hfront, -⟩ := hroute.front fun _ => hd
      refine hno mid (Route.mono (.through (hsought.toward nofun) hopens henters hlink nofun ?_) hl)
      simpa using hfront
    · rw [← hlink, hdrops.grows.link]

end

end LineShell.Files.FileTree
