import LineShell.Proofs.Builtin.Replies
import LineShell.Proofs.Files.Entries

/-!
# Copying, call by call

Copying opens the source, makes the target, fills it, and opens the target once more to give it its
time. Any of the calls may be refused, and what the calls before it have done stays. Only opening
the source can wait, and only the last call can be refused with the copy already made: a user who
may not write to files of the source's mode may not even set the time of their own copy.
-/

namespace LineShell

open Files (FileTree Name Node NodeId)

/-- What a copy of a file is. It belongs to the user who copies. -/
def Files.Node.copied (node : Node) (u : Files.User) : Node :=
  { node with mode := Files.permissionBits node.mode, owner := u.id }

theorem Files.Node.isFile_copied {node : Node} {bytes : Bytes} {u : Files.User}
    (h : node.content = .file bytes) : (node.copied u).isFile := by simp [isFile, copied, h]

theorem Files.Node.rights_copied {node : Node} {bytes : Bytes} {u : Files.User}
    (h : node.content = .file bytes) :
    (node.copied u).rights = ⟨Files.permissionBits node.mode, u.id, false⟩ := by
  simp [rights, copied, isDirectory, h]

namespace World

/-- The path leads to a fifo that the user may read. Opening it waits. -/
def LeadsToFifo (w : World) (path : String) : Prop :=
  ∃ node, w.stat path = .ok node ∧ node.isFifo ∧ w.user.may .read node.rights

/-- The user may write to a file of their own that has the mode of what the path leads to. -/
def MaySetTime (w : World) (path : String) : Prop :=
  ∀ node, w.stat path = .ok node →
    w.user.may .write ⟨Files.permissionBits node.mode, w.user.id, false⟩

/-- A copy is new, the target leads to it, and every path that led somewhere leads there still. -/
structure MakesCopy (w w' : World) (target : String) (copy : Node) (parent : NodeId) (name : Name) :
    Prop where
  onlyFiles : w' = { w with files := w'.files }
  adds : w.files.AddsFile w'.files parent name
  new : w'.files.node? w.files.nodes.size = some copy
  leads : w'.locate target = .ok w.files.nodes.size
  kept : ∀ path id, w.locate path = .ok id → w'.locate path = .ok id

variable {w w' : World} {path source target : String} {node : Node} {bytes : Bytes} {id : NodeId}
  {mode : Nat} {parent : NodeId} {name : Name}

-- ---------------------------------------------------------------------------
-- Opening the source
-- ---------------------------------------------------------------------------

theorem openForReading_eq (hid : w.locate path = .ok id) :
    w.openForReading path =
      if !w.files.grants w.user .read id then .error (.refused (.system .denied))
      else if (w.files.node? id).any (·.isFifo) then .error .waits
      else .ok id := by
  obtain ⟨bytes, hbytes, hlookup⟩ := locate_eq_ok.mp hid
  simp only [openForReading, hbytes, FileTree.openForReading, hlookup]
  split
  · rfl
  · split <;> rfl

theorem openForReading_error {f : Failure} (h : w.locate path = .error f) :
    w.openForReading path = .error (.refused f) := by
  unfold locate at h
  unfold openForReading
  cases hbytes : pathBytes path with
  | error g =>
    simp only [hbytes] at h ⊢
    rw [Except.error.inj h]
  | ok bytes =>
    simp only [hbytes] at h ⊢
    unfold FileTree.openForReading
    cases hlookup : w.files.lookup w.user w.cwd bytes with
    | error e =>
      simp only [hlookup, mapError_error] at h ⊢
      rw [← Except.error.inj h]
      rfl
    | ok id => simp [hlookup] at h

theorem openForReading_waits_iff : w.openForReading path = .error .waits ↔ w.LeadsToFifo path := by
  cases hid : w.locate path with
  | error f =>
    simp only [openForReading_error hid, Except.error.injEq, reduceCtorEq, false_iff]
    rintro ⟨node, hnode, -⟩
    obtain ⟨id, hid', -⟩ := stat_eq_ok.mp hnode
    simp [hid] at hid'
  | ok id =>
    rw [openForReading_eq hid]
    constructor
    · intro h
      split at h
      · cases h
      next hread =>
      split at h
      · next hfifo =>
        obtain ⟨node, hnode, hmay⟩ := FileTree.grants_iff.mp (by simpa using hread)
        exact ⟨node, stat_eq_ok.mpr ⟨id, hid, hnode⟩, by simpa [hnode] using hfifo, hmay⟩
      · cases h
    · rintro ⟨node, hnode, hfifo, hmay⟩
      obtain ⟨id', hid', hnode⟩ := stat_eq_ok.mp hnode
      obtain rfl := Except.ok.inj (hid.symm.trans hid')
      have hgrants := FileTree.grants_iff.mpr ⟨node, hnode, hmay⟩
      simp [hgrants, hnode, hfifo]

theorem openForReading_ok (h : w.openForReading path = .ok id) :
    w.locate path = .ok id ∧ w.files.grants w.user .read id := by
  cases hid : w.locate path with
  | error f =>
    rw [openForReading_error hid] at h
    cases h
  | ok id' =>
    rw [openForReading_eq hid] at h
    split at h
    · cases h
    next hread =>
    split at h
    · cases h
    cases h
    exact ⟨rfl, by simpa using hread⟩

theorem fileMode_eq_ok :
    w.fileMode id = .ok mode ↔ ∃ node, w.files.node? id = some node ∧ node.isFile ∧
      node.mode = mode := by
  unfold fileMode
  cases hnode : w.files.node? id with
  | none => simp
  | some node => cases hfile : node.isFile <;> simp [Option.filter, hfile]

theorem fileMode_error {stop : Stop Failure} (h : w.fileMode id = .error stop) :
    stop = .refused .sourceNotRegular := by
  unfold fileMode at h
  split at h
  · cases h
  · exact (Except.error.inj h).symm

-- ---------------------------------------------------------------------------
-- Making the target
-- ---------------------------------------------------------------------------

theorem node?_of_leadsNowhere (hno : w.leadsSomewhere path = false)
    (hbytes : pathBytes path = .ok bytes) (hid : w.files.lookup w.user w.cwd bytes = .ok id) :
    w.files.node? id = none := by
  cases hnode : w.files.node? id with
  | none => rfl
  | some node =>
    have hlocate := locate_eq_ok.mpr ⟨bytes, hbytes, hid⟩
    simp [leadsSomewhere, stat, hlocate, hnode, Except.toOption] at hno

def newFile (w : World) (mode : Nat) : Node :=
  ⟨.file [], Files.permissionBits (mode - (mode &&& w.umask)), w.user.id, w.now⟩

theorem create_room (hroom : w.RoomFor target parent name) (mode : Nat) :
    w.create target mode = .ok (w.files.nodes.size,
      { w with files := (w.files.add parent name (w.newFile mode) w.now).2 }) := by
  obtain ⟨bytes, hbytes, hplace, hpresent, hwritable⟩ := hroom
  simp only [create, hbytes, FileTree.create, hplace, Option.isNone_iff_eq_none,
    Option.isSome_iff_ne_none.mp hpresent, if_false, hwritable]
  rfl

/-- Where a path leads nowhere there is room for a new file, or a refusal. Nothing waits. -/
theorem create_cases (hno : w.leadsSomewhere target = false) (mode : Nat) :
    (∃ parent name, w.RoomFor target parent name) ∨
      ∃ f, w.create target mode = .error (.refused f) := by
  cases hbytes : pathBytes target with
  | error f => exact .inr ⟨f, by rw [create, hbytes]⟩
  | ok bytes =>
    cases hplace : w.files.place w.user w.cwd .creation bytes with
    | error e => exact .inr ⟨_, by simp only [create, hbytes, FileTree.create, hplace]; rfl⟩
    | ok place =>
      cases place with
      | node id =>
        have hnone := node?_of_leadsNowhere hno hbytes (FileTree.lookup_of_place_creation hplace)
        have hdenied := FileTree.openNode_missing hnone w.user
        exact .inr ⟨_, by simp only [create, hbytes, FileTree.create, hplace, hdenied]; rfl⟩
      | vacant parent name =>
        cases hpresent : w.files.namesOf? parent with
        | none =>
          exact .inr ⟨_, by simp only [create, hbytes, FileTree.create, hplace, hpresent]; rfl⟩
        | some names =>
          cases hwritable : w.files.grants w.user .write parent with
          | true => exact .inl ⟨parent, name, bytes, hbytes, hplace, by simp [hpresent], hwritable⟩
          | false =>
            exact .inr ⟨_, by
              simp only [create, hbytes, FileTree.create, hplace, hpresent, hwritable]; rfl⟩

-- ---------------------------------------------------------------------------
-- The copy
-- ---------------------------------------------------------------------------

section
variable {copy : Node}

theorem makesCopy_of_addsFile {files : FileTree} (hroom : w.RoomFor target parent name)
    (hadds : w.files.AddsFile files parent name)
    (hnew : files.node? w.files.nodes.size = some copy) :
    w.MakesCopy { w with files } target copy parent name := by
  obtain ⟨path, hpath, hplace, -⟩ := hroom
  refine ⟨rfl, hadds, hnew, ?_, ?_⟩
  · have hfilled := FileTree.place_of_routes hplace fun hroute =>
      hroute.fills (.inl rfl) hadds.grows hadds.enters hadds.link?
    exact locate_eq_ok.mpr ⟨path, hpath, FileTree.lookup_of_place_creation hfilled⟩
  · intro other id hid
    obtain ⟨bytes, hbytes, hlookup⟩ := locate_eq_ok.mp hid
    have hkept := FileTree.place_of_routes (FileTree.lookup_eq_ok.mp hlookup) fun hroute =>
      hroute.grows hadds.grows
    exact locate_eq_ok.mpr ⟨bytes, hbytes, FileTree.lookup_eq_ok.mpr hkept⟩

theorem MakesCopy.setTime (h : w.MakesCopy w' target copy parent name)
    (hroom : w.RoomFor target parent name) (time : Time.Instant) :
    w.MakesCopy (w'.setTime w.files.nodes.size time) target { copy with modified := time } parent
      name := by
  have hadds : w.files.AddsFile (w'.files.update w.files.nodes.size ({ · with modified := time }))
      parent name := h.adds.update fun _ hfile => hfile
  have hset := makesCopy_of_addsFile hroom hadds
    (by rw [FileTree.node?_update, if_pos rfl, h.new, Option.map_some])
  rw [World.setTime, h.onlyFiles]
  exact hset

theorem MakesCopy.node? (h : w.MakesCopy w' target copy parent name)
    (hnode : w.files.node? id = some node) (hdir : ∀ dir, node.content ≠ .directory dir) :
    w'.files.node? id = some node := by
  obtain ⟨dir, hparent, -⟩ := h.adds.directory?
  obtain ⟨old, hold, hcontent⟩ := FileTree.directory?_eq_some.mp hparent
  rw [h.adds.others id ?_ (Nat.ne_of_lt (FileTree.lt_size_of_node? hnode)), hnode]
  rintro rfl
  obtain rfl := Option.some.inj (hnode.symm.trans hold)
  exact hdir dir hcontent

theorem MakesCopy.stat (h : w.MakesCopy w' target copy parent name)
    (hsource : w.stat source = .ok node) (hfile : node.content = .file bytes) :
    w'.stat source = .ok node := by
  obtain ⟨id, hid, hnode⟩ := stat_eq_ok.mp hsource
  exact stat_eq_ok.mpr ⟨id, h.kept source id hid, h.node? hnode (by simp [hfile])⟩

/-- A link stays at its path. -/
theorem MakesCopy.entryAt {far : Bytes} (h : w.MakesCopy w' target copy parent name)
    (hentry : w.EntryAt path node) (hlink : node.content = .link far) : w'.EntryAt path node := by
  obtain ⟨bytes, id, hbytes, hplace, hnode⟩ := hentry
  refine ⟨bytes, id, hbytes, ?_, h.node? hnode (by simp [hlink])⟩
  rw [h.onlyFiles]
  exact FileTree.place_of_routes hplace fun hroute => hroute.grows h.adds.grows

theorem MakesCopy.entryAt_gap (h : w.MakesCopy w' target copy parent name)
    (hgap : w.GapAt target parent name) : w'.EntryAt target copy := by
  obtain ⟨hne, hshort, hroute⟩ := FileTree.place_eq_ok.mp (hgap.place .entry)
  refine ⟨_, _, pathBytes_eq_ok.mpr ⟨hgap.noNul, rfl⟩, ?_, h.new⟩
  rw [h.onlyFiles]
  refine FileTree.place_eq_ok.mpr ⟨hne, hshort, ?_⟩
  exact hroute.fills (.inr ⟨rfl, decide_eq_false hgap.toFile⟩) h.adds.grows h.adds.enters
    h.adds.link?

end

-- ---------------------------------------------------------------------------
-- Contents and permissions
-- ---------------------------------------------------------------------------

theorem copyFile_error {stop : Stop Failure} (h : w.copyFile source target = (.error stop, w')) :
    w' = w := by
  unfold copyFile at h
  split at h
  · cases h
    rfl
  split at h
  · cases h
    rfl
  split at h
  · cases h
    rfl
  · cases h

theorem copyFile_waits (hno : w.leadsSomewhere target = false)
    (h : w.copyFile source target = (.error .waits, w')) :
    w.openForReading source = .error .waits := by
  unfold copyFile at h
  split at h
  · next hreader =>
    cases h
    exact hreader
  split at h
  · next hmode =>
    cases h
    cases fileMode_error hmode
  split at h
  · next hcreate =>
    cases h
    rcases create_cases hno _ with ⟨parent, name, hroom⟩ | ⟨f, hrefused⟩
    · cases (create_room hroom _).symm.trans hcreate
    · cases hrefused.symm.trans hcreate
  · cases h

theorem copyFile_ok (hno : w.leadsSomewhere target = false)
    (h : w.copyFile source target = (.ok (), w')) :
    ∃ node bytes parent name, w.stat source = .ok node ∧ node.content = .file bytes ∧
      w.user.may .read node.rights ∧ w.RoomFor target parent name := by
  unfold copyFile at h
  split at h
  · cases h
  next reader hreader =>
  split at h
  · cases h
  next mode hmode =>
  split at h
  · cases h
  next writer made hcreate =>
  obtain ⟨hid, hread⟩ := openForReading_ok hreader
  obtain ⟨node, hnode, hfile, -⟩ := fileMode_eq_ok.mp hmode
  obtain ⟨node', hnode', hmay⟩ := FileTree.grants_iff.mp hread
  obtain rfl := Option.some.inj (hnode.symm.trans hnode')
  obtain ⟨parent, name, hroom⟩ : ∃ parent name, w.RoomFor target parent name := by
    rcases create_cases hno mode with hroom | ⟨f, hrefused⟩
    · exact hroom
    · cases hrefused.symm.trans hcreate
  obtain ⟨bytes, hbytes⟩ := Node.isFile_iff.mp hfile
  exact ⟨node, bytes, parent, name, stat_eq_ok.mpr ⟨reader, hid, hnode⟩, hbytes, hmay, hroom⟩

theorem openForReading_file (hsource : w.stat source = .ok node)
    (hfile : node.content = .file bytes)
    (hread : w.user.may .read node.rights) :
    ∃ reader, w.openForReading source = .ok reader ∧ w.fileMode reader = .ok node.mode ∧
      w.files.node? reader = some node := by
  obtain ⟨reader, hid, hnode⟩ := stat_eq_ok.mp hsource
  have hgrants := FileTree.grants_iff.mpr ⟨node, hnode, hread⟩
  refine ⟨reader, ?_, ?_, hnode⟩
  · simp [openForReading_eq hid, hgrants, hnode, Node.isFifo, hfile]
  · exact fileMode_eq_ok.mpr ⟨node, hnode, Node.isFile_iff.mpr ⟨_, hfile⟩, rfl⟩

theorem duplicate_nul (hsource : w.stat source = .ok node) (hfile : node.content = .file bytes)
    (hread : w.user.may .read node.rights) (hnul : HoldsNul target) :
    w.duplicate source target = (.error (.refused .nulInName), w) := by
  obtain ⟨reader, hreader, hmode, -⟩ := openForReading_file hsource hfile hread
  have hcreate : w.create target node.mode = .error (.refused .nulInName) := by
    rw [create, pathBytes, if_pos hnul]
  simp only [duplicate, copyFile, hreader, hmode, hcreate]

theorem copyFile_room (hsource : w.stat source = .ok node) (hfile : node.content = .file bytes)
    (hread : w.user.may .read node.rights) (hroom : w.RoomFor target parent name) :
    ∃ made, w.copyFile source target = (.ok (), made) ∧
      w.MakesCopy made target { node.copied w.user with modified := w.now } parent name := by
  obtain ⟨reader, hreader, hmode, hnode⟩ := openForReading_file hsource hfile hread
  have hlacks : w.files.Lacks parent name := by
    obtain ⟨path, -, hplace, -⟩ := hroom
    exact (FileTree.place_eq_ok.mp hplace).2.2.lacks
  let opened := (w.files.add parent name (w.newFile node.mode) w.now).2
  let granted :=
    opened.update w.files.nodes.size ({ · with mode := Files.permissionBits node.mode })
  have hopened : opened.node? w.files.nodes.size = some (w.newFile node.mode) :=
    FileTree.node?_add hlacks _ _
  have hgranted : w.files.AddsFile granted parent name :=
    (FileTree.addsFile_add hlacks rfl w.now).update fun _ hfile => hfile
  -- The source is still what it was when the bytes are taken from it.
  have hkept : granted.file? reader = some bytes := by
    have hmade := makesCopy_of_addsFile hroom hgranted
      (by rw [FileTree.node?_update, if_pos rfl, hopened, Option.map_some])
    have hsame := hmade.node? hnode (by simp [hfile])
    obtain ⟨content, _, _, _⟩ := node
    obtain rfl : content = .file bytes := hfile
    simp only at hsame
    simp only [FileTree.file?, hsame]
  refine ⟨{ w with files := granted.setContent w.files.nodes.size bytes w.now }, ?_, ?_⟩
  · simp only [copyFile, hreader, hmode, create_room hroom, transfer, setMode, Prod.mk.injEq,
      true_and]
    change { w with files := granted.setContent _ ((granted.file? reader).getD []) _ } = _
    rw [hkept, Option.getD_some]
  · refine makesCopy_of_addsFile hroom (hgranted.update fun new hnew => ?_) ?_
    · split
      · rfl
      · exact hnew
    · simp only [FileTree.setContent, FileTree.node?_update, if_true, granted, hopened,
        Option.map_some, newFile, Node.copied, hfile]

-- ---------------------------------------------------------------------------
-- The time
-- ---------------------------------------------------------------------------

theorem MakesCopy.openForWriting {copy : Node} (h : w.MakesCopy w' target copy parent name)
    (hfile : copy.isFile) :
    w'.openForWriting target =
      if w.user.may .write copy.rights then .ok w.files.nodes.size
      else .error (.refused (.system .denied)) := by
  obtain ⟨bytes, hbytes, hlookup⟩ := locate_eq_ok.mp h.leads
  have huser : w'.user = w.user := by rw [h.onlyFiles]
  obtain ⟨contents, hcontents⟩ := Node.isFile_iff.mp hfile
  have hfifo : copy.isFifo = false := by simp [Node.isFifo, hcontents]
  have hdir : w'.files.directory? w.files.nodes.size = none := by
    rw [Option.eq_none_iff_forall_ne_some]
    intro dir hdir
    obtain ⟨node, hnode, hdir⟩ := FileTree.directory?_eq_some.mp hdir
    obtain rfl := Option.some.inj (h.new.symm.trans hnode)
    cases hcontents.symm.trans hdir
  have hgrants : w'.files.grants w.user .write w.files.nodes.size =
      w.user.may .write copy.rights := by
    simp [FileTree.grants, h.new]
  rw [huser] at hlookup
  simp only [World.openForWriting, hbytes, FileTree.openForWriting, huser, hlookup,
    FileTree.openNode, hdir, hgrants, h.new, Option.any_some, hfifo]
  cases w.user.may .write copy.rights with
  | true => rfl
  | false => rfl

theorem MakesCopy.copyTime {copy : Node} (h : w.MakesCopy w' target copy parent name)
    (hfile : copy.isFile) (hsource : w'.stat source = .ok node) :
    w'.copyTime source target =
      if w.user.may .write copy.rights then
        (.ok (), w'.setTime w.files.nodes.size node.modified)
      else (.error (.refused (.system .denied)), w') := by
  simp only [World.copyTime, hsource, h.openForWriting hfile]
  cases w.user.may .write copy.rights with
  | true => rfl
  | false => rfl

-- ---------------------------------------------------------------------------
-- Both parts
-- ---------------------------------------------------------------------------

section
variable (hsource : w.stat source = .ok node) (hfile : node.content = .file bytes)
  (hread : w.user.may .read node.rights) (hroom : w.RoomFor target parent name)
include hsource hfile hread hroom

theorem duplicate_timed (hmay : w.MaySetTime source) :
    ∃ w', w.duplicate source target = (.ok (), w') ∧
      w.MakesCopy w' target (node.copied w.user) parent name := by
  obtain ⟨made, hcopy, hmakes⟩ := copyFile_room hsource hfile hread hroom
  have hisFile : (node.copied w.user).isFile := Node.isFile_copied hfile
  have htime := hmakes.copyTime hisFile (hmakes.stat hsource hfile)
  refine ⟨made.setTime w.files.nodes.size node.modified, ?_, hmakes.setTime hroom node.modified⟩
  simp only [duplicate, hcopy, htime]
  exact if_pos (Node.rights_copied hfile ▸ hmay node hsource)

/-- The copy stays, with the time at which it was made. -/
theorem duplicate_untimed (hmay : ¬ w.MaySetTime source) :
    ∃ made, w.duplicate source target = (.error (.refused (.system .denied)), made) ∧
      w.MakesCopy made target { node.copied w.user with modified := w.now } parent name := by
  obtain ⟨made, hcopy, hmakes⟩ := copyFile_room hsource hfile hread hroom
  have hisFile : (node.copied w.user).isFile := Node.isFile_copied hfile
  have htime := hmakes.copyTime hisFile (hmakes.stat hsource hfile)
  refine ⟨made, ?_, hmakes⟩
  simp only [duplicate, hcopy, htime]
  refine if_neg fun hwrite => hmay fun other hother => ?_
  obtain rfl := Except.ok.inj (hsource.symm.trans hother)
  exact Node.rights_copied hfile ▸ hwrite

end

/-- Where the target leads nowhere, a copy is made or the world stays as it was. -/
theorem duplicate_cases (source : String) (hno : w.leadsSomewhere target = false) :
    (∃ stop, w.duplicate source target = (.error stop, w)) ∨
      ∃ node bytes parent name, w.stat source = .ok node ∧ node.content = .file bytes ∧
        w.user.may .read node.rights ∧ w.RoomFor target parent name := by
  rcases hcopy : w.copyFile source target with ⟨stop | _, made⟩
  · left
    obtain rfl := copyFile_error hcopy
    exact ⟨stop, by rw [duplicate, hcopy]⟩
  · exact .inr (copyFile_ok hno hcopy)

theorem duplicate_waits_iff (hno : w.leadsSomewhere target = false) :
    (w.duplicate source target).1 = .error .waits ↔ w.LeadsToFifo source := by
  rw [← openForReading_waits_iff]
  constructor
  · intro h
    rcases hcopy : w.copyFile source target with ⟨stop | _, made⟩
    · obtain rfl : stop = .waits := by simpa [duplicate, hcopy] using h
      exact copyFile_waits hno hcopy
    · obtain ⟨node, bytes, parent, name, hsource, hfile, hread, hroom⟩ := copyFile_ok hno hcopy
      by_cases hmay : w.MaySetTime source
      · obtain ⟨w', hdone, -⟩ := duplicate_timed hsource hfile hread hroom hmay
        rw [hdone] at h
        cases h
      · obtain ⟨w', hdone, -⟩ := duplicate_untimed hsource hfile hread hroom hmay
        rw [hdone] at h
        cases h
  · intro h
    simp [duplicate, copyFile, h]

-- ---------------------------------------------------------------------------
-- Fifos
-- ---------------------------------------------------------------------------

def pipeName : Files.Directory := ⟨FileTree.root, [(bytesOf "pipe", 1)]⟩

/-- A world with a fifo in the directory in use. -/
def piped : World := { fresh with
  files := ⟨#[⟨.directory pipeName, 0o755, 0, dawn⟩, ⟨.fifo, 0o644, 0, dawn⟩]⟩ }

theorem piped_find? : pipeName.find? (bytesOf "pipe") = some 1 := by decide

theorem leadsToFifo_pipe : piped.LeadsToFifo "pipe" := by
  have hpipe : Files.ProperName (bytesOf "pipe") := by decide
  have hentry : piped.EntryAt "pipe" ⟨.fifo, 0o644, 0, dawn⟩ :=
    entryAt_of_find? rfl rfl hpipe piped_find? rfl
  exact ⟨_, hentry.stat nofun, rfl, rfl⟩

theorem leadsNowhere_new : piped.leadsSomewhere "new" = false := by
  have hnew : Files.ProperName (bytesOf "new") := by decide
  have hroom : piped.RoomFor "new" FileTree.root (bytesOf "new") := by
    refine ⟨_, pathBytes_of_proper hnew, hnew.place_eq_ok.mpr ?_, ?_, rfl⟩
    · exact .gap (hnew.sought _ []) rfl ⟨_, rfl, by decide⟩
    · rw [FileTree.namesOf?]
      rfl
  exact hroom.leadsNowhere

end World

end LineShell
