import LineShell.Proofs.Builtin.Effects
import LineShell.Proofs.Builtin.Listing
import LineShell.Proofs.Text.Shown

/-!
# Deleting

What a listing shows as a file can be deleted, which takes away its line and nothing else, unless it
is a link that leads nowhere: `delete_agrees`. Whether there is something to delete is asked through
links, and the entry that is then deleted is not followed.
-/

namespace LineShell

open Files (Directory FileTree Node NodeId ProperName)

namespace World

variable {w : World} {name : String} {dir : Directory} {id : NodeId} {node : Node}

theorem mayList_superuser (hroot : w.user = .superuser)
    (hcwd : w.files.directory? w.cwd = some dir) : w.MayList := by
  rw [MayList, FileTree.Opens, hroot]
  exact ⟨FileTree.grants_superuser hcwd _, FileTree.grants_superuser hcwd _⟩

/-- The entry of the directory in use that a name stands for is removed, if it is no directory. -/
theorem remove_name (hroot : w.user = .superuser) (hcwd : w.files.directory? w.cwd = some dir)
    (hname : ProperName (bytesOf name)) (hfind : dir.find? (bytesOf name) = some id)
    (hnode : w.files.node? id = some node) (hid : w.files.directory? id = none) :
    w.remove name = .ok { w with files := w.files.drop w.cwd (bytesOf name) w.now } := by
  have hshort : ¬ Files.longestPath < (bytesOf name).length :=
    Nat.not_lt.mpr (Nat.le_trans hname.short (by decide))
  have hwalk : w.files.walk .superuser .target Files.mostLinks [] w.cwd true = .ok (.node w.cwd) :=
    FileTree.walk_eq_ok.mpr (.done fun _ => by simp [hcwd])
  have hproper : ¬ (bytesOf name = Files.here ∨ bytesOf name = Files.above) :=
    not_or.mpr hname.notDots
  have hmay (access : Files.Access) := FileTree.grants_superuser hcwd access
  have hunlink : w.files.unlink .superuser w.cwd (bytesOf name) w.now =
      .ok (w.files.drop w.cwd (bytesOf name) w.now) := by
    simp [FileTree.unlink, hname.nonempty, hshort, hname.ofBytes, hwalk, hcwd, hproper,
      Nat.not_lt.mpr hname.short, hfind, hid, hmay, FileTree.mayDiscard, hnode]
  simp only [remove, pathBytes_of_proper hname, hroot, hunlink]
  rfl

end World

namespace Builtin

variable {s : Session} {path name : String} {dir : Directory}

-- ---------------------------------------------------------------------------
-- The command
-- ---------------------------------------------------------------------------

theorem Reply.delete_eq (path : String) (w : World) : Reply.delete ["delete", path] w =
    if w.leadsSomewhere path then .after (w.tried (w.remove path)) [.line "Successfully deleted"]
    else .say w ["File does not exist"] := rfl

theorem replies?_delete : replies? "delete" = some Reply.delete := rfl

theorem answers_deleted {w' : World} (hsome : s.world.leadsSomewhere path = true)
    (hremove : s.world.remove path = .ok w') :
    Answers s ["delete", path] ["Successfully deleted"] (.ok true) w' := by
  refine answers_say replies?_delete ?_
  rw [Reply.delete_eq, hsome, hremove]
  rfl

theorem answers_undeleted {f : Failure} (hsome : s.world.leadsSomewhere path = true)
    (hremove : s.world.remove path = .error f) :
    Answers s ["delete", path] [] (.error (.refused (.builtin "delete" f))) s.world := by
  refine answers_fail replies?_delete ?_
  rw [Reply.delete_eq, hsome, hremove]
  rfl

theorem answers_noFile (hno : s.world.leadsSomewhere path = false) :
    Answers s ["delete", path] ["File does not exist"] (.ok true) s.world := by
  refine answers_say replies?_delete ?_
  rw [Reply.delete_eq, hno]
  rfl

/-- The entry can be deleted. Its line is then missing from the listing and nothing else is
changed. -/
def Deletable (s : Session) (name : String) : Prop := ∃ w' before after,
  Answers s ["delete", name] ["Successfully deleted"] (.ok true) w' ∧
    w' = { s.world with files := w'.files } ∧
    s.world.files.DropsEntry w'.files s.world.cwd (bytesOf name) ∧
    Answers s ["files"] (before ++ ("file: " ++ name) :: after) (.ok true) s.world ∧
    Answers ((Registry.standard.execute ["delete", name]).perform s).2 ["files"] (before ++ after)
      (.ok true) w'

theorem Deletable.leadsSomewhere (h : Deletable s name) (hn : s.out.NeverFails) :
    s.world.leadsSomewhere name = true := by
  refine Bool.of_not_eq_false fun hno => ?_
  obtain ⟨w', _, _, hdeleted, -⟩ := h
  have hlines := hdeleted.same_lines (answers_noFile hno) hn
  revert hlines
  decide +kernel

/-- How deleting agrees with the listing of the directory in use. -/
structure DeleteAgrees (s : Session) (dir : Directory) : Prop where
  entry : ∀ name, bytesOf name ∈ dir.entries.map (·.1) → ∃ node, s.world.EntryAt name node
  deletable : ∀ name, bytesOf name ∈ dir.entries.map (·.1) →
    listingLine s.world (bytesOf name) = "file: " ++ name →
    (Deletable s name ↔ s.world.leadsSomewhere name = true)
  missing : ∀ path, Answers s ["delete", path] ["File does not exist"] (.ok true) s.world ↔
    s.world.leadsSomewhere path = false
  nowhere : ∀ path node, s.world.EntryAt path node → s.world.leadsSomewhere path = false →
    ∃ far, node.content = .link far

theorem deletable_listed (hroot : s.world.user = .superuser)
    (hcwd : s.world.files.directory? s.world.cwd = some dir)
    (hproper : dir.Proper s.world.files) (hname : bytesOf name ∈ dir.entries.map (·.1))
    (hline : listingLine s.world (bytesOf name) = "file: " ++ name)
    (hsome : s.world.leadsSomewhere name = true) : Deletable s name := by
  have hpname := hproper.properName hname
  have hmay := World.mayList_superuser hroot hcwd
  obtain ⟨id, node, hfind, hnode⟩ := hproper.find? hname
  have hno (d : NodeId) :
      ¬ s.world.files.Route s.world.user .target Files.mostLinks [bytesOf name] s.world.cwd true
        (.node d) :=
    fun hroute => not_toDirectory_of_line hline (toDirectory_of_route hpname hroute)
  have hid : s.world.files.directory? id = none := by
    rw [← Option.not_isSome_iff_eq_none]
    intro hd
    obtain ⟨found, hfound⟩ := Option.isSome_iff_exists.mp hd
    exact hno id (.entry ((hpname.sought .target []).toward nofun) hmay.1 ⟨dir, hcwd, hfind⟩
      (FileTree.link?_of_directory? hfound) (.done fun _ => hd))
  have hdrops := FileTree.dropsEntry_drop hcwd hfind hid s.world.now
  have hanswers := answers_deleted hsome (World.remove_name hroot hcwd hpname hfind hnode hid)
  obtain ⟨dir', before, after, hcwd', hbefore, hafter⟩ :=
    listed_drop hdrops hno hcwd hproper.once hname
  refine ⟨_, before, after, hanswers, rfl, hdrops, ?_, ?_⟩
  · rw [← hline, ← hbefore]
    exact answers_files hcwd hmay
  · let t := ((Registry.standard.execute ["delete", name]).perform s).2
    have hworld : t.world = _ := hanswers.world
    have hcwdt : t.world.files.directory? t.world.cwd = some dir' := by rw [hworld, hcwd']
    have hroott : t.world.user = .superuser := by rw [hworld, hroot]
    have hlisted := answers_files hcwdt (World.mayList_superuser hroott hcwdt)
    rwa [hworld, hafter] at hlisted

theorem delete_agrees (hn : s.out.NeverFails) (hroot : s.world.user = .superuser)
    (hcwd : s.world.files.directory? s.world.cwd = some dir) (hproper : dir.Proper s.world.files) :
    DeleteAgrees s dir where
  entry name hname := by
    obtain ⟨id, node, hfind, hnode⟩ := hproper.find? hname
    have hopens := (World.mayList_superuser hroot hcwd).1
    exact ⟨node, World.entryAt_of_find? hcwd hopens (hproper.properName hname) hfind hnode⟩
  deletable name hname hline :=
    ⟨fun h => h.leadsSomewhere hn, deletable_listed hroot hcwd hproper hname hline⟩
  missing path := by
    refine ⟨fun hmissing => ?_, answers_noFile⟩
    rw [← Bool.not_eq_true]
    intro hsome
    cases hremove : s.world.remove path with
    | error f =>
      have hlines := hmissing.same_lines (answers_undeleted hsome hremove) hn
      revert hlines
      decide +kernel
    | ok w' =>
      have hlines := hmissing.same_lines (answers_deleted hsome hremove) hn
      revert hlines
      decide +kernel
  nowhere path node hentry hno := hentry.link_of_nowhere hno

section
open World (linked linkedNames)

theorem listingLine_linked {text : String} (hname : Files.ProperName (bytesOf text))
    (hno : ¬ EntersDirectory linked (bytesOf text)) :
    listingLine linked (bytesOf text) = "file: " ++ text := by
  rw [listingLine_file (mt (toDirectory_iff hname rfl).mp hno), shown_bytesOf]

theorem listingLine_far : listingLine linked (bytesOf "far") = "file: far" := by
  refine listingLine_linked (by decide) fun h => ?_
  obtain ⟨d, hd, -⟩ := h.of_route World.route_far.target_of_creation
  cases hd

theorem listingLine_file_linked : listingLine linked (bytesOf "file") = "file: file" :=
  listingLine_linked (by decide) (not_entersDirectory World.route_file rfl)

theorem listingLine_near : listingLine linked (bytesOf "near") = "file: near" :=
  listingLine_linked (by decide) (not_entersDirectory World.route_near rfl)

theorem listed_linked : listed linked linkedNames = ["file: far", "file: file", "file: near"] := by
  have horder : inOrder (linkedNames.entries.map (·.1)) =
      [bytesOf "far", bytesOf "file", bytesOf "near"] := List.mergeSort_of_pairwise (by decide)
  simp only [listed, horder, List.map_cons, List.map_nil, listingLine_far,
    listingLine_file_linked, listingLine_near]

end

/-- A link is deleted, and the file it leads to stays. -/
theorem delete_agrees_linked : Deletable { world := .linked } "near" := by
  have hn := Sink.neverFails_empty
  have hproper : World.linkedNames.Proper World.linked.files := by decide
  have hagrees := delete_agrees (s := { world := .linked }) hn rfl rfl hproper
  have hsome := World.leadsSomewhere_iff.mpr ⟨_, World.stat_near⟩
  exact (hagrees.deletable "near" (by decide) listingLine_near).mpr hsome

/-- A link that leads nowhere is listed as a file. It is there, and is not deleted. -/
theorem delete_misses_link :
    (∃ node, World.linked.EntryAt "far" node) ∧
      Answers { world := .linked } ["files"] ["file: far", "file: file", "file: near"] (.ok true)
        .linked ∧
      Answers { world := .linked } ["delete", "far"] ["File does not exist"] (.ok true) .linked ∧
      ¬ Deletable { world := .linked } "far" := by
  have hno := World.roomFor_far.leadsNowhere
  refine ⟨⟨_, World.entryAt_far⟩, ?_, answers_noFile hno, fun hdeletable => ?_⟩
  · exact listed_linked ▸
      answers_files (s := { world := .linked }) rfl (World.mayList_superuser rfl rfl)
  · have hsome := hdeletable.leadsSomewhere Sink.neverFails_empty
    exact Bool.false_ne_true (hno.symm.trans hsome)

end Builtin

end LineShell
