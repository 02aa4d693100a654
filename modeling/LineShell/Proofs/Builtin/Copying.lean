import LineShell.Proofs.Builtin.Duplicating
import LineShell.Proofs.Builtin.Performance

/-!
# Copying

A copy has the bytes, the permissions and the time of its source and takes an empty place:
`copy_keeps`. Whether a place is empty is asked through links, but a place that is taken can lead
nowhere. `copy_onto_entry`: copying respects what is at its target just if the target leads
somewhere, and else a new file appears where the links end.
-/

namespace LineShell

open Files (FileTree Name Node NodeId)

namespace World

-- ---------------------------------------------------------------------------
-- Places
-- ---------------------------------------------------------------------------

theorem gapAt_new {w : World} {dir : Files.Directory} (hcwd : w.cwd = FileTree.root)
    (hdir : w.files.directory? FileTree.root = some dir)
    (hlacks : dir.find? (bytesOf "new") = none) (hopens : w.files.Opens w.user FileTree.root)
    (hwritable : w.files.grants w.user .write FileTree.root) :
    w.GapAt "new" FileTree.root (bytesOf "new") where
  noNul := by decide
  names := by
    rw [hcwd]
    exact ⟨by decide, [], by decide, FileTree.walk_eq_ok.mpr (.done fun _ => by simp [hdir])⟩
  lacks := ⟨dir, hdir, hlacks⟩
  present := by
    rw [FileTree.namesOf?]
    rfl
  opens := hopens
  writable := hwritable
  short := by decide
  toFile := by decide

theorem leadsNowhere_of_nul {w : World} {path : String} (h : HoldsNul path) :
    w.leadsSomewhere path = false := by
  rw [← Bool.not_eq_true, leadsSomewhere_iff]
  rintro ⟨node, hnode⟩
  obtain ⟨id, hid, -⟩ := stat_eq_ok.mp hnode
  obtain ⟨bytes, hbytes, -⟩ := locate_eq_ok.mp hid
  exact (pathBytes_eq_ok.mp hbytes).1 h

def ownNames : Files.Directory := ⟨FileTree.root, [(bytesOf "file", 1)]⟩

/-- A user in a directory for everyone, with an old file that no one may write to. -/
def guarded : World := { fresh with
  user := .ordinary 1000
  files := ⟨#[
    ⟨.directory ownNames, 0o777, 0, dawn⟩,
    ⟨.file (bytesOf "text"), 0o444, 1000, { seconds := 0 }⟩]⟩ }

theorem stat_guarded : guarded.stat "file" =
    .ok ⟨.file (bytesOf "text"), 0o444, 1000, { seconds := 0 }⟩ := by
  have hfind : ownNames.find? (bytesOf "file") = some 1 := by decide
  have hentry := entryAt_of_find? (w := .guarded) rfl rfl (by decide) hfind rfl
  exact hentry.stat nofun

theorem gapAt_guarded : guarded.GapAt "new" FileTree.root (bytesOf "new") :=
  gapAt_new rfl rfl (by decide : ownNames.find? (bytesOf "new") = none) rfl rfl

end World

namespace Builtin

variable {s : Session} {source target : String} {node : Node} {bytes : Bytes} {parent : NodeId}
  {name : Name}

-- ---------------------------------------------------------------------------
-- The command
-- ---------------------------------------------------------------------------

theorem Reply.copy_eq (source target : String) (w : World) : Reply.copy ["copy", source, target] w =
    if !w.leadsSomewhere source then .say w ["From file does not exist"]
    else if w.leadsSomewhere target then .say w ["To file already exists"]
    else .after (w.duplicate source target) [] := rfl

theorem replies?_copy : replies? "copy" = some Reply.copy := rfl

section
variable (hsource : s.world.stat source = .ok node)
include hsource

theorem answers_taken (hsome : s.world.leadsSomewhere target = true) :
    Answers s ["copy", source, target] ["To file already exists"] (.ok true) s.world := by
  refine answers_say replies?_copy ?_
  rw [Reply.copy_eq, World.leadsSomewhere_iff.mpr ⟨node, hsource⟩, hsome]
  rfl

variable (hno : s.world.leadsSomewhere target = false)
include hno

theorem copy_attempted : Reply.copy ["copy", source, target] s.world =
    .after (s.world.duplicate source target) [] := by
  rw [Reply.copy_eq, World.leadsSomewhere_iff.mpr ⟨node, hsource⟩, hno]
  rfl

theorem answers_copied {w' : World} (hduplicate : s.world.duplicate source target = (.ok (), w')) :
    Answers s ["copy", source, target] [] (.ok true) w' := by
  refine answers_say replies?_copy ?_
  rw [copy_attempted hsource hno, hduplicate]
  rfl

theorem answers_uncopied {stop : Stop Failure} {w' : World}
    (hduplicate : s.world.duplicate source target = (.error stop, w')) :
    Answers s ["copy", source, target] [] (.error (stop.map (.builtin "copy"))) w' := by
  refine answers_halt replies?_copy ?_
  rw [copy_attempted hsource hno, hduplicate]
  rfl

theorem copy_silent : ∃ result w', Answers s ["copy", source, target] [] result w' := by
  rcases hduplicate : s.world.duplicate source target with ⟨stop | _, w'⟩
  · exact ⟨_, w', answers_uncopied hsource hno hduplicate⟩
  · exact ⟨_, w', answers_copied hsource hno hduplicate⟩

end

-- ---------------------------------------------------------------------------
-- An empty place
-- ---------------------------------------------------------------------------

/-- What copying does at a target where there is nothing. -/
structure CopyKeeps (s : Session) (source target : String) : Prop where
  /-- The mode of new files plays no part in it. -/
  copied : ∀ node bytes parent name, s.world.stat source = .ok node → node.content = .file bytes →
    s.world.user.may .read node.rights → s.world.MaySetTime source →
    s.world.GapAt target parent name →
    ∃ w', Answers s ["copy", source, target] [] (.ok true) w' ∧
      s.world.MakesCopy w' target (node.copied s.world.user) parent name ∧
      w'.EntryAt target (node.copied s.world.user) ∧ w'.stat source = .ok node
  missing : ∀ f, s.world.stat source = .error f →
    Answers s ["copy", source, target] ["From file does not exist"] (.ok true) s.world
  /-- Opening a fifo would wait. -/
  refused : ∀ node, s.world.stat source = .ok node → (∀ bytes, node.content ≠ .file bytes) →
    ¬ s.world.LeadsToFifo source → (∀ entry, ¬ s.world.EntryAt target entry) →
    ∃ f, Answers s ["copy", source, target] [] (.error (.refused (.builtin "copy" f))) s.world

theorem copy_keeps (s : Session) (source target : String) : CopyKeeps s source target where
  copied node bytes parent name hsource hfile hread htime hgap := by
    have hroom := hgap.roomFor
    obtain ⟨w', hduplicate, hcopy⟩ := World.duplicate_timed hsource hfile hread hroom htime
    exact ⟨w', answers_copied hsource hroom.leadsNowhere hduplicate, hcopy,
      hcopy.entryAt_gap hgap, hcopy.stat hsource hfile⟩
  missing f hsource := by
    have hno : s.world.leadsSomewhere source = false := by
      rw [World.leadsSomewhere, hsource]
      rfl
    refine answers_say replies?_copy ?_
    rw [Reply.copy_eq, hno]
    rfl
  refused node hsource hfile hfifo hnone := by
    have hno : s.world.leadsSomewhere target = false := by
      rw [← Bool.not_eq_true, World.leadsSomewhere_iff]
      rintro ⟨other, hother⟩
      obtain ⟨entry, hentry⟩ := World.entryAt_of_stat hother
      exact hnone entry hentry
    rcases World.duplicate_cases source hno with
      ⟨f | _, hduplicate⟩ | ⟨other, bytes, -, -, hother, hbytes, -⟩
    · exact ⟨f, answers_uncopied hsource hno hduplicate⟩
    · exact absurd ((World.duplicate_waits_iff hno).mp (by rw [hduplicate])) hfifo
    · obtain rfl := Except.ok.inj (hsource.symm.trans hother)
      exact absurd hbytes (hfile bytes)

/-- The group may not write to new files here, but it may write to the copy. -/
theorem copy_keeps_linked : ∃ w',
    Answers { world := .linked } ["copy", "near", "new"] [] (.ok true) w' ∧
      World.linked.MakesCopy w' "new" ⟨.file (bytesOf "text"), 0o666, 0, World.dawn⟩ 0
        (bytesOf "new") := by
  have hgap := World.gapAt_new (w := .linked) rfl rfl (by decide) rfl rfl
  have htime : World.linked.MaySetTime "near" := fun _ _ => rfl
  obtain ⟨w', hanswers, hcopy, -⟩ :=
    (copy_keeps { world := .linked } "near" "new").copied _ _ _ _ World.stat_near rfl rfl htime hgap
  exact ⟨w', hanswers, hcopy⟩

/-- A path with a NUL can be copied to by nobody, and a user who may not write to the copy cannot
give it its time. -/
theorem copy_denied :
    ((∃ node, World.linked.stat "file" = .ok node ∧ node.isFile) ∧
      (∀ entry, ¬ World.linked.EntryAt "a\x00b" entry) ∧
      Answers { world := .linked } ["copy", "file", "a\x00b"] []
        (.error (.refused (.builtin "copy" .nulInName))) .linked) ∧
    ∃ w', World.guarded.GapAt "new" FileTree.root (bytesOf "new") ∧
      Answers { world := .guarded } ["copy", "file", "new"] []
        (.error (.refused (.builtin "copy" (.system .denied)))) w' ∧
      World.guarded.MakesCopy w' "new" ⟨.file (bytesOf "text"), 0o444, 1000, World.dawn⟩
        FileTree.root (bytesOf "new") := by
  have hnul : HoldsNul "a\x00b" := by decide
  refine ⟨⟨⟨_, World.stat_file, rfl⟩, ?_, ?_⟩, ?_⟩
  · rintro entry ⟨bytes, id, hbytes, -⟩
    exact (World.pathBytes_eq_ok.mp hbytes).1 hnul
  · have hduplicate := World.duplicate_nul World.stat_file rfl rfl hnul
    exact answers_uncopied (s := { world := .linked }) World.stat_file
      (World.leadsNowhere_of_nul hnul) hduplicate
  · have hmay : ¬ World.guarded.MaySetTime "file" :=
      fun h => absurd (h _ World.stat_guarded) (by decide)
    obtain ⟨w', hduplicate, hcopy⟩ :=
      World.duplicate_untimed World.stat_guarded rfl rfl World.gapAt_guarded.roomFor hmay
    have hno := World.gapAt_guarded.roomFor.leadsNowhere
    exact ⟨w', World.gapAt_guarded,
      answers_uncopied (s := { world := .guarded }) World.stat_guarded hno hduplicate, hcopy⟩

-- ---------------------------------------------------------------------------
-- A place that is taken
-- ---------------------------------------------------------------------------

/-- What copying does at a target where there is something. -/
structure CopyOnto (s : Session) (source target : String) (node entry : Node) : Prop where
  respected : Answers s ["copy", source, target] ["To file already exists"] (.ok true) s.world ↔
    s.world.leadsSomewhere target = true
  link : s.world.leadsSomewhere target = false → ∃ far, entry.content = .link far
  /-- The copy is made at the far end of the link. -/
  through : ∀ parent name, s.world.RoomFor target parent name →
    s.world.user.may .read node.rights → s.world.MaySetTime source →
    ∃ w', Answers s ["copy", source, target] [] (.ok true) w' ∧
      s.world.MakesCopy w' target (node.copied s.world.user) parent name ∧ w'.EntryAt target entry
  /-- The copy is made there even for a user who cannot give it its time. -/
  untimed : ∀ parent name, s.world.RoomFor target parent name →
    s.world.user.may .read node.rights → ¬ s.world.MaySetTime source →
    ∃ w', Answers s ["copy", source, target] []
        (.error (.refused (.builtin "copy" (.system .denied)))) w' ∧
      s.world.MakesCopy w' target { node.copied s.world.user with modified := s.world.now } parent
        name ∧ w'.EntryAt target entry
  stuck : s.world.leadsSomewhere target = false →
    (s.world.user.may .read node.rights → ∀ parent name, ¬ s.world.RoomFor target parent name) →
      ∃ result, Answers s ["copy", source, target] [] result s.world

theorem copy_onto_entry {s : Session} {source target : String} {node entry : Node} {bytes : Bytes}
    (hn : s.out.NeverFails) (hsource : s.world.stat source = .ok node)
    (hfile : node.content = .file bytes) (hentry : s.world.EntryAt target entry) :
    CopyOnto s source target node entry where
  respected := by
    refine ⟨fun hrespected => Bool.of_not_eq_false fun hno => ?_, answers_taken hsource⟩
    obtain ⟨result, w', hsilent⟩ := copy_silent hsource hno
    have hlines := hrespected.same_lines hsilent hn
    revert hlines
    decide +kernel
  link := hentry.link_of_nowhere
  through parent name hroom hread htime := by
    have hno := hroom.leadsNowhere
    obtain ⟨w', hduplicate, hcopy⟩ := World.duplicate_timed hsource hfile hread hroom htime
    obtain ⟨far, hfar⟩ := hentry.link_of_nowhere hno
    exact ⟨w', answers_copied hsource hno hduplicate, hcopy, hcopy.entryAt hentry hfar⟩
  untimed parent name hroom hread htime := by
    have hno := hroom.leadsNowhere
    obtain ⟨w', hduplicate, hcopy⟩ := World.duplicate_untimed hsource hfile hread hroom htime
    obtain ⟨far, hfar⟩ := hentry.link_of_nowhere hno
    exact ⟨w', answers_uncopied hsource hno hduplicate, hcopy, hcopy.entryAt hentry hfar⟩
  stuck hno hstuck := by
    rcases World.duplicate_cases source hno with
      ⟨stop, hduplicate⟩ | ⟨other, -, parent, name, hother, -, hread, hroom⟩
    · exact ⟨_, answers_uncopied hsource hno hduplicate⟩
    · obtain rfl := Except.ok.inj (hsource.symm.trans hother)
      exact absurd hroom (hstuck hread parent name)

/-- A file appears where the link ends. -/
theorem copy_onto_entry_linked :
    ∃ w', Answers { world := .linked } ["copy", "file", "far"] [] (.ok true) w' ∧
      World.linked.MakesCopy w' "far" ⟨.file (bytesOf "text"), 0o666, 0, World.dawn⟩
        FileTree.root (bytesOf "gone") := by
  have hn := Sink.neverFails_empty
  have honto := copy_onto_entry (s := { world := .linked }) hn World.stat_file rfl World.entryAt_far
  have htime : World.linked.MaySetTime "file" := fun _ _ => rfl
  obtain ⟨w', hanswers, hcopy, -⟩ := honto.through _ _ World.roomFor_far rfl htime
  exact ⟨w', hanswers, hcopy⟩

/-- What is at the target is not respected if it is a link that leads nowhere. -/
theorem copy_through_link : ∃ entry, World.linked.EntryAt "far" entry ∧
    ¬ Answers { world := .linked } ["copy", "file", "far"] ["To file already exists"] (.ok true)
      .linked := by
  refine ⟨_, World.entryAt_far, fun hrespected => ?_⟩
  obtain ⟨result, w', hsilent⟩ :=
    copy_silent (s := { world := .linked }) World.stat_file World.roomFor_far.leadsNowhere
  have hlines := hrespected.same_lines hsilent Sink.neverFails_empty
  revert hlines
  decide +kernel

end Builtin

end LineShell
