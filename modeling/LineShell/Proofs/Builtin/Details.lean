import LineShell.Proofs.Builtin.Performance
import LineShell.Proofs.Dispatch.Target
import LineShell.Proofs.Files.Astray
import LineShell.Proofs.Programs.Launches
import LineShell.Proofs.Text.Digits

/-!
# What the details say

There are three reports about a path, and which one is told depends on where the path leads. A
reader can tell them apart by the text alone, whatever the names in it: `info_tellsTruth`. The
report calls a file executable exactly if a launch would not refuse it.
-/

namespace LineShell.Builtin

-- ---------------------------------------------------------------------------
-- Reports
-- ---------------------------------------------------------------------------

def fileLines (path : String) (size : Nat) (executable : Bool) (owner time : String) :
    List String :=
  ["File Name: " ++ path, "Directory/File: file", "Size: " ++ toString size,
    "Executable?: " ++ if executable then "True" else "False", "Owner: " ++ owner,
    "Last Edited: " ++ time]

def otherLines (owner time : String) : List String :=
  ["Directory/File: directory", "Owner: " ++ owner, "Last Edited: " ++ time]

def lostLines (path : String) (f : Failure) : List String :=
  ["Directory/File: directory", "Cannot stat " ++ path ++ ": " ++ f.message]

/-- What the owner with a number is called: by the first name there is for the number, or else by
the number itself. -/
inductive Owner (users : List (Nat × String)) (uid : Nat) : String → Prop
  | named {before after : List (Nat × String)} {name : String} :
      users = before ++ (uid, name) :: after → (∀ user ∈ before, user.1 ≠ uid) →
      Owner users uid name
  | nameless : (∀ user ∈ users, user.1 ≠ uid) → Owner users uid (toString uid)

/-- How a time is shown: as the library's text for the date, or else as the count of seconds. -/
inductive Dated (clock : Time.Clock) (seconds : Int) : String → Prop
  | date {civil : Time.Civil} {text : String} : clock.localTime seconds = some civil →
      clock.format 64 civil ≠ [] → Utf8.Shows (clock.format 64 civil) text.toList →
      Dated clock seconds text
  | noRoom {civil : Time.Civil} : clock.localTime seconds = some civil →
      clock.format 64 civil = [] → Dated clock seconds (toString seconds)
  | dateless : clock.localTime seconds = none → Dated clock seconds (toString seconds)

/-- What there is to tell about a path. -/
inductive Report (w : World) (path : String) : List String → Prop
  | file {node : Files.Node} {bytes : Bytes} {owner time : String} :
      w.Reaches path node → node.content = .file bytes → Owner w.users node.owner owner →
      Dated w.clock node.modified.seconds time →
      Report w path (fileLines path bytes.length (w.user.may .execute node.rights) owner time)
  | other {node : Files.Node} {owner time : String} :
      w.Reaches path node → (∀ bytes, node.content ≠ .file bytes) →
      Owner w.users node.owner owner → Dated w.clock node.modified.seconds time →
      Report w path (otherLines owner time)
  | lost {f : Failure} : w.Astray path f → Report w path (lostLines path f)

section
variable {w : World} {uid : Nat} {name : String}

theorem Owner.ownerName (h : Owner w.users uid name) : w.ownerName uid = name := by
  unfold World.ownerName
  cases h with
  | named husers hbefore =>
    have hfind : w.users.find? (·.1 = uid) = some (uid, name) :=
      List.find?_eq_some_iff_append.mpr
        ⟨by simp, _, _, husers, fun user huser => by simpa using hbefore user huser⟩
    rw [hfind]
    rfl
  | nameless hnone =>
    have hfind : w.users.find? (·.1 = uid) = none := by simpa using hnone
    rw [hfind]
    rfl

theorem owner_ownerName (w : World) (uid : Nat) : Owner w.users uid (w.ownerName uid) := by
  unfold World.ownerName
  cases hfind : w.users.find? (·.1 = uid) with
  | none => exact .nameless (by simpa using hfind)
  | some user =>
    obtain ⟨huid, before, after, husers, hbefore⟩ := List.find?_eq_some_iff_append.mp hfind
    obtain ⟨number, name⟩ := user
    obtain rfl : number = uid := by simpa using huid
    exact .named husers fun user huser => by simpa using hbefore user huser

end

section
variable {clock : Time.Clock} {seconds : Int} {text : String}

theorem Dated.localText (h : Dated clock seconds text) : clock.localText seconds = text := by
  unfold Time.Clock.localText Time.Clock.textRoom
  cases h with
  | date hdate hroom hshows =>
    simp only [hdate, if_neg hroom]
    exact shown_of_shows hshows
  | noRoom hdate hroom => simp only [hdate, if_pos hroom]
  | dateless hdate => simp only [hdate]

theorem dated_localText (clock : Time.Clock) (seconds : Int) :
    Dated clock seconds (clock.localText seconds) := by
  unfold Time.Clock.localText Time.Clock.textRoom
  cases hdate : clock.localTime seconds with
  | none => exact .dateless hdate
  | some civil =>
    by_cases hroom : clock.format 64 civil = []
    · simp only [if_pos hroom]
      exact .noRoom hdate hroom
    · simp only [if_neg hroom]
      exact .date hdate hroom (shows_shown _)

end

section
variable {w : World} {path : String} {lines : List String}

theorem exists_report (w : World) (path : String) : ∃ lines, Report w path lines := by
  rcases w.reaches_or_astray path with ⟨node, hreaches⟩ | ⟨f, hastray⟩
  · have howner := owner_ownerName w node.owner
    have hdated := dated_localText w.clock node.modified.seconds
    by_cases hfile : ∃ bytes, node.content = .file bytes
    · obtain ⟨bytes, hfile⟩ := hfile
      exact ⟨_, .file hreaches hfile howner hdated⟩
    · exact ⟨_, .other hreaches (not_exists.mp hfile) howner hdated⟩
  · exact ⟨_, .lost hastray⟩

theorem isExecutable_of_file {node : Files.Node} {bytes : Bytes} (h : w.stat path = .ok node)
    (hfile : node.content = .file bytes) :
    w.isExecutable path = w.user.may .execute node.rights := by
  simp [World.isExecutable, World.leadsTo, h, Except.toOption, World.mayRun,
    Files.Node.isFile_iff.mpr ⟨bytes, hfile⟩]

theorem Reply.info_eq (w : World) (path : String) : Reply.info ["info", path] w =
    { world := w
      remarks := (kindLines w path (w.stat path)).map .line ++
        Reply.detailRemarks w path (w.stat path) } := rfl

theorem Report.reply (h : Report w path lines) : ∃ remarks,
    Reply.info ["info", path] w = { world := w, remarks } ∧ spoken remarks = inLines lines := by
  rw [Reply.info_eq]
  cases h with
  | file hreaches hfile howner hdated =>
    have hstat := World.stat_reaches.mpr hreaches
    have hisFile := Files.Node.isFile_iff.mpr ⟨_, hfile⟩
    refine ⟨_, rfl, ?_⟩
    rw [hstat, ← howner.ownerName, ← hdated.localText]
    simp [kindLines, Reply.detailRemarks, fileLines, hisFile, Files.Node.size, Files.Node.bytes?,
      hfile, isExecutable_of_file hstat hfile, spoken, inLines, yesNo]
    rfl
  | other hreaches hfile howner hdated =>
    have hisFile := mt Files.Node.isFile_iff.mp (not_exists.mpr hfile)
    refine ⟨_, rfl, ?_⟩
    rw [World.stat_reaches.mpr hreaches, ← howner.ownerName, ← hdated.localText]
    simp [kindLines, Reply.detailRemarks, otherLines, hisFile, spoken, inLines]
  | lost hastray =>
    rw [hastray.stat]
    refine ⟨_, rfl, ?_⟩
    simp [kindLines, Reply.detailRemarks, spoken, inLines, lostLines]

theorem Report.unique {lines' : List String} (h : Report w path lines)
    (h' : Report w path lines') : lines = lines' := by
  cases h with
  | file hreaches hfile howner hdated =>
    cases h' with
    | file hreaches' hfile' howner' hdated' =>
      obtain rfl := hreaches.unique hreaches'
      obtain rfl := Files.Content.file.inj (hfile.symm.trans hfile')
      rw [← howner.ownerName, ← hdated.localText, ← howner'.ownerName, ← hdated'.localText]
    | other hreaches' hno _ _ => exact absurd (hreaches.unique hreaches' ▸ hfile) (hno _)
    | lost hastray => exact absurd hastray hreaches.not_astray
  | other hreaches hno howner hdated =>
    cases h' with
    | file hreaches' hfile _ _ => exact absurd (hreaches'.unique hreaches ▸ hfile) (hno _)
    | other hreaches' _ howner' hdated' =>
      obtain rfl := hreaches.unique hreaches'
      rw [← howner.ownerName, ← hdated.localText, ← howner'.ownerName, ← hdated'.localText]
    | lost hastray => exact absurd hastray hreaches.not_astray
  | lost hastray =>
    cases h' with
    | file hreaches _ _ _ | other hreaches _ _ _ => exact absurd hastray hreaches.not_astray
    | lost hastray' => rw [hastray.unique hastray']

end

-- ---------------------------------------------------------------------------
-- Texts
-- ---------------------------------------------------------------------------

def closed (lines : List String) : List Char := lines.flatMap fun line => line.toList ++ ['\n']

theorem closed_of_inLines {lines lines' : List String} (h : inLines lines = inLines lines') :
    closed lines = closed lines' := by
  have hencode (lines : List String) : inLines lines = Utf8.encode (closed lines) := by
    simp [inLines, closed, bytesOf, Utf8.encode, List.flatMap_assoc]
  exact Utf8.encode_injective (by rw [← hencode, ← hencode, h])

/-- A number ends with its line. -/
theorem rest_of_number {m n : Nat} {rest rest' : List Char}
    (h : Nat.toDigits 10 m ++ '\n' :: rest = Nat.toDigits 10 n ++ '\n' :: rest') :
    rest = rest' := (Text.toDigits_append_inj rfl h).2

variable {path owner time owner' time' : String} {size size' : Nat} {executable executable' : Bool}
  {f f' : Failure}

theorem fileLines_ne_otherLines :
    inLines (fileLines path size executable owner time) ≠ inLines (otherLines owner' time') := by
  intro h
  simpa [closed, fileLines, otherLines] using closed_of_inLines h

theorem fileLines_ne_lostLines :
    inLines (fileLines path size executable owner time) ≠ inLines (lostLines path f) := by
  intro h
  simpa [closed, fileLines, lostLines] using closed_of_inLines h

theorem otherLines_ne_lostLines :
    inLines (otherLines owner time) ≠ inLines (lostLines path f) := by
  intro h
  simpa [closed, otherLines, lostLines] using closed_of_inLines h

theorem executable_of_fileLines
    (h : inLines (fileLines path size executable owner time) =
      inLines (fileLines path size' executable' owner' time')) : executable = executable' := by
  have hrest := rest_of_number (by simpa [closed, fileLines] using closed_of_inLines h)
  cases executable <;> cases executable' <;> simp at hrest ⊢

-- ---------------------------------------------------------------------------
-- The command
-- ---------------------------------------------------------------------------

/-- The command ends well, writes these lines and changes nothing. -/
def Prints (s : Session) (path : String) (lines : List String) : Prop :=
  Answers s ["info", path] lines (.ok true) s.world

def SaysExecutable (s : Session) (path : String) : Prop :=
  ∃ size owner time, Prints s path (fileLines path size true owner time)

/-- What is told is true, and what launching and resolving do agrees with it. -/
structure TellsTruth (s : Session) : Prop where
  told : ∀ path, ∃ lines, (∀ other, Report s.world path other ↔ other = lines) ∧ Prints s path lines
  file_iff : ∀ path,
    (∃ size executable owner time, Prints s path (fileLines path size executable owner time)) ↔
      ∃ node bytes, s.world.Reaches path node ∧ node.content = .file bytes
  other_iff : ∀ path, (∃ owner time, Prints s path (otherLines owner time)) ↔
    ∃ node, s.world.Reaches path node ∧ ∀ bytes, node.content ≠ .file bytes
  lost_iff : ∀ path, (∃ f, Prints s path (lostLines path f)) ↔ ∃ f, s.world.Astray path f
  launched_iff : ∀ host path argv, SaysExecutable s path ↔
    ∀ p, ((Programs.launch host path argv).perform s).1 ≠ .error (.notExecutable p)
  resolved_iff : ∀ (search : SearchPath) name target, ¬ SearchPath.IsPath name →
    (search.resolve? s.world name = some target ↔ ∃ before dir after,
      search.dirs = before ++ dir :: after ∧
        (∀ other ∈ before, ¬ SaysExecutable s (other ++ name)) ∧
        SaysExecutable s (dir ++ name) ∧ dir ++ name = target)

section
variable {s : Session} {lines : List String}

theorem Report.prints (h : Report s.world path lines) : Prints s path lines := by
  obtain ⟨remarks, hreply, hspoken⟩ := h.reply
  exact answers_of_reply rfl hreply hspoken

/-- What is printed has the text of the report. -/
theorem Prints.same_text (h : Prints s path lines) (hn : s.out.NeverFails) :
    ∃ report, Report s.world path report ∧ inLines report = inLines lines := by
  obtain ⟨report, hreport⟩ := exists_report s.world path
  exact ⟨report, hreport, hreport.prints.same_lines h hn⟩

theorem saysExecutable_iff (hn : s.out.NeverFails) :
    SaysExecutable s path ↔ s.world.isExecutable path := by
  constructor
  · rintro ⟨size, owner, time, hprints⟩
    obtain ⟨report, hreport, htext⟩ := hprints.same_text hn
    cases hreport with
    | file hreaches hfile _ _ =>
      rw [isExecutable_of_file (World.stat_reaches.mpr hreaches) hfile]
      exact executable_of_fileLines htext
    | other _ _ _ _ => exact absurd htext.symm fileLines_ne_otherLines
    | lost _ => exact absurd htext.symm fileLines_ne_lostLines
  · intro hx
    obtain ⟨node, bytes, hstat, hfile, -⟩ := Programs.isExecutable_iff.mp hx
    have hreport := Report.file (World.stat_reaches.mp hstat) hfile (owner_ownerName _ _)
      (dated_localText _ _)
    rw [← isExecutable_of_file hstat hfile, hx] at hreport
    exact ⟨_, _, _, hreport.prints⟩

theorem info_tellsTruth (hn : s.out.NeverFails) : TellsTruth s where
  told path := by
    obtain ⟨lines, hreport⟩ := exists_report s.world path
    refine ⟨lines, fun other => ⟨fun h => h.unique hreport, ?_⟩, hreport.prints⟩
    rintro rfl
    exact hreport
  file_iff path := by
    constructor
    · rintro ⟨size, executable, owner, time, hprints⟩
      obtain ⟨report, hreport, htext⟩ := hprints.same_text hn
      cases hreport with
      | file hreaches hfile => exact ⟨_, _, hreaches, hfile⟩
      | other _ _ _ _ => exact absurd htext.symm fileLines_ne_otherLines
      | lost _ => exact absurd htext.symm fileLines_ne_lostLines
    · rintro ⟨node, bytes, hreaches, hfile⟩
      have hreport := Report.file hreaches hfile (owner_ownerName _ _) (dated_localText _ _)
      exact ⟨_, _, _, _, hreport.prints⟩
  other_iff path := by
    constructor
    · rintro ⟨owner, time, hprints⟩
      obtain ⟨report, hreport, htext⟩ := hprints.same_text hn
      cases hreport with
      | file _ _ _ _ => exact absurd htext fileLines_ne_otherLines
      | other hreaches hno _ _ => exact ⟨_, hreaches, hno⟩
      | lost _ => exact absurd htext.symm otherLines_ne_lostLines
    · rintro ⟨node, hreaches, hno⟩
      have hreport := Report.other hreaches hno (owner_ownerName _ _) (dated_localText _ _)
      exact ⟨_, _, hreport.prints⟩
  lost_iff path := by
    constructor
    · rintro ⟨f, hprints⟩
      obtain ⟨report, hreport, htext⟩ := hprints.same_text hn
      cases hreport with
      | file _ _ _ _ => exact absurd htext fileLines_ne_lostLines
      | other _ _ _ _ => exact absurd htext otherLines_ne_lostLines
      | lost hastray => exact ⟨_, hastray⟩
    · rintro ⟨f, hastray⟩
      exact ⟨f, (Report.lost hastray).prints⟩
  launched_iff host path argv := by
    simp [saysExecutable_iff hn, Programs.isExecutable_iff, Programs.launch_notExecutable_iff]
  resolved_iff search name target hname := by
    rw [SearchPath.resolve?_of_not_isPath hname, SearchPath.find?_candidates_iff]
    simp only [saysExecutable_iff hn]

end

/-- A link is told about as the file it leads to. -/
theorem info_near : Sink.NeverFails {} ∧ World.linked.Reaches "near" ⟨.file (bytesOf "text"), 0o666,
      0, World.dawn⟩ ∧
    Prints { world := .linked } "near" ["File Name: near", "Directory/File: file", "Size: 4",
      "Executable?: False", "Owner: root", "Last Edited: Nov 14 2023 22:13:20"] := by
  have hn := Sink.neverFails_empty
  have hreaches := World.stat_reaches.mp World.stat_near
  obtain ⟨lines, hlines, hprints⟩ := (info_tellsTruth (s := { world := .linked }) hn).told "near"
  have hname : Owner World.linked.users 0 "root" := .named (List.nil_append _).symm nofun
  have htime : World.linked.clock.localText World.dawn.seconds = "Nov 14 2023 22:13:20" := by
    decide +kernel
  have hdated := htime ▸ dated_localText World.linked.clock World.dawn.seconds
  obtain rfl := (hlines _).mp (.file hreaches rfl hname hdated)
  exact ⟨hn, hreaches, hprints⟩

end LineShell.Builtin
