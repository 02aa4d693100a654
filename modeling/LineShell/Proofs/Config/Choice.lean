import LineShell.Application
import LineShell.Proofs.Config.Grammar
import LineShell.Proofs.Files.Entries
import LineShell.Proofs.Text.Utf8

/-!
# The configuration of a session

A session gets its configuration from the file that its options name, or else from the file in the
user's home directory, or else has the default one. `configuration_iff`: what becomes of each. A
fifo that the user may read is opened, and never answers.
-/

namespace LineShell

open Files (Node NodeId)

-- ---------------------------------------------------------------------------
-- Files as texts
-- ---------------------------------------------------------------------------

namespace World

variable {w : World} {path : Bytes} {node : Node} {result : Except (Stop Failure) String}

/-- The path leads, through every link, to this node. -/
def Finds (w : World) (path : Bytes) (id : NodeId) : Prop :=
  0 ∉ path ∧ w.files.lookup w.user w.cwd path = .ok id

/-- The path leads, through every link, to a regular file. -/
def HoldsFile (w : World) (path bytes : Bytes) : Prop :=
  ∃ id node, w.Finds path id ∧ w.files.node? id = some node ∧ node.content = .file bytes

/-- The path leads, through every link, to a node that the user may read. -/
def Opens (w : World) (path : Bytes) (node : Node) : Prop :=
  ∃ id, w.Finds path id ∧ w.files.node? id = some node ∧ w.user.may .read node.rights

/-- What comes of reading all that is at a path as text. -/
inductive Reads (w : World) (path : Bytes) : Except (Stop Failure) String → Prop
  | nul : 0 ∈ path → w.Reads path (.error (.refused .nulInName))
  | nowhere {e : Errno} : 0 ∉ path → w.files.lookup w.user w.cwd path = .error e →
      w.Reads path (.error (.refused (.system e)))
  | denied {id : NodeId} : w.Finds path id → ¬ w.files.grants w.user .read id →
      w.Reads path (.error (.refused (.system .denied)))
  | fifo {node : Node} : w.Opens path node → node.content = .fifo → w.Reads path (.error .waits)
  | directory {node : Node} {dir : Files.Directory} : w.Opens path node →
      node.content = .directory dir → w.Reads path (.error (.refused (.system .isDirectory)))
  | text {node : Node} {text : String} : w.Opens path node → node.content = .file (bytesOf text) →
      w.Reads path (.ok text)
  | noText {node : Node} {bytes : Bytes} : w.Opens path node → node.content = .file bytes →
      (∀ text, bytesOf text ≠ bytes) → w.Reads path (.error (.refused .notUtf8))
  /-- A device gives nothing. -/
  | nothing {node : Node} : w.Opens path node → node.content ≠ .fifo →
      (∀ dir, node.content ≠ .directory dir) → (∀ bytes, node.content ≠ .file bytes) →
      w.Reads path (.ok "")

theorem isFile_iff : w.isFile path ↔ ∃ bytes, w.HoldsFile path bytes := by
  unfold isFile follow? HoldsFile Finds
  cases hlookup : w.files.lookup w.user w.cwd path with
  | error e => simp [Except.toOption]
  | ok id =>
    cases hnode : w.files.node? id with
    | none => simp [Except.toOption, hnode]
    | some node =>
      cases hcontent : node.content with
      | file bytes =>
        simp only [Except.toOption, Option.bind_some, hnode, Option.any_some, Files.Node.isFile,
          hcontent, Bool.and_true, Bool.not_eq_true', List.contains_eq_mem, decide_eq_false_iff_not]
        constructor
        · intro hnul
          exact ⟨bytes, id, node, ⟨hnul, rfl⟩, hnode, hcontent⟩
        · rintro ⟨_, _, _, ⟨hnul, -⟩, -⟩
          exact hnul
      | _ => simp [Except.toOption, hnode, Files.Node.isFile, hcontent]

/-- The text of some bytes, if they are the bytes of one. -/
def textOf (bytes : Bytes) : Except (Stop Failure) String :=
  (Utf8.decode? bytes).elim (.error (.refused .notUtf8)) fun cs => .ok (String.ofList cs)

theorem textOf_bytesOf (text : String) : textOf (bytesOf text) = .ok text := by
  rw [textOf, bytesOf, Utf8.decode?_encode, Option.elim_some, String.ofList_toList]

theorem textOf_noText {bytes : Bytes} (h : ∀ text, bytesOf text ≠ bytes) :
    textOf bytes = .error (.refused .notUtf8) := by
  have hdecode : Utf8.decode? bytes = none := by
    rw [Option.eq_none_iff_forall_ne_some]
    intro cs hcs
    refine h (String.ofList cs) ?_
    rw [bytesOf, String.toList_ofList]
    exact Utf8.decode?_eq_some_iff.mp hcs
  rw [textOf, hdecode]
  rfl

theorem Opens.readText (h : w.Opens path node) :
    w.readText path = match node.content with
      | .fifo => .error .waits
      | .directory _ => .error (.refused (.system .isDirectory))
      | .file bytes => textOf bytes
      | _ => .ok "" := by
  obtain ⟨id, ⟨hnul, hlookup⟩, hnode, hmay⟩ := h
  have hgrants : w.files.grants w.user .read id := Files.FileTree.grants_iff.mpr ⟨node, hnode, hmay⟩
  obtain ⟨content, mode, owner, modified⟩ := node
  rw [World.readText, if_neg hnul, Files.FileTree.openForReading, hlookup]
  cases content with
  | file bytes =>
    cases hdecode : Utf8.decode? bytes <;>
      simp [hgrants, hnode, Files.Node.isFifo, Files.FileTree.directory?, Files.FileTree.file?,
        textOf, hdecode]
  | fifo => simp [hgrants, hnode, Files.Node.isFifo, Stop.map]
  | _ =>
    simp [hgrants, hnode, Files.Node.isFifo, Files.FileTree.directory?, Files.FileTree.file?,
      Utf8.decode?, Utf8.parts]

theorem readText_of_reads (h : w.Reads path result) : w.readText path = result := by
  cases h with
  | nul hnul => rw [readText, if_pos hnul]
  | nowhere hnul hlookup =>
    rw [readText, if_neg hnul, Files.FileTree.openForReading, hlookup]
    rfl
  | denied hfinds hread =>
    rw [readText, if_neg hfinds.1, Files.FileTree.openForReading, hfinds.2]
    simp [hread, Stop.map]
  | fifo hopens hcontent => rw [hopens.readText, hcontent]
  | directory hopens hcontent => rw [hopens.readText, hcontent]
  | text hopens hcontent =>
    rw [hopens.readText, hcontent]
    exact textOf_bytesOf _
  | noText hopens hcontent hno =>
    rw [hopens.readText, hcontent]
    exact textOf_noText hno
  | @nothing node hopens hfifo hdir hfile =>
    rw [hopens.readText]
    cases hcontent : node.content with
    | fifo => exact absurd hcontent hfifo
    | directory dir => exact absurd hcontent (hdir dir)
    | file bytes => exact absurd hcontent (hfile bytes)
    | _ => rfl

theorem Opens.exists_reads (h : w.Opens path node) : ∃ result, w.Reads path result := by
  cases hcontent : node.content with
  | fifo => exact ⟨_, .fifo h hcontent⟩
  | directory dir => exact ⟨_, .directory h hcontent⟩
  | file bytes =>
    by_cases htext : ∃ text, bytesOf text = bytes
    · obtain ⟨text, rfl⟩ := htext
      exact ⟨_, .text h hcontent⟩
    · exact ⟨_, .noText h hcontent fun text ht => htext ⟨text, ht⟩⟩
  | _ => exact ⟨_, .nothing h (by simp [hcontent]) (by simp [hcontent]) (by simp [hcontent])⟩

theorem exists_reads (w : World) (path : Bytes) : ∃ result, w.Reads path result := by
  by_cases hnul : 0 ∈ path
  · exact ⟨_, .nul hnul⟩
  · cases hlookup : w.files.lookup w.user w.cwd path with
    | error e => exact ⟨_, .nowhere hnul hlookup⟩
    | ok id =>
      have hfinds : w.Finds path id := ⟨hnul, hlookup⟩
      by_cases hread : w.files.grants w.user .read id
      · obtain ⟨node, hnode, hmay⟩ := Files.FileTree.grants_iff.mp hread
        exact Opens.exists_reads ⟨id, hfinds, hnode, hmay⟩
      · exact ⟨_, .denied hfinds hread⟩

theorem readText_iff : w.readText path = result ↔ w.Reads path result := by
  constructor
  · rintro rfl
    obtain ⟨result, h⟩ := exists_reads w path
    rwa [readText_of_reads h]
  · exact readText_of_reads

end World

-- ---------------------------------------------------------------------------
-- Files as configurations
-- ---------------------------------------------------------------------------

namespace Config

variable {w : World} {path : Bytes} {named : Option Bytes} {result : Except (Stop Error) Config}

theorem load_iff {text : String} {result : Except Error Config} :
    load text = result ↔ Loads text result := by
  constructor
  · rintro rfl
    obtain ⟨result, h⟩ := exists_loads text
    rwa [load_of_loads h]
  · exact load_of_loads

/-- What a file comes to as a configuration. -/
inductive Gives (w : World) (path : Bytes) : Except (Stop Error) Config → Prop
  | unreadable {f : Failure} : w.Reads path (.error (.refused f)) →
      Gives w path (.error (.refused (.unreadable f)))
  | waits : w.Reads path (.error .waits) → Gives w path (.error .waits)
  | malformed {text : String} {e : Error} : w.Reads path (.ok text) → Loads text (.error e) →
      Gives w path (.error (.refused e))
  | loaded {text : String} {config : Config} : w.Reads path (.ok text) → Loads text (.ok config) →
      Gives w path (.ok config)

theorem ofFile_of_gives (h : Gives w path result) : ofFile w path = result := by
  unfold ofFile
  cases h with
  | unreadable hread | waits hread =>
    rw [World.readText_iff.mpr hread]
    rfl
  | malformed hread hload | loaded hread hload =>
    simp only [World.readText_iff.mpr hread, load_iff.mpr hload]
    rfl

theorem exists_gives (w : World) (path : Bytes) : ∃ result, Gives w path result := by
  obtain ⟨read, hread⟩ := World.exists_reads w path
  cases read with
  | error stop =>
    cases stop with
    | refused f => exact ⟨_, .unreadable hread⟩
    | waits => exact ⟨_, .waits hread⟩
  | ok text =>
    obtain ⟨result, hload⟩ := exists_loads text
    cases result with
    | error e => exact ⟨_, .malformed hread hload⟩
    | ok config => exact ⟨_, .loaded hread hload⟩

-- ---------------------------------------------------------------------------
-- The choice
-- ---------------------------------------------------------------------------

def homeFile (home : Bytes) : Bytes :=
  if home = [] ∨ home.getLast? = some Files.slash then home ++ bytesOf ".pshellrc"
  else home ++ bytesOf "/.pshellrc"

/-- The file that a session is configured from, unless its configuration is the default one. -/
inductive Chooses (w : World) (named : Option Bytes) : Option Bytes → Prop
  | named {path : Bytes} : named = some path → Chooses w named (some path)
  | home {home bytes : Bytes} : named = none → w.valueOf? "HOME" = some home →
      w.HoldsFile (homeFile home) bytes → Chooses w named (some (homeFile home))
  | default : named = none →
      (∀ home bytes, w.valueOf? "HOME" = some home → ¬ w.HoldsFile (homeFile home) bytes) →
      Chooses w named none

inductive Configures (w : World) (named : Option Bytes) : Except (Stop Error) Config → Prop
  | file {path : Bytes} {result : Except (Stop Error) Config} : Chooses w named (some path) →
      Gives w path result → Configures w named result
  | default : Chooses w named none → Configures w named
      (.ok ⟨"PShell>", ⟨["/bin/", "/usr/bin/", "/usr/local/bin/", "./"], by decide⟩⟩)

theorem location?_eq (home : Option Bytes) : location? home = home.map homeFile := by
  have hjoin (dir : Bytes) : Files.Path.join dir fileName = homeFile dir := by
    by_cases hempty : dir = []
    · subst hempty
      rfl
    · by_cases hslash : dir.getLast? = some Files.slash
      · rw [homeFile, if_pos (.inr hslash)]
        simp only [Files.Path.join, hempty, hslash]
        rfl
      · rw [homeFile, if_neg (by simp [hempty, hslash])]
        simp only [Files.Path.join, hempty, hslash]
        rfl
  rw [location?, funext hjoin]

theorem Chooses.unique {choice choice' : Option Bytes} (h : Chooses w named choice)
    (h' : Chooses w named choice') : choice = choice' := by
  cases h with
  | named hnamed =>
    cases h' with
    | named hnamed' => rw [← hnamed, hnamed']
    | home hnone | default hnone => simp [hnamed] at hnone
  | @home home bytes hnone hhome hfile =>
    cases h' with
    | named hnamed => simp [hnone] at hnamed
    | home _ hhome' =>
      rw [hhome] at hhome'
      rw [Option.some.inj hhome']
    | default _ hno => exact absurd hfile (hno home bytes hhome)
  | default hnone hno =>
    cases h' with
    | named hnamed => simp [hnone] at hnamed
    | home _ hhome hfile => exact absurd hfile (hno _ _ hhome)
    | default => rfl

theorem exists_chooses (w : World) (named : Option Bytes) :
    ∃ choice, Chooses w named choice := by
  cases named with
  | some path => exact ⟨_, .named rfl⟩
  | none =>
    by_cases hhome : ∃ home bytes, w.valueOf? "HOME" = some home ∧ w.HoldsFile (homeFile home) bytes
    · obtain ⟨home, bytes, hvalue, hfile⟩ := hhome
      exact ⟨_, .home rfl hvalue hfile⟩
    · exact ⟨_, .default rfl fun home bytes hvalue hfile => hhome ⟨home, bytes, hvalue, hfile⟩⟩

theorem Chooses.iff {choice : Option Bytes} (h : Chooses w named choice)
    (other : Option Bytes) : Chooses w named other ↔ other = choice := by
  constructor
  · intro h'
    exact h'.unique h
  · rintro rfl
    exact h

theorem exists_configures (w : World) (named : Option Bytes) :
    ∃ result, Configures w named result := by
  obtain ⟨choice, hchoice⟩ := exists_chooses w named
  cases choice with
  | none => exact ⟨_, .default hchoice⟩
  | some path =>
    obtain ⟨result, hgives⟩ := exists_gives w path
    exact ⟨result, .file hchoice hgives⟩

end Config

namespace Application

variable {w : World} {options : Options} {result : Except (Stop Config.Error) Config}

theorem configuration_of_configures (h : Config.Configures w options.config result) :
    configuration w options = result := by
  unfold configuration
  cases h with
  | file hchoice hgives =>
    have hfile := Config.ofFile_of_gives hgives
    cases hchoice with
    | named hnamed => simp only [hnamed, hfile]
    | home hnone hhome hholds =>
      have hregular := World.isFile_iff.mpr ⟨_, hholds⟩
      simp only [hnone, Config.location?_eq, homeVariable, hhome, Option.map_some, hregular,
        if_true, hfile]
  | default hchoice =>
    obtain ⟨hnone, hno⟩ : options.config = none ∧ ∀ home bytes, w.valueOf? "HOME" = some home →
        ¬ w.HoldsFile (Config.homeFile home) bytes := by
      cases hchoice with
      | default hnone hno => exact ⟨hnone, hno⟩
    simp only [hnone, Config.location?_eq, homeVariable]
    cases hhome : w.valueOf? "HOME" with
    | none => rfl
    | some home =>
      have hregular : ¬ w.isFile (Config.homeFile home) := by
        rw [World.isFile_iff]
        rintro ⟨bytes, hholds⟩
        exact hno home bytes hhome hholds
      simp only [Option.map_some, hregular]
      rfl

theorem configuration_iff :
    configuration w options = result ↔ Config.Configures w options.config result := by
  constructor
  · rintro rfl
    obtain ⟨result, h⟩ := Config.exists_configures w options.config
    rwa [configuration_of_configures h]
  · exact configuration_of_configures

end Application

end LineShell
