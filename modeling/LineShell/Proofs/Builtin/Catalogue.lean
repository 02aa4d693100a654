import Mathlib.Data.List.Forall2
import LineShell.Proofs.Builtin.Listing
import LineShell.Proofs.Text.Shown

/-!
# Catalogues of a directory

A directory has one catalogue: a line for each of its entries, in the order of the names' bytes. The
listing is the catalogue in whatever order the system gives the entries, and where the system fails
to give one there is no listing: `files_catalogues`.
-/

namespace LineShell.Builtin

open Files (Directory Name ProperName)

-- ---------------------------------------------------------------------------
-- Lines
-- ---------------------------------------------------------------------------

/-- What is said about an entry. Only what leads to a directory is called one. -/
inductive Describes (w : World) (name : Name) : String → Prop
  | directory {text : String} : EntersDirectory w name → Utf8.Shows name text.toList →
      Describes w name ("dir: " ++ text)
  | other {text : String} : ¬ EntersDirectory w name → Utf8.Shows name text.toList →
      Describes w name ("file: " ++ text)

/-- One line for each name, in the order of the names' bytes. -/
def Catalogue (w : World) (names : List Name) (lines : List String) : Prop :=
  ∃ ordered, ordered.Perm names ∧ ordered.Pairwise (· < ·) ∧
    List.Forall₂ (Describes w) ordered lines

variable {w : World} {name : Name} {names : List Name} {lines : List String}

section
variable (hcwd : (w.files.directory? w.cwd).isSome)
include hcwd

theorem describes_iff {line : String} (h : ProperName name) :
    Describes w name line ↔ listingLine w name = line := by
  constructor
  · rintro (⟨hdir, hshows⟩ | ⟨hdir, hshows⟩)
    · rw [listingLine_dir ((toDirectory_iff h hcwd).mpr hdir), shown_of_shows hshows]
    · rw [listingLine_file (mt (toDirectory_iff h hcwd).mp hdir), shown_of_shows hshows]
  · rintro rfl
    by_cases hdir : EntersDirectory w name
    · rw [listingLine_dir ((toDirectory_iff h hcwd).mpr hdir)]
      exact .directory hdir (shows_shown name)
    · rw [listingLine_file (mt (toDirectory_iff h hcwd).mp hdir)]
      exact .other hdir (shows_shown name)

theorem forall₂_describes_iff (h : ∀ name ∈ names, ProperName name) :
    List.Forall₂ (Describes w) names lines ↔ names.map (listingLine w) = lines := by
  induction names generalizing lines with
  | nil => simp [eq_comm]
  | cons name names ih =>
    obtain ⟨hname, hnames⟩ := List.forall_mem_cons.mp h
    cases lines with
    | nil => simp
    | cons line lines => simp [describes_iff hcwd hname, ih hnames]

end

-- ---------------------------------------------------------------------------
-- Order
-- ---------------------------------------------------------------------------

theorem inOrder_congr {names' : List Name} (h : names.Perm names') :
    inOrder names = inOrder names' := by
  have hperm : (inOrder names).Perm (inOrder names') :=
    (inOrder_perm names).trans (h.trans (inOrder_perm names').symm)
  exact hperm.eq_of_pairwise (fun _ _ _ _ => List.le_antisymm) (pairwise_inOrder _)
    (pairwise_inOrder _)

/-- Names that are not given twice stand in one strict order. -/
theorem inOrder_iff (hn : names.Nodup) {ordered : List Name} :
    ordered.Perm names ∧ ordered.Pairwise (· < ·) ↔ inOrder names = ordered := by
  constructor
  · rintro ⟨hperm, hlt⟩
    have hle : ordered.Pairwise (· ≤ ·) := hlt.imp fun hab => List.le_of_lt hab
    exact ((inOrder_perm names).trans hperm.symm).eq_of_pairwise (fun _ _ _ _ => List.le_antisymm)
      (pairwise_inOrder _) hle
  · rintro rfl
    have hnodup : (inOrder names).Nodup := (inOrder_perm names).nodup_iff.mpr hn
    exact ⟨inOrder_perm names,
      ((pairwise_inOrder names).and hnodup).imp fun ⟨hle, hne⟩ => Std.lt_of_le_of_ne hle hne⟩

theorem catalogue_iff (hcwd : (w.files.directory? w.cwd).isSome) (hn : names.Nodup)
    (h : ∀ name ∈ names, ProperName name) :
    Catalogue w names lines ↔ (inOrder names).map (listingLine w) = lines := by
  have hordered : ∀ name ∈ inOrder names, ProperName name := fun name hname =>
    h name ((inOrder_perm names).mem_iff.mp hname)
  simp only [Catalogue, ← and_assoc, inOrder_iff hn, exists_eq_left',
    forall₂_describes_iff hcwd hordered]

-- ---------------------------------------------------------------------------
-- Readings
-- ---------------------------------------------------------------------------

/-- The system gives each entry of a directory once. -/
def Complete (reading : Reading) (dir : Directory) : Prop :=
  ∃ names : List Name, reading = .ok (names.map .ok) ∧ names.Perm (dir.entries.map (·.1))

/-- The system fails to give some entry, or all. -/
inductive BreaksOff : Reading → Failure → Prop
  | atOnce {f : Failure} : BreaksOff (.error f) f
  | atEntry {before : List Name} {f : Failure} {after : List (Except Failure Name)} :
      BreaksOff (.ok (before.map .ok ++ .error f :: after)) f

theorem Complete.names_ok {reading : Reading} {dir : Directory} (h : Complete reading dir) :
    ∃ names, reading.names = .ok names ∧ names.Perm (dir.entries.map (·.1)) := by
  obtain ⟨names, rfl, hperm⟩ := h
  exact ⟨names, Builtin.names_ok names, hperm⟩

theorem BreaksOff.names_error {reading : Reading} {f : Failure} (h : BreaksOff reading f) :
    reading.names = .error f := by
  cases h with
  | atOnce => rfl
  | @atEntry before f after =>
    induction before with
    | nil => rfl
    | cons name before ih =>
      simp only [Reading.names, Except.bind] at ih ⊢
      rw [List.map_cons, List.cons_append, List.mapM_cons, ih]
      rfl

-- ---------------------------------------------------------------------------
-- The command
-- ---------------------------------------------------------------------------

/-- What a command that reads the directory in use makes of it. -/
structure Catalogues (r : Registry) (read : World → Reading) (s : Session) (dir : Directory) :
    Prop where
  /-- The tree itself gives all its entries to who may list them, and to others none. -/
  own : s.world.MayList → Complete s.world.reading dir
  denied : ¬ s.world.MayList → BreaksOff s.world.reading (.system .denied)
  complete : Complete (read s.world) dir → ∃ lines t,
    (∀ other, Catalogue s.world (dir.entries.map (·.1)) other ↔ other = lines) ∧
      (r.execute ["files"]).perform s = (.ok true, t) ∧ t.world = s.world ∧
      t.out.contents = s.out.contents ++ inLines lines
  /-- The order in which the entries are given does not matter. -/
  alike : ∀ (r' : Registry) read', r'.find? "files" = some (filesBy read') →
    Complete (read s.world) dir → Complete (read' s.world) dir →
    (r.execute ["files"]).perform s = (r'.execute ["files"]).perform s
  /-- Nothing is said, not even about the entries that were given. -/
  brokenOff : ∀ f, BreaksOff (read s.world) f → (r.execute ["files"]).perform s =
    (.error (.refused (.builtin "files" f)), { s with log := s.log ++ [.running "files" 0] })

variable {r : Registry} {read : World → Reading} {s : Session} {dir : Directory}

theorem Reply.filesBy_ok (h : (read w).names = .ok names) :
    Reply.filesBy read ["files"] w = .say w ((inOrder names).map (listingLine w)) := by
  rw [Reply.filesBy_eq, h]
  rfl

theorem Reply.filesBy_error {f : Failure} (h : (read w).names = .error f) :
    Reply.filesBy read ["files"] w = .fail w f := by
  rw [Reply.filesBy_eq, h]
  rfl

theorem serves_files (hfind : r.find? "files" = some (filesBy read)) :
    r.Serves "files" [] (Reply.filesBy read ["files"]) :=
  ⟨_, hfind, performs_filesBy read ["files"]⟩

theorem files_catalogues (hfind : r.find? "files" = some (filesBy read)) (hn : s.out.NeverFails)
    (hcwd : s.world.files.directory? s.world.cwd = some dir) (hproper : dir.Proper s.world.files) :
    Catalogues r read s dir where
  own hmay := ⟨_, by rw [World.reading_eq hcwd, if_pos hmay], .refl _⟩
  denied hmay := by
    rw [World.reading_eq hcwd, if_neg hmay]
    exact .atOnce
  complete h := by
    obtain ⟨names, hnames, hperm⟩ := h.names_ok
    have hreply : Reply.filesBy read ["files"] s.world = .say s.world (listed s.world dir) := by
      rw [Reply.filesBy_ok hnames, inOrder_congr hperm, listed]
    have hserves := serves_files hfind
    obtain ⟨hok, htold, -⟩ := hserves.execute_told (s := s) (.inr hn)
    rw [hreply] at hok htold
    refine ⟨listed s.world dir, _, fun other => ?_, Prod.ext hok rfl, ?_, htold.trans ?_⟩
    · rw [catalogue_iff (by simp [hcwd]) hproper.once fun _ => hproper.properName, eq_comm,
        listed]
    · rw [hserves.execute_world, hreply]
      rfl
    · rw [Reply.say, spoken_lines]
  alike r' read' hfind' h h' := by
    obtain ⟨names, hnames, hperm⟩ := h.names_ok
    obtain ⟨names', hnames', hperm'⟩ := h'.names_ok
    rw [(serves_files hfind).perform_execute, (serves_files hfind').perform_execute,
      Reply.filesBy_ok hnames, Reply.filesBy_ok hnames', inOrder_congr (hperm.trans hperm'.symm)]
  brokenOff f h := by
    rw [(serves_files hfind).perform_execute, Reply.filesBy_error h.names_error, Reply.perform_eq]
    rfl

/-- A directory, a link to it, a pipe whose name is no text and a link that leads to itself. -/
def mixedNames : Directory :=
  ⟨Files.FileTree.root, [(bytesOf "sub", 1), (bytesOf ".up", 2), ([0x66, 0xFF], 3),
    (bytesOf "loop", 4)]⟩

def mixed : World := { World.fresh with
  files := ⟨#[
    ⟨.directory mixedNames, 0o755, 0, World.dawn⟩,
    ⟨.directory ⟨Files.FileTree.root, []⟩, 0o755, 0, World.dawn⟩,
    ⟨.link (bytesOf "sub"), 0o777, 0, World.dawn⟩,
    ⟨.fifo, 0o644, 0, World.dawn⟩,
    ⟨.link (bytesOf "loop"), 0o777, 0, World.dawn⟩]⟩ }

theorem entersDirectory_sub : EntersDirectory mixed (bytesOf "sub") := by
  have hsub : ProperName (bytesOf "sub") := by decide
  exact ⟨1, .entry (hsub.sought _ []) rfl ⟨_, rfl, by decide⟩ rfl (.done nofun), rfl⟩

theorem entersDirectory_up : EntersDirectory mixed (bytesOf ".up") := by
  have hup : ProperName (bytesOf ".up") := by decide
  have hsub : ProperName (bytesOf "sub") := by decide
  have hfind : mixedNames.find? (bytesOf ".up") = some 2 := by decide
  refine ⟨1, .through (hup.sought _ []) rfl ⟨_, rfl, hfind⟩ rfl nofun ?_, rfl⟩
  rw [hsub.ofBytes]
  exact .entry (hsub.sought _ []) rfl ⟨_, rfl, by decide⟩ rfl (.done nofun)

theorem not_entersDirectory_pipe : ¬ EntersDirectory mixed [0x66, 0xFF] := by
  have hpipe : ProperName [0x66, 0xFF] := by decide
  have hroute : mixed.files.Route mixed.user .target Files.mostLinks [[0x66, 0xFF]] mixed.cwd false
      (.node 3) := .entry (hpipe.sought _ []) rfl ⟨_, rfl, by decide⟩ rfl (.done nofun)
  exact not_entersDirectory hroute rfl

theorem walk_loop (links : Nat) : mixed.files.walk mixed.user .target links [bytesOf "loop"]
    mixed.cwd false = .error .tooManyLinks := by
  have hloop : ProperName (bytesOf "loop") := by decide
  have hdir : mixed.files.directory? mixed.cwd = some mixedNames := rfl
  have hfind : mixedNames.find? (bytesOf "loop") = some 4 := by decide
  induction links with
  | zero =>
    rw [Files.FileTree.walk_sought hdir rfl (hloop.sought _ []), hfind]
    rfl
  | succ links ih =>
    rw [Files.FileTree.walk_sought hdir rfl (hloop.sought _ []), hfind]
    exact ih

theorem not_entersDirectory_loop : ¬ EntersDirectory mixed (bytesOf "loop") := by
  rintro ⟨d, hroute, -⟩
  cases (walk_loop _).symm.trans hroute.walk

theorem listed_mixed :
    listed mixed mixedNames = ["dir: .up", "file: f\uFFFD", "file: loop", "dir: sub"] := by
  have hnodup : (mixedNames.entries.map (·.1)).Nodup := by decide
  have horder : inOrder (mixedNames.entries.map (·.1)) =
      [bytesOf ".up", [0x66, 0xFF], bytesOf "loop", bytesOf "sub"] :=
    (inOrder_iff hnodup).mp ⟨by decide, by decide⟩
  have hdirectory {name : Name} (hname : ProperName name) (h : EntersDirectory mixed name) :
      listingLine mixed name = "dir: " ++ shown name :=
    listingLine_dir ((toDirectory_iff hname rfl).mpr h)
  have hother {name : Name} (hname : ProperName name) (h : ¬ EntersDirectory mixed name) :
      listingLine mixed name = "file: " ++ shown name :=
    listingLine_file (mt (toDirectory_iff hname rfl).mp h)
  have hshown : shown [0x66, 0xFF] = "f\uFFFD" := by decide +kernel
  rw [listed, horder]
  simp only [List.map_cons, List.map_nil, hdirectory (by decide) entersDirectory_up,
    hother (by decide) not_entersDirectory_pipe, hother (by decide) not_entersDirectory_loop,
    hdirectory (by decide) entersDirectory_sub, shown_bytesOf, hshown]
  rfl

set_option maxRecDepth 4000 in
/-- The system gives the names in the opposite order. -/
theorem files_catalogues_mixed :
    let names := (mixedNames.entries.map (·.1)).reverse
    let r := Registry.standard.register "files" (filesBy fun _ => .ok (names.map .ok))
    Complete (.ok (names.map .ok)) mixedNames ∧ ∃ t,
      (r.execute ["files"]).perform { world := mixed } = (.ok true, t) ∧
        t.out.contents = inLines ["dir: .up", "file: f\uFFFD", "file: loop", "dir: sub"] := by
  intro names r
  have hn := Sink.neverFails_empty
  have hproper : mixedNames.Proper mixed.files := by decide
  have hfind : r.find? "files" = some (filesBy fun _ => .ok (names.map .ok)) := by
    rw [Registry.find?_register, if_pos rfl]
  have hcomplete : Complete (.ok (names.map .ok)) mixedNames := ⟨names, rfl, List.reverse_perm _⟩
  obtain ⟨lines, t, hlines, hperform, -, htold⟩ :=
    (files_catalogues (s := { world := mixed }) hfind hn rfl hproper).complete hcomplete
  have hcatalogue : Catalogue mixed (mixedNames.entries.map (·.1)) (listed mixed mixedNames) :=
    (catalogue_iff rfl hproper.once fun _ => hproper.properName).mpr rfl
  refine ⟨hcomplete, t, hperform, ?_⟩
  rw [← listed_mixed, (hlines _).mp hcatalogue]
  exact htold

end LineShell.Builtin
