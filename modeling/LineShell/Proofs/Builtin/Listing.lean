import LineShell.Proofs.Builtin.Performance
import LineShell.Proofs.Files.Entries
import LineShell.Proofs.Text.Lines

/-!
# What a listing shows

The names of the directory in use stand in the order of their bytes, each as what it leads to. An
entry shows as a directory exactly if there is a route from it to one, so taking away an entry that
leads to none takes its line away and leaves every other line as it is: `listed_drop`.
-/

namespace LineShell

open Files (Directory FileTree Name NodeId Path ProperName)

namespace World

/-- The user may read the directory in use and follow names in it, which it takes to open it under
the name it has for itself. -/
def MayList (w : World) : Prop :=
  w.files.Opens w.user w.cwd ∧ w.files.grants w.user .read w.cwd = true

instance (w : World) : Decidable w.MayList := inferInstanceAs (Decidable (_ ∧ _))

variable {w : World} {dir : Directory} (hcwd : w.files.directory? w.cwd = some dir)
include hcwd

theorem lookup_here : w.files.lookup w.user w.cwd Files.here =
    if w.files.grants w.user .execute w.cwd then .ok w.cwd else .error .denied := by
  have hpath : Path.ofBytes Files.here = ⟨false, [Files.here], false⟩ := by decide
  have hshort : ¬ Files.longestPath < Files.here.length := by decide
  have hne : Files.here ≠ [] := by decide
  simp only [FileTree.lookup, FileTree.place, hne, hshort, hpath, if_false, Bool.false_eq_true]
  cases hopens : w.files.grants w.user .execute w.cwd with
  | true =>
    rw [FileTree.walk_here hcwd hopens, FileTree.walk]
    rfl
  | false =>
    rw [FileTree.walk, hcwd]
    simp [hopens]

theorem reading_eq : w.reading =
    if w.MayList then .ok ((dir.entries.map (·.1)).map .ok) else .error (.system .denied) := by
  unfold reading
  rw [lookup_here hcwd]
  by_cases hopens : w.files.Opens w.user w.cwd
  · rw [if_pos hopens]
    simp only [hcwd]
    by_cases hread : w.files.grants w.user .read w.cwd = true
    · rw [if_neg (by simp [hread]), if_pos ⟨hopens, hread⟩, List.map_map]
      rfl
    · rw [if_pos (by simpa using hread), if_neg fun hmay => hread hmay.2]
  · rw [if_neg hopens, if_neg fun hmay => hopens hmay.1]

end World

namespace Builtin

-- ---------------------------------------------------------------------------
-- Order
-- ---------------------------------------------------------------------------

theorem inOrder_perm (names : List Name) : (inOrder names).Perm names := List.mergeSort_perm _ _

theorem pairwise_inOrder (names : List Name) : (inOrder names).Pairwise (· ≤ ·) := by
  let le (a b : Name) : Bool := a ≤ b
  have htrans (a b c : Name) (hab : le a b) (hbc : le b c) : le a c :=
    decide_eq_true (List.le_trans (of_decide_eq_true hab) (of_decide_eq_true hbc))
  have htotal (a b : Name) : le a b || le b a := by simpa [le] using List.le_total a b
  exact (List.pairwise_mergeSort htrans htotal names).imp of_decide_eq_true

theorem inOrder_filter (names : List Name) (keep : Name → Bool) :
    inOrder (names.filter keep) = (inOrder names).filter keep := by
  have hperm : (inOrder (names.filter keep)).Perm ((inOrder names).filter keep) :=
    (inOrder_perm _).trans ((inOrder_perm names).filter keep).symm
  exact hperm.eq_of_pairwise (fun _ _ _ _ => List.le_antisymm) (pairwise_inOrder _)
    ((pairwise_inOrder names).filter keep)

-- ---------------------------------------------------------------------------
-- Kinds
-- ---------------------------------------------------------------------------

/-- The path leads to a directory. -/
def ToDirectory (w : World) (path : Bytes) : Prop :=
  ∃ d, w.files.place w.user w.cwd .target path = .ok (.node d) ∧ (w.files.directory? d).isSome

variable {w w' : World} {name : Name}

theorem isDirectory_follow? {path : Bytes} :
    (w.follow? path).any (·.isDirectory) = true ↔ ToDirectory w path := by
  have htoOption (id : NodeId) : (w.files.lookup w.user w.cwd path).toOption = some id ↔
      w.files.place w.user w.cwd .target path = .ok (.node id) := by
    rw [← FileTree.lookup_eq_ok]
    cases w.files.lookup w.user w.cwd path <;> simp [Except.toOption]
  simp only [World.follow?, Option.any_eq_true, Option.bind_eq_some_iff, htoOption, ToDirectory,
    FileTree.directory?_isSome_iff]
  constructor
  · rintro ⟨node, ⟨d, hplace, hnode⟩, hdir⟩
    exact ⟨d, hplace, node, hnode, hdir⟩
  · rintro ⟨d, hplace, node, hnode, hdir⟩
    exact ⟨node, ⟨d, hplace, hnode⟩, hdir⟩

theorem kindWord_eq_dir : kindWord w name = "dir" ↔ ToDirectory w (entryPath name) := by
  rw [← isDirectory_follow?, kindWord]
  split
  · next h => simp [h]
  · next h => simp [h]

theorem kindWord_eq_file : kindWord w name = "file" ↔ ¬ ToDirectory w (entryPath name) := by
  rw [← kindWord_eq_dir, kindWord]
  split
  · simp
  · simp

theorem listingLine_dir (h : ToDirectory w (entryPath name)) :
    listingLine w name = "dir: " ++ shown name := by
  rw [listingLine, kindWord_eq_dir.mpr h]
  rfl

theorem listingLine_file (h : ¬ ToDirectory w (entryPath name)) :
    listingLine w name = "file: " ++ shown name := by
  rw [listingLine, kindWord_eq_file.mpr h]
  rfl

theorem not_toDirectory_of_line {text : String} (h : listingLine w name = "file: " ++ text) :
    ¬ ToDirectory w (entryPath name) := by
  intro hdir
  rw [listingLine, kindWord_eq_dir.mpr hdir] at h
  have hfirst := congrArg (·.toList.head?) h
  simp at hfirst

theorem kindWord_congr (h : ToDirectory w' (entryPath name) ↔ ToDirectory w (entryPath name)) :
    kindWord w' name = kindWord w name := by
  have hsame := isDirectory_follow?.trans (h.trans isDirectory_follow?.symm)
  simp only [kindWord, Bool.eq_iff_iff.mpr hsame]

theorem ofBytes_entryPath (h : ProperName name) :
    Path.ofBytes (entryPath name) = ⟨false, [Files.here, name], false⟩ := by
  have hpieces : Text.pieces Files.slash (entryPath name) = [Files.here, name] := by
    rw [entryPath, Text.pieces_append (by decide), Text.pieces_of_not_mem h.noSlash]
  have hfirst : (entryPath name).head? ≠ some Files.slash := by
    simp [entryPath, Files.here, Files.slash]
  obtain ⟨last, hlast⟩ := Option.isSome_iff_exists.mp (List.getLast?_isSome.mpr h.nonempty)
  have hend : (entryPath name).getLast? = some last := by
    rw [entryPath, List.append_cons, List.getLast?_append, hlast, Option.some_or]
  have hslash : last ≠ Files.slash := fun he => h.noSlash (he ▸ List.mem_of_getLast? hlast)
  have hhere : Files.here ≠ [] := by decide
  simp [Path.ofBytes, hpieces, hfirst, hend, hslash, hhere, h.nonempty]

theorem place_entryPath {t : FileTree} {u : Files.User} {cwd : NodeId} {place : Files.Place}
    (h : ProperName name) (hcwd : (t.directory? cwd).isSome) :
    t.place u cwd .target (entryPath name) = .ok place ↔
      t.Route u .target Files.mostLinks [name] cwd false place := by
  obtain ⟨dir, hdir⟩ := Option.isSome_iff_exists.mp hcwd
  have hne : entryPath name ≠ [] := by simp [entryPath]
  have hshort : (entryPath name).length ≤ Files.longestPath := by
    have := h.short
    simp only [entryPath, Files.here, List.length_append, List.length_cons, List.length_nil,
      Files.longestPath, Files.longestName] at *
    omega
  rw [FileTree.place_eq_ok, ofBytes_entryPath h]
  simp only [Bool.false_eq_true, if_false, ne_eq, hne, not_false_eq_true, hshort, true_and]
  by_cases hopens : t.Opens u cwd
  · rw [← FileTree.walk_eq_ok, ← FileTree.walk_eq_ok, FileTree.walk_here hdir hopens]
  · exact ⟨fun hroute => absurd hroute.opens hopens, fun hroute => absurd hroute.opens hopens⟩

/-- The entry leads the user to a directory, through links if need be. -/
def EntersDirectory (w : World) (name : Name) : Prop :=
  ∃ d, w.files.Route w.user .target Files.mostLinks [name] w.cwd false (.node d) ∧
    (w.files.directory? d).isSome

theorem toDirectory_iff (h : ProperName name) (hcwd : (w.files.directory? w.cwd).isSome) :
    ToDirectory w (entryPath name) ↔ EntersDirectory w name := by
  simp only [ToDirectory, EntersDirectory, place_entryPath h hcwd]

theorem EntersDirectory.of_route {place : Files.Place} (h : EntersDirectory w name)
    (hroute : w.files.Route w.user .target Files.mostLinks [name] w.cwd false place) :
    ∃ d, place = .node d ∧ (w.files.directory? d).isSome := by
  obtain ⟨d, hd, hdir⟩ := h
  exact ⟨d, Except.ok.inj (hroute.walk.symm.trans hd.walk), hdir⟩

theorem not_entersDirectory {id : NodeId}
    (hroute : w.files.Route w.user .target Files.mostLinks [name] w.cwd false (.node id))
    (hno : w.files.directory? id = none) : ¬ EntersDirectory w name := by
  intro h
  obtain ⟨d, hd, hdir⟩ := h.of_route hroute
  cases hd
  simp [hno] at hdir

theorem toDirectory_of_route {d : NodeId} (h : ProperName name)
    (hroute : w.files.Route w.user .target Files.mostLinks [name] w.cwd true (.node d)) :
    ToDirectory w (entryPath name) := by
  have hd := hroute.isSome rfl
  exact (toDirectory_iff h (hroute.start hd)).mpr ⟨d, hroute.relax nofun, hd⟩

-- ---------------------------------------------------------------------------
-- Listings
-- ---------------------------------------------------------------------------

def listed (w : World) (dir : Directory) : List String :=
  (inOrder (dir.entries.map (·.1))).map (listingLine w)

theorem Reply.filesBy_eq (read : World → Reading) (w : World) : Reply.filesBy read ["files"] w =
    .about w (read w).names fun names => (inOrder names).map (listingLine w) := rfl

theorem names_ok (names : List Name) : Reading.names (.ok (names.map .ok)) = .ok names := by
  induction names with
  | nil => rfl
  | cons name names ih =>
    simp only [Reading.names, Except.bind] at ih ⊢
    rw [List.map_cons, List.mapM_cons, ih]
    rfl

theorem reading_names {dir : Directory} (hcwd : w.files.directory? w.cwd = some dir)
    (hmay : w.MayList) : w.reading.names = .ok (dir.entries.map (·.1)) := by
  rw [World.reading_eq hcwd, if_pos hmay, names_ok]

theorem answers_files {s : Session} {dir : Directory}
    (hcwd : s.world.files.directory? s.world.cwd = some dir) (hmay : s.world.MayList) :
    Answers s ["files"] (listed s.world dir) (.ok true) s.world := by
  have hreplies : replies? "files" = some (Reply.filesBy World.reading) := rfl
  refine answers_say hreplies ?_
  rw [Reply.filesBy_eq, reading_names hcwd hmay]
  rfl

section
variable {files : FileTree} (hdrops : w.files.DropsEntry files w.cwd name)
  (hno : ∀ d, ¬ w.files.Route w.user .target Files.mostLinks [name] w.cwd true (.node d))
include hdrops hno

theorem toDirectory_drop {path : Bytes} :
    ToDirectory { w with files } path ↔ ToDirectory w path := by
  constructor
  · rintro ⟨d, hplace, hd⟩
    refine ⟨d, FileTree.place_of_routes hplace fun hroute => hroute.grows hdrops.grows, ?_⟩
    rwa [hdrops.isSome] at hd
  · rintro ⟨d, hplace, hd⟩
    refine ⟨d, FileTree.place_of_routes hplace fun hroute => ?_, by rwa [hdrops.isSome]⟩
    exact hroute.drops hd (Nat.le_refl _) hdrops hno

theorem listed_drop {dir : Directory} (hcwd : w.files.directory? w.cwd = some dir)
    (honce : (dir.entries.map (·.1)).Nodup) (hname : name ∈ dir.entries.map (·.1)) :
    ∃ dir' before after, files.directory? w.cwd = some dir' ∧
      listed w dir = before ++ listingLine w name :: after ∧
      listed { w with files } dir' = before ++ after := by
  obtain ⟨_, hdirectory, hdir'⟩ := hdrops.directory?
  obtain rfl := Option.some.inj (hcwd.symm.trans hdirectory)
  have hperm := inOrder_perm (dir.entries.map (·.1))
  obtain ⟨before, after, horder⟩ := List.append_of_mem (hperm.mem_iff.mpr hname)
  have hnodup : (before ++ name :: after).Nodup := horder ▸ hperm.nodup_iff.mpr honce
  have hbefore : name ∉ before := fun h =>
    (List.nodup_append.mp hnodup).2.2 name h name List.mem_cons_self rfl
  have hkept : (before ++ name :: after).filter (· != name) = before ++ after := by
    rw [← hnodup.erase_eq_filter, List.erase_append_right _ hbefore, List.erase_cons_head]
  have hnames : (dir.entries.filter (·.1 ≠ name)).map (·.1) =
      (dir.entries.map (·.1)).filter (· != name) := by
    rw [List.filter_map]
    refine congrArg _ (List.filter_congr fun entry _ => ?_)
    exact Bool.eq_iff_iff.mpr (by simp)
  have hline (other : Name) : listingLine { w with files } other = listingLine w other := by
    rw [listingLine, listingLine, kindWord_congr (toDirectory_drop hdrops hno)]
  refine ⟨_, before.map (listingLine w), after.map (listingLine w), hdir', ?_, ?_⟩
  · rw [listed, horder, List.map_append, List.map_cons]
  · rw [listed, hnames, inOrder_filter, horder, hkept, ← List.map_append]
    exact List.map_congr_left fun other _ => hline other

end

end Builtin

end LineShell
