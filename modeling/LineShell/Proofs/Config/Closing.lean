import LineShell.Config.SearchPath

/-!
# Entries of a search path

What a list of directories comes to as it is taken up into a search path: empty entries go, and
every other one ends in a slash. A list comes to one search path, `closes_iff`.
-/

namespace LineShell.SearchPath

/-- The entries that a list of directories comes to. -/
inductive Closes : List String → List String → Prop
  | nil : Closes [] []
  | empty {raw dirs : List String} : Closes raw dirs → Closes ("" :: raw) dirs
  | closed {dir : String} {raw dirs : List String} : dir ≠ "" → EndsInSlash dir → Closes raw dirs →
      Closes (dir :: raw) (dir :: dirs)
  | unclosed {dir : String} {raw dirs : List String} : dir ≠ "" → ¬ EndsInSlash dir →
      Closes raw dirs → Closes (dir :: raw) ((dir ++ "/") :: dirs)

variable {raw dirs : List String} {path : SearchPath}

theorem close_ne_empty (dir : String) : close dir ≠ "" := by
  intro h
  have hslash := endsInSlash_close dir
  rw [h] at hslash
  cases hslash

theorem ofList_cons_empty (raw : List String) : (ofList ("" :: raw)).dirs = (ofList raw).dirs := rfl

theorem ofList_cons {dir : String} (h : dir ≠ "") (raw : List String) :
    (ofList (dir :: raw)).dirs = close dir :: (ofList raw).dirs := by
  simp [ofList, h]

theorem ext_dirs {path path' : SearchPath} (h : path.dirs = path'.dirs) : path = path' := by
  cases path
  cases path'
  cases h
  rfl

theorem closes_ofList (raw : List String) : Closes raw (ofList raw).dirs := by
  induction raw with
  | nil => exact .nil
  | cons dir raw ih =>
    by_cases hempty : dir = ""
    · subst hempty
      exact .empty ih
    · rw [ofList_cons hempty]
      by_cases hslash : EndsInSlash dir
      · rw [close, if_pos hslash]
        exact .closed hempty hslash ih
      · rw [close, if_neg hslash]
        exact .unclosed hempty hslash ih

theorem Closes.dirs_eq (h : Closes raw dirs) : dirs = (ofList raw).dirs := by
  induction h with
  | nil => rfl
  | empty _ ih => exact ih
  | closed hempty hslash _ ih => rw [ofList_cons hempty, close, if_pos hslash, ih]
  | unclosed hempty hslash _ ih => rw [ofList_cons hempty, close, if_neg hslash, ih]

theorem closes_iff : Closes raw path.dirs ↔ ofList raw = path := by
  constructor
  · intro h
    exact ext_dirs h.dirs_eq.symm
  · rintro rfl
    exact closes_ofList raw

theorem closes_dirs (path : SearchPath) : Closes path.dirs path.dirs := by
  obtain ⟨dirs, hclosed⟩ := path
  induction dirs with
  | nil => exact .nil
  | cons dir rest ih =>
    have hslash := hclosed dir List.mem_cons_self
    have hempty : dir ≠ "" := by
      rintro rfl
      cases hslash
    exact .closed hempty hslash (ih fun other h => hclosed other (List.mem_cons_of_mem dir h))

theorem ofList_dirs (path : SearchPath) : ofList path.dirs = path :=
  closes_iff.mp (closes_dirs path)

end LineShell.SearchPath
