import LineShell.Proofs.Text.Words

/-!
# Squeezed texts

A text is squeezed by writing one space for each run of its blanks. Joining the words of a text with
single spaces gives the trimmed text squeezed: `intercalate_words`. So a squeezed text that is
trimmed too reads as itself, and squeezing once is enough.
-/

namespace LineShell.Text

/-- One space for each run of blanks. -/
def squeeze : List Char → List Char
  | [] => []
  | c :: rest =>
    if isBlank c then if rest.head?.any isBlank then squeeze rest else ' ' :: squeeze rest
    else c :: squeeze rest

/-- The text without the blanks at its ends, and with one space for each run of blanks inside. -/
def tidy (text : String) : String := String.ofList (squeeze (trim text.toList))

variable {blanks rest text word : List Char} {fields : List (List Char)}

theorem squeeze_shows (h : ∀ c ∈ word, isBlank c = false) (rest : List Char) :
    squeeze (word ++ rest) = word ++ squeeze rest := by
  induction word with
  | nil => rfl
  | cons c word ih =>
    obtain ⟨hc, hword⟩ := List.forall_mem_cons.mp h
    simp [squeeze, hc, ih hword]

theorem squeeze_run (h : AllBlank blanks) (hne : blanks ≠ [])
    (hrest : ∀ c ∈ rest.head?, isBlank c = false) :
    squeeze (blanks ++ rest) = ' ' :: squeeze rest := by
  have hshows : rest.head?.any isBlank = false := by
    cases rest with
    | nil => rfl
    | cons c more => exact hrest c rfl
  induction blanks with
  | nil => exact absurd rfl hne
  | cons c blanks ih =>
    obtain ⟨hc, hblanks⟩ := List.forall_mem_cons.mp h
    cases blanks with
    | nil => simp [squeeze, hc, hshows]
    | cons d more =>
      have hd : isBlank d = true := hblanks d List.mem_cons_self
      rw [List.cons_append, squeeze, if_pos hc, if_pos (by simpa using hd)]
      exact ih hblanks (List.cons_ne_nil d more)

-- ---------------------------------------------------------------------------
-- Joined words
-- ---------------------------------------------------------------------------

theorem squeeze_breaks (h : Breaks text) (hne : text ≠ []) :
    squeeze text = ' ' :: squeeze (trimStart text) := by
  obtain ⟨run, hrun, htext⟩ := exists_append_trimStart text
  have hrunNe : run ≠ [] := by
    rintro rfl
    obtain ⟨c, rest, rfl⟩ := List.exists_cons_of_ne_nil hne
    have hfirst : c ∈ (trimStart (c :: rest)).head? := congrArg List.head? htext.symm
    have hshows := first_trimStart c hfirst
    rw [h c rfl] at hshows
    cases hshows
  exact (congrArg squeeze htext).trans (squeeze_run hrun hrunNe first_trimStart)

theorem words_ne_nil (h : ∀ c ∈ text.getLast?, isBlank c = false) (hne : text ≠ []) :
    words text ≠ [] := by
  intro hnil
  have hlast := List.getLast?_eq_some_getLast hne
  have hblank := words_eq_nil.mp hnil _ (List.mem_of_getLast? hlast)
  rw [h _ hlast] at hblank
  cases hblank

theorem trimStart_of_dropWhile {c : Char} (h : text.dropWhile isBlank = c :: rest) :
    trimStart text = c :: rest.takeWhile (!isBlank ·) ++ rest.dropWhile (!isBlank ·) := by
  rw [List.cons_append, List.takeWhile_append_dropWhile]
  exact h

theorem squeeze_trimStart (h : ∀ c ∈ text.getLast?, isBlank c = false) :
    squeeze (trimStart text) = [' '].intercalate (words text) := by
  fun_induction words text with
  | case1 text hd =>
    rw [trimStart, hd]
    rfl
  | case2 text c rest hd ih =>
    obtain ⟨lead, -, hword, hbreaks, htext⟩ := exists_word hd
    rw [trimStart_of_dropWhile hd, squeeze_shows hword.shows]
    generalize rest.dropWhile (!isBlank ·) = more at *
    by_cases hmore : more = []
    · simp [hmore, squeeze, words]
    · -- The text ends as what follows the word does.
      have hlast : ∀ x ∈ more.getLast?, isBlank x = false := by
        intro x hx
        apply h
        rw [htext, List.getLast?_append, List.getLast?_append, Option.mem_def.mp hx]
        rfl
      rw [squeeze_breaks hbreaks hmore, ih hlast,
        List.intercalate_cons_of_ne_nil (words_ne_nil hlast hmore)]
      simp

theorem words_nil : words [] = [] := words_eq_nil.mpr (by simp [AllBlank])

theorem words_append_blanks (h : AllBlank blanks) (text : List Char) :
    words (text ++ blanks) = words text := by
  by_cases hne : blanks = []
  · rw [hne, List.append_nil]
  · have hsplit := words_append text h hne []
    rwa [List.append_nil, words_nil, List.append_nil] at hsplit

theorem words_trim (text : List Char) : words (trim text) = words text := by
  obtain ⟨-, before, after, hbefore, hafter, htext⟩ := trims_trim text
  calc words (trim text)
    _ = words (trim text ++ after) := (words_append_blanks hafter _).symm
    _ = words (before ++ (trim text ++ after)) := (words_blanks hbefore _).symm
    _ = words text := by rw [← htext]

/-- The words of a text with single spaces between them. -/
theorem intercalate_words (text : List Char) :
    [' '].intercalate (words text) = squeeze (trim text) := by
  obtain ⟨hfirst, hlast⟩ := (trims_trim text).tight
  rw [← words_trim, ← squeeze_trimStart hlast, trimStart_of_first hfirst]

theorem words_intercalate (h : ∀ word ∈ fields, IsWord word) :
    words ([' '].intercalate fields) = fields := by
  have hblank : AllBlank [' '] := by decide
  induction fields with
  | nil => exact words_nil
  | cons word fields ih =>
    obtain ⟨hword, hfields⟩ := List.forall_mem_cons.mp h
    cases fields with
    | nil =>
      rw [List.intercalate_singleton]
      have hend : words (word ++ []) = word :: words [] := words_word hword nofun
      rwa [List.append_nil, words_nil] at hend
    | cons next more =>
      have hbreaks : Breaks ([' '] ++ [' '].intercalate (next :: more)) := by
        intro c hc
        exact hblank c (by simpa [eq_comm] using hc)
      rw [List.intercalate_cons_cons, List.append_assoc, words_word hword hbreaks,
        words_blanks hblank, ih hfields]

-- ---------------------------------------------------------------------------
-- Tidy texts
-- ---------------------------------------------------------------------------

theorem toList_tidy (text : String) :
    (tidy text).toList = [' '].intercalate (words text.toList) := by
  rw [tidy, String.toList_ofList, intercalate_words]

theorem tidy_congr {text other : String} (h : words text.toList = words other.toList) :
    tidy text = tidy other := by
  rw [← String.toList_inj, toList_tidy, toList_tidy, h]

theorem words_tidy (text : String) : words (tidy text).toList = words text.toList := by
  rw [toList_tidy, words_intercalate fun _ => isWord_of_mem_words]

theorem tidy_tidy (text : String) : tidy (tidy text) = tidy text := tidy_congr (words_tidy text)

theorem mem_squeeze {c : Char} (h : c ∈ squeeze text) : c = ' ' ∨ c ∈ text := by
  induction text with
  | nil => cases h
  | cons d rest ih =>
    have hrest (h : c ∈ squeeze rest) : c = ' ' ∨ c ∈ d :: rest :=
      (ih h).imp_right (List.mem_cons_of_mem d)
    rw [squeeze] at h
    split at h
    · split at h
      · exact hrest h
      · exact (List.mem_cons.mp h).elim .inl hrest
    · exact (List.mem_cons.mp h).elim (fun hc => .inr (hc ▸ List.mem_cons_self)) hrest

theorem mem_tidy {text : String} {c : Char} (h : c ∈ (tidy text).toList) :
    c = ' ' ∨ c ∈ text.toList := by
  rw [tidy, String.toList_ofList] at h
  obtain ⟨-, before, after, -, -, htext⟩ := trims_trim text.toList
  refine (mem_squeeze h).imp_right fun hc => ?_
  rw [htext]
  exact List.mem_append_right _ (List.mem_append_left _ hc)

theorem tidy_eq_empty {text : String} : tidy text = "" ↔ AllBlank text.toList := by
  constructor
  · intro h
    rw [← words_eq_nil, ← words_tidy, h]
    exact words_nil
  · intro h
    rw [← String.toList_inj, toList_tidy, words_eq_nil.mpr h]
    rfl

example : tidy "\u3000a b\t\n c " = "a b c" := by cbv

end LineShell.Text
