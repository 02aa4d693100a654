import LineShell.Text.Pieces

/-!
# Parts and lines

What the parts and the lines of a text are, said of the text as a whole: parts are what joining
puts together again, and lines are what line ends close. `parts_iff` and `lines_iff`: cutting
finds the parts and the lines, and there are no others.
-/

namespace LineShell.Text

-- ---------------------------------------------------------------------------
-- Parts
-- ---------------------------------------------------------------------------

/-- What stands between the separators of a text. -/
structure Parts [DecidableEq α] (sep : α) (text : List α) (parts : List (List α)) : Prop where
  nonempty : parts ≠ []
  joined : [sep].intercalate parts = text
  separated : ∀ part ∈ parts, sep ∉ part

theorem mem_intercalate {c sep : α} {parts : List (List α)}
    (h : c ∈ [sep].intercalate parts) : c = sep ∨ ∃ part ∈ parts, c ∈ part := by
  induction parts with
  | nil => simp [List.intercalate] at h
  | cons part parts ih =>
    cases parts with
    | nil =>
      right
      simpa using h
    | cons next more =>
      rw [List.intercalate_cons_cons, List.mem_append, List.mem_append, List.mem_singleton] at h
      rcases h with (h | rfl) | h
      · exact .inr ⟨part, List.mem_cons_self, h⟩
      · exact .inl rfl
      · rcases ih h with rfl | ⟨other, ho, hc⟩
        · exact .inl rfl
        · exact .inr ⟨other, List.mem_cons_of_mem part ho, hc⟩

variable [DecidableEq α] {sep : α}

theorem pieces_of_not_mem {cs : List α} (h : sep ∉ cs) : pieces sep cs = [cs] := by
  induction cs with
  | nil => rfl
  | cons c cs ih =>
    obtain ⟨hc, hcs⟩ : sep ≠ c ∧ sep ∉ cs := by simpa using h
    simp [pieces, Ne.symm hc, ih hcs]

/-- A text is cut at a separator of its own wherever else it is cut. -/
theorem pieces_join (cs rest : List α) :
    pieces sep (cs ++ sep :: rest) = pieces sep cs ++ pieces sep rest := by
  induction cs with
  | nil => simp [pieces]
  | cons c cs ih =>
    rw [List.cons_append, pieces, pieces, ih]
    split
    · rfl
    · cases h : pieces sep cs with
      | nil => exact absurd h (pieces_ne_nil sep cs)
      | cons part parts => rfl

theorem pieces_append {cs : List α} (h : sep ∉ cs) (rest : List α) :
    pieces sep (cs ++ sep :: rest) = cs :: pieces sep rest := by
  rw [pieces_join, pieces_of_not_mem h]
  rfl

theorem pieces_intercalate {parts : List (List α)} (hne : parts ≠ [])
    (h : ∀ part ∈ parts, sep ∉ part) : pieces sep ([sep].intercalate parts) = parts := by
  induction parts with
  | nil => exact absurd rfl hne
  | cons part rest ih =>
    have hpart : sep ∉ part := h part List.mem_cons_self
    cases rest with
    | nil => simpa [List.intercalate, List.intersperse] using pieces_of_not_mem hpart
    | cons next more =>
      have hjoin : [sep].intercalate (part :: next :: more) =
          part ++ sep :: [sep].intercalate (next :: more) := by
        simp [List.intercalate, List.intersperse]
      rw [hjoin, pieces_append hpart,
        ih (List.cons_ne_nil _ _) fun p hp => h p (List.mem_cons_of_mem _ hp)]

theorem parts_iff {text : List α} {parts : List (List α)} :
    Parts sep text parts ↔ pieces sep text = parts := by
  constructor
  · rintro ⟨hne, rfl, hsep⟩
    exact pieces_intercalate hne hsep
  · rintro rfl
    exact ⟨pieces_ne_nil sep text, intercalate_pieces sep text,
      fun _ hpart => not_mem_of_mem_pieces hpart⟩

theorem cutAt_iff {text before after : List α} :
    cutAt sep text = some (before, after) ↔ text = before ++ sep :: after ∧ sep ∉ before := by
  constructor
  · exact cutAt_eq_some
  · rintro ⟨rfl, h⟩
    induction before with
    | nil => simp [cutAt]
    | cons c before ih =>
      obtain ⟨hc, hbefore⟩ : sep ≠ c ∧ sep ∉ before := by simpa using h
      simp [cutAt, Ne.symm hc, ih hbefore]

-- ---------------------------------------------------------------------------
-- Lines
-- ---------------------------------------------------------------------------

/-- The lines of a text, each closed by a line feed, which a carriage return may precede. What
follows the last line feed is a line as it stands, unless there is nothing. -/
inductive Lines : List Char → List (List Char) → Prop
  | nil : Lines [] []
  | last {line : List Char} : '\n' ∉ line → line ≠ [] → Lines line [line]
  | feed {line rest : List Char} {more : List (List Char)} : '\n' ∉ line →
      line.getLast? ≠ some '\r' → Lines rest more → Lines (line ++ '\n' :: rest) (line :: more)
  | returnFeed {line rest : List Char} {more : List (List Char)} : '\n' ∉ line →
      Lines rest more → Lines (line ++ '\r' :: '\n' :: rest) (line :: more)

theorem lines_last {line : List Char} (h : '\n' ∉ line) (hne : line ≠ []) :
    lines line = [line] := by
  simp [lines, pieces_of_not_mem h, hne]

theorem lines_append {line : List Char} (h : '\n' ∉ line) (rest : List Char) :
    lines (line ++ '\n' :: rest) = dropReturn line :: lines rest := by
  obtain ⟨piece, more, hp⟩ := List.exists_cons_of_ne_nil (pieces_ne_nil '\n' rest)
  simp [lines, pieces_append h, hp]

theorem dropReturn_of_ne {line : List Char} (h : line.getLast? ≠ some '\r') :
    dropReturn line = line := if_neg h

theorem dropReturn_append (line : List Char) : dropReturn (line ++ ['\r']) = line := by
  simp [dropReturn]

/-- A line that a line feed closes, with the carriage return it may have had. -/
theorem Lines.closed {line rest : List Char} {more : List (List Char)} (h : '\n' ∉ line)
    (hmore : Lines rest more) : Lines (line ++ '\n' :: rest) (dropReturn line :: more) := by
  by_cases hr : line.getLast? = some '\r'
  · obtain ⟨front, rfl⟩ := List.getLast?_eq_some_iff.mp hr
    have hfront : '\n' ∉ front := fun hm => h (List.mem_append_left _ hm)
    rw [dropReturn_append, List.append_assoc]
    exact .returnFeed hfront hmore
  · rw [dropReturn_of_ne hr]
    exact .feed h hr hmore

theorem lines_of_lines {text : List Char} {ls : List (List Char)} (h : Lines text ls) :
    lines text = ls := by
  induction h with
  | nil => rfl
  | last h hne => exact lines_last h hne
  | feed h hr _ ih => rw [lines_append h, dropReturn_of_ne hr, ih]
  | @returnFeed line rest more h _ ih =>
    have hline : '\n' ∉ line ++ ['\r'] := by simp [h]
    have hjoin : line ++ '\r' :: '\n' :: rest = (line ++ ['\r']) ++ '\n' :: rest := by simp
    rw [hjoin, lines_append hline, dropReturn_append, ih]

theorem lines_lines (text : List Char) : Lines text (lines text) := by
  -- On the length, since what follows a line feed is no direct part of the text.
  induction hn : text.length using Nat.strongRecOn generalizing text with
  | ind n ih =>
    cases hcut : cutAt '\n' text with
    | none =>
      have hno := cutAt_eq_none.mp hcut
      by_cases hne : text = []
      · subst hne; exact .nil
      · rw [lines_last hno hne]
        exact .last hno hne
    | some cut =>
      obtain ⟨line, rest⟩ := cut
      obtain ⟨rfl, hline⟩ := cutAt_eq_some hcut
      have hshorter : rest.length < n := by
        simp only [List.length_append, List.length_cons] at hn
        omega
      rw [lines_append hline]
      exact (ih _ hshorter rest rfl).closed hline

theorem lines_iff {text : List Char} {ls : List (List Char)} : Lines text ls ↔ lines text = ls :=
  ⟨lines_of_lines, fun h => h ▸ lines_lines text⟩

example : lines "a\r\n\r\r\nb\r".toList = ["a".toList, "\r".toList, "b\r".toList] := by decide

end LineShell.Text
