import LineShell.Text.Blank

/-!
# Trimmed texts

Trimming a text leaves the one part of it that has blanks around it and none at its own ends:
`trims_iff`.
-/

namespace LineShell.Text

/-- The characters at both ends of a text show, if it has any. -/
structure Tight (cs : List Char) : Prop where
  first : ∀ c ∈ cs.head?, isBlank c = false
  last : ∀ c ∈ cs.getLast?, isBlank c = false

theorem Tight.of_ends {cs : List Char} {c d : Char} (hfirst : cs.head? = some c)
    (hc : isBlank c = false) (hlast : cs.getLast? = some d) (hd : isBlank d = false) :
    Tight cs where
  first := by
    rintro x hx
    rwa [← Option.some.inj (hfirst.symm.trans hx)]
  last := by
    rintro x hx
    rwa [← Option.some.inj (hlast.symm.trans hx)]

/-- The text is its core with nothing but blanks around it. -/
structure Trims (cs core : List Char) : Prop where
  tight : Tight core
  padded : ∃ before after, AllBlank before ∧ AllBlank after ∧ cs = before ++ (core ++ after)

variable {cs before after : List Char}

theorem allBlank_append : AllBlank (before ++ after) ↔ AllBlank before ∧ AllBlank after :=
  List.forall_mem_append

theorem allBlank_reverse : AllBlank cs.reverse ↔ AllBlank cs := by simp [AllBlank]

theorem trimStart_eq_nil : trimStart cs = [] ↔ AllBlank cs := dropWhile_isBlank_eq_nil

theorem trimStart_append (h : AllBlank before) (rest : List Char) :
    trimStart (before ++ rest) = trimStart rest :=
  List.dropWhile_append_of_pos h

theorem trimStart_of_first (h : ∀ c ∈ cs.head?, isBlank c = false) : trimStart cs = cs := by
  cases cs with
  | nil => rfl
  | cons c rest => simp [trimStart, h c rfl]

theorem first_trimStart : ∀ c ∈ (trimStart cs).head?, isBlank c = false := by
  intro c hc
  have hshows := List.head?_dropWhile_not isBlank cs
  rw [trimStart] at hc
  rw [Option.mem_def.mp hc] at hshows
  exact hshows

theorem exists_append_trimStart (cs : List Char) :
    ∃ before, AllBlank before ∧ cs = before ++ trimStart cs :=
  ⟨cs.takeWhile isBlank, List.all_eq_true.mp List.all_takeWhile,
    List.takeWhile_append_dropWhile.symm⟩

theorem trimEnd_eq : trimEnd cs = (trimStart cs.reverse).reverse := rfl

theorem trimEnd_append (h : AllBlank after) (front : List Char) :
    trimEnd (front ++ after) = trimEnd front := by
  rw [trimEnd_eq, List.reverse_append, trimStart_append (allBlank_reverse.mpr h), trimEnd_eq]

theorem trimEnd_of_last (h : ∀ c ∈ cs.getLast?, isBlank c = false) : trimEnd cs = cs := by
  have hfirst : ∀ c ∈ cs.reverse.head?, isBlank c = false := by simpa using h
  rw [trimEnd_eq, trimStart_of_first hfirst, List.reverse_reverse]

theorem last_trimEnd : ∀ c ∈ (trimEnd cs).getLast?, isBlank c = false := by
  intro c hc
  rw [trimEnd_eq, List.getLast?_reverse] at hc
  exact first_trimStart c hc

theorem exists_append_trimEnd (cs : List Char) :
    ∃ after, AllBlank after ∧ cs = trimEnd cs ++ after := by
  obtain ⟨before, hblank, hcs⟩ := exists_append_trimStart cs.reverse
  refine ⟨before.reverse, allBlank_reverse.mpr hblank, ?_⟩
  rw [trimEnd_eq, ← List.reverse_append, ← hcs, List.reverse_reverse]

theorem first_trimEnd (h : ∀ c ∈ cs.head?, isBlank c = false) :
    ∀ c ∈ (trimEnd cs).head?, isBlank c = false := by
  intro c hc
  obtain ⟨after, -, hcs⟩ := exists_append_trimEnd cs
  apply h
  rw [hcs, List.head?_append, Option.mem_def.mp hc]
  rfl

theorem trims_trim (cs : List Char) : Trims cs (trim cs) := by
  obtain ⟨before, hbefore, hcs⟩ := exists_append_trimStart cs
  obtain ⟨after, hafter, hrest⟩ := exists_append_trimEnd (trimStart cs)
  refine ⟨⟨first_trimEnd first_trimStart, last_trimEnd⟩, before, after, hbefore, hafter, ?_⟩
  rw [trim, ← hrest, ← hcs]

theorem trim_of_trims {core : List Char} (h : Trims cs core) : trim cs = core := by
  obtain ⟨⟨hfirst, hlast⟩, before, after, hbefore, hafter, rfl⟩ := h
  cases core with
  | nil =>
    have hblank : AllBlank (before ++ ([] ++ after)) :=
      allBlank_append.mpr ⟨hbefore, hafter⟩
    rw [trim, trimStart_eq_nil.mpr hblank]
    rfl
  | cons c rest =>
    have hstart : trimStart (c :: rest ++ after) = c :: rest ++ after := trimStart_of_first hfirst
    rw [trim, trimStart_append hbefore, hstart, trimEnd_append hafter, trimEnd_of_last hlast]

theorem trims_iff {core : List Char} : Trims cs core ↔ trim cs = core :=
  ⟨trim_of_trims, fun h => h ▸ trims_trim cs⟩

end LineShell.Text
