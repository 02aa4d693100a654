import LineShell.CommandLine
import LineShell.Proofs.Text.Trim

/-!
# Words and the blanks around them

A text is its words with blanks before, between and behind them, and in one way only: `words_iff`.
So the fields of a command line do not depend on which blanks set them apart, and a blank that is
put between two texts puts their fields one after the other: `parse_decomposes`.
-/

namespace LineShell.Text

/-- Some characters, all of which show. -/
structure IsWord (cs : List Char) : Prop where
  nonempty : cs ≠ []
  shows : ∀ c ∈ cs, isBlank c = false

/-- The blanks to set words apart with: some before the first word and some behind each word. -/
structure Spacing where
  lead : List Char
  gaps : List (List Char)

namespace Spacing

def lay (spacing : Spacing) (words : List (List Char)) : List Char :=
  spacing.lead ++ (List.zipWith (· ++ ·) words spacing.gaps).flatten

structure Fits (spacing : Spacing) (words : List (List Char)) : Prop where
  lead : AllBlank spacing.lead
  gaps : ∀ gap ∈ spacing.gaps, AllBlank gap
  count : spacing.gaps.length = words.length
  apart : ∀ gap ∈ spacing.gaps.dropLast, gap ≠ []

end Spacing

/-- The text is these words, set apart by blanks. -/
structure Spaced (text : List Char) (words : List (List Char)) : Prop where
  each : ∀ word ∈ words, IsWord word
  laid : ∃ spacing : Spacing, spacing.Fits words ∧ spacing.lay words = text

/-- A text that no word goes on into. -/
def Breaks (rest : List Char) : Prop := ∀ c ∈ rest.head?, isBlank c = true

-- ---------------------------------------------------------------------------
-- The first word
-- ---------------------------------------------------------------------------

variable {blanks rest text word : List Char}

theorem words_blanks (h : AllBlank blanks) (rest : List Char) :
    words (blanks ++ rest) = words rest := by
  have hstart : (blanks ++ rest).dropWhile isBlank = rest.dropWhile isBlank :=
    List.dropWhile_append_of_pos h
  rw [words, words, hstart]

theorem words_word (h : IsWord word) (hrest : Breaks rest) :
    words (word ++ rest) = word :: words rest := by
  obtain ⟨c, tail, rfl⟩ := List.exists_cons_of_ne_nil h.nonempty
  have hshows : ∀ d ∈ tail, (!isBlank d) = true := by
    intro d hd
    rw [h.shows d (List.mem_cons_of_mem c hd)]
    rfl
  have hstop : rest.takeWhile (!isBlank ·) = [] ∧ rest.dropWhile (!isBlank ·) = rest := by
    cases rest with
    | nil => exact ⟨rfl, rfl⟩
    | cons d more => simp [hrest d rfl]
  have hstart : (c :: tail ++ rest).dropWhile isBlank = c :: (tail ++ rest) := by
    simp [h.shows c List.mem_cons_self]
  rw [words, hstart]
  simp only [List.takeWhile_append_of_pos hshows, List.dropWhile_append_of_pos hshows, hstop,
    List.append_nil]

theorem exists_word {c : Char} (h : text.dropWhile isBlank = c :: rest) :
    ∃ lead, AllBlank lead ∧ IsWord (c :: rest.takeWhile (!isBlank ·)) ∧
      Breaks (rest.dropWhile (!isBlank ·)) ∧
      text = lead ++ (c :: rest.takeWhile (!isBlank ·) ++ rest.dropWhile (!isBlank ·)) := by
  refine ⟨text.takeWhile isBlank, List.all_eq_true.mp List.all_takeWhile, ⟨by simp, ?_⟩, ?_, ?_⟩
  · intro d hd
    rcases List.mem_cons.mp hd with rfl | hd
    · have hfirst := List.head?_dropWhile_not isBlank text
      simpa [h] using hfirst
    · simpa using List.all_eq_true.mp List.all_takeWhile d hd
  · intro d hd
    have hfirst := List.head?_dropWhile_not (!isBlank ·) rest
    rw [Option.mem_def.mp hd] at hfirst
    simpa using hfirst
  · rw [List.cons_append, List.takeWhile_append_dropWhile, ← h, List.takeWhile_append_dropWhile]

theorem breaks_append {other : List Char} (hrest : Breaks rest) (hother : Breaks other) :
    Breaks (rest ++ other) := by
  cases rest with
  | nil => exact hother
  | cons c more => exact hrest

theorem breaks_of_allBlank (h : AllBlank blanks) : Breaks blanks :=
  fun c hc => h c (List.mem_of_mem_head? hc)

theorem words_append (text : List Char) (h : AllBlank blanks) (hne : blanks ≠ [])
    (other : List Char) : words (text ++ (blanks ++ other)) = words text ++ words other := by
  have hbreaks : Breaks (blanks ++ other) := by
    obtain ⟨c, more, rfl⟩ := List.exists_cons_of_ne_nil hne
    have hfirst : Breaks (c :: more) := breaks_of_allBlank h
    exact hfirst
  fun_induction words text with
  | case1 text hd =>
    rw [words_blanks (dropWhile_isBlank_eq_nil.mp hd), words_blanks h]
    rfl
  | case2 text c rest hd ih =>
    obtain ⟨lead, hlead, hword, hrest, htext⟩ := exists_word hd
    rw [htext, List.append_assoc, words_blanks hlead, List.append_assoc,
      words_word hword (breaks_append hrest hbreaks), ih]
    rfl

-- ---------------------------------------------------------------------------
-- All words
-- ---------------------------------------------------------------------------

theorem isWord_of_mem_words (h : word ∈ words text) : IsWord word :=
  ⟨ne_nil_of_mem_words h, fun _ hc => not_isBlank_of_mem_words h hc⟩

theorem words_lay {fields : List (List Char)} {spacing : Spacing}
    (hwords : ∀ field ∈ fields, IsWord field) (hfits : spacing.Fits fields) :
    words (spacing.lay fields) = fields := by
  obtain ⟨lead, gaps⟩ := spacing
  obtain ⟨hlead, hgaps, hcount, hapart⟩ := hfits
  rw [Spacing.lay, words_blanks hlead]
  clear hlead
  induction fields generalizing gaps with
  | nil => simp [words]
  | cons field fields ih =>
    cases gaps with
    | nil => simp at hcount
    | cons gap gaps =>
      have hgap : AllBlank gap := hgaps gap List.mem_cons_self
      have hmore := ih (fun word hw => hwords word (List.mem_cons_of_mem field hw)) gaps
        (fun other ho => hgaps other (List.mem_cons_of_mem gap ho)) (by simpa using hcount)
      have hbreaks : Breaks (gap ++ (List.zipWith (· ++ ·) fields gaps).flatten) := by
        cases gaps with
        | nil => simpa using breaks_of_allBlank hgap
        | cons next gaps =>
          have hne : gap ≠ [] := hapart gap (by simp)
          obtain ⟨c, more, rfl⟩ := List.exists_cons_of_ne_nil hne
          have hfirst : Breaks (c :: more) := breaks_of_allBlank hgap
          exact hfirst
      have hrest : ∀ other ∈ gaps.dropLast, other ≠ [] := by
        intro other ho
        cases gaps with
        | nil => simp at ho
        | cons next gaps =>
          apply hapart other
          rw [List.dropLast_cons_cons]
          exact List.mem_cons_of_mem gap ho
      rw [List.zipWith_cons_cons, List.flatten_cons, List.append_assoc,
        words_word (hwords field List.mem_cons_self) hbreaks, words_blanks hgap, hmore hrest]

theorem exists_spacing (text : List Char) :
    ∃ spacing : Spacing, spacing.Fits (words text) ∧ spacing.lay (words text) = text ∧
      (Breaks text → words text ≠ [] → spacing.lead ≠ []) := by
  fun_induction words text with
  | case1 text hd =>
    have hblank := dropWhile_isBlank_eq_nil.mp hd
    exact ⟨⟨text, []⟩, ⟨hblank, by simp, rfl, by simp⟩, by simp [Spacing.lay], by simp⟩
  | case2 text c rest hd ih =>
    obtain ⟨lead, hlead, hword, hrest, htext⟩ := exists_word hd
    obtain ⟨⟨gap, gaps⟩, ⟨hgap, hgaps, hcount, hapart⟩, hlaid, hneeded⟩ := ih
    refine ⟨⟨lead, gap :: gaps⟩, ⟨hlead, ?_, ?_, ?_⟩, ?_, ?_⟩
    · exact List.forall_mem_cons.mpr ⟨hgap, hgaps⟩
    · simpa using hcount
    · -- A gap before another word is not empty, since the word before it had to end there.
      cases gaps with
      | nil => simp
      | cons next gaps =>
        have hmore : words (rest.dropWhile (!isBlank ·)) ≠ [] := by
          apply List.ne_nil_of_length_pos
          simp [← hcount]
        rw [List.dropLast_cons_cons]
        exact List.forall_mem_cons.mpr ⟨hneeded hrest hmore, hapart⟩
    · calc Spacing.lay ⟨lead, gap :: gaps⟩ (_ :: words (rest.dropWhile (!isBlank ·)))
        _ = lead ++ (c :: rest.takeWhile (!isBlank ·) ++
              Spacing.lay ⟨gap, gaps⟩ (words (rest.dropWhile (!isBlank ·)))) := by
          simp [Spacing.lay]
        _ = text := by rw [hlaid, ← htext]
    · rintro hbreaks - rfl
      have hblank : isBlank c = true := hbreaks c (by simp [htext])
      rw [hword.shows c List.mem_cons_self] at hblank
      cases hblank

/-- A text is its words with blanks around them, and it is no other words. -/
theorem words_iff {fields : List (List Char)} : Spaced text fields ↔ words text = fields := by
  constructor
  · rintro ⟨hwords, spacing, hfits, rfl⟩
    exact words_lay hwords hfits
  · rintro rfl
    obtain ⟨spacing, hfits, hlaid, -⟩ := exists_spacing text
    exact ⟨fun _ => isWord_of_mem_words, spacing, hfits, hlaid⟩

end LineShell.Text

namespace LineShell.CommandLine

open Text (AllBlank IsWord Spaced Spacing)

def fieldsIn (text : String) : List String := (parse text).elim [] fields

/-- A line is its fields with blanks around them, and nothing else of it matters. -/
structure Decomposes (text : String) : Prop where
  blank : parse text = none ↔ AllBlank text.toList
  fields_iff : ∀ line, parse text = some line ↔
    Spaced text.toList (line.fields.map String.toList)
  unique : ∀ fields, Spaced text.toList (fields.map String.toList) → fieldsIn text = fields
  named : ∀ line, parse text = some line →
    line.fields = line.name :: line.args ∧ IsWord line.name.toList
  rejoined : ∀ line, parse text = some line → ∀ spacing : Spacing,
    spacing.Fits (line.fields.map String.toList) →
    parse (String.ofList (spacing.lay (line.fields.map String.toList))) = some line
  joined : ∀ blanks other, AllBlank blanks → blanks ≠ [] →
    fieldsIn (text ++ String.ofList blanks ++ other) = fieldsIn text ++ fieldsIn other

-- ---------------------------------------------------------------------------
-- Fields as words
-- ---------------------------------------------------------------------------

theorem map_toList_inj {fields fields' : List String} :
    fields.map String.toList = fields'.map String.toList ↔ fields = fields' :=
  List.map_inj_right fun _ _ => String.toList_inj.mp

theorem map_toList_fieldsIn (text : String) :
    (fieldsIn text).map String.toList = Text.words text.toList := by
  have hback (words : List (List Char)) :
      (words.map String.ofList).map String.toList = words := by
    simp [Function.comp_def]
  rw [fieldsIn, parse]
  cases hwords : (Text.words text.toList).map String.ofList with
  | nil => simpa [ofFields?] using hwords
  | cons name args =>
    rw [← hback (Text.words text.toList), hwords]
    rfl

theorem fieldsIn_iff {text : String} {fields : List String} :
    fieldsIn text = fields ↔ Spaced text.toList (fields.map String.toList) := by
  rw [Text.words_iff, ← map_toList_fieldsIn, map_toList_inj]

theorem parse_iff_fieldsIn {text : String} {line : CommandLine} :
    parse text = some line ↔ fieldsIn text = line.fields := by
  rw [fieldsIn]
  cases hparse : parse text with
  | none => simp [fields]
  | some line' =>
    cases line
    cases line'
    simp [fields]

theorem parse_iff {text : String} {line : CommandLine} :
    parse text = some line ↔ Spaced text.toList (line.fields.map String.toList) := by
  rw [parse_iff_fieldsIn, fieldsIn_iff]

theorem fieldsIn_append {blanks : List Char} (h : AllBlank blanks) (hne : blanks ≠ [])
    (text other : String) :
    fieldsIn (text ++ String.ofList blanks ++ other) = fieldsIn text ++ fieldsIn other := by
  rw [← map_toList_inj, List.map_append, map_toList_fieldsIn, map_toList_fieldsIn,
    map_toList_fieldsIn, String.toList_append, String.toList_append, String.toList_ofList,
    List.append_assoc, Text.words_append _ h hne]

theorem parse_decomposes (text : String) : Decomposes text where
  blank := by
    have hblank : parse (String.ofList text.toList) = none ↔ AllBlank text.toList := parse_eq_none
    rwa [String.ofList_toList] at hblank
  fields_iff line := parse_iff
  unique fields h := fieldsIn_iff.mpr h
  named line h := ⟨rfl, (parse_iff.mp h).each _ (by simp [fields])⟩
  rejoined line h spacing hfits := by
    rw [parse_iff, String.toList_ofList]
    exact ⟨(parse_iff.mp h).each, spacing, hfits, rfl⟩
  joined blanks other h hne := fieldsIn_append h hne text other

example : parse "\u00a0copy\t\u200b \u3000b.txt\x0b\n" = some ⟨"copy", ["\u200b", "b.txt"]⟩ := by
  cbv

end LineShell.CommandLine
