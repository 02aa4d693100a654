import LineShell.Proofs.Text.Utf8

/-!
# Bytes as they are shown

Bytes that are no text are shown character by character, and where there is no character as much as
one could begin with is shown as U+FFFD: `shows_iff`. A text is shown as it is.
-/

namespace LineShell.Utf8

/-- The bytes are as much of a character as comes first. -/
def Begins (bytes : Bytes) : Prop := ∃ c, bytes <+: String.utf8EncodeChar c

/-- There is no character here, and the part is the longest that one could begin with, or else it
is one byte. -/
structure InvalidPart (part rest : Bytes) : Prop where
  nonempty : part ≠ []
  noCharacter : ∀ c, ¬ String.utf8EncodeChar c <+: part ++ rest
  begins : part.length = 1 ∨ Begins part
  longest : ∀ longer, longer <+: part ++ rest → Begins longer → longer.length ≤ part.length

inductive Shows : Bytes → List Char → Prop
  | nothing : Shows [] []
  | character {c : Char} {rest : Bytes} {text : List Char} : Shows rest text →
      Shows (String.utf8EncodeChar c ++ rest) (c :: text)
  | invalid {part rest : Bytes} {text : List Char} : InvalidPart part rest → Shows rest text →
      Shows (part ++ rest) ('\uFFFD' :: text)

-- ---------------------------------------------------------------------------
-- Beginnings of characters
-- ---------------------------------------------------------------------------

section
variable {b low high : UInt8} {lead : Lead} {more rest : Bytes} {n : Nat}

theorem Follows.append {after : Bytes} (h : Follows low high (more ++ after)) :
    Follows low high more := by
  induction more generalizing low high with
  | nil => trivial
  | cons x more ih => exact ⟨h.1, ih h.2⟩

theorem continuing_length_le (n : Nat) (low high : UInt8) (rest : Bytes) :
    (continuing n low high rest).length ≤ n := by
  fun_induction continuing n low high rest with
  | case1 n low high x rest hx ih => exact Nat.succ_le_succ ih
  | case2 | case3 => exact Nat.zero_le _

theorem length_le_continuing {after : Bytes} (h : Follows low high more) (hn : more.length ≤ n) :
    more.length ≤ (continuing n low high (more ++ after)).length := by
  induction more generalizing low high n with
  | nil => exact Nat.zero_le _
  | cons x more ih =>
    obtain ⟨n, rfl⟩ := Nat.exists_eq_succ_of_ne_zero (Nat.ne_of_gt (Nat.lt_of_lt_of_le
      (Nat.succ_pos _) hn))
    rw [List.cons_append, continuing, if_pos h.1]
    exact Nat.succ_le_succ (ih h.2 (Nat.le_of_succ_le_succ hn))

theorem exists_follows_usual (n : Nat) : ∃ more, more.length = n ∧ Follows 0x80 0xBF more :=
  ⟨List.replicate n 0x80, List.length_replicate, by
    induction n with
    | zero => trivial
    | succ n ih => exact ⟨by decide, ih⟩⟩

theorem Follows.extend (h : Follows low high more) (hb : low ≤ high) (hn : more.length ≤ n) :
    ∃ after, (more ++ after).length = n ∧ Follows low high (more ++ after) := by
  induction more generalizing low high n with
  | nil =>
    cases n with
    | zero => exact ⟨[], rfl, trivial⟩
    | succ n =>
      obtain ⟨after, hlength, hafter⟩ := exists_follows_usual n
      exact ⟨low :: after, by simp [hlength], ⟨UInt8.le_refl low, hb⟩, hafter⟩
  | cons x more ih =>
    cases n with
    | zero => cases hn
    | succ n =>
      obtain ⟨after, hlength, hafter⟩ := ih h.2 (by decide) (Nat.le_of_succ_le_succ hn)
      exact ⟨after, by simpa using hlength, h.1, hafter⟩

theorem Lead.low_le_high (h : Lead.ofByte? b = some lead) : lead.low ≤ lead.high := by
  simp only [Lead.ofByte?] at h
  repeat' split at h
  all_goals simp only [Option.some.injEq, reduceCtorEq] at h
  all_goals
    rw [← h]
    exact UInt8.le_iff_toNat_le.mpr (by simp)

theorem begins_iff : Begins (b :: more) ↔
    ∃ lead, Lead.ofByte? b = some lead ∧ Follows lead.low lead.high more ∧
      more.length ≤ lead.follow := by
  constructor
  · rintro ⟨c, after, hencode⟩
    obtain ⟨b', more', hencode', hwritten⟩ := exists_written c
    rw [hencode', List.cons_append, List.cons.injEq] at hencode
    obtain ⟨rfl, rfl⟩ := hencode
    obtain ⟨lead, hlead, ⟨hlength, hfollows⟩, -⟩ := hwritten.announced
    refine ⟨lead, hlead, hfollows.append, ?_⟩
    rw [← hlength, List.length_append]
    exact Nat.le_add_right _ _
  · rintro ⟨lead, hlead, hfollows, hlength⟩
    obtain ⟨after, hfull, hall⟩ := hfollows.extend (Lead.low_le_high hlead) hlength
    have hwritten := Lead.Announces.written hlead ⟨hfull, hall⟩
    exact ⟨_, after, by rw [hwritten.encode, List.cons_append]⟩

-- ---------------------------------------------------------------------------
-- Parts that are no character
-- ---------------------------------------------------------------------------

theorem noCharacter_of_part (h : part b rest = (none, n)) (c : Char) :
    ¬ String.utf8EncodeChar c <+: b :: rest := by
  rintro ⟨after, hencode⟩
  obtain ⟨b', more, hencode', -⟩ := exists_written c
  rw [hencode', List.cons_append, List.cons.injEq] at hencode
  obtain ⟨rfl, rfl⟩ := hencode
  have hpart := part_eq_some_iff.mpr ⟨more, after, hencode', rfl, rfl⟩
  cases h.symm.trans hpart

theorem invalidPart_of_part (h : part b rest = (none, n)) :
    ∃ more after, rest = more ++ after ∧ more.length = n ∧ InvalidPart (b :: more) after := by
  cases hlead : Lead.ofByte? b with
  | none =>
    have hn : n = 0 := by simpa [part, hlead, eq_comm] using h
    refine ⟨[], rest, rfl, hn.symm, by simp, noCharacter_of_part h, .inl rfl, ?_⟩
    rintro (_ | ⟨x, longer⟩) hprefix hbegins
    · simp
    · obtain ⟨rfl, -⟩ := List.cons_prefix_cons.mp hprefix
      obtain ⟨lead, hlead', -⟩ := begins_iff.mp hbegins
      cases hlead.symm.trans hlead'
  | some lead =>
    obtain ⟨hfollows, after, hafter⟩ := continuing_follows lead.follow lead.low lead.high rest
    have hn : (continuing lead.follow lead.low lead.high rest).length = n := by
      simp only [part, hlead, Prod.mk.injEq] at h
      exact h.2
    have hwhole : b :: continuing lead.follow lead.low lead.high rest ++ after = b :: rest := by
      rw [List.cons_append, ← hafter]
    refine ⟨_, after, hafter, hn, by simp, ?_, .inr ?_, ?_⟩
    · rw [hwhole]
      exact noCharacter_of_part h
    · exact begins_iff.mpr ⟨lead, hlead, hfollows, continuing_length_le _ _ _ _⟩
    · rw [hwhole]
      rintro (_ | ⟨x, longer⟩) hprefix hbegins
      · simp
      · obtain ⟨rfl, behind, rfl⟩ := List.cons_prefix_cons.mp hprefix
        obtain ⟨lead', hlead', hfollows', hlength⟩ := begins_iff.mp hbegins
        obtain rfl := Option.some.inj (hlead.symm.trans hlead')
        exact Nat.succ_le_succ (length_le_continuing hfollows' hlength)

theorem InvalidPart.length_le {first second after after' : Bytes} (h : InvalidPart first after)
    (h' : InvalidPart second after') (hsame : first ++ after = second ++ after') :
    first.length ≤ second.length := by
  rcases h.begins with hone | hbegins
  · rw [hone]
    exact List.length_pos_iff.mpr h'.nonempty
  · exact h'.longest first (hsame ▸ List.prefix_append first after) hbegins

theorem InvalidPart.part {after : Bytes} (h : InvalidPart (b :: more) after) :
    Utf8.part b (more ++ after) = (none, more.length) := by
  rcases hpart : Utf8.part b (more ++ after) with ⟨_ | c, n⟩
  · obtain ⟨more', after', hrest, hn, h'⟩ := invalidPart_of_part hpart
    have hsame : b :: more ++ after = b :: more' ++ after' := congrArg (b :: ·) hrest
    have hle := h.length_le h' hsame
    have hge := h'.length_le h hsame.symm
    simp only [List.length_cons] at hle hge
    rw [show n = more.length by omega]
  · obtain ⟨more', after', hencode, hrest, -⟩ := part_eq_some_iff.mp hpart
    refine absurd ⟨after', ?_⟩ (h.noCharacter c)
    rw [hencode, List.cons_append, ← hrest, List.cons_append]

end

-- ---------------------------------------------------------------------------
-- All bytes
-- ---------------------------------------------------------------------------

variable {bytes : Bytes} {text : List Char}

theorem display_of_part {b : UInt8} {more rest : Bytes} {c? : Option Char}
    (h : part b (more ++ rest) = (c?, more.length)) :
    display (b :: more ++ rest) = c?.getD '\uFFFD' :: display rest := by
  rw [display, List.cons_append, parts, h, List.drop_left, List.map_cons, ← display]

theorem Shows.display (h : Shows bytes text) : display bytes = text := by
  induction h with
  | nothing => simp [Utf8.display, parts]
  | @character c rest text _ ih =>
    obtain ⟨b, more, hencode, -⟩ := exists_written c
    have hpart : part b (more ++ rest) = (some c, more.length) :=
      part_eq_some_iff.mpr ⟨more, rest, hencode, rfl, rfl⟩
    rw [hencode, display_of_part hpart, ih, Option.getD_some]
  | @invalid bytes rest text hinvalid _ ih =>
    obtain ⟨b, more, rfl⟩ := List.exists_cons_of_ne_nil hinvalid.nonempty
    rw [display_of_part hinvalid.part, ih, Option.getD_none]

theorem shows_display (bytes : Bytes) : Shows bytes (display bytes) := by
  unfold display
  fun_induction parts bytes with
  | case1 => exact .nothing
  | case2 b rest ih =>
    rcases hpart : part b rest with ⟨_ | c, n⟩
    · obtain ⟨more, after, rfl, rfl, hinvalid⟩ := invalidPart_of_part hpart
      rw [hpart, List.drop_left] at ih
      simp only [List.drop_left, List.map_cons, Option.getD_none]
      exact .invalid hinvalid ih
    · obtain ⟨more, after, hencode, rfl, rfl⟩ := part_eq_some_iff.mp hpart
      rw [hpart, List.drop_left] at ih
      simp only [List.drop_left, List.map_cons, Option.getD_some]
      have hshows := Shows.character (c := c) ih
      rwa [hencode] at hshows

theorem shows_iff : Shows bytes text ↔ display bytes = text :=
  ⟨Shows.display, fun h => h ▸ shows_display bytes⟩

theorem shows_encode (text : List Char) : Shows (encode text) text := by
  induction text with
  | nil => exact .nothing
  | cons c text ih => exact .character ih

theorem encode_injective : Function.Injective encode := fun text other h =>
  Option.some.inj ((decode?_encode text).symm.trans (h ▸ decode?_encode other))

end LineShell.Utf8

namespace LineShell

theorem shown_of_shows {bytes : Bytes} {text : String} (h : Utf8.Shows bytes text.toList) :
    shown bytes = text := by
  rw [shown, h.display, String.ofList_toList]

theorem shows_shown (bytes : Bytes) : Utf8.Shows bytes (shown bytes).toList := by
  rw [shown, String.toList_ofList]
  exact Utf8.shows_display bytes

@[simp] theorem shown_bytesOf (text : String) : shown (bytesOf text) = text := by
  rw [shown, bytesOf, (Utf8.shows_encode text.toList).display, String.ofList_toList]

theorem bytesOf_inj {text other : String} : bytesOf text = bytesOf other ↔ text = other :=
  ⟨fun h => String.toList_inj.mp (Utf8.encode_injective h), congrArg bytesOf⟩

example : shown [0x61, 0xE2, 0x82, 0x28, 0xC0, 0xAF] = "a\uFFFD(\uFFFD\uFFFD" := by cbv

end LineShell
