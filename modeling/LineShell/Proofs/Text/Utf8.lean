import LineShell.Text.Utf8

/-!
# Valid UTF-8

Which bytes are a text: `decode?_eq_some_iff` says that decoding undoes encoding and accepts
nothing else. A character is written in one way, so no two texts are the same bytes.
-/

namespace LineShell.Utf8

-- ---------------------------------------------------------------------------
-- First bytes
-- ---------------------------------------------------------------------------

section
variable {b : UInt8}

theorem Lead.ofByte?_one (h : b.toNat < 0x80) :
    Lead.ofByte? b = some ⟨b.toNat, 0, 0x80, 0xBF⟩ := by
  simp [Lead.ofByte?, h]

theorem Lead.ofByte?_two (h : 0xC2 ≤ b.toNat ∧ b.toNat < 0xE0) :
    Lead.ofByte? b = some ⟨b.toNat - 0xC0, 1, 0x80, 0xBF⟩ := by
  unfold Lead.ofByte?
  simp (disch := omega) only [if_neg, if_pos]

theorem Lead.ofByte?_three (h : 0xE0 ≤ b.toNat ∧ b.toNat < 0xF0) :
    Lead.ofByte? b = some ⟨b.toNat - 0xE0, 2, if b.toNat = 0xE0 then 0xA0 else 0x80,
      if b.toNat = 0xED then 0x9F else 0xBF⟩ := by
  unfold Lead.ofByte?
  simp (disch := omega) only [if_neg]
  split
  · simp [*]
  · split
    · simp [*]
    · simp [h.2]

theorem Lead.ofByte?_four (h : 0xF0 ≤ b.toNat ∧ b.toNat < 0xF5) :
    Lead.ofByte? b = some ⟨b.toNat - 0xF0, 3, if b.toNat = 0xF0 then 0x90 else 0x80,
      if b.toNat = 0xF4 then 0x8F else 0xBF⟩ := by
  unfold Lead.ofByte?
  simp (disch := omega) only [if_neg]
  split
  · simp [*]
  · split
    · rw [if_neg (by omega)]
    · have hlast : b.toNat = 0xF4 := by omega
      simp [hlast]

theorem Lead.ofByte?_none (h : 0x80 ≤ b.toNat ∧ b.toNat < 0xC2 ∨ 0xF5 ≤ b.toNat) :
    Lead.ofByte? b = none := by
  unfold Lead.ofByte?
  rcases h with ⟨h, h'⟩ | h
  · rw [if_neg (by omega), if_pos h']
  · simp (disch := omega) only [if_neg]

end

-- ---------------------------------------------------------------------------
-- Bytes that go on with a character
-- ---------------------------------------------------------------------------

/-- Bytes that continue a character, the first of them between bounds. -/
def Follows : UInt8 → UInt8 → Bytes → Prop
  | _, _, [] => True
  | low, high, x :: more => (low ≤ x ∧ x ≤ high) ∧ Follows 0x80 0xBF more

theorem continuing_append {low high : UInt8} {more : Bytes} (h : Follows low high more)
    (after : Bytes) : continuing more.length low high (more ++ after) = more := by
  induction more generalizing low high with
  | nil => rfl
  | cons x more ih => rw [List.length_cons, List.cons_append, continuing, if_pos h.1, ih h.2]

theorem continuing_follows (n : Nat) (low high : UInt8) (rest : Bytes) :
    Follows low high (continuing n low high rest) ∧
      ∃ after, rest = continuing n low high rest ++ after := by
  fun_induction continuing n low high rest with
  | case1 n low high x rest hx ih =>
    obtain ⟨hfollows, after, hafter⟩ := ih
    exact ⟨⟨hx, hfollows⟩, after, by rw [List.cons_append, ← hafter]⟩
  | case2 => exact ⟨trivial, _, rfl⟩
  | case3 => exact ⟨trivial, _, rfl⟩

/-- The number that a character's bytes add to. -/
def Lead.number (lead : Lead) (more : Bytes) : Nat :=
  more.foldl (fun acc x => acc * 64 + x.toNat % 64) lead.bits

structure Lead.Announces (lead : Lead) (more : Bytes) : Prop where
  length : more.length = lead.follow
  follows : Follows lead.low lead.high more

variable {b : UInt8} {lead : Lead} {more rest : Bytes} {c : Char}

theorem part_of_announces (h : Lead.ofByte? b = some lead) (hmore : lead.Announces more)
    (after : Bytes) :
    part b (more ++ after) = (some (Char.ofNat (lead.number more)), more.length) := by
  have hexact := continuing_append hmore.follows after
  rw [hmore.length] at hexact
  simp only [part, h, hexact, if_pos hmore.length, Lead.number]

theorem announces_of_part {n : Nat} (h : part b rest = (some c, n)) :
    ∃ lead more after, Lead.ofByte? b = some lead ∧ lead.Announces more ∧
      rest = more ++ after ∧ n = more.length ∧ c = Char.ofNat (lead.number more) := by
  unfold part at h
  cases hlead : Lead.ofByte? b with
  | none => simp [hlead] at h
  | some lead =>
    obtain ⟨hfollows, after, hafter⟩ := continuing_follows lead.follow lead.low lead.high rest
    simp only [hlead] at h
    split at h
    · next hlength =>
      simp only [Prod.mk.injEq, Option.some.injEq] at h
      exact ⟨lead, _, after, rfl, ⟨hlength, hfollows⟩, hafter, h.2.symm, h.1.symm⟩
    · simp at h

-- ---------------------------------------------------------------------------
-- One character
-- ---------------------------------------------------------------------------

def Carries (x : UInt8) (bits : Nat) : Prop := x.toNat = 0x80 + bits ∧ bits < 0x40

/-- How the number of a character is written, in no more bytes than it needs. -/
inductive Written : Nat → UInt8 → Bytes → Prop
  | one {b : UInt8} {v : Nat} : v < 0x80 → b.toNat = v → Written v b []
  | two {b x : UInt8} {v : Nat} : 0x80 ≤ v → v < 0x800 → b.toNat = 0xC0 + v / 0x40 →
      Carries x (v % 0x40) → Written v b [x]
  | three {b x y : UInt8} {v : Nat} : 0x800 ≤ v → v < 0xD800 ∨ 0xE000 ≤ v → v < 0x10000 →
      b.toNat = 0xE0 + v / 0x1000 → Carries x (v / 0x40 % 0x40) → Carries y (v % 0x40) →
      Written v b [x, y]
  | four {b x y z : UInt8} {v : Nat} : 0x10000 ≤ v → v < 0x110000 → b.toNat = 0xF0 + v / 0x40000 →
      Carries x (v / 0x1000 % 0x40) → Carries y (v / 0x40 % 0x40) → Carries z (v % 0x40) →
      Written v b [x, y, z]

theorem Written.isValidChar {v : Nat} (h : Written v b more) : v.isValidChar := by
  cases h <;> simp only [Nat.isValidChar] <;> omega

theorem toNat_ofNat {v : Nat} (h : v.isValidChar) : (Char.ofNat v).toNat = v := by
  rw [Char.ofNat, dif_pos h]
  rfl

theorem ofNat_of_toNat {b : UInt8} {n : Nat} (h : b.toNat = n) : UInt8.ofNat n = b := by
  rw [← h, UInt8.ofNat_toNat]

theorem Carries.ofNat {x : UInt8} {n : Nat} (h : Carries x n) : UInt8.ofNat (n + 0x80) = x :=
  ofNat_of_toNat (h.1.trans (Nat.add_comm _ _))

theorem carries_ofNat {n : Nat} (h : n < 0x40) : Carries (UInt8.ofNat (n + 0x80)) n := by
  refine ⟨?_, h⟩
  rw [UInt8.toNat_ofNat']
  omega

theorem Written.encode {v : Nat} (h : Written v b more) :
    String.utf8EncodeChar (Char.ofNat v) = b :: more := by
  have hv : (Char.ofNat v).val.toNat = v := toNat_ofNat h.isValidChar
  simp only [String.utf8EncodeChar, hv]
  cases h with
  | one hlt hb => rw [if_pos (by omega), ofNat_of_toNat hb]
  | two hle hlt hb hx =>
    have hfirst : UInt8.ofNat (v / 64 % 32 + 192) = b := ofNat_of_toNat (by omega)
    rw [if_neg (by omega), if_pos (by omega), hfirst, hx.ofNat]
  | three hle hno hlt hb hx hy =>
    have hfirst : UInt8.ofNat (v / 4096 % 16 + 224) = b := ofNat_of_toNat (by omega)
    rw [if_neg (by omega), if_neg (by omega), if_pos (by omega), hfirst, hx.ofNat, hy.ofNat]
  | four hle hlt hb hx hy hz =>
    have hfirst : UInt8.ofNat (v / 262144 % 8 + 240) = b := ofNat_of_toNat (by omega)
    rw [if_neg (by omega), if_neg (by omega), if_neg (by omega), hfirst, hx.ofNat, hy.ofNat,
      hz.ofNat]

theorem exists_written (c : Char) :
    ∃ b more, String.utf8EncodeChar c = b :: more ∧ Written c.toNat b more := by
  have hvalid : c.toNat < 0xD800 ∨ 0xDFFF < c.toNat ∧ c.toNat < 0x110000 := c.valid
  have hlast : c.toNat % 64 < 0x40 := Nat.mod_lt _ (by decide)
  have hmiddle : c.toNat / 64 % 64 < 0x40 := Nat.mod_lt _ (by decide)
  have hfirst : c.toNat / 4096 % 64 < 0x40 := Nat.mod_lt _ (by decide)
  simp only [String.utf8EncodeChar, Char.toNat_val]
  split
  · refine ⟨_, _, rfl, .one (by omega) ?_⟩
    rw [UInt8.toNat_ofNat']
    omega
  · split
    · refine ⟨_, _, rfl, .two (by omega) (by omega) ?_ (carries_ofNat hlast)⟩
      rw [UInt8.toNat_ofNat']
      omega
    · split
      · refine ⟨_, _, rfl, .three (by omega) (by omega) (by omega) ?_ (carries_ofNat hmiddle)
          (carries_ofNat hlast)⟩
        rw [UInt8.toNat_ofNat']
        omega
      · refine ⟨_, _, rfl, .four (by omega) (by omega) ?_ (carries_ofNat hfirst)
          (carries_ofNat hmiddle) (carries_ofNat hlast)⟩
        rw [UInt8.toNat_ofNat']
        omega

theorem carries_iff {x : UInt8} : (0x80 ≤ x ∧ x ≤ 0xBF) ↔ ∃ n, Carries x n := by
  simp only [Carries, UInt8.le_iff_toNat_le, UInt8.reduceToNat]
  constructor
  · intro h
    exact ⟨x.toNat - 0x80, by omega, by omega⟩
  · rintro ⟨n, hx, hn⟩
    omega

theorem between_iff {p q : Prop} [Decidable p] [Decidable q] {low high x : UInt8}
    (hlow : 0x80 ≤ low.toNat) (hhigh : high.toNat ≤ 0xBF) :
    ((if p then low else 0x80) ≤ x ∧ x ≤ if q then high else 0xBF) ↔
      Carries x (x.toNat - 0x80) ∧ (p → low.toNat ≤ x.toNat) ∧ (q → x.toNat ≤ high.toNat) := by
  by_cases hp : p <;> by_cases hq : q
  all_goals
    simp only [Carries, UInt8.le_iff_toNat_le, UInt8.reduceToNat, hp, hq, if_true, if_false,
      forall_const, false_implies, and_true, true_and]
    omega

theorem Carries.congr {x : UInt8} {m n : Nat} (h : Carries x n) (heq : m = n) : Carries x m :=
  heq ▸ h

theorem Carries.mod {x : UInt8} {n : Nat} (h : Carries x n) : x.toNat % 64 = n := by
  obtain ⟨hx, hn⟩ := h
  omega

theorem Written.announced {v : Nat} (h : Written v b more) :
    ∃ lead, Lead.ofByte? b = some lead ∧ lead.Announces more ∧ lead.number more = v := by
  cases h with
  | one hlt hb => exact ⟨_, Lead.ofByte?_one (by omega), ⟨rfl, trivial⟩, hb⟩
  | two hle hlt hb hx =>
    refine ⟨_, Lead.ofByte?_two (by omega), ⟨rfl, carries_iff.mpr ⟨_, hx⟩, trivial⟩, ?_⟩
    simp only [Lead.number, List.foldl_cons, List.foldl_nil, hx.mod]
    omega
  | three hle hno hlt hb hx hy =>
    refine ⟨_, Lead.ofByte?_three (by omega), ⟨rfl, ?_, carries_iff.mpr ⟨_, hy⟩, trivial⟩, ?_⟩
    · obtain ⟨hx, hn⟩ := hx
      rw [between_iff (by decide) (by decide)]
      simp only [Carries, UInt8.reduceToNat]
      omega
    · simp only [Lead.number, List.foldl_cons, List.foldl_nil, hx.mod, hy.mod]
      omega
  | four hle hlt hb hx hy hz =>
    refine ⟨_, Lead.ofByte?_four (by omega),
      ⟨rfl, ?_, carries_iff.mpr ⟨_, hy⟩, carries_iff.mpr ⟨_, hz⟩, trivial⟩, ?_⟩
    · obtain ⟨hx, hn⟩ := hx
      rw [between_iff (by decide) (by decide)]
      simp only [Carries, UInt8.reduceToNat]
      omega
    · simp only [Lead.number, List.foldl_cons, List.foldl_nil, hx.mod, hy.mod, hz.mod]
      omega

theorem written_two {x : UInt8} (hb : 0xC2 ≤ b.toNat ∧ b.toNat < 0xE0)
    (hx : 0x80 ≤ x ∧ x ≤ 0xBF) : Written ((b.toNat - 0xC0) * 64 + x.toNat % 64) b [x] := by
  obtain ⟨n, hx⟩ := carries_iff.mp hx
  have hn := hx.2
  rw [hx.mod]
  exact .two (by omega) (by omega) (by omega) (hx.congr (by omega))

/-- The narrower bounds leave out the numbers that two bytes are enough for, and the surrogates. -/
theorem written_three {x y : UInt8} (hb : 0xE0 ≤ b.toNat ∧ b.toNat < 0xF0)
    (hx : (if b.toNat = 0xE0 then 0xA0 else 0x80) ≤ x ∧ x ≤ if b.toNat = 0xED then 0x9F else 0xBF)
    (hy : 0x80 ≤ y ∧ y ≤ 0xBF) :
    Written (((b.toNat - 0xE0) * 64 + x.toNat % 64) * 64 + y.toNat % 64) b [x, y] := by
  obtain ⟨hx, hlow, hhigh⟩ := (between_iff (by decide) (by decide)).mp hx
  obtain ⟨m, hy⟩ := carries_iff.mp hy
  simp only [UInt8.reduceToNat] at hlow hhigh
  have hn := hx.2
  have hm := hy.2
  rw [hx.mod, hy.mod]
  exact .three (by omega) (by omega) (by omega) (by omega) (hx.congr (by omega))
    (hy.congr (by omega))

/-- Here they leave out the numbers that three bytes are enough for, and those of no character. -/
theorem written_four {x y z : UInt8} (hb : 0xF0 ≤ b.toNat ∧ b.toNat < 0xF5)
    (hx : (if b.toNat = 0xF0 then 0x90 else 0x80) ≤ x ∧ x ≤ if b.toNat = 0xF4 then 0x8F else 0xBF)
    (hy : 0x80 ≤ y ∧ y ≤ 0xBF) (hz : 0x80 ≤ z ∧ z ≤ 0xBF) :
    Written ((((b.toNat - 0xF0) * 64 + x.toNat % 64) * 64 + y.toNat % 64) * 64 + z.toNat % 64) b
      [x, y, z] := by
  obtain ⟨hx, hlow, hhigh⟩ := (between_iff (by decide) (by decide)).mp hx
  obtain ⟨m, hy⟩ := carries_iff.mp hy
  obtain ⟨k, hz⟩ := carries_iff.mp hz
  simp only [UInt8.reduceToNat] at hlow hhigh
  have hn := hx.2
  have hm := hy.2
  have hk := hz.2
  rw [hx.mod, hy.mod, hz.mod]
  exact .four (by omega) (by omega) (by omega) (hx.congr (by omega)) (hy.congr (by omega))
    (hz.congr (by omega))

theorem Lead.Announces.written (h : Lead.ofByte? b = some lead) (hmore : lead.Announces more) :
    Written (lead.number more) b more := by
  obtain ⟨hlength, hfollows⟩ := hmore
  by_cases h1 : b.toNat < 0x80
  · obtain rfl := Option.some.inj ((Lead.ofByte?_one h1).symm.trans h)
    obtain rfl := List.length_eq_zero_iff.mp hlength
    exact .one h1 rfl
  by_cases h2 : 0xC2 ≤ b.toNat ∧ b.toNat < 0xE0
  · obtain rfl := Option.some.inj ((Lead.ofByte?_two h2).symm.trans h)
    match more, hlength, hfollows with
    | [x], _, ⟨hx, _⟩ => exact written_two h2 hx
  by_cases h3 : 0xE0 ≤ b.toNat ∧ b.toNat < 0xF0
  · obtain rfl := Option.some.inj ((Lead.ofByte?_three h3).symm.trans h)
    match more, hlength, hfollows with
    | [x, y], _, ⟨hx, hy, _⟩ => exact written_three h3 hx hy
  by_cases h4 : 0xF0 ≤ b.toNat ∧ b.toNat < 0xF5
  · obtain rfl := Option.some.inj ((Lead.ofByte?_four h4).symm.trans h)
    match more, hlength, hfollows with
    | [x, y, z], _, ⟨hx, hy, hz, _⟩ => exact written_four h4 hx hy hz
  · rw [Lead.ofByte?_none (by omega)] at h
    cases h

-- ---------------------------------------------------------------------------
-- Texts
-- ---------------------------------------------------------------------------

theorem part_eq_some_iff {n : Nat} : part b rest = (some c, n) ↔
    ∃ more after, String.utf8EncodeChar c = b :: more ∧ rest = more ++ after ∧ n = more.length := by
  constructor
  · intro h
    obtain ⟨lead, more, after, hlead, hmore, hrest, hn, hc⟩ := announces_of_part h
    exact ⟨more, after, hc ▸ (hmore.written hlead).encode, hrest, hn⟩
  · rintro ⟨more, after, hencode, rfl, rfl⟩
    obtain ⟨b', more', hencode', hwritten⟩ := exists_written c
    obtain ⟨rfl, rfl⟩ := List.cons.inj (hencode'.symm.trans hencode)
    obtain ⟨lead, hlead, hmore, hnumber⟩ := hwritten.announced
    rw [part_of_announces hlead hmore, hnumber, Char.ofNat_toNat]

theorem decode?_encode (text : List Char) : decode? (encode text) = some text := by
  induction text with
  | nil => simp [encode, decode?, parts]
  | cons c text ih =>
    obtain ⟨b, more, hencode, -⟩ := exists_written c
    have hpart : part b (more ++ encode text) = (some c, more.length) :=
      part_eq_some_iff.mpr ⟨more, _, hencode, rfl, rfl⟩
    rw [decode?] at ih
    rw [encode, List.flatMap_cons, hencode, List.cons_append, decode?, parts, ← encode, hpart,
      List.drop_left, List.mapM_cons, ih]
    rfl

/-- Decoding undoes encoding and accepts nothing else. -/
theorem decode?_eq_some_iff {bytes : Bytes} {text : List Char} :
    decode? bytes = some text ↔ encode text = bytes := by
  constructor
  · intro h
    unfold decode? at h
    -- Along the parts: each of them has to be a character, written as it stands.
    fun_induction parts bytes generalizing text with
    | case1 =>
      obtain rfl : [] = text := by simpa using h
      rfl
    | case2 b rest ih =>
      rw [List.mapM_cons] at h
      obtain ⟨c, hc, text, htext, heq⟩ : ∃ c, (part b rest).1 = some c ∧ ∃ after,
          (parts (rest.drop (part b rest).2)).mapM id = some after ∧ c :: after = text := by
        simpa [Option.bind_eq_some_iff] using h
      subst heq
      have hpart : part b rest = (some c, (part b rest).2) := Prod.ext hc rfl
      obtain ⟨more, after, hencode, hrest, hn⟩ := part_eq_some_iff.mp hpart
      have hafter := ih htext
      rw [hn, hrest, List.drop_left] at hafter
      rw [encode, List.flatMap_cons, ← encode, hencode, hafter, hrest, List.cons_append]
  · rintro rfl
    exact decode?_encode text

end LineShell.Utf8
