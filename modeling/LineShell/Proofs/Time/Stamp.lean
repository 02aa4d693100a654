import LineShell.Proofs.Text.Digits
import LineShell.Proofs.Text.Shown
import LineShell.Proofs.Time.Calendar
import LineShell.Time.Clock
import Mathlib.Data.Set.Function
import Mathlib.Logic.ExistsUnique

/-!
# What a stamp says

The text of a local date and time is read back: the month by its name, numbers by their digits.
`Clock.Lawful` is what a library promises of local time and of its texts. It says nothing of the
text for a year that is no number of 32 bits, and such years there are, since years are kept as
they are counted from 1900. Of all other counts of seconds the text tells which count it was, and
the room it is written into is never too small.
-/

namespace LineShell.Time

-- ---------------------------------------------------------------------------
-- Numbers
-- ---------------------------------------------------------------------------

def number? (cs : List Char) : Option Nat :=
  if cs ≠ [] ∧ cs.all Char.isDigit then some (Nat.ofDigitChars 10 cs 0) else none

def integer? : List Char → Option Int
  | '-' :: cs => (number? cs).map fun n => -(n : Int)
  | cs => (number? cs).map Int.ofNat

def pair? (cs : List Char) : Option Nat := if cs.length = 2 then number? cs else none

theorem number?_toDigits (n : Nat) : number? (Nat.toDigits 10 n) = some n := by
  have hdigits : (Nat.toDigits 10 n).all Char.isDigit :=
    List.all_eq_true.mpr fun _ => Text.isDigit_of_mem_toDigits
  rw [number?, if_pos ⟨Nat.toDigits_ne_nil, hdigits⟩, Nat.ofDigitChars_ten_toDigits]

theorem number?_zero_cons (cs : List Char) (h : cs ≠ []) : number? ('0' :: cs) = number? cs := by
  simp [number?, h, Nat.ofDigitChars]

theorem toString_ofNat (n : Nat) : (toString (n : Int)).toList = Nat.toDigits 10 n :=
  Nat.toList_repr

theorem toString_negSucc (n : Nat) :
    (toString (Int.negSucc n)).toList = '-' :: Nat.toDigits 10 (n + 1) := by
  change ("-" ++ (n + 1).repr).toList = _
  rw [String.toList_append, Nat.toList_repr]
  rfl

theorem integer?_toString (n : Int) : integer? (toString n).toList = some n := by
  cases n with
  | ofNat n =>
    rw [Int.ofNat_eq_natCast, toString_ofNat]
    have hsign := Text.not_mem_toDigits (c := '-') rfl n
    have hread := number?_toDigits n
    cases hds : Nat.toDigits 10 n with
    | nil => exact absurd hds Nat.toDigits_ne_nil
    | cons d ds =>
      rw [hds] at hsign hread
      have hne : d ≠ '-' := fun heq => hsign (heq ▸ List.mem_cons_self)
      rw [integer?, hread]
      · rfl
      · intro cs heq
        exact hne (List.cons.inj heq).1
  | negSucc n =>
    rw [toString_negSucc, integer?, number?_toDigits]
    rfl

theorem toList_twoDigits (n : Nat) :
    (twoDigits n).toList = if n < 10 then '0' :: Nat.toDigits 10 n else Nat.toDigits 10 n := by
  unfold twoDigits
  split
  · rw [String.toList_append]
    exact congrArg ('0' :: ·) Nat.toList_repr
  · exact Nat.toList_repr

theorem length_twoDigits {n : Nat} (h : n < 100) : (twoDigits n).toList.length = 2 := by
  rw [toList_twoDigits]
  split
  · next hlt =>
    rw [Nat.toDigits_of_lt_base hlt]
    rfl
  · next hge =>
    have hle : (Nat.toDigits 10 n).length ≤ 2 :=
      (Nat.length_toDigits_le_iff (by decide) (by decide)).mpr h
    have hgt : ¬ (Nat.toDigits 10 n).length ≤ 1 := fun hle =>
      hge ((Nat.length_toDigits_le_iff (by decide) (by decide)).mp hle)
    omega

theorem pair?_twoDigits {n : Nat} (h : n < 100) : pair? (twoDigits n).toList = some n := by
  rw [pair?, if_pos (length_twoDigits h), toList_twoDigits]
  split
  · rw [number?_zero_cons _ Nat.toDigits_ne_nil, number?_toDigits]
  · exact number?_toDigits n

-- ---------------------------------------------------------------------------
-- Dates
-- ---------------------------------------------------------------------------

def month? (name : List Char) : Option Nat := (monthNames.idxOf? (String.ofList name)).map (· + 1)

/-- The date and time of day of a text such as `Mar 04 2024 17:05:09`. -/
def Civil.ofText? (text : String) : Option Civil :=
  match Text.pieces ' ' text.toList with
  | [month, day, year, time] =>
    match Text.pieces ':' time with
    | [hour, minute, second] => do
      let month ← month? month
      return ⟨← integer? year, month, ← pair? day, ← pair? hour, ← pair? minute, ← pair? second⟩
    | _ => none
  | _ => none

def monthName (month : Nat) : List Char := (monthNames.getD (month - 1) "").toList

def Civil.timeOfDay (c : Civil) : List Char :=
  [':'].intercalate
    [(twoDigits c.hour).toList, (twoDigits c.minute).toList, (twoDigits c.second).toList]

theorem Civil.toList_textWith (c : Civil) (year : Int) : (c.textWith year).toList =
    [' '].intercalate
      [monthName c.month, (twoDigits c.day).toList, (toString year).toList, c.timeOfDay] := by
  simp only [Civil.textWith, Civil.timeOfDay, monthName, String.toList_append,
    List.intercalate_cons_cons, List.intercalate_singleton, List.append_assoc]
  rfl

theorem month?_monthName {month : Nat} (h : 1 ≤ month) (h' : month ≤ 12) :
    month? (monthName month) = some month := by
  interval_cases month <;> decide

def IsNumeral (c : Char) : Prop := c.isDigit ∨ c = '-'

theorem isNumeral_toString {n : Int} {c : Char} (h : c ∈ (toString n).toList) : IsNumeral c := by
  cases n with
  | ofNat n =>
    rw [Int.ofNat_eq_natCast, toString_ofNat] at h
    exact .inl (Text.isDigit_of_mem_toDigits h)
  | negSucc n =>
    rw [toString_negSucc] at h
    rcases List.mem_cons.mp h with rfl | h
    · exact .inr rfl
    · exact .inl (Text.isDigit_of_mem_toDigits h)

theorem isNumeral_twoDigits {n : Nat} {c : Char} (h : c ∈ (twoDigits n).toList) : IsNumeral c := by
  rw [toList_twoDigits] at h
  split at h
  · rcases List.mem_cons.mp h with rfl | h
    · exact .inl rfl
    · exact .inl (Text.isDigit_of_mem_toDigits h)
  · exact .inl (Text.isDigit_of_mem_toDigits h)

theorem not_isNumeral_blank : ¬ IsNumeral ' ' := by unfold IsNumeral; decide

theorem not_isNumeral_colon : ¬ IsNumeral ':' := by unfold IsNumeral; decide

theorem IsNumeral.val_le {c : Char} (h : IsNumeral c) : c.val ≤ 127 := by
  rcases h with h | rfl
  · exact Nat.le_trans (Char.isDigit_iff_toNat.mp h).2 (by decide)
  · decide

theorem monthName_cases (month : Nat) :
    monthName month = [] ∨ ∃ name ∈ monthNames, monthName month = name.toList := by
  unfold monthName
  rw [List.getD_eq_getElem?_getD]
  cases hname : monthNames[month - 1]? with
  | none => exact .inl rfl
  | some name => exact .inr ⟨name, List.mem_of_getElem? hname, rfl⟩

theorem monthName_plain {month : Nat} {c : Char} (h : c ∈ monthName month) :
    c ≠ ' ' ∧ c.val ≤ 127 := by
  have hall : monthNames.all fun name => name.toList.all fun c => c ≠ ' ' ∧ c.val ≤ 127 := rfl
  rcases monthName_cases month with hnone | ⟨name, hmem, hname⟩
  · rw [hnone] at h
    cases h
  · rw [hname] at h
    simpa using List.all_eq_true.mp (List.all_eq_true.mp hall name hmem) c h

theorem length_monthName (month : Nat) : (monthName month).length ≤ 3 := by
  have hall : ∀ name ∈ monthNames, name.toList.length ≤ 3 := by decide
  rcases monthName_cases month with hnone | ⟨name, hmem, hname⟩
  · rw [hnone]
    exact Nat.zero_le 3
  · rw [hname]
    exact hall name hmem

theorem Civil.mem_timeOfDay {c : Civil} {ch : Char} (h : ch ∈ c.timeOfDay) :
    ch = ':' ∨ IsNumeral ch := by
  rcases Text.mem_intercalate h with rfl | ⟨part, hpart, hmem⟩
  · exact .inl rfl
  · simp only [List.mem_cons, List.not_mem_nil, or_false] at hpart
    rcases hpart with rfl | rfl | rfl <;> exact .inr (isNumeral_twoDigits hmem)

theorem Civil.pieces_textWith (c : Civil) (year : Int) :
    Text.pieces ' ' (c.textWith year).toList =
      [monthName c.month, (twoDigits c.day).toList, (toString year).toList, c.timeOfDay] := by
  rw [Civil.toList_textWith, Text.pieces_intercalate (List.cons_ne_nil _ _)]
  intro part hpart
  simp only [List.mem_cons, List.not_mem_nil, or_false] at hpart
  rcases hpart with rfl | rfl | rfl | rfl
  · exact fun h => (monthName_plain h).1 rfl
  · exact fun h => not_isNumeral_blank (isNumeral_twoDigits h)
  · exact fun h => not_isNumeral_blank (isNumeral_toString h)
  · intro h
    rcases Civil.mem_timeOfDay h with h | h
    · exact absurd h (by decide)
    · exact not_isNumeral_blank h

theorem Civil.pieces_timeOfDay (c : Civil) : Text.pieces ':' c.timeOfDay =
    [(twoDigits c.hour).toList, (twoDigits c.minute).toList, (twoDigits c.second).toList] := by
  rw [Civil.timeOfDay, Text.pieces_intercalate (List.cons_ne_nil _ _)]
  intro part hpart
  simp only [List.mem_cons, List.not_mem_nil, or_false] at hpart
  rcases hpart with rfl | rfl | rfl <;>
    exact fun h => not_isNumeral_colon (isNumeral_twoDigits h)

theorem daysIn_le (year : Int) (month : Nat) : daysIn year month ≤ 31 := by
  unfold daysIn
  split
  · split <;> decide
  · split <;> decide

theorem Civil.Valid.ofText?_textWith {c : Civil} (h : c.Valid) (year : Int) :
    Civil.ofText? (c.textWith year) = some { c with year } := by
  obtain ⟨⟨hmonth, hmonth', hday, hday'⟩, hhour, hminute, hsecond⟩ := h
  have hdays := daysIn_le c.year c.month
  simp only [Civil.ofText?, c.pieces_textWith, c.pieces_timeOfDay, integer?_toString,
    month?_monthName hmonth hmonth', pair?_twoDigits (show c.day < 100 by omega),
    pair?_twoDigits (show c.hour < 100 by omega), pair?_twoDigits (show c.minute < 100 by omega),
    pair?_twoDigits (show c.second < 100 by omega)]
  rfl

theorem ofText?_toString (n : Int) : Civil.ofText? (toString n) = none := by
  have hpieces : Text.pieces ' ' (toString n).toList = [(toString n).toList] :=
    Text.pieces_of_not_mem fun h => not_isNumeral_blank (isNumeral_toString h)
  rw [Civil.ofText?, hpieces]

-- ---------------------------------------------------------------------------
-- Room
-- ---------------------------------------------------------------------------

theorem fitsWord_iff {n : Int} : fitsWord n ↔ -2147483648 ≤ n ∧ n ≤ 2147483647 := by
  simp [fitsWord]

theorem yearFits_iff {year : Int} :
    YearFits year ↔ -2147483648 ≤ year - 1900 ∧ year - 1900 ≤ 2147483647 := fitsWord_iff

theorem length_toString {n : Int} {k : Nat} (hk : 0 < k) (h : n.natAbs < 10 ^ k) :
    (toString n).toList.length ≤ k + 1 := by
  cases n with
  | ofNat n =>
    rw [Int.ofNat_eq_natCast, toString_ofNat]
    exact Nat.le_succ_of_le ((Nat.length_toDigits_le_iff (by decide) hk).mpr h)
  | negSucc n =>
    rw [toString_negSucc, List.length_cons]
    exact Nat.succ_le_succ ((Nat.length_toDigits_le_iff (by decide) hk).mpr h)

theorem length_bytesOf {text : String} (h : ∀ c ∈ text.toList, c.val ≤ 127) :
    (bytesOf text).length = text.toList.length := by
  unfold bytesOf Utf8.encode
  rw [List.length_flatMap]
  have hone : text.toList.map (fun c => (String.utf8EncodeChar c).length) =
      text.toList.map fun _ => 1 :=
    List.map_congr_left fun c hc => by
      rw [String.length_utf8EncodeChar, Char.utf8Size_eq_one_iff.mpr (h c hc)]
  rw [hone, List.map_const', List.sum_replicate_nat, Nat.mul_one]

theorem Civil.val_le_of_mem_textWith {c : Civil} {year : Int} {ch : Char}
    (h : ch ∈ (c.textWith year).toList) : ch.val ≤ 127 := by
  rw [Civil.toList_textWith] at h
  rcases Text.mem_intercalate h with rfl | ⟨part, hpart, hmem⟩
  · decide
  · simp only [List.mem_cons, List.not_mem_nil, or_false] at hpart
    rcases hpart with rfl | rfl | rfl | rfl
    · exact (monthName_plain hmem).2
    · exact (isNumeral_twoDigits hmem).val_le
    · exact (isNumeral_toString hmem).val_le
    · rcases Civil.mem_timeOfDay hmem with rfl | hnumeral
      · decide
      · exact hnumeral.val_le

theorem Civil.Valid.length_textWith {c : Civil} (h : c.Valid) {year : Int} (hfits : fitsWord year) :
    (bytesOf (c.textWith year)).length ≤ 27 := by
  obtain ⟨⟨-, -, -, hday⟩, hhour, hminute, hsecond⟩ := h
  have hdays := daysIn_le c.year c.month
  have hname := length_monthName c.month
  have hyear : (toString year).toList.length ≤ 11 := by
    refine length_toString (by decide) ?_
    have hbounds := fitsWord_iff.mp hfits
    omega
  rw [length_bytesOf fun ch => Civil.val_le_of_mem_textWith, Civil.toList_textWith, Civil.timeOfDay]
  simp only [List.intercalate_cons_cons, List.intercalate_singleton, List.length_append,
    List.length_singleton, length_twoDigits (show c.day < 100 by omega),
    length_twoDigits (show c.hour < 100 by omega), length_twoDigits (show c.minute < 100 by omega),
    length_twoDigits (show c.second < 100 by omega)]
  omega

theorem Civil.textWith_ne_empty {c : Civil} (h : c.Valid) (year : Int) : c.textWith year ≠ "" := by
  intro hempty
  have hread := h.ofText?_textWith year
  rw [hempty] at hread
  exact absurd hread (by simp [Civil.ofText?, Text.pieces])

-- ---------------------------------------------------------------------------
-- Years in a word
-- ---------------------------------------------------------------------------

theorem wrapped_of_fits {year : Int} (h : fitsWord year) : wrapped year = year := by
  have hbounds := fitsWord_iff.mp h
  unfold wrapped
  omega

theorem fitsWord_wrapped (year : Int) : fitsWord (wrapped year) := by
  rw [fitsWord_iff]
  unfold wrapped
  omega

/-- The year that wraps to a number: what wraps at all does not fit as a year. -/
def unwrapped (year : Int) : Int := if YearFits year then year else year + 4294967296

theorem unwrapped_wrapped {year : Int} (h : YearFits year) : unwrapped (wrapped year) = year := by
  have hbounds := yearFits_iff.mp h
  by_cases hfits : fitsWord year
  · rw [wrapped_of_fits hfits]
    exact if_pos h
  · have hgreat : 2147483647 < year := by
      rw [fitsWord_iff] at hfits
      omega
    have hwrapped : wrapped year = year - 4294967296 := by
      unfold wrapped
      omega
    have hnot : ¬ YearFits (year - 4294967296) := by
      rw [yearFits_iff]
      omega
    rw [hwrapped, unwrapped, if_neg hnot, Int.sub_add_cancel]

-- ---------------------------------------------------------------------------
-- Clocks
-- ---------------------------------------------------------------------------

/-- Points in time are counted in words of 64 bits. -/
def IsTime (seconds : Int) : Prop := -2 ^ 63 ≤ seconds ∧ seconds < 2 ^ 63

/-- The local date and time of a count of seconds. -/
structure Zone.Dates (zone : Zone) (seconds : Int) (c : Civil) : Prop where
  valid : c.Valid
  count : c.toSeconds - zone.east = seconds

/-- What is known of a clock at a fixed distance from UTC. It has the dates of the calendar, has
none only where the year does not fit, and writes a date whose year is a number of 32 bits. -/
structure Clock.Lawful (clock : Clock) (zone : Zone) : Prop where
  gregorian : ∀ seconds c, IsTime seconds → clock.localTime seconds = some c →
    zone.Dates seconds c ∧ YearFits c.year
  fails : ∀ seconds c, IsTime seconds → clock.localTime seconds = none → zone.Dates seconds c →
    ¬ YearFits c.year
  format : ∀ room c, c.Valid → YearFits c.year → fitsWord c.year →
    clock.format room c = written room c.text

/-- Dates whose years are among some are written with the number that is left of the year. -/
def Clock.Writes (clock : Clock) (years : Int → Prop) : Prop :=
  ∀ room c, c.Valid → YearFits c.year → years c.year →
    clock.format room c = written room (c.textWith (wrapped c.year))

theorem Clock.Lawful.writes {clock : Clock} {zone : Zone} (h : clock.Lawful zone) :
    clock.Writes fun year => fitsWord year := by
  intro room c hvalid hfits hword
  rw [h.format room c hvalid hfits hword, wrapped_of_fits hword, Civil.text]

section
variable {zone : Zone} {seconds : Int} {c : Civil}

theorem Zone.dates_ofSeconds (zone : Zone) (seconds : Int) :
    zone.Dates seconds (Civil.ofSeconds (seconds + zone.east)) := by
  have hcount := Civil.toSeconds_ofSeconds (seconds + zone.east)
  exact ⟨Civil.valid_ofSeconds _, by omega⟩

theorem Zone.Dates.ofSeconds_eq (h : zone.Dates seconds c) :
    Civil.ofSeconds (seconds + zone.east) = c := by
  have hlocal : seconds + zone.east = c.toSeconds := by
    have hcount := h.count
    omega
  rw [hlocal, h.valid.ofSeconds_toSeconds]

theorem Zone.Dates.unique {c' : Civil} (h : zone.Dates seconds c) (h' : zone.Dates seconds c') :
    c = c' :=
  h.ofSeconds_eq.symm.trans h'.ofSeconds_eq

theorem lawful_ofZone (zone : Zone) : (Clock.ofZone zone).Lawful zone where
  gregorian seconds c _ h := by
    obtain ⟨hfits, rfl⟩ := Option.ite_some_none_eq_some.mp h
    exact ⟨zone.dates_ofSeconds seconds, hfits⟩
  fails seconds c _ h hdates hfits := by
    rw [← hdates.ofSeconds_eq] at hfits
    have hsome : (Clock.ofZone zone).localTime seconds = some _ := if_pos hfits
    rw [hsome] at h
    cases h
  format room c _ _ hword := by
    change written room (c.textWith (wrapped c.year)) = _
    rw [wrapped_of_fits hword, Civil.text]

theorem writes_ofZone (zone : Zone) : (Clock.ofZone zone).Writes fun _ => True :=
  fun _ _ _ _ _ => rfl

end

-- ---------------------------------------------------------------------------
-- Rendering
-- ---------------------------------------------------------------------------

/-- The count of seconds that a text says in a zone: the count of a date there, or its digits. -/
def Zone.secondsOf? (zone : Zone) (text : String) : Option Int :=
  match Civil.ofText? text with
  | some c => some ({ c with year := unwrapped c.year }.toSeconds - zone.east)
  | none => integer? text.toList

section
variable {clock : Clock} {zone : Zone} {years : Int → Prop} {seconds : Int} {c : Civil}
  (h : clock.Lawful zone)
include h

theorem localTime_of_fits (htime : IsTime seconds) (hdates : zone.Dates seconds c)
    (hfits : YearFits c.year) : clock.localTime seconds = some c := by
  cases hlocal : clock.localTime seconds with
  | none => exact absurd hfits (h.fails seconds c htime hlocal hdates)
  | some c' => rw [(h.gregorian seconds c' htime hlocal).1.unique hdates]

theorem localText_of_not_fits (htime : IsTime seconds) (hdates : zone.Dates seconds c)
    (hfits : ¬ YearFits c.year) : clock.localText seconds = toString seconds := by
  cases hlocal : clock.localTime seconds with
  | none => simp only [Clock.localText, hlocal]
  | some c' =>
    obtain ⟨hdates', hfits'⟩ := h.gregorian seconds c' htime hlocal
    rw [hdates'.unique hdates] at hfits'
    exact absurd hfits' hfits

omit h in
theorem written_room (hwrites : clock.Writes years) (hvalid : c.Valid) (hfits : YearFits c.year)
    (hyear : years c.year) :
    (bytesOf (c.textWith (wrapped c.year))).length < Clock.textRoom ∧
      clock.format Clock.textRoom c = bytesOf (c.textWith (wrapped c.year)) := by
  have hroom : (bytesOf (c.textWith (wrapped c.year))).length < Clock.textRoom :=
    Nat.lt_of_le_of_lt (hvalid.length_textWith (fitsWord_wrapped c.year)) (by decide)
  refine ⟨hroom, ?_⟩
  rw [hwrites _ c hvalid hfits hyear, written, if_pos hroom]

theorem localText_of_fits (hwrites : clock.Writes years) (htime : IsTime seconds)
    (hdates : zone.Dates seconds c) (hfits : YearFits c.year) (hyear : years c.year) :
    clock.localText seconds = c.textWith (wrapped c.year) := by
  have hformat := (written_room hwrites hdates.valid hfits hyear).2
  have hne : bytesOf (c.textWith (wrapped c.year)) ≠ [] := by
    intro hempty
    have hshown := shown_bytesOf (c.textWith (wrapped c.year))
    rw [hempty, show shown [] = "" from shown_bytesOf ""] at hshown
    exact Civil.textWith_ne_empty hdates.valid _ hshown.symm
  simp only [Clock.localText, localTime_of_fits h htime hdates hfits, hformat, if_neg hne,
    shown_bytesOf]

theorem secondsOf?_localText (hwrites : clock.Writes years) (htime : IsTime seconds)
    (hdates : zone.Dates seconds c) (hyear : YearFits c.year → years c.year) :
    zone.secondsOf? (clock.localText seconds) = some seconds := by
  by_cases hfits : YearFits c.year
  · rw [localText_of_fits h hwrites htime hdates hfits (hyear hfits), Zone.secondsOf?,
      hdates.valid.ofText?_textWith]
    simp only [unwrapped_wrapped hfits]
    exact congrArg some hdates.count
  · rw [localText_of_not_fits h htime hdates hfits, Zone.secondsOf?, ofText?_toString]
    exact integer?_toString seconds

end

/-- Nothing is lost, for want of room or otherwise, of dates whose years are among some. -/
structure Clock.Distinguishes (clock : Clock) (zone : Zone) (years : Int → Prop) : Prop where
  distinct : Set.InjOn clock.localText {seconds | IsTime seconds ∧
    ∀ c, zone.Dates seconds c → YearFits c.year → years c.year}
  room : ∀ seconds c, IsTime seconds → clock.localTime seconds = some c → years c.year →
    ∃ text, text ≠ "" ∧ clock.localText seconds = text ∧
      clock.format Clock.textRoom c = bytesOf text ∧ (bytesOf text).length < Clock.textRoom

theorem Clock.Lawful.distinguishes {clock : Clock} {zone : Zone} {years : Int → Prop}
    (h : clock.Lawful zone) (hwrites : clock.Writes years) : clock.Distinguishes zone years where
  distinct seconds hseconds seconds' hseconds' heq := by
    have hread := secondsOf?_localText h hwrites hseconds.1 (zone.dates_ofSeconds seconds)
      (hseconds.2 _ (zone.dates_ofSeconds seconds))
    rw [heq, secondsOf?_localText h hwrites hseconds'.1 (zone.dates_ofSeconds seconds')
      (hseconds'.2 _ (zone.dates_ofSeconds seconds'))] at hread
    exact (Option.some.inj hread).symm
  room seconds c htime hlocal hyear := by
    obtain ⟨hdates, hfits⟩ := h.gregorian seconds c htime hlocal
    obtain ⟨hroom, hformat⟩ := written_room hwrites hdates.valid hfits hyear
    exact ⟨_, Civil.textWith_ne_empty hdates.valid _,
      localText_of_fits h hwrites htime hdates hfits hyear, hformat, hroom⟩

/-- What the texts of a zone say: which calendar it is (its epoch and its steps), that each count
has one date in it, what the text is, and that nothing is lost. -/
structure Renders (clock : Clock) (zone : Zone) : Prop where
  epoch : Civil.toSeconds ⟨1970, 1, 1, 0, 0, 0⟩ = 0
  onward : ∀ c : Civil, c.Valid → c.next.Valid ∧ c.next.toSeconds = c.toSeconds + 1
  one_date : ∀ seconds, ∃! c, zone.Dates seconds c
  date : ∀ seconds c, IsTime seconds → zone.Dates seconds c → YearFits c.year → fitsWord c.year →
    clock.localText seconds = c.text ∧ Civil.ofText? (clock.localText seconds) = some c
  count : ∀ seconds c, IsTime seconds → zone.Dates seconds c → ¬ YearFits c.year →
    clock.localText seconds = toString seconds
  faithful : clock.Distinguishes zone fun year => fitsWord year
  /-- Years that are no numbers of 32 bits may be written as they wrap. -/
  wrapping : clock.Writes (fun _ => True) → clock.Distinguishes zone fun _ => True

theorem localText_renders {clock : Clock} {zone : Zone} (h : clock.Lawful zone) :
    Renders clock zone where
  epoch := rfl
  onward _ hvalid := ⟨hvalid.next, hvalid.toSeconds_next⟩
  one_date seconds :=
    ⟨_, zone.dates_ofSeconds seconds, fun _ hdates => hdates.ofSeconds_eq.symm⟩
  date seconds c htime hdates hfits hword := by
    have htext := localText_of_fits h h.writes htime hdates hfits hword
    rw [wrapped_of_fits hword] at htext
    exact ⟨htext, htext ▸ hdates.valid.ofText?_textWith c.year⟩
  count _ _ htime hdates hfits := localText_of_not_fits h htime hdates hfits
  faithful := h.distinguishes h.writes
  wrapping := h.distinguishes

theorem localText_renders_leapDay :
    (Clock.ofZone ⟨-5400⟩).Lawful ⟨-5400⟩ ∧
      (Clock.ofZone ⟨-5400⟩).localText 951788000 = "Feb 29 2000 00:03:20" ∧
      Civil.ofText? "Feb 29 2000 00:03:20" = some ⟨2000, 2, 29, 0, 3, 20⟩ := by
  have hrenders := localText_renders (lawful_ofZone ⟨-5400⟩)
  have hdates := Zone.dates_ofSeconds ⟨-5400⟩ 951788000
  obtain ⟨htext, hread⟩ :=
    hrenders.date _ _ (by unfold IsTime; decide) hdates (by decide) (by decide)
  have hsame : (Civil.ofSeconds (951788000 + -5400)).text = "Feb 29 2000 00:03:20" := rfl
  rw [htext, hsame] at hread
  exact ⟨lawful_ofZone _, htext.trans hsame, hread⟩

/-- The first year that is no number of 32 bits has a date, but its text says another year. -/
theorem localText_beyond :
    (Clock.ofZone .utc).Lawful .utc ∧ IsTime 67767976233532800 ∧
      Zone.utc.Dates 67767976233532800 ⟨2147483648, 1, 1, 0, 0, 0⟩ ∧ YearFits 2147483648 ∧
      (Clock.ofZone .utc).localText 67767976233532800 = "Jan 01 -2147483648 00:00:00" ∧
      ¬ ∃ c, Civil.ofText? "Jan 01 -2147483648 00:00:00" = some c ∧
        Zone.utc.Dates 67767976233532800 c := by
  have hdates : Zone.utc.Dates 67767976233532800 ⟨2147483648, 1, 1, 0, 0, 0⟩ :=
    Zone.dates_ofSeconds .utc 67767976233532800
  have htime : IsTime 67767976233532800 := by unfold IsTime; decide
  have htext : (Clock.ofZone .utc).localText 67767976233532800 = "Jan 01 -2147483648 00:00:00" :=
    localText_of_fits (lawful_ofZone .utc) (writes_ofZone .utc) htime hdates (by decide) trivial
  refine ⟨lawful_ofZone .utc, htime, hdates, by decide, htext, ?_⟩
  rintro ⟨c, hread, hother⟩
  have hwrapped := hdates.valid.ofText?_textWith (-2147483648)
  rw [← hdates.unique hother] at hread
  cases hwrapped.symm.trans hread

end LineShell.Time
