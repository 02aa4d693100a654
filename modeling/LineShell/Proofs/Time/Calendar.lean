import LineShell.Time.Civil
import Mathlib.Tactic.IntervalCases

/-!
# The proleptic Gregorian calendar

What a valid date and time of day is, and how dates follow each other: the second after a date
is a rule of its own, with leap days, ends of months and ends of years. Every count of seconds
is the count of one valid date, and the next date has the next count.

Years are counted here from the first of March, so that a leap day comes last. `Place` is a day
within the 400 years of a cycle by its century, its block of four years, its year and its day.
-/

namespace LineShell.Time

-- ---------------------------------------------------------------------------
-- Valid dates
-- ---------------------------------------------------------------------------

def IsLeap (year : Int) : Prop := 4 ∣ year ∧ (100 ∣ year → 400 ∣ year)

instance (year : Int) : Decidable (IsLeap year) :=
  inferInstanceAs (Decidable (4 ∣ year ∧ (100 ∣ year → 400 ∣ year)))

def daysIn (year : Int) (month : Nat) : Nat :=
  if month = 2 then if IsLeap year then 29 else 28
  else if month = 4 ∨ month = 6 ∨ month = 9 ∨ month = 11 then 30
  else 31

structure ValidDate (year : Int) (month day : Nat) : Prop where
  month_pos : 1 ≤ month
  month_le : month ≤ 12
  day_pos : 1 ≤ day
  day_le : day ≤ daysIn year month

structure Civil.Valid (c : Civil) : Prop where
  date : ValidDate c.year c.month c.day
  hour_lt : c.hour < 24
  minute_lt : c.minute < 60
  second_lt : c.second < 60

def Civil.next (c : Civil) : Civil :=
  if c.second < 59 then { c with second := c.second + 1 }
  else if c.minute < 59 then { c with minute := c.minute + 1, second := 0 }
  else if c.hour < 23 then { c with hour := c.hour + 1, minute := 0, second := 0 }
  else if c.day < daysIn c.year c.month then ⟨c.year, c.month, c.day + 1, 0, 0, 0⟩
  else if c.month < 12 then ⟨c.year, c.month + 1, 1, 0, 0, 0⟩
  else ⟨c.year + 1, 1, 1, 0, 0, 0⟩

theorem daysIn_pos (year : Int) (month : Nat) : 1 ≤ daysIn year month := by
  unfold daysIn
  split
  · split <;> decide
  · split <;> decide

theorem Civil.Valid.next {c : Civil} (h : c.Valid) : c.next.Valid := by
  obtain ⟨⟨hmonth, hmonth', hday, hday'⟩, hhour, hminute, hsecond⟩ := h
  have zero_lt {n : Nat} : 0 < n + 1 := Nat.zero_lt_succ n
  unfold Civil.next
  split
  · next hlt => exact ⟨⟨hmonth, hmonth', hday, hday'⟩, hhour, hminute, Nat.succ_lt_succ hlt⟩
  split
  · next hlt => exact ⟨⟨hmonth, hmonth', hday, hday'⟩, hhour, Nat.succ_lt_succ hlt, zero_lt⟩
  split
  · next hlt => exact ⟨⟨hmonth, hmonth', hday, hday'⟩, Nat.succ_lt_succ hlt, zero_lt, zero_lt⟩
  split
  · next hlt => exact ⟨⟨hmonth, hmonth', zero_lt, hlt⟩, zero_lt, zero_lt, zero_lt⟩
  split
  · next hlt => exact ⟨⟨zero_lt, hlt, Nat.le_refl 1, daysIn_pos ..⟩, zero_lt, zero_lt, zero_lt⟩
  · exact ⟨⟨Nat.le_refl 1, zero_lt, Nat.le_refl 1, daysIn_pos ..⟩, zero_lt, zero_lt, zero_lt⟩

-- ---------------------------------------------------------------------------
-- Years from March
-- ---------------------------------------------------------------------------

/-- Days from the first of March of the year 0 to the first of March of a year. -/
def yearStart (year : Int) : Int := 365 * year + year / 4 - year / 100 + year / 400

/-- Day `day` of the year that begins in March of `year`, as a day counted from year 0. -/
structure InYear (shifted year : Int) (day : Nat) : Prop where
  sum : shifted = yearStart year + day
  day_lt : day < 366
  leap : day = 365 → IsLeap (year + 1)

theorem yearStart_succ (year : Int) :
    yearStart (year + 1) = yearStart year + 365 + if IsLeap (year + 1) then 1 else 0 := by
  by_cases hleap : IsLeap (year + 1)
  · rw [if_pos hleap]
    unfold IsLeap at hleap
    unfold yearStart
    omega
  · rw [if_neg hleap]
    unfold IsLeap at hleap
    unfold yearStart
    omega

theorem yearStart_mono {year year' : Int} (h : year ≤ year') :
    yearStart year ≤ yearStart year' := by
  unfold yearStart
  omega

theorem InYear.lt_yearStart {shifted year : Int} {day : Nat} (h : InYear shifted year day) :
    shifted < yearStart (year + 1) := by
  rw [yearStart_succ, h.sum]
  have hday := h.day_lt
  split
  · omega
  · next hleap =>
    have hne : day ≠ 365 := fun he => hleap (h.leap he)
    omega

theorem InYear.year_le {shifted year year' : Int} {day day' : Nat} (h : InYear shifted year day)
    (h' : InYear shifted year' day') : year ≤ year' := by
  by_contra hlt
  have hend := h'.lt_yearStart
  have hmono := yearStart_mono (show year' + 1 ≤ year by omega)
  have hsum := h.sum
  omega

theorem InYear.unique {shifted year year' : Int} {day day' : Nat} (h : InYear shifted year day)
    (h' : InYear shifted year' day') : year = year' ∧ day = day' := by
  obtain rfl : year = year' := Int.le_antisymm (h.year_le h') (h'.year_le h)
  have hsum := h.sum
  have hsum' := h'.sum
  exact ⟨rfl, by omega⟩

-- ---------------------------------------------------------------------------
-- Places in a cycle of 400 years
-- ---------------------------------------------------------------------------

structure Place (n c q r d : Nat) : Prop where
  sum : n = 36524 * c + (1461 * q + 365 * r + d)
  century_lt : c < 4
  block_lt : q < 25
  year_lt : r < 4
  day_lt : d < 366
  leap : d = 365 → r = 3 ∧ (q = 24 → c = 3)

theorem exists_place {n : Nat} (h : n < 146097) : ∃ c q r d, Place n c q r d := by
  let c := min 3 (n / 36524)
  let inCentury := n - 36524 * c
  let q := inCentury / 1461
  let inBlock := inCentury - 1461 * q
  let r := min 3 (inBlock / 365)
  refine ⟨c, q, r, inBlock - 365 * r, ?_, ?_, ?_, ?_, ?_, ?_⟩ <;> omega

section
variable {n c q r d : Nat}

/-- The last day of a cycle counts as one of a fifth century. -/
theorem Place.centuries (h : Place n c q r d) : n / 36524 = c + n / 146096 := by
  obtain ⟨hsum, hc, hq, hr, hd, hleap⟩ := h
  have hrest : 1461 * q + 365 * r + d < 36524 ∨ n = 146096 := by omega
  rcases hrest with hrest | rfl
  · generalize 1461 * q + 365 * r + d = rest at hrest hsum
    omega
  · omega

theorem Place.blocks (h : Place n c q r d) :
    n / 1460 = 25 * c + q + (24 * c + q + 365 * r + d) / 1460 := by
  have hn : n = 24 * c + q + 365 * r + d + 1460 * (25 * c + q) := by
    have hsum := h.sum
    omega
  rw [hn, Nat.add_mul_div_left _ _ (by decide)]
  exact Nat.add_comm ..

theorem Place.carry (h : Place n c q r d) :
    (24 * c + q + 365 * r + d) / 1460 ≤ d ∧ d < (24 * c + q + 365 * r + d) / 1460 + 365 := by
  obtain ⟨hsum, hc, hq, hr, hd, hleap⟩ := h
  clear hsum
  rcases Nat.lt_or_ge (24 * c + q + 365 * r + d) 1460 with hlt | hge
  · rw [Nat.div_eq_of_lt hlt]
    omega
  · have hone : (24 * c + q + 365 * r + d) / 1460 = 1 := by omega
    rw [hone]
    omega

theorem Place.year (h : Place n c q r d) :
    (n - n / 1460 + n / 36524 - n / 146096) / 365 = 100 * c + 4 * q + r := by
  have hcenturies := h.centuries
  have hblocks := h.blocks
  have hcarry := h.carry
  have hsum := h.sum
  generalize (24 * c + q + 365 * r + d) / 1460 = carry at hblocks hcarry
  have hdays : n - n / 1460 + n / 36524 - n / 146096 =
      d - carry + 365 * (100 * c + 4 * q + r) := by omega
  rw [hdays, Nat.add_mul_div_left _ _ (by decide), Nat.div_eq_of_lt (by omega), Nat.zero_add]

theorem Place.dayOfYear (h : Place n c q r d) :
    n - (365 * (100 * c + 4 * q + r) + (100 * c + 4 * q + r) / 4 - (100 * c + 4 * q + r) / 100) =
      d := by
  obtain ⟨hsum, hc, hq, hr, hd, hleap⟩ := h
  have hblocks : (100 * c + 4 * q + r) / 4 = 25 * c + q := by omega
  have hcenturies : (100 * c + 4 * q + r) / 100 = c := by omega
  omega

theorem Place.inYear (h : Place n c q r d) (cycle : Int) :
    InYear (cycle * 146097 + n) (cycle * 400 + (100 * c + 4 * q + r : Nat)) d := by
  obtain ⟨hsum, hc, hq, hr, hd, hleap⟩ := h
  refine ⟨?_, hd, fun hlast => ?_⟩
  · unfold yearStart
    omega
  · obtain ⟨rfl, hcentury⟩ := hleap hlast
    unfold IsLeap
    omega

end

-- ---------------------------------------------------------------------------
-- Months from March
-- ---------------------------------------------------------------------------

/-- A month counted from March, where March is 0. -/
def marchMonth (month : Nat) : Nat := if month ≤ 2 then month + 9 else month - 3

def ofMarchMonth (fromMarch : Nat) : Nat := if fromMarch < 10 then fromMarch + 3 else fromMarch - 9

def marchYear (year : Int) (month : Nat) : Int := if month ≤ 2 then year - 1 else year

/-- Days from the first of March to the first of a month. -/
def monthStart (fromMarch : Nat) : Nat := (153 * fromMarch + 2) / 5

def monthAt (day : Nat) : Nat := (5 * day + 2) / 153

/-- The date of day `day` of the year that begins in March of `year`. -/
def dateInYear (year : Int) (day : Nat) : Int × Nat × Nat :=
  let month := ofMarchMonth (monthAt day)
  (year + if month ≤ 2 then 1 else 0, month, day - monthStart (monthAt day) + 1)

theorem monthStart_succ {fromMarch : Nat} (h : fromMarch ≤ 10) (year : Int) :
    monthStart (fromMarch + 1) = monthStart fromMarch + daysIn year (ofMarchMonth fromMarch) := by
  interval_cases fromMarch <;> rfl

theorem monthAt_eq_iff {day fromMarch : Nat} :
    monthAt day = fromMarch ↔ monthStart fromMarch ≤ day ∧ day < monthStart (fromMarch + 1) := by
  unfold monthStart monthAt
  omega

theorem ofMarchMonth_marchMonth {month : Nat} (h : 1 ≤ month) (h' : month ≤ 12) :
    ofMarchMonth (marchMonth month) = month := by
  unfold ofMarchMonth marchMonth
  split <;> split <;> omega

theorem marchMonth_ofMarchMonth {fromMarch : Nat} (h : fromMarch ≤ 11) :
    marchMonth (ofMarchMonth fromMarch) = fromMarch := by
  unfold ofMarchMonth marchMonth
  split <;> split <;> omega

theorem daysIn_february (year : Int) : daysIn year 2 = if IsLeap year then 29 else 28 := rfl

theorem validDate_dateInYear {shifted year : Int} {day : Nat} (h : InYear shifted year day) :
    ValidDate (dateInYear year day).1 (dateInYear year day).2.1 (dateInYear year day).2.2 := by
  have hday := h.day_lt
  obtain ⟨hstart, hend⟩ := monthAt_eq_iff.mp (rfl : monthAt day = monthAt day)
  have hmonth : monthAt day ≤ 11 := by unfold monthAt; omega
  unfold dateInYear
  generalize monthAt day = month at *
  have hbound : 1 ≤ ofMarchMonth month ∧ ofMarchMonth month ≤ 12 := by
    unfold ofMarchMonth
    split <;> omega
  refine ⟨hbound.1, hbound.2, Nat.le_add_left .., ?_⟩
  rcases Nat.lt_or_ge month 11 with hlt | hge
  · have hlength := monthStart_succ (Nat.le_of_lt_succ hlt)
      (year + if ofMarchMonth month ≤ 2 then 1 else 0)
    dsimp only
    omega
  · obtain rfl : month = 11 := Nat.le_antisymm hmonth hge
    -- the last day of February is the last of the year, and there only in a leap year
    have hleap := h.leap
    simp only [show ofMarchMonth 11 = 2 from rfl, Nat.le_refl, if_true, daysIn_february,
      show monthStart 11 = 337 from rfl] at *
    split
    · omega
    · next hnot =>
      have hne : day ≠ 365 := fun he => hnot (hleap he)
      omega

theorem dayOfDate_eq {year : Int} {month day : Nat} (h : ValidDate year month day) :
    dayOfDate year month day + epochDay =
      yearStart (marchYear year month) + (monthStart (marchMonth month) + day - 1 : Nat) := by
  obtain ⟨hmonth, -, hday, -⟩ := h
  simp only [dayOfDate, yearStart, marchYear, marchMonth, monthStart, epochDay, daysPerCycle]
  split <;> omega

theorem marchMonth_cases {month : Nat} (h : 1 ≤ month) (h' : month ≤ 12) :
    marchMonth month ≤ 10 ∨ month = 2 ∧ marchMonth month = 11 := by
  unfold marchMonth
  split <;> omega

theorem ValidDate.monthAt_eq {year : Int} {month day : Nat} (h : ValidDate year month day) :
    monthAt (monthStart (marchMonth month) + day - 1) = marchMonth month := by
  obtain ⟨hmonth, hmonth', hday, hday'⟩ := h
  rw [monthAt_eq_iff]
  rcases marchMonth_cases hmonth hmonth' with hle | ⟨rfl, -⟩
  · have hlength := monthStart_succ hle year
    rw [ofMarchMonth_marchMonth hmonth hmonth'] at hlength
    omega
  · rw [daysIn_february] at hday'
    simp only [show monthStart (marchMonth 2) = 337 from rfl,
      show monthStart (marchMonth 2 + 1) = 367 from rfl]
    split at hday' <;> omega

theorem ValidDate.inYear {year : Int} {month day : Nat} (h : ValidDate year month day) :
    InYear (dayOfDate year month day + epochDay) (marchYear year month)
      (monthStart (marchMonth month) + day - 1) := by
  have hsum := dayOfDate_eq h
  obtain ⟨hmonth, hmonth', hday, hday'⟩ := h
  rcases marchMonth_cases hmonth hmonth' with hle | ⟨rfl, -⟩
  · have hlength := monthStart_succ hle year
    rw [ofMarchMonth_marchMonth hmonth hmonth'] at hlength
    have hlast : monthStart (marchMonth month + 1) ≤ 337 := by unfold monthStart; omega
    exact ⟨hsum, by omega, fun hend => by omega⟩
  · simp only [daysIn_february, show monthStart (marchMonth 2) = 337 from rfl,
      show marchYear year 2 = year - 1 from rfl] at *
    refine ⟨hsum, by split at hday' <;> omega, fun hend => ?_⟩
    rw [Int.sub_add_cancel]
    by_contra hnot
    rw [if_neg hnot] at hday'
    omega

theorem ValidDate.dateInYear_eq {year : Int} {month day : Nat} (h : ValidDate year month day) :
    dateInYear (marchYear year month) (monthStart (marchMonth month) + day - 1) =
      (year, month, day) := by
  have hmonth := ofMarchMonth_marchMonth h.month_pos h.month_le
  have hday := h.day_pos
  have hyear : (marchYear year month + if month ≤ 2 then 1 else 0) = year := by
    unfold marchYear
    split <;> omega
  simp only [dateInYear, h.monthAt_eq, hmonth, hyear]
  rw [show monthStart (marchMonth month) + day - 1 - monthStart (marchMonth month) + 1 = day by
    omega]

-- ---------------------------------------------------------------------------
-- Days and dates
-- ---------------------------------------------------------------------------

theorem dateOfDay_eq (day : Int) : ∃ year ofYear, InYear (day + epochDay) year ofYear ∧
    dateOfDay day = dateInYear year ofYear := by
  have hn : ((day + epochDay) % daysPerCycle).toNat < 146097 := by
    unfold daysPerCycle
    omega
  obtain ⟨c, q, r, d, hplace⟩ := exists_place hn
  refine ⟨(day + epochDay) / daysPerCycle * 400 + (100 * c + 4 * q + r : Nat), d, ?_, ?_⟩
  · have hin := hplace.inYear ((day + epochDay) / daysPerCycle)
    rwa [show (day + epochDay) / daysPerCycle * 146097 +
      (((day + epochDay) % daysPerCycle).toNat : Nat) = day + epochDay by
        unfold daysPerCycle; omega] at hin
  · simp only [dateOfDay, dateInYear, monthAt, monthStart, hplace.year, hplace.dayOfYear]
    rw [Int.add_comm ((day + epochDay) / daysPerCycle * 400)]
    rfl

theorem validDate_dateOfDay (day : Int) :
    ValidDate (dateOfDay day).1 (dateOfDay day).2.1 (dateOfDay day).2.2 := by
  obtain ⟨year, ofYear, hin, heq⟩ := dateOfDay_eq day
  rw [heq]
  exact validDate_dateInYear hin

theorem dateOfDay_dayOfDate {year : Int} {month day : Nat} (h : ValidDate year month day) :
    dateOfDay (dayOfDate year month day) = (year, month, day) := by
  obtain ⟨year', ofYear, hin, heq⟩ := dateOfDay_eq (dayOfDate year month day)
  obtain ⟨rfl, rfl⟩ := hin.unique h.inYear
  rw [heq, h.dateInYear_eq]

theorem dayOfDate_dateInYear {shifted year : Int} {ofYear : Nat} (h : InYear shifted year ofYear) :
    dayOfDate (dateInYear year ofYear).1 (dateInYear year ofYear).2.1 (dateInYear year ofYear).2.2 +
      epochDay = shifted := by
  have hlt := h.day_lt
  have hmonth : monthAt ofYear ≤ 11 := by unfold monthAt; omega
  have hstart := (monthAt_eq_iff.mp (rfl : monthAt ofYear = monthAt ofYear)).1
  have hyear : marchYear (dateInYear year ofYear).1 (dateInYear year ofYear).2.1 = year := by
    unfold marchYear dateInYear
    dsimp only
    split <;> omega
  have hday : monthStart (marchMonth (dateInYear year ofYear).2.1) +
      (dateInYear year ofYear).2.2 - 1 = ofYear := by
    simp only [dateInYear, marchMonth_ofMarchMonth hmonth]
    omega
  rw [dayOfDate_eq (validDate_dateInYear h), hyear, hday, h.sum]

theorem dayOfDate_dateOfDay (day : Int) :
    dayOfDate (dateOfDay day).1 (dateOfDay day).2.1 (dateOfDay day).2.2 = day := by
  obtain ⟨year, ofYear, hin, heq⟩ := dateOfDay_eq day
  have hsum := dayOfDate_dateInYear hin
  rw [heq]
  omega

theorem dayOfDate_succ (year : Int) (month day : Nat) :
    dayOfDate year month (day + 1) = dayOfDate year month day + 1 := by
  simp only [dayOfDate]
  omega

theorem dayOfDate_firstOfMonth (year : Int) {month : Nat} (h : 1 ≤ month) (h' : month < 12) :
    dayOfDate year (month + 1) 1 = dayOfDate year month (daysIn year month) + 1 := by
  have hlast : ValidDate year month (daysIn year month) :=
    ⟨h, Nat.le_of_lt h', daysIn_pos .., Nat.le_refl _⟩
  have hfirst : ValidDate year (month + 1) 1 :=
    ⟨Nat.le_add_left .., h', Nat.le_refl 1, daysIn_pos ..⟩
  have hsum := dayOfDate_eq hlast
  have hsum' := dayOfDate_eq hfirst
  rcases marchMonth_cases h (Nat.le_of_lt h') with hle | ⟨rfl, -⟩
  · have hlength := monthStart_succ hle year
    rw [ofMarchMonth_marchMonth h (Nat.le_of_lt h')] at hlength
    have hne : month ≠ 2 := by rintro rfl; exact absurd hle (by decide)
    have hyear : marchYear year (month + 1) = marchYear year month := by
      unfold marchYear
      split <;> split <;> omega
    have hmonth : marchMonth (month + 1) = marchMonth month + 1 := by
      unfold marchMonth
      split <;> split <;> omega
    rw [hyear, hmonth] at hsum'
    have hpos := hlast.day_pos
    omega
  · -- March begins the next year
    have hstart := yearStart_succ (year - 1)
    rw [Int.sub_add_cancel] at hstart
    simp only [daysIn_february, show marchYear year 2 = year - 1 from rfl,
      show marchYear year (2 + 1) = year from rfl, show monthStart (marchMonth 2) = 337 from rfl,
      show monthStart (marchMonth (2 + 1)) = 0 from rfl] at *
    split at hstart
    · next hleap =>
      rw [if_pos hleap] at hsum ⊢
      omega
    · next hleap =>
      rw [if_neg hleap] at hsum ⊢
      omega

theorem dayOfDate_firstOfYear (year : Int) :
    dayOfDate (year + 1) 1 1 = dayOfDate year 12 31 + 1 := by
  simp [dayOfDate, epochDay, daysPerCycle]
  omega

-- ---------------------------------------------------------------------------
-- Seconds and times
-- ---------------------------------------------------------------------------

theorem Civil.valid_ofSeconds (seconds : Int) : (Civil.ofSeconds seconds).Valid := by
  have hday := validDate_dateOfDay (seconds / 86400)
  refine ⟨hday, ?_, ?_, ?_⟩ <;> simp only [Civil.ofSeconds] <;> omega

theorem Civil.toSeconds_ofSeconds (seconds : Int) :
    (Civil.ofSeconds seconds).toSeconds = seconds := by
  have hday := dayOfDate_dateOfDay (seconds / 86400)
  simp only [Civil.ofSeconds, Civil.toSeconds, hday]
  omega

theorem Civil.Valid.ofSeconds_toSeconds {c : Civil} (h : c.Valid) :
    Civil.ofSeconds c.toSeconds = c := by
  obtain ⟨year, month, day, hour, minute, second⟩ := c
  obtain ⟨hdate, hhour, hminute, hsecond⟩ := h
  dsimp only at hdate hhour hminute hsecond
  have hday : (dayOfDate year month day * 86400 + hour * 3600 + minute * 60 + second) / 86400 =
      dayOfDate year month day := by omega
  have hofDay : ((dayOfDate year month day * 86400 + hour * 3600 + minute * 60 + second) %
      86400).toNat = hour * 3600 + minute * 60 + second := by omega
  simp only [Civil.ofSeconds, Civil.toSeconds, hday, hofDay, dateOfDay_dayOfDate hdate,
    Civil.mk.injEq, true_and]
  omega

theorem Civil.Valid.toSeconds_next {c : Civil} (h : c.Valid) :
    c.next.toSeconds = c.toSeconds + 1 := by
  obtain ⟨year, month, day, hour, minute, second⟩ := c
  obtain ⟨⟨hmonth, hmonth', hday, hday'⟩, hhour, hminute, hsecond⟩ := h
  dsimp only at hmonth hmonth' hday hday' hhour hminute hsecond
  unfold Civil.next Civil.toSeconds
  dsimp only
  split
  · dsimp only
    omega
  split
  · dsimp only
    omega
  split
  · dsimp only
    omega
  split
  · have hnext := dayOfDate_succ year month day
    dsimp only
    omega
  obtain rfl : day = daysIn year month := by omega
  split
  · next hlt =>
    have hnext := dayOfDate_firstOfMonth year hmonth hlt
    dsimp only
    omega
  · obtain rfl : month = 12 := by omega
    have hnext := dayOfDate_firstOfYear year
    simp only [show daysIn year 12 = 31 from rfl] at *
    omega

end LineShell.Time
