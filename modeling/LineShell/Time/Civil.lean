/-!
# Civil time

Dates of the proleptic Gregorian calendar for counts of seconds since 1970-01-01 00:00:00, in
both directions. A count falls into a day and a second of that day; the day's date is found in
its cycle of 400 years, counted from the first of March, so that a leap day ends its year.
-/

namespace LineShell.Time

structure Civil where
  year : Int
  month : Nat
  day : Nat
  hour : Nat
  minute : Nat
  second : Nat
deriving DecidableEq, Repr

def daysPerCycle : Int := 146097

def epochDay : Int := 719468

/-- The date of a day, counted from 1970-01-01: year, month and day of the month. -/
def dateOfDay (day : Int) : Int × Nat × Nat :=
  let shifted := day + epochDay
  let cycle := shifted / daysPerCycle
  let ofCycle := (shifted % daysPerCycle).toNat
  let ofYear := (ofCycle - ofCycle / 1460 + ofCycle / 36524 - ofCycle / 146096) / 365
  let dayOfYear := ofCycle - (365 * ofYear + ofYear / 4 - ofYear / 100)
  let fromMarch := (5 * dayOfYear + 2) / 153
  let dayOfMonth := dayOfYear - (153 * fromMarch + 2) / 5 + 1
  let month := if fromMarch < 10 then fromMarch + 3 else fromMarch - 9
  (ofYear + cycle * 400 + if month ≤ 2 then 1 else 0, month, dayOfMonth)

def dayOfDate (year : Int) (month day : Nat) : Int :=
  let marchYear := if month ≤ 2 then year - 1 else year
  let cycle := marchYear / 400
  let ofCycle := marchYear % 400
  let fromMarch : Int := if month ≤ 2 then month + 9 else (month : Int) - 3
  let dayOfYear := (153 * fromMarch + 2) / 5 + day - 1
  cycle * daysPerCycle + (ofCycle * 365 + ofCycle / 4 - ofCycle / 100 + dayOfYear) - epochDay

def Civil.ofSeconds (seconds : Int) : Civil :=
  let (year, month, day) := dateOfDay (seconds / 86400)
  let ofDay := (seconds % 86400).toNat
  ⟨year, month, day, ofDay / 3600, ofDay / 60 % 60, ofDay % 60⟩

def Civil.toSeconds (c : Civil) : Int :=
  dayOfDate c.year c.month c.day * 86400 + c.hour * 3600 + c.minute * 60 + c.second

end LineShell.Time
