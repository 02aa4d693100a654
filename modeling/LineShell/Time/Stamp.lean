import LineShell.Text.Utf8
import LineShell.Time.Civil

/-!
# Points in time

A point in time to the nanosecond, and the text for a date and time of day, such as
`Mar 04 2024 17:05:09`.
-/

namespace LineShell.Time

structure Instant where
  seconds : Int
  nanos : Nat := 0
deriving DecidableEq, Repr

def monthNames : List String :=
  ["Jan", "Feb", "Mar", "Apr", "May", "Jun", "Jul", "Aug", "Sep", "Oct", "Nov", "Dec"]

def twoDigits (n : Nat) : String := if n < 10 then s!"0{n}" else toString n

/-- A date and time of day, whose year is written as some other number. -/
def Civil.textWith (c : Civil) (year : Int) : String :=
  let month := monthNames.getD (c.month - 1) ""
  s!"{month} {twoDigits c.day} {year} {twoDigits c.hour}:{twoDigits c.minute}:{twoDigits c.second}"

def Civil.text (c : Civil) : String := c.textWith c.year

end LineShell.Time
