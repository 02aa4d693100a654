import LineShell.Time.Stamp
import LineShell.Time.Zone

/-!
# Clocks

How local time is shown. The calendar and the format of dates are a library's, which has no date
for every count of seconds and writes a date into room of a fixed size. Where a date cannot be had
or does not fit, the count of seconds stands for it.

`Clock.ofZone` is the library as it is found on a system: years are kept, counted from 1900, and
written as numbers of 32 bits with a sign.
-/

namespace LineShell.Time

structure Clock where
  /-- The local date and time of a count of seconds. -/
  localTime : Int → Option Civil
  /-- The text of a date, written into room for so many bytes. It is empty if it does not fit. -/
  format : Nat → Civil → Bytes

namespace Clock

def textRoom : Nat := 64

def localText (clock : Clock) (seconds : Int) : String :=
  match clock.localTime seconds with
  | none => toString seconds
  | some civil =>
    let text := clock.format textRoom civil
    if text = [] then toString seconds else shown text

end Clock

-- ---------------------------------------------------------------------------
-- The library of a system

def fitsWord (n : Int) : Bool := -2147483648 ≤ n && n ≤ 2147483647

/-- The number that is left of one in a word of 32 bits. -/
def wrapped (n : Int) : Int := (n + 2147483648) % 4294967296 - 2147483648

def YearFits (year : Int) : Prop := fitsWord (year - 1900)

instance (year : Int) : Decidable (YearFits year) := inferInstanceAs (Decidable (_ = true))

/-- One byte of the room is for the end of the text. -/
def written (room : Nat) (text : String) : Bytes :=
  if (bytesOf text).length < room then bytesOf text else []

def Clock.ofZone (zone : Zone) : Clock where
  localTime seconds :=
    let civil := Civil.ofSeconds (seconds + zone.east)
    if YearFits civil.year then some civil else none
  format room c := written room (c.textWith (wrapped c.year))

def Clock.utc : Clock := .ofZone .utc

end LineShell.Time
