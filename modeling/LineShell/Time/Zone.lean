/-!
# Time zones

A zone at a fixed distance from UTC, read from the form in which the environment gives it: a name,
a sign and hours, minutes and seconds. The distance counts what is added to local time to get
UTC, so zones east of Greenwich have a minus sign. A text of another form means UTC.
-/

namespace LineShell.Time

structure Zone where
  east : Int
deriving DecidableEq, Repr

namespace Zone

def utc : Zone := ⟨0⟩

/-- A number of at most two digits, and what follows it. -/
def readNumber (cs : List Char) : Option (Nat × List Char) :=
  match cs.takeWhile Char.isDigit with
  | [] => none
  | ds => if ds.length ≤ 2 then
      some (ds.foldl (fun n d => n * 10 + (d.toNat - 48)) 0, cs.drop ds.length)
    else none

/-- A further part of an offset, after a colon; an absent one is nought. -/
def readPart (cs : List Char) : Option (Nat × List Char) :=
  match cs with
  | ':' :: rest => readNumber rest
  | _ => some (0, cs)

def readOffset (cs : List Char) : Option Nat := do
  let (hours, rest) ← readNumber cs
  let (minutes, rest) ← readPart rest
  let (seconds, rest) ← readPart rest
  if rest = [] then some (min hours 24 * 3600 + min minutes 59 * 60 + min seconds 59) else none

def afterName (cs : List Char) : Option (List Char) :=
  match cs with
  | '<' :: rest =>
    match rest.dropWhile (· ≠ '>') with
    | _ :: rest => some rest
    | [] => none
  | _ =>
    let name := cs.takeWhile Char.isAlpha
    if 3 ≤ name.length then some (cs.drop name.length) else none

def parse? (cs : List Char) : Option Zone := do
  match ← afterName cs with
  | '-' :: rest => (readOffset rest).map fun n => ⟨n⟩
  | '+' :: rest => (readOffset rest).map fun n => ⟨-n⟩
  | rest => (readOffset rest).map fun n => ⟨-n⟩

def ofText (text : String) : Zone := (parse? text.toList).getD utc

end Zone

end LineShell.Time
