import LineShell.Text.Utf8

/-!
# Words of scripts

Scripts are bytes, and each byte is seen as the character of its number. A word is made of
literal parts and of parts whose values are put in when the word is used: parameters, what other
scripts print, and numbers that are computed. What is quoted is never split into fields.
-/

namespace LineShell.Script

/-- A text with one character for each byte. -/
abbrev Chars := List Char

def charsOf (bytes : Bytes) : Chars := bytes.map fun b => Char.ofNat b.toNat

def bytesFrom (cs : Chars) : Bytes := cs.map fun c => UInt8.ofNat c.toNat

/-- A text as a script sees it. -/
def charsIn (s : String) : Chars := charsOf (bytesOf s)

inductive Parameter
  /-- An argument by its number; the number nought is the name of the script. -/
  | argument (number : Nat)
  | count
  | arguments
  | joined
  | status
  | self
  | named (name : Chars)
deriving DecidableEq, Repr

inductive Remedy
  | replace
  /-- The parameter gets a value first. -/
  | assign
  | refuse
  /-- Another word stands in unless the parameter is lacking. -/
  | invert
deriving DecidableEq, Repr

inductive Use
  | value
  | length
  /-- With a remedy, for an empty value too if that counts as lacking. -/
  | guarded (remedy : Remedy) (emptyLacks : Bool) (word : Chars)
deriving DecidableEq, Repr

inductive Segment
  | literal (text : Chars) (quoted : Bool)
  | parameter (parameter : Parameter) (use : Use) (quoted : Bool)
  /-- What another script prints. -/
  | output (script : Chars) (quoted : Bool)
  /-- The value of an arithmetic expression. -/
  | number (expression : Chars) (quoted : Bool)
deriving DecidableEq, Repr

abbrev Word := List Segment

def Segment.unsplit : Segment → Segment
  | .parameter p .value _ => .parameter p .value true
  | .output script _ => .output script true
  | segment => segment

def bareText? : Word → Option Chars
  | [] => some []
  | .literal text false :: rest => (bareText? rest).map (text ++ ·)
  | _ => none

def isNameStart (c : Char) : Bool := c.isAlpha || c = '_'

def isNameChar (c : Char) : Bool := c.isAlphanum || c = '_'

def isName (cs : Chars) : Bool := cs.head?.any isNameStart && cs.all isNameChar

def isNumeral (cs : Chars) : Bool := cs ≠ [] && cs.all Char.isDigit

def number (digits : Chars) : Nat := digits.foldl (fun n c => n * 10 + (c.toNat - 48)) 0

def specialParameter? (c : Char) : Option Parameter :=
  if c = '#' then some .count
  else if c = '@' then some .arguments
  else if c = '*' then some .joined
  else if c = '?' then some .status
  else if c = '$' then some .self
  else if c.isDigit then some (.argument (c.toNat - 48))
  else none

def leadingParameter? (cs : Chars) : Option (Parameter × Chars) :=
  match cs with
  | [] => none
  | c :: rest =>
    if isNameStart c then some (.named (cs.takeWhile isNameChar), cs.dropWhile isNameChar)
    else if c.isDigit then
      some (.argument (number (cs.takeWhile Char.isDigit)), cs.dropWhile Char.isDigit)
    else (specialParameter? c).map (·, rest)

def remedy? (c : Char) : Option Remedy :=
  match c with
  | '-' => some .replace
  | '=' => some .assign
  | '?' => some .refuse
  | '+' => some .invert
  | _ => none

def useFor? : Chars → Option Use
  | [] => some .value
  | ':' :: c :: word => (remedy? c).map (.guarded · true word)
  | c :: word => (remedy? c).map (.guarded · false word)

def braced? (cs : Chars) : Option (Parameter × Use) :=
  match cs with
  | '#' :: c :: rest =>
    match leadingParameter? (c :: rest) with
    | some (parameter, []) => some (parameter, .length)
    | _ => (useFor? (c :: rest)).map (.count, ·)
  | cs => (leadingParameter? cs).bind fun (parameter, rest) => (useFor? rest).map (parameter, ·)

end LineShell.Script
