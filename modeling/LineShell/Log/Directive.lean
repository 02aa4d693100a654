import LineShell.Log.Event
import LineShell.Text.Blank
import LineShell.Text.Visible

/-!
# Directives of log filters

A directive says how fine the events may be that it speaks of. It is written as an origin, a span
in brackets with a field in braces, and a level after a sign of equality, each of which may be
missing; a level on its own speaks of all events. Without a level everything is let through.
-/

namespace LineShell.Log

structure Directive where
  /-- The start of the origins this speaks of. Without one it speaks of all. -/
  origin : Option String := none
  /-- A field that an event must have. -/
  field : Option String := none
  /-- The finest level it lets through, if it lets anything through. -/
  finest : Option Level := some .trace
  /-- It speaks only of events inside a span, and a shell has no spans. -/
  inSpan : Bool := false
deriving DecidableEq, Repr

def Event.hasField (e : Event) (name : String) : Bool :=
  name = "message" || e.fields.any (·.1 = name)

namespace Directive

def speaksOf (d : Directive) (e : Event) : Bool :=
  !d.inSpan && d.origin.all (fun o => o.toList.isPrefixOf e.origin.toList) &&
    d.field.all e.hasField

def admits (d : Directive) (e : Event) : Bool := d.finest.any (·.admits e.level)

/-- How specific an origin is: the longer, the more. -/
def originWeight (d : Directive) : Nat := (d.origin.map (·.length + 1)).getD 0

/-- One directive is at least as specific as another that speaks of the same event. The origin
counts before the field, and of two fields the one with the greater name. -/
def AtLeast (a b : Directive) : Prop :=
  b.originWeight < a.originWeight ∨
    a.originWeight = b.originWeight ∧ ∀ name ∈ b.field, ∃ own ∈ a.field, name ≤ own

instance (a b : Directive) : Decidable (AtLeast a b) :=
  inferInstanceAs (Decidable (_ ∨ _ ∧ ∀ name ∈ b.field, ∃ own ∈ a.field, name ≤ own))

-- ---------------------------------------------------------------------------
-- Reading levels

def levels : List Level := [.error, .warn, .info, .debug, .trace]

def numeral? (cs : List Char) : Option Nat :=
  let digits := if cs.head? = some '+' then cs.tail else cs
  if digits ≠ [] ∧ digits.all Char.isDigit then
    some (digits.foldl (fun n c => n * 10 + (c.toNat - 48)) 0)
  else none

/-- A level by its name in any case or by its number, where nought lets nothing through. -/
def level? (cs : List Char) : Option (Option Level) :=
  match numeral? cs with
  | some n => if n = 0 then some none else (levels.find? (·.rank = n)).map some
  | none =>
    let name := String.ofList (cs.map Char.toUpper)
    if name = "OFF" then some none else (levels.find? (·.text = name)).map some

def grant? (cs : List Char) : Option (Option Level) :=
  if cs = [] then some (some .trace) else level? cs

-- ---------------------------------------------------------------------------
-- Reading directives

/-- Where marks and pictures lie among the characters beyond ASCII. -/
def signRanges : List (Nat × Nat) := [
  (0x80, 0xA9), (0xAB, 0xB1), (0xB4, 0xB4), (0xB6, 0xB8), (0xBB, 0xBB), (0xBF, 0xBF), (0xD7, 0xD7),
  (0xF7, 0xF7), (0x2000, 0x206F), (0x20A0, 0x20FF), (0x2190, 0x245F), (0x2500, 0x2775),
  (0x2794, 0x2BFF), (0x2E00, 0x3004), (0x3008, 0x3020), (0xFE10, 0xFE6F), (0xFF01, 0xFF0F),
  (0xFF1A, 0xFF20), (0x1F000, 0x1F0FF), (0x1F300, 0x1FAFF)]

def isLetter (c : Char) : Bool :=
  if c.toNat < 0x80 then c.isAlphanum
  else Text.showsAlone c && signRanges.all fun (a, b) => c.toNat < a || b < c.toNat

def startsOrigin (c : Char) : Bool := c = '-' || c = ':' || c = '_' || isLetter c

/-- What is being read, and at which place it started. -/
inductive Place
  | start
  | origin (first : Nat)
  | span (first : Nat)
  | field (first : Nat)
  | afterField
  | afterSpan
  | level (first : Nat)
deriving DecidableEq, Repr

/-- Takes the character at place `i`. `part` gives the text between two places. A field that must
have a value concerns spans only, and so does a span with a name. -/
def take (part : Nat → Nat → List Char) (d : Directive) (i : Nat) (c : Char) :
    Place → Option (Place × Directive)
  | .start =>
    if c = '[' then some (.span (i + 1), d)
    else if startsOrigin c then some (.origin i, d)
    else none
  | .origin first =>
    let named := { d with origin := some (String.ofList (part first i)) }
    if c = '=' then some (.level (i + 1), named)
    else if c = '[' then some (.span (i + 1), named)
    else some (.origin first, d)
  | .span first =>
    if c = ']' then some (.afterSpan, { d with inSpan := true })
    else if c = '\x7b' then some (.field (i + 1), { d with inSpan := decide (part first i ≠ []) })
    else some (.span first, d)
  | .field first =>
    let text := part first i
    if c ≠ '\x7d' then some (.field first, d)
    else if text = [] then none
    else
      let name := String.ofList (text.takeWhile (· ≠ '='))
      some (.afterField, { d with field := some name, inSpan := d.inSpan || '=' ∈ text })
  | .afterField => if c = ']' then some (.afterSpan, d) else none
  | .afterSpan => if c = '=' then some (.level (i + 1), d) else none
  | .level first => some (.level first, d)

def finish (rest : Nat → List Char) (d : Directive) : Place → Option Directive
  | .origin first =>
    match level? (rest first) with
    | some finest => some { d with finest }
    | none => some { d with origin := some (String.ofList (rest first)) }
  | .level first => (grant? (rest first)).map fun finest => { d with finest }
  | .afterSpan => some d
  | _ => none

/-- Blanks at the two ends are passed over, but places are counted as if there were none. -/
def ofText? (text : List Char) : Option Directive := do
  let part (first last : Nat) := (text.drop first).take (last - first)
  let (place, d) ← (Text.trim text).zipIdx.foldlM
    (fun (place, d) (c, i) => take part d i c place) (Place.start, {})
  finish text.drop d place

end Directive

end LineShell.Log
