import LineShell.Log.Directive
import LineShell.Text.Pieces
import LineShell.Text.Utf8

/-!
# Which events are shown

A filter is a list of directives. Of those that speak of an event the most specific one decides,
and of two equal ones the last.
-/

namespace LineShell.Log

abbrev Filter := List Directive

namespace Filter

/-- The more specific of two directives, the later one if there is no difference. -/
def weightier (a : Option Directive) (b : Directive) : Option Directive :=
  if a.all (b.AtLeast ·) then some b else a

def decisive? (f : Filter) (e : Event) : Option Directive :=
  (f.filter (·.speaksOf e)).foldl weightier none

def admits (f : Filter) (e : Event) : Bool := (f.decisive? e).any (·.admits e)

def ofLevel (finest : Level) : Filter := [{ finest := some finest }]

/-- Directives between commas. A text without any lets errors through. -/
def ofText? (text : String) : Option Filter :=
  ((Text.pieces ',' text.toList).filter (· ≠ [])).mapM Directive.ofText? |>.map fun
    | [] => ofLevel .error
    | directives => directives

def ofVariable? (value : Option Bytes) : Option Filter := do
  let cs ← Utf8.decode? (← value)
  ofText? (String.ofList cs)

end Filter

end LineShell.Log
