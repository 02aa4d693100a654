/-!
# Numbers of arguments

The first field of a command is its name and is no argument. A command with the wrong number of
arguments is told so in one line, which names the first argument too many.
-/

namespace LineShell.Builtin

def given (fields : List String) : Nat := fields.length - 1

def arityComplaint (fields : List String) (expected : Nat) : Option String :=
  let name := fields.headD ""
  if h : expected + 1 < fields.length then
    some s!"Unexpected argument {fields[expected + 1]} for command {name}"
  else if given fields < expected then
    some ("Missing argument for command " ++ name)
  else none

theorem arityComplaint_eq_none {fields : List String} {expected : Nat} :
    arityComplaint fields expected = none ↔ given fields = expected := by
  unfold arityComplaint given
  split
  · simp; omega
  · split
    · simp; omega
    · simp; omega

end LineShell.Builtin
