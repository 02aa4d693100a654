import LineShell.Builtin.Arity
import LineShell.Session

/-!
# Built-in commands

A built-in command is an action on its fields, the first of which is its name. It writes its lines
one after the other, and ends at the first one that cannot be written; requests to the system that
are refused are failures of the command, and one that is never answered leaves it waiting.
-/

namespace LineShell.Builtin

abbrev Command := List String → Action (Stop CommandError) Unit

def say (text : String) : Action (Stop CommandError) Unit :=
  (Action.writeLine text).mapError fun failure => .refused (.output failure)

def sayAll : List String → Action (Stop CommandError) Unit
  | [] => pure ()
  | text :: rest => do
    say text
    sayAll rest

/-- Requests to the system on behalf of the command `name`. -/
def asking (name : String) (requests : Action (Stop Failure) α) : Action (Stop CommandError) α :=
  requests.mapError (·.map (.builtin name))

/-- The number of arguments is the expected one. A command with another one is told so. -/
def checkArguments (fields : List String) (expected : Nat) : Action (Stop CommandError) Bool :=
  match arityComplaint fields expected with
  | some complaint => do
    say complaint
    return false
  | none => return true

def gated (expected : Nat) (body : List String → Action (Stop CommandError) Unit) : Command :=
  fun fields => do
    if ← checkArguments fields expected then body fields.tail

def nullary (body : Action (Stop CommandError) Unit) : Command := gated 0 fun _ => body

def unary (body : String → Action (Stop CommandError) Unit) : Command :=
  gated 1 fun
    | [argument] => body argument
    | _ => pure ()

def binary (body : String → String → Action (Stop CommandError) Unit) : Command :=
  gated 2 fun
    | [first, second] => body first second
    | _ => pure ()

end LineShell.Builtin
