import LineShell.Builtin.Command

/-!
# Moving between directories

Where the shell is, and how it goes down into a directory and up to the one above. The arguments
of the way down are one path, so that a name with single spaces in it can be typed as it is.
-/

namespace LineShell.Builtin

def whereAmI : Command := nullary do
  let path ← asking "where" (Action.query fun w => w.currentPath.mapError .refused)
  say (shown path)

def enter (name path : String) : Action (Stop CommandError) Unit :=
  asking name (Action.request fun w => ((w.enter path).mapError .refused).map fun w => ((), w))

def down : Command := fun fields =>
  match fields.tail with
  | [] => do
    let _ ← checkArguments fields 1
  | args => do
    let path := String.intercalate " " args
    let w ← Action.world
    if w.isDirectory path then do
      enter "down" path
      Action.note (.entered path)
    else say "Error directory does not exist"

def up : Command := nullary (enter "up" "..")

end LineShell.Builtin
