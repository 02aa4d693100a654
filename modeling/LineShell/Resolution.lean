import LineShell.Config.SearchPath
import LineShell.Log.Event
import LineShell.World

/-!
# Resolving command names

Which file a command name stands for. A name that starts with a slash or a dot is a path and
stands for itself, whether or not there is such a file. Any other name is looked up in the
directories of the search path, and the first executable file of that name is taken.
-/

namespace LineShell.SearchPath

def IsPath (command : String) : Prop :=
  command.toList.head? = some '/' ∨ command.toList.head? = some '.'

instance (command : String) : Decidable (IsPath command) := inferInstanceAs (Decidable (_ ∨ _))

def resolve? (path : SearchPath) (w : World) (command : String) : Option String :=
  if command = "" then none
  else if IsPath command then some command
  else (path.candidates command).find? w.isExecutable

/-- What there is to note about looking a name up. -/
def resolveEvents (path : SearchPath) (w : World) (command : String) : List Log.Event :=
  if command = "" ∨ IsPath command then []
  else
    let misses := path.dirs.takeWhile fun dir => !w.isExecutable (dir ++ command)
    let last := match path.resolve? w command with
      | some found => Log.Event.resolved command found
      | none => .unresolved command
    misses.map (.noMatch command) ++ [last]

/-- The program that a command name calls for: what it resolves to, or else the file of that very
name in the directory in use. -/
def program? (path : SearchPath) (w : World) (command : String) : Option String :=
  (path.resolve? w command).or (if w.isExecutable command then some command else none)

end LineShell.SearchPath
