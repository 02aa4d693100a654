import LineShell.Builtin.Command

/-!
# Listing the directory in use

One line for each name, in the order of the names' bytes. A link counts as what it leads to, and
everything that is no directory counts as a file. Names that are not text are shown as well as
they can be, which does not change their place.
-/

namespace LineShell.Builtin

def entryPath (name : Files.Name) : Bytes := Files.here ++ Files.slash :: name

def kindWord (w : World) (name : Files.Name) : String :=
  if (w.follow? (entryPath name)).any (·.isDirectory) then "dir" else "file"

def listingLine (w : World) (name : Files.Name) : String := kindWord w name ++ ": " ++ shown name

def inOrder (names : List Files.Name) : List Files.Name := names.mergeSort (· ≤ ·)

/-- Nothing is said before all the names are known. -/
def filesBy (read : World → Reading) : Command := nullary do
  let names ← asking "files" (Action.query fun w => (read w).names.mapError .refused)
  let w ← Action.world
  sayAll ((inOrder names).map (listingLine w))

def files : Command := filesBy World.reading

end LineShell.Builtin
