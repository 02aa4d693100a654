/-!
# Children

The processes a shell has made, each with what it was asked to become. A child stays the shell's
until its end has been collected.
-/

namespace LineShell.Programs

structure Image where
  path : String
  argv : List String
deriving DecidableEq, Repr

structure Child where
  pid : Nat
  image : Image
  collected : Bool := false
deriving DecidableEq, Repr

end LineShell.Programs
