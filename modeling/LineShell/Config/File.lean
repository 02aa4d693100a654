import LineShell.Config.Reader
import LineShell.World

/-!
# Configuration files

A configuration read from the file at a path.
-/

namespace LineShell.Config

def ofFile (w : World) (path : Bytes) : Except (Stop Error) Config :=
  match w.readText path with
  | .error stop => .error (stop.map .unreadable)
  | .ok text => (load text).mapError .refused

end LineShell.Config
