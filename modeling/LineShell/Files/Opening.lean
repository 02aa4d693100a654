import LineShell.Failure
import LineShell.Files.Change

/-!
# Opening files

A file that is opened is known by its node from then on, whatever becomes of its path. Nobody
holds the other end of a fifo, so that whoever opens one waits for ever.
-/

namespace LineShell.Files.FileTree

/-- What a path leads to, for reading. Directories can be opened so, too. -/
def openForReading (t : FileTree) (u : User) (cwd : NodeId) (path : Bytes) :
    Except (Stop Errno) NodeId :=
  match t.lookup u cwd path with
  | .error e => .error (.refused e)
  | .ok id =>
    if !t.grants u .read id then .error (.refused .denied)
    else if (t.node? id).any (·.isFifo) then .error .waits
    else .ok id

def openNode (t : FileTree) (u : User) (id : NodeId) : Except (Stop Errno) Unit :=
  if (t.directory? id).isSome then .error (.refused .isDirectory)
  else if !t.grants u .write id then .error (.refused .denied)
  else if (t.node? id).any (·.isFifo) then .error .waits
  else .ok ()

def openForWriting (t : FileTree) (u : User) (cwd : NodeId) (path : Bytes) :
    Except (Stop Errno) NodeId :=
  match t.lookup u cwd path with
  | .error e => .error (.refused e)
  | .ok id => (t.openNode u id).map fun () => id

/-- The file at a path, for writing: a new and empty one with the given mode where there is
none. A directory that was removed takes no new entries. -/
def create (t : FileTree) (u : User) (cwd : NodeId) (path : Bytes) (mode : Nat)
    (now : Time.Instant) : Except (Stop Errno) (NodeId × FileTree) :=
  match t.place u cwd .creation path with
  | .error e => .error (.refused e)
  | .ok (.node id) => (t.openNode u id).map fun () => (id, t)
  | .ok (.vacant dir name) =>
    if (t.namesOf? dir).isNone then .error (.refused .noEntry)
    else if !t.grants u .write dir then .error (.refused .denied)
    else .ok (t.add dir name ⟨.file [], permissionBits mode, u.id, now⟩ now)

end LineShell.Files.FileTree
