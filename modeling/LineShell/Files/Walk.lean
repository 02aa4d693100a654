import LineShell.Errno
import LineShell.Files.Path
import LineShell.Files.User

/-!
# Following paths

Where a path leads a user in a file tree. A walk goes name by name through directories in which
the user may follow names, expands the symbolic links it meets, and ends at a node or at a name
that its directory has no entry for. Links are counted, so that links which lead in circles are
found out; the count and the names still to go bound the walk.
-/

namespace LineShell.Files

inductive Place
  | node (id : NodeId)
  | vacant (dir : NodeId) (name : Name)
deriving DecidableEq, Repr

/-- What a path is followed for. It decides about the last name only. -/
inductive Aim
  /-- The node itself, be it a link. -/
  | entry
  /-- The node that links lead to. -/
  | target
  /-- A place for a new file, which no path with a slash at its end can name. -/
  | creation
deriving DecidableEq, Repr

namespace FileTree

def walk (t : FileTree) (u : User) (aim : Aim) (links : Nat) (names : List Name) (cur : NodeId)
    (toDirectory : Bool) : Except Errno Place :=
  match names with
  | [] =>
    if toDirectory && (t.directory? cur).isNone then .error .notDirectory else .ok (.node cur)
  | name :: rest =>
    match t.directory? cur with
    | none => .error .notDirectory
    | some dir =>
      if !t.grants u .execute cur then .error .denied
      else if name = here then t.walk u aim links rest cur toDirectory
      else if name = above then t.walk u aim links rest dir.parent toDirectory
      else if aim = .creation && rest.isEmpty && toDirectory then .error .isDirectory
      else if longestName < name.length then .error .nameTooLong
      else match dir.find? name with
        | none => if rest.isEmpty then .ok (.vacant cur name) else .error .noEntry
        | some id =>
          match t.link? id with
          | none => t.walk u aim links rest id toDirectory
          | some target =>
            if aim = .entry && rest.isEmpty && !toDirectory then .ok (.node id)
            else match links with
              | 0 => .error .tooManyLinks
              | links + 1 =>
                let path := Path.ofBytes target
                t.walk u aim links (path.names ++ rest) (if path.absolute then root else cur)
                  (toDirectory || rest.isEmpty && path.toDirectory)
termination_by (links, names.length)

def place (t : FileTree) (u : User) (cwd : NodeId) (aim : Aim) (path : Bytes) :
    Except Errno Place :=
  if path = [] then .error .noEntry
  else if longestPath < path.length then .error .nameTooLong
  else
    let p := Path.ofBytes path
    t.walk u aim mostLinks p.names (if p.absolute then root else cwd) p.toDirectory

def lookup (t : FileTree) (u : User) (cwd : NodeId) (path : Bytes) : Except Errno NodeId :=
  match t.place u cwd .target path with
  | .error e => .error e
  | .ok (.vacant ..) => .error .noEntry
  | .ok (.node id) => .ok id

end FileTree

end LineShell.Files
