import LineShell.Files.Walk

/-!
# Changing a file tree

Adding and removing entries, writing files and setting attributes. A change of its entries makes
a directory modified. Every change keeps the numbers of the nodes, and a new node gets the next
number.
-/

namespace LineShell.Files

def permissionBits (mode : Nat) : Nat := mode % 0o10000

namespace FileTree

def update (t : FileTree) (id : NodeId) (change : Node → Node) : FileTree :=
  ⟨t.nodes.modify id change⟩

def setEntries (t : FileTree) (id : NodeId) (now : Time.Instant)
    (change : List (Name × NodeId) → List (Name × NodeId)) : FileTree :=
  t.update id fun node =>
    match node.content with
    | .directory dir =>
      { node with
        content := .directory { dir with entries := change dir.entries }, modified := now }
    | _ => node

def add (t : FileTree) (dir : NodeId) (name : Name) (node : Node) (now : Time.Instant) :
    NodeId × FileTree :=
  let id := t.nodes.size
  (id, FileTree.setEntries ⟨t.nodes.push node⟩ dir now (· ++ [(name, id)]))

/-- The directory without its entry for a name. The node stays, for those who hold its number. -/
def drop (t : FileTree) (dir : NodeId) (name : Name) (now : Time.Instant) : FileTree :=
  t.setEntries dir now (·.filter (·.1 ≠ name))

def setContent (t : FileTree) (id : NodeId) (bytes : Bytes) (now : Time.Instant) : FileTree :=
  t.update id fun node =>
    match node.content with
    | .file _ => { node with content := .file bytes, modified := now }
    | _ => node

def mayDiscard (t : FileTree) (u : User) (dir id : NodeId) : Bool :=
  (t.node? id).any fun node => t.grants u (.discard node.owner) dir

/-- The tree without the entry a path names. Links are not followed at the end of the path, and
directories are not removed. -/
def unlink (t : FileTree) (u : User) (cwd : NodeId) (path : Bytes) (now : Time.Instant) :
    Except Errno FileTree :=
  if path = [] then .error .noEntry
  else if longestPath < path.length then .error .nameTooLong
  else
    let p := Path.ofBytes path
    match t.walk u .target mostLinks p.names.dropLast (if p.absolute then root else cwd) true with
    | .error e => .error e
    | .ok (.vacant ..) => .error .noEntry
    | .ok (.node parent) =>
      match p.names.getLast?, t.directory? parent with
      | some name, some dir =>
        if !t.grants u .execute parent then .error .denied
        else if name = here ∨ name = above then .error .isDirectory
        else if longestName < name.length then .error .nameTooLong
        else match dir.find? name with
          | none => .error .noEntry
          | some id =>
            if p.toDirectory then
              .error (if (t.directory? id).isSome then .isDirectory else .notDirectory)
            else if !t.grants u .write parent then .error .denied
            else if !t.mayDiscard u parent id then .error .notPermitted
            else if (t.directory? id).isSome then .error .isDirectory
            else .ok (t.drop parent name now)
      | none, _ => .error .isDirectory
      | _, none => .error .notDirectory

-- ---------------------------------------------------------------------------
-- Laws

theorem node?_update (t : FileTree) (id : NodeId) (change : Node → Node) (other : NodeId) :
    (t.update id change).node? other =
      if other = id then (t.node? other).map change else t.node? other := by
  simp only [update, node?, Array.getElem?_modify]
  by_cases h : other = id
  · subst h; simp
  · simp [h, Ne.symm h]

theorem node?_push (t : FileTree) (node : Node) (id : NodeId) :
    (⟨t.nodes.push node⟩ : FileTree).node? id =
      if id = t.nodes.size then some node else t.node? id := by
  simp [node?, Array.getElem?_push]

end FileTree

end LineShell.Files
