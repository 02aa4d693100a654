import LineShell.Files.Change

/-!
# Planting files

A tree is set up from a list of plants. Each one says what is at a path; directories that are
missing on the way are made, and what is there already takes on the content and the attributes
of the plant. Times are set last, since making an entry changes the time of its directory.
-/

namespace LineShell.Files

inductive PlantKind
  | file (bytes : Bytes)
  | directory
  | fifo
  | link (target : Bytes)
deriving DecidableEq, Repr

structure Plant where
  path : Bytes
  kind : PlantKind
  mode : Nat
  owner : Nat := 0
  modified : Time.Instant
deriving DecidableEq, Repr

def directoryMode : Nat := 0o755

def linkMode : Nat := 0o777

def directoryNode (parent : NodeId) (mode : Nat) (now : Time.Instant) : Node :=
  ⟨.directory ⟨parent, []⟩, mode, 0, now⟩

def Plant.node (p : Plant) (parent : NodeId) : Node :=
  match p.kind with
  | .file bytes => ⟨.file bytes, p.mode, p.owner, p.modified⟩
  | .directory => directoryNode parent p.mode p.modified
  | .fifo => ⟨.fifo, p.mode, p.owner, p.modified⟩
  | .link target => ⟨.link target, linkMode, p.owner, p.modified⟩

namespace FileTree

/-- The directory along `names`, made where it is missing. -/
def makeDirectories (t : FileTree) (cur : NodeId) (now : Time.Instant) :
    List Name → Except Errno (NodeId × FileTree)
  | [] => .ok (cur, t)
  | name :: rest =>
    match t.walk .superuser .target mostLinks [name] cur true with
    | .error e => .error e
    | .ok (.node id) => t.makeDirectories id now rest
    | .ok (.vacant dir name) =>
      let (id, t) := t.add dir name (directoryNode dir directoryMode now) now
      t.makeDirectories id now rest

/-- The plant takes over the node that is there, if it is of its kind. -/
def overgrow (t : FileTree) (id : NodeId) (p : Plant) : Except Errno FileTree :=
  match p.kind, t.node? id with
  | .file bytes, some ⟨.file _, _, _, _⟩ =>
    .ok (t.update id fun node => { node with content := .file bytes, mode := p.mode })
  | .file _, some ⟨.directory _, _, _, _⟩ => .error .isDirectory
  | .directory, some ⟨.directory _, _, _, _⟩ => .ok (t.update id ({ · with mode := p.mode }))
  | _, _ => .error .alreadyThere

/-- Only the user number 0 owns files here. -/
def plant (t : FileTree) (base : NodeId) (now : Time.Instant) (p : Plant) :
    Except Errno FileTree := do
  if p.owner ≠ 0 then throw .notPermitted
  let names := (Path.ofBytes p.path).names
  let (parent, t) ← t.makeDirectories base now names.dropLast
  match names.getLast? with
  | none => t.overgrow parent p
  | some name =>
    match ← t.walk .superuser .target mostLinks [name] parent false with
    | .node id => t.overgrow id p
    | .vacant dir name => return (t.add dir name (p.node dir) now).2

/-- Gives the node at a path its time. A link keeps its own. -/
def setTime (t : FileTree) (base : NodeId) (path : Bytes) (time : Time.Instant) : FileTree :=
  match t.place .superuser base .entry path with
  | .ok (.node id) => t.update id ({ · with modified := time })
  | _ => t

def plantAll (t : FileTree) (base : NodeId) (now : Time.Instant) (plants : List Plant) :
    Except Errno FileTree := do
  let t ← plants.foldlM (fun t p => t.plant base now p) t
  return plants.foldl (fun t p => t.setTime base p.path p.modified) t

-- ---------------------------------------------------------------------------
-- Everything below a directory

/-- The nodes below a directory, each with its path from there. What lies in a directory is
numbered after it. -/
def below (t : FileTree) (id : NodeId) (path : Bytes) : List (Bytes × NodeId) :=
  match t.directory? id with
  | none => []
  | some dir => dir.entries.flatMap fun (name, child) =>
    let path := if path = [] then name else path ++ slash :: name
    (path, child) ::
      if _h : id < child ∧ child < t.nodes.size then t.below child path else []
termination_by t.nodes.size - id
decreasing_by exact Nat.sub_lt_sub_left (Nat.lt_trans _h.1 _h.2) _h.1

def clear (t : FileTree) (base : NodeId) (path : Bytes) (now : Time.Instant) : FileTree :=
  let names := (Path.ofBytes path).names
  match t.walk .superuser .target mostLinks names.dropLast base true, names.getLast? with
  | .ok (.node parent), some name =>
    match (t.directory? parent).bind (·.find? name) with
    | none => t
    | some id =>
      let gone := id :: (t.below id []).map (·.2)
      gone.foldl (fun t id => t.setEntries id now fun _ => []) (t.drop parent name now)
  | _, _ => t

end FileTree

end LineShell.Files
