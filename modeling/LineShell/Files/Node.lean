import LineShell.Text.Utf8
import LineShell.Time.Stamp

/-!
# Nodes of a file tree

What a directory entry can lead to, with the attributes every node has. A directory knows the
directory it lies in and lists its entries in the order in which they came to be; names are bytes
and need not be text. The nodes of a tree are numbered, the root first, and numbers are never
given twice: a directory that is removed while it is in use keeps its number.
-/

namespace LineShell.Files

abbrev Name := Bytes

abbrev NodeId := Nat

structure Directory where
  parent : NodeId
  entries : List (Name × NodeId)
deriving DecidableEq

inductive Content
  | file (bytes : Bytes)
  | directory (dir : Directory)
  | fifo
  | link (target : Bytes)
  /-- A device that swallows what is written to it and gives nothing to read. -/
  | device
deriving DecidableEq

structure Node where
  content : Content
  mode : Nat
  owner : Nat
  modified : Time.Instant
deriving DecidableEq

namespace Node

def isDirectory (n : Node) : Bool := n.content matches .directory _

def isFile (n : Node) : Bool := n.content matches .file _

def isFifo (n : Node) : Bool := n.content matches .fifo

theorem isFile_iff {n : Node} : n.isFile ↔ ∃ bytes, n.content = .file bytes := by
  unfold isFile
  cases n.content <;> simp

theorem isFifo_iff {n : Node} : n.isFifo ↔ n.content = .fifo := by
  unfold isFifo
  cases n.content <;> simp

def bytes? (n : Node) : Option Bytes :=
  match n.content with
  | .file bytes => some bytes
  | _ => none

def size (n : Node) : Nat := (n.bytes?.map (·.length)).getD 0

end Node

structure FileTree where
  nodes : Array Node

namespace FileTree

def root : NodeId := 0

def empty (now : Time.Instant) : FileTree := ⟨#[⟨.directory ⟨root, []⟩, 0o755, 0, now⟩]⟩

def node? (t : FileTree) (id : NodeId) : Option Node := t.nodes[id]?

def directory? (t : FileTree) (id : NodeId) : Option Directory :=
  match t.node? id with
  | some ⟨.directory dir, _, _, _⟩ => some dir
  | _ => none

def link? (t : FileTree) (id : NodeId) : Option Bytes :=
  match t.node? id with
  | some ⟨.link target, _, _, _⟩ => some target
  | _ => none

def file? (t : FileTree) (id : NodeId) : Option Bytes :=
  match t.node? id with
  | some ⟨.file bytes, _, _, _⟩ => some bytes
  | _ => none

end FileTree

def Directory.find? (dir : Directory) (name : Name) : Option NodeId :=
  (dir.entries.find? (·.1 = name)).map (·.2)

def Directory.nameOf? (dir : Directory) (id : NodeId) : Option Name :=
  (dir.entries.find? (·.2 = id)).map (·.1)

/-- The names that lead from the root to a directory, unless it has been removed. A directory is
numbered after the one it lies in, which bounds the way up. -/
def FileTree.namesOf? (t : FileTree) (id : NodeId) : Option (List Name) :=
  if id = root then some []
  else match t.directory? id with
    | none => none
    | some dir =>
      if dir.parent < id then do
        let above ← t.namesOf? dir.parent
        let name ← (t.directory? dir.parent).bind (·.nameOf? id)
        return above ++ [name]
      else none
termination_by id

end LineShell.Files
