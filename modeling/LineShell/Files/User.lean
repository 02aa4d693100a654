import LineShell.Files.Node

/-!
# Users

Who asks for a file. What a user may do with a node depends on its mode, its owner and on whether
it is a directory, and on the rules of the system, of which only two sets are written out: those
for the user who may do everything, and those for a user who has files but no groups.
-/

namespace LineShell.Files

inductive Access
  | read
  | write
  /-- To execute a file, or to follow a name in a directory. -/
  | execute
  /-- To take the entry of a node with this owner out of a directory that may be written. -/
  | discard (owner : Nat)
deriving DecidableEq, Repr

structure Rights where
  mode : Nat
  owner : Nat
  isDirectory : Bool
deriving DecidableEq, Repr

def Node.rights (n : Node) : Rights := ⟨n.mode, n.owner, n.isDirectory⟩

structure User where
  id : Nat
  may : Access → Rights → Bool

namespace User

/-- Even this user executes only files that someone may execute. -/
def superuser : User where
  id := 0
  may access r := access ≠ .execute || r.isDirectory || r.mode &&& 0o111 != 0

/-- The three bits of a mode that count for a user. -/
def bitsFor (id : Nat) (r : Rights) : Nat := if r.owner = id then r.mode / 64 % 8 else r.mode % 8

def sticky : Nat := 0o1000

def ordinary (id : Nat) : User where
  id
  may
    | .read, r => bitsFor id r &&& 4 != 0
    | .write, r => bitsFor id r &&& 2 != 0
    | .execute, r => bitsFor id r &&& 1 != 0
    | .discard owner, r => r.mode &&& sticky == 0 || owner == id || r.owner == id

end User

def FileTree.grants (t : FileTree) (u : User) (access : Access) (id : NodeId) : Bool :=
  (t.node? id).any fun node => u.may access node.rights

end LineShell.Files
