import LineShell.Files.Node
import LineShell.Text.Pieces

/-!
# Paths

A path as the names between its slashes. It starts at the root or at the directory in use, and a
slash at its end says that it has to lead to a directory.
-/

namespace LineShell.Files

def slash : UInt8 := 0x2F

def here : Name := [0x2E]

def above : Name := [0x2E, 0x2E]

structure Path where
  absolute : Bool
  names : List Name
  toDirectory : Bool
deriving DecidableEq, Repr

namespace Path

def ofBytes (bytes : Bytes) : Path where
  absolute := bytes.head? = some slash
  names := (Text.pieces slash bytes).filter (· ≠ [])
  toDirectory := bytes.getLast? = some slash

def render (names : List Name) : Bytes :=
  if names = [] then [slash] else names.flatMap (slash :: ·)

/-- A path to `name` in the directory that `dir` leads to. An absolute name stays as it is. -/
def join (dir name : Bytes) : Bytes :=
  if dir = [] || name.head? = some slash then name
  else if dir.getLast? = some slash then dir ++ name
  else dir ++ slash :: name

end Path

/-- The longest path and the longest name a system call takes, in bytes. -/
def longestPath : Nat := 4095

def longestName : Nat := 255

def mostLinks : Nat := 40

end LineShell.Files
