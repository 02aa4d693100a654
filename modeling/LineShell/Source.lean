import LineShell.Failure
import LineShell.Text.Pieces
import LineShell.Text.Utf8

/-!
# Input sources

Input comes in reads, each of which brings some bytes, none at an end of input, or a failure.
A line is gathered from as many reads as it takes; bytes that came after its end are held for
the next one. An interrupted read is tried again, and any other failure drops what was gathered.
-/

namespace LineShell

inductive Read
  /-- No bytes are an end of input. -/
  | data (bytes : Bytes)
  | failure (failure : Failure)
deriving DecidableEq, Repr

/-- After the last read the input is at its end for ever. -/
structure Source where
  held : Bytes := []
  reads : List Read := []
deriving DecidableEq, Repr

namespace Source

def blocks (size : Nat) : Bytes → List Bytes
  | [] => []
  | b :: rest => (b :: rest.take (size - 1)) :: blocks size (rest.drop (size - 1))
termination_by bytes => bytes.length
decreasing_by simp only [List.length_drop, List.length_cons]; omega

def readsOf (size : Nat) (bytes : Bytes) : List Read := (blocks size bytes).map .data

def upcoming (reads : List Read) : Bytes :=
  reads.flatMap fun
    | .data bytes => bytes
    | .failure _ => []

/-- The first line of some bytes with its line feed, and what follows. -/
def cutLine (bytes : Bytes) : Option (Bytes × Bytes) :=
  (Text.cutAt 0x0A bytes).map fun (line, rest) => (line ++ [0x0A], rest)

def gather : List Read → Except Failure Bytes × Source
  | [] => (.ok [], ⟨[], []⟩)
  | .failure f :: reads => if f.kind = .interrupted then gather reads else (.error f, ⟨[], reads⟩)
  | .data [] :: reads => (.ok [], ⟨[], reads⟩)
  | .data bytes :: reads =>
    match cutLine bytes with
    | some (line, rest) => (.ok line, ⟨rest, reads⟩)
    | none =>
      let (more, source) := gather reads
      (more.map (bytes ++ ·), source)

/-- The next line with its line feed. The last line may lack it, and at an end of input there is
no byte at all. -/
def takeLine (s : Source) : Except Failure Bytes × Source :=
  match cutLine s.held with
  | some (line, rest) => (.ok line, { s with held := rest })
  | none =>
    let (more, source) := gather s.reads
    (more.map (s.held ++ ·), source)

-- ---------------------------------------------------------------------------
-- Laws

theorem flatten_blocks (size : Nat) (bytes : Bytes) : (blocks size bytes).flatten = bytes := by
  fun_induction blocks size bytes with
  | case1 => rfl
  | case2 b rest ih => simp [ih]

theorem upcoming_readsOf (size : Nat) (bytes : Bytes) : upcoming (readsOf size bytes) = bytes := by
  simp [upcoming, readsOf, List.flatMap_map, flatten_blocks]

end Source

def lineText (bytes : Bytes) : Except Failure String :=
  (Utf8.decode? bytes).elim (.error .notUtf8) fun cs => .ok (String.ofList cs)

end LineShell
