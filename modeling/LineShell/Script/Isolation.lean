import LineShell.Script.Machine

/-!
# Parts of a script that run apart

What a part of a script may leave behind. A part that runs apart keeps its variables, its
directory and its handlers to itself, while the files it changes, the input it takes and what it
writes are everyone's. Whatever a part is given for its time only is taken back at its end, also
if it jumps out of its place.
-/

namespace LineShell.Script

def guarded (action : Step Unit) (undo : Machine → Machine) : Step Unit := do
  tryCatch action fun jump => do
    modify undo
    throw jump
  modify undo

/-- Runs a part apart, and leaves its status. Only a signal reaches the rest of the script. -/
def isolated (action : Step Unit) : Step Unit := do
  let outer ← get
  set { outer with apart := true }
  let code ← tryCatch (do action; return (← get).status) fun
    | .exit code => return code
    | .killed signal => throw (.killed signal)
    | _ => do return (← get).status
  let m ← get
  set { outer with
    world := { m.world with cwd := outer.world.cwd, umask := outer.world.umask }
    stdin := m.stdin, taken := m.taken, inputs := m.inputs
    output := m.output, piped := m.piped
    waiting := m.waiting, status := code % 256 }

def captured (action : Step Unit) : Step Bytes := do
  let outer ← get
  set { outer with outlets := outer.outlets.set 1 .pipe, piped := [] }
  isolated action
  let m ← get
  set { m with outlets := outer.outlets, piped := outer.piped }
  return m.piped

def feeding (input : Bytes) (action : Step Unit) : Step Unit := do
  modify fun m => { m with inputs := input :: m.inputs }
  guarded action fun m => { m with inputs := m.inputs.drop 1 }

-- ---------------------------------------------------------------------------
-- Loops

def mostTurns : Nat := 10000

def turn (action : Step Bool) : Step Bool :=
  tryCatch action fun
    | .leaveLoop 0 => return false
    | .leaveLoop (outer + 1) => throw (.leaveLoop outer)
    | .nextTurn 0 => return true
    | .nextTurn (outer + 1) => throw (.nextTurn outer)
    | jump => throw jump

def looping (action : Step Unit) : Step Unit := do
  let outer ← get
  set { outer with loops := outer.loops + 1, status := 0 }
  guarded action ({ · with loops := outer.loops })

def repeatWhile (condition : Step Bool) (body : Step Unit) : Nat → Step Unit
  | 0 => leave misuse
  | turns + 1 => do
    let last := (← get).status
    let again ← turn do
      if ← condition then
        body
        return true
      else
        setStatus last
        return false
    if again then repeatWhile condition body turns

def repeatFor (body : Chars → Step Unit) : List Chars → Step Unit
  | [] => pure ()
  | value :: values => do
    let again ← turn do
      body value
      return true
    if again then repeatFor body values

end LineShell.Script
