import LineShell.Script.Expansion

/-!
# Redirections

Where commands read and write. The redirections of a command are opened one after the other
before it runs, and if one cannot be opened the command does not run at all.
-/

namespace LineShell.Script

/-- The outlet of a file that is opened for writing, emptied unless it is added to. -/
def openOutlet (path : Chars) (keep : Bool) : Step (Option Outlet) := do
  let m ← get
  let w := m.world
  match w.files.create w.user w.cwd (bytesFrom path) (0o666 - (0o666 &&& w.umask)) w.now with
  | .error _ => return none
  | .ok (id, files) =>
    let files := if keep then files else files.setContent id [] w.now
    set { m with world := { w with files } }
    return some (if (files.file? id).isSome then .file id else .nowhere)

def openInput (m : Machine) (path : Chars) : Option Bytes :=
  (m.world.follow? (bytesFrom path)).map fun node => node.bytes?.getD []

def redirect (descriptor : Nat) (outlet : Option Outlet) : Step Bool := do
  match outlet with
  | none => return false
  | some outlet => do
    modify fun m => { m with outlets := m.outlets.set descriptor outlet }
    return true

def openRedirection (descriptor : Nat) (how : Redirect) (target : Chars) : Step Bool := do
  let m ← get
  match how with
  | .read =>
    match openInput m target with
    | none => return false
    | some bytes => do
      if descriptor = Redirect.usual .read then set { m with inputs := bytes :: m.inputs }
      return true
  | .write => redirect descriptor (← openOutlet target false)
  | .append => redirect descriptor (← openOutlet target true)
  | .duplicate =>
    redirect descriptor (if isNumeral target then some (m.outlets.get (number target))
      else if target = ['-'] then some .nowhere else none)

def openAll (inner : Inner) : List Redirection → Step Bool
  | [] => return true
  | r :: rest => do
    let target ← inner.expandWhole r.target
    if ← openRedirection r.descriptor r.how target then openAll inner rest else return false

def redirecting (inner : Inner) (redirections : List Redirection) (action : Step Unit) :
    Step Unit := do
  let outer ← get
  guarded (do if ← openAll inner redirections then action else setStatus misuse) fun m =>
    { m with outlets := outer.outlets
             inputs := m.inputs.drop (m.inputs.length - outer.inputs.length) }

def deliver (text : Chars) : Step Bool := do
  let m ← get
  let bytes := bytesFrom text
  match m.outlets.output with
  | .nowhere => return true
  | .transcript => do
    if m.shut then return bytes = []
    set { m with output := m.output ++ bytes }
    return true
  | .pipe => do
    set { m with piped := m.piped ++ bytes }
    return true
  | .file id => do
    let w := m.world
    let old := (w.files.file? id).getD []
    set { m with world := { w with files := w.files.setContent id (old ++ bytes) w.now } }
    return true

end LineShell.Script
