import LineShell.Programs.Host
import LineShell.Session

/-!
# Launching programs

One program, run to its end. A request is refused before there is a child if its path leads to
no executable file or if an argument cannot be passed on; otherwise one child is made, executes
the image, and is waited for.
-/

namespace LineShell.Programs

/-- A program without arguments gets its path as its name. -/
def imageFor (path : String) (argv : List String) : Image :=
  ⟨path, if argv = [] then [path] else argv⟩

/-- Collects the end of the last child that got the number. -/
def collect (pid : Nat) : List Child → List Child
  | [] => []
  | child :: rest =>
    if child.pid = pid && !rest.any (·.pid = pid) then { child with collected := true } :: rest
    else child :: collect pid rest

def fork (host : Host) (image : Image) : Action LaunchError Nat :=
  Action.ofStep fun s =>
    let asked := { s with forks := s.forks + 1 }
    match host.fork s.forks s.world with
    | .error errno =>
      (.error (.spawn image.path errno), { asked with
        log := s.log ++ [.forkFailed image.path errno] })
    | .ok pid =>
      (.ok pid, { asked with
        world := { s.world with lastPid := pid }
        children := s.children ++ [⟨pid, image, false⟩] })

def runChild (host : Host) (image : Image) (pid : Nat) : Action LaunchError ChildResult :=
  Action.ofStep fun s =>
    let run := host.run image s.world { input := s.stdin, shut := s.out.blocked.isSome }
    let (result, events) := await pid (host.reports s.world run.status)
    (result.mapError (.wait (pid : Int)), { s with
      world := { s.world with files := run.files }
      stdin := s.stdin.drop run.taken
      out := s.out.passThrough run.output
      log := s.log ++ .spawned pid image.path :: events
      children := if result.isOk then collect pid s.children else s.children })

def spawn (host : Host) (image : Image) : Action LaunchError ChildResult := do
  let pid ← fork host image
  runChild host image pid

/-- Spawns a child for a path and arguments, unless the request is refused. -/
def launchWith (spawn : Image → Action LaunchError ChildResult) (path : String)
    (argv : List String) : Action LaunchError ChildResult := do
  let w ← Action.world
  if !w.isExecutable path then throw (.notExecutable path)
  else match argv.find? (HoldsNul ·) with
    | some argument => throw (.invalidArgument argument)
    | none => spawn (imageFor path argv)

def launch (host : Host) : String → List String → Action LaunchError ChildResult :=
  launchWith (spawn host)

end LineShell.Programs
