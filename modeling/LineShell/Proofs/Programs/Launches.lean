import LineShell.Programs.Launch
import LineShell.Programs.System
import LineShell.Proofs.Action.Rules
import LineShell.Proofs.Programs.Waiting
import LineShell.Proofs.World.Fresh

/-!
# What becomes of a launch

A request to launch a program is refused for its path, refused for an argument, or granted, in this
order. Whoever makes the children is asked only if it is granted, and then once.
`launch_classifies`: the same for a host, with what its fork, its execution and its reports make of
the request.
-/

namespace LineShell

open LineShell.Action

namespace Programs

-- ---------------------------------------------------------------------------
-- Requests
-- ---------------------------------------------------------------------------

/-- The path leads, through every link, to a regular file that the user may execute. -/
def Executable (w : World) (path : String) : Prop :=
  ∃ node bytes, w.stat path = .ok node ∧ node.content = .file bytes ∧
    w.user.may .execute node.rights

/-- What keeps a path from being executable. -/
inductive Unfit (w : World) (path : String) : Prop
  | nul : HoldsNul path → Unfit w path
  | empty : path = "" → Unfit w path
  /-- Nothing is there, or nothing at the end of the links. -/
  | nowhere {f : Failure} : w.stat path = .error f → Unfit w path
  /-- A directory, a fifo or a device. -/
  | noFile {node : Files.Node} : w.stat path = .ok node → (∀ bytes, node.content ≠ .file bytes) →
      Unfit w path
  | locked {node : Files.Node} : w.stat path = .ok node →
      w.user.may .execute node.rights = false → Unfit w path

/-- The first argument that has a NUL. -/
def FirstNul (argv : List String) (argument : String) : Prop :=
  ∃ before after, argv = before ++ argument :: after ∧ (∀ other ∈ before, ¬ HoldsNul other) ∧
    HoldsNul argument

structure Granted (w : World) (path : String) (argv : List String) : Prop where
  executable : Executable w path
  noNul : ∀ argument ∈ argv, ¬ HoldsNul argument

variable {w : World} {path : String} {argv : List String}

theorem isExecutable_iff : w.isExecutable path ↔ Executable w path := by
  unfold World.isExecutable World.leadsTo Executable
  cases hstat : w.stat path with
  | error f => simp [Except.toOption]
  | ok node =>
    cases hcontent : node.content <;>
      simp [Except.toOption, World.mayRun, Files.Node.isFile, hcontent]

theorem granted_iff :
    Granted w path argv ↔ w.isExecutable path ∧ ∀ argument ∈ argv, ¬ HoldsNul argument := by
  rw [isExecutable_iff]
  exact ⟨fun h => ⟨h.executable, h.noNul⟩, fun h => ⟨h.1, h.2⟩⟩

theorem stat_of_holdsNul (h : HoldsNul path) : w.stat path = .error .nulInName := by
  simp [World.stat, World.locate, World.pathBytes, h]

theorem stat_empty : w.stat "" = .error (.system .noEntry) := by
  have hnul : ¬ HoldsNul "" := by decide
  have hbytes : World.pathBytes "" = .ok [] := by
    rw [World.pathBytes, if_neg hnul]
    rfl
  simp [World.stat, World.locate, hbytes, Files.FileTree.lookup, Files.FileTree.place]

theorem unfit_iff : Unfit w path ↔ ¬ Executable w path := by
  constructor
  · rintro hunfit ⟨node, bytes, hstat, hfile, hmode⟩
    cases hunfit with
    | nul h => simp [stat_of_holdsNul h] at hstat
    | empty h => simp [h, stat_empty] at hstat
    | nowhere h => simp [h] at hstat
    | noFile h hno =>
      obtain rfl : _ = node := Except.ok.inj (h.symm.trans hstat)
      exact hno bytes hfile
    | locked h hlocked =>
      obtain rfl : _ = node := Except.ok.inj (h.symm.trans hstat)
      simp [hlocked] at hmode
  · intro h
    cases hstat : w.stat path with
    | error f => exact .nowhere hstat
    | ok node =>
      by_cases hmode : w.user.may .execute node.rights = false
      · exact .locked hstat hmode
      · exact .noFile hstat fun bytes hfile => h ⟨node, bytes, hstat, hfile, by simpa using hmode⟩

theorem find?_holdsNul_iff {argument : String} :
    argv.find? (HoldsNul ·) = some argument ↔ FirstNul argv argument := by
  rw [List.find?_eq_some_iff_append]
  constructor
  · rintro ⟨hnul, before, after, hargv, hbefore⟩
    exact ⟨before, after, hargv, by simpa using hbefore, by simpa using hnul⟩
  · rintro ⟨before, after, hargv, hbefore, hnul⟩
    exact ⟨by simpa using hnul, before, after, hargv, by simpa using hbefore⟩

theorem find?_holdsNul_eq_none :
    argv.find? (HoldsNul ·) = none ↔ ∀ argument ∈ argv, ¬ HoldsNul argument := by
  simp

theorem FirstNul.unique {argument other : String} (h : FirstNul argv argument)
    (h' : FirstNul argv other) : argument = other :=
  Option.some.inj ((find?_holdsNul_iff.mpr h).symm.trans (find?_holdsNul_iff.mpr h'))

theorem Granted.not_firstNul (h : Granted w path argv) (argument : String) :
    ¬ FirstNul argv argument := by
  rintro ⟨before, after, rfl, -, hnul⟩
  exact h.noNul argument (by simp) hnul

/-- A request is refused for its path, or else for an argument, or else granted. -/
theorem request_cases (w : World) (path : String) (argv : List String) :
    ¬ Executable w path ∨ (∃ argument, Executable w path ∧ FirstNul argv argument) ∨
      Granted w path argv := by
  by_cases hx : Executable w path
  · right
    cases hfind : argv.find? (HoldsNul ·) with
    | some argument => exact .inl ⟨argument, hx, find?_holdsNul_iff.mp hfind⟩
    | none => exact .inr ⟨hx, find?_holdsNul_eq_none.mp hfind⟩
  · exact .inl hx

-- ---------------------------------------------------------------------------
-- Requests that are refused or granted
-- ---------------------------------------------------------------------------

section
variable {s : Session} (spawn : Image → Action LaunchError ChildResult)

theorem perform_launchWith_unfit (h : ¬ Executable s.world path) :
    (launchWith spawn path argv).perform s = (.error (.notExecutable path), s) := by
  have hx := Bool.eq_false_iff.mpr (mt isExecutable_iff.mp h)
  rw [launchWith, perform_bind_of_ok rfl]
  simp only [perform_world, hx]
  rfl

theorem perform_launchWith_nul {argument : String} (hx : Executable s.world path)
    (h : FirstNul argv argument) :
    (launchWith spawn path argv).perform s = (.error (.invalidArgument argument), s) := by
  rw [launchWith, perform_bind_of_ok rfl]
  simp only [perform_world, isExecutable_iff.mpr hx, find?_holdsNul_iff.mpr h]
  rfl

theorem Granted.perform_launchWith (h : Granted s.world path argv) :
    (launchWith spawn path argv).perform s = (spawn (imageFor path argv)).perform s := by
  rw [launchWith, perform_bind_of_ok rfl]
  simp only [perform_world, isExecutable_iff.mpr h.executable,
    find?_holdsNul_eq_none.mpr h.noNul]
  rfl

end

theorem perform_launchWith_refused (h : ¬ Granted w path argv) :
    ∃ e, ∀ spawn s, s.world = w → (launchWith spawn path argv).perform s = (.error e, s) := by
  rcases request_cases w path argv with hx | ⟨argument, hx, hnul⟩ | hgranted
  · refine ⟨.notExecutable path, ?_⟩
    rintro spawn s rfl
    exact perform_launchWith_unfit spawn hx
  · refine ⟨.invalidArgument argument, ?_⟩
    rintro spawn s rfl
    exact perform_launchWith_nul spawn hx hnul
  · exact absurd hgranted h

-- ---------------------------------------------------------------------------
-- Children
-- ---------------------------------------------------------------------------

variable {host : Host} {image : Image} {s : Session} {pid : Nat}

def newborn (s : Session) (pid : Nat) : World × Streams :=
  ({ s.world with lastPid := pid }, { input := s.stdin, shut := s.out.blocked.isSome })

/-- All that such a child does until it ends. -/
def life (host : Host) (image : Image) (s : Session) (pid : Nat) : Run :=
  host.run image (newborn s pid).1 (newborn s pid).2

def reportsOn (host : Host) (image : Image) (s : Session) (pid : Nat) : List WaitResult :=
  host.reports (newborn s pid).1 (life host image s pid).status

def leftBehind (run : Run) (s : Session) (child : Child) (events : List Log.Event) : Session :=
  { s with
    world := { s.world with lastPid := child.pid, files := run.files }
    stdin := s.stdin.drop run.taken
    out := s.out.passThrough run.output
    log := s.log ++ events
    forks := s.forks + 1
    children := s.children ++ [child] }

theorem collect_concat (pid : Nat) (children : List Child) (child : Child) (h : child.pid = pid) :
    collect pid (children ++ [child]) = children ++ [{ child with collected := true }] := by
  induction children with
  | nil => simp [collect, h]
  | cons other rest ih => simp [collect, h, ih]

def born (s : Session) (pid : Nat) (image : Image) : Session :=
  { s with
    world := { s.world with lastPid := pid }
    forks := s.forks + 1
    children := s.children ++ [⟨pid, image, false⟩] }

theorem perform_fork_ok (h : host.fork s.forks s.world = .ok pid) :
    (fork host image).perform s = (.ok pid, born s pid image) := by
  simp only [fork, perform_ofStep, h]
  rfl

theorem perform_spawn_unborn {errno : Errno} (h : host.fork s.forks s.world = .error errno) :
    (spawn host image).perform s =
      (.error (.spawn image.path errno),
        { s with forks := s.forks + 1, log := s.log ++ [.forkFailed image.path errno] }) := by
  have hfork : (fork host image).perform s = (.error (.spawn image.path errno),
      { s with forks := s.forks + 1, log := s.log ++ [.forkFailed image.path errno] }) := by
    simp only [fork, perform_ofStep, h]
  exact perform_bind_error hfork _

theorem perform_spawn_born (h : host.fork s.forks s.world = .ok pid) :
    (spawn host image).perform s =
      (waited pid (reportsOn host image s pid),
        leftBehind (life host image s pid) s
          ⟨pid, image, (await pid (reportsOn host image s pid)).1.isOk⟩
          (.spawned pid image.path :: (await pid (reportsOn host image s pid)).2)) := by
  rw [spawn, perform_bind_ok (perform_fork_ok h)]
  have hcollected := collect_concat pid s.children ⟨pid, image, false⟩ rfl
  have hrun : (runChild host image pid).perform (born s pid image) =
      (waited pid (reportsOn host image s pid),
        { leftBehind (life host image s pid) s ⟨pid, image, false⟩
            (.spawned pid image.path :: (await pid (reportsOn host image s pid)).2) with
          children :=
            if (await pid (reportsOn host image s pid)).1.isOk then
              collect pid (s.children ++ [⟨pid, image, false⟩])
            else s.children ++ [⟨pid, image, false⟩] }) := rfl
  rw [hrun, hcollected]
  cases (await pid (reportsOn host image s pid)).1.isOk <;> rfl

/-- A spawn tries one fork. -/
theorem forks_spawn (host : Host) (image : Image) (s : Session) :
    ((spawn host image).perform s).2.forks = s.forks + 1 := by
  cases hfork : host.fork s.forks s.world with
  | error errno => rw [perform_spawn_unborn hfork]
  | ok pid =>
    rw [perform_spawn_born hfork]
    rfl

theorem spawn_ne_refusal (host : Host) (image : Image) (s : Session) (text : String) :
    ((spawn host image).perform s).1 ≠ .error (.notExecutable text) ∧
      ((spawn host image).perform s).1 ≠ .error (.invalidArgument text) := by
  cases hfork : host.fork s.forks s.world with
  | error errno =>
    rw [perform_spawn_unborn hfork]
    simp
  | ok pid =>
    rw [perform_spawn_born hfork, waited]
    cases (await pid (reportsOn host image s pid)).1 <;> simp

theorem passThrough_nil (out : Sink) : out.passThrough [] = out := by
  unfold Sink.passThrough
  split
  · rfl
  · rw [List.append_nil]

theorem life_eq {run : Run} (h : host.exec image (newborn s pid).1 (newborn s pid).2 = some run) :
    life host image s pid = run := by
  rw [life, Host.run, h]
  rfl

theorem life_noImage (h : host.exec image (newborn s pid).1 (newborn s pid).2 = none) :
    life host image s pid = { files := s.world.files, status := 127 * 256 } := by
  rw [life, Host.run, h]
  rfl

-- ---------------------------------------------------------------------------
-- The whole launch
-- ---------------------------------------------------------------------------

structure Classifies (host : Host) (path : String) (argv : List String) (s : Session) : Prop where
  notExecutable_iff : ∀ p, ((launch host path argv).perform s).1 = .error (.notExecutable p) ↔
    p = path ∧ ¬ Executable s.world path
  unfit_iff : Unfit s.world path ↔ ¬ Executable s.world path
  invalidArgument_iff : ∀ argument,
    ((launch host path argv).perform s).1 = .error (.invalidArgument argument) ↔
      Executable s.world path ∧ FirstNul argv argument
  argument_ne_path : ∀ argument,
    ((launch host path argv).perform s).1 = .error (.invalidArgument argument) → argument ≠ path
  /-- Nobody is asked for a child, and nothing else happens. -/
  refused : ¬ Granted s.world path argv →
    ∃ e, ∀ spawn, (launchWith spawn path argv).perform s = (.error e, s)
  /-- Whoever makes the children is asked for one, and nothing else happens. -/
  granted : Granted s.world path argv → ∀ spawn, (launchWith spawn path argv).perform s =
    (spawn ⟨path, if argv = [] then [path] else argv⟩).perform s
  /-- One fork is tried, whether it succeeds or not. -/
  forked : Granted s.world path argv →
    ((launch host path argv).perform s).2.forks = s.forks + 1
  unborn : Granted s.world path argv → ∀ errno, host.fork s.forks s.world = .error errno →
    (launch host path argv).perform s = (.error (.spawn path errno),
      { s with forks := s.forks + 1, log := s.log ++ [.forkFailed path errno] })
  /-- The child does what executing its image comes to, and is waited for by its number. -/
  executed : Granted s.world path argv → ∀ pid image run, host.fork s.forks s.world = .ok pid →
    image = ⟨path, if argv = [] then [path] else argv⟩ →
    host.exec image (newborn s pid).1 (newborn s pid).2 = some run →
    ∃ result events, (launch host path argv).perform s =
        (result, leftBehind run s ⟨pid, image, result.isOk⟩ (.spawned pid path :: events)) ∧
      Awaits pid (host.reports (newborn s pid).1 run.status) result
  /-- A child that can execute nothing does nothing at all and ends with a code of its own. -/
  noImage : Granted s.world path argv → ∀ pid image, host.fork s.forks s.world = .ok pid →
    image = ⟨path, if argv = [] then [path] else argv⟩ →
    host.exec image (newborn s pid).1 (newborn s pid).2 = none →
    ∃ result log, (launch host path argv).perform s =
        (result, { s with
          world := { s.world with lastPid := pid }
          log
          forks := s.forks + 1
          children := s.children ++ [⟨pid, image, result.isOk⟩] }) ∧
      Awaits pid (host.reports (newborn s pid).1 (127 * 256)) result ∧
      (Tells (host.reports (newborn s pid).1 (127 * 256)) (127 * 256) →
        result = .ok (.exited 127))

theorem launch_notExecutable_iff {p : String} :
    ((launch host path argv).perform s).1 = .error (.notExecutable p) ↔
      p = path ∧ ¬ Executable s.world path := by
  rw [launch]
  rcases request_cases s.world path argv with hx | ⟨argument, hx, hnul⟩ | hgranted
  · rw [perform_launchWith_unfit _ hx]
    simp [hx, eq_comm]
  · rw [perform_launchWith_nul _ hx hnul]
    simp [hx]
  · rw [hgranted.perform_launchWith]
    simp [hgranted.executable, (spawn_ne_refusal host _ s p).1]

theorem launch_invalidArgument_iff {argument : String} :
    ((launch host path argv).perform s).1 = .error (.invalidArgument argument) ↔
      Executable s.world path ∧ FirstNul argv argument := by
  rw [launch]
  rcases request_cases s.world path argv with hx | ⟨other, hx, hnul⟩ | hgranted
  · rw [perform_launchWith_unfit _ hx]
    simp [hx]
  · rw [perform_launchWith_nul _ hx hnul]
    constructor
    · intro h
      obtain rfl : other = argument := by simpa using h
      exact ⟨hx, hnul⟩
    · rintro ⟨-, hfirst⟩
      rw [hnul.unique hfirst]
  · rw [hgranted.perform_launchWith]
    simp [(spawn_ne_refusal host _ s argument).2, hgranted.not_firstNul]

theorem isOk_waited (pid : Nat) (reports : List WaitResult) :
    (waited pid reports).isOk = (await pid reports).1.isOk := by
  rw [waited]
  cases (await pid reports).1 <;> rfl

theorem Granted.perform_launch (h : Granted s.world path argv)
    (hfork : host.fork s.forks s.world = .ok pid) :
    (launch host path argv).perform s =
      (waited pid (reportsOn host (imageFor path argv) s pid),
        leftBehind (life host (imageFor path argv) s pid) s
          ⟨pid, imageFor path argv, (await pid (reportsOn host (imageFor path argv) s pid)).1.isOk⟩
          (.spawned pid path :: (await pid (reportsOn host (imageFor path argv) s pid)).2)) := by
  rw [launch, h.perform_launchWith, perform_spawn_born hfork]
  rfl

/-- Every request is refused without a fork, or granted one. -/
theorem launch_classifies (host : Host) (path : String) (argv : List String) (s : Session) :
    Classifies host path argv s where
  notExecutable_iff p := launch_notExecutable_iff
  unfit_iff := unfit_iff
  invalidArgument_iff argument := launch_invalidArgument_iff
  argument_ne_path argument h := by
    obtain ⟨hx, before, after, -, -, hnul⟩ := launch_invalidArgument_iff.mp h
    rintro rfl
    exact unfit_iff.mp (.nul hnul) hx
  refused h := by
    obtain ⟨e, he⟩ := perform_launchWith_refused h
    exact ⟨e, fun spawn => he spawn s rfl⟩
  granted h spawn := h.perform_launchWith spawn
  forked h := by
    rw [launch, h.perform_launchWith, forks_spawn]
  unborn h errno hfork := by
    rw [launch, h.perform_launchWith, perform_spawn_unborn hfork]
    rfl
  executed h pid image run hfork himage hexec := by
    subst himage
    have hlife : life host (imageFor path argv) s pid = run := life_eq hexec
    rw [h.perform_launch hfork, reportsOn, hlife]
    exact ⟨_, _, by rw [isOk_waited]; rfl, awaits_iff.mpr rfl⟩
  noImage h pid image hfork himage hexec := by
    subst himage
    have hlife : life host (imageFor path argv) s pid = _ := life_noImage hexec
    rw [h.perform_launch hfork, reportsOn, hlife, leftBehind, passThrough_nil, List.drop_zero,
      ← isOk_waited]
    refine ⟨_, _, rfl, awaits_iff.mpr rfl, fun htells => ?_⟩
    have hending : ending? pid (127 * 256) = some (.exited 127) := rfl
    rw [waited, await_tells htells hending]
    rfl

/-- A host with one program, which takes a byte and says something. Its children are reported as
stopped before they are reported as ended. -/
def oneProgram : Host where
  fork attempts _ := .ok (attempts + 7)
  exec image w streams :=
    if image.path = "/bin/true" then
      some { files := w.files, taken := 1, output := streams.input.take 1, status := 3 * 256 }
    else none
  reports _ status := [.failed .interrupted, .status 0x137f, .status status]

theorem launch_classifies_oneProgram :
    let s : Session := { world := .fresh, stdin := bytesOf "xy" }
    Granted s.world "/bin/true" [] ∧ Granted s.world "/bin/false" ["false"] ∧
      ((launch oneProgram "/bin/true" []).perform s).1 = .ok (.exited 3) ∧
      ((launch oneProgram "/bin/true" []).perform s).2.stdin = bytesOf "y" ∧
      ((launch oneProgram "/bin/true" []).perform s).2.children =
        [⟨7, ⟨"/bin/true", ["/bin/true"]⟩, true⟩] ∧
      ((launch oneProgram "/bin/false" ["false"]).perform s).1 = .ok (.exited 127) ∧
      ((launch oneProgram "/bin/false" ["false"]).perform s).2.stdin = bytesOf "xy" := by
  intro s
  have htrue : Granted s.world "/bin/true" [] :=
    granted_iff.mpr ⟨World.fresh_isExecutable_true, by simp⟩
  have hfalse : Granted s.world "/bin/false" ["false"] :=
    granted_iff.mpr ⟨World.fresh_isExecutable_false, by decide⟩
  have hclassifies := launch_classifies oneProgram "/bin/true" [] s
  obtain ⟨result, events, hran, hresult⟩ := hclassifies.executed htrue 7 _ _ rfl rfl rfl
  have hclassifies' := launch_classifies oneProgram "/bin/false" ["false"] s
  obtain ⟨result', log, hran', -, hends⟩ := hclassifies'.noImage hfalse 7 _ rfl rfl rfl
  have htells : Tells [.failed .interrupted, .status 0x137f, .status (127 * 256)] (127 * 256) := by
    refine ⟨[.failed .interrupted, .status 0x137f], [], rfl, ?_⟩
    simp only [List.forall_mem_cons, List.not_mem_nil, false_implies, implies_true, and_true]
    exact ⟨.interrupted, .changed rfl⟩
  have hwaited : waited 7 [.failed .interrupted, .status 0x137f, .status (3 * 256)] =
      .ok (.exited 3) := rfl
  obtain rfl : .ok (.exited 3) = result := hwaited.symm.trans (awaits_iff.mp hresult)
  obtain rfl : result' = .ok (.exited 127) := hends htells
  rw [hran, hran']
  exact ⟨htrue, hfalse, rfl, rfl, rfl, rfl, rfl⟩

end Programs

end LineShell
