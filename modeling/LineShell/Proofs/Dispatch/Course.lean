import LineShell.Programs.System
import LineShell.Proofs.Builtin.Effects
import LineShell.Proofs.Dispatch.Children
import LineShell.Proofs.Dispatch.Mirror
import LineShell.Proofs.Dispatch.Target

/-!
# The course of a command line

What a dispatch does from its first look at the name to its outcome, on an output that never
fails. There are four courses and they exclude each other: a built-in command, the end of the
shell, a name without a program and a launch. `dispatch_course`: every command line takes one.
-/

namespace LineShell

open LineShell.Action
open Programs (Host launchWith launch_notExecutable_iff isExecutable_iff perform_launchWith_unfit)

namespace Dispatcher

def builtinNames : List String := ["files", "info", "delete", "copy", "where", "down", "up"]

/-- A name that is left to programs. -/
def Foreign (name : String) : Prop := name ∉ builtinNames ∧ name ≠ "exit"

/-- The shell writes a text and nothing else happens. -/
structure Adds (s : Session) (text : String) (t : Session) : Prop where
  only : t = { s with out := t.out, log := t.log }
  contents : t.out.contents = s.out.contents ++ bytesOf text
  neverFails : t.out.NeverFails

/-- Nothing happens but that all output reaches the device. -/
structure Drains (s t : Session) : Prop where
  adds : Adds s "" t
  drained : t.out.pending = []

/-- What the shell makes of a launch that came to a result in a session. -/
inductive Ends (s : Session) :
    Except LaunchError ChildResult → Except (Stop CommandError) Outcome × Session → Prop
  | exited {code : Nat} {t : Session} : Adds s "" t →
      Ends s (.ok (.exited code)) (.ok (.external (.exited code)), t)
  | killed {pid signal : Nat} {t : Session} :
      Adds s (s!"Child process {pid} terminated abnormally" ++ "\n") t →
      Ends s (.ok (.killed pid signal)) (.ok (.external (.killed pid signal)), t)
  | failed {e : LaunchError} : (∀ path, e ≠ .notExecutable path) →
      Ends s (.error e) (.error (.refused (.launch e)), s)

inductive Course (host : Host) (path : SearchPath) (line : CommandLine) (s : Session) :
    Except (Stop CommandError) Outcome × Session → Prop
  /-- A built-in command goes before any program of its name. -/
  | builtin {result : Except (Stop CommandError) Bool} {t : Session} : line.name ∈ builtinNames →
      (Builtin.Registry.standard.execute line.fields).perform s = (result, t) →
      t.processes = s.processes → (onHost host path).Spawns line s none →
      Course host path line s (result.map fun _ => .builtin, t)
  | exit : line.name = "exit" → (onHost host path).Spawns line s none →
      Course host path line s (.ok .exit, s)
  | missing {t : Session} : Foreign line.name →
      (∀ target, path.CallsFor s.world line.name target → ¬ s.world.isExecutable target) →
      Adds s (notFoundText line.name) t →
      (onHost host path).Spawns line s none →
      Course host path line s (.ok .notFound, t)
  /-- Whoever launches programs is asked for one launch. -/
  | launched {target : String} {result : Except LaunchError ChildResult} {before after : Session}
      {outcome : Except (Stop CommandError) Outcome × Session} : Foreign line.name →
      path.CallsFor s.world line.name target → s.world.isExecutable target → Drains s before →
      (∀ launch, (((onHost host path).launching launch).dispatch line).perform s =
        concluded line.name ((launch target line.fields).perform before)) →
      (onHost host path).Spawns line s
        (if ∀ field ∈ line.fields, ¬ HoldsNul field then some ⟨target, line.fields⟩ else none) →
      (Programs.launch host target line.fields).perform before = (result, after) →
      Ends after result outcome → Course host path line s outcome

-- ---------------------------------------------------------------------------
-- Names
-- ---------------------------------------------------------------------------

variable {host : Host} {path : SearchPath} {line : CommandLine} {s t : Session}

theorem replies?_eq_none_of_not_mem {name : String} (h : name ∉ builtinNames) :
    Builtin.replies? name = none := by
  have hnames : Builtin.Registry.standard.names.Perm builtinNames := by decide
  rw [← hnames.mem_iff, ← Builtin.Registry.contains_iff] at h
  rw [Builtin.replies?_eq_none]
  simpa [Builtin.Registry.contains] using h

theorem Foreign.external (h : Foreign line.name) : External line :=
  ⟨replies?_eq_none_of_not_mem h.1, h.2⟩

-- ---------------------------------------------------------------------------
-- Words
-- ---------------------------------------------------------------------------

theorem adds_remark (hn : s.out.NeverFails) (text : String) (outcome : Outcome) :
    ∃ t, (remark text outcome).perform s = (.ok outcome, t) ∧ Adds s (text ++ "\n") t := by
  obtain ⟨hok, hn'⟩ := hn.put (bytesOf (text ++ "\n"))
  have hput : s.out.grant (.write (text ++ "\n")) =
      (.ok (), (s.out.put (bytesOf (text ++ "\n"))).2) := Prod.ext hok rfl
  rw [perform_remark, hput]
  exact ⟨_, rfl, rfl, hn.contents_put _, hn'⟩

theorem adds_missing (hn : s.out.NeverFails) (command : String) :
    ∃ t, (missing command).perform s = (.ok .notFound, t) ∧ Adds s (notFoundText command) t := by
  rw [missing_eq]
  exact adds_remark hn _ _

theorem Adds.after {before : Session} {text : String} (ht : Adds before text t)
    (h : Adds s "" before) : Adds s text t := by
  obtain ⟨honly, hcontents, -⟩ := h
  obtain ⟨honly', hcontents', hn'⟩ := ht
  refine ⟨?_, ?_, hn'⟩
  · rw [honly', honly]
  · rw [hcontents', hcontents]
    simp [bytesOf, Utf8.encode]

theorem adds_lookedUp (d : Dispatcher) (hn : s.out.NeverFails) : Adds s "" (d.lookedUp line s) :=
  ⟨rfl, (List.append_nil _).symm, hn⟩

theorem drains_prepared (d : Dispatcher) (hn : s.out.NeverFails) :
    Drains s (d.prepared line s) := by
  obtain ⟨-, hn', hp⟩ := hn.flush
  refine ⟨⟨rfl, ?_, hn'⟩, hp⟩
  exact (Sink.contents_flush _).trans (List.append_nil _).symm

-- ---------------------------------------------------------------------------
-- Launches
-- ---------------------------------------------------------------------------

theorem neverFails_launch (host : Host) (target : String) (argv : List String)
    (hn : s.out.NeverFails) (hp : s.out.pending = []) :
    ((Programs.launch host target argv).perform s).2.out.NeverFails := by
  have hmirrors := (Session.twins_straightened hn).mirrors
  have hagrees := carried_mirrors.agrees_launch (agrees_fork_mirrors host)
    (agrees_runChild_mirrors host) target argv
  obtain ⟨-, h⟩ := hagrees s s.straightened ⟨hmirrors, hp⟩
  exact h.neverFails

theorem ends_concluded {result : Except LaunchError ChildResult} (hn : s.out.NeverFails)
    (hx : ∀ target, result ≠ .error (.notExecutable target)) (command : String) :
    Ends s result (concluded command (result, s)) := by
  cases result with
  | ok child =>
    cases child with
    | exited code => exact .exited ⟨rfl, (List.append_nil _).symm, hn⟩
    | killed pid signal =>
      obtain ⟨t, ht, hadds⟩ := adds_remark hn s!"Child process {pid} terminated abnormally"
        (.external (.killed pid signal))
      rw [concluded, conclude_killed, perform_mapError, ht]
      exact .killed hadds
  | error e =>
    cases e with
    | notExecutable target => exact absurd rfl (hx target)
    | _ => exact .failed (by simp)

-- ---------------------------------------------------------------------------
-- All courses
-- ---------------------------------------------------------------------------

theorem course_builtin (hname : line.name ∈ builtinNames) :
    Course host path line s (((onHost host path).dispatch line).perform s) := by
  obtain ⟨replies, hreplies⟩ := Option.isSome_iff_exists.mp (Builtin.replies?_isSome hname)
  let ran := (Builtin.Registry.standard.execute line.fields).perform s
  have hprocesses : ran.2.processes = s.processes := by
    have htold := (Builtin.standard_serves hreplies line.args).tellsOnly s
    exact (congrArg Session.processes htold.onlyTold).trans rfl
  have hspawning (spawn : Spawner) :
      (((onHost host path).spawning spawn).dispatch line).perform s =
        (ran.1.map fun _ => .builtin, ran.2) :=
    perform_dispatch_command hreplies
  rw [perform_dispatch_command hreplies]
  exact .builtin hname rfl hprocesses (.nothing hspawning hprocesses)

theorem course_exit (hname : line.name = "exit") :
    Course host path line s (((onHost host path).dispatch line).perform s) := by
  have hnone : Builtin.replies? line.name = none := by
    rw [hname]
    rfl
  have hspawning (spawn : Spawner) :=
    perform_dispatch_exit (d := (onHost host path).spawning spawn) (s := s) hnone hname
  rw [perform_dispatch_exit hnone hname]
  exact .exit hname (.nothing hspawning rfl)

section
variable (hname : Foreign line.name) (hn : s.out.NeverFails)
include hname hn

theorem course_missing {before : Session} (hbefore : Adds s "" before)
    (hx : ∀ target, path.CallsFor s.world line.name target → ¬ s.world.isExecutable target) :
    Course host path line s (((missing line.name).mapError .refused).perform before) := by
  have hrequest : (onHost host path).request? line s.world = none := by
    unfold request?
    split
    · rfl
    · next target hp => exact if_neg fun h => hx target (SearchPath.callsFor_iff.mpr hp) h.1
  have hnone : (onHost host path).Spawns line s _ := spawns_flushed hname.external hn.flush.1
  rw [hrequest] at hnone
  obtain ⟨t, ht, hadds⟩ := adds_missing hbefore.neverFails line.name
  rw [perform_mapError, ht]
  exact .missing hname hx (hadds.after hbefore) hnone

theorem course_launched {target : String} (htarget : path.CallsFor s.world line.name target)
    (hx : s.world.isExecutable target) :
    Course host path line s (((onHost host path).dispatch line).perform s) := by
  let before := (onHost host path).prepared line s
  have h : External line := hname.external
  have hp : (onHost host path).searchPath.program? s.world line.name = some target :=
    SearchPath.callsFor_iff.mp htarget
  have hdrains : Drains s before := drains_prepared _ hn
  have hdispatch (launch : Launcher) :
      (((onHost host path).launching launch).dispatch line).perform s =
        concluded line.name ((launch target line.fields).perform before) :=
    perform_dispatch_flushed h hp hn.flush.1
  have hspawns : (onHost host path).Spawns line s _ := spawns_flushed h hn.flush.1
  simp only [request?, hp, hx, true_and] at hspawns
  have hafter := neverFails_launch host target line.fields hdrains.adds.neverFails hdrains.drained
  have hresult : ∀ other, ((Programs.launch host target line.fields).perform before).1 ≠
      .error (.notExecutable other) := fun other h =>
    (launch_notExecutable_iff.mp h).2 (isExecutable_iff.mp hx)
  rw [perform_dispatch_flushed h hp hn.flush.1]
  change Course host path line s
    (concluded line.name ((Programs.launch host target line.fields).perform before))
  rcases hlaunch : (Programs.launch host target line.fields).perform before with ⟨result, after⟩
  rw [hlaunch] at hafter hresult
  have hends := ends_concluded hafter hresult line.name
  exact .launched hname htarget hx hdrains hdispatch hspawns hlaunch hends

theorem course_foreign :
    Course host path line s (((onHost host path).dispatch line).perform s) := by
  have h : External line := hname.external
  cases hp : path.program? s.world line.name with
  | none =>
    rw [perform_dispatch_external h, perform_runProgram_missing (d := onHost host path) hp]
    refine course_missing hname hn (adds_lookedUp (onHost host path) hn) fun target htarget => ?_
    rw [SearchPath.callsFor_iff, hp] at htarget
    cases htarget
  | some target =>
    have htarget := SearchPath.callsFor_iff.mpr hp
    by_cases hx : s.world.isExecutable target
    · exact course_launched hname hn htarget hx
    · have hlaunch : ((onHost host path).launch target line.fields).perform
          ((onHost host path).prepared line s) = _ :=
        perform_launchWith_unfit _ (mt isExecutable_iff.mpr hx)
      rw [perform_dispatch_flushed h hp hn.flush.1, hlaunch]
      refine course_missing hname hn (drains_prepared _ hn).adds fun other hother => ?_
      rw [SearchPath.callsFor_iff, hp, Option.some.injEq] at hother
      rwa [← hother]

end

theorem dispatch_course (host : Host) (raw : List String) (line : CommandLine) {s : Session}
    (hn : s.out.NeverFails) :
    Course host (.ofList raw) line s
      (((onHost host (.ofList raw)).dispatch line).perform s) := by
  by_cases hbuiltin : line.name ∈ builtinNames
  · exact course_builtin hbuiltin
  · by_cases hexit : line.name = "exit"
    · exact course_exit hexit
    · exact course_foreign ⟨hbuiltin, hexit⟩ hn

theorem dispatch_course_launched :
    Sink.NeverFails {} ∧ ∃ before, Drains { world := .fresh } before ∧
      ∀ launch, (((onHost (.system false) (.ofList ["/bin", "", "/usr/bin/"])).launching
          launch).dispatch ⟨"true", ["--all"]⟩).perform { world := .fresh } =
        concluded "true" ((launch "/bin/true" ["true", "--all"]).perform before) := by
  have hn := Sink.neverFails_empty
  have hresolve : (SearchPath.ofList ["/bin", "", "/usr/bin/"]).resolve? .fresh "true" =
      some "/bin/true" := List.find?_cons_of_pos World.fresh_isExecutable_true
  have hprogram : (SearchPath.ofList ["/bin", "", "/usr/bin/"]).program? .fresh "true" =
      some "/bin/true" := by rw [SearchPath.program?, hresolve, Option.some_or]
  have hcourse := dispatch_course (.system false) ["/bin", "", "/usr/bin/"] ⟨"true", ["--all"]⟩
    (s := { world := .fresh }) hn
  refine ⟨hn, ?_⟩
  generalize Action.perform _ _ = outcome at hcourse
  cases hcourse with
  | builtin hname _ _ _ => exact absurd hname (by decide)
  | exit hname _ => exact absurd hname (by decide)
  | missing _ hx _ _ =>
    exact absurd World.fresh_isExecutable_true
      (hx "/bin/true" (SearchPath.callsFor_iff.mpr hprogram))
  | launched _ htarget _ hdrains hdispatch _ _ _ =>
    obtain rfl := Option.some.inj (hprogram.symm.trans (SearchPath.callsFor_iff.mp htarget))
    exact ⟨_, hdrains, hdispatch⟩

end Dispatcher

end LineShell
