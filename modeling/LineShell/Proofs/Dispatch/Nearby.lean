import Mathlib.Data.Prod.Basic
import LineShell.Proofs.Dispatch.Course
import LineShell.Proofs.Resolution.FirstMatch

/-!
# The directory in use

A program in the directory in use is found in two ways: by its bare name, when no directory of the
search path has it, or by an entry for that directory at the end of the search path.
`dispatch_concurs`: both ways come to the same, also where the entry makes a path that is too long.
-/

namespace LineShell

open LineShell.Action
open Programs (Child FirstNul Host Image isExecutable_iff launchWith life newborn
  perform_launchWith_nul perform_launchWith_unfit perform_spawn_born perform_spawn_unborn reportsOn
  request_cases spawn)

-- ---------------------------------------------------------------------------
-- Sessions that differ in their records
-- ---------------------------------------------------------------------------

/-- The sessions are the same but for what has been noted and for the table of processes. -/
def Session.Apart (s t : Session) : Prop := t = { s with log := t.log, children := t.children }

/-- The sessions are the same but for what has been noted. -/
def Session.LogApart (s t : Session) : Prop := t = { s with log := t.log }

open Session (Apart LogApart)

theorem Session.Apart.logApart {s t : Session} (h : s.Apart t)
    (hchildren : t.children = s.children) : s.LogApart t := by
  rw [Apart, hchildren] at h
  exact h

theorem Session.LogApart.apart {s t : Session} (h : s.LogApart t) : s.Apart t := by
  rw [h]
  rfl

theorem carried_apart : Carried Apart Apart where
  world h := by rw [h]
  setWorld w h := by
    rw [h]
    rfl
  log events h := by
    rw [h]
    rfl
  write text s t h := by
    rw [h]
    exact ⟨rfl, rfl⟩
  flush s t h := by
    rw [h]
    exact ⟨rfl, rfl⟩
  weaken _ _ h := h

/-- Two images do the same in the same circumstances. -/
def Programs.Host.Alike (host : Host) (image image' : Image) : Prop :=
  ∀ w streams, host.exec image w streams = host.exec image' w streams

section
variable {host : Host} {image image' : Image} {s t : Session} {pid : Nat}

theorem reportsOn_apart (halike : host.Alike image image') (h : s.Apart t) (pid : Nat) :
    life host image' t pid = life host image s pid ∧
      reportsOn host image' t pid = reportsOn host image s pid := by
  have hlife : life host image' t pid = life host image s pid := by
    rw [h, life, life, Host.run, Host.run, halike]
    rfl
  refine ⟨hlife, ?_⟩
  rw [reportsOn, reportsOn, hlife, h]
  rfl

theorem apart_spawn (halike : host.Alike image image') (h : s.Apart t)
    (hfork : host.fork s.forks s.world = .ok pid) :
    ((spawn host image).perform s).1 = ((spawn host image').perform t).1 ∧
      ((spawn host image).perform s).2.Apart ((spawn host image').perform t).2 := by
  obtain ⟨hlife, hreports⟩ := reportsOn_apart halike h pid
  have hfork' : host.fork t.forks t.world = .ok pid := by rw [h, hfork]
  rw [perform_spawn_born hfork, perform_spawn_born hfork', hlife, hreports]
  refine ⟨rfl, ?_⟩
  rw [h]
  rfl

end

-- ---------------------------------------------------------------------------
-- Programs in the directory in use
-- ---------------------------------------------------------------------------

namespace SearchPath

variable {w : World} {name : String}

/-- Two paths of one executable file: the same path, or a name and the path by which it is found
in the directory in use. -/
inductive OneFile (w : World) (name : String) : String → String → Prop
  | same {target : String} : w.isExecutable target → OneFile w name target target
  | here {id : Files.NodeId} : w.locate name = .ok id → w.locate ("./" ++ name) = .ok id →
      w.isExecutable name → OneFile w name name ("./" ++ name)

theorem OneFile.isExecutable {target target' : String} (h : OneFile w name target target') :
    w.isExecutable target ∧ w.isExecutable target' := by
  cases h with
  | same hx => exact ⟨hx, hx⟩
  | here hname hhere hx =>
    refine ⟨hx, ?_⟩
    rw [← hx]
    simp only [World.isExecutable, World.leadsTo, World.stat, hname, hhere]

theorem oneFile_here (hpath : ¬ IsPath name) (hx : w.isExecutable ("./" ++ name)) :
    OneFile w name name ("./" ++ name) := by
  have hname : name ≠ "" := by
    rintro rfl
    exact World.not_isExecutable_of_endsInSlash (by decide) hx
  cases hlocate : w.locate ("./" ++ name) with
  | error f => simp [World.isExecutable, World.leadsTo, World.stat, hlocate, Except.toOption] at hx
  | ok id =>
    have hshort := (World.followable_of_locate hlocate).short
    have hsame := World.locate_here (w := w) hname (mt Or.inl hpath) hshort
    refine .here (hsame.symm.trans hlocate) hlocate ?_
    rw [← hx]
    simp only [World.isExecutable, World.leadsTo, World.stat, hsame]

theorem resolve?_here (hpath : ¬ IsPath name) : (ofList ["./"]).resolve? w name =
    if w.isExecutable ("./" ++ name) then some ("./" ++ name) else none := by
  have hdirs : (ofList ["./"]).dirs = ["./"] := rfl
  rw [resolve?_of_not_isPath hpath, candidates, hdirs, List.map_singleton, List.find?_singleton]

theorem program?_here (raw : List String) (w : World) (name : String) :
    (ofList (raw ++ ["./"])).program? w name = (ofList raw).program? w name ∨
      (ofList raw).program? w name = some name ∧
        (ofList (raw ++ ["./"])).program? w name = some ("./" ++ name) ∧
        OneFile w name name ("./" ++ name) := by
  by_cases hpath : IsPath name
  · left
    rw [program?, program?, resolve?_of_isPath hpath, resolve?_of_isPath hpath]
  simp only [program?, resolve?_append, resolve?_here hpath]
  cases (ofList raw).resolve? w name with
  | some found =>
    left
    simp only [Option.some_or]
  | none =>
    by_cases hx : w.isExecutable ("./" ++ name)
    · have hfile := oneFile_here hpath hx
      right
      simp only [Option.none_or, hx, hfile.isExecutable.1, if_true, Option.some_or, true_and]
      exact hfile
    · -- The path with the entry may be too long, and the name is tried by itself.
      left
      simp only [Option.none_or, if_neg hx]

end SearchPath

-- ---------------------------------------------------------------------------
-- Both ways
-- ---------------------------------------------------------------------------

namespace Dispatcher

open SearchPath (OneFile)

/-- What comes of a command line without and with an entry for the directory in use, on two
dispatchers. -/
inductive Concurs (host : Host) (d d' : Dispatcher) (line : CommandLine) (s : Session) :
    Except (Stop CommandError) Outcome × Session →
      Except (Stop CommandError) Outcome × Session → Prop
  | missing {t t' : Session} : Adds s (notFoundText line.name) t → t.LogApart t' →
      d.Spawns line s none → d'.Spawns line s none →
      Concurs host d d' line s (.ok .notFound, t) (.ok .notFound, t')
  | refused {argument : String} {t t' : Session} : FirstNul line.fields argument → Adds s "" t →
      t.LogApart t' → d.Spawns line s none → d'.Spawns line s none →
      Concurs host d d' line s (.error (.refused (.launch (.invalidArgument argument))), t)
        (.error (.refused (.launch (.invalidArgument argument))), t')
  /-- Each is asked for a child and none can be made. The two errors name the paths by which the
  file was found, which need not be the same. -/
  | unborn {target target' : String} {errno : Errno} {t t' : Session} :
      OneFile s.world line.name target target' → host.fork s.forks s.world = .error errno →
      Adds { s with forks := s.forks + 1 } "" t → t.LogApart t' →
      d.Spawns line s (some ⟨target, line.fields⟩) →
      d'.Spawns line s (some ⟨target', line.fields⟩) →
      Concurs host d d' line s (.error (.refused (.launch (.spawn target errno))), t)
        (.error (.refused (.launch (.spawn target' errno))), t')
  /-- Each makes one child, and the same becomes of both if the file does not look at its path. -/
  | launched {target target' : String} {pid : Nat} {collected collected' : Bool}
      {outcome outcome' : Except (Stop CommandError) Outcome × Session} :
      OneFile s.world line.name target target' → host.fork s.forks s.world = .ok pid →
      d.Spawns line s (some ⟨target, line.fields⟩) →
      d'.Spawns line s (some ⟨target', line.fields⟩) →
      outcome.2.children = s.children ++ [⟨pid, ⟨target, line.fields⟩, collected⟩] →
      outcome'.2.children = s.children ++ [⟨pid, ⟨target', line.fields⟩, collected'⟩] →
      (host.Alike ⟨target, line.fields⟩ ⟨target', line.fields⟩ → collected = collected' ∧
        outcome.1 = outcome'.1 ∧ outcome.2.Apart outcome'.2) →
      Concurs host d d' line s outcome outcome'

variable {host : Host} {path path' : SearchPath} {line : CommandLine} {s t : Session}
  {target target' : String}

theorem Concurs.born {d d' : Dispatcher}
    {outcome outcome' : Except (Stop CommandError) Outcome × Session} {image image' : Image}
    {pid : Nat} (h : Concurs host d d' line s outcome outcome')
    (hfork : host.fork s.forks s.world = .ok pid) (hspawns : d.Spawns line s (some image))
    (hspawns' : d'.Spawns line s (some image')) :
    outcome.2.born = s.born ++ [(pid, image)] ∧ outcome'.2.born = s.born ++ [(pid, image')] := by
  cases h with
  | missing _ _ hnone _ => cases hnone.unique hspawns
  | refused _ _ _ hnone _ => cases hnone.unique hspawns
  | unborn _ hunborn _ _ _ _ => cases hunborn.symm.trans hfork
  | launched _ hborn hones hones' hchildren hchildren' _ =>
    cases hborn.symm.trans hfork
    cases hones.unique hspawns
    cases hones'.unique hspawns'
    simp [Session.born, hchildren, hchildren']

theorem apart_concluded {result : Except LaunchError ChildResult} (command : String)
    (h : s.Apart t) : (concluded command (result, s)).1 = (concluded command (result, t)).1 ∧
      (concluded command (result, s)).2.Apart (concluded command (result, t)).2 :=
  (carried_apart.agrees_conclude command result).mapError Stop.refused s t h

theorem children_concluded (command : String)
    (launched : Except LaunchError ChildResult × Session) :
    (concluded command launched).2.children = launched.2.children :=
  congrArg Prod.snd (processes_concluded command launched)

theorem children_spawn (image : Image) {pid : Nat} (hfork : host.fork s.forks s.world = .ok pid) :
    ((spawn host image).perform s).2.children =
      s.children ++ [⟨pid, image, ((spawn host image).perform s).1.isOk⟩] := by
  rw [perform_spawn_born hfork, Programs.isOk_waited]
  rfl

theorem concurs_spawned (hn : s.out.NeverFails)
    (hspawns : (onHost host path).Spawns line s (some ⟨target, line.fields⟩))
    (hspawns' : (onHost host path').Spawns line s (some ⟨target', line.fields⟩))
    (hfile : OneFile s.world line.name target target') :
    Concurs host (onHost host path) (onHost host path') line s
      (((onHost host path).dispatch line).perform s)
      (((onHost host path').dispatch line).perform s) := by
  cases hspawns with | @once _ before hflush hbefore hsame => ?_
  cases hspawns' with | @once _ before' _ hbefore' hsame' => ?_
  have hdispatch : ((onHost host path).dispatch line).perform s =
      concluded line.name ((spawn host ⟨target, line.fields⟩).perform before) := hsame (spawn host)
  have hdispatch' : ((onHost host path').dispatch line).perform s =
      concluded line.name ((spawn host ⟨target', line.fields⟩).perform before') :=
    hsame' (spawn host)
  have hapart : before.LogApart before' := by
    rw [hbefore, hbefore']
    rfl
  cases hfork : host.fork s.forks s.world with
  | error errno =>
    have hunborn : host.fork before.forks before.world = .error errno := by rw [hbefore, hfork]
    have hunborn' : host.fork before'.forks before'.world = .error errno := by rw [hbefore', hfork]
    rw [hdispatch, hdispatch', perform_spawn_unborn hunborn, perform_spawn_unborn hunborn']
    refine .unborn hfile hfork ⟨?_, ?_, ?_⟩ ?_ (.once hflush hbefore hsame)
      (.once hflush hbefore' hsame')
    · rw [hbefore]
    · rw [hbefore]
      exact (Sink.contents_flush _).trans (List.append_nil _).symm
    · rw [hbefore]
      exact hn.flush.2.1
    · rw [hapart]
      rfl
  | ok pid =>
    have hborn : host.fork before.forks before.world = .ok pid := by rw [hbefore, hfork]
    have hborn' : host.fork before'.forks before'.world = .ok pid := by rw [hbefore', hfork]
    have hsince : before.children = s.children := by rw [hbefore]
    have hsince' : before'.children = s.children := by rw [hbefore']
    have hmade := (children_concluded line.name _).trans
      (children_spawn ⟨target, line.fields⟩ hborn)
    have hmade' := (children_concluded line.name _).trans
      (children_spawn ⟨target', line.fields⟩ hborn')
    rw [← hdispatch, hsince] at hmade
    rw [← hdispatch', hsince'] at hmade'
    refine .launched hfile hfork (.once hflush hbefore hsame) (.once hflush hbefore' hsame')
      hmade hmade' fun halike => ?_
    obtain ⟨hresult, hafter⟩ := apart_spawn halike hapart.apart hborn
    refine ⟨by rw [hresult], ?_⟩
    rw [hdispatch, hdispatch']
    rw [← Prod.mk.eta (p := (spawn host ⟨target', line.fields⟩).perform before'), ← hresult]
    exact apart_concluded line.name hafter

theorem request?_missing {w : World} (hp : path.program? w line.name = none) :
    (onHost host path).request? line w = none := by
  unfold request?
  split
  · rfl
  · next target hfound => cases hp.symm.trans hfound

theorem request?_found {w : World} (hp : path.program? w line.name = some target) :
    (onHost host path).request? line w =
      if w.isExecutable target ∧ ∀ field ∈ line.fields, ¬ HoldsNul field then
        some ⟨target, line.fields⟩
      else none := by
  unfold request?
  split
  · next hfound => cases hp.symm.trans hfound
  · next other hfound =>
    obtain rfl := Option.some.inj (hp.symm.trans hfound)
    rfl

section
variable (hname : Foreign line.name) (hn : s.out.NeverFails)
include hname hn

theorem spawns_of_request {request : Option Image}
    (h : (onHost host path).request? line s.world = request) :
    (onHost host path).Spawns line s request := by
  rw [← h]
  exact spawns_flushed hname.external hn.flush.1

theorem perform_launched (hp : path.program? s.world line.name = some target)
    {result : Except LaunchError ChildResult}
    (hlaunch : (launchWith (spawn host) target line.fields).perform
      ((onHost host path).prepared line s) = (result, (onHost host path).prepared line s)) :
    ((onHost host path).dispatch line).perform s =
      concluded line.name (result, (onHost host path).prepared line s) := by
  rw [← hlaunch]
  exact perform_dispatch_flushed hname.external hp hn.flush.1

theorem concurs_missing {t t' : Session} (hadds : Adds s "" t) (hapart : t.LogApart t')
    (hnone : (onHost host path).request? line s.world = none)
    (hnone' : (onHost host path').request? line s.world = none) :
    Concurs host (onHost host path) (onHost host path') line s
      (((missing line.name).mapError .refused).perform t)
      (((missing line.name).mapError .refused).perform t') := by
  have hn' : t'.out.NeverFails := by
    rw [hapart]
    exact hadds.neverFails
  obtain ⟨u, hu, htext⟩ := adds_missing hadds.neverFails line.name
  obtain ⟨u', hu', htext'⟩ := adds_missing hn' line.name
  obtain ⟨-, hafter⟩ := carried_apart.agrees_missing line.name t t' hapart.apart
  rw [hu, hu'] at hafter
  have hchildren : u'.children = u.children := by rw [htext'.only, htext.only, hapart]
  rw [perform_mapError, perform_mapError, hu, hu']
  exact .missing (htext.after hadds) (hafter.logApart hchildren)
    (spawns_of_request hname hn hnone) (spawns_of_request hname hn hnone')

/-- An argument that cannot be passed on is refused, whatever the program. -/
theorem concurs_refused {argument : String} (hp : path.program? s.world line.name = some target)
    (hp' : path'.program? s.world line.name = some target')
    (hfile : OneFile s.world line.name target target') (hnul : FirstNul line.fields argument) :
    Concurs host (onHost host path) (onHost host path') line s
      (((onHost host path).dispatch line).perform s)
      (((onHost host path').dispatch line).perform s) := by
  obtain ⟨hx, hx'⟩ := hfile.isExecutable
  have hrefused : ¬ ∀ field ∈ line.fields, ¬ HoldsNul field := by
    obtain ⟨before, after, hfields, -, hholds⟩ := hnul
    exact fun h => h argument (by simp [hfields]) hholds
  rw [perform_launched hname hn hp (perform_launchWith_nul _ (isExecutable_iff.mp hx) hnul),
    perform_launched hname hn hp' (perform_launchWith_nul _ (isExecutable_iff.mp hx') hnul)]
  refine .refused hnul (drains_prepared _ hn).adds rfl ?_ ?_
  · exact spawns_of_request hname hn ((request?_found hp).trans (if_neg fun h => hrefused h.2))
  · exact spawns_of_request hname hn ((request?_found hp').trans (if_neg fun h => hrefused h.2))

theorem concurs_found (hp : path.program? s.world line.name = some target)
    (hp' : path'.program? s.world line.name = some target')
    (hfile : OneFile s.world line.name target target') :
    Concurs host (onHost host path) (onHost host path') line s
      (((onHost host path).dispatch line).perform s)
      (((onHost host path').dispatch line).perform s) := by
  obtain ⟨hx, hx'⟩ := hfile.isExecutable
  rcases request_cases s.world target line.fields with hno | ⟨argument, -, hnul⟩ | hgranted
  · exact absurd (isExecutable_iff.mp hx) hno
  · exact concurs_refused hname hn hp hp' hfile hnul
  · refine concurs_spawned hn ?_ ?_ hfile
    · exact spawns_of_request hname hn ((request?_found hp).trans (if_pos ⟨hx, hgranted.noNul⟩))
    · exact spawns_of_request hname hn ((request?_found hp').trans (if_pos ⟨hx', hgranted.noNul⟩))

theorem concurs_of_eq
    (hp : path'.program? s.world line.name = path.program? s.world line.name) :
    Concurs host (onHost host path) (onHost host path') line s
      (((onHost host path).dispatch line).perform s)
      (((onHost host path').dispatch line).perform s) := by
  cases hfound : path.program? s.world line.name with
  | none =>
    have hfound' := hp.trans hfound
    rw [perform_dispatch_external hname.external, perform_dispatch_external hname.external,
      perform_runProgram_missing (d := onHost host path) hfound,
      perform_runProgram_missing (d := onHost host path') hfound']
    exact concurs_missing hname hn (adds_lookedUp _ hn) rfl (request?_missing hfound)
      (request?_missing hfound')
  | some target =>
    have hfound' := hp.trans hfound
    by_cases hx : s.world.isExecutable target
    · exact concurs_found hname hn hfound hfound' (.same hx)
    · have hunfit := mt isExecutable_iff.mpr hx
      rw [perform_launched hname hn hfound (perform_launchWith_unfit _ hunfit),
        perform_launched hname hn hfound' (perform_launchWith_unfit _ hunfit)]
      exact concurs_missing hname hn (drains_prepared _ hn).adds rfl
        ((request?_found hfound).trans (if_neg fun h => hx h.1))
        ((request?_found hfound').trans (if_neg fun h => hx h.1))

end

/-- An entry for the directory in use at the end of a search path makes no difference but to the
path by which a file there is called. -/
theorem dispatch_concurs (host : Host) (raw : List String) (line : CommandLine) {s : Session}
    (hname : Foreign line.name) (hn : s.out.NeverFails) :
    Concurs host (onHost host (.ofList raw)) (onHost host (.ofList (raw ++ ["./"]))) line s
      (((onHost host (.ofList raw)).dispatch line).perform s)
      (((onHost host (.ofList (raw ++ ["./"]))).dispatch line).perform s) := by
  rcases SearchPath.program?_here raw s.world line.name with hp | ⟨hp, hp', hfile⟩
  · exact concurs_of_eq hname hn hp
  · exact concurs_found hname hn hp hp' hfile

theorem dispatch_concurs_below :
    Foreign "bin/true" ∧ Sink.NeverFails {} ∧
      (((onHost (.system false) (.ofList [])).dispatch ⟨"bin/true", ["--all"]⟩).perform
        { world := .fresh }).2.born = [(2, ⟨"bin/true", ["bin/true", "--all"]⟩)] ∧
      (((onHost (.system false) (.ofList ([] ++ ["./"]))).dispatch
        ⟨"bin/true", ["--all"]⟩).perform { world := .fresh }).2.born =
          [(2, ⟨"./bin/true", ["bin/true", "--all"]⟩)] := by
  have hname : Foreign "bin/true" := ⟨by decide, by decide⟩
  have hn := Sink.neverFails_empty
  have hpath : ¬ SearchPath.IsPath "bin/true" := by decide
  have hx := World.fresh_isExecutable_below
  have hx' : World.fresh.isExecutable ("./" ++ "bin/true") := World.fresh_isExecutable_here
  have hprogram : (SearchPath.ofList []).program? .fresh "bin/true" = some "bin/true" := by
    rw [SearchPath.program?, SearchPath.resolve?_of_not_isPath hpath, if_pos hx]
    rfl
  have hprogram' : (SearchPath.ofList ([] ++ ["./"])).program? .fresh "bin/true" =
      some ("./" ++ "bin/true") := by
    rw [SearchPath.program?, List.nil_append, SearchPath.resolve?_here hpath, if_pos hx']
    rfl
  have hnul : ∀ field ∈ ["bin/true", "--all"], ¬ HoldsNul field := by decide
  have hspawns : (onHost (.system false) (.ofList [])).Spawns ⟨"bin/true", ["--all"]⟩
      { world := .fresh } (some ⟨"bin/true", ["bin/true", "--all"]⟩) :=
    spawns_of_request hname hn ((request?_found hprogram).trans (if_pos ⟨hx, hnul⟩))
  have hspawns' : (onHost (.system false) (.ofList ([] ++ ["./"]))).Spawns
      ⟨"bin/true", ["--all"]⟩ { world := .fresh }
      (some ⟨"./" ++ "bin/true", ["bin/true", "--all"]⟩) :=
    spawns_of_request hname hn ((request?_found hprogram').trans (if_pos ⟨hx', hnul⟩))
  have hconcurs := dispatch_concurs (.system false) [] ⟨"bin/true", ["--all"]⟩
    (s := { world := .fresh }) hname hn
  exact ⟨hname, hn, hconcurs.born rfl hspawns hspawns'⟩

end Dispatcher

end LineShell
