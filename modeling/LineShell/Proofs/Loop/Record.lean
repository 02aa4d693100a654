import LineShell.Proofs.Dispatch.Reaping
import LineShell.Proofs.Loop.Answers
import LineShell.Proofs.Loop.Ending
import LineShell.Proofs.Loop.Words
import LineShell.Proofs.Text.Utf8

/-!
# What a run leaves in the record

A shell does not touch its environment, and what it notes about children are their lives from the
fork to the end of the waiting, one after the other. Both hold of a command line, therefore of a
turn, and therefore of a whole run: `continues_run`.
-/

namespace LineShell

open LineShell.Action
open Programs (Between Host Life Lives between_none)

/-- What has become of a session since: the environment is as it was, and all children that were
made meanwhile have been waited for. -/
structure Session.Continues (host : Host) (s t : Session) : Prop where
  environment : t.world.environment = s.world.environment
  lives : ∃ noted born, Lives host noted born ∧ Between s t noted born

section
variable {host : Host} {s t u : Session}

theorem Programs.Lives.append {noted more : List Log.Event} {born others : List Programs.Child}
    (h : Lives host noted born) (hmore : Lives host more others) :
    Lives host (noted ++ more) (born ++ others) := by
  induction h with
  | nil => exact hmore
  | cons hlife _ ih =>
    rw [List.append_assoc, List.append_assoc]
    exact .cons hlife ih

theorem Session.Continues.of_same (hworld : t.world = s.world) (hlog : t.childLog = s.childLog)
    (hchildren : t.children = s.children) : s.Continues host t :=
  ⟨by rw [hworld], [], [], .nil, between_none hlog hchildren⟩

theorem Session.Continues.trans (h : s.Continues host t) (h' : t.Continues host u) :
    s.Continues host u := by
  obtain ⟨henvironment, _, _, hnoted, hbetween⟩ := h
  obtain ⟨henvironment', _, _, hmore, hbetween'⟩ := h'
  exact ⟨henvironment'.trans henvironment, _, _, hnoted.append hmore,
    Dispatcher.between_trans hbetween hbetween'⟩

theorem Session.Continues.note {event : Log.Event} (h : s.Continues host t)
    (hevent : event.ofChild = false) :
    s.Continues host { t with log := t.log ++ [event] } := by
  refine h.trans (.of_same rfl ?_ rfl)
  rw [Session.childLog_log]
  simp [hevent]

end

-- ---------------------------------------------------------------------------
-- Command lines
-- ---------------------------------------------------------------------------

theorem Builtin.Does.environment {w : World} {name : String} {args : List String}
    {reply : Builtin.Reply} (h : Builtin.Does w name args reply) :
    reply.world.environment = w.environment := by
  cases h with
  | nothing hw _ => rw [hw]
  | waits _ _ | moves _ _ _ | deletes _ _ | copies _ _ => rfl

theorem Programs.environment_launch (host : Host) (path : String) (argv : List String)
    (s : Session) :
    ((Programs.launch host path argv).perform s).2.world.environment = s.world.environment := by
  rcases request_cases s.world path argv with hx | ⟨argument, hx, hnul⟩ | hgranted
  · rw [launch, perform_launchWith_unfit _ hx]
  · rw [launch, perform_launchWith_nul _ hx hnul]
  · rcases hfork : host.fork s.forks s.world with errno | pid
    · rw [launch, hgranted.perform_launchWith, perform_spawn_unborn hfork]
    · rw [hgranted.perform_launch hfork]
      rfl

namespace Dispatcher

variable {host : Host} {s : Session}

theorem world_remark (text : String) (outcome : Outcome) :
    ((remark text outcome).perform s).2.world = s.world := by
  rw [perform_remark]
  rcases s.out.grant _ with ⟨f | _, out⟩
  · rfl
  · rfl

theorem world_conclude (command : String) (result : Except LaunchError ChildResult) :
    ((conclude command result).perform s).2.world = s.world := by
  cases result with
  | ok child =>
    cases child with
    | exited code => rfl
    | killed pid signal => exact world_remark _ _
  | error e =>
    cases e with
    | notExecutable path => exact world_remark _ _
    | _ => rfl

theorem environment_dispatch (host : Host) (path : SearchPath) (line : CommandLine) (s : Session) :
    (((onHost host path).dispatch line).perform s).2.world.environment = s.world.environment := by
  cases hreplies : Builtin.replies? line.name with
  | some replies =>
    have hdoes : Builtin.Does s.world line.name line.args (replies line.fields s.world) :=
      Builtin.does_standard hreplies
    have htells := (Builtin.standard_serves hreplies line.args).tellsOnly s
    rw [perform_dispatch_command hreplies, CommandLine.fields, htells.onlyTold]
    exact hdoes.environment
  | none =>
    by_cases hexit : line.name = exitName
    · rw [perform_dispatch_exit hreplies hexit]
    · have h : External line := ⟨hreplies, hexit⟩
      cases hp : (onHost host path).searchPath.program? s.world line.name with
      | none =>
        rw [perform_dispatch_external h, perform_runProgram_missing hp, missing_eq, world_remark]
        rfl
      | some target =>
        rcases hflush : s.out.flush.1 with f | u
        · rw [perform_dispatch_unflushed h hp hflush]
          rfl
        · rw [perform_dispatch_flushed h hp hflush, concluded, perform_mapError, world_conclude]
          exact Programs.environment_launch host target line.fields _

theorem continues_dispatch (host : Host) (path : SearchPath) (line : CommandLine) (s : Session) :
    s.Continues host (((onHost host path).dispatch line).perform s).2 := by
  obtain ⟨life, born, hlife, hbetween⟩ := life_dispatch host path line s
  refine ⟨environment_dispatch host path line s, life, born, ?_, hbetween⟩
  simpa using Lives.cons hlife .nil

end Dispatcher

-- ---------------------------------------------------------------------------
-- Turns and runs
-- ---------------------------------------------------------------------------

namespace Repl

variable {host : Host} {path : SearchPath} {r : Repl} {s : Session}

theorem continues_ask (host : Host) (prompt : String) (s : Session) :
    s.Continues host ((ask prompt).perform s).2 := by
  rw [ask_only]
  exact .of_same rfl rfl rfl

theorem continues_say (text : String) (state : ReplState) (s : Session) :
    s.Continues host ((say text state).perform s).2 := by
  rw [perform_say]
  exact .of_same rfl rfl rfl

theorem Hears.only {line : Except Failure Bytes} (h : r.Hears line s) :
    s = { r.session with out := s.out, input := s.input, stdin := s.stdin } := by
  obtain ⟨asked, hask, hline⟩ := h
  have hasked : asked = { r.session with out := asked.out } := by
    simpa only [hask] using ask_only r.prompt r.session
  have hs : s = { asked with input := s.input, stdin := s.stdin } := by
    simpa only [hline] using asked.takeLine_only
  rw [hs, hasked]

theorem Hears.continues {line : Except Failure Bytes} (h : r.Hears line s) :
    r.session.Continues host s := by
  rw [h.only]
  exact .of_same rfl rfl rfl

section
variable (hd : r.dispatcher = .onHost host path)
include hd

theorem Dispatches.continues {line : CommandLine} (h : r.Dispatches line s) :
    r.session.Continues host ((r.dispatcher.dispatch line).perform s).2 := by
  obtain ⟨bytes, text, hheard, -, -⟩ := h
  rw [hd]
  exact hheard.continues.trans (Dispatcher.continues_dispatch host path line s)

theorem Says.continues {text : String} {state : ReplState} (h : r.Says text state s) :
    r.session.Continues host s := by
  cases h with
  | farewell hheard | noText hheard _ _ => exact hheard.continues
  | unreadable hheard _ => exact hheard.continues.note rfl
  | refused hdispatches hperform =>
    have hcontinues := hdispatches.continues hd
    rw [hperform] at hcontinues
    exact hcontinues.note rfl

theorem Quiet.continues {state : ReplState} (h : r.Quiet state s) :
    r.session.Continues host s := by
  cases h with
  | blank hheard _ _ _ => exact hheard.continues
  | done hdispatches hperform _ | exit hdispatches hperform =>
    have hcontinues := hdispatches.continues hd
    rw [hperform] at hcontinues
    exact hcontinues.note rfl

theorem continues_turn :
    r.session.Continues host ((turn r.prompt r.dispatcher).perform r.session).2 := by
  rcases turn_cases r with ⟨f, s, hask⟩ | ⟨line, s, s', hdispatches, hperform⟩ |
    ⟨text, state, s, hword⟩ | ⟨state, s, hquiet⟩
  · have hasked := continues_ask host r.prompt r.session
    rw [hask] at hasked
    rw [perform_turn_refused hask]
    exact hasked
  · have hcontinues := hdispatches.continues hd
    rw [hperform] at hcontinues
    rw [hdispatches.perform_turn_waits hperform]
    exact hcontinues
  · rw [hword.perform_turn]
    exact (hword.continues hd).trans (continues_say text state s)
  · rw [hquiet.perform_turn]
    exact hquiet.continues hd

theorem continues_step : r.session.Continues host r.step.2.session := by
  cases hr : r.state with
  | terminated =>
    rw [step_terminated hr]
    exact .of_same rfl rfl rfl
  | running =>
    have hturn := continues_turn hd
    rcases step_cases hr with ⟨f, s, hstep, hperform⟩ | ⟨state, s, hstep, hperform⟩
    all_goals
      rw [hperform] at hturn
      rw [hstep]
      exact hturn

end

theorem continues_runFor (hd : r.dispatcher = .onHost host path) (turns : Nat) :
    r.session.Continues host (r.runFor turns).2.session := by
  induction turns generalizing r with
  | zero => exact .of_same rfl rfl rfl
  | succ turns ih =>
    have hstep := continues_step hd
    have hnext : r.step.2.dispatcher = .onHost host path := (step_dispatcher r).trans hd
    cases hr : r.state with
    | terminated =>
      simp only [runFor, hr]
      exact .of_same rfl rfl rfl
    | running =>
      simp only [runFor, hr]
      rcases hs : r.step with ⟨f | state, r'⟩
      · rw [hs] at hstep
        exact hstep
      · rw [hs] at hstep hnext
        exact hstep.trans (ih hnext)

theorem continues_run (hd : r.dispatcher = .onHost host path) :
    r.session.Continues host r.run.2.session := continues_runFor hd _

theorem continues_obey (host : Host) (d : Dispatcher) (line : CommandLine) (s : Session) :
    ((d.dispatch line).perform s).2.Continues host ((obey d line).perform s).2 := by
  rcases hs : (d.dispatch line).perform s with ⟨(e | _) | outcome, t⟩
  all_goals
    have hsame : t.Continues host t := .of_same rfl rfl rfl
  · rw [perform_obey_refused hs]
    exact (hsame.note rfl).trans (continues_say _ _ _)
  · rw [perform_obey_waits hs]
    exact hsame
  · by_cases hexit : outcome = .exit
    · subst hexit
      rw [perform_obey_exit hs]
      exact hsame.note rfl
    · rw [perform_obey_done hexit hs]
      exact hsame.note rfl

/-- What the first line of a run leaves in the record stays there. -/
theorem Dispatches.continues_run {line : CommandLine} (h : r.Dispatches line s)
    (hd : r.dispatcher = .onHost host path) (hr : r.state = .running) :
    ((r.dispatcher.dispatch line).perform s).2.Continues host r.run.2.session := by
  have hobeyed := continues_obey host r.dispatcher line s
  rw [← h.perform_turn] at hobeyed
  have hnext : r.step.2.dispatcher = .onHost host path := (step_dispatcher r).trans hd
  rw [run]
  rcases step_cases hr with ⟨stop, t, hstep, hperform⟩ | ⟨state, t, hstep, hperform⟩
  all_goals
    rw [hperform] at hobeyed
    simp only [runFor, hr, hstep]
  · exact hobeyed
  · rw [hstep] at hnext
    exact hobeyed.trans (continues_runFor hnext _)

theorem exists_dispatches {line : CommandLine} {text : String} (hn : r.session.out.NeverFails)
    (hfirst : (Arrival.next r.session.arrivals).1 = .ok (bytesOf text))
    (hparse : CommandLine.parse text = some line) :
    ∃ s, r.Dispatches line s ∧ s.out.NeverFails := by
  have hshows := shows_ask hn r.prompt
  have hasked := ask_only r.prompt r.session
  generalize hask : (ask r.prompt).perform r.session = performed at hshows hasked
  obtain ⟨result, asked⟩ := performed
  obtain rfl : result = .ok () := by simpa only [hask] using hshows.result
  have hn' : asked.out.NeverFails := by simpa only [hask] using hshows.neverFails
  have harrivals : asked.arrivals = r.session.arrivals := by
    dsimp only at hasked
    rw [hasked]
    rfl
  have hline : asked.takeLine.1 = .ok (bytesOf text) := by
    rw [← hfirst, ← harrivals, ← asked.takeLine_next]
  have htext : lineText (bytesOf text) = .ok text := by
    rw [lineText, bytesOf, Utf8.decode?_encode, Option.elim_some, String.ofList_toList]
  have hout : asked.takeLine.2.out = asked.out := by rw [asked.takeLine_only]
  exact ⟨asked.takeLine.2, ⟨_, text, ⟨asked, hask, Prod.ext hline rfl⟩, htext, hparse⟩, hout ▸ hn'⟩

theorem spawned_mem_run {line : CommandLine} {text target : String} {pid : Nat}
    (hd : r.dispatcher = .onHost host path) (hr : r.state = .running)
    (hn : r.session.out.NeverFails)
    (hfirst : (Arrival.next r.session.arrivals).1 = .ok (bytesOf text))
    (hparse : CommandLine.parse text = some line) (hline : Dispatcher.External line)
    (hprogram : path.program? r.session.world line.name = some target)
    (hgranted : Programs.Granted r.session.world target line.fields)
    (hfork : host.fork r.session.forks r.session.world = .ok pid) :
    .spawned pid target ∈ r.run.2.session.log := by
  obtain ⟨s, hdispatches, hn'⟩ := exists_dispatches hn hfirst hparse
  obtain ⟨-, _, _, -, hlog, -⟩ := hdispatches.continues_run hd hr
  obtain ⟨_, _, hheard, -, -⟩ := hdispatches
  have hworld : s.world = r.session.world := by rw [hheard.only]
  have hforks : s.forks = r.session.forks := by rw [hheard.only]
  rw [← hworld] at hprogram hgranted hfork
  rw [← hforks] at hfork
  have hprepared : Programs.Granted ((Dispatcher.onHost host path).prepared line s).world target
    line.fields := hgranted
  suffices h : .spawned pid target ∈ r.run.2.session.childLog from (List.mem_filter.mp h).1
  rw [hlog, hd, Dispatcher.perform_dispatch_flushed hline hprogram hn'.flush.1,
    Dispatcher.childLog_concluded]
  change _ ∈ ((Programs.launch host target line.fields).perform _).2.childLog ++ _
  rw [hprepared.perform_launch hfork]
  refine List.mem_append_left _ (List.mem_filter.mpr ⟨?_, rfl⟩)
  exact List.mem_append_right _ List.mem_cons_self

end Repl

end LineShell
