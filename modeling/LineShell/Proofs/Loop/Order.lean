import LineShell.Programs.System
import LineShell.Proofs.Dispatch.Drained
import LineShell.Proofs.Dispatch.Mirror
import LineShell.Proofs.Loop.Lockstep
import LineShell.Proofs.Loop.Words

/-!
# The shell's output before its children's

What the shell writes may wait in a buffer, but not while a child runs. `output_inOrder`: nothing is
pending at any fork, so a shell on a buffer writes just what one writes that holds nothing back,
and a run that ends well leaves nothing pending but what it said last.
-/

namespace LineShell

open LineShell.Action

-- ---------------------------------------------------------------------------
-- Forks
-- ---------------------------------------------------------------------------

namespace Repl

def spawning (r : Repl) (spawn : Spawner) : Repl :=
  { r with dispatcher := r.dispatcher.spawning spawn }

def onHost (r : Repl) (host : Programs.Host) : Repl := r.spawning (Programs.spawn host)

theorem onHost_launch (r : Repl) (host : Programs.Host) :
    (r.onHost host).dispatcher.launch = Programs.launch host := rfl

/-- The same, but with an alarm in place of every fork at which something is pending. -/
def guarded (r : Repl) (host : Programs.Host) (alarm : Spawner) : Repl :=
  r.spawning (Spawner.guarded (Programs.spawn host) alarm)

theorem obey_guarded (d : Dispatcher) (spawn alarm : Spawner) :
    obey (d.spawning (spawn.guarded alarm)) = obey (d.spawning spawn) := by
  funext line
  rw [obey, obey, Dispatcher.dispatch_guarded]

theorem turn_guarded (prompt : String) (d : Dispatcher) (spawn alarm : Spawner) :
    turn prompt (d.spawning (spawn.guarded alarm)) = turn prompt (d.spawning spawn) := by
  have hreact : react (d.spawning (spawn.guarded alarm)) = react (d.spawning spawn) := by
    funext reading
    cases reading with
    | error f => rfl
    | ok text => simp only [react, obey_guarded]
  rw [turn, turn, hreact]

theorem lockstep_guarded (r : Repl) (host : Programs.Host) (alarm : Spawner) :
    Lockstep Eq (r.guarded host alarm) (r.onHost host) where
  state := rfl
  sessions := rfl
  turns := by
    rintro s _ rfl
    have ht : turn (r.guarded host alarm).prompt (r.guarded host alarm).dispatcher =
        turn (r.onHost host).prompt (r.onHost host).dispatcher :=
      turn_guarded r.prompt r.dispatcher (Programs.spawn host) alarm
    rw [ht]
    exact ⟨rfl, rfl⟩

end Repl

-- ---------------------------------------------------------------------------
-- Straight twins
-- ---------------------------------------------------------------------------

open Session (Mirrors Twins)

theorem dispatchAll_mirrors {d : Dispatcher} {host : Programs.Host}
    (hd : d.launch = Programs.launch host) (lines : List CommandLine) {s t : Session}
    (h : s.Mirrors t) :
    (d.dispatchAll lines s).1 = (d.dispatchAll lines t).1 ∧
      (d.dispatchAll lines s).2.Mirrors (d.dispatchAll lines t).2 := by
  induction lines generalizing s t with
  | nil => exact ⟨rfl, h⟩
  | cons line rest ih =>
    obtain ⟨hresult, hnext⟩ := agrees_dispatch_mirrors hd line s t h
    obtain ⟨hresults, hlast⟩ := ih hnext
    rcases hs : (d.dispatch line).perform s with ⟨result, s'⟩
    rcases ht : (d.dispatch line).perform t with ⟨result', t'⟩
    simp only [hs, ht] at hresult hnext hresults hlast
    subst hresult
    simp only [Dispatcher.dispatchAll, hs, ht]
    rcases result with (e | _) | outcome
    · simp only [hresults, true_and]
      exact hlast
    · exact ⟨rfl, hnext⟩
    · simp only [hresults, true_and]
      exact hlast

theorem Session.Twins.linesLeft {s t : Session} (h : s.Twins t) : s.linesLeft = t.linesLeft := by
  simp only [Session.linesLeft, h.input, h.mirrors.stdin]

theorem Session.Mirrors.contents_written {s t : Session} (h : s.Mirrors t) :
    s.out.contents = t.out.written := by
  rw [h.contents, h.straight.contents]

namespace Repl

variable {host : Programs.Host}

theorem agrees_turn_twins {d : Dispatcher} (hd : d.launch = Programs.launch host)
    (prompt : String) : Agrees (turn prompt d) Twins Twins := by
  rw [turn_eq]
  refine (carried_twins.agrees_ask prompt).bind (fun _ => ?_) fun _ _ h => h
  refine agrees_takeLine_twins.bind (fun line => ?_) fun _ _ h => h
  exact carried_twins.agrees_react (agrees_dispatch_twins hd) _

def straightened (r : Repl) : Repl := { r with session := r.session.straightened }

theorem lockstep_straightened {r : Repl} (hd : r.dispatcher.launch = Programs.launch host)
    (hn : r.session.out.NeverFails) : Lockstep Twins r r.straightened where
  state := rfl
  sessions := Session.twins_straightened hn
  turns := agrees_turn_twins hd r.prompt

end Repl

-- ---------------------------------------------------------------------------
-- The end of a run
-- ---------------------------------------------------------------------------

namespace Repl

variable {host : Programs.Host} {r r' : Repl}

theorem ask_drained {prompt : String} {s asked : Session}
    (h : (ask prompt).perform s = (.ok (), asked)) : asked.out.pending = [] := by
  rw [ask, perform_bind, perform_own, perform_write] at h
  rcases hp : s.out.put (bytesOf prompt) with ⟨f | _, out⟩
  · simp [hp] at h
  · simp only [hp, mapError_ok, perform_own, perform_flush] at h
    rcases hflush : out.flush with ⟨f | _, flushed⟩
    · simp [hflush] at h
    · simp only [hflush] at h
      obtain ⟨-, rfl⟩ := Prod.mk.inj h
      exact Sink.pending_flush hflush

theorem ask_buffering (prompt : String) (s : Session) :
    ((ask prompt).perform s).2.out.buffering = s.out.buffering :=
  ((carried_keptFrom s).agrees_ask prompt s s ⟨rfl, .refl s⟩).2.2.buffering

theorem Hears.drained {line : Except Failure Bytes} {s : Session} (h : r.Hears line s) :
    s.out.pending = [] ∧ s.out.buffering = r.session.out.buffering := by
  obtain ⟨asked, ha, hl⟩ := h
  have hsame : s = { asked with input := s.input, stdin := s.stdin } := by
    simpa only [hl] using asked.takeLine_only
  have hout : s.out = asked.out := by rw [hsame]
  have hbuffering := ask_buffering r.prompt r.session
  rw [ha] at hbuffering
  rw [hout]
  exact ⟨ask_drained ha, hbuffering⟩

theorem turn_buffering (hd : r.dispatcher.launch = Programs.launch host) :
    ((turn r.prompt r.dispatcher).perform r.session).2.out.buffering =
      r.session.out.buffering := by
  rcases hears_or_refused r with ⟨line, s, hh⟩ | ⟨f, s, ha⟩
  · rw [perform_turn_of_hears hh, (keeps_react hd _ s).buffering, hh.drained.2]
  · have hbuffering := ask_buffering r.prompt r.session
    rw [ha] at hbuffering
    rw [perform_turn_refused ha]
    exact hbuffering

theorem step_buffering (hd : r.dispatcher.launch = Programs.launch host) :
    r.step.2.session.out.buffering = r.session.out.buffering := by
  have hturn := turn_buffering hd
  cases hr : r.state with
  | terminated => rw [step_terminated hr]
  | running =>
    rcases step_cases hr with ⟨f, s, hs, ht⟩ | ⟨state, s, hs, ht⟩
    all_goals
      rw [ht] at hturn
      rw [hs]
      exact hturn

theorem after_buffering (hd : r.dispatcher.launch = Programs.launch host) (n : Nat) :
    (r.after n).session.out.buffering = r.session.out.buffering := by
  induction n generalizing r with
  | zero => rfl
  | succ n ih => exact (ih (r.step_dispatcher ▸ hd)).trans (step_buffering hd)

theorem EndsBy.pending {cause : Cause} {s : Session} (h : r.EndsBy cause)
    (hb : r.session.out.buffering = .untilFlush)
    (ht : (turn r.prompt r.dispatcher).perform r.session = (.ok .terminated, s)) :
    s.out.pending = bytesOf cause.lastWord := by
  have hsaid {text : String} {said : Session} (hword : r.Says text .terminated said)
      (hp : said.out.pending = []) (hbuffering : said.out.buffering = r.session.out.buffering) :
      s.out.pending = bytesOf text := by
    rw [hword.perform_turn, perform_say] at ht
    rcases hput : said.out.put (bytesOf text) with ⟨f | _, out⟩
    · simp [hput, Except.map] at ht
    · obtain ⟨-, rfl⟩ := Prod.mk.inj ht
      simp only [hput]
      rw [Sink.put_untilFlush (hbuffering.trans hb) hput, hp, List.nil_append]
  cases h with
  | exit hd hn hs =>
    obtain ⟨bytes, text, hh, -, -⟩ := id hd
    rw [(Quiet.exit hd hs).perform_turn] at ht
    obtain ⟨-, rfl⟩ := Prod.mk.inj ht
    exact hh.drained.1
  | endOfInput hh => exact hsaid (.farewell hh) hh.drained.1 hh.drained.2
  | unreadable hh hk => exact hsaid (.unreadable hh hk) hh.drained.1 hh.drained.2

theorem run_pending (hd : r.dispatcher.launch = Programs.launch host) (hr : r.state = .running)
    (hb : r.session.out.buffering = .untilFlush) (h : r.run = (.ok (), r')) :
    ∃ n cause, (r.after n).EndsBy cause ∧ r.after (n + 1) = r' ∧
      r'.session.out.pending = bytesOf cause.lastWord := by
  obtain ⟨_, hruns⟩ := (run_iff hd).mp h
  obtain ⟨n, hlast, hs⟩ := hruns.last hr
  rcases step_cases hlast with ⟨f, s, hs', -⟩ | ⟨state, s, hs', ht⟩
  · simp [hs] at hs'
  · rw [hs] at hs'
    obtain ⟨hstate, rfl⟩ := Prod.mk.inj hs'
    obtain rfl := Except.ok.inj hstate
    obtain ⟨cause, hcause⟩ := endsBy_of_terminated ht
    refine ⟨n, cause, hcause, ?_, hcause.pending ((after_buffering hd n).trans hb) ht⟩
    rw [after_succ, hs]

-- ---------------------------------------------------------------------------
-- The order of outputs
-- ---------------------------------------------------------------------------

/-- A shell with the children of a host, whose output is never behind theirs. -/
structure OutputInOrder (host : Programs.Host) (r : Repl) : Prop where
  /-- No sequence of commands raises the alarm that would stand for a fork out of order. -/
  dispatches_drained : ∀ alarm lines,
    (r.guarded host alarm).dispatcher.dispatchAll lines r.session =
      (r.onHost host).dispatcher.dispatchAll lines r.session
  /-- No sequence of steps does. -/
  steps_drained : ∀ alarm n,
    ((r.guarded host alarm).after n).step.1 = ((r.onHost host).after n).step.1 ∧
      ((r.guarded host alarm).after n).session = ((r.onHost host).after n).session
  run_drained : ∀ alarm, (r.guarded host alarm).run.1 = (r.onHost host).run.1 ∧
    (r.guarded host alarm).run.2.session = (r.onHost host).run.2.session
  /-- If the flush fails, it does not matter what would be spawned. -/
  unflushed : ∀ spawn line f, r.session.out.flush.1 = .error f →
    ((r.spawning spawn).dispatcher.dispatch line).perform r.session =
      ((r.onHost host).dispatcher.dispatch line).perform r.session
  dispatches_straight : r.session.out.NeverFails → ∀ lines,
    ((r.onHost host).dispatcher.dispatchAll lines r.session).1 =
        ((r.onHost host).dispatcher.dispatchAll lines r.session.straightened).1 ∧
      ((r.onHost host).dispatcher.dispatchAll lines r.session).2.out.contents =
        ((r.onHost host).dispatcher.dispatchAll lines r.session.straightened).2.out.written
  steps_straight : r.session.out.NeverFails → ∀ n,
    ((r.onHost host).after n).step.1 = ((r.straightened.onHost host).after n).step.1 ∧
      ((r.onHost host).after n).session.out.contents =
        ((r.straightened.onHost host).after n).session.out.written
  run_straight : r.session.out.NeverFails →
    (r.onHost host).run.1 = (r.straightened.onHost host).run.1 ∧
      (r.onHost host).run.2.session.out.contents =
        (r.straightened.onHost host).run.2.session.out.written
  /-- What is pending at the end is what the cause of the end made the shell say. -/
  run_pending : r.state = .running → r.session.out.buffering = .untilFlush →
    ∀ r', (r.onHost host).run = (.ok (), r') →
      ∃ n cause, ((r.onHost host).after n).EndsBy cause ∧ (r.onHost host).after (n + 1) = r' ∧
        r'.session.out.pending = bytesOf cause.lastWord

theorem output_inOrder (host : Programs.Host) (r : Repl) : r.OutputInOrder host where
  dispatches_drained alarm lines := Dispatcher.dispatchAll_guarded r.dispatcher _ alarm lines _
  steps_drained alarm n := by
    have h := (lockstep_guarded r host alarm).after n
    exact ⟨h.step.1, h.sessions⟩
  run_drained alarm := by
    obtain ⟨hresult, h⟩ := (lockstep_guarded r host alarm).run rfl
    exact ⟨hresult, h.sessions⟩
  unflushed spawn line f hf := Dispatcher.dispatch_unflushed hf
  dispatches_straight hn lines := by
    have hd := r.onHost_launch host
    have hmirrors := (Session.twins_straightened hn).mirrors
    obtain ⟨hresults, h⟩ := dispatchAll_mirrors hd lines hmirrors
    exact ⟨hresults, h.contents_written⟩
  steps_straight hn n := by
    have hd := r.onHost_launch host
    have h := (lockstep_straightened (r := r.onHost host) hd hn).after n
    exact ⟨h.step.1, h.sessions.mirrors.contents_written⟩
  run_straight hn := by
    have hd := r.onHost_launch host
    have htwins := Session.twins_straightened hn
    obtain ⟨hresult, h⟩ := (lockstep_straightened (r := r.onHost host) hd hn).run htwins.linesLeft
    exact ⟨hresult, h.sessions.mirrors.contents_written⟩
  run_pending hr hb r' h := Repl.run_pending (r.onHost_launch host) hr hb h

/-- A shell on a buffer, whose input ends after one command. -/
def buffered : Repl where
  prompt := "> "
  dispatcher := .onHost (.system false) .default
  session := {
    world := .fresh
    out := { buffering := .untilFlush }
    input := .own { reads := [.data (bytesOf "where\n")] } }

theorem output_inOrder_buffered :
    buffered.session.out.NeverFails ∧
      (buffered.onHost (.system false)).run.2.session.out.contents =
        (buffered.straightened.onHost (.system false)).run.2.session.out.written ∧
      ∃ r' n cause, (buffered.onHost (.system false)).run = (.ok (), r') ∧
        ((buffered.onHost (.system false)).after n).EndsBy cause ∧
        r'.session.out.pending = bytesOf cause.lastWord ∧
        r'.session.out.pending = bytesOf "\n" := by
  have horder := output_inOrder (.system false) buffered
  have hn : buffered.session.out.NeverFails := ⟨rfl, rfl, by simp [buffered], rfl⟩
  refine ⟨hn, (horder.run_straight hn).2, ?_⟩
  have hok : (buffered.onHost (.system false)).run.1.toOption = some () := by decide +kernel
  have hpending : (buffered.onHost (.system false)).run.2.session.out.pending = bytesOf "\n" := by
    decide +kernel
  rcases hrun : (buffered.onHost (.system false)).run with ⟨f | _, r'⟩
  · simp [hrun, Except.toOption] at hok
  · obtain ⟨n, cause, hcause, -, hword⟩ := horder.run_pending rfl rfl r' hrun
    rw [hrun] at hpending
    exact ⟨r', n, cause, rfl, hcause, hword, hpending⟩

end Repl

end LineShell
