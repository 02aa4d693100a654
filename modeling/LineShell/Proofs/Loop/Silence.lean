import LineShell.Proofs.Loop.Answers
import LineShell.Proofs.Loop.Words

/-!
# Loops that halt

A loop comes to its end unless it halts on its way, and there are two ways to: one of its own
demands is refused, or it dispatches a command that waits (`run_error_iff`). On an output that never
fails nothing is refused (`not_silenced`), whatever the commands and the input do.
-/

namespace LineShell.Repl

open Sink (Demand)

/-- Why a step does not come to a state. -/
inductive Halts (r : Repl) : Stop Failure → Prop
  | refused {demand : Demand} {out : Sink} {f : Failure} : r.Asks demand out →
      out.Refuses demand f → r.Halts (.refused f)
  | waits {line : CommandLine} {s : Session} : r.Dispatches line s → s.world.WaitsOn line →
      r.Halts .waits

inductive Halted : Repl → Stop Failure → Prop
  | now {r : Repl} {stop : Stop Failure} : r.state = .running → r.Halts stop → r.Halted stop
  | later {r r' : Repl} {state : ReplState} {stop : Stop Failure} : r.state = .running →
      r.step = (.ok state, r') → r'.Halted stop → r.Halted stop

variable {r r' : Repl} {stop : Stop Failure} {host : Programs.Host}

theorem step_error_iff (hr : r.state = .running) : r.step.1 = .error stop ↔ r.Halts stop := by
  cases stop with
  | refused f =>
    rw [step_refused_iff hr]
    constructor
    · rintro ⟨demand, out, hasks, hf⟩
      exact .refused hasks hf
    · rintro (⟨hasks, hf⟩ | _)
      exact ⟨_, _, hasks, hf⟩
  | waits =>
    rw [step_waits_iff hr]
    constructor
    · rintro ⟨line, s, hd, hw⟩
      exact .waits hd hw
    · rintro (_ | ⟨hd, hw⟩)
      exact ⟨_, _, hd, hw⟩

theorem Runs.halted {n : Nat} {result : Except (Stop Failure) Unit} (h : Runs n r result r')
    (hresult : result = .error stop) : r.Halted stop := by
  induction h with
  | done _ => cases hresult
  | stopped hr hs =>
    obtain rfl := Except.error.inj hresult
    exact .now hr ((step_error_iff hr).mp (congrArg Prod.fst hs))
  | next hr hs _ ih => exact .later hr hs (ih hresult)

theorem Halted.runs (h : r.Halted stop) : ∃ n r', Runs n r (.error stop) r' := by
  induction h with
  | @now r stop hr hhalts =>
    have hstep : r.step.1 = .error stop := (step_error_iff hr).mpr hhalts
    exact ⟨1, r.step.2, .stopped hr (Prod.ext hstep rfl)⟩
  | later hr hs _ ih =>
    obtain ⟨n, r', hruns⟩ := ih
    exact ⟨n + 1, r', .next hr hs hruns⟩

theorem run_error_iff (hd : r.dispatcher.launch = Programs.launch host) :
    r.run.1 = .error stop ↔ r.Halted stop := by
  constructor
  · intro h
    obtain ⟨n, hruns⟩ := (run_iff hd).mp (Prod.ext h rfl : r.run = (.error stop, r.run.2))
    exact hruns.halted rfl
  · intro h
    obtain ⟨n, r', hruns⟩ := h.runs
    rw [run_of_runs hd hruns]

-- ---------------------------------------------------------------------------
-- Outputs that never fail
-- ---------------------------------------------------------------------------

theorem turn_neverFails (hd : r.dispatcher.launch = Programs.launch host)
    (hn : r.session.out.NeverFails) {result : Except (Stop Failure) ReplState} {s : Session}
    (ht : (turn r.prompt r.dispatcher).perform r.session = (result, s)) :
    (∀ f, result ≠ .error (.refused f)) ∧ s.out.NeverFails := by
  obtain ⟨hok, -, hasked⟩ := shows_ask hn r.prompt
  generalize hask : (ask r.prompt).perform r.session = performed at hok hasked
  obtain ⟨asking, asked⟩ := performed
  dsimp only at hok hasked
  subst hok
  have hheard : asked.takeLine.2.out.NeverFails := by
    rw [asked.takeLine_only]
    exact hasked
  obtain ⟨hresult, -, hleft⟩ := shows_react hd hheard asked.takeLine.1
  rw [← perform_turn_asked hask, ht] at hresult hleft
  refine ⟨fun f hf => ?_, hleft⟩
  rw [hf] at hresult
  obtain ⟨hwaits, -⟩ := View.answer_stops (Prod.ext hresult.symm rfl)
  cases hwaits

theorem not_silenced (hd : r.dispatcher.launch = Programs.launch host)
    (hn : r.session.out.NeverFails) (f : Failure) : ¬ r.Halted (.refused f) := by
  intro h
  generalize hstop : Stop.refused f = stop at h
  -- On the way to the refusal no step fails, and each leaves an output that never fails.
  induction h with
  | @now r stop hr hhalts =>
    subst hstop
    have hstep := (step_error_iff hr).mpr hhalts
    rw [step_fst hr] at hstep
    exact (turn_neverFails hd hn (Prod.ext rfl rfl)).1 f hstep
  | @later r r' state stop hr hs _ ih =>
    rcases ht : (turn r.prompt r.dispatcher).perform r.session with ⟨stop' | state', s⟩
    · rw [step_error hr ht] at hs
      cases hs
    · rw [step_ok hr ht] at hs
      obtain ⟨-, rfl⟩ := Prod.mk.inj hs
      exact ih hd (turn_neverFails hd hn ht).2 hstop

end LineShell.Repl
