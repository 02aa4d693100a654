import LineShell.Proofs.Loop.Ending

/-!
# Two loops in lockstep

Two shells whose turns agree on related sessions take the same steps with the same results, and
stay related for ever.
-/

namespace LineShell.Repl

/-- The shells are in the same state and in related sessions, and their turns keep to that. -/
structure Lockstep (R : Session → Session → Prop) (r t : Repl) : Prop where
  state : r.state = t.state
  sessions : R r.session t.session
  turns : ∀ s s', R s s' →
    ((turn r.prompt r.dispatcher).perform s).1 = ((turn t.prompt t.dispatcher).perform s').1 ∧
      R ((turn r.prompt r.dispatcher).perform s).2 ((turn t.prompt t.dispatcher).perform s').2

namespace Lockstep

variable {R : Session → Session → Prop} {r t : Repl} (h : Lockstep R r t)
include h

theorem step : r.step.1 = t.step.1 ∧ Lockstep R r.step.2 t.step.2 := by
  cases hr : r.state with
  | terminated =>
    rw [step_terminated hr, step_terminated (h.state ▸ hr)]
    exact ⟨rfl, h⟩
  | running =>
    have ht : t.state = .running := h.state ▸ hr
    obtain ⟨hresult, hsessions⟩ := h.turns _ _ h.sessions
    rcases hs : (turn r.prompt r.dispatcher).perform r.session with ⟨f | state, s⟩
    all_goals
      rcases hs' : (turn t.prompt t.dispatcher).perform t.session with ⟨f' | state', s'⟩
      all_goals
        rw [hs, hs'] at hresult hsessions
        cases hresult
    · rw [step_error hr hs, step_error ht hs']
      exact ⟨rfl, h.state, hsessions, h.turns⟩
    · rw [step_ok hr hs, step_ok ht hs']
      exact ⟨rfl, rfl, hsessions, h.turns⟩

theorem after (n : Nat) : Lockstep R (r.after n) (t.after n) := by
  induction n generalizing r t with
  | zero => exact h
  | succ n ih => exact ih h.step.2

theorem runFor (turns : Nat) :
    (r.runFor turns).1 = (t.runFor turns).1 ∧
      Lockstep R (r.runFor turns).2 (t.runFor turns).2 := by
  induction turns generalizing r t with
  | zero => exact ⟨rfl, h⟩
  | succ turns ih =>
    cases hr : r.state with
    | terminated =>
      have ht : t.state = .terminated := h.state ▸ hr
      simp only [Repl.runFor, hr, ht]
      exact ⟨trivial, h⟩
    | running =>
      have ht : t.state = .running := h.state ▸ hr
      obtain ⟨hresult, hnext⟩ := h.step
      rcases hs : r.step with ⟨f | state, r'⟩
      all_goals
        rcases hs' : t.step with ⟨f' | state', t'⟩
        all_goals
          rw [hs, hs'] at hresult hnext
          cases hresult
      · simp only [Repl.runFor, hr, ht, hs, hs']
        exact ⟨trivial, hnext⟩
      · simp only [Repl.runFor, hr, ht, hs, hs']
        exact ih hnext

theorem run (hl : r.session.linesLeft = t.session.linesLeft) :
    r.run.1 = t.run.1 ∧ Lockstep R r.run.2 t.run.2 := by
  rw [Repl.run, Repl.run, hl]
  exact h.runFor _

end Lockstep

end LineShell.Repl
