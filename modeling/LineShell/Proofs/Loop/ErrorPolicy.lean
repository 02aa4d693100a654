import LineShell.Programs.System
import LineShell.Proofs.Loop.Ending
import LineShell.Proofs.Loop.Words
import LineShell.Proofs.Output.Acceptance

/-!
# Which failures stop the loop

Commands and the loop write to one output, and it may fail at any of their demands, for once or
for good. `step_failurePolicy`: a step fails only with a refused demand of its own and stays in the
state it was in; what a command is refused becomes one more line to say; and the loop is over only
after an exit command, at the end of its input or when it cannot be read, and then for ever.
-/

namespace LineShell.Repl

open LineShell.Action
open Sink (Demand Meets Refuses)

/-- What becomes of failures in a step, and how the state changes. -/
structure FailurePolicy (r : Repl) : Prop where
  fails_iff : r.state = .running → ∀ f, r.step.1 = .error (.refused f) ↔
    ∃ demand out, r.Asks demand out ∧ out.Refuses demand f
  waits_iff : r.state = .running → (r.step.1 = .error .waits ↔
    ∃ line s, r.Dispatches line s ∧ s.world.WaitsOn line)
  failed : ∀ stop, r.step.1 = .error stop → r.step.2.state = .running
  /-- Without its prompt a step reads nothing and runs nothing. -/
  unprompted : r.state = .running → ∀ demand out f,
    Meets [.write r.prompt, .flush] r.session.out demand out → out.Refuses demand f →
    ∃ out', r.step = (.error (.refused f), { r with session := { r.session with out := out' } })
  /-- What a command is refused becomes a line of the loop's own. -/
  absorbed : r.state = .running → ∀ line s demand out f, r.Dispatches line s →
    r.dispatcher.Asks line s demand out → out.Refuses demand f →
    ∃ s', (r.dispatcher.dispatch line).perform s = (.error (.refused (.output f)), s') ∧
      ∀ out', s'.out.put (bytesOf ("IO error: " ++ f.message ++ "\n")) = (.ok (), out') →
        ∃ s'', r.step = (.ok .running, { r with session := s'' }) ∧ s''.out = out'
  unreadable : r.state = .running → ∀ f s out, r.Hears (.error f) s →
    s.out.put (bytesOf (readingError f)) = (.ok (), out) →
    r.step.1 = .ok (if f.kind = .invalidData then .running else .terminated)
  refused : r.state = .running → ∀ line s e s' out, r.Dispatches line s →
    (r.dispatcher.dispatch line).perform s = (.error (.refused e), s') →
    s'.out.put (bytesOf (e.message ++ "\n")) = (.ok (), out) → r.step.1 = .ok .running
  done : r.state = .running → ∀ line s outcome s', r.Dispatches line s →
    (r.dispatcher.dispatch line).perform s = (.ok outcome, s') →
    r.step.1 = .ok (if outcome = .exit then .terminated else .running)
  ended : r.state = .running → r.step.2.state = .terminated → ∃ cause, r.EndsBy cause
  run_failed : ∀ stop r', r.run = (.error stop, r') →
    r'.state = .running ∧ ∃ n, (r.after n).state = .running ∧ (r.after n).step = (.error stop, r')
  finished : r.state = .terminated →
    r.run = (.ok (), r) ∧ ∀ n, r.after n = r ∧ (r.after n).step = (.ok .terminated, r)

variable {r : Repl}

-- ---------------------------------------------------------------------------
-- Steps that fail
-- ---------------------------------------------------------------------------

theorem state_of_step_error {stop : Stop Failure} (h : r.step.1 = .error stop) :
    r.step.2.state = .running := by
  cases hr : r.state with
  | terminated => simp [step_terminated hr] at h
  | running =>
    rcases step_cases hr with ⟨g, s, hs, -⟩ | ⟨state, s, hs, -⟩
    · rw [hs]
      exact hr
    · simp [hs] at h

theorem step_unprompted (hr : r.state = .running) {demand : Demand} {out : Sink} {f : Failure}
    (hm : Meets [.write r.prompt, .flush] r.session.out demand out)
    (hf : out.Refuses demand f) :
    ∃ out', r.step =
      (.error (.refused f), { r with session := { r.session with out := out' } }) := by
  have hask : ((ask r.prompt).perform r.session).1 = .error (.refused f) :=
    ask_error_iff.mpr ⟨demand, out, hm, hf⟩
  refine ⟨((ask r.prompt).perform r.session).2.out, ?_⟩
  rw [← ask_only]
  exact step_error hr (perform_turn_refused (Prod.ext hask rfl))

theorem runFor_failed {turns : Nat} {stop : Stop Failure} {r' : Repl}
    (h : r.runFor turns = (.error stop, r')) :
    ∃ n, (r.after n).state = .running ∧ (r.after n).step = (.error stop, r') := by
  induction turns generalizing r with
  | zero => simp [runFor] at h
  | succ turns ih =>
    cases hr : r.state with
    | terminated => simp [runFor, hr] at h
    | running =>
      rcases hs : r.step with ⟨g | state, next⟩
      · obtain ⟨rfl, rfl⟩ : g = stop ∧ next = r' := by simpa [runFor, hr, hs] using h
        exact ⟨0, hr, hs⟩
      · have hrest : next.runFor turns = (.error stop, r') := by simpa [runFor, hr, hs] using h
        obtain ⟨n, hn⟩ := ih hrest
        rw [← show r.step.2 = next by rw [hs]] at hn
        exact ⟨n + 1, hn⟩

-- ---------------------------------------------------------------------------
-- Steps that go on
-- ---------------------------------------------------------------------------

theorem Says.step {text : String} {state : ReplState} {s : Session} (h : r.Says text state s)
    (hr : r.state = .running) {out : Sink} (hp : s.out.put (bytesOf text) = (.ok (), out)) :
    r.step = (.ok state, { r with session := { s with out }, state }) :=
  step_ok hr (by rw [h.perform_turn, perform_say_ok hp])

theorem step_absorbed (hr : r.state = .running) {line : CommandLine} {s : Session}
    {demand : Demand} {out : Sink} {f : Failure} (hd : r.Dispatches line s)
    (hasks : r.dispatcher.Asks line s demand out) (hf : out.Refuses demand f) :
    ∃ s', (r.dispatcher.dispatch line).perform s = (.error (.refused (.output f)), s') ∧
      ∀ out', s'.out.put (bytesOf ("IO error: " ++ f.message ++ "\n")) = (.ok (), out') →
        ∃ s'', r.step = (.ok .running, { r with session := s'' }) ∧ s''.out = out' := by
  have hresult : ((r.dispatcher.dispatch line).perform s).1 = .error (.refused (.output f)) :=
    Dispatcher.dispatch_output_iff.mpr ⟨demand, out, hasks, hf⟩
  rcases hs : (r.dispatcher.dispatch line).perform s with ⟨result, s'⟩
  obtain rfl : result = .error (.refused (.output f)) := by simpa [hs] using hresult
  refine ⟨s', rfl, ?_⟩
  intro out' hp
  have hword := (Says.refused hd hs).step hr hp
  have hstate : ∀ s'', ({ r with session := s'', state := .running } : Repl) =
      { r with session := s'' } := by
    intro s''
    rw [← hr]
  rw [hstate] at hword
  exact ⟨_, hword, rfl⟩

theorem step_of_quiet (hr : r.state = .running) {state : ReplState} {s : Session}
    (h : r.Quiet state s) : r.step = (.ok state, { r with session := s, state }) :=
  step_ok hr h.perform_turn

theorem endsBy_of_step (hr : r.state = .running) (h : r.step.2.state = .terminated) :
    ∃ cause, r.EndsBy cause := by
  rcases step_cases hr with ⟨f, s, hs, -⟩ | ⟨state, s, hs, ht⟩
  · simp [hs, hr] at h
  · obtain rfl : state = .terminated := by simpa [hs] using h
    exact endsBy_of_terminated ht

-- ---------------------------------------------------------------------------
-- After the end
-- ---------------------------------------------------------------------------

theorem after_of_terminated (h : r.state = .terminated) (n : Nat) : r.after n = r := by
  induction n with
  | zero => rfl
  | succ n ih => rw [Repl.after, step_terminated h, ih]

theorem run_of_terminated (h : r.state = .terminated) : r.run = (.ok (), r) := by
  simp [run, runFor, h]

theorem step_failurePolicy (r : Repl) : r.FailurePolicy where
  fails_iff hr _ := step_refused_iff hr
  waits_iff hr := step_waits_iff hr
  failed _ h := state_of_step_error h
  unprompted hr _ _ _ hm hf := step_unprompted hr hm hf
  absorbed hr _ _ _ _ _ hd hasks hf := step_absorbed hr hd hasks hf
  unreadable hr f s out hh hp := by
    by_cases hk : f.kind = .invalidData
    · rw [(Says.noText hh rfl hk).step hr hp, if_pos hk]
    · rw [(Says.unreadable hh hk).step hr hp, if_neg hk]
  refused hr line s e s' out hd he hp := by
    rw [(Says.refused hd he).step hr hp]
  done hr line s outcome s' hd hs := by
    by_cases ho : outcome = .exit
    · subst ho
      rw [step_of_quiet hr (.exit hd hs), if_pos rfl]
    · rw [step_of_quiet hr (.done hd hs ho), if_neg ho]
  ended hr h := endsBy_of_step hr h
  run_failed f r' h := by
    obtain ⟨n, hr, hs⟩ := runFor_failed h
    have hstate := state_of_step_error (congrArg Prod.fst hs)
    rw [hs] at hstate
    exact ⟨hstate, n, hr, hs⟩
  finished h := by
    refine ⟨run_of_terminated h, fun n => ?_⟩
    rw [after_of_terminated h n]
    exact ⟨rfl, step_terminated h⟩

/-- A shell whose command is refused the first byte of what it says. -/
def refusedRemark : Repl where
  prompt := "> "
  dispatcher := .onHost (.system false) .default
  session := {
    world := .fresh
    out := { faults := [⟨2, .reported .other "full"⟩] }
    input := .own { reads := [.data (bytesOf "where\n")] } }

theorem step_failurePolicy_refusedRemark :
    ∃ line s demand out s' s'', refusedRemark.Dispatches line s ∧
      refusedRemark.dispatcher.Asks line s demand out ∧
      out.Refuses demand (.reported .other "full") ∧
      (refusedRemark.dispatcher.dispatch line).perform s =
        (.error (.refused (.output (.reported .other "full"))), s') ∧
      refusedRemark.step = (.ok .running, { refusedRemark with session := s'' }) ∧
      s''.out.contents = bytesOf "> IO error: full\n" := by
  let asked := ((ask refusedRemark.prompt).perform refusedRemark.session).2
  have htext : lineText (bytesOf "where\n") = .ok "where\n" := by
    have hdecode : Utf8.decode? (bytesOf "where\n") = some "where\n".toList := by decide +kernel
    rw [lineText, hdecode]
    rfl
  have hdispatches : refusedRemark.Dispatches ⟨"where", []⟩ asked.takeLine.2 :=
    ⟨bytesOf "where\n", "where\n", ⟨asked, Prod.ext rfl rfl, Prod.ext rfl rfl⟩, htext,
      by decide +kernel⟩
  have hremarks : (Builtin.Reply.whereAmI ["where"] asked.takeLine.2.world).remarks.filterMap
      Builtin.Remark.demand? = [.write "/\n"] := by decide +kernel
  have hasks : refusedRemark.dispatcher.Asks ⟨"where", []⟩ asked.takeLine.2 (.write "/\n")
      asked.takeLine.2.out :=
    .remark rfl (by rw [CommandLine.fields, hremarks]; exact .first)
  have hrefuses : asked.takeLine.2.out.Refuses (.write "/\n") (.reported .other "full") := rfl
  obtain ⟨s', hdispatch, hstep⟩ :=
    (step_failurePolicy refusedRemark).absorbed rfl _ _ _ _ _ hdispatches hasks hrefuses
  have hs' : s' = ((refusedRemark.dispatcher.dispatch ⟨"where", []⟩).perform asked.takeLine.2).2 :=
    (congrArg Prod.snd hdispatch).symm
  have hn : s'.out.NeverFails := by
    subst hs'
    exact ⟨by decide +kernel, by decide +kernel, by decide +kernel, by decide +kernel⟩
  obtain ⟨s'', hok, hout⟩ := hstep _ (Prod.ext (hn.put _).1 rfl)
  refine ⟨_, _, _, _, s', s'', hdispatches, hasks, hrefuses, hdispatch, hok, ?_⟩
  rw [hout, hn.contents_put, hs']
  decide +kernel

end LineShell.Repl
