import LineShell.Proofs.Dispatch.Waiting
import LineShell.Proofs.Loop.Turn

/-!
# What the loop has to say

A step asks for its prompt and a flush, and after that it has at most one more thing to say of its
own: that the input is at its end, that it cannot be read, or what became of a failing command.
`step_refused_iff`: a step fails exactly if one of these demands is refused.
-/

namespace LineShell.Repl

open LineShell.Action
open Sink (Demand Meets Refuses)

/-- A step dispatches `line` in the session `s`. -/
def Dispatches (r : Repl) (line : CommandLine) (s : Session) : Prop :=
  ∃ bytes text, r.Hears (.ok bytes) s ∧ lineText bytes = .ok text ∧
    CommandLine.parse text = some line

/-- A step ends by saying `text` in the session `s`, and leaves the shell in `state`. -/
inductive Says (r : Repl) : String → ReplState → Session → Prop
  | farewell {s : Session} : r.Hears (.ok []) s → r.Says "\n" .terminated s
  | noText {line : Except Failure Bytes} {f : Failure} {s : Session} : r.Hears line s →
      line.bind lineText = .error f → f.kind = .invalidData →
      r.Says (readingError f) .running s
  | unreadable {f : Failure} {s : Session} : r.Hears (.error f) s → f.kind ≠ .invalidData →
      r.Says (readingError f) .terminated { s with log := s.log ++ [.unreadable f] }
  | refused {line : CommandLine} {e : CommandError} {s s' : Session} : r.Dispatches line s →
      (r.dispatcher.dispatch line).perform s = (.error (.refused e), s') →
      r.Says (e.message ++ "\n") .running { s' with log := s'.log ++ [.refused e line.name] }

/-- What a step asks of its own, and the output that it then meets. -/
inductive Asks (r : Repl) : Demand → Sink → Prop
  | prompt {demand : Demand} {out : Sink} :
      Meets [.write r.prompt, .flush] r.session.out demand out → r.Asks demand out
  | word {text : String} {state : ReplState} {s : Session} : r.Says text state s →
      r.Asks (.write text) s.out

-- ---------------------------------------------------------------------------
-- Refused demands
-- ---------------------------------------------------------------------------

variable {r : Repl}

theorem mapError_refused_iff {result : Except ε α} {e : ε} :
    result.mapError Stop.refused = .error (.refused e) ↔ result = .error e := by
  cases result with
  | error g => simp
  | ok a => simp

theorem ask_error_iff {prompt : String} {s : Session} {f : Failure} :
    ((ask prompt).perform s).1 = .error (.refused f) ↔
      ∃ demand out, Meets [.write prompt, .flush] s.out demand out ∧ out.Refuses demand f := by
  have hwrite : (own (write prompt)).perform s =
      ((s.out.grant (.write prompt)).1.mapError .refused,
        { s with out := (s.out.grant (.write prompt)).2 }) := rfl
  rcases hg : s.out.grant (.write prompt) with ⟨g | _, out⟩
  · rw [hg] at hwrite
    rw [ask, perform_bind_error hwrite, Sink.refused_first hg]
    simp
  · rw [hg] at hwrite
    rw [ask, perform_bind_ok hwrite, Sink.refused_later hg]
    change (out.grant .flush).1.mapError Stop.refused = .error (.refused f) ↔ _
    rw [mapError_refused_iff]
    constructor
    · intro hf
      exact ⟨.flush, out, .first, hf⟩
    · rintro ⟨demand, out', hm, hf⟩
      cases hm with
      | first => exact hf
      | later _ hm => exact absurd hm Sink.not_meets_nil

theorem say_error_iff {text : String} {state : ReplState} {s : Session} {f : Failure} :
    ((say text state).perform s).1 = .error (.refused f) ↔ s.out.Refuses (.write text) f := by
  rw [perform_say, mapError_refused_iff, Refuses, Sink.grant]
  cases (s.out.put (bytesOf text)).1 <;> simp [Except.map]

theorem say_ne_waits {text : String} {state : ReplState} {s : Session} :
    ((say text state).perform s).1 ≠ .error .waits := by
  rw [perform_say]
  cases (s.out.put (bytesOf text)).1 <;> simp [Except.map]

theorem perform_say_ok {text : String} {s : Session} {out : Sink}
    (h : s.out.put (bytesOf text) = (.ok (), out)) (state : ReplState) :
    (say text state).perform s = (.ok state, { s with out }) := by
  rw [perform_say, h]
  rfl

-- ---------------------------------------------------------------------------
-- How a turn ends
-- ---------------------------------------------------------------------------

theorem Dispatches.perform_turn {line : CommandLine} {s : Session} (h : r.Dispatches line s) :
    (turn r.prompt r.dispatcher).perform r.session = (obey r.dispatcher line).perform s := by
  obtain ⟨bytes, text, hh, htext, hparse⟩ := h
  rw [perform_turn_of_hears hh, Except.bind, htext, react_line hparse]

theorem Says.perform_turn {text : String} {state : ReplState} {s : Session}
    (h : r.Says text state s) :
    (turn r.prompt r.dispatcher).perform r.session = (say text state).perform s := by
  cases h with
  | farewell hh => rw [perform_turn_of_hears hh, Except.bind, lineText_nil, perform_react_end]
  | noText hh hf hk => rw [perform_turn_of_hears hh, hf, perform_react_invalid hk]
  | unreadable hh hk => rw [perform_turn_of_hears hh, Except.bind, perform_react_failure hk]
  | refused hd he => rw [hd.perform_turn, perform_obey_refused he]

/-- Turns without a last word: nothing was to be done, or a command was carried out. -/
inductive Quiet (r : Repl) : ReplState → Session → Prop
  | blank {bytes : Bytes} {text : String} {s : Session} : r.Hears (.ok bytes) s →
      lineText bytes = .ok text → text ≠ "" → CommandLine.parse text = none → r.Quiet .running s
  | done {line : CommandLine} {outcome : Outcome} {s s' : Session} : r.Dispatches line s →
      (r.dispatcher.dispatch line).perform s = (.ok outcome, s') → outcome ≠ .exit →
      r.Quiet .running { s' with log := s'.log ++ [.dispatched outcome] }
  | exit {line : CommandLine} {s s' : Session} : r.Dispatches line s →
      (r.dispatcher.dispatch line).perform s = (.ok .exit, s') →
      r.Quiet .terminated { s' with log := s'.log ++ [.exitRequested] }

theorem Quiet.perform_turn {state : ReplState} {s : Session} (h : r.Quiet state s) :
    (turn r.prompt r.dispatcher).perform r.session = (.ok state, s) := by
  cases h with
  | blank hh htext hne hparse =>
    rw [perform_turn_of_hears hh, Except.bind, htext, perform_react_blank hne hparse]
  | done hd hs ho => rw [hd.perform_turn, perform_obey_done ho hs]
  | exit hd hs => rw [hd.perform_turn, perform_obey_exit hs]

theorem Dispatches.perform_turn_waits {line : CommandLine} {s s' : Session}
    (h : r.Dispatches line s) (hs : (r.dispatcher.dispatch line).perform s = (.error .waits, s')) :
    (turn r.prompt r.dispatcher).perform r.session = (.error .waits, s') := by
  rw [h.perform_turn, perform_obey_waits hs]

theorem turn_cases (r : Repl) :
    (∃ f s, (ask r.prompt).perform r.session = (.error (.refused f), s)) ∨
      (∃ line s s', r.Dispatches line s ∧
        (r.dispatcher.dispatch line).perform s = (.error .waits, s')) ∨
      (∃ text state s, r.Says text state s) ∨ ∃ state s, r.Quiet state s := by
  rcases hears_or_refused r with ⟨line, s, hh⟩ | hrefused
  · right
    cases line with
    | error f =>
      refine .inr (.inl ?_)
      by_cases hk : f.kind = .invalidData
      · exact ⟨_, _, _, .noText hh rfl hk⟩
      · exact ⟨_, _, _, .unreadable hh hk⟩
    | ok bytes =>
      cases htext : lineText bytes with
      | error f =>
        have hf : f.kind = .invalidData := lineText_error htext
        exact .inr (.inl ⟨_, _, _, .noText hh htext hf⟩)
      | ok text =>
        by_cases hempty : text = ""
        · subst hempty
          obtain rfl := lineText_eq_empty htext
          exact .inr (.inl ⟨_, _, _, .farewell hh⟩)
        · cases hparse : CommandLine.parse text with
          | none => exact .inr (.inr ⟨_, _, .blank hh htext hempty hparse⟩)
          | some line =>
            have hd : r.Dispatches line s := ⟨bytes, text, hh, htext, hparse⟩
            rcases hs : (r.dispatcher.dispatch line).perform s with ⟨(e | _) | outcome, s'⟩
            · exact .inr (.inl ⟨_, _, _, .refused hd hs⟩)
            · exact .inl ⟨line, s, s', hd, hs⟩
            · by_cases ho : outcome = .exit
              · subst ho
                exact .inr (.inr ⟨_, _, .exit hd hs⟩)
              · exact .inr (.inr ⟨_, _, .done hd hs ho⟩)
  · exact .inl hrefused

theorem step_fst (hr : r.state = .running) :
    r.step.1 = ((turn r.prompt r.dispatcher).perform r.session).1 := by
  rcases ht : (turn r.prompt r.dispatcher).perform r.session with ⟨stop | state, s⟩
  · rw [step_error hr ht]
  · rw [step_ok hr ht]

theorem step_refused_iff (hr : r.state = .running) {f : Failure} :
    r.step.1 = .error (.refused f) ↔ ∃ demand out, r.Asks demand out ∧ out.Refuses demand f := by
  rw [step_fst hr]
  constructor
  · intro hf
    rcases turn_cases r with ⟨g, s, hask⟩ | ⟨line, s, s', hd, hs⟩ | ⟨text, state, s, hword⟩ |
      ⟨state, s, hquiet⟩
    · rw [perform_turn_refused hask] at hf
      obtain rfl : g = f := by simpa using hf
      obtain ⟨demand, out, hm, hrefuses⟩ := ask_error_iff.mp (congrArg Prod.fst hask)
      exact ⟨demand, out, .prompt hm, hrefuses⟩
    · rw [hd.perform_turn_waits hs] at hf
      cases hf
    · rw [hword.perform_turn, say_error_iff] at hf
      exact ⟨_, _, .word hword, hf⟩
    · rw [hquiet.perform_turn] at hf
      cases hf
  · rintro ⟨demand, out, hasks, hf⟩
    cases hasks with
    | prompt hm =>
      have hask : ((ask r.prompt).perform r.session).1 = .error (.refused f) :=
        ask_error_iff.mpr ⟨demand, out, hm, hf⟩
      rw [perform_turn_refused (Prod.ext hask rfl)]
    | word hword => rwa [hword.perform_turn, say_error_iff]

theorem step_waits_iff (hr : r.state = .running) :
    r.step.1 = .error .waits ↔ ∃ line s, r.Dispatches line s ∧ s.world.WaitsOn line := by
  rw [step_fst hr]
  constructor
  · intro hw
    rcases turn_cases r with ⟨g, s, hask⟩ | ⟨line, s, s', hd, hs⟩ | ⟨text, state, s, hword⟩ |
      ⟨state, s, hquiet⟩
    · rw [perform_turn_refused hask] at hw
      cases hw
    · exact ⟨line, s, hd, (Dispatcher.dispatch_waits hs).1⟩
    · rw [hword.perform_turn] at hw
      exact absurd hw say_ne_waits
    · rw [hquiet.perform_turn] at hw
      cases hw
  · rintro ⟨line, s, hd, hw⟩
    have hs := Dispatcher.dispatch_waits_iff (d := r.dispatcher) |>.mpr hw
    rw [hd.perform_turn_waits (Prod.ext hs rfl)]

-- ---------------------------------------------------------------------------
-- Why the loop ends
-- ---------------------------------------------------------------------------

inductive Cause
  | exit
  | endOfInput
  | unreadable (failure : Failure)

def Cause.lastWord : Cause → String
  | .exit => ""
  | .endOfInput => "\n"
  | .unreadable f => readingError f

inductive EndsBy (r : Repl) : Cause → Prop
  | exit {line : CommandLine} {s : Session} : r.Dispatches line s →
      line.name = Dispatcher.exitName →
      (r.dispatcher.dispatch line).perform s = (.ok .exit, s) → r.EndsBy .exit
  | endOfInput {s : Session} : r.Hears (.ok []) s → r.EndsBy .endOfInput
  | unreadable {f : Failure} {s : Session} : r.Hears (.error f) s → f.kind ≠ .invalidData →
      r.EndsBy (.unreadable f)

theorem endsBy_of_terminated {s : Session}
    (h : (turn r.prompt r.dispatcher).perform r.session = (.ok .terminated, s)) :
    ∃ cause, r.EndsBy cause := by
  rcases turn_cases r with ⟨g, s', hask⟩ | ⟨line, s', s'', hd, hs⟩ | ⟨text, state, s', hword⟩ |
    ⟨state, s', hquiet⟩
  · rw [perform_turn_refused hask] at h
    cases h
  · rw [hd.perform_turn_waits hs] at h
    cases h
  · have hstate : state = .terminated := by
      rw [hword.perform_turn, perform_say] at h
      cases hp : (s'.out.put (bytesOf text)).1 with
      | error g => simp [hp, Except.map] at h
      | ok u => simpa [hp, Except.map] using congrArg Prod.fst h
    cases hword with
    | farewell hh => exact ⟨_, .endOfInput hh⟩
    | noText _ _ _ => cases hstate
    | unreadable hh hk => exact ⟨_, .unreadable hh hk⟩
    | refused _ _ => cases hstate
  · rw [hquiet.perform_turn] at h
    obtain ⟨hstate, -⟩ := Prod.mk.inj h
    cases hquiet with
    | blank _ _ _ _ => cases hstate
    | done _ _ _ => cases hstate
    | exit hd hs =>
      obtain ⟨hn, rfl⟩ := Dispatcher.dispatch_exit hs
      exact ⟨_, .exit hd hn hs⟩

end LineShell.Repl
