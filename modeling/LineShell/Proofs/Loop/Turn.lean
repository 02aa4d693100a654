import LineShell.Proofs.Dispatch.Frame

/-!
# The ways a turn can go

A turn asks, reads and reacts. Asking is the prompt and its flush; what comes after depends only
on what was read. Each reaction is one lemma, in terms of what the turn has to say of its own and
of what the dispatched command did.
-/

namespace LineShell

open LineShell.Action

-- ---------------------------------------------------------------------------
-- Texts of lines
-- ---------------------------------------------------------------------------

theorem Utf8.decode?_nil : Utf8.decode? [] = some [] := by simp [Utf8.decode?, Utf8.parts]

theorem Utf8.decode?_eq_nil {bytes : Bytes} (h : Utf8.decode? bytes = some []) : bytes = [] := by
  cases bytes with
  | nil => rfl
  | cons b rest =>
    simp only [Utf8.decode?, Utf8.parts, List.mapM_cons] at h
    cases hp : (Utf8.part b rest).1 with
    | none => simp [hp] at h
    | some c => simp [hp, Option.bind_eq_some_iff] at h

theorem lineText_nil : lineText [] = .ok "" := by simp [lineText, Utf8.decode?_nil]

theorem lineText_eq_empty {bytes : Bytes} (h : lineText bytes = .ok "") : bytes = [] := by
  unfold lineText at h
  cases hd : Utf8.decode? bytes with
  | none => simp [hd] at h
  | some cs =>
    have hc : cs = [] := by simpa [hd] using h
    exact Utf8.decode?_eq_nil (hc ▸ hd)

theorem lineText_error {bytes : Bytes} {f : Failure} (h : lineText bytes = .error f) :
    f.kind = .invalidData := by
  unfold lineText at h
  cases hd : Utf8.decode? bytes with
  | none =>
    obtain rfl : Failure.notUtf8 = f := by simpa [hd] using h
    rfl
  | some cs => simp [hd] at h

namespace Repl

-- ---------------------------------------------------------------------------
-- Asking and reacting
-- ---------------------------------------------------------------------------

def ask (prompt : String) : Action (Stop Failure) Unit := do
  own (write prompt)
  own flush

def say (text : String) (state : ReplState) : Action (Stop Failure) ReplState := do
  own (write text)
  return state

def readingError (failure : Failure) : String := "Error reading input: " ++ failure.message ++ "\n"

theorem perform_own (write : Action Failure Unit) (s : Session) :
    (own write).perform s = ((write.perform s).1.mapError .refused, (write.perform s).2) := rfl

theorem perform_say (text : String) (state : ReplState) (s : Session) :
    (say text state).perform s =
      (((s.out.put (bytesOf text)).1.map fun _ => state).mapError .refused,
        { s with out := (s.out.put (bytesOf text)).2 }) := by
  rw [say, perform_bind, perform_own, perform_write]
  rcases (s.out.put (bytesOf text)).1 with f | u <;> rfl

theorem ask_only (prompt : String) (s : Session) :
    ((ask prompt).perform s).2 = { s with out := ((ask prompt).perform s).2.out } := by
  rw [ask, perform_bind, perform_own, perform_write]
  rcases (s.out.put (bytesOf prompt)).1 with f | u <;> rfl

theorem ask_cases (prompt : String) (s : Session) :
    ((ask prompt).perform s).1 = .ok () ∨
      ∃ f, ((ask prompt).perform s).1 = .error (.refused f) := by
  rw [ask, perform_bind, perform_own, perform_write]
  rcases hput : s.out.put (bytesOf prompt) with ⟨f | _, out⟩
  · exact .inr ⟨f, rfl⟩
  · simp only [mapError_ok, perform_own, perform_flush]
    rcases out.flush with ⟨f | _, out⟩
    · exact .inr ⟨f, rfl⟩
    · exact .inl rfl

variable {d : Dispatcher} {s s' : Session}

theorem perform_react_invalid {f : Failure} (h : f.kind = .invalidData) :
    (react d (.error f)).perform s = (say (readingError f) .running).perform s := by
  rw [react, if_pos h]
  rfl

theorem perform_react_failure {f : Failure} (h : f.kind ≠ .invalidData) :
    (react d (.error f)).perform s =
      (say (readingError f) .terminated).perform { s with log := s.log ++ [.unreadable f] } := by
  rw [react, if_neg h]
  rfl

theorem perform_react_end : (react d (.ok "")).perform s = (say "\n" .terminated).perform s := rfl

theorem perform_react_blank {text : String} (ht : text ≠ "") (h : CommandLine.parse text = none) :
    (react d (.ok text)).perform s = (.ok .running, s) := by
  simp [react, ht, h]

theorem react_line {text : String} {line : CommandLine} (h : CommandLine.parse text = some line) :
    react d (.ok text) = obey d line := by
  have ht : text ≠ "" := by
    rintro rfl
    simp [CommandLine.parse, Text.words, CommandLine.ofFields?] at h
  simp [react, ht, h]

variable {line : CommandLine}

theorem perform_obey_exit (h : (d.dispatch line).perform s = (.ok .exit, s')) :
    (obey d line).perform s = (.ok .terminated, { s' with log := s'.log ++ [.exitRequested] }) := by
  rw [obey, perform_bind, perform_attempt, h]
  rfl

theorem perform_obey_done {outcome : Outcome} (ho : outcome ≠ .exit)
    (h : (d.dispatch line).perform s = (.ok outcome, s')) :
    (obey d line).perform s =
      (.ok .running, { s' with log := s'.log ++ [.dispatched outcome] }) := by
  rw [obey, perform_bind, perform_attempt, h]
  cases outcome with
  | exit => exact absurd rfl ho
  | _ => rfl

theorem perform_obey_waits (h : (d.dispatch line).perform s = (.error .waits, s')) :
    (obey d line).perform s = (.error .waits, s') := by
  rw [obey, perform_bind, perform_attempt, h]
  rfl

theorem perform_obey_refused {e : CommandError}
    (h : (d.dispatch line).perform s = (.error (.refused e), s')) :
    (obey d line).perform s =
      (say (e.message ++ "\n") .running).perform
        { s' with log := s'.log ++ [.refused e line.name] } := by
  rw [obey, perform_bind, perform_attempt, h]
  rfl

-- ---------------------------------------------------------------------------
-- A turn and its step
-- ---------------------------------------------------------------------------

theorem turn_eq (prompt : String) (d : Dispatcher) :
    turn prompt d =
      ask prompt >>= fun _ => takeLine >>= fun line => react d (line.bind lineText) := by
  simp [turn, ask]

theorem perform_turn_refused {prompt : String} {stop : Stop Failure}
    (h : (ask prompt).perform s = (.error stop, s')) :
    (turn prompt d).perform s = (.error stop, s') := by
  rw [turn_eq]
  exact perform_bind_error h _

theorem perform_turn_asked {prompt : String} (h : (ask prompt).perform s = (.ok (), s')) :
    (turn prompt d).perform s =
      (react d (s'.takeLine.1.bind lineText)).perform s'.takeLine.2 := by
  rw [turn_eq, perform_bind_ok h]
  exact perform_bind_ok rfl _

variable {r r' : Repl}

theorem step_terminated (h : r.state = .terminated) : r.step = (.ok .terminated, r) := by
  simp [step, h]

theorem step_ok {state : ReplState} (hr : r.state = .running)
    (h : (turn r.prompt r.dispatcher).perform r.session = (.ok state, s)) :
    r.step = (.ok state, { r with session := s, state }) := by
  simp [step, hr, h]

theorem step_error {stop : Stop Failure} (hr : r.state = .running)
    (h : (turn r.prompt r.dispatcher).perform r.session = (.error stop, s)) :
    r.step = (.error stop, { r with session := s }) := by
  simp [step, hr, h]

/-- The prompt goes out, and then the input gives `line`. -/
def Hears (r : Repl) (line : Except Failure Bytes) (s : Session) : Prop :=
  ∃ asked, (ask r.prompt).perform r.session = (.ok (), asked) ∧ asked.takeLine = (line, s)

theorem perform_turn_of_hears {line : Except Failure Bytes} (h : r.Hears line s) :
    (turn r.prompt r.dispatcher).perform r.session =
      (react r.dispatcher (line.bind lineText)).perform s := by
  obtain ⟨asked, ha, hl⟩ := h
  rw [perform_turn_asked ha, hl]

theorem hears_or_refused (r : Repl) :
    (∃ line s, r.Hears line s) ∨
      ∃ f s, (ask r.prompt).perform r.session = (.error (.refused f), s) := by
  rcases ask_cases r.prompt r.session with hok | ⟨f, hf⟩
  · exact .inl ⟨_, _, _, Prod.ext hok rfl, rfl⟩
  · exact .inr ⟨f, _, Prod.ext hf rfl⟩

end Repl

-- ---------------------------------------------------------------------------
-- What holds through a turn
-- ---------------------------------------------------------------------------

namespace Carried

variable {R R' : Session → Session → Prop} (h : Carried R R')
include h

theorem agrees_ask (prompt : String) : Agrees (Repl.ask prompt) R R :=
  ((h.write prompt).mapError _).bind (fun _ => (h.flush.weaken h.weaken).mapError _)
    fun _ _ hst => hst

theorem agrees_say (text : String) (state : ReplState) : Agrees (Repl.say text state) R R :=
  ((h.write text).mapError _).bind (fun _ => .pure state) fun _ _ hst => hst

variable {d : Dispatcher} (hd : ∀ line, Agrees (d.dispatch line) R R)
include hd

theorem agrees_obey (line : CommandLine) : Agrees (Repl.obey d line) R R := by
  refine (hd line).attempt.bind (fun result => ?_) fun _ _ hst => hst
  split
  · exact (h.agrees_note _).bind (fun _ => .pure _) fun _ _ hst => hst
  · exact (h.agrees_note _).bind (fun _ => .pure _) fun _ _ hst => hst
  · exact (h.agrees_note _).bind (fun _ => h.agrees_say _ .running) fun _ _ hst => hst
  · exact .throw _

theorem agrees_react (reading : Except Failure String) : Agrees (Repl.react d reading) R R := by
  cases reading with
  | error failure =>
    simp only [Repl.react]
    split
    · exact h.agrees_say _ .running
    · exact (h.agrees_note _).bind (fun _ => h.agrees_say _ .terminated) fun _ _ hst => hst
  | ok text =>
    simp only [Repl.react]
    split
    · exact h.agrees_say _ .terminated
    · split
      · exact .pure _
      · exact h.agrees_obey hd _

end Carried

end LineShell
