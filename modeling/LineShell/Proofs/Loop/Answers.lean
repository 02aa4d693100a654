import LineShell.Config.Basic
import LineShell.Proofs.Dispatch.Mirror
import LineShell.Proofs.Dispatch.Waiting
import LineShell.Proofs.Loop.Ending

/-!
# What a turn shows

A turn on what there is to see: a world, standard input and everything that was written. It says
nothing of buffers, of events or of where the lines come from. `Ready.step`: on an output that
never fails a step emits the prompt, answers the line that its source gives, and does nothing
else that can be seen.
-/

namespace LineShell

-- ---------------------------------------------------------------------------
-- Answers
-- ---------------------------------------------------------------------------

namespace View

def session (v : View) : Session :=
  { world := v.world, stdin := v.stdin, out := { written := v.transcript }, forks := v.forks
    children := v.children }

def emit (v : View) (text : String) : View :=
  { v with transcript := v.transcript ++ bytesOf text }

/-- What a command comes to, and what there is to see after it. -/
def dispatch (d : Dispatcher) (line : CommandLine) (v : View) :
    Except (Stop CommandError) Outcome × View :=
  let (result, s) := (d.dispatch line).perform v.session
  (result, s.view)

/-- A command that waits for ever has no answer. -/
def obey (d : Dispatcher) (line : CommandLine) (v : View) :
    Except (Stop Failure) ReplState × View :=
  match v.dispatch d line with
  | (.ok .exit, v) => (.ok .terminated, v)
  | (.ok _, v) => (.ok .running, v)
  | (.error (.refused e), v) => (.ok .running, v.emit (e.message ++ "\n"))
  | (.error .waits, v) => (.error .waits, v)

def hear (d : Dispatcher) (piece : Bytes) (v : View) : Except (Stop Failure) ReplState × View :=
  match Utf8.decode? piece with
  | none => (.ok .running, v.emit "Error reading input: stream did not contain valid UTF-8\n")
  | some text =>
    if Text.AllBlank text then (.ok .running, v)
    else match CommandLine.parse (String.ofList text) with
      -- Not a case of its own: a text that is not blank has a first word.
      | none => (.ok .running, v)
      | some line => v.obey d line

def answer (d : Dispatcher) (v : View) :
    Except Failure Bytes → Except (Stop Failure) ReplState × View
  | .error f =>
    (.ok (if f.kind = .invalidData then .running else .terminated),
      v.emit ("Error reading input: " ++ f.message ++ "\n"))
  | .ok [] => (.ok .terminated, v.emit "\n")
  | .ok piece => v.hear d piece

def turn (prompt : String) (d : Dispatcher) (v : View) (line : Except Failure Bytes) :
    Except (Stop Failure) ReplState × View :=
  (v.emit prompt).answer d line

end View

-- ---------------------------------------------------------------------------
-- Actions and what they show
-- ---------------------------------------------------------------------------

open LineShell.Action

/-- The action comes to `result` and shows `v` in the end, and the output still never fails. -/
structure Shows (action : Action ε α) (s : Session) (result : Except ε α) (v : View) : Prop where
  result : (action.perform s).1 = result
  view : (action.perform s).2.view = v
  neverFails : (action.perform s).2.out.NeverFails

theorem Shows.of_perform {action : Action ε α} {s s' : Session} {result : Except ε α} {v : View}
    (h : action.perform s = (result, s')) (hv : s'.view = v) (hn : s'.out.NeverFails) :
    Shows action s result v := by
  refine ⟨?_, ?_, ?_⟩
  all_goals rw [h]
  · exact hv
  · exact hn

theorem Shows.of_eq {action : Action ε α} {action' : Action ε α} {s s' : Session}
    {result : Except ε α} {v : View} (h : Shows action' s' result v)
    (he : action.perform s = action'.perform s') : Shows action s result v := by
  obtain ⟨hresult, hview, hn⟩ := h
  rw [← he] at hresult hview hn
  exact ⟨hresult, hview, hn⟩

variable {s : Session}

theorem View.straight_session (v : View) : v.session.out.Straight :=
  ⟨rfl, rfl, rfl, rfl, by simp [View.session], rfl⟩

theorem View.view_session (v : View) : v.session.view = v := by
  simp [Session.view, View.session, Sink.contents]

theorem Session.mirrors_view (hn : s.out.NeverFails) : s.Mirrors s.view.session :=
  ⟨s.view.view_session.symm, hn, s.view.straight_session⟩

theorem view_put (hn : s.out.NeverFails) (text : String) :
    Session.view { s with out := (s.out.put (bytesOf text)).2 } = s.view.emit text := by
  simp [Session.view, View.emit, hn.contents_put]

theorem shows_dispatch {d : Dispatcher} {host : Programs.Host}
    (hd : d.launch = Programs.launch host) (hn : s.out.NeverFails) (line : CommandLine) :
    Shows (d.dispatch line) s (s.view.dispatch d line).1 (s.view.dispatch d line).2 := by
  obtain ⟨hr, hm⟩ := agrees_dispatch_mirrors hd line s _ (Session.mirrors_view hn)
  exact ⟨hr, hm.view, hm.neverFails⟩

namespace Repl

theorem shows_say (hn : s.out.NeverFails) (text : String) (state : ReplState) :
    Shows (say text state) s (.ok state) (s.view.emit text) := by
  obtain ⟨hok, hn'⟩ := hn.put (bytesOf text)
  have hp : (say text state).perform s =
      (.ok state, { s with out := (s.out.put (bytesOf text)).2 }) := by
    rw [perform_say, hok]
    rfl
  exact .of_perform hp (view_put hn text) hn'

theorem shows_ask (hn : s.out.NeverFails) (prompt : String) :
    Shows (ask prompt) s (.ok ()) (s.view.emit prompt) := by
  obtain ⟨hok, hn'⟩ := hn.put (bytesOf prompt)
  obtain ⟨hflush, hn'', -⟩ := hn'.flush
  have hp : (ask prompt).perform s =
      (.ok (), { s with out := (s.out.put (bytesOf prompt)).2.flush.2 }) := by
    have hwrite : ((own (write prompt)).perform s).1 = .ok () := by
      rw [perform_own, perform_write, hok]
      rfl
    rw [ask, perform_bind_of_ok hwrite]
    simp only [perform_own, perform_write, perform_flush, hflush]
    rfl
  have hv : Session.view { s with out := (s.out.put (bytesOf prompt)).2.flush.2 } =
      s.view.emit prompt := by
    rw [← view_put hn]
    simp only [Session.view, Sink.contents_flush]
  exact .of_perform hp hv hn''

variable {d : Dispatcher} {host : Programs.Host}

theorem shows_obey (hd : d.launch = Programs.launch host) (hn : s.out.NeverFails)
    (line : CommandLine) :
    Shows (obey d line) s (s.view.obey d line).1 (s.view.obey d line).2 := by
  have hs := shows_dispatch hd hn line
  rcases hp : (d.dispatch line).perform s with ⟨result, s'⟩
  rcases hv : s.view.dispatch d line with ⟨result', v⟩
  obtain ⟨rfl, rfl, hn'⟩ : result = result' ∧ s'.view = v ∧ s'.out.NeverFails := by
    obtain ⟨h₁, h₂, h₃⟩ := hs
    simp only [hp, hv] at h₁ h₂ h₃
    exact ⟨h₁, h₂, h₃⟩
  cases result with
  | error stop =>
    simp only [View.obey, hv]
    cases stop with
    | refused e =>
      let noted : Session := { s' with log := s'.log ++ [.refused e line.name] }
      exact (shows_say (s := noted) hn' _ .running).of_eq (perform_obey_refused hp)
    | waits => exact .of_perform (perform_obey_waits hp) rfl hn'
  | ok outcome =>
    by_cases ho : outcome = .exit
    · subst ho
      simp only [View.obey, hv]
      exact .of_perform (perform_obey_exit hp) rfl hn'
    · have hrunning : s.view.obey d line = (.ok .running, s'.view) := by
        rw [View.obey, hv]
        cases outcome with
        | exit => exact absurd rfl ho
        | _ => rfl
      rw [hrunning]
      exact .of_perform (perform_obey_done ho hp) rfl hn'

theorem shows_hear (hd : d.launch = Programs.launch host) (hn : s.out.NeverFails)
    {piece : Bytes} (hne : piece ≠ []) :
    Shows (react d (lineText piece)) s (s.view.hear d piece).1 (s.view.hear d piece).2 := by
  unfold View.hear lineText
  cases hdecode : Utf8.decode? piece with
  | none => exact (shows_say hn (readingError .notUtf8) .running).of_eq (perform_react_invalid rfl)
  | some text =>
    have hshows : String.ofList text ≠ "" := by
      intro htext
      exact hne (lineText_eq_empty (by simp [lineText, hdecode, htext]))
    simp only [Option.elim]
    split
    · next hblank =>
      exact .of_perform (perform_react_blank hshows (CommandLine.parse_eq_none.mpr hblank)) rfl hn
    · next hblank =>
      cases hparse : CommandLine.parse (String.ofList text) with
      | none => exact absurd (CommandLine.parse_eq_none.mp hparse) hblank
      | some line =>
        rw [react_line hparse]
        exact shows_obey hd hn line

theorem shows_react (hd : d.launch = Programs.launch host) (hn : s.out.NeverFails)
    (line : Except Failure Bytes) :
    Shows (react d (line.bind lineText)) s (s.view.answer d line).1 (s.view.answer d line).2 := by
  cases line with
  | error f =>
    by_cases hf : f.kind = .invalidData
    · simp only [View.answer, hf, if_true]
      exact (shows_say hn (readingError f) .running).of_eq (perform_react_invalid hf)
    · simp only [View.answer, hf, if_false]
      let noted : Session := { s with log := s.log ++ [.unreadable f] }
      exact (shows_say (s := noted) hn _ .terminated).of_eq (perform_react_failure hf)
  | ok piece =>
    cases piece with
    | nil =>
      rw [Except.bind, lineText_nil]
      exact (shows_say hn "\n" .terminated).of_eq perform_react_end
    | cons b rest => exact shows_hear hd hn (List.cons_ne_nil b rest)

-- ---------------------------------------------------------------------------
-- One step
-- ---------------------------------------------------------------------------

def ofConfig (host : Programs.Host) (config : Config) (session : Session) : Repl where
  prompt := config.prompt
  dispatcher := .onHost host config.searchPath
  session

variable {r : Repl} {source : Source}

/-- A running shell with a source of its own and an output that never fails. -/
structure Ready (r : Repl) (source : Source) : Prop where
  running : r.state = .running
  own : r.session.input = .own source
  neverFails : r.session.out.NeverFails

theorem Ready.hears (h : r.Ready source) :
    ∃ s, r.Hears source.takeLine.1 s ∧ s.input = .own source.takeLine.2 ∧
      s.view = r.session.view.emit r.prompt ∧ s.out.NeverFails := by
  obtain ⟨hresult, hview, hn⟩ := shows_ask h.neverFails r.prompt
  have hout := ask_only r.prompt r.session
  generalize hp : (ask r.prompt).perform r.session = performed at hresult hview hn hout
  obtain ⟨result, asked⟩ := performed
  dsimp only at hresult hview hn hout
  subst hresult
  have hown : asked.input = .own source := by
    rw [hout]
    exact h.own
  exact ⟨_, ⟨asked, hp, Session.takeLine_own hown⟩, rfl, hview, hn⟩

theorem Ready.turn (h : r.Ready source) (hd : r.dispatcher.launch = Programs.launch host)
    {result : Except (Stop Failure) ReplState} {v : View}
    (ht : r.session.view.turn r.prompt r.dispatcher source.takeLine.1 = (result, v)) :
    ∃ s, (Repl.turn r.prompt r.dispatcher).perform r.session = (result, s) ∧ s.view = v ∧
      s.input = .own source.takeLine.2 ∧ s.out.NeverFails := by
  obtain ⟨heard, hh, hinput, hview, hn⟩ := h.hears
  have hkeeps := keeps_react hd (source.takeLine.1.bind lineText) heard
  obtain ⟨hresult, hview', hn'⟩ := shows_react hd hn source.takeLine.1
  rw [hview, ← View.turn, ht] at hresult hview'
  refine ⟨_, ?_, hview', hkeeps.input.trans hinput, hn'⟩
  rw [perform_turn_of_hears hh]
  exact Prod.ext hresult rfl

theorem Ready.step (h : r.Ready source) (hd : r.dispatcher.launch = Programs.launch host)
    {state : ReplState} {v : View}
    (ht : r.session.view.turn r.prompt r.dispatcher source.takeLine.1 = (.ok state, v)) :
    ∃ s, r.step = (.ok state, { r with session := s, state }) ∧ s.view = v ∧
      s.input = .own source.takeLine.2 ∧ s.out.NeverFails := by
  obtain ⟨s, hturn, hs⟩ := h.turn hd ht
  exact ⟨s, step_ok h.running hturn, hs⟩

theorem Ready.step_stop (h : r.Ready source) (hd : r.dispatcher.launch = Programs.launch host)
    {stop : Stop Failure} {v : View}
    (ht : r.session.view.turn r.prompt r.dispatcher source.takeLine.1 = (.error stop, v)) :
    ∃ s, r.step = (.error stop, { r with session := s }) ∧ s.view = v ∧
      s.input = .own source.takeLine.2 ∧ s.out.NeverFails := by
  obtain ⟨s, hturn, hs⟩ := h.turn hd ht
  exact ⟨s, step_error h.running hturn, hs⟩

end Repl

-- ---------------------------------------------------------------------------
-- Waiting
-- ---------------------------------------------------------------------------

/-- The piece of input is a line with a command that waits in this world. -/
def World.HeldUpBy (w : World) (piece : Bytes) : Prop :=
  ∃ text line, Utf8.decode? piece = some text ∧
    CommandLine.parse (String.ofList text) = some line ∧ w.WaitsOn line

theorem World.HeldUpBy.ne_nil {w : World} {piece : Bytes} (h : w.HeldUpBy piece) : piece ≠ [] := by
  rintro rfl
  obtain ⟨text, line, hdecode, hparse, -⟩ := h
  obtain rfl := Option.some.inj (Utf8.decode?_nil.symm.trans hdecode)
  simp [CommandLine.parse, Text.words, CommandLine.ofFields?] at hparse

theorem World.heldUp_piped : World.piped.HeldUpBy (bytesOf "copy pipe new\n") :=
  ⟨"copy pipe new\n".toList, ⟨"copy", ["pipe", "new"]⟩, by decide +kernel, by decide +kernel,
    World.waitsOn_piped⟩

namespace View

variable {d : Dispatcher} {v v' : View}

theorem dispatch_waits {line : CommandLine} (h : v.dispatch d line = (.error .waits, v')) :
    v.world.WaitsOn line ∧ v' = v := by
  have hresult := congrArg Prod.fst h
  have hperform : (d.dispatch line).perform v.session =
      (.error .waits, ((d.dispatch line).perform v.session).2) := Prod.ext hresult rfl
  obtain ⟨hwaits, hs⟩ := Dispatcher.dispatch_waits hperform
  refine ⟨hwaits, (congrArg Prod.snd h).symm.trans ?_⟩
  exact (congrArg Session.view hs).trans v.view_session

theorem hear_stops {piece : Bytes} {stop : Stop Failure} (h : v.hear d piece = (.error stop, v')) :
    stop = .waits ∧ v' = v ∧ v.world.HeldUpBy piece := by
  unfold hear at h
  split at h
  · cases h
  next text hdecode =>
  split at h
  · cases h
  split at h
  · cases h
  next line hparse =>
  unfold obey at h
  split at h
  · cases h
  · cases h
  · cases h
  next hwaits =>
  cases h
  obtain ⟨hwaitsOn, hv⟩ := dispatch_waits hwaits
  exact ⟨rfl, hv, text, line, hdecode, hparse, hwaitsOn⟩

theorem hear_of_heldUp {piece : Bytes} (h : v.world.HeldUpBy piece) :
    (v.hear d piece).1 = .error .waits := by
  obtain ⟨text, line, hdecode, hparse, hwaitsOn⟩ := h
  have hblank : ¬ Text.AllBlank text := fun hblank => by
    simp [CommandLine.parse_eq_none.mpr hblank] at hparse
  have hwaits : (v.dispatch d line).1 = .error .waits := Dispatcher.dispatch_waits_iff.mpr hwaitsOn
  rcases hv : v.dispatch d line with ⟨result, v'⟩
  obtain rfl : result = .error .waits := by simpa [hv] using hwaits
  simp [hear, hdecode, hblank, hparse, obey, hv]

theorem turn_piece {piece : Bytes} (h : piece ≠ []) (prompt : String) (d : Dispatcher)
    (v : View) : v.turn prompt d (.ok piece) = (v.emit prompt).hear d piece := by
  cases piece with
  | nil => exact absurd rfl h
  | cons b rest => rfl

theorem answer_stops {line : Except Failure Bytes} {stop : Stop Failure}
    (h : v.answer d line = (.error stop, v')) :
    stop = .waits ∧ v' = v ∧ ∃ piece, line = .ok piece ∧ v.world.HeldUpBy piece := by
  rcases line with f | _ | ⟨b, rest⟩
  · cases h
  · cases h
  · obtain ⟨rfl, hv, hheld⟩ := hear_stops h
    exact ⟨rfl, hv, _, rfl, hheld⟩

theorem turn_stops {prompt : String} {line : Except Failure Bytes} {stop : Stop Failure}
    (h : v.turn prompt d line = (.error stop, v')) :
    stop = .waits ∧ v' = v.emit prompt ∧ ∃ piece, line = .ok piece ∧ v.world.HeldUpBy piece :=
  answer_stops h

end View

namespace Repl

variable {host : Programs.Host} {r : Repl} {source : Source} {piece : Bytes}

theorem Ready.run_waits (h : r.Ready source) (hd : r.dispatcher.launch = Programs.launch host)
    (hline : source.takeLine.1 = .ok piece) (hw : r.session.world.HeldUpBy piece) :
    r.run.1 = .error .waits := by
  have hheard :
      (r.session.view.turn r.prompt r.dispatcher source.takeLine.1).1 = .error .waits := by
    rw [hline, View.turn_piece hw.ne_nil]
    exact View.hear_of_heldUp hw
  obtain ⟨s, hs, -⟩ := h.step_stop hd (Prod.ext hheard rfl)
  rw [run_of_runs hd (.stopped h.running hs)]

end Repl

end LineShell
