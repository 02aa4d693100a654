import LineShell.Proofs.Loop.Turn

/-!
# The loop ends

`Runs` is the loop without any bound, with the number of steps it takes. A step that does not
end it leaves fewer turns, whatever the output refuses and whatever the commands do, so the loop
ends (`exists_runs`), and the bound that `run` is given is never what ends it (`run_iff`).
-/

namespace LineShell.Repl

open LineShell.Action

/-- So many steps from a shell end its loop, with what the loop returns and leaves. -/
inductive Runs : Nat → Repl → Except (Stop Failure) Unit → Repl → Prop
  | done {r : Repl} : r.state = .terminated → Runs 0 r (.ok ()) r
  | stopped {r r' : Repl} {stop : Stop Failure} : r.state = .running →
      r.step = (.error stop, r') → Runs 1 r (.error stop) r'
  | next {r r' r'' : Repl} {state : ReplState} {n : Nat} {result : Except (Stop Failure) Unit} :
      r.state = .running → r.step = (.ok state, r') → Runs n r' result r'' →
      Runs (n + 1) r result r''

def after : Nat → Repl → Repl
  | 0, r => r
  | n + 1, r => after n r.step.2

variable {r r' : Repl}

theorem after_succ (n : Nat) : r.after (n + 1) = (r.after n).step.2 := by
  induction n generalizing r with
  | zero => rfl
  | succ n ih => exact ih

-- ---------------------------------------------------------------------------
-- One step
-- ---------------------------------------------------------------------------

theorem step_cases (hr : r.state = .running) :
    (∃ f s, r.step = (.error f, { r with session := s }) ∧
        (turn r.prompt r.dispatcher).perform r.session = (.error f, s)) ∨
      ∃ state s, r.step = (.ok state, { r with session := s, state }) ∧
        (turn r.prompt r.dispatcher).perform r.session = (.ok state, s) := by
  rcases ht : (turn r.prompt r.dispatcher).perform r.session with ⟨f | state, s⟩
  · exact .inl ⟨f, s, step_error hr ht, rfl⟩
  · exact .inr ⟨state, s, step_ok hr ht, rfl⟩

theorem Hears.next_arrivals {line : Except Failure Bytes} {s : Session} (h : r.Hears line s) :
    Arrival.next r.session.arrivals = (line, s.arrivals) := by
  obtain ⟨asked, ha, hl⟩ := h
  have ho : asked.arrivals = r.session.arrivals := by
    have hout : asked = { r.session with out := asked.out } := by
      simpa only [ha] using ask_only r.prompt r.session
    rw [hout]
    rfl
  rw [← ho, ← asked.takeLine_next, hl]

theorem Hears.segment {line : Except Failure Bytes} {s : Session} (h : r.Hears line s) :
    Arrival.Segment r.session.arrivals line s.arrivals := by
  have hs := Arrival.segment_next r.session.arrivals
  rwa [h.next_arrivals] at hs

/-- A turn after which the shell goes on has read a line, or a failure about its bytes. -/
theorem goesOn_of_react {d : Dispatcher} {line : Except Failure Bytes} {s s' : Session}
    (h : (react d (line.bind lineText)).perform s = (.ok .running, s')) :
    Arrival.GoesOn line := by
  cases line with
  | ok bytes =>
    rintro rfl
    rw [Except.bind, lineText_nil, perform_react_end, perform_say] at h
    cases hp : (s.out.put (bytesOf "\n")).1 <;> simp [hp, Except.map] at h
  | error f =>
    by_cases hf : f.kind = .invalidData
    · exact hf
    · rw [Except.bind, perform_react_failure hf, perform_say] at h
      cases hp : (s.out.put (bytesOf (readingError f))).1 <;> simp [hp, Except.map] at h

variable {host : Programs.Host}

theorem keeps_react {d : Dispatcher} (hd : d.launch = Programs.launch host)
    (reading : Except Failure String) (s : Session) :
    s.Keeps ((react d reading).perform s).2 := by
  have hl := agrees_dispatch_keptFrom s hd
  exact ((carried_keptFrom s).agrees_react hl reading s s ⟨rfl, .refl s⟩).2.2

theorem turnsLeft_step (hd : r.dispatcher.launch = Programs.launch host)
    (hr : r.state = .running) (h : r.step = (.ok .running, r')) :
    Arrival.turnsLeft r'.session.arrivals < Arrival.turnsLeft r.session.arrivals := by
  rcases step_cases hr with ⟨f, s, hs, -⟩ | ⟨state, s, hs, ht⟩
  · simp [hs] at h
  · obtain ⟨rfl, rfl⟩ : state = .running ∧ { r with session := s, state } = r' := by
      simpa [hs] using h
    rcases hears_or_refused r with ⟨line, s', hh⟩ | ⟨f, s', ha⟩
    · rw [perform_turn_of_hears hh] at ht
      have hk := keeps_react hd (line.bind lineText) s'
      rw [ht] at hk
      have hlt := Arrival.turnsLeft_segment hh.segment (goesOn_of_react ht)
      exact Nat.lt_of_le_of_lt hk.turnsLeft_le hlt
    · rw [perform_turn_refused ha] at ht
      simp at ht

theorem step_dispatcher (r : Repl) : r.step.2.dispatcher = r.dispatcher := by
  simp only [step]
  split
  · rfl
  · split <;> rfl

-- ---------------------------------------------------------------------------
-- The whole loop
-- ---------------------------------------------------------------------------

theorem exists_runs (r : Repl) (hd : r.dispatcher.launch = Programs.launch host) :
    ∃ n result r', Runs n r result r' ∧ n ≤ Arrival.turnsLeft r.session.arrivals := by
  induction hm : Arrival.turnsLeft r.session.arrivals using Nat.strongRecOn generalizing r with
  | ind m ih =>
    subst hm
    have hpos := Arrival.turnsLeft_pos r.session.arrivals
    cases hr : r.state with
    | terminated => exact ⟨0, .ok (), r, .done hr, Nat.zero_le _⟩
    | running =>
      rcases step_cases hr with ⟨f, s, hs, -⟩ | ⟨state, s, hs, -⟩
      · exact ⟨1, .error f, _, .stopped hr hs, hpos⟩
      · cases state with
        | terminated => exact ⟨1, .ok (), _, .next hr hs (.done rfl), hpos⟩
        | running =>
          have hlt := turnsLeft_step hd hr hs
          obtain ⟨n, result, r', hruns, hn⟩ :=
            ih _ hlt { r with session := s, state := .running } hd rfl
          exact ⟨n + 1, result, r', .next hr hs hruns, Nat.lt_of_le_of_lt hn hlt⟩

theorem runFor_of_runs {n turns : Nat} {result : Except (Stop Failure) Unit}
    (h : Runs n r result r')
    (hn : n ≤ turns) : r.runFor turns = (result, r') := by
  induction h generalizing turns with
  | done ht =>
    cases turns with
    | zero => rfl
    | succ turns => simp [runFor, ht]
  | stopped hr hs =>
    cases turns with
    | zero => omega
    | succ turns => simp [runFor, hr, hs]
  | next hr hs _ ih =>
    cases turns with
    | zero => omega
    | succ turns => simp [runFor, hr, hs, ih (Nat.le_of_succ_le_succ hn)]

theorem Runs.unique {m n : Nat} {result result' : Except (Stop Failure) Unit} {r'' : Repl}
    (h : Runs m r result r') (h' : Runs n r result' r'') : result = result' ∧ r' = r'' := by
  have hm := runFor_of_runs h (Nat.le_max_left m n)
  have hn := runFor_of_runs h' (Nat.le_max_right m n)
  rw [hm] at hn
  exact Prod.mk.inj hn

/-- The bound of a run is never what ends it. -/
theorem run_of_runs (hd : r.dispatcher.launch = Programs.launch host) {n : Nat}
    {result : Except (Stop Failure) Unit} (h : Runs n r result r') : r.run = (result, r') := by
  obtain ⟨m, result', r'', hm, hle⟩ := exists_runs r hd
  obtain ⟨rfl, rfl⟩ := h.unique hm
  exact runFor_of_runs hm (Nat.le_trans hle r.session.turnsLeft_le_linesLeft)

theorem run_iff (hd : r.dispatcher.launch = Programs.launch host)
    {result : Except (Stop Failure) Unit} : r.run = (result, r') ↔ ∃ n, Runs n r result r' := by
  constructor
  · intro h
    obtain ⟨n, result', r'', hruns, -⟩ := exists_runs r hd
    rw [run_of_runs hd hruns] at h
    obtain ⟨rfl, rfl⟩ := Prod.mk.inj h
    exact ⟨n, hruns⟩
  · rintro ⟨n, h⟩
    exact run_of_runs hd h

theorem Runs.after {n : Nat} {result : Except (Stop Failure) Unit} (h : Runs n r result r') :
    r.after n = r' := by
  induction h with
  | done _ => rfl
  | stopped _ hs => simp [Repl.after, hs]
  | next _ hs _ ih => simpa [Repl.after, hs] using ih

theorem Runs.terminated {n : Nat} (h : Runs n r (.ok ()) r') : r'.state = .terminated := by
  generalize hres : (.ok () : Except (Stop Failure) Unit) = result at h
  induction h with
  | done ht => exact ht
  | stopped _ _ => cases hres
  | next _ _ _ ih => exact ih hres

theorem Runs.last {n : Nat} (h : Runs n r (.ok ()) r') (hr : r.state = .running) :
    ∃ m, (r.after m).state = .running ∧ (r.after m).step = (.ok .terminated, r') := by
  generalize hres : (.ok () : Except (Stop Failure) Unit) = result at h
  induction h with
  | done ht => simp [hr] at ht
  | stopped _ _ => cases hres
  | @next r r' r'' state n result hr' hs hruns ih =>
    cases hstate : r'.state with
    | running =>
      obtain ⟨m, hm⟩ := ih hstate hres
      rw [← show r.step.2 = r' by rw [hs]] at hm
      exact ⟨m + 1, hm⟩
    | terminated =>
      have hstep : state = .terminated := by
        rcases step_cases hr' with ⟨f, s, hs', -⟩ | ⟨state', s, hs', -⟩
        · simp [hs] at hs'
        · obtain ⟨rfl, rfl⟩ : state = state' ∧ r' = { r with session := s, state := state' } := by
            simpa [hs] using hs'
          exact hstate
      subst hstep
      cases hruns with
      | done _ => exact ⟨0, hr', hs⟩
      | stopped hr'' _ => simp [hstate] at hr''
      | next hr'' _ _ => simp [hstate] at hr''

end LineShell.Repl
