import LineShell.Programs.System
import LineShell.Proofs.Input.Pieces
import LineShell.Proofs.Loop.Answers

/-!
# The loop as a conversation

On a calm input and an output that never fails the loop is a fold over the pieces of its input:
a prompt and an answer for each piece, up to the first one that is an exit command, or else a
last prompt and an empty line. A piece that no command comes back from holds the fold up.
`run_converses`: the loop ends, or waits, in the state of that fold, and has taken just the pieces
that the fold has taken.
-/

namespace LineShell

/-- The conversation about some pieces of input: how it ends, what it shows then, what is left. -/
def View.converse (prompt : String) (d : Dispatcher) :
    List Bytes → View → Except (Stop Failure) Unit × View × List Bytes
  | [], v => (.ok (), (v.emit prompt).emit "\n", [])
  | piece :: rest, v =>
    match (v.emit prompt).hear d piece with
    | (.ok .terminated, v) => (.ok (), v, rest)
    | (.ok .running, v) => converse prompt d rest v
    | (.error stop, v) => (.error stop, v, rest)

namespace Repl

open Source (pieces)

variable {host : Programs.Host} {r : Repl} {source : Source}

inductive Ends (r : Repl) (heard : List Bytes) : Except (Stop Failure) Unit → Prop
  | terminated : r.state = .terminated → Ends r heard (.ok ())
  | waits {before : List Bytes} {piece : Bytes} : heard = before ++ [piece] →
      r.session.world.HeldUpBy piece → Ends r heard (.error .waits)

theorem Ends.cons {heard : List Bytes} {result : Except (Stop Failure) Unit} (piece : Bytes)
    (h : Ends r heard result) : Ends r (piece :: heard) result := by
  cases h with
  | terminated hr => exact .terminated hr
  | @waits before last hheard hheld =>
    have hcons : piece :: heard = (piece :: before) ++ [last] := congrArg (piece :: ·) hheard
    exact .waits hcons hheld

theorem Ready.converses (h : r.Ready source) (hd : r.dispatcher.launch = Programs.launch host)
    (hc : source.Calm) :
    ∃ n result r' source' heard, Runs n r result r' ∧ r'.session.input = .own source' ∧
      pieces source.unread = heard ++ pieces source'.unread ∧ Ends r' heard result ∧
      r.session.view.converse r.prompt r.dispatcher (pieces source.unread) =
        (result, r'.session.view, pieces source'.unread) := by
  generalize hp : pieces source.unread = ps
  induction ps generalizing r source with
  | nil =>
    obtain ⟨-, hline, hunread⟩ | ⟨piece, rest, hcut, -⟩ := hc.takeLine_pieces
    · have ht : r.session.view.turn r.prompt r.dispatcher source.takeLine.1 =
          (.ok .terminated, (r.session.view.emit r.prompt).emit "\n") := by
        rw [hline]
        rfl
      obtain ⟨s, hs, hview, hinput, -⟩ := h.step hd ht
      refine ⟨1, _, _, _, [], .next h.running hs (.done rfl), hinput, ?_, .terminated rfl, ?_⟩
      · rw [hunread]
        rfl
      · rw [View.converse, hview, hunread]
        rfl
    · simp [hp] at hcut
  | cons piece rest ih =>
    obtain ⟨hcut, -⟩ | ⟨piece, rest, hcut, hne, hline, hrest⟩ := hc.takeLine_pieces
    · simp [hp] at hcut
    · obtain ⟨rfl, rfl⟩ := List.cons.inj (hp.symm.trans hcut)
      rcases ht : r.session.view.turn r.prompt r.dispatcher source.takeLine.1 with ⟨stop | state, v⟩
      · obtain ⟨s, hs, rfl, hinput, -⟩ := h.step_stop hd ht
        rw [hline, View.turn_piece hne] at ht
        obtain ⟨rfl, hview, hheld⟩ := View.hear_stops ht
        have hworld : s.world = r.session.world := congrArg View.world hview
        have hends : Ends { r with session := s } [piece] (.error .waits) :=
          .waits (List.nil_append _).symm (hworld ▸ hheld)
        refine ⟨1, _, _, _, [piece], .stopped h.running hs, hinput, ?_, hends, ?_⟩
        · rw [hrest]
          rfl
        · rw [View.converse, ht, hrest]
      · obtain ⟨s, hs, rfl, hinput, hn⟩ := h.step hd ht
        rw [hline, View.turn_piece hne] at ht
        rw [View.converse, ht]
        cases state with
        | terminated =>
          refine ⟨1, _, _, _, [piece], .next h.running hs (.done rfl), hinput, ?_,
            .terminated rfl, ?_⟩
          · rw [hrest]
            rfl
          · rw [hrest]
        | running =>
          have hready : Ready { r with session := s, state := .running } source.takeLine.2 :=
            ⟨rfl, hinput, hn⟩
          obtain ⟨n, result, r', source', heard, hruns, hinput', hheard, hends, hconverse⟩ :=
            ih hready hd hc.takeLine hrest
          exact ⟨n + 1, result, r', source', piece :: heard, .next h.running hs hruns, hinput',
            by rw [hheard]; rfl, hends.cons piece, hconverse⟩

/-- A run of the shell is the conversation about the pieces of its input, however the bytes come.
It ends, unless it has come to a command that waits for ever. -/
theorem run_converses (host : Programs.Host) (config : Config) (session : Session)
    (source : Source) (bytes : Bytes) (hown : session.input = .own source)
    (hbytes : source.unread = bytes) (hc : source.Calm) (hn : session.out.NeverFails) :
    ∃ result r source' heard rest, (ofConfig host config session).run = (result, r) ∧
      r.session.input = .own source' ∧ source'.unread = rest.flatten ∧
      pieces bytes = heard ++ rest ∧ Ends r heard result ∧
      session.view.converse config.prompt (.onHost host config.searchPath) (pieces bytes) =
        (result, r.session.view, rest) := by
  subst hbytes
  have hd : (ofConfig host config session).dispatcher.launch = Programs.launch host := rfl
  have hready : (ofConfig host config session).Ready source := ⟨rfl, hown, hn⟩
  obtain ⟨n, result, r, source', heard, hruns, hinput, hheard, hends, hconverse⟩ :=
    hready.converses hd hc
  exact ⟨result, r, source', heard, _, run_of_runs hd hruns, hinput,
    (Source.flatten_pieces _).symm, hheard, hends, hconverse⟩

/-- A blank line, a line that is no text, a command in two reads and what stands after an exit. -/
def overheard : Source where
  reads := [.data (bytesOf " \n" ++ [0xFF, 0x0A] ++ bytesOf "wh"), .failure (.system .interrupted),
    .data (bytesOf "ere\nexit\nup")]

theorem run_converses_overheard :
    overheard.Calm ∧ ∃ r source',
      (ofConfig (.system false) .default { world := .fresh, input := .own overheard }).run =
        (.ok (), r) ∧
      r.state = .terminated ∧ r.session.input = .own source' ∧ source'.unread = bytesOf "up" ∧
      r.session.out.contents = bytesOf ("PShell>PShell>Error reading input: " ++
        "stream did not contain valid UTF-8\nPShell>/\nPShell>") := by
  have hcalm : overheard.Calm := by
    intro read hr
    simp only [overheard, List.mem_cons, List.not_mem_nil, or_false] at hr
    rcases hr with rfl | rfl | rfl
    · simp [Read.Calm]
    · rfl
    · change bytesOf "ere\nexit\nup" ≠ []
      decide +kernel
  refine ⟨hcalm, ?_⟩
  obtain ⟨result, r, source', heard, rest, hrun, hinput, hunread, -, hends, hconverse⟩ :=
    run_converses (.system false) .default { world := .fresh, input := .own overheard } overheard
      overheard.unread rfl rfl hcalm Sink.neverFails_empty
  have hok : result.isOk = true := (congrArg (·.1.isOk) hconverse).symm.trans (by decide +kernel)
  have hrest : rest = [bytesOf "up"] := (congrArg (·.2.2) hconverse).symm.trans (by decide +kernel)
  have hshown : r.session.view.transcript = bytesOf ("PShell>PShell>Error reading input: " ++
      "stream did not contain valid UTF-8\nPShell>/\nPShell>") :=
    (congrArg (·.2.1.transcript) hconverse).symm.trans (by decide +kernel)
  rw [hrest] at hunread
  cases hends with
  | terminated hstate => exact ⟨r, source', hrun, hstate, hinput, hunread, hshown⟩
  | waits _ => cases hok

def fifoCopied : Source where
  reads := [.data (bytesOf "copy pipe"), .failure (.system .interrupted), .data (bytesOf " new\n")]

theorem run_held_up :
    fifoCopied.Calm ∧ Sink.NeverFails {} ∧
      ¬ ∃ r, (ofConfig (.system false) .default { world := .piped, input := .own fifoCopied }).run =
        (.ok (), r) := by
  have hcalm : fifoCopied.Calm := by
    intro read hr
    simp only [fifoCopied, List.mem_cons, List.not_mem_nil, or_false] at hr
    rcases hr with rfl | rfl | rfl
    · change bytesOf "copy pipe" ≠ []
      decide +kernel
    · rfl
    · change bytesOf " new\n" ≠ []
      decide +kernel
  have hn := Sink.neverFails_empty
  refine ⟨hcalm, hn, ?_⟩
  rintro ⟨r, hrun⟩
  have hready : (ofConfig (.system false) .default
      { world := .piped, input := .own fifoCopied }).Ready fifoCopied := ⟨rfl, rfl, hn⟩
  have hline : fifoCopied.takeLine.1 = .ok (bytesOf "copy pipe new\n") := by rfl
  have hwaits := hready.run_waits rfl hline World.heldUp_piped
  rw [hrun] at hwaits
  cases hwaits

end Repl

end LineShell
