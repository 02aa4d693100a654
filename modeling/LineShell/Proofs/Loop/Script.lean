import LineShell.Programs.System
import LineShell.Proofs.Loop.Answers

/-!
# The loop on any script of reads

A source may bring bytes, nothing, interruptions and failures in any order. `run_follows`: the
loop ends or comes to a command that waits for ever, and step by step it answers the segments into
which boundaries cut what its source brings. A failure takes the bytes before it along, so no line
is put together across one.
-/

namespace LineShell

-- ---------------------------------------------------------------------------
-- How long a source lasts
-- ---------------------------------------------------------------------------

def Read.isInvalid : Read → Bool
  | .data _ => false
  | .failure f => f.kind = .invalidData

namespace Source

open Arrival (allowsMore)

theorem countP_allowsMore_read (read : Read) :
    read.arrivals.countP allowsMore = (upcoming [read]).count Sink.lineFeed +
      [read].count (.data []) + [read].countP Read.isInvalid := by
  cases read with
  | failure f => by_cases h : f.kind = .invalidData <;>
      simp [Read.arrivals, allowsMore, Read.isInvalid, upcoming, h]
  | data bytes =>
    by_cases hb : bytes = []
    · subst hb
      rfl
    · rw [arrivals_data hb, Arrival.countP_allowsMore_byte]
      simp [upcoming, Read.isInvalid, hb]

theorem upcoming_append (reads more : List Read) :
    upcoming (reads ++ more) = upcoming reads ++ upcoming more := List.flatMap_append

theorem countP_allowsMore_arrivals (s : Source) :
    s.arrivals.countP allowsMore = s.unread.count Sink.lineFeed + s.reads.count (.data []) +
      s.reads.countP Read.isInvalid := by
  have hreads (reads : List Read) : (reads.flatMap Read.arrivals).countP allowsMore =
      (upcoming reads).count Sink.lineFeed + reads.count (.data []) +
        reads.countP Read.isInvalid := by
    induction reads with
    | nil => rfl
    | cons read reads ih =>
      change _ = (upcoming ([read] ++ reads)).count Sink.lineFeed +
        ([read] ++ reads).count (.data []) + ([read] ++ reads).countP Read.isInvalid
      rw [List.flatMap_cons, List.countP_append, ih, countP_allowsMore_read, upcoming_append,
        List.count_append, List.count_append, List.countP_append]
      omega
  rw [arrivals, List.countP_append, hreads, Arrival.countP_allowsMore_byte, unread,
    List.count_append]
  omega

end Source

-- ---------------------------------------------------------------------------
-- Step by step
-- ---------------------------------------------------------------------------

namespace Repl

open Arrival (Segment)

/-- A step that reads one segment of what there is to read, and shows the answer to it. -/
def AnswersSegment (r : Repl) (result : Except (Stop Failure) ReplState) (r' : Repl) : Prop :=
  r.step = (result, r') ∧ ∃ line heard, r.Hears line heard ∧
    Segment r.session.arrivals line r'.session.arrivals ∧
    r.session.view.turn r.prompt r.dispatcher line = (result, r'.session.view)

/-- Steps up to the end, each of which answers the segment after the one before. The end may be a
segment that is never answered, which holds a command that waits. -/
inductive Follows : Nat → Repl → Except (Stop Failure) Unit → Repl → Prop
  | ends {r r' : Repl} : r.AnswersSegment (.ok .terminated) r' → r'.state = .terminated →
      Follows 1 r (.ok ()) r'
  | waits {r r' : Repl} {piece : Bytes} : r.AnswersSegment (.error .waits) r' →
      Arrival.Segment r.session.arrivals (.ok piece) r'.session.arrivals →
      r'.session.world.HeldUpBy piece → Follows 1 r (.error .waits) r'
  | goesOn {n : Nat} {r r' r'' : Repl} {result : Except (Stop Failure) Unit} :
      r.AnswersSegment (.ok .running) r' → Follows n r' result r'' →
      Follows (n + 1) r result r''

variable {host : Programs.Host} {r r' : Repl} {source : Source}

structure Answered (r : Repl) (source : Source) (result : Except (Stop Failure) ReplState)
    (r' : Repl) : Prop where
  answers : r.AnswersSegment result r'
  state : ∀ state, result = .ok state → r'.state = state
  ready : result = .ok .running → r'.Ready source.takeLine.2
  heldUp : ∀ stop, result = .error stop → stop = .waits ∧ ∃ piece,
    Segment r.session.arrivals (.ok piece) r'.session.arrivals ∧ r'.session.world.HeldUpBy piece

theorem Ready.answered (h : r.Ready source) (hd : r.dispatcher.launch = Programs.launch host)
    {result : Except (Stop Failure) ReplState} (hs : r.step = (result, r')) :
    r.Answered source result r' := by
  rcases ht : r.session.view.turn r.prompt r.dispatcher source.takeLine.1 with ⟨result', v⟩
  obtain ⟨s, hturn, rfl, hinput, hn⟩ := h.turn hd ht
  obtain ⟨heard, hh, hheard, -⟩ := h.hears
  have hsegment := hh.segment
  have hrest : heard.arrivals = s.arrivals := by simp only [Session.arrivals, hheard, hinput]
  rw [hrest] at hsegment
  cases result' with
  | ok state =>
    obtain ⟨rfl, rfl⟩ := Prod.mk.inj (hs.symm.trans (step_ok h.running hturn))
    refine ⟨⟨hs, _, heard, hh, hsegment, ht⟩, ?_, ?_, ?_⟩
    · rintro _ ⟨⟩
      rfl
    · rintro ⟨⟩
      exact ⟨rfl, hinput, hn⟩
    · rintro _ ⟨⟩
  | error stop =>
    obtain ⟨rfl, rfl⟩ := Prod.mk.inj (hs.symm.trans (step_error h.running hturn))
    refine ⟨⟨hs, _, heard, hh, hsegment, ht⟩, ?_, ?_, ?_⟩
    · rintro _ ⟨⟩
    · rintro ⟨⟩
    · rintro _ ⟨⟩
      obtain ⟨rfl, hview, piece, hline, hheld⟩ := View.turn_stops ht
      have hworld : s.world = r.session.world := congrArg View.world hview
      exact ⟨rfl, piece, hline ▸ hsegment, hworld ▸ hheld⟩

theorem Ready.follows (h : r.Ready source) (hd : r.dispatcher.launch = Programs.launch host)
    {n : Nat} {result : Except (Stop Failure) Unit} (hruns : Runs n r result r') :
    Follows n r result r' := by
  induction hruns generalizing source with
  | done hr => simp [h.running] at hr
  | stopped hr hs =>
    have hanswered := h.answered hd hs
    obtain ⟨rfl, piece, hsegment, hheld⟩ := hanswered.heldUp _ rfl
    exact .waits hanswered.answers hsegment hheld
  | @next r r' r'' state n result hr hs hruns ih =>
    have hanswered := h.answered hd hs
    have hstate := hanswered.state state rfl
    cases state with
    | running =>
      have hd' : r'.dispatcher.launch = Programs.launch host := by
        have hsame := r.step_dispatcher
        rw [hs] at hsame
        exact (congrArg Dispatcher.launch hsame).trans hd
      exact .goesOn hanswered.answers (ih (hanswered.ready rfl) hd')
    | terminated =>
      -- A shell that is over takes no further step.
      cases hruns with
      | done hr' => exact .ends hanswered.answers hr'
      | stopped hr' _ => simp [hstate] at hr'
      | next hr' _ _ => simp [hstate] at hr'

/-- Whatever a source brings in whatever order, the shell ends after a bounded number of steps, or
waits for ever at a command that does. -/
theorem run_follows (host : Programs.Host) (config : Config) (session : Session)
    (source : Source) (hown : session.input = .own source) (hn : session.out.NeverFails) :
    ∃ n result r, Follows n (ofConfig host config session) result r ∧
      (ofConfig host config session).run = (result, r) ∧
      n ≤ source.unread.count Sink.lineFeed + source.reads.count (.data []) +
        source.reads.countP Read.isInvalid + 2 := by
  have hd : (ofConfig host config session).dispatcher.launch = Programs.launch host := rfl
  have hready : (ofConfig host config session).Ready source := ⟨rfl, hown, hn⟩
  obtain ⟨n, result, r, hruns, hle⟩ := exists_runs _ hd
  refine ⟨n, result, r, hready.follows hd hruns, run_of_runs hd hruns, ?_⟩
  have harrivals : session.arrivals = source.arrivals := by simp only [Session.arrivals, hown]
  have hbound := Arrival.turnsLeft_le session.arrivals
  rw [harrivals, Source.countP_allowsMore_arrivals] at hbound
  rw [ofConfig, harrivals] at hle
  exact Nat.le_trans hle hbound

/-- A line that a failure cuts off, one that an interruption does not, and one that a pause ends. -/
def disturbed : Source where
  reads := [.data (bytesOf "up"), .failure (.reported .invalidData "noise"),
    .data (bytesOf "wh"), .failure (.system .interrupted), .data (bytesOf "ere"), .data [],
    .data (bytesOf "\n"), .failure (.reported .other "gone"), .data (bytesOf "up\n")]

theorem run_follows_disturbed :
    ∃ n r, Follows n (ofConfig (.system false) .default
        { world := .fresh, input := .own disturbed }) (.ok ()) r ∧ n ≤ 6 ∧
      r.session.out.contents = bytesOf ("PShell>Error reading input: noise\nPShell>/\n" ++
        "PShell>PShell>Error reading input: gone\n") := by
  obtain ⟨n, result, r, hfollows, hrun, hn⟩ :=
    run_follows (.system false) .default { world := .fresh, input := .own disturbed } disturbed
      rfl Sink.neverFails_empty
  have hshown : (ofConfig (.system false) .default { world := .fresh, input := .own disturbed }
      ).run.2.session.out.contents = bytesOf ("PShell>Error reading input: noise\nPShell>/\n" ++
        "PShell>PShell>Error reading input: gone\n") := by decide +kernel
  have hok : (ofConfig (.system false) .default { world := .fresh, input := .own disturbed }
      ).run.1.isOk = true := by decide +kernel
  rw [hrun] at hshown hok
  have hle : n ≤ 6 := Nat.le_trans hn (by decide +kernel)
  cases result with
  | ok _ => exact ⟨n, r, hfollows, hle, hshown⟩
  | error _ => cases hok

def pausedCopy : Source where
  reads := [.data (bytesOf "copy pipe"), .failure (.system .interrupted), .data (bytesOf " new"),
    .data []]

theorem run_paused :
    Sink.NeverFails {} ∧ ¬ ∃ r, (ofConfig (.system false) .default
      { world := .piped, input := .own pausedCopy }).run = (.ok (), r) ∧ r.state = .terminated := by
  have hn := Sink.neverFails_empty
  refine ⟨hn, ?_⟩
  rintro ⟨r, hrun, -⟩
  have hready : (ofConfig (.system false) .default
      { world := .piped, input := .own pausedCopy }).Ready pausedCopy := ⟨rfl, rfl, hn⟩
  have hline : pausedCopy.takeLine.1 = .ok (bytesOf "copy pipe new") := by rfl
  have hheld : World.piped.HeldUpBy (bytesOf "copy pipe new") :=
    ⟨"copy pipe new".toList, ⟨"copy", ["pipe", "new"]⟩, by decide +kernel, by decide +kernel,
      World.waitsOn_piped⟩
  have hwaits := hready.run_waits rfl hline hheld
  rw [hrun] at hwaits
  cases hwaits

end Repl

end LineShell
