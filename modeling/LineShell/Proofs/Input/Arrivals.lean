import LineShell.Repl

/-!
# What an input brings, thing by thing

The reads of a source fall into single arrivals: bytes, reads that bring nothing, and failures.
Boundaries among them are line feeds, reads that bring nothing, and failures other than
interruptions. `takeLine_next`: a line is what the bytes before the first boundary come to, and
the arrivals after that boundary are left.
-/

namespace LineShell

inductive Arrival
  | byte (b : UInt8)
  /-- A read that brings nothing. -/
  | pause
  | failure (failure : Failure)
deriving DecidableEq

def Read.arrivals : Read → List Arrival
  | .data [] => [.pause]
  | .data bytes => bytes.map .byte
  | .failure f => [.failure f]

def Source.arrivals (s : Source) : List Arrival :=
  s.held.map .byte ++ s.reads.flatMap Read.arrivals

namespace Arrival

def byte? : Arrival → Option UInt8
  | .byte b => some b
  | _ => none

def bytesIn (as : List Arrival) : Bytes := as.filterMap byte?

def isBoundary : Arrival → Bool
  | .byte b => b = Sink.lineFeed
  | .pause => true
  | .failure f => f.kind ≠ .interrupted

def close (line : Bytes) : Arrival → Except Failure Bytes
  | .byte b => .ok (line ++ [b])
  | .pause => .ok line
  | .failure f => .error f

/-- What the bytes before the first boundary come to, and the arrivals after it. The end of the
arrivals closes a line as a read that brings nothing does. -/
def next (as : List Arrival) : Except Failure Bytes × List Arrival :=
  let line := bytesIn (as.takeWhile (!·.isBoundary))
  match as.dropWhile (!·.isBoundary) with
  | [] => (.ok line, [])
  | boundary :: rest => (boundary.close line, rest)

-- ---------------------------------------------------------------------------
-- The next line of some arrivals
-- ---------------------------------------------------------------------------

@[simp] theorem bytesIn_append (as bs : List Arrival) :
    bytesIn (as ++ bs) = bytesIn as ++ bytesIn bs := List.filterMap_append

@[simp] theorem bytesIn_byte (bytes : Bytes) : bytesIn (bytes.map .byte) = bytes := by
  induction bytes with
  | nil => rfl
  | cons b rest ih => simpa [bytesIn, byte?] using ih

theorem next_boundary {a : Arrival} (h : a.isBoundary = true) (rest : List Arrival) :
    next (a :: rest) = (a.close [], rest) := by
  simp [next, h, bytesIn]

theorem next_append {middle : List Arrival} (h : ∀ a ∈ middle, a.isBoundary = false)
    (as : List Arrival) :
    next (middle ++ as) = ((next as).1.map (bytesIn middle ++ ·), (next as).2) := by
  have hm : ∀ a ∈ middle, (!a.isBoundary) = true := by simpa using h
  simp only [next, List.takeWhile_append_of_pos hm, List.dropWhile_append_of_pos hm]
  cases as.dropWhile (!·.isBoundary) with
  | nil => simp [Except.map]
  | cons a rest => cases a <;> simp [close, Except.map]

theorem not_isBoundary_byte {bytes : Bytes} (h : Sink.lineFeed ∉ bytes) :
    ∀ a ∈ bytes.map Arrival.byte, a.isBoundary = false := by
  intro a ha
  obtain ⟨b, hb, rfl⟩ := List.mem_map.mp ha
  simp only [isBoundary, decide_eq_false_iff_not]
  rintro rfl
  exact h hb

end Arrival

-- ---------------------------------------------------------------------------
-- Lines of a source
-- ---------------------------------------------------------------------------

namespace Source

open Arrival

theorem cutLine_eq_some {bytes line rest : Bytes} (h : cutLine bytes = some (line, rest)) :
    ∃ before, Sink.lineFeed ∉ before ∧ bytes = before ++ Sink.lineFeed :: rest ∧
      line = before ++ [Sink.lineFeed] := by
  obtain ⟨⟨before, after⟩, hc, he⟩ := Option.map_eq_some_iff.mp h
  cases he
  obtain ⟨hb, hn⟩ := Text.cutAt_eq_some hc
  exact ⟨before, hn, hb, rfl⟩

theorem cutLine_eq_none {bytes : Bytes} : cutLine bytes = none ↔ Sink.lineFeed ∉ bytes := by
  simp only [cutLine, Option.map_eq_none_iff]
  exact Text.cutAt_eq_none

theorem next_of_cutLine {bytes line rest : Bytes} (h : cutLine bytes = some (line, rest))
    (as : List Arrival) :
    next (bytes.map .byte ++ as) = (.ok line, rest.map .byte ++ as) := by
  obtain ⟨before, hn, rfl, rfl⟩ := cutLine_eq_some h
  rw [List.map_append, List.append_assoc, next_append (not_isBoundary_byte hn), List.map_cons,
    List.cons_append, next_boundary (by simp [isBoundary])]
  simp [close, Except.map]

theorem next_of_no_cutLine {bytes : Bytes} (h : cutLine bytes = none) (as : List Arrival) :
    next (bytes.map .byte ++ as) = ((next as).1.map (bytes ++ ·), (next as).2) := by
  rw [next_append (not_isBoundary_byte (cutLine_eq_none.mp h)), bytesIn_byte]

theorem arrivals_data {bytes : Bytes} (h : bytes ≠ []) :
    (Read.data bytes).arrivals = bytes.map .byte := by
  cases bytes with
  | nil => exact absurd rfl h
  | cons b rest => rfl

theorem gather_next (reads : List Read) :
    ((gather reads).1, (gather reads).2.arrivals) = next (reads.flatMap Read.arrivals) := by
  fun_induction gather reads with
  | case1 => rfl
  | case2 f reads hf ih =>
    rw [List.flatMap_cons, Read.arrivals, next_append (by simp [isBoundary, hf]), ← ih]
    cases (gather reads).1 <;> simp [Except.map, bytesIn, byte?]
  | case3 f reads hf =>
    rw [List.flatMap_cons, Read.arrivals, List.singleton_append,
      next_boundary (by simpa [isBoundary] using hf)]
    simp [close, Source.arrivals]
  | case4 reads =>
    rw [List.flatMap_cons, Read.arrivals, List.singleton_append, next_boundary rfl]
    simp [close, Source.arrivals]
  | case5 bytes reads hne line rest hc =>
    rw [List.flatMap_cons, arrivals_data hne, next_of_cutLine hc]
    rfl
  | case6 bytes reads hne hc more source hg ih =>
    rw [hg] at ih
    rw [List.flatMap_cons, arrivals_data hne, next_of_no_cutLine hc, ← ih]

/-- A source gives the next line of its arrivals and keeps the arrivals after it. -/
theorem takeLine_next (s : Source) :
    (s.takeLine.1, s.takeLine.2.arrivals) = next s.arrivals := by
  unfold takeLine
  change _ = next (s.held.map .byte ++ s.reads.flatMap Read.arrivals)
  split
  · next line rest hc => rw [next_of_cutLine hc]; rfl
  · next hc => rw [next_of_no_cutLine hc, ← gather_next]

theorem gather_suffix (reads : List Read) : (gather reads).2.reads <:+ reads := by
  fun_induction gather reads with
  | case1 => exact List.suffix_rfl
  | case2 f reads _ ih => exact ih.trans (List.suffix_cons _ reads)
  | case3 f reads _ => exact List.suffix_cons _ reads
  | case4 reads => exact List.suffix_cons _ reads
  | case5 bytes reads _ line rest _ => exact List.suffix_cons _ reads
  | case6 bytes reads _ _ more source hg ih =>
    rw [hg] at ih
    exact ih.trans (List.suffix_cons _ reads)

theorem takeLine_suffix (s : Source) : s.takeLine.2.reads <:+ s.reads := by
  unfold takeLine
  split
  · exact List.suffix_rfl
  · exact gather_suffix s.reads

-- ---------------------------------------------------------------------------
-- Sources of nothing but bytes
-- ---------------------------------------------------------------------------

/-- The bytes that are still to come. -/
def unread (s : Source) : Bytes := s.held ++ upcoming s.reads

def BringsBytes (read : Read) : Prop := ∃ bytes, bytes ≠ [] ∧ read = .data bytes

theorem arrivals_of_bringsBytes {s : Source} (h : ∀ read ∈ s.reads, BringsBytes read) :
    s.arrivals = s.unread.map .byte := by
  rw [arrivals, unread, List.map_append, upcoming, List.map_flatMap, List.flatMap_def,
    List.flatMap_def]
  congr 2
  apply List.map_congr_left
  intro read hr
  obtain ⟨bytes, hne, rfl⟩ := h read hr
  exact arrivals_data hne

theorem ne_nil_of_mem_blocks {size : Nat} {bytes block : Bytes} (h : block ∈ blocks size bytes) :
    block ≠ [] := by
  fun_induction blocks size bytes with
  | case1 => simp at h
  | case2 b rest ih =>
    rcases List.mem_cons.mp h with rfl | h
    · exact List.cons_ne_nil _ _
    · exact ih h

theorem bringsBytes_readsOf {size : Nat} {bytes : Bytes} :
    ∀ read ∈ readsOf size bytes, BringsBytes read := by
  intro read hr
  obtain ⟨block, hb, rfl⟩ := List.mem_map.mp hr
  exact ⟨block, ne_nil_of_mem_blocks hb, rfl⟩

end Source

-- ---------------------------------------------------------------------------
-- How many turns some arrivals last
-- ---------------------------------------------------------------------------

namespace Arrival

/-- A boundary after which the shell can go on. -/
def allowsMore : Arrival → Bool
  | .byte b => b = Sink.lineFeed
  | .pause => true
  | .failure f => f.kind = .invalidData

/-- The turns some arrivals last at most: one for each boundary after which the shell can go on,
one for a line that the end cuts short, and one for the end. -/
def turnsLeft (as : List Arrival) : Nat :=
  as.countP allowsMore + if as = [] then 1 else 2

theorem countP_allowsMore_byte (bytes : Bytes) :
    (bytes.map Arrival.byte).countP allowsMore = bytes.count Sink.lineFeed := by
  rw [List.countP_map, List.count_eq_countP]
  apply List.countP_congr
  simp [allowsMore]

theorem turnsLeft_le (as : List Arrival) : turnsLeft as ≤ as.countP allowsMore + 2 := by
  unfold turnsLeft
  split <;> omega

theorem turnsLeft_pos (as : List Arrival) : 0 < turnsLeft as := by
  unfold turnsLeft
  split <;> omega

theorem turnsLeft_sublist {as bs : List Arrival} (h : List.Sublist bs as) :
    turnsLeft bs ≤ turnsLeft as := by
  by_cases ha : as = []
  · subst ha
    obtain rfl := List.sublist_nil.mp h
    exact Nat.le_refl _
  · have hc := h.countP_le (p := allowsMore)
    have hb := turnsLeft_le bs
    simp only [turnsLeft, ha, if_false] at hb ⊢
    omega

/-- A result of reading after which the shell can go on: a line, or a failure about its bytes. -/
def GoesOn : Except Failure Bytes → Prop
  | .ok line => line ≠ []
  | .error f => f.kind = .invalidData

theorem allowsMore_of_goesOn {a : Arrival} {line : Bytes} (hb : a.isBoundary = true)
    (h : GoesOn (a.close line)) : a.allowsMore = true := by
  cases a with
  | byte b => exact hb
  | pause => rfl
  | failure f => exact decide_eq_true h

/-- The first line of some arrivals and what is left of them: a line is closed by the first
boundary, or by the end. -/
inductive Segment : List Arrival → Except Failure Bytes → List Arrival → Prop
  | closed {middle rest : List Arrival} {boundary : Arrival} :
      (∀ a ∈ middle, a.isBoundary = false) → boundary.isBoundary = true →
      Segment (middle ++ boundary :: rest) (boundary.close (bytesIn middle)) rest
  | last {middle : List Arrival} :
      (∀ a ∈ middle, a.isBoundary = false) → Segment middle (.ok (bytesIn middle)) []

theorem segment_next (as : List Arrival) : Segment as (next as).1 (next as).2 := by
  have hsplit := List.takeWhile_append_dropWhile (p := fun a : Arrival => !a.isBoundary) (l := as)
  have hmiddle : ∀ a ∈ as.takeWhile (!·.isBoundary), a.isBoundary = false := by
    simpa using List.all_eq_true.mp (List.all_takeWhile (p := fun a : Arrival => !a.isBoundary)
      (l := as))
  cases hd : as.dropWhile (!·.isBoundary) with
  | nil =>
    rw [hd, List.append_nil] at hsplit
    rw [hsplit] at hmiddle
    simp only [next, hd, hsplit]
    exact .last hmiddle
  | cons boundary rest =>
    have hb := List.head_dropWhile_not (fun a : Arrival => !a.isBoundary) (l := as) (by simp [hd])
    have h : Segment (as.takeWhile (!·.isBoundary) ++ boundary :: rest)
        (boundary.close (bytesIn (as.takeWhile (!·.isBoundary)))) rest :=
      .closed hmiddle (by simpa [hd] using hb)
    rw [← hd, hsplit] at h
    simpa only [next, hd] using h

theorem turnsLeft_segment {as rest : List Arrival} {line : Except Failure Bytes}
    (h : Segment as line rest) (hg : GoesOn line) : turnsLeft rest < turnsLeft as := by
  cases h with
  | @closed middle _ boundary _ hb =>
    have ha := allowsMore_of_goesOn hb hg
    have hle := turnsLeft_le rest
    simp only [turnsLeft, List.countP_append, List.countP_cons, ha, if_true,
      List.append_eq_nil_iff, reduceCtorEq, and_false, if_false] at hle ⊢
    omega
  | last _ =>
    have hne : as ≠ [] := by
      rintro rfl
      exact hg rfl
    simp [turnsLeft, hne]

end Arrival

-- ---------------------------------------------------------------------------
-- What a session has still to read
-- ---------------------------------------------------------------------------

namespace Session

open Arrival

def arrivals (s : Session) : List Arrival :=
  match s.input with
  | .own source => source.arrivals
  | .standard held => (held ++ s.stdin).map .byte

theorem arrivals_standard {s : Session} {held : Bytes} (h : s.input = .standard held) :
    s.arrivals = (Source.mk held (Source.readsOf blockSize s.stdin)).arrivals := by
  rw [Source.arrivals_of_bringsBytes Source.bringsBytes_readsOf]
  simp [arrivals, h, Source.unread, Source.upcoming_readsOf]

theorem takeLine_next (s : Session) :
    (s.takeLine.1, s.takeLine.2.arrivals) = next s.arrivals := by
  cases hi : s.input with
  | own source =>
    have h := source.takeLine_next
    simpa only [takeLine, arrivals, hi] using h
  | standard held =>
    rw [arrivals_standard hi, ← Source.takeLine_next]
    have hr : ∀ read ∈ (Source.mk held (Source.readsOf blockSize s.stdin)).takeLine.2.reads,
        Source.BringsBytes read := fun read hr =>
      Source.bringsBytes_readsOf read ((Source.takeLine_suffix _).subset hr)
    rw [Source.arrivals_of_bringsBytes hr]
    simp only [takeLine, arrivals, hi, Source.unread]

theorem takeLine_only (s : Session) :
    s.takeLine.2 = { s with input := s.takeLine.2.input, stdin := s.takeLine.2.stdin } := by
  unfold takeLine
  split <;> rfl

theorem takeLine_own {s : Session} {source : Source} (h : s.input = .own source) :
    s.takeLine = (source.takeLine.1, { s with input := .own source.takeLine.2 }) := by
  simp only [takeLine, h]

theorem linesLeft_eq (s : Session) : s.linesLeft = s.arrivals.countP allowsMore + 1 := by
  cases hi : s.input with
  | standard held => simp only [linesLeft, arrivals, hi, countP_allowsMore_byte]
  | own source =>
    simp only [linesLeft, arrivals, hi, Source.linesLeft, Source.arrivals, List.countP_append,
      countP_allowsMore_byte, List.countP_flatMap]
    congr 3
    apply List.map_congr_left
    intro read _
    cases read with
    | data bytes =>
      cases bytes with
      | nil => rfl
      | cons b rest => exact (countP_allowsMore_byte (b :: rest)).symm
    | failure f => by_cases h : f.kind = .invalidData <;> simp [Read.arrivals, allowsMore, h]

theorem turnsLeft_le_linesLeft (s : Session) : turnsLeft s.arrivals ≤ s.linesLeft + 1 := by
  rw [linesLeft_eq]
  exact turnsLeft_le s.arrivals

end Session

end LineShell
