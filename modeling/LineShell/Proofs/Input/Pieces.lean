import LineShell.Proofs.Input.Arrivals

/-!
# Calm inputs, piece by piece

A calm input brings bytes and interruptions and ends once. How its bytes are cut into reads does
not show: the lines that are read from it are the pieces between the line feeds of all its bytes.
-/

namespace LineShell

/-- A read that brings at least one byte, or nothing but an interruption. -/
def Read.Calm : Read → Prop
  | .data bytes => bytes ≠ []
  | .failure f => f.kind = .interrupted

namespace Source

open Arrival

def Calm (s : Source) : Prop := ∀ read ∈ s.reads, read.Calm

/-- Bytes cut after each line feed. What follows the last one is a piece too, unless it is empty. -/
def pieces : Bytes → List Bytes
  | [] => []
  | b :: rest =>
    if b = Sink.lineFeed then [b] :: pieces rest
    else match pieces rest with
      | [] => [[b]]
      | piece :: more => (b :: piece) :: more

-- ---------------------------------------------------------------------------
-- Pieces
-- ---------------------------------------------------------------------------

theorem flatten_pieces (bytes : Bytes) : (pieces bytes).flatten = bytes := by
  induction bytes with
  | nil => rfl
  | cons b rest ih =>
    rw [pieces]
    split
    · simp [ih]
    · split
      · next h => simpa [h] using ih
      · next piece more h => simpa [h] using ih

theorem pieces_line {before : Bytes} (h : Sink.lineFeed ∉ before) (rest : Bytes) :
    pieces (before ++ Sink.lineFeed :: rest) = (before ++ [Sink.lineFeed]) :: pieces rest := by
  induction before with
  | nil => simp [pieces]
  | cons b before ih =>
    obtain ⟨hb, hbefore⟩ : Sink.lineFeed ≠ b ∧ Sink.lineFeed ∉ before := by simpa using h
    simp [pieces, Ne.symm hb, ih hbefore]

theorem pieces_last {bytes : Bytes} (h : Sink.lineFeed ∉ bytes) (hne : bytes ≠ []) :
    pieces bytes = [bytes] := by
  induction bytes with
  | nil => exact absurd rfl hne
  | cons b rest ih =>
    obtain ⟨hb, hrest⟩ : Sink.lineFeed ≠ b ∧ Sink.lineFeed ∉ rest := by simpa using h
    cases rest with
    | nil => simp [pieces, Ne.symm hb]
    | cons c rest =>
      rw [pieces, ih hrest (List.cons_ne_nil _ _)]
      simp [Ne.symm hb]

-- ---------------------------------------------------------------------------
-- The arrivals of a calm input
-- ---------------------------------------------------------------------------

theorem bytesIn_arrivals (s : Source) : bytesIn s.arrivals = s.unread := by
  have hread (read : Read) : bytesIn read.arrivals = upcoming [read] := by
    cases read with
    | failure f => rfl
    | data bytes =>
      by_cases hb : bytes = []
      · subst hb; rfl
      · rw [arrivals_data hb, bytesIn_byte]
        simp [upcoming]
  rw [arrivals, bytesIn_append, bytesIn_byte, unread]
  congr 1
  induction s.reads with
  | nil => rfl
  | cons read reads ih =>
    rw [List.flatMap_cons, bytesIn_append, ih, hread]
    simp [upcoming]

theorem Calm.mem_arrivals {s : Source} (h : s.Calm) {a : Arrival} (ha : a ∈ s.arrivals) :
    (∃ b, a = .byte b) ∨ ∃ f, a = .failure f ∧ f.kind = .interrupted := by
  rcases List.mem_append.mp ha with ha | ha
  · obtain ⟨b, -, rfl⟩ := List.mem_map.mp ha
    exact .inl ⟨b, rfl⟩
  · obtain ⟨read, hr, ha⟩ := List.mem_flatMap.mp ha
    have hcalm := h read hr
    cases read with
    | data bytes =>
      rw [arrivals_data hcalm] at ha
      obtain ⟨b, -, rfl⟩ := List.mem_map.mp ha
      exact .inl ⟨b, rfl⟩
    | failure f => exact .inr ⟨f, List.mem_singleton.mp ha, hcalm⟩

theorem Calm.boundary {s : Source} (h : s.Calm) {a : Arrival} (ha : a ∈ s.arrivals)
    (hb : a.isBoundary = true) : a = .byte Sink.lineFeed := by
  rcases h.mem_arrivals ha with ⟨b, rfl⟩ | ⟨f, rfl, hk⟩
  · exact congrArg Arrival.byte (of_decide_eq_true hb)
  · simp [isBoundary, hk] at hb

theorem Calm.takeLine {s : Source} (h : s.Calm) : s.takeLine.2.Calm := fun read hr =>
  h read (s.takeLine_suffix.subset hr)

theorem not_mem_bytesIn {middle : List Arrival} (h : ∀ a ∈ middle, a.isBoundary = false) :
    Sink.lineFeed ∉ bytesIn middle := by
  intro hm
  obtain ⟨a, ha, hb⟩ := List.mem_filterMap.mp hm
  cases a with
  | byte b =>
    obtain rfl : b = Sink.lineFeed := by simpa [byte?] using hb
    simpa [isBoundary] using h _ ha
  | _ => simp [byte?] at hb

theorem Calm.takeLine_pieces {s : Source} (h : s.Calm) :
    (pieces s.unread = [] ∧ s.takeLine.1 = .ok [] ∧ s.takeLine.2.unread = []) ∨
      ∃ piece rest, pieces s.unread = piece :: rest ∧ piece ≠ [] ∧ s.takeLine.1 = .ok piece ∧
        pieces s.takeLine.2.unread = rest := by
  have hsegment := segment_next s.arrivals
  rw [← takeLine_next] at hsegment
  dsimp only at hsegment
  rw [← bytesIn_arrivals, ← bytesIn_arrivals]
  generalize has : s.arrivals = as at hsegment ⊢
  generalize s.takeLine.1 = line, s.takeLine.2.arrivals = rest at hsegment ⊢
  cases hsegment with
  | @closed middle _ boundary hm hb =>
    obtain rfl : boundary = .byte Sink.lineFeed :=
      h.boundary (by rw [has]; simp) hb
    refine .inr ⟨_, _, ?_, ?_, rfl, rfl⟩
    · rw [bytesIn_append]
      exact pieces_line (not_mem_bytesIn hm) _
    · simp
  | last hm =>
    by_cases hne : bytesIn as = []
    · exact .inl ⟨by rw [hne]; rfl, by rw [hne], rfl⟩
    · exact .inr ⟨_, [], pieces_last (not_mem_bytesIn hm) hne, hne, rfl, rfl⟩

end Source

end LineShell
