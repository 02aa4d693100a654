import LineShell.Sink

/-!
# What an output takes

A write that succeeds was taken whole, and under a buffer that waits for a flush all of it is
pending. An output that nothing stands in the way of takes every write and every flush, now and
later; how it buffers decides only when its bytes reach the device.
-/

namespace LineShell.Sink

-- ---------------------------------------------------------------------------
-- Writes that succeed
-- ---------------------------------------------------------------------------

theorem admitted_of_accept_ok {s s' : Sink} {bytes : Bytes}
    (h : s.accept bytes = (.ok (), s')) : s.admitted bytes = bytes := by
  have hp : s.admitted bytes <+: bytes := List.take_prefix _ _
  by_cases hl : (s.admitted bytes).length = bytes.length
  · exact hp.eq_of_length hl
  · -- A write is cut only where an obstacle stands, and that obstacle refuses it.
    exfalso
    have hcut : (s.admitted bytes).length = min (min (s.before s.limit bytes.length)
        (s.before s.faults.head? bytes.length)) bytes.length := List.length_take
    simp only [accept, hl, if_false] at h
    cases hf : s.faults with
    | cons fault rest =>
      rw [hf] at h
      split at h <;> simp_all
    | nil =>
      cases hlimit : s.limit with
      | none => simp [before, hf, hlimit] at hcut; omega
      | some limit =>
        have hreached : limit.count ≤ s.accepted + (s.admitted bytes).length := by
          simp [before, hf, hlimit] at hcut
          omega
        simp [hlimit, hf, Option.filter, hreached] at h

theorem accept_buffering (s : Sink) (bytes : Bytes) :
    (s.accept bytes).2.buffering = s.buffering := by
  simp only [accept]
  split
  · rfl
  · split <;> rfl

theorem accept_pending (s : Sink) (bytes : Bytes) :
    (s.accept bytes).2.pending = s.pending ++ s.admitted bytes := by
  simp only [accept]
  split
  · rfl
  · split <;> rfl

theorem settle_untilFlush {s : Sink} (hb : s.buffering = .untilFlush) (bytes : Bytes) :
    s.settle bytes = (.ok (), s) := by
  simp [settle, hb]

theorem put_untilFlush {s s' : Sink} {bytes : Bytes} (hb : s.buffering = .untilFlush)
    (h : s.put bytes = (.ok (), s')) : s'.pending = s.pending ++ bytes := by
  have hs := settle_untilFlush ((accept_buffering s bytes).trans hb) bytes
  rw [put] at h
  simp only [hs, Prod.mk.injEq] at h
  obtain ⟨hr, rfl⟩ := h
  have ha : s.accept bytes = (.ok (), (s.accept bytes).2) := Prod.ext hr rfl
  rw [accept_pending, admitted_of_accept_ok ha]

-- ---------------------------------------------------------------------------
-- How an output buffers is never changed
-- ---------------------------------------------------------------------------

theorem drain_buffering (s : Sink) : s.drain.2.buffering = s.buffering := by
  unfold drain
  split
  · split <;> rfl
  · rfl

theorem settle_buffering (s : Sink) (bytes : Bytes) :
    (s.settle bytes).2.buffering = s.buffering := by
  unfold settle
  split
  · exact drain_buffering s
  · rfl
  · split
    · exact drain_buffering s
    · rfl

theorem put_buffering (s : Sink) (bytes : Bytes) : (s.put bytes).2.buffering = s.buffering := by
  rw [put_snd, settle_buffering, accept_buffering]

theorem flush_buffering (s : Sink) : s.flush.2.buffering = s.buffering := by
  simp only [flush]
  split
  · rfl
  · exact drain_buffering _

theorem passThrough_buffering (s : Sink) (bytes : Bytes) :
    (s.passThrough bytes).buffering = s.buffering := by
  unfold passThrough
  split <;> rfl

-- ---------------------------------------------------------------------------
-- Outputs that never fail
-- ---------------------------------------------------------------------------

/-- Nothing stands in the way of any write or flush that is still to come. -/
structure NeverFails (s : Sink) : Prop where
  limit : s.limit = none
  faults : s.faults = []
  flushFaults : ∀ o ∈ s.flushFaults, o.count ≤ s.flushes
  blocked : s.blocked = none

variable {s : Sink}

theorem neverFails_empty : NeverFails {} := ⟨rfl, rfl, by simp, rfl⟩

theorem NeverFails.admitted (h : s.NeverFails) (bytes : Bytes) : s.admitted bytes = bytes := by
  simp [Sink.admitted, before, h.limit, h.faults]

theorem NeverFails.accept (h : s.NeverFails) (bytes : Bytes) :
    (s.accept bytes).1 = .ok () ∧ (s.accept bytes).2.NeverFails := by
  simp only [Sink.accept, h.admitted, if_true, true_and]
  exact ⟨h.limit, h.faults, h.flushFaults, h.blocked⟩

theorem NeverFails.drain (h : s.NeverFails) :
    s.drain.1 = .ok () ∧ s.drain.2.NeverFails ∧ s.drain.2.pending = [] := by
  simp only [Sink.drain, h.blocked, true_and, and_true]
  exact ⟨h.limit, h.faults, h.flushFaults, rfl⟩

theorem NeverFails.settle (h : s.NeverFails) (bytes : Bytes) :
    (s.settle bytes).1 = .ok () ∧ (s.settle bytes).2.NeverFails := by
  unfold Sink.settle
  split
  · exact ⟨h.drain.1, h.drain.2.1⟩
  · exact ⟨rfl, h⟩
  · split
    · exact ⟨h.drain.1, h.drain.2.1⟩
    · exact ⟨rfl, h⟩

theorem NeverFails.put (h : s.NeverFails) (bytes : Bytes) :
    (s.put bytes).1 = .ok () ∧ (s.put bytes).2.NeverFails := by
  obtain ⟨ha, hs⟩ := h.accept bytes
  obtain ⟨hok, hn⟩ := hs.settle bytes
  rw [put_snd]
  refine ⟨?_, hn⟩
  simp only [Sink.put]
  rw [show (s.accept bytes).2.settle bytes = (.ok (), ((s.accept bytes).2.settle bytes).2) from
    Prod.ext hok rfl]
  exact ha

theorem NeverFails.contents_put (h : s.NeverFails) (bytes : Bytes) :
    (s.put bytes).2.contents = s.contents ++ bytes := by
  rw [Sink.contents_put, h.admitted]

theorem NeverFails.flush (h : s.NeverFails) :
    s.flush.1 = .ok () ∧ s.flush.2.NeverFails ∧ s.flush.2.pending = [] := by
  have hn : s.flushFaults.find? (·.count = s.flushes + 1) = none := by
    rw [List.find?_eq_none]
    intro o ho
    have := h.flushFaults o ho
    simp only [decide_eq_true_eq]
    omega
  simp only [Sink.flush, hn]
  exact NeverFails.drain ⟨h.limit, h.faults, fun o ho => Nat.le_succ_of_le (h.flushFaults o ho),
    h.blocked⟩

theorem NeverFails.passThrough (h : s.NeverFails) (bytes : Bytes) :
    (s.passThrough bytes).NeverFails := by
  simp only [Sink.passThrough, h.blocked, Option.isSome_none]
  exact ⟨h.limit, h.faults, h.flushFaults, rfl⟩

theorem NeverFails.contents_passThrough (h : s.NeverFails) (hp : s.pending = []) (bytes : Bytes) :
    (s.passThrough bytes).contents = s.contents ++ bytes := by
  simp [Sink.passThrough, h.blocked, contents, hp]

-- ---------------------------------------------------------------------------
-- Straight outputs
-- ---------------------------------------------------------------------------

/-- An output that passes everything on at once and holds nothing back. -/
structure Straight (s : Sink) : Prop where
  buffering : s.buffering = .straight
  pending : s.pending = []
  neverFails : s.NeverFails

theorem Straight.put (h : s.Straight) (bytes : Bytes) : (s.put bytes).2.Straight := by
  obtain ⟨ha, hn⟩ := h.neverFails.accept bytes
  have hb := (accept_buffering s bytes).trans h.buffering
  refine ⟨(put_buffering s bytes).trans h.buffering, ?_, (h.neverFails.put bytes).2⟩
  rw [put_snd, settle, hb]
  exact hn.drain.2.2

theorem Straight.flush (h : s.Straight) : s.flush.2.Straight :=
  ⟨(flush_buffering s).trans h.buffering, h.neverFails.flush.2.2, h.neverFails.flush.2.1⟩

theorem Straight.passThrough (h : s.Straight) (bytes : Bytes) : (s.passThrough bytes).Straight :=
  ⟨(passThrough_buffering s bytes).trans h.buffering,
    by unfold Sink.passThrough; split <;> exact h.pending, h.neverFails.passThrough bytes⟩

theorem Straight.contents (h : s.Straight) : s.contents = s.written := by
  simp [Sink.contents, h.pending]

def straightened (s : Sink) : Sink :=
  { s with buffering := .straight, pending := [], written := s.contents }

theorem NeverFails.straightened (h : s.NeverFails) : s.straightened.Straight :=
  ⟨rfl, rfl, h.limit, h.faults, h.flushFaults, h.blocked⟩

theorem contents_straightened (s : Sink) : s.straightened.contents = s.contents := by
  simp [Sink.straightened, Sink.contents]

end LineShell.Sink
