import LineShell.Sink

/-!
# Demands to an output

Demands to write and to flush, and the output that each of them meets. Whoever makes several
makes them in order, up to the first that is refused.
-/

namespace LineShell

inductive Sink.Demand
  | write (text : String)
  | flush
deriving DecidableEq

namespace Sink

def grant (out : Sink) : Demand → Except Failure Unit × Sink
  | .write text => out.put (bytesOf text)
  | .flush => out.flush

def Refuses (out : Sink) (demand : Demand) (f : Failure) : Prop :=
  (out.grant demand).1 = .error f

/-- Of demands made in order, up to the first that is refused, the one that meets an output. -/
inductive Meets : List Demand → Sink → Demand → Sink → Prop
  | first {demand : Demand} {rest : List Demand} {out : Sink} :
      Meets (demand :: rest) out demand out
  | later {demand demand' : Demand} {rest : List Demand} {out out' out'' : Sink} :
      out.grant demand = (.ok (), out') → Meets rest out' demand' out'' →
      Meets (demand :: rest) out demand' out''

theorem not_meets_nil {out out' : Sink} {demand : Demand} : ¬ Meets [] out demand out' := by
  rintro ⟨⟩

theorem refused_later {demand : Demand} {rest : List Demand} {out out' : Sink} {f : Failure}
    (h : out.grant demand = (.ok (), out')) :
    (∃ demand' out'', Meets (demand :: rest) out demand' out'' ∧ out''.Refuses demand' f) ↔
      ∃ demand' out'', Meets rest out' demand' out'' ∧ out''.Refuses demand' f := by
  constructor
  · rintro ⟨demand', out'', hm, hf⟩
    cases hm with
    | first => simp [Refuses, h] at hf
    | later hg hm =>
      obtain rfl := (Prod.mk.inj (h.symm.trans hg)).2
      exact ⟨demand', out'', hm, hf⟩
  · rintro ⟨demand', out'', hm, hf⟩
    exact ⟨demand', out'', .later h hm, hf⟩

theorem refused_first {demand : Demand} {rest : List Demand} {out out' : Sink} {f g : Failure}
    (h : out.grant demand = (.error g, out')) :
    (∃ demand' out'', Meets (demand :: rest) out demand' out'' ∧ out''.Refuses demand' f) ↔
      g = f := by
  constructor
  · rintro ⟨demand', out'', hm, hf⟩
    cases hm with
    | first => simpa [Refuses, h] using hf
    | later hg hm => simp [h] at hg
  · rintro rfl
    exact ⟨demand, out, .first, by rw [Refuses, h]⟩

end Sink

end LineShell
