import LineShell.Proofs.Text.Lines

/-!
# Numbers in a text

A number is written with digits only, so it is known where it ends, and which number it is.
-/

namespace LineShell.Text

theorem isDigit_of_mem_toDigits {n : Nat} {c : Char} (h : c ∈ Nat.toDigits 10 n) : c.isDigit :=
  Nat.isDigit_of_mem_toDigits (by decide) (by decide) h

theorem not_mem_toDigits {c : Char} (h : c.isDigit = false) (n : Nat) : c ∉ Nat.toDigits 10 n :=
  fun hmem => absurd (isDigit_of_mem_toDigits hmem) (by simp [h])

theorem toDigits_inj {m n : Nat} (h : Nat.toDigits 10 m = Nat.toDigits 10 n) : m = n := by
  rw [← Nat.ofDigitChars_ten_toDigits (n := m), h, Nat.ofDigitChars_ten_toDigits]

theorem toDigits_append_inj {sep : Char} (hsep : sep.isDigit = false) {m n : Nat}
    {rest rest' : List Char}
    (h : Nat.toDigits 10 m ++ sep :: rest = Nat.toDigits 10 n ++ sep :: rest') :
    m = n ∧ rest = rest' := by
  have hcut (n : Nat) (rest : List Char) :
      cutAt sep (Nat.toDigits 10 n ++ sep :: rest) = some (Nat.toDigits 10 n, rest) :=
    cutAt_iff.mpr ⟨rfl, not_mem_toDigits hsep n⟩
  have hsame := (hcut m rest).symm.trans ((congrArg _ h).trans (hcut n rest'))
  obtain ⟨hdigits, hrest⟩ := Prod.mk.inj (Option.some.inj hsame)
  exact ⟨toDigits_inj hdigits, hrest⟩

end LineShell.Text
