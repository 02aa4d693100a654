/-!
# White space

The characters of the Unicode property White_Space, the words a text is made of, and a text
without the blanks at its ends. A word is a maximal run of characters that are not blank, so
words are never empty and blanks alone separate them.
-/

namespace LineShell.Text

/-- The Unicode property White_Space. -/
def isBlank (c : Char) : Bool :=
  let n := c.toNat
  (0x09 ≤ n && n ≤ 0x0D) || n == 0x20 || n == 0x85 || n == 0xA0 || n == 0x1680 ||
    (0x2000 ≤ n && n ≤ 0x200A) || n == 0x2028 || n == 0x2029 || n == 0x202F || n == 0x205F ||
    n == 0x3000

def words (cs : List Char) : List (List Char) :=
  match _h : cs.dropWhile isBlank with
  | [] => []
  | c :: rest =>
    (c :: rest.takeWhile (!isBlank ·)) :: words (rest.dropWhile (!isBlank ·))
termination_by cs.length
decreasing_by
  have h₁ := (List.dropWhile_suffix isBlank (l := cs)).length_le
  have h₂ := (List.dropWhile_suffix (fun c => !isBlank c) (l := rest)).length_le
  rw [_h, List.length_cons] at h₁
  omega

def trimStart (cs : List Char) : List Char := cs.dropWhile isBlank

def trimEnd (cs : List Char) : List Char := (cs.reverse.dropWhile isBlank).reverse

def trim (cs : List Char) : List Char := trimEnd (trimStart cs)

def AllBlank (cs : List Char) : Prop := ∀ c ∈ cs, isBlank c = true

instance (cs : List Char) : Decidable (AllBlank cs) :=
  decidable_of_iff (cs.all isBlank = true) List.all_eq_true

-- ---------------------------------------------------------------------------
-- Laws

theorem ne_nil_of_mem_words {cs w : List Char} (h : w ∈ words cs) : w ≠ [] := by
  fun_induction words cs with
  | case1 => simp at h
  | case2 cs c rest hd ih =>
    rcases List.mem_cons.1 h with rfl | h
    · simp
    · exact ih h

theorem not_isBlank_of_mem_words {cs w : List Char} (h : w ∈ words cs) {c : Char} (hc : c ∈ w) :
    isBlank c = false := by
  fun_induction words cs with
  | case1 => simp at h
  | case2 cs d rest hd ih =>
    rcases List.mem_cons.1 h with rfl | h
    · rcases List.mem_cons.1 hc with rfl | hc
      · have := List.head_dropWhile_not isBlank (l := cs) (by simp [hd])
        simpa [hd] using this
      · simpa using List.all_eq_true.1 List.all_takeWhile c hc
    · exact ih h

theorem dropWhile_isBlank_eq_nil {cs : List Char} : cs.dropWhile isBlank = [] ↔ AllBlank cs := by
  induction cs with
  | nil => simp [AllBlank]
  | cons c rest ih =>
    rw [List.dropWhile_cons]
    split
    · next hc => rw [ih]; simp [AllBlank, hc]
    · next hc => simp [AllBlank, hc]

theorem words_eq_nil {cs : List Char} : words cs = [] ↔ AllBlank cs := by
  rw [← dropWhile_isBlank_eq_nil]
  fun_cases words cs with
  | case1 h => simp [h]
  | case2 c rest h => simp [h]

end LineShell.Text
