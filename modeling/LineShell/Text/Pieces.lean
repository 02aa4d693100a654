/-!
# Cutting a text at a character

`pieces` cuts at every occurrence of a separator and is undone by joining with it; `cutAt`
cuts at the first one only. `lines` are the pieces between line feeds, where a carriage return
directly before a line feed belongs to the line end.
-/

namespace LineShell.Text

def pieces [DecidableEq α] (sep : α) : List α → List (List α)
  | [] => [[]]
  | c :: cs =>
    if c = sep then [] :: pieces sep cs
    else match pieces sep cs with
      | [] => [[c]]
      | p :: ps => (c :: p) :: ps

def cutAt [DecidableEq α] (sep : α) : List α → Option (List α × List α)
  | [] => none
  | c :: cs =>
    if c = sep then some ([], cs) else (cutAt sep cs).map fun (a, b) => (c :: a, b)

def dropReturn (line : List Char) : List Char :=
  if line.getLast? = some '\r' then line.dropLast else line

/-- The lines of a text. A line ends with a line feed or with a carriage return and a line
feed. What follows the last line feed is a line only if it is not empty, and keeps a
carriage return at its end. -/
def lines (text : List Char) : List (List Char) :=
  let ps := pieces '\n' text
  let last := ps.getLast?.getD []
  ps.dropLast.map dropReturn ++ if last = [] then [] else [last]

-- ---------------------------------------------------------------------------
-- Laws

theorem pieces_ne_nil [DecidableEq α] (sep : α) (cs : List α) : pieces sep cs ≠ [] := by
  induction cs with
  | nil => simp [pieces]
  | cons c cs ih =>
    rw [pieces]
    split
    · simp
    · split <;> simp

theorem intercalate_pieces [DecidableEq α] (sep : α) (cs : List α) :
    [sep].intercalate (pieces sep cs) = cs := by
  induction cs with
  | nil => rfl
  | cons c cs ih =>
    have hn := pieces_ne_nil sep cs
    rw [pieces]
    cases hp : pieces sep cs with
    | nil => exact absurd hp hn
    | cons p ps =>
      rw [hp] at ih
      split
      · next hc => subst hc; simp_all [List.intercalate, List.intersperse]
      · cases ps <;> simp_all [List.intercalate, List.intersperse]

theorem not_mem_of_mem_pieces [DecidableEq α] {sep : α} {cs p : List α}
    (h : p ∈ pieces sep cs) : sep ∉ p := by
  induction cs generalizing p with
  | nil => simp_all [pieces]
  | cons c cs ih =>
    rw [pieces] at h
    split at h
    · rcases List.mem_cons.1 h with rfl | h
      · simp
      · exact ih h
    · next hc =>
      cases hp : pieces sep cs with
      | nil => exact absurd hp (pieces_ne_nil sep cs)
      | cons q qs =>
        simp only [hp, List.mem_cons] at h
        rcases h with rfl | h
        · have := ih (p := q) (by simp [hp])
          simp [this, Ne.symm hc]
        · exact ih (by simp [hp, h])

theorem cutAt_eq_some [DecidableEq α] {sep : α} {cs a b : List α} (h : cutAt sep cs = some (a, b)) :
    cs = a ++ sep :: b ∧ sep ∉ a := by
  induction cs generalizing a b with
  | nil => simp [cutAt] at h
  | cons c cs ih =>
    rw [cutAt] at h
    split at h
    · next hc => cases h; simp [hc]
    · next hc =>
      obtain ⟨⟨a', b'⟩, hp, he⟩ := Option.map_eq_some_iff.1 h
      cases he
      obtain ⟨rfl, hn⟩ := ih hp
      exact ⟨rfl, by simp [hn, Ne.symm hc]⟩

theorem cutAt_eq_none [DecidableEq α] {sep : α} {cs : List α} : cutAt sep cs = none ↔ sep ∉ cs := by
  induction cs with
  | nil => simp [cutAt]
  | cons c cs ih =>
    rw [cutAt]
    split
    · next hc => simp [hc]
    · next hc => simp [ih, Ne.symm hc]

end LineShell.Text
