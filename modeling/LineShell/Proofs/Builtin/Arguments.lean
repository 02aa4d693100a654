import LineShell.Proofs.Builtin.Effects

/-!
# Checking the number of arguments

What is wrong with the number of arguments, if anything is, and the same check in 64-bit words,
where a count may not fit and an index may lie outside of the fields. `checks`: in words nothing
goes wrong for any fields and any expected number, and the check comes to the same.
-/

namespace LineShell.Builtin

-- ---------------------------------------------------------------------------
-- Complaints
-- ---------------------------------------------------------------------------

variable {fields : List String} {expected : Nat} {surplus : String}

theorem arityComplaint_unexpected (h : (fields.tail.drop expected).head? = some surplus) :
    arityComplaint fields expected =
      some ("Unexpected argument " ++ surplus ++ " for command " ++ fields.headD "") := by
  rw [List.head?_drop, List.getElem?_tail, List.getElem?_eq_some_iff] at h
  obtain ⟨hlt, rfl⟩ := h
  rw [arityComplaint, dif_pos hlt]
  rfl

theorem arityComplaint_missing (h : given fields < expected) :
    arityComplaint fields expected =
      some ("Missing argument for command " ++ fields.headD "") := by
  have hfew : ¬ expected + 1 < fields.length := by
    unfold given at h
    omega
  rw [arityComplaint, dif_neg hfew, if_pos h]

theorem exists_surplus_iff :
    (∃ surplus, (fields.tail.drop expected).head? = some surplus) ↔ expected < given fields := by
  rw [← Option.isSome_iff_exists, List.head?_drop, isSome_getElem?, List.length_tail, given]

theorem given_cases (fields : List String) (expected : Nat) :
    given fields < expected ∨ given fields = expected ∨
      ∃ surplus, (fields.tail.drop expected).head? = some surplus := by
  rw [exists_surplus_iff]
  exact Nat.lt_trichotomy _ _

/-- A line about the number of arguments. -/
def AboutArguments (line : String) : Prop :=
  ∃ rest, line = "Unexpected argument " ++ rest ∨ line = "Missing argument for command " ++ rest

theorem head?_append_of_some {a : String} {c : Char} (h : a.toList.head? = some c) (b : String) :
    (a ++ b).toList.head? = some c := by
  rw [String.toList_append, List.head?_append, h, Option.some_or]

theorem AboutArguments.head {line : String} (h : AboutArguments line) :
    line.toList.head? ∈ [some 'U', some 'M'] := by
  obtain ⟨rest, rfl | rfl⟩ := h
  · rw [head?_append_of_some rfl rest]
    decide
  · rw [head?_append_of_some rfl rest]
    decide

theorem not_about_append {a : String} (h : a.toList.head? ∉ [none, some 'U', some 'M'])
    (b : String) : ¬ AboutArguments (a ++ b) := by
  refine fun habout => h ?_
  have hhead := habout.head
  cases ha : a.toList.head? with
  | none => exact List.mem_cons_self
  | some c =>
    rw [head?_append_of_some ha b] at hhead
    exact List.mem_cons_of_mem _ hhead

theorem not_about_only {line : String} (h : line.toList.head? ∉ [some 'U', some 'M']) :
    ∀ other ∈ [line], ¬ AboutArguments other :=
  List.forall_mem_singleton.mpr (mt AboutArguments.head h)

theorem missing_ne_unexpected (name surplus : String) :
    "Missing argument for command " ++ name ≠
      "Unexpected argument " ++ surplus ++ " for command " ++ name := by
  intro h
  have hhead := head?_append_of_some (a := "Missing argument for command ") rfl name
  rw [h, String.append_assoc, String.append_assoc, head?_append_of_some rfl] at hhead
  cases hhead

theorem arityComplaint_unexpected_iff :
    arityComplaint fields expected =
        some ("Unexpected argument " ++ surplus ++ " for command " ++ fields.headD "") ↔
      (fields.tail.drop expected).head? = some surplus := by
  refine ⟨fun h => ?_, arityComplaint_unexpected⟩
  rcases given_cases fields expected with hfew | hfit | ⟨first, hfirst⟩
  · rw [arityComplaint_missing hfew] at h
    exact absurd (Option.some.inj h) (missing_ne_unexpected _ _)
  · rw [arityComplaint_eq_none.mpr hfit] at h
    cases h
  · rw [arityComplaint_unexpected hfirst] at h
    obtain rfl : first = surplus := by simpa using h
    exact hfirst

theorem arityComplaint_missing_iff :
    arityComplaint fields expected = some ("Missing argument for command " ++ fields.headD "") ↔
      given fields < expected := by
  refine ⟨fun h => ?_, arityComplaint_missing⟩
  rcases given_cases fields expected with hfew | hfit | ⟨first, hfirst⟩
  · exact hfew
  · rw [arityComplaint_eq_none.mpr hfit] at h
    cases h
  · rw [arityComplaint_unexpected hfirst] at h
    exact absurd (Option.some.inj h).symm (missing_ne_unexpected _ _)

-- ---------------------------------------------------------------------------
-- Words
-- ---------------------------------------------------------------------------

namespace Words

/-- What may go wrong where fields are counted and indexed in words. -/
inductive Fault
  | overflow
  | outOfBounds

def count (fields : List String) : UInt64 := .ofNat fields.length

def successor (n : UInt64) : Except Fault UInt64 :=
  if n.toNat + 1 < UInt64.size then .ok (n + 1) else .error .overflow

def predecessor (n : UInt64) : Except Fault UInt64 :=
  if n = 0 then .error .overflow else .ok (n - 1)

def saturatingPredecessor (n : UInt64) : UInt64 := if n = 0 then 0 else n - 1

def field (fields : List String) (i : UInt64) : Except Fault String :=
  (fields[i.toNat]?).elim (.error .outOfBounds) .ok

def fieldsFrom (fields : List String) (i : UInt64) : Except Fault (List String) :=
  if i.toNat ≤ fields.length then .ok (fields.drop i.toNat) else .error .outOfBounds

def checkArguments (fields : List String) (expected : UInt64) :
    Except Fault (Bool × List String) := do
  let name := fields.headD ""
  let given := saturatingPredecessor (count fields)
  if given = expected then return (true, [])
  if given > expected then
    let surplus ← field fields (← successor expected)
    return (false, ["Unexpected argument " ++ surplus ++ " for command " ++ name])
  return (false, ["Missing argument for command " ++ name])

variable {fields : List String} {expected n : UInt64}

theorem toNat_count (h : fields.length < UInt64.size) : (count fields).toNat = fields.length :=
  UInt64.toNat_ofNat_of_lt h

theorem toNat_pred (h : n ≠ 0) : (n - 1).toNat = n.toNat - 1 := by
  have hpos : n.toNat ≠ 0 := fun hzero => h (UInt64.toNat_inj.mp hzero)
  refine UInt64.toNat_sub_of_le n 1 (UInt64.le_iff_toNat_le.mpr ?_)
  exact Nat.pos_of_ne_zero hpos

theorem toNat_given (h : fields.length < UInt64.size) :
    (saturatingPredecessor (count fields)).toNat = given fields := by
  rw [given, ← toNat_count h, saturatingPredecessor]
  split
  · next hzero =>
    rw [hzero]
    rfl
  · next hne => exact toNat_pred hne

theorem successor_ok (h : n.toNat + 1 < UInt64.size) :
    ∃ next, successor n = .ok next ∧ next.toNat = n.toNat + 1 := by
  refine ⟨n + 1, if_pos h, ?_⟩
  rw [UInt64.toNat_add]
  exact Nat.mod_eq_of_lt h

/-- Counting to one less than the fields and indexing them goes wrong for no expected number. -/
theorem checkArguments_eq (h : fields.length < UInt64.size) :
    checkArguments fields expected =
      .ok ((arityComplaint fields expected.toNat).isNone,
        (arityComplaint fields expected.toNat).toList) := by
  have hgiven := toNat_given h
  unfold checkArguments
  dsimp only
  split
  · next heq =>
    rw [arityComplaint_eq_none.mpr (hgiven.symm.trans (congrArg UInt64.toNat heq))]
    rfl
  next hne =>
  split
  · next hgt =>
    have hmany : expected.toNat < given fields := hgiven ▸ UInt64.lt_iff_toNat_lt.mp hgt
    -- There is a field with the next index, so the index is a word.
    have hfits : expected.toNat + 1 < UInt64.size := by
      unfold given at hmany
      omega
    obtain ⟨next, hnext, htoNat⟩ := successor_ok hfits
    obtain ⟨surplus, hsurplus⟩ := exists_surplus_iff.mpr hmany
    have hfield : field fields next = .ok surplus := by
      rw [List.head?_drop, List.getElem?_tail, ← htoNat] at hsurplus
      rw [field, hsurplus]
      rfl
    rw [arityComplaint_unexpected hsurplus, hnext]
    simp only [bind, Except.bind, hfield]
    rfl
  · next hle =>
    have hfew : given fields < expected.toNat := by
      rw [← hgiven]
      refine Nat.lt_of_le_of_ne (Nat.not_lt.mp (mt UInt64.lt_iff_toNat_lt.mpr hle)) ?_
      exact fun heq => hne (UInt64.toNat_inj.mp heq)
    rw [arityComplaint_missing hfew]
    rfl

theorem predecessor_count {name : String} {args : List String}
    (h : (name :: args).length < UInt64.size) :
    predecessor (count (name :: args)) = .ok (count args) := by
  have hlength := toNat_count h
  have hne : count (name :: args) ≠ 0 := by
    intro hzero
    rw [hzero] at hlength
    cases hlength
  rw [predecessor, if_neg hne]
  refine congrArg Except.ok (UInt64.toNat_inj.mp ?_)
  rw [toNat_pred hne, hlength, toNat_count (Nat.lt_of_succ_lt h)]
  rfl

end Words

/-- What the check of some fields comes to. -/
structure Checks (fields : List String) (expected : Nat) : Prop where
  inWords : ∀ word : UInt64, word.toNat = expected → fields.length < UInt64.size →
    Words.checkArguments fields word =
      .ok ((arityComplaint fields expected).isNone, (arityComplaint fields expected).toList)
  silent_iff : arityComplaint fields expected = none ↔ given fields = expected
  unexpected_iff : (∃ surplus, arityComplaint fields expected =
    some ("Unexpected argument " ++ surplus ++ " for command " ++ fields.headD "")) ↔
      expected < given fields
  /-- The first argument that is left over is named. -/
  named_iff : ∀ surplus, arityComplaint fields expected =
    some ("Unexpected argument " ++ surplus ++ " for command " ++ fields.headD "") ↔
      (fields.tail.drop expected).head? = some surplus
  missing_iff : arityComplaint fields expected =
    some ("Missing argument for command " ++ fields.headD "") ↔ given fields < expected

theorem checks (fields : List String) (expected : Nat) : Checks fields expected where
  inWords _ hword h := hword ▸ Words.checkArguments_eq h
  silent_iff := arityComplaint_eq_none
  unexpected_iff := (exists_congr fun _ => arityComplaint_unexpected_iff).trans exists_surplus_iff
  named_iff _ := arityComplaint_unexpected_iff
  missing_iff := arityComplaint_missing_iff

/-- One more than the greatest word is never asked for. -/
example : Words.successor 0xFFFFFFFFFFFFFFFF = .error .overflow ∧
    Words.checkArguments ["where", "now"] 0xFFFFFFFFFFFFFFFF =
      .ok (false, ["Missing argument for command where"]) :=
  ⟨rfl, rfl⟩

end LineShell.Builtin
