import LineShell.Programs.Wait

/-!
# Reports that decide

Waiting passes over the reports that do not decide how a child ended, so its result is that of the
first one that does: `await_tells`. It takes the reports up to that one and no more: `suffice_iff`.
What is noted on the way is about the waiting alone.
-/

namespace LineShell

namespace Programs

/-- An interruption, or a change of state that is no end. -/
inductive Undecided : WaitResult → Prop
  | interrupted : Undecided (.failed .interrupted)
  | changed {word : Nat} : word % 128 = 127 → Undecided (.status word)

theorem ending?_eq_none {pid word : Nat} : ending? pid word = none ↔ word % 128 = 127 := by
  have hlow : word % 128 < 128 := Nat.mod_lt _ (by decide)
  simp only [ending?]
  split
  · simp
    omega
  · split
    · simp
      omega
    · simp
      omega

/-- What there is to note about reports that decide nothing. -/
def changes (pid : Nat) (reports : List WaitResult) : List Log.Event :=
  reports.flatMap fun
    | .status word => [.stateChanged pid word]
    | .failed _ => []

theorem await_undecided {report : WaitResult} (h : Undecided report) (pid : Nat)
    (rest : List WaitResult) :
    await pid (report :: rest) =
      ((await pid rest).1, changes pid [report] ++ (await pid rest).2) := by
  cases h with
  | interrupted => simp [await, changes]
  | changed hword => simp [await, ending?_eq_none.mpr hword, changes]

theorem await_undecided_append {before : List WaitResult}
    (h : ∀ report ∈ before, Undecided report) (pid : Nat) (rest : List WaitResult) :
    await pid (before ++ rest) =
      ((await pid rest).1, changes pid before ++ (await pid rest).2) := by
  induction before with
  | nil => rfl
  | cons report before ih =>
    have hmore := ih fun other ho => h other (List.mem_cons_of_mem report ho)
    rw [List.cons_append, await_undecided (h report List.mem_cons_self), hmore]
    simp [changes]

theorem await_append {before : List WaitResult} (h : ∀ report ∈ before, Undecided report)
    (pid : Nat) (rest : List WaitResult) : (await pid (before ++ rest)).1 = (await pid rest).1 := by
  rw [await_undecided_append h]

/-- The first report that decides something is this status word. -/
def Tells (reports : List WaitResult) (word : Nat) : Prop :=
  ∃ before after, reports = before ++ .status word :: after ∧ ∀ report ∈ before, Undecided report

theorem await_tells {reports : List WaitResult} {pid word : Nat} {result : ChildResult}
    (h : Tells reports word) (hending : ending? pid word = some result) :
    (await pid reports).1 = .ok result := by
  obtain ⟨before, after, rfl, hbefore⟩ := h
  rw [await_append hbefore, await, hending]

-- ---------------------------------------------------------------------------
-- How a report decides
-- ---------------------------------------------------------------------------

/-- What waiting for a child comes to. -/
def waited (pid : Nat) (reports : List WaitResult) : Except LaunchError ChildResult :=
  (await pid reports).1.mapError (.wait (pid : Int))

/-- The report ends the waiting, with a result that is read off its bits. -/
inductive Decides (pid : Nat) : WaitResult → Except LaunchError ChildResult → Prop
  | exited {word : Nat} : word &&& 127 = 0 →
      Decides pid (.status word) (.ok (.exited ((word >>> 8) &&& 255)))
  | killed {word : Nat} : 1 ≤ word &&& 127 → word &&& 127 ≤ 126 →
      Decides pid (.status word) (.ok (.killed pid (word &&& 127)))
  | failed {errno : Errno} : errno ≠ .interrupted →
      Decides pid (.failed errno) (.error (.wait pid errno))

theorem low_bits (word : Nat) : word &&& 127 = word % 128 := Nat.and_two_pow_sub_one_eq_mod word 7

theorem exit_bits (word : Nat) : (word >>> 8) &&& 255 = word / 256 % 256 := by
  rw [Nat.shiftRight_eq_div_pow]
  exact Nat.and_two_pow_sub_one_eq_mod _ 8

theorem undecided_iff {report : WaitResult} : Undecided report ↔
    report = .failed .interrupted ∨ ∃ word, report = .status word ∧ word &&& 127 = 127 := by
  constructor
  · rintro (_ | hword)
    · exact .inl rfl
    · exact .inr ⟨_, rfl, (low_bits _).trans hword⟩
  · rintro (rfl | ⟨word, rfl, hword⟩)
    · exact .interrupted
    · exact .changed ((low_bits _).symm.trans hword)

theorem undecided_or_decides (pid : Nat) (report : WaitResult) :
    Undecided report ∨ ∃ result, Decides pid report result := by
  cases report with
  | failed errno =>
    by_cases h : errno = .interrupted
    · exact .inl (undecided_iff.mpr (.inl (congrArg _ h)))
    · exact .inr ⟨_, .failed h⟩
  | status word =>
    have hlow : word &&& 127 < 128 := Nat.and_lt_two_pow word (by decide : 127 < 2 ^ 7)
    by_cases hzero : word &&& 127 = 0
    · exact .inr ⟨_, .exited hzero⟩
    · by_cases hstopped : word &&& 127 = 127
      · exact .inl (undecided_iff.mpr (.inr ⟨word, rfl, hstopped⟩))
      · exact .inr ⟨_, .killed (by omega) (by omega)⟩

def closing (pid : Nat) : Except Errno ChildResult → Log.Event
  | .ok result => endingEvent pid result
  | .error errno => .waitFailed pid errno

variable {pid : Nat} {report : WaitResult} {result : Except LaunchError ChildResult}

theorem Decides.await (h : Decides pid report result) : ∃ ending,
    ending.mapError (.wait (pid : Int)) = result ∧
      ∀ after, Programs.await pid (report :: after) = (ending, [closing pid ending]) := by
  cases h with
  | @exited word hlow =>
    have hending : ending? pid word = some (.exited ((word >>> 8) &&& 255)) := by
      rw [exit_bits, ending?, if_pos ((low_bits word).symm.trans hlow)]
    exact ⟨.ok _, rfl, fun after => by simp only [Programs.await, hending, closing]⟩
  | @killed word hpos hle =>
    have hending : ending? pid word = some (.killed pid (word &&& 127)) := by
      rw [low_bits] at hpos hle
      rw [low_bits, ending?, if_neg (by omega), if_pos (by omega)]
    exact ⟨.ok _, rfl, fun after => by simp only [Programs.await, hending, closing]⟩
  | failed hne =>
    exact ⟨.error _, rfl, fun after => by simp only [Programs.await, if_neg hne, closing]⟩

theorem Decides.waited {before : List WaitResult} (h : Decides pid report result)
    (hbefore : ∀ other ∈ before, Undecided other) (after : List WaitResult) :
    waited pid (before ++ report :: after) = result := by
  obtain ⟨ending, hending, hawait⟩ := h.await
  rw [Programs.waited, await_append hbefore, hawait, hending]

theorem exists_decides (pid : Nat) {reports : List WaitResult}
    (h : ∃ report ∈ reports, ¬ Undecided report) :
    ∃ before report after result, reports = before ++ report :: after ∧
      (∀ other ∈ before, Undecided other) ∧ Decides pid report result := by
  induction reports with
  | nil => simp at h
  | cons report rest ih =>
    rcases undecided_or_decides pid report with hreport | ⟨result, hreport⟩
    · have hrest : ∃ other ∈ rest, ¬ Undecided other := by
        obtain ⟨other, hmem, hother⟩ := h
        rcases List.mem_cons.mp hmem with rfl | hmem
        · exact absurd hreport hother
        · exact ⟨other, hmem, hother⟩
      obtain ⟨before, decisive, after, result, rfl, hbefore, hdecides⟩ := ih hrest
      exact ⟨report :: before, decisive, after, result, rfl,
        List.forall_mem_cons.mpr ⟨hreport, hbefore⟩, hdecides⟩
    · exact ⟨[], report, rest, result, rfl, by simp, hreport⟩

/-- What waiting comes to was decided by a report, unless the reports ran out. -/
theorem await_cases (pid : Nat) (reports : List WaitResult) :
    ((∀ other ∈ reports, Undecided other) ∧
      await pid reports = (.error .noChild, changes pid reports ++ [.waitFailed pid .noChild])) ∨
    ∃ before report after ending, reports = before ++ report :: after ∧
      (∀ other ∈ before, Undecided other) ∧
      Decides pid report (ending.mapError (.wait (pid : Int))) ∧
      await pid reports = (ending, changes pid before ++ [closing pid ending]) := by
  by_cases h : ∀ other ∈ reports, Undecided other
  · have hawait := await_undecided_append h pid []
    rw [List.append_nil] at hawait
    exact .inl ⟨h, hawait⟩
  · have hdecisive : ∃ report ∈ reports, ¬ Undecided report := by simpa using h
    obtain ⟨before, report, after, result, rfl, hbefore, hdecides⟩ := exists_decides pid hdecisive
    obtain ⟨ending, rfl, hawait⟩ := hdecides.await
    refine .inr ⟨before, report, after, ending, rfl, hbefore, hdecides, ?_⟩
    rw [await_undecided_append hbefore, hawait]

/-- What the first report that decides says, or that there is no child any more. -/
inductive Awaits (pid : Nat) (reports : List WaitResult) :
    Except LaunchError ChildResult → Prop
  | decided {before after : List WaitResult} {report : WaitResult}
      {result : Except LaunchError ChildResult} :
      reports = before ++ report :: after → (∀ other ∈ before, Undecided other) →
      Decides pid report result → Awaits pid reports result
  | lost : (∀ report ∈ reports, Undecided report) →
      Awaits pid reports (.error (.wait pid .noChild))

theorem awaits_iff {reports : List WaitResult} :
    Awaits pid reports result ↔ waited pid reports = result := by
  constructor
  · rintro (⟨rfl, hbefore, hdecides⟩ | hundecided)
    · exact hdecides.waited hbefore _
    · rw [waited, ← List.append_nil reports, await_append hundecided]
      rfl
  · rintro rfl
    rcases await_cases pid reports with
      ⟨hundecided, hawait⟩ | ⟨before, report, after, ending, hreports, hbefore, hdecides, hawait⟩
    · rw [waited, hawait]
      exact .lost hundecided
    · rw [waited, hawait]
      exact .decided hreports hbefore hdecides

theorem await_ne_interrupted {reports : List WaitResult} {errno : Errno}
    (h : (await pid reports).1 = .error errno) : errno ≠ .interrupted := by
  rcases await_cases pid reports with ⟨-, hawait⟩ | ⟨_, _, _, ending, -, -, hdecides, hawait⟩
  · rw [hawait] at h
    obtain rfl := Except.error.inj h
    decide
  · rw [hawait] at h
    obtain rfl : ending = .error errno := h
    cases hdecides
    assumption

theorem decides_of_await_ok {reports : List WaitResult} {child : ChildResult}
    (h : (await pid reports).1 = .ok child) :
    ∃ before word after, reports = before ++ .status word :: after ∧
      (∀ other ∈ before, Undecided other) ∧ Decides pid (.status word) (.ok child) := by
  rcases await_cases pid reports with
    ⟨-, hawait⟩ | ⟨before, report, after, ending, hreports, hbefore, hdecides, hawait⟩
  · simp [hawait] at h
  · rw [hawait] at h
    obtain rfl : ending = .ok child := h
    obtain ⟨word, rfl⟩ : ∃ word, report = .status word := by
      cases hdecides <;> exact ⟨_, rfl⟩
    exact ⟨before, word, after, hreports, hbefore, hdecides⟩

-- ---------------------------------------------------------------------------
-- How many reports are taken
-- ---------------------------------------------------------------------------

/-- After these reports the waiting is over, whatever would be reported next. -/
def Suffice (pid : Nat) (reports : List WaitResult) : Prop :=
  ∀ after after', await pid (reports ++ after) = await pid (reports ++ after')

theorem not_suffice_undecided {before : List WaitResult} (h : ∀ other ∈ before, Undecided other) :
    ¬ Suffice pid before := by
  intro hsuffice
  have hsame := hsuffice [.status 0] [.status 1]
  rw [await_undecided_append h, await_undecided_append h] at hsame
  simp [await, ending?] at hsame

theorem suffice_iff {before first after : List WaitResult} (h : Decides pid report result)
    (hbefore : ∀ other ∈ before, Undecided other) (hfirst : first <+: before ++ report :: after) :
    Suffice pid first ↔ before ++ [report] <+: first := by
  constructor
  · intro hsuffice
    have hwhole : before ++ [report] <+: before ++ report :: after :=
      ⟨after, by rw [List.append_assoc, List.singleton_append]⟩
    rcases Nat.lt_or_ge first.length (before ++ [report]).length with hshort | hlong
    · -- Less than that is undecided throughout, so what is reported next still matters.
      have hpart : first <+: before := by
        refine List.prefix_of_prefix_length_le hfirst (List.prefix_append _ _) ?_
        simpa [Nat.lt_succ_iff] using hshort
      exact absurd hsuffice (not_suffice_undecided fun other ho => hbefore other (hpart.subset ho))
    · exact List.prefix_of_prefix_length_le hwhole hfirst hlong
  · rintro ⟨rest, rfl⟩ after after'
    obtain ⟨ending, -, hawait⟩ := h.await
    simp only [List.append_assoc, List.cons_append]
    rw [await_undecided_append hbefore, await_undecided_append hbefore, hawait, hawait]

/-- Wherever they are reported, interruptions and changes that are no end make no difference. -/
theorem await_inserted {idle : List WaitResult} (h : ∀ other ∈ idle, Undecided other)
    (pid : Nat) (front rest : List WaitResult) :
    (await pid (front ++ idle ++ rest)).1 = (await pid (front ++ rest)).1 := by
  by_cases hfront : ∀ other ∈ front, Undecided other
  · rw [List.append_assoc, await_append hfront, await_append hfront, await_append h]
  · have hdecisive : ∃ report ∈ front, ¬ Undecided report := by simpa using hfront
    obtain ⟨before, report, after, result, rfl, hbefore, hdecides⟩ := exists_decides pid hdecisive
    obtain ⟨ending, -, hawait⟩ := hdecides.await
    simp only [List.append_assoc, List.cons_append]
    rw [await_append hbefore, await_append hbefore, hawait, hawait]

end Programs

def Log.Event.ofWaiting : Log.Event → Bool
  | .exited .. | .killed .. | .stateChanged .. | .waitFailed .. => true
  | _ => false

theorem Programs.ofWaiting_await (pid : Nat) (reports : List WaitResult) :
    ∀ event ∈ (await pid reports).2, event.ofWaiting = true := by
  fun_induction await pid reports with
  | case1 => simp [Log.Event.ofWaiting]
  | case2 _ ih => exact ih
  | case3 => simp [Log.Event.ofWaiting]
  | case4 word rest result _ => cases result <;> simp [endingEvent, Log.Event.ofWaiting]
  | case5 word rest _ result events heq ih =>
    rw [heq] at ih
    exact List.forall_mem_cons.mpr ⟨rfl, ih⟩

end LineShell
