import LineShell.Proofs.Dispatch.Reaping
import LineShell.Proofs.Log.Lines

/-!
# Forks and ends in a log

In a log of everything the line about a fork is followed by one line about the end of that child,
or about the failure to wait for it, before there is a line about another fork. `bracketed_line`:
that holds wherever the events about children are whole lives, whatever stands between them.
-/

namespace LineShell.Log

open Programs (Child Host Life Lives await_events changes closing mem_changes spawned_not_mem_await)

/-- The line tells that a child was made. -/
def IsFork (pid : Nat) (line : String) : Prop := IsAbout "spawned child" pid line

/-- The line tells that a child is not waited for any more. -/
def IsEnd (pid : Nat) (line : String) : Prop :=
  IsAbout "child exited" pid line ∨ IsAbout "child killed" pid line ∨
    IsAbout "waitpid failed" pid line

def Forkless (lines : List String) : Prop := ∀ line ∈ lines, ∀ pid, ¬ IsFork pid line

def Endless (lines : List String) : Prop := ∀ line ∈ lines, ∀ pid, ¬ IsEnd pid line

/-- A line about a fork is followed by one about the end of the same child, and by no other about
any end before the next fork. -/
def Bracketed (lines : List String) : Prop :=
  ∀ before fork after pid, lines = before ++ fork :: after → IsFork pid fork →
    ∃ between last more, after = between ++ last :: more ∧ IsEnd pid last ∧
      Forkless between ∧ Endless between ∧
      ∀ seen, seen <+: more → Forkless seen → Endless seen

-- ---------------------------------------------------------------------------
-- Events of the lines
-- ---------------------------------------------------------------------------

section
variable {e : Event} {pid : Nat}

theorem isFork_line_iff : IsFork pid e.line ↔ ∃ path, e = .spawned pid path := by
  rw [IsFork, isAbout_line_iff (by decide)]
  constructor
  · rintro ⟨hmessage, hpid⟩
    cases e with
    | spawned other path =>
      obtain rfl : other = pid := by simpa [Event.pid?] using hpid
      exact ⟨path, rfl⟩
    | _ => simp [Event.message] at hmessage
  · rintro ⟨path, rfl⟩
    exact ⟨rfl, rfl⟩

theorem isEnd_line_iff : IsEnd pid e.line ↔ ∃ ending, e = closing pid ending := by
  rw [IsEnd, isAbout_line_iff (by decide), isAbout_line_iff (by decide),
    isAbout_line_iff (by decide)]
  constructor
  · rintro (⟨hmessage, hpid⟩ | ⟨hmessage, hpid⟩ | ⟨hmessage, hpid⟩)
    all_goals
      cases e <;> simp only [Event.message, String.reduceEq] at hmessage
      obtain rfl := Option.some.inj hpid
    · next other code => exact ⟨.ok (.exited code), rfl⟩
    · next other signal => exact ⟨.ok (.killed other signal), rfl⟩
    · next other errno => exact ⟨.error errno, rfl⟩
  · rintro ⟨errno | ⟨code⟩ | ⟨other, signal⟩, rfl⟩
    · exact .inr (.inr ⟨rfl, rfl⟩)
    · exact .inl ⟨rfl, rfl⟩
    · exact .inr (.inl ⟨rfl, rfl⟩)

theorem ofChild_closing (pid : Nat) (ending : Except Errno ChildResult) :
    (closing pid ending).ofChild = true := by
  rcases ending with errno | code | ⟨other, signal⟩
  · rfl
  · rfl
  · rfl

theorem not_mem_changes {other : Nat} {reports : List Programs.WaitResult}
    (h : IsFork pid e.line ∨ IsEnd pid e.line) : e ∉ changes other reports := by
  intro hmem
  obtain ⟨_, word, rfl⟩ := mem_changes e hmem
  rcases h with h | h
  · obtain ⟨path, hpath⟩ := isFork_line_iff.mp h
    cases hpath
  · obtain ⟨errno | ⟨code⟩ | ⟨other, signal⟩, hending⟩ := isEnd_line_iff.mp h
    · cases hending
    · cases hending
    · cases hending

end

-- ---------------------------------------------------------------------------
-- Lives
-- ---------------------------------------------------------------------------

section
variable {host : Host} {noted before after more : List Event} {born : List Child} {pid : Nat}
  {path : String}

theorem lives_cases (h : Lives host noted born) :
    noted = [] ∨ ∃ pid path reports ending more others,
      noted = .spawned pid path :: (changes pid reports ++ closing pid ending :: more) ∧
        Lives host more others := by
  induction h with
  | nil => exact .inl rfl
  | @cons life rest _ others hlife hrest ih =>
    cases hlife with
    | childless => exact ih
    | child pid image w status =>
      obtain ⟨reports, hevents⟩ := await_events pid (host.reports w status)
      rw [hevents, List.cons_append, List.append_assoc]
      exact .inr ⟨pid, image.path, reports, _, rest, others, rfl, hrest⟩

theorem lives_after_fork (h : Lives host (before ++ .spawned pid path :: after) born) :
    ∃ reports ending more others, after = changes pid reports ++ closing pid ending :: more ∧
      Lives host more others := by
  generalize hnoted : before ++ .spawned pid path :: after = noted at h
  induction h generalizing before with
  | nil => simp at hnoted
  | @cons life rest _ others hlife hrest ih =>
    cases hlife with
    | childless => exact ih hnoted
    | child other image w status =>
      cases before with
      | nil =>
        obtain ⟨reports, hevents⟩ := await_events other (host.reports w status)
        rw [hevents] at hnoted
        simp only [List.nil_append, List.cons_append, List.append_assoc, List.cons.injEq,
          Event.spawned.injEq] at hnoted
        obtain ⟨⟨rfl, rfl⟩, rfl⟩ := hnoted
        exact ⟨reports, _, rest, others, rfl, hrest⟩
      | cons first before =>
        obtain ⟨-, hnoted⟩ := List.cons.inj hnoted
        rcases List.append_eq_append_iff.mp hnoted with ⟨more, hwaiting, hmore⟩ | ⟨more, -, hmore⟩
        · cases more with
          | nil =>
            have hnext : [] ++ .spawned pid path :: after = rest := hmore
            exact ih hnext
          | cons event more =>
            -- the fork would be noted while another child is waited for
            obtain rfl := (List.cons.inj hmore).1
            exact absurd (by simp [hwaiting])
              (spawned_not_mem_await pid path other (host.reports w status))
        · exact ih hmore.symm

-- ---------------------------------------------------------------------------
-- Lines
-- ---------------------------------------------------------------------------

theorem between_quiet {between : List Event} {reports : List Programs.WaitResult}
    (h : between.filter Event.ofChild = changes pid reports) :
    Forkless (between.map Event.line) ∧ Endless (between.map Event.line) := by
  have hquiet (e : Event) (hmem : e ∈ between) (other : Nat) (hchild : e.ofChild = true) :
      ¬ (IsFork other e.line ∨ IsEnd other e.line) := fun hline =>
    not_mem_changes hline (h ▸ List.mem_filter.mpr ⟨hmem, hchild⟩)
  constructor
  · intro line hline other hfork
    obtain ⟨e, hmem, rfl⟩ := List.mem_map.mp hline
    obtain ⟨path, rfl⟩ := isFork_line_iff.mp hfork
    exact hquiet _ hmem other rfl (.inl hfork)
  · intro line hline other hend
    obtain ⟨e, hmem, rfl⟩ := List.mem_map.mp hline
    obtain ⟨ending, rfl⟩ := isEnd_line_iff.mp hend
    exact hquiet _ hmem other (ofChild_closing other ending) (.inr hend)

/-- There is no end before the first fork. -/
theorem endless_of_forkless {log : List Event} (h : Lives host (log.filter Event.ofChild) born)
    {seen : List Event} (hseen : seen <+: log) (hforkless : Forkless (seen.map Event.line)) :
    Endless (seen.map Event.line) := by
  intro line hline pid hend
  obtain ⟨e, hmem, rfl⟩ := List.mem_map.mp hline
  obtain ⟨ending, rfl⟩ := isEnd_line_iff.mp hend
  have hclosing : closing pid ending ∈ seen.filter Event.ofChild :=
    List.mem_filter.mpr ⟨hmem, ofChild_closing pid ending⟩
  obtain ⟨rest, hrest⟩ := hseen.filter Event.ofChild
  obtain ⟨first, more, hfirst⟩ := List.exists_cons_of_ne_nil (List.ne_nil_of_mem hclosing)
  rcases lives_cases h with hnone | ⟨other, path, reports, _, _, _, hlog, -⟩
  · rw [hnone, hfirst] at hrest
    cases hrest
  · rw [hlog, hfirst] at hrest
    obtain rfl := (List.cons.inj hrest).1
    have hfork : .spawned other path ∈ seen :=
      (List.mem_filter.mp (hfirst ▸ List.mem_cons_self)).1
    exact hforkless _ (List.mem_map_of_mem hfork) other (isFork_line_iff.mpr ⟨path, rfl⟩)

theorem bracketed_line {log : List Event} (h : Lives host (log.filter Event.ofChild) born) :
    Bracketed (log.map Event.line) := by
  intro before fork after pid hlines hfork
  obtain ⟨seen, rest, rfl, rfl, hrest⟩ := List.map_eq_append_iff.mp hlines
  obtain ⟨e, later, rfl, rfl, rfl⟩ := List.map_eq_cons_iff.mp hrest
  obtain ⟨path, rfl⟩ := isFork_line_iff.mp hfork
  rw [List.filter_append, List.filter_cons_of_pos rfl] at h
  obtain ⟨reports, ending, more, _, hlater, hmore⟩ := lives_after_fork h
  obtain ⟨changed, onwards, rfl, hchanged, honwards⟩ := List.filter_eq_append_iff.mp hlater
  obtain ⟨idle, left, rfl, hidle, -, rfl⟩ := List.filter_eq_cons_iff.mp honwards
  have hbetween : (changed ++ idle).filter Event.ofChild = changes pid reports := by
    rw [List.filter_append, hchanged, List.filter_eq_nil_iff.mpr hidle, List.append_nil]
  obtain ⟨hforkless, hendless⟩ := between_quiet hbetween
  refine ⟨(changed ++ idle).map Event.line, (closing pid ending).line, left.map Event.line, by simp,
    isEnd_line_iff.mpr ⟨ending, rfl⟩, hforkless, hendless, ?_⟩
  intro lines hprefix hquiet
  obtain ⟨first, hfirst, rfl⟩ := List.prefix_map_iff.mp hprefix
  exact endless_of_forkless hmore hfirst hquiet

end

end LineShell.Log
