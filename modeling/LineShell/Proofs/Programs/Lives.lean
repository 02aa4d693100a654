import LineShell.Proofs.Programs.Launches

/-!
# The lives of children

What is noted about a child from its fork to the end of the waiting, and what the table of processes
has of it then. Lives come one after the other: while one of them lasts, no other begins.
`Lives.accounted`: of the children that whole lives tell of, each is collected just once, unless it
could not be waited for.
-/

namespace LineShell

open LineShell.Action

-- ---------------------------------------------------------------------------
-- Events about children
-- ---------------------------------------------------------------------------

/-- The event is about a child that was made. -/
def Log.Event.ofChild : Log.Event → Bool
  | .spawned .. => true
  | event => event.ofWaiting

def Log.Event.spawn? : Log.Event → Option (Nat × String)
  | .spawned pid path => some (pid, path)
  | _ => none

/-- All that was noted about children, the oldest first. -/
def Session.childLog (s : Session) : List Log.Event := s.log.filter Log.Event.ofChild

theorem Session.childLog_log (s : Session) (events : List Log.Event) :
    Session.childLog { s with log := s.log ++ events } =
      s.childLog ++ events.filter Log.Event.ofChild := List.filter_append ..

namespace Programs

-- ---------------------------------------------------------------------------
-- Children by what has become of them
-- ---------------------------------------------------------------------------

/-- The children of a shell, by what waiting for them has come to. -/
structure Family where
  /-- Those that are still waited for. -/
  outstanding : List Nat := []
  /-- Those whose end was reported, each as often as it was. -/
  collected : List Nat := []
  /-- Those that could not be waited for. -/
  lost : List Nat := []
deriving DecidableEq

namespace Family

def after (f : Family) : Log.Event → Family
  | .spawned pid _ => { f with outstanding := pid :: f.outstanding }
  | .exited pid _ | .killed pid _ =>
    { f with outstanding := f.outstanding.erase pid, collected := pid :: f.collected }
  | .waitFailed pid _ => { f with outstanding := f.outstanding.erase pid, lost := pid :: f.lost }
  | _ => f

def afterAll (f : Family) (events : List Log.Event) : Family := events.foldl after f

def of (events : List Log.Event) : Family := afterAll {} events

theorem afterAll_append (f : Family) (events more : List Log.Event) :
    f.afterAll (events ++ more) = (f.afterAll events).afterAll more := List.foldl_append ..

theorem afterAll_changed (f : Family) {events : List Log.Event}
    (h : ∀ event ∈ events, ∃ pid word, event = .stateChanged pid word) : f.afterAll events = f := by
  induction events with
  | nil => rfl
  | cons event rest ih =>
    obtain ⟨⟨pid, word, rfl⟩, hrest⟩ := List.forall_mem_cons.mp h
    exact ih hrest

theorem after_closing (f : Family) (pid : Nat) (ending : Except Errno ChildResult) :
    f.after (closing pid ending) =
      { outstanding := f.outstanding.erase pid
        collected := if ending.isOk then pid :: f.collected else f.collected
        lost := if ending.isOk then f.lost else pid :: f.lost } := by
  cases ending with
  | error errno => rfl
  | ok result => cases result <;> rfl

end Family

-- ---------------------------------------------------------------------------
-- The life of a child
-- ---------------------------------------------------------------------------

theorem mem_changes {pid : Nat} {reports : List WaitResult} :
    ∀ event ∈ changes pid reports, ∃ pid word, event = .stateChanged pid word := by
  intro event h
  obtain ⟨report, -, hevent⟩ := List.mem_flatMap.mp h
  cases report with
  | failed errno => simp at hevent
  | status word => exact ⟨pid, word, List.mem_singleton.mp hevent⟩

theorem await_events (pid : Nat) (reports : List WaitResult) :
    ∃ before,
      (await pid reports).2 = changes pid before ++ [closing pid (await pid reports).1] := by
  rcases await_cases pid reports with ⟨-, hawait⟩ | ⟨before, _, _, _, -, -, -, hawait⟩
  · rw [hawait]
    exact ⟨reports, rfl⟩
  · rw [hawait]
    exact ⟨before, rfl⟩

/-- What is noted about the child of one command, if it has one, and what the table of processes
has of it in the end. -/
inductive Life (host : Host) : List Log.Event → List Child → Prop
  | childless : Life host [] []
  | child (pid : Nat) (image : Image) (w : World) (status : Nat) :
      Life host (.spawned pid image.path :: (await pid (host.reports w status)).2)
        [⟨pid, image, (await pid (host.reports w status)).1.isOk⟩]

inductive Lives (host : Host) : List Log.Event → List Child → Prop
  | nil : Lives host [] []
  | cons {life rest : List Log.Event} {born others : List Child} : Life host life born →
      Lives host rest others → Lives host (life ++ rest) (born ++ others)

/-- Waiting for a child failed, other than by being interrupted. -/
def WaitFails (host : Host) (pid : Nat) : Prop :=
  ∃ w status errno, errno ≠ .interrupted ∧
    waited pid (host.reports w status) = .error (.wait pid errno)

/-- Of every child the system reports the end, before it refuses to report more. -/
def Host.TellsEnds (host : Host) : Prop :=
  ∀ w status, ∃ before word after, host.reports w status = before ++ .status word :: after ∧
    (∀ other ∈ before, Undecided other) ∧ ¬ Undecided (.status word)

def pids (children : List Child) : List Nat := children.map (·.pid)

structure Accounted (host : Host) (noted : List Log.Event) (born : List Child) : Prop where
  spawned : noted.filterMap Log.Event.spawn? = born.map fun child => (child.pid, child.image.path)
  oneAtATime : ∀ seen, seen <+: noted → (Family.of seen).outstanding.length ≤ 1
  noneLeft : (Family.of noted).outstanding = []
  collected : (Family.of noted).collected.Perm (pids (born.filter (·.collected)))
  lost : (Family.of noted).lost.Perm (pids (born.filter (!·.collected)))
  waitFails : ∀ child ∈ born, child.collected = false → WaitFails host child.pid
  allCollected : host.TellsEnds → ∀ child ∈ born, child.collected

section
variable {host : Host} {life noted seen : List Log.Event} {born : List Child} {f : Family}

/-- A child is outstanding from its fork to the end of the waiting. -/
theorem afterAll_child (f : Family) (pid : Nat) (path : String) (reports : List WaitResult) :
    f.afterAll (.spawned pid path :: (await pid reports).2) =
      { f with
        collected := if (await pid reports).1.isOk then pid :: f.collected else f.collected
        lost := if (await pid reports).1.isOk then f.lost else pid :: f.lost } := by
  obtain ⟨before, hevents⟩ := await_events pid reports
  let born : Family := { f with outstanding := pid :: f.outstanding }
  calc f.afterAll (.spawned pid path :: (await pid reports).2)
      = (born.afterAll (changes pid before)).after (closing pid (await pid reports).1) := by
        rw [hevents]
        exact born.afterAll_append (changes pid before) [_]
    _ = born.after (closing pid (await pid reports).1) := by rw [born.afterAll_changed mem_changes]
    _ = _ := by rw [Family.after_closing, List.erase_cons_head]

theorem outstanding_child {pid : Nat} {path : String} {reports : List WaitResult}
    (hseen : seen <+: .spawned pid path :: (await pid reports).2) :
    (f.afterAll seen).outstanding = f.outstanding ∨
      (f.afterAll seen).outstanding = pid :: f.outstanding := by
  obtain ⟨before, hevents⟩ := await_events pid reports
  rw [hevents, ← List.cons_append, List.prefix_concat_iff, List.cons_append, ← hevents] at hseen
  rcases hseen with rfl | hseen
  · rw [afterAll_child]
    exact .inl rfl
  · rcases List.prefix_cons_iff.mp hseen with rfl | ⟨more, rfl, hmore⟩
    · exact .inl rfl
    · refine .inr ?_
      have hchanged := Family.afterAll_changed (f.after (.spawned pid path)) fun event hevent =>
        mem_changes event (hmore.subset hevent)
      exact congrArg Family.outstanding hchanged

theorem spawned_not_mem_await (pid : Nat) (path : String) (other : Nat)
    (reports : List WaitResult) : .spawned pid path ∉ (await other reports).2 := fun hmem =>
  absurd (ofWaiting_await other reports _ hmem) (by simp [Log.Event.ofWaiting])

theorem Life.spawned (h : Life host life born) :
    life.filterMap Log.Event.spawn? = born.map fun child => (child.pid, child.image.path) := by
  cases h with
  | childless => rfl
  | child pid image w status =>
    have hwaiting : (await pid (host.reports w status)).2.filterMap Log.Event.spawn? = [] := by
      rw [List.filterMap_eq_nil_iff]
      intro event hevent
      cases event with
      | spawned other path => exact absurd hevent (spawned_not_mem_await other path pid _)
      | _ => rfl
    simp [Log.Event.spawn?, hwaiting]

theorem Life.outstanding (h : Life host life born) (f : Family) :
    (f.afterAll life).outstanding = f.outstanding := by
  cases h with
  | childless => rfl
  | child pid image w status => rw [afterAll_child]

theorem Life.outstanding_le_one (h : Life host life born) (hf : f.outstanding = [])
    (hseen : seen <+: life) : (f.afterAll seen).outstanding.length ≤ 1 := by
  cases h with
  | childless =>
    obtain rfl := List.prefix_nil.mp hseen
    simp [Family.afterAll, hf]
  | child pid image w status =>
    rcases outstanding_child (f := f) hseen with h | h
    · simp [h, hf]
    · simp [h, hf]

theorem Life.collected (h : Life host life born) (f : Family) :
    (f.afterAll life).collected = pids (born.filter (·.collected)) ++ f.collected := by
  cases h with
  | childless => rfl
  | child pid image w status =>
    rw [afterAll_child]
    cases hok : (await pid (host.reports w status)).1.isOk <;> simp [pids]

theorem Life.lost (h : Life host life born) (f : Family) :
    (f.afterAll life).lost = pids (born.filter (!·.collected)) ++ f.lost := by
  cases h with
  | childless => rfl
  | child pid image w status =>
    rw [afterAll_child]
    cases hok : (await pid (host.reports w status)).1.isOk <;> simp [pids]

theorem Life.waitFails (h : Life host life born) :
    ∀ child ∈ born, child.collected = false → WaitFails host child.pid := by
  cases h with
  | childless => simp
  | child pid image w status =>
    intro child hchild hlost
    obtain rfl := List.mem_singleton.mp hchild
    rcases hawait : (await pid (host.reports w status)).1 with errno | result
    · refine ⟨w, status, errno, await_ne_interrupted hawait, ?_⟩
      rw [waited, hawait]
      rfl
    · simp only [hawait] at hlost
      cases hlost

-- ---------------------------------------------------------------------------
-- One life after the other
-- ---------------------------------------------------------------------------

theorem Lives.outstanding (h : Lives host noted born) (f : Family) :
    (f.afterAll noted).outstanding = f.outstanding := by
  induction h generalizing f with
  | nil => rfl
  | cons hlife _ ih => rw [Family.afterAll_append, ih, hlife.outstanding]

theorem Lives.outstanding_le_one (h : Lives host noted born) (hf : f.outstanding = [])
    (hseen : seen <+: noted) : (f.afterAll seen).outstanding.length ≤ 1 := by
  induction h generalizing f seen with
  | nil =>
    have hnone : Life host [] [] := .childless
    exact hnone.outstanding_le_one hf hseen
  | @cons life rest _ _ hlife _ ih =>
    rcases List.prefix_or_prefix_of_prefix hseen (List.prefix_append life rest) with
      hpart | ⟨more, rfl⟩
    · exact hlife.outstanding_le_one hf hpart
    · rw [Family.afterAll_append]
      exact ih ((hlife.outstanding f).trans hf) ((List.prefix_append_right_inj life).mp hseen)

theorem Lives.spawned (h : Lives host noted born) :
    noted.filterMap Log.Event.spawn? = born.map fun child => (child.pid, child.image.path) := by
  induction h with
  | nil => rfl
  | cons hlife _ ih => rw [List.filterMap_append, List.map_append, hlife.spawned, ih]

theorem pids_filter_append (p : Child → Bool) (children more : List Child) :
    pids ((children ++ more).filter p) = pids (children.filter p) ++ pids (more.filter p) := by
  simp [pids]

theorem Lives.collected (h : Lives host noted born) (f : Family) :
    (f.afterAll noted).collected.Perm (pids (born.filter (·.collected)) ++ f.collected) := by
  induction h generalizing f with
  | nil => exact .refl _
  | cons hlife _ ih =>
    rw [Family.afterAll_append, pids_filter_append]
    refine (ih _).trans ?_
    rw [hlife.collected, ← List.append_assoc]
    exact List.perm_append_comm.append_right _

theorem Lives.lost (h : Lives host noted born) (f : Family) :
    (f.afterAll noted).lost.Perm (pids (born.filter (!·.collected)) ++ f.lost) := by
  induction h generalizing f with
  | nil => exact .refl _
  | cons hlife _ ih =>
    rw [Family.afterAll_append, pids_filter_append]
    refine (ih _).trans ?_
    rw [hlife.lost, ← List.append_assoc]
    exact List.perm_append_comm.append_right _

theorem Lives.waitFails (h : Lives host noted born) :
    ∀ child ∈ born, child.collected = false → WaitFails host child.pid := by
  induction h with
  | nil => simp
  | cons hlife _ ih =>
    intro child hchild
    rcases List.mem_append.mp hchild with hchild | hchild
    · exact hlife.waitFails child hchild
    · exact ih child hchild

theorem not_waitFails (h : host.TellsEnds) (pid : Nat) : ¬ WaitFails host pid := by
  rintro ⟨w, status, errno, -, hfails⟩
  obtain ⟨before, word, after, hreports, hbefore, hword⟩ := h w status
  rcases undecided_or_decides pid (.status word) with hidle | ⟨result, hdecides⟩
  · exact hword hidle
  · rw [hreports, hdecides.waited hbefore] at hfails
    subst hfails
    cases hdecides

theorem Lives.accounted (h : Lives host noted born) : Accounted host noted born where
  spawned := h.spawned
  oneAtATime seen := h.outstanding_le_one rfl
  noneLeft := h.outstanding {}
  collected := (h.collected {}).trans (.of_eq (List.append_nil _))
  lost := (h.lost {}).trans (.of_eq (List.append_nil _))
  waitFails := h.waitFails
  allCollected htells child hchild := by
    cases hcollected : child.collected with
    | true => rfl
    | false => exact absurd (h.waitFails child hchild hcollected) (not_waitFails htells child.pid)

end

-- ---------------------------------------------------------------------------
-- Launches
-- ---------------------------------------------------------------------------

section
variable {host : Host} {path : String} {argv : List String} {s t : Session}

def Between (s t : Session) (noted : List Log.Event) (born : List Child) : Prop :=
  t.childLog = s.childLog ++ noted ∧ t.children = s.children ++ born

theorem between_none (hlog : t.childLog = s.childLog) (hchildren : t.children = s.children) :
    Between s t [] [] :=
  ⟨by rw [hlog, List.append_nil], by rw [hchildren, List.append_nil]⟩

theorem life_launch (host : Host) (path : String) (argv : List String) (s : Session) :
    ∃ life born, Life host life born ∧
      Between s ((launch host path argv).perform s).2 life born := by
  rcases request_cases s.world path argv with hx | ⟨argument, hx, hnul⟩ | hgranted
  · rw [launch, perform_launchWith_unfit _ hx]
    exact ⟨[], [], .childless, between_none rfl rfl⟩
  · rw [launch, perform_launchWith_nul _ hx hnul]
    exact ⟨[], [], .childless, between_none rfl rfl⟩
  · rcases hfork : host.fork s.forks s.world with errno | pid
    · rw [launch, hgranted.perform_launchWith, perform_spawn_unborn hfork]
      refine ⟨[], [], .childless, between_none ?_ rfl⟩
      exact (s.childLog_log [.forkFailed path errno]).trans (List.append_nil _)
    · rw [hgranted.perform_launch hfork]
      let image := imageFor path argv
      refine ⟨_, _, .child pid image (newborn s pid).1 (Programs.life host image s pid).status, ?_,
        rfl⟩
      refine (s.childLog_log _).trans (congrArg _ (List.filter_eq_self.mpr ?_))
      intro event hevent
      rcases List.mem_cons.mp hevent with rfl | hevent
      · rfl
      · have := ofWaiting_await pid _ event hevent
        cases event <;> simp_all [Log.Event.ofChild, Log.Event.ofWaiting]

theorem launch_ok {result : ChildResult}
    (h : ((launch host path argv).perform s).1 = .ok result) :
    ∃ pid before word after, host.fork s.forks s.world = .ok pid ∧
      reportsOn host (imageFor path argv) s pid = before ++ .status word :: after ∧
      (∀ other ∈ before, Undecided other) ∧ Decides pid (.status word) (.ok result) ∧
      ((launch host path argv).perform s).2.log =
        s.log ++ .spawned pid path :: (changes pid before ++ [endingEvent pid result]) ∧
      ((launch host path argv).perform s).2.children =
        s.children ++ [⟨pid, imageFor path argv, true⟩] := by
  rcases request_cases s.world path argv with hx | ⟨argument, hx, hnul⟩ | hgranted
  · simp [launch, perform_launchWith_unfit _ hx] at h
  · simp [launch, perform_launchWith_nul _ hx hnul] at h
  · rcases hfork : host.fork s.forks s.world with errno | pid
    · simp [launch, hgranted.perform_launchWith, perform_spawn_unborn hfork] at h
    · rw [hgranted.perform_launch hfork] at h ⊢
      have hok := World.mapError_eq_ok.mp h
      obtain ⟨before, word, after, hreports, hbefore, hdecides⟩ := decides_of_await_ok hok
      refine ⟨pid, before, word, after, rfl, hreports, hbefore, hdecides, ?_, by rw [hok]; rfl⟩
      obtain ⟨ending, hending, hawait⟩ := hdecides.await
      rw [World.mapError_eq_ok] at hending
      rw [hreports, await_undecided_append hbefore, hawait, hending]
      rfl

end

end Programs

end LineShell
