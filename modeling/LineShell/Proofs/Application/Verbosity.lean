import LineShell.Proofs.Application.ExitCode
import LineShell.Proofs.Log.Bracketed
import LineShell.Proofs.Loop.Record
import LineShell.Proofs.Loop.Unheeded

/-!
# Diagnostics on the side

How much a run tells about itself changes nothing else about the run. `run_onlyTells`: with more
verbosity flags a shell leaves the same session and the same exit code, and its log is longer by
lines of the finer levels only. The log of everything tells of each child from its fork to its end.
-/

namespace LineShell.Application

open Log (Bracketed Event Filter Level lineLevel? lineLevel?_line)
open Log (levelFor)
open Options (Accepts)
open Programs (Host Lives)

-- ---------------------------------------------------------------------------
-- Levels and lines
-- ---------------------------------------------------------------------------

theorem rank_levelFor (verbosity : Nat) : (levelFor verbosity).rank = min (verbosity + 2) 5 := by
  rcases verbosity with _ | _ | _ | more
  · rfl
  · rfl
  · rfl
  · change 5 = _
    omega

theorem admits_levelFor_mono {verbosity verbosity' : Nat} (h : verbosity ≤ verbosity')
    {level : Level} (hadmits : (levelFor verbosity).admits level) :
    (levelFor verbosity').admits level := by
  simp only [Level.admits, rank_levelFor, decide_eq_true_eq] at *
  omega

theorem admits_levelFor_trace {verbosity : Nat} (h : 3 ≤ verbosity) (level : Level) :
    (levelFor verbosity).admits level := by
  have hrank : level.rank ≤ 5 := by cases level <;> decide
  simp only [Level.admits, rank_levelFor, decide_eq_true_eq]
  omega

/-- The line is about something that so many verbosity flags show. -/
def passes (verbosity : Nat) (line : String) : Bool :=
  (lineLevel? line).any (levelFor verbosity).admits

theorem passes_line (verbosity : Nat) (e : Event) :
    passes verbosity e.line = (levelFor verbosity).admits e.level := by
  rw [passes, lineLevel?_line]
  rfl

def linesFor (verbosity : Nat) (events : List Event) : List String :=
  (events.filter fun e => (levelFor verbosity).admits e.level).map Event.line

theorem linesFor_filter {verbosity verbosity' : Nat} (h : verbosity ≤ verbosity')
    (events : List Event) :
    linesFor verbosity events = (linesFor verbosity' events).filter (passes verbosity) := by
  rw [linesFor, linesFor, List.filter_map, List.filter_filter]
  congr 2
  funext e
  rw [Function.comp_apply, passes_line]
  cases hadmits : (levelFor verbosity).admits e.level with
  | true => rw [admits_levelFor_mono h hadmits, Bool.and_self]
  | false => rw [Bool.false_and]

theorem linesFor_trace {verbosity : Nat} (h : 3 ≤ verbosity) (events : List Event) :
    linesFor verbosity events = events.map Event.line := by
  rw [linesFor, List.filter_eq_self.mpr fun e _ => admits_levelFor_trace h e.level]

-- ---------------------------------------------------------------------------
-- Whole runs
-- ---------------------------------------------------------------------------

variable {front : Front} {host : Host} {arguments arguments' : List Bytes} {o o' : Options}
  {s : Session}

/-- So many flags for verbosity. -/
def flagged (flags : Nat) : List Bytes := List.replicate flags (bytesOf "-v")

theorem accepts_louder {wishes : List Wish} (h : Accepts arguments wishes o) :
    Accepts (bytesOf "-v" :: arguments) (.louder :: wishes)
      { o with verbosity := o.verbosity + 1 } := by
  obtain ⟨hlists, hconfig, hnamed, hverbosity⟩ := h
  refine ⟨?_, hconfig, hnamed, ?_⟩
  · have hletter : Options.Letters (bytesOf "v") none [.louder] := .louder .nothing
    exact .option (.letters (List.cons_ne_nil _ _) hletter) hlists
  · rw [List.count_cons_self, hverbosity]

theorem read_louder (hfront : front.Documented) (h : front.read arguments = .ok (.run o))
    (flags : Nat) : front.read (flagged flags ++ arguments) =
      .ok (.run { o with verbosity := o.verbosity + flags }) := by
  induction flags with
  | zero => exact h
  | succ flags ih =>
    obtain ⟨wishes, haccepts⟩ := (hfront.reads _ _).mp ih
    exact (hfront.reads _ _).mpr ⟨_, accepts_louder haccepts⟩

theorem continues_runLoop (host : Host) (config : Config) (s : Session) :
    s.Continues host (runLoop host config s).2 := by
  have hrun : (loop host config s).session.Continues host (loop host config s).run.2.session :=
    Repl.continues_run rfl
  have hstart : s.Continues host (loop host config s).session :=
    (Session.Continues.of_same rfl rfl rfl : s.Continues host s).note rfl
  have hall := hstart.trans hrun
  rw [runLoop_eq]
  rcases hr : (loop host config s).run with ⟨(f | _) | _, r⟩
  all_goals
    rw [hr] at hall
  · exact hall.note rfl
  · exact hall
  · exact hall

theorem prefix_runLoop (host : Host) (config : Config) (s : Session) :
    (loop host config s).run.2.session.log <+: (runLoop host config s).2.log := by
  rw [runLoop_eq]
  rcases (loop host config s).run with ⟨(f | _) | _, r⟩
  · exact List.prefix_append _ _
  · exact List.prefix_rfl
  · exact List.prefix_rfl

theorem continues_start (front : Front) (host : Host) (o : Options) (s : Session) :
    s.Continues host (start front host o s).session := by
  unfold start
  split
  · exact .of_same rfl rfl rfl
  · exact .of_same rfl rfl rfl
  · next config _ => exact continues_runLoop host config s

theorem start_eq (h : o.config = o'.config) (front : Front) (host : Host) (s : Session) :
    start front host o' s = { start front host o s with log := (start front host o' s).log } := by
  have hconfiguration : configuration s.world o' = configuration s.world o := by
    rw [configuration, configuration, h]
  unfold start
  rw [hconfiguration]
  split <;> rfl

theorem start_log (hfront : front.Documented) (hunset : s.world.valueOf? filterVariable = none)
    (hfresh : s.log = []) (host : Host) (o : Options) :
    (start front host o s).log = linesFor o.verbosity (start front host o s).session.log := by
  have hkept := (continues_start front host o s).environment
  unfold start at *
  split
  · simp [linesFor, hfresh]
  · simp [linesFor, hfresh]
  · next config hconfig =>
    simp only [hconfig] at hkept
    have hfilter : (runLoop host config s).2.world.valueOf? filterVariable = none := by
      rw [World.valueOf?, hkept]
      exact hunset
    simp only [shownLog, hfilter, hfront.unset, linesFor, Option.getD_none]
    exact congrArg _ (List.filter_congr fun e _ => hfront.upTo _ e)

theorem lives_start (hfresh : s.log = []) (front : Front) (host : Host) (o : Options) :
    ∃ born, Lives host ((start front host o s).session.log.filter Event.ofChild) born := by
  obtain ⟨noted, born, hlives, hlog, -⟩ := (continues_start front host o s).lives
  have hnone : s.childLog = [] := by
    rw [Session.childLog, hfresh]
    rfl
  rw [hnone, List.nil_append] at hlog
  rw [Session.childLog] at hlog
  rw [hlog]
  exact ⟨born, hlives⟩

theorem loop_recalling (host : Host) (config : Config) (s : Session) (earlier : List Event) :
    loop host config (s.recalling earlier) =
      { loop host config s with session := (loop host config s).session.recalling earlier } := by
  simp only [loop, Repl.ofConfig, Session.recalling, List.append_assoc]

theorem runLoop_recalling (host : Host) (config : Config) (s : Session) (earlier : List Event) :
    runLoop host config (s.recalling earlier) =
      ((runLoop host config s).1, (runLoop host config s).2.recalling earlier) := by
  have hlaunch : (loop host config s).dispatcher.launch = Programs.launch host := rfl
  obtain ⟨hresult, hafter⟩ := Repl.run_recalling hlaunch earlier
  rw [← loop_recalling] at hresult hafter
  rw [runLoop_eq, runLoop_eq]
  rcases hs : (loop host config s).run with ⟨(f | _) | u, r⟩
  all_goals
    rcases ht : (loop host config (s.recalling earlier)).run with ⟨(f' | _) | u', r'⟩
    all_goals
      rw [hs, ht] at hresult hafter
      cases hresult
  · exact congrArg _ (hafter.noted [.unwritable f])
  · exact congrArg _ hafter
  · exact congrArg _ hafter

/-- What two runs have in common that differ in their verbosity flags only. Both run on one host,
so that even the numbers of their children are the same. -/
structure OnlyTells (front : Front) (host : Host) (arguments arguments' : List Bytes)
    (o o' : Options) (s : Session) : Prop where
  louder : ∀ flags, front.read (flagged flags ++ arguments) =
    .ok (.run { o with verbosity := o.verbosity + flags })
  code : (run front host arguments' s).code = (run front host arguments s).code
  complaint : (run front host arguments' s).complaint = (run front host arguments s).complaint
  /-- The files and the directory in use, the output, what is left of the input, the children. -/
  session : (run front host arguments' s).session = (run front host arguments s).session
  /-- What is noted is never read, so it may as well be written as it arises. -/
  unheeded : ∀ config earlier, runLoop host config (s.recalling earlier) =
    ((runLoop host config s).1, (runLoop host config s).2.recalling earlier)
  shown : (run front host arguments s).log =
    linesFor o.verbosity (run front host arguments s).session.log
  lines : o.verbosity ≤ o'.verbosity →
    (run front host arguments s).log =
      (run front host arguments' s).log.filter (passes o.verbosity)
  /-- The log of everything. -/
  bracketed : 3 ≤ o'.verbosity →
    (run front host arguments' s).log =
        (run front host arguments' s).session.log.map Event.line ∧
      Bracketed (run front host arguments' s).log

/-- The number of verbosity flags shows in the log only. -/
theorem run_onlyTells (hfront : front.Documented) (h : front.read arguments = .ok (.run o))
    (h' : front.read arguments' = .ok (.run o')) (hconfig : o.config = o'.config)
    (hunset : s.world.valueOf? filterVariable = none) (hfresh : s.log = []) (host : Host) :
    OnlyTells front host arguments arguments' o o' s := by
  have heq := start_eq hconfig front host s
  have hsession : (start front host o' s).session = (start front host o s).session := by rw [heq]
  have hlog := start_log hfront hunset hfresh host o
  have hlog' := start_log hfront hunset hfresh host o'
  have hrun : run front host arguments s = start front host o s := run_accepted h
  have hrun' : run front host arguments' s = start front host o' s := run_accepted h'
  refine ⟨read_louder hfront h, ?_, ?_, ?_, ?_, ?_, ?_, ?_⟩
  · rw [hrun, hrun', heq]
  · rw [hrun, hrun', heq]
  · rw [hrun, hrun', hsession]
  · exact fun config => runLoop_recalling host config s
  · rw [hrun, hlog]
  · intro hle
    rw [hrun, hrun', hlog, hlog', hsession]
    exact linesFor_filter hle _
  · intro htrace
    obtain ⟨born, hlives⟩ := lives_start hfresh front host o'
    rw [hrun', hlog', linesFor_trace htrace]
    exact ⟨rfl, Log.bracketed_line hlives⟩

/-- A shell whose only line starts a program, told about with one flag and with three. -/
theorem run_onlyTells_child :
    let s : Session := { world := .fresh, stdin := bytesOf "/bin/true\n" }
    let quiet := [bytesOf "-v"]
    let loud := [bytesOf "-vv", bytesOf "--verbose"]
    Front.Documented .standard ∧ Front.standard.read quiet = .ok (.run ⟨none, 1⟩) ∧
      Front.standard.read loud = .ok (.run ⟨none, 3⟩) ∧
      s.world.valueOf? filterVariable = none ∧
      (run .standard (.system false) quiet s).log =
        (run .standard (.system false) loud s).log.filter (passes 1) ∧
      Bracketed (run .standard (.system false) loud s).log ∧
      ∃ line ∈ (run .standard (.system false) loud s).log, Log.IsFork 2 line := by
  intro s quiet loud
  have hquiet : Front.standard.read quiet = .ok (.run ⟨none, 1⟩) := by rfl
  have hloud : Front.standard.read loud = .ok (.run ⟨none, 3⟩) := by rfl
  have hunset : s.world.valueOf? filterVariable = none := rfl
  have htells := run_onlyTells Front.documented_standard hquiet hloud rfl hunset rfl (.system false)
  obtain ⟨hall, hbracketed⟩ := htells.bracketed (Nat.le_refl 3)
  refine ⟨Front.documented_standard, hquiet, hloud, hunset, htells.lines (by decide), hbracketed,
    ?_⟩
  -- the only line of the session calls a program
  have hn : (loop (.system false) .default s).session.out.NeverFails :=
    ⟨rfl, rfl, by simp [s, loop, Repl.ofConfig], rfl⟩
  have hfirst : (Arrival.next (loop (.system false) .default s).session.arrivals).1 =
      .ok (bytesOf "/bin/true\n") := by rfl
  have hparse : CommandLine.parse "/bin/true\n" = some ⟨"/bin/true", []⟩ := by
    decide +kernel
  have hgranted : Programs.Granted World.fresh "/bin/true" ["/bin/true"] :=
    Programs.granted_iff.mpr ⟨World.fresh_isExecutable_true, by decide⟩
  have hspawned : .spawned 2 "/bin/true" ∈
      (loop (.system false) .default s).run.2.session.log :=
    Repl.spawned_mem_run rfl rfl hn hfirst hparse ⟨by decide, by decide⟩ (by rfl) hgranted (by rfl)
  have hconfigured : configuration s.world { verbosity := 3 } = .ok .default := by rfl
  have hnoted : .spawned 2 "/bin/true" ∈ (run .standard (.system false) loud s).session.log := by
    have hmem := (prefix_runLoop (.system false) .default s).subset hspawned
    rw [run_accepted hloud, start]
    simp only [hconfigured]
    exact hmem
  rw [hall]
  exact ⟨_, List.mem_map_of_mem hnoted, Log.isFork_line_iff.mpr ⟨_, rfl⟩⟩

end LineShell.Application
