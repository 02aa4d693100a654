import LineShell.Proofs.Builtin.Effects
import LineShell.Proofs.Dispatch.Children
import LineShell.Proofs.Programs.Lives

/-!
# Children are collected

A command line makes one child at most and waits for it to its end, so a run of command lines goes
from child to child and never has two. `dispatchAll_collects`: waiting takes the reports on a child
up to the first that decides, a launch ends well only with the one report of its child's end, and
between commands no child is left over, but those that could not be waited for.
-/

namespace LineShell

open LineShell.Action

/-- Remarks that tell nothing about children. -/
def Builtin.Discreet (remarks : List Builtin.Remark) : Prop :=
  ∀ event, .note event ∈ remarks → event.ofChild = false

-- ---------------------------------------------------------------------------
-- Built-in commands
-- ---------------------------------------------------------------------------

namespace Builtin

variable {remarks : List Remark} {w : World} {name : String} {args : List String}

theorem childLog_utter (h : Discreet remarks) (s : Session) :
    ((utter remarks).perform s).2.childLog = s.childLog := by
  induction remarks generalizing s with
  | nil => rfl
  | cons remark rest ih =>
    have hrest : Discreet rest := fun event he => h event (List.mem_cons_of_mem _ he)
    cases remark with
    | note event =>
      rw [utter, perform_bind_of_ok rfl]
      refine (ih hrest _).trans ((s.childLog_log [event]).trans ?_)
      simp [h event List.mem_cons_self]
    | line text =>
      have hwrite : (Action.writeLine text).perform s = _ := perform_write (text ++ "\n") s
      rcases hp : s.out.put (bytesOf (text ++ "\n")) with ⟨f | _, out⟩
      · rw [hp] at hwrite
        rw [utter, perform_bind_error hwrite]
        rfl
      · rw [hp] at hwrite
        rw [utter, perform_bind_ok hwrite]
        exact ih hrest _

theorem childLog_reply (name : String) {reply : Reply} (h : Discreet reply.remarks) (s : Session) :
    ((reply.perform name).perform s).2.childLog = s.childLog := by
  have hutter := childLog_utter h { s with world := reply.world }
  rw [Reply.perform_eq]
  rcases hu : (utter reply.remarks).perform { s with world := reply.world } with ⟨f | _, t⟩
  · rwa [hu] at hutter
  · rw [hu] at hutter
    cases reply.stop with
    | none => exact hutter
    | some stop => exact hutter

theorem Registry.Serves.childLog {r : Registry} {reply : World → Reply}
    (h : r.Serves name args reply) {s : Session} (hd : Discreet (reply s.world).remarks) :
    ((r.execute (name :: args)).perform s).2.childLog = s.childLog := by
  let noted : Session := { s with log := s.log ++ [.running name args.length] }
  have hnoted : noted.childLog = s.childLog :=
    (s.childLog_log [.running name args.length]).trans (List.append_nil _)
  rw [h.execute_snd, ← hnoted]
  exact childLog_reply name hd noted

theorem discreet_lines (lines : List String) : Discreet (lines.map .line) := by
  intro event h
  simp at h

theorem discreet_after {attempt : Except (Stop Failure) Unit × World} (h : Discreet remarks) :
    Discreet (Reply.after attempt remarks).remarks := by
  rcases attempt with ⟨stop | _, w'⟩
  · exact discreet_lines []
  · exact h

theorem discreet_about {α : Type} (answer : Except Failure α) (lines : α → List String) :
    Discreet (Reply.about w answer lines).remarks := by
  cases answer with
  | ok a => exact discreet_lines _
  | error f => exact discreet_lines []

theorem discreet_down (fields : List String) (w : World) :
    Discreet (Reply.down fields w).remarks := by
  unfold Reply.down
  split
  · exact discreet_lines _
  · dsimp only
    split
    · refine discreet_after fun event hevent => ?_
      obtain rfl : event = .entered _ := by simpa using hevent
      rfl
    · exact discreet_lines _

theorem discreet_details (w : World) (path : String) (found : Except Failure Files.Node) :
    Discreet ((kindLines w path found).map .line ++ Reply.detailRemarks w path found) := by
  intro event h
  rcases List.mem_append.mp h with hkind | hdetail
  · exact discreet_lines _ event hkind
  · cases found with
    | ok node => simp [Reply.detailRemarks] at hdetail
    | error f =>
      obtain rfl : event = .statFailed path f := by simpa [Reply.detailRemarks] using hdetail
      rfl

theorem discreet_standard {replies : Replies} (h : replies? name = some replies) :
    Discreet (replies (name :: args) w).remarks := by
  let P (reply : Reply) : Prop := Discreet reply.remarks
  have hsay (lines : List String) : P (.say w lines) := discreet_lines lines
  change P (replies (name :: args) w)
  obtain ⟨rfl, rfl⟩ | ⟨rfl, rfl⟩ | ⟨rfl, rfl⟩ | ⟨rfl, rfl⟩ | ⟨rfl, rfl⟩ | ⟨rfl, rfl⟩ | ⟨rfl, rfl⟩ :=
    replies?_cases h
  · refine binary_holds hsay fun source target _ => ?_
    split
    · exact hsay _
    split
    · exact hsay _
    · exact discreet_after (discreet_lines [])
  · refine unary_holds hsay fun path _ => ?_
    split
    · exact discreet_after (discreet_lines ["Successfully deleted"])
    · exact hsay _
  · exact discreet_down _ w
  · exact nullary_holds hsay (discreet_about _ _)
  · exact unary_holds hsay fun path _ => discreet_details w path _
  · exact nullary_holds hsay (discreet_after (discreet_lines []))
  · exact nullary_holds hsay (discreet_about _ _)

end Builtin

-- ---------------------------------------------------------------------------
-- Command lines
-- ---------------------------------------------------------------------------

namespace Dispatcher

open Programs (Accounted Between Decides Host Life Lives Suffice Undecided between_none changes
  endingEvent imageFor reportsOn waited)

variable {d : Dispatcher} {line : CommandLine} {s t u : Session} {host : Host}

theorem childLog_lookedUp : (d.lookedUp line s).childLog = s.childLog := by
  have hquiet (command : String) (path : SearchPath) :
      (path.resolveEvents s.world command).filter Log.Event.ofChild = [] := by
    unfold SearchPath.resolveEvents
    split
    · rfl
    · rw [List.filter_append, List.append_eq_nil_iff]
      refine ⟨List.filter_eq_nil_iff.mpr ?_, ?_⟩
      · intro event hevent
        obtain ⟨dir, -, rfl⟩ := List.mem_map.mp hevent
        simp [Log.Event.ofChild, Log.Event.ofWaiting]
      · cases path.resolve? s.world command <;> rfl
  rw [lookedUp, Session.childLog_log, hquiet, List.append_nil]

theorem childLog_remark (text : String) (outcome : Outcome) :
    ((remark text outcome).perform s).2.childLog = s.childLog := by
  rw [perform_remark]
  rcases s.out.grant _ with ⟨f | _, out⟩
  · rfl
  · rfl

theorem childLog_concluded (command : String)
    (launched : Except LaunchError ChildResult × Session) :
    (concluded command launched).2.childLog = launched.2.childLog := by
  obtain ⟨result, t⟩ := launched
  change ((conclude command result).perform t).2.childLog = t.childLog
  cases result with
  | ok child =>
    cases child with
    | exited code => exact (t.childLog_log [.finished command code]).trans (List.append_nil _)
    | killed pid signal => exact childLog_remark _ _
  | error e =>
    cases e with
    | notExecutable path => exact childLog_remark _ _
    | _ => rfl

theorem children_congr (h : t.processes = s.processes) : t.children = s.children :=
  congrArg Prod.snd h

/-- A command line begins and ends the life of one child at most. -/
theorem life_dispatch (host : Host) (path : SearchPath) (line : CommandLine) (s : Session) :
    ∃ life born, Life host life born ∧
      Between s (((onHost host path).dispatch line).perform s).2 life born := by
  have hnone {t : Session} (hlog : t.childLog = s.childLog) (hchildren : t.children = s.children) :
      ∃ life born, Life host life born ∧ Between s t life born :=
    ⟨[], [], .childless, between_none hlog hchildren⟩
  cases hreplies : Builtin.replies? line.name with
  | some replies =>
    have hserves := Builtin.standard_serves hreplies line.args
    rw [perform_dispatch_command hreplies, CommandLine.fields]
    refine hnone (hserves.childLog (Builtin.discreet_standard hreplies)) ?_
    exact (congrArg Session.children (hserves.tellsOnly s).onlyTold).trans rfl
  | none =>
    by_cases hexit : line.name = exitName
    · rw [perform_dispatch_exit hreplies hexit]
      exact hnone rfl rfl
    · have h : External line := ⟨hreplies, hexit⟩
      cases hp : (onHost host path).searchPath.program? s.world line.name with
      | none =>
        rw [perform_dispatch_external h, perform_runProgram_missing hp, missing_eq]
        exact hnone ((childLog_remark _ _).trans childLog_lookedUp)
          (children_congr (processes_remark _ _))
      | some target =>
        rcases hflush : s.out.flush.1 with f | u
        · rw [perform_dispatch_unflushed h hp hflush]
          exact hnone childLog_lookedUp rfl
        · rw [perform_dispatch_flushed h hp hflush]
          obtain ⟨life, born, hlife, hlog, hchildren⟩ := Programs.life_launch host target
            line.fields ((onHost host path).prepared line s)
          refine ⟨life, born, hlife, ?_, (children_congr (processes_concluded _ _)).trans hchildren⟩
          refine (childLog_concluded _ _).trans (hlog.trans ?_)
          exact congrArg (· ++ life) childLog_lookedUp

-- ---------------------------------------------------------------------------
-- Runs
-- ---------------------------------------------------------------------------

theorem between_trans {life noted : List Log.Event} {born others : List Programs.Child}
    (h : Between s t life born) (h' : Between t u noted others) :
    Between s u (life ++ noted) (born ++ others) :=
  ⟨by rw [h'.1, h.1, List.append_assoc], by rw [h'.2, h.2, List.append_assoc]⟩

theorem lives_dispatchAll (host : Host) (path : SearchPath) (lines : List CommandLine)
    (s : Session) : ∃ noted born, Lives host noted born ∧
      Between s ((onHost host path).dispatchAll lines s).2 noted born := by
  induction lines generalizing s with
  | nil => exact ⟨[], [], .nil, between_none rfl rfl⟩
  | cons line rest ih =>
    obtain ⟨life, born, hlife, hbetween⟩ := life_dispatch host path line s
    obtain ⟨noted, others, hlives, hrest⟩ := ih (((onHost host path).dispatch line).perform s).2
    rw [dispatchAll]
    split
    · next t hwaits =>
      rw [hwaits] at hbetween
      exact ⟨_, _, .cons hlife .nil, by simpa using hbetween⟩
    · next result t _ hran =>
      rw [hran] at hbetween hrest
      exact ⟨_, _, .cons hlife hlives, between_trans hbetween hrest⟩

/-- How children are waited for, one by one and over a run of command lines. -/
structure Collects (host : Host) (path : SearchPath) : Prop where
  undecided_iff : ∀ report, Undecided report ↔
    report = .failed .interrupted ∨ ∃ word, report = .status word ∧ word &&& 127 = 127
  /-- The reports are taken up to the first that decides, no more and no fewer. -/
  decided : ∀ pid reports, (∃ report ∈ reports, ¬ Undecided report) →
    ∃ before report after result, reports = before ++ report :: after ∧
      (∀ other ∈ before, Undecided other) ∧ Decides pid report result ∧
      waited pid reports = result ∧
      ∀ first, first <+: reports → (Suffice pid first ↔ before ++ [report] <+: first)
  inserted : ∀ pid front idle rest, (∀ other ∈ idle, Undecided other) →
    waited pid (front ++ idle ++ rest) = waited pid (front ++ rest)
  /-- The end of the child is the last that is reported, and it is reported once. -/
  launched : ∀ target argv s result,
    ((Programs.launch host target argv).perform s).1 = .ok result →
    ∃ pid before word after, host.fork s.forks s.world = .ok pid ∧
      reportsOn host (imageFor target argv) s pid = before ++ .status word :: after ∧
      (∀ other ∈ before, Undecided other) ∧ Decides pid (.status word) (.ok result) ∧
      ((Programs.launch host target argv).perform s).2.log =
        s.log ++ .spawned pid target :: (changes pid before ++ [endingEvent pid result]) ∧
      ((Programs.launch host target argv).perform s).2.children =
        s.children ++ [⟨pid, imageFor target argv, true⟩]
  /-- Of the children that a run makes one is outstanding at most, and none in the end. Each is
  collected just once, unless it could not be waited for. -/
  run : ∀ lines s, ∃ noted born,
    ((onHost host path).dispatchAll lines s).2.childLog = s.childLog ++ noted ∧
      ((onHost host path).dispatchAll lines s).2.children = s.children ++ born ∧
      Accounted host noted born

theorem dispatchAll_collects (host : Host) (path : SearchPath) : Collects host path where
  undecided_iff report := Programs.undecided_iff
  decided pid reports h := by
    obtain ⟨before, report, after, result, rfl, hbefore, hdecides⟩ := Programs.exists_decides pid h
    exact ⟨before, report, after, result, rfl, hbefore, hdecides, hdecides.waited hbefore after,
      fun first => Programs.suffice_iff hdecides hbefore⟩
  inserted pid front idle rest h := by
    rw [waited, waited, Programs.await_inserted h]
  launched target argv s result := Programs.launch_ok
  run lines s := by
    obtain ⟨noted, born, hlives, hlog, hchildren⟩ := lives_dispatchAll host path lines s
    exact ⟨noted, born, hlog, hchildren, hlives.accounted⟩

/-- The child is interrupted, stopped and continued before it ends with code 3. -/
example : waited 7 [.failed .interrupted, .status 0x137F, .status 0xFFFF, .status 0x0300] =
    .ok (.exited 3) := rfl

end Dispatcher

end LineShell
