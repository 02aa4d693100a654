import LineShell.Dispatch
import LineShell.Proofs.Builtin.Replies
import LineShell.Proofs.Output.Demands

/-!
# What commands ask of an output

A built-in command asks for its remarks to be written, a program for a flush before it is
launched, and some launches for a line after it. `dispatch_output_iff`: a command reports a failed
output exactly if some demand of its own is refused, and with that failure.
-/

namespace LineShell

open LineShell.Action
open Sink (Demand Meets Refuses)

-- ---------------------------------------------------------------------------
-- Built-in commands
-- ---------------------------------------------------------------------------

namespace Builtin

def Remark.demand? : Remark → Option Demand
  | .line text => some (.write (text ++ "\n"))
  | .note _ => none

theorem utter_error_iff {remarks : List Remark} {s : Session} {f : Failure} :
    ((utter remarks).perform s).1 = .error f ↔
      ∃ demand out, Meets (remarks.filterMap Remark.demand?) s.out demand out ∧
        out.Refuses demand f := by
  induction remarks generalizing s with
  | nil =>
    constructor
    · intro h
      cases h
    · rintro ⟨demand, out, hm, -⟩
      exact absurd hm Sink.not_meets_nil
  | cons remark rest ih =>
    cases remark with
    | note event =>
      rw [utter, perform_bind_of_ok rfl, ih]
      rfl
    | line text =>
      have hgrant : (Action.writeLine text).perform s =
          ((s.out.grant (.write (text ++ "\n"))).1,
            { s with out := (s.out.grant (.write (text ++ "\n"))).2 }) := rfl
      rcases hg : s.out.grant (.write (text ++ "\n")) with ⟨g | _, out⟩
      · rw [hg] at hgrant
        rw [utter, perform_bind_error hgrant]
        simpa [Remark.demand?] using (Sink.refused_first hg).symm
      · rw [hg] at hgrant
        rw [utter, perform_bind_ok hgrant, ih]
        simpa [Remark.demand?] using (Sink.refused_later hg).symm

theorem Reply.perform_output_iff {name : String} {reply : Reply} {s : Session} {f : Failure} :
    ((reply.perform name).perform s).1 = .error (.refused (.output f)) ↔
      ∃ demand out, Meets (reply.remarks.filterMap Remark.demand?) s.out demand out ∧
        out.Refuses demand f := by
  have hu : ((utter reply.remarks).perform { s with world := reply.world }).1 = .error f ↔ _ :=
    utter_error_iff
  rw [Reply.perform_eq, ← hu]
  rcases (utter reply.remarks).perform { s with world := reply.world } with ⟨g | _, s'⟩
  · simp
  · cases reply.stop with
    | none => simp
    | some stop => cases stop <;> simp [Stop.map]

end Builtin

namespace Dispatcher

structure External (line : CommandLine) : Prop where
  noBuiltin : Builtin.replies? line.name = none
  noExit : line.name ≠ exitName

def lookedUp (d : Dispatcher) (line : CommandLine) (s : Session) : Session :=
  { s with log := s.log ++ d.searchPath.resolveEvents s.world line.name }

def notFoundText (command : String) : String :=
  "Executable file " ++ command ++ " not found" ++ "\n"

/-- What there is to say about a launch, if anything. -/
def conclusion? (command : String) : Except LaunchError ChildResult → Option String
  | .ok (.killed pid _) => some (s!"Child process {pid} terminated abnormally" ++ "\n")
  | .error (.notExecutable _) => some (notFoundText command)
  | _ => none

/-- What a command asks of an output, and the output that it then meets. -/
inductive Asks (d : Dispatcher) (line : CommandLine) (s : Session) : Demand → Sink → Prop
  | remark {replies : Builtin.Replies} {demand : Demand} {out : Sink} :
      Builtin.replies? line.name = some replies →
      Meets ((replies line.fields s.world).remarks.filterMap Builtin.Remark.demand?) s.out
        demand out →
      Asks d line s demand out
  | notFound : External line → d.searchPath.program? s.world line.name = none →
      Asks d line s (.write (notFoundText line.name)) s.out
  | launch {path : String} : External line →
      d.searchPath.program? s.world line.name = some path → Asks d line s .flush s.out
  | conclusion {path text : String} {flushed : Sink} {result : Except LaunchError ChildResult}
      {s' : Session} : External line → d.searchPath.program? s.world line.name = some path →
      s.out.flush = (.ok (), flushed) →
      (d.launch path line.fields).perform { d.lookedUp line s with out := flushed } =
        (result, s') →
      conclusion? line.name result = some text → Asks d line s (.write text) s'.out

-- ---------------------------------------------------------------------------
-- The ways a dispatch can go
-- ---------------------------------------------------------------------------

variable {d : Dispatcher} {line : CommandLine} {s : Session}

theorem perform_dispatch_builtin {replies : Builtin.Replies}
    (h : Builtin.replies? line.name = some replies) :
    (d.dispatch line).perform s =
      match ((replies line.fields s.world).perform line.name).perform
          { s with log := s.log ++ [.running line.name line.args.length] } with
      | (.error e, s') => (.error e, s')
      | (.ok (), s') => (.ok .builtin, s') := by
  rw [dispatch, CommandLine.fields, (Builtin.standard_serves h line.args).execute_eq]
  simp only [perform_bind, perform_note, perform_world]
  rcases Action.perform _ _ with ⟨e | _, s'⟩
  · rfl
  · rfl

theorem perform_execute_none (h : Builtin.replies? line.name = none) :
    (Builtin.Registry.standard.execute line.fields).perform s = (.ok false, s) := by
  simp only [CommandLine.fields, Builtin.Registry.execute, Builtin.replies?_eq_none.mp h,
    perform_pure]

theorem perform_dispatch_exit (h : Builtin.replies? line.name = none)
    (hn : line.name = exitName) : (d.dispatch line).perform s = (.ok .exit, s) := by
  rw [dispatch, perform_bind_ok (perform_execute_none h)]
  simp [hn]

theorem perform_dispatch_external (h : External line) :
    (d.dispatch line).perform s =
      (((d.runProgram line).perform s).1.mapError .refused, ((d.runProgram line).perform s).2) := by
  rw [dispatch, perform_bind_ok (perform_execute_none h.noBuiltin)]
  simp only [Bool.false_eq_true, if_false, if_neg h.noExit, perform_mapError]

def remark (text : String) (outcome : Outcome) : Action CommandError Outcome := do
  (Action.writeLine text).mapError .output
  return outcome

theorem missing_eq (command : String) :
    missing command = remark ("Executable file " ++ command ++ " not found") .notFound := rfl

theorem conclude_killed (command : String) (pid signal : Nat) :
    conclude command (.ok (.killed pid signal)) =
      remark s!"Child process {pid} terminated abnormally" (.external (.killed pid signal)) := rfl

theorem perform_remark (text : String) (outcome : Outcome) (s : Session) :
    (remark text outcome).perform s =
      match s.out.grant (.write (text ++ "\n")) with
      | (.error f, out) => (.error (.output f), { s with out })
      | (.ok (), out) => (.ok outcome, { s with out }) := by
  rw [remark, perform_bind, perform_mapError, Action.writeLine, perform_write, Sink.grant]
  rcases s.out.put _ with ⟨f | _, out⟩
  · rfl
  · rfl

theorem remark_output_iff {text : String} {outcome : Outcome} {f : Failure} :
    ((remark text outcome).perform s).1 = .error (.output f) ↔
      s.out.Refuses (.write (text ++ "\n")) f := by
  rw [perform_remark, Refuses]
  rcases s.out.grant _ with ⟨g | _, out⟩
  · simp
  · simp

theorem missing_output_iff {command : String} {f : Failure} :
    ((missing command).perform s).1 = .error (.output f) ↔
      s.out.Refuses (.write (notFoundText command)) f := by
  rw [missing_eq, remark_output_iff]
  rfl

theorem perform_runProgram_missing (hp : d.searchPath.program? s.world line.name = none) :
    (d.runProgram line).perform s = (missing line.name).perform (d.lookedUp line s) := by
  rw [runProgram, perform_bind_of_ok rfl, perform_bind_of_ok rfl]
  simp only [perform_world, perform_noteAll, hp]
  rfl

theorem perform_runProgram_found {path : String}
    (hp : d.searchPath.program? s.world line.name = some path) :
    (d.runProgram line).perform s =
      match s.out.flush with
      | (.error f, out) => (.error (.output f), { d.lookedUp line s with out })
      | (.ok (), out) =>
        match (d.launch path line.fields).perform { d.lookedUp line s with out } with
        | (result, s') => (conclude line.name result).perform s' := by
  rw [runProgram, perform_bind_of_ok rfl, perform_bind_of_ok rfl]
  simp only [perform_world, perform_noteAll, hp]
  rw [perform_bind, perform_mapError, perform_flush]
  rcases s.out.flush with ⟨f | _, out⟩
  · rfl
  · rfl

theorem conclude_output_iff {command : String} {result : Except LaunchError ChildResult}
    {f : Failure} :
    ((conclude command result).perform s).1 = .error (.output f) ↔
      ∃ text, conclusion? command result = some text ∧ s.out.Refuses (.write text) f := by
  cases result with
  | ok child =>
    cases child with
    | exited code =>
      rw [conclude, perform_bind_of_ok rfl]
      simp [conclusion?]
    | killed pid signal =>
      rw [conclude_killed, remark_output_iff]
      simp [conclusion?]
  | error e =>
    cases e with
    | notExecutable path =>
      have hmissing : conclude command (.error (.notExecutable path)) = missing command := rfl
      have htext : conclusion? command (.error (.notExecutable path)) =
          some (notFoundText command) := rfl
      rw [hmissing, htext, missing_output_iff]
      constructor
      · intro hf
        exact ⟨notFoundText command, rfl, hf⟩
      · rintro ⟨text, ht, hf⟩
        rw [← Option.some.inj ht] at hf
        exact hf
    | _ => simp [conclude, conclusion?]

theorem runProgram_output_iff {f : Failure} (h : External line) :
    ((d.runProgram line).perform s).1 = .error (.output f) ↔
      ∃ demand out, d.Asks line s demand out ∧ out.Refuses demand f := by
  cases hp : d.searchPath.program? s.world line.name with
  | none =>
    rw [perform_runProgram_missing hp, missing_output_iff]
    constructor
    · intro hf
      exact ⟨_, _, .notFound h hp, hf⟩
    · rintro ⟨demand, out, hasks, hf⟩
      cases hasks with
      | remark hb _ => simp [h.noBuiltin] at hb
      | notFound _ _ => exact hf
      | launch _ hp' => simp [hp] at hp'
      | conclusion _ hp' _ _ _ => simp [hp] at hp'
  | some path =>
    rw [perform_runProgram_found hp]
    rcases hflush : s.out.flush with ⟨g | _, flushed⟩
    · constructor
      · intro hf
        obtain rfl : g = f := by simpa using hf
        exact ⟨.flush, s.out, .launch h hp, by rw [Refuses, Sink.grant, hflush]⟩
      · rintro ⟨demand, out, hasks, hf⟩
        cases hasks with
        | remark hb _ => simp [h.noBuiltin] at hb
        | notFound _ hp' => simp [hp] at hp'
        | launch _ _ => simpa [Refuses, Sink.grant, hflush] using hf
        | conclusion _ _ hflush' _ _ => simp [hflush] at hflush'
    · rcases hlaunch : (d.launch path line.fields).perform
        { d.lookedUp line s with out := flushed } with ⟨result, s'⟩
      simp only [hlaunch]
      rw [conclude_output_iff]
      constructor
      · rintro ⟨text, htext, hf⟩
        exact ⟨_, _, .conclusion h hp hflush hlaunch htext, hf⟩
      · rintro ⟨demand, out, hasks, hf⟩
        cases hasks with
        | remark hb _ => simp [h.noBuiltin] at hb
        | notFound _ hp' => simp [hp] at hp'
        | launch _ _ => simp [Refuses, Sink.grant, hflush] at hf
        | conclusion _ hp' hflush' hlaunch' htext =>
          obtain rfl := Option.some.inj (hp.symm.trans hp')
          obtain ⟨-, rfl⟩ := Prod.mk.inj (hflush.symm.trans hflush')
          obtain ⟨rfl, rfl⟩ := Prod.mk.inj (hlaunch.symm.trans hlaunch')
          exact ⟨_, htext, hf⟩

theorem remark_ne_exit {text : String} {outcome : Outcome} (ho : outcome ≠ .exit) :
    ((remark text outcome).perform s).1 ≠ .ok .exit := by
  rw [perform_remark]
  rcases s.out.grant _ with ⟨g | _, out⟩
  · simp
  · simpa using ho

theorem missing_ne_exit (command : String) : ((missing command).perform s).1 ≠ .ok .exit := by
  rw [missing_eq]
  exact remark_ne_exit (by simp)

theorem conclude_ne_exit (command : String) (result : Except LaunchError ChildResult) :
    ((conclude command result).perform s).1 ≠ .ok .exit := by
  cases result with
  | ok child =>
    cases child with
    | exited code =>
      rw [conclude, perform_bind_of_ok rfl]
      simp
    | killed pid signal =>
      rw [conclude_killed]
      exact remark_ne_exit (by simp)
  | error e =>
    cases e with
    | notExecutable path => exact missing_ne_exit command
    | _ => simp [conclude]

theorem runProgram_ne_exit : ((d.runProgram line).perform s).1 ≠ .ok .exit := by
  cases hp : d.searchPath.program? s.world line.name with
  | none =>
    rw [perform_runProgram_missing hp]
    exact missing_ne_exit line.name
  | some path =>
    rw [perform_runProgram_found hp]
    rcases s.out.flush with ⟨g | _, flushed⟩
    · simp
    · exact conclude_ne_exit _ _

/-- A command reports a failed output just if a demand of its own is refused. -/
theorem dispatch_output_iff {f : Failure} :
    ((d.dispatch line).perform s).1 = .error (.refused (.output f)) ↔
      ∃ demand out, d.Asks line s demand out ∧ out.Refuses demand f := by
  cases hb : Builtin.replies? line.name with
  | some replies =>
    let reply := replies line.fields s.world
    let noted : Session := { s with log := s.log ++ [.running line.name line.args.length] }
    have hreply : ((reply.perform line.name).perform noted).1 = .error (.refused (.output f)) ↔ _ :=
      Builtin.Reply.perform_output_iff
    have hresult : ((d.dispatch line).perform s).1 = .error (.refused (.output f)) ↔
        ((reply.perform line.name).perform noted).1 = .error (.refused (.output f)) := by
      rw [perform_dispatch_builtin hb]
      rcases (reply.perform line.name).perform noted with ⟨e | _, s'⟩
      · simp
      · simp
    rw [hresult, hreply]
    constructor
    · rintro ⟨demand, out, hm, hf⟩
      exact ⟨demand, out, .remark hb hm, hf⟩
    · rintro ⟨demand, out, hasks, hf⟩
      cases hasks with
      | remark hb' hm =>
        obtain rfl := Option.some.inj (hb.symm.trans hb')
        exact ⟨demand, out, hm, hf⟩
      | notFound h _ | launch h _ | conclusion h _ _ _ _ => simp [h.noBuiltin] at hb
  | none =>
    by_cases hn : line.name = exitName
    · rw [perform_dispatch_exit hb hn]
      constructor
      · intro h
        cases h
      · rintro ⟨demand, out, hasks, -⟩
        cases hasks with
        | remark hb' _ => simp [hb] at hb'
        | notFound h _ | launch h _ | conclusion h _ _ _ _ => exact absurd hn h.noExit
    · have h : External line := ⟨hb, hn⟩
      rw [perform_dispatch_external h, ← runProgram_output_iff h]
      rcases ((d.runProgram line).perform s).1 with e | outcome
      · simp
      · simp

theorem dispatch_exit {s' : Session} (h : (d.dispatch line).perform s = (.ok .exit, s')) :
    line.name = exitName ∧ s' = s := by
  cases hb : Builtin.replies? line.name with
  | some replies =>
    rw [perform_dispatch_builtin hb] at h
    split at h
    · cases h
    · cases h
  | none =>
    by_cases hn : line.name = exitName
    · rw [perform_dispatch_exit hb hn] at h
      exact ⟨hn, (Prod.mk.inj h).2.symm⟩
    · exfalso
      rw [perform_dispatch_external ⟨hb, hn⟩] at h
      exact runProgram_ne_exit (World.mapError_eq_ok.mp (congrArg Prod.fst h))

end Dispatcher

end LineShell
