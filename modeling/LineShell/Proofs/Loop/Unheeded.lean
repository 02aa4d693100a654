import LineShell.Proofs.Loop.Lockstep
import LineShell.Proofs.Programs.Launches

/-!
# Nobody reads the record

A shell notes events and never looks at what it has noted. `run_recalling`: whatever was noted
before a run, the run takes the same course and adds the same events, so events may as well be
written as they arise and forgotten.
-/

namespace LineShell

open LineShell.Action
open Programs (Host)

/-- The session, if these events had been noted before it. -/
def Session.recalling (earlier : List Log.Event) (s : Session) : Session :=
  { s with log := earlier ++ s.log }

def Session.Recalls (earlier : List Log.Event) (s t : Session) : Prop := t = s.recalling earlier

section
variable {earlier : List Log.Event}

open Session (Recalls)

theorem Session.Recalls.noted {s t : Session} (h : s.Recalls earlier t) (events : List Log.Event) :
    Recalls earlier { s with log := s.log ++ events } { t with log := t.log ++ events } := by
  rw [h, Session.recalling, Recalls, Session.recalling, List.append_assoc]

theorem carried_recalls : Carried (Recalls earlier) (Recalls earlier) where
  world h := by
    rw [h]
    rfl
  setWorld w h := by
    rw [h]
    rfl
  log events h := h.noted events
  write text s t h := by
    rw [h]
    exact ⟨rfl, rfl⟩
  flush s t h := by
    rw [h]
    exact ⟨rfl, rfl⟩
  weaken _ _ h := h

theorem agrees_fork_recalls (host : Host) (image : Programs.Image) :
    Agrees (Programs.fork host image) (Recalls earlier) (Recalls earlier) := by
  intro s t h
  rw [h]
  simp only [Programs.fork, perform_ofStep, Session.recalling, List.append_assoc]
  cases host.fork s.forks s.world with
  | error errno => exact ⟨rfl, rfl⟩
  | ok pid => exact ⟨rfl, rfl⟩

theorem agrees_runChild_recalls (host : Host) (image : Programs.Image) (pid : Nat) :
    Agrees (Programs.runChild host image pid) (Recalls earlier) (Recalls earlier) := by
  intro s t h
  rw [h]
  simp only [Programs.runChild, perform_ofStep, Session.recalling, List.append_assoc]
  exact ⟨trivial, rfl⟩

theorem agrees_takeLine_recalls :
    Agrees (takeLine : Action ε (Except Failure Bytes)) (Recalls earlier) (Recalls earlier) := by
  intro s t h
  rw [h]
  simp only [perform_takeLine, Session.takeLine, Session.recalling]
  cases s.input with
  | own source => exact ⟨rfl, rfl⟩
  | standard held => exact ⟨rfl, rfl⟩

theorem agrees_dispatch_recalls {d : Dispatcher} {host : Host}
    (hd : d.launch = Programs.launch host) (line : CommandLine) :
    Agrees (d.dispatch line) (Recalls earlier) (Recalls earlier) := by
  apply carried_recalls.agrees_dispatch
  rw [hd]
  exact carried_recalls.agrees_launch (agrees_fork_recalls host) (agrees_runChild_recalls host)

namespace Repl

variable {host : Host} {r : Repl}

theorem agrees_turn_recalls {d : Dispatcher} (hd : d.launch = Programs.launch host)
    (prompt : String) : Agrees (turn prompt d) (Recalls earlier) (Recalls earlier) := by
  rw [turn_eq]
  refine (carried_recalls.agrees_ask prompt).bind (fun _ => ?_) fun _ _ h => h
  refine agrees_takeLine_recalls.bind (fun line => ?_) fun _ _ h => h
  exact carried_recalls.agrees_react (agrees_dispatch_recalls hd) _

theorem run_recalling (hd : r.dispatcher.launch = Programs.launch host)
    (earlier : List Log.Event) :
    r.run.1 = ({ r with session := r.session.recalling earlier }).run.1 ∧
      r.run.2.session.Recalls earlier
        ({ r with session := r.session.recalling earlier }).run.2.session := by
  have hlockstep : Lockstep (Recalls earlier) r { r with session := r.session.recalling earlier } :=
    ⟨rfl, rfl, agrees_turn_recalls hd r.prompt⟩
  obtain ⟨hresult, hafter⟩ := hlockstep.run rfl
  exact ⟨hresult, hafter.sessions⟩

end Repl

end

end LineShell
