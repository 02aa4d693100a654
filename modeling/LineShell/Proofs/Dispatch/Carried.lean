import LineShell.Dispatch
import LineShell.Proofs.Builtin.Replies

/-!
# What holds through a command

A command reads and sets the world, notes events, writes and flushes, and launches programs, in
this order of growing freedom. A relation between sessions that the single actions carry on is
carried on by every command: `agrees_dispatch`. The walk through the commands is made here once,
and whoever has a relation to carry only looks at the single actions.
-/

namespace LineShell

open LineShell.Action

/-- `R` holds on through the actions that commands are made of, and after a flush even `R'`. -/
structure Carried (R R' : Session → Session → Prop) : Prop where
  world : ∀ {s t}, R s t → s.world = t.world
  setWorld : ∀ {s t} (w : World), R s t → R { s with world := w } { t with world := w }
  log : ∀ {s t} (events : List Log.Event), R s t →
    R { s with log := s.log ++ events } { t with log := t.log ++ events }
  write : ∀ text, Agrees (write text) R R
  flush : Agrees flush R R'
  weaken : ∀ s t, R' s t → R s t

namespace Carried

variable {R R' : Session → Session → Prop} (h : Carried R R')
include h

theorem agrees_world : Agrees (Action.world : Action ε World) R R := by
  intro s t hst
  simp only [perform_world, h.world hst, true_and]
  exact hst

theorem agrees_note (event : Log.Event) : Agrees (note event : Action ε Unit) R R :=
  fun _ _ hst => ⟨rfl, h.log [event] hst⟩

theorem agrees_noteAll (events : List Log.Event) : Agrees (noteAll events : Action ε Unit) R R :=
  fun _ _ hst => ⟨rfl, h.log events hst⟩

-- ---------------------------------------------------------------------------
-- Built-in commands
-- ---------------------------------------------------------------------------

theorem agrees_utter (remarks : List Builtin.Remark) : Agrees (Builtin.utter remarks) R R := by
  induction remarks with
  | nil => exact .pure ()
  | cons remark rest ih =>
    cases remark with
    | line text => exact (h.write _).bind (fun _ => ih) fun _ _ hst => hst
    | note event => exact (h.agrees_note event).bind (fun _ => ih) fun _ _ hst => hst

theorem agrees_reply (name : String) (reply : Builtin.Reply) :
    Agrees (reply.perform name) R R := by
  have hw : Agrees (Action.change fun _ => reply.world : Action (Stop CommandError) Unit) R R :=
    fun _ _ hst => ⟨rfl, h.setWorld reply.world hst⟩
  refine hw.bind (fun _ => ?_) fun _ _ hst => hst
  refine ((h.agrees_utter _).mapError _).bind (fun _ => ?_) fun _ _ hst => hst
  cases reply.stop with
  | none => exact .pure ()
  | some stop => exact .throw _

theorem agrees_execute (fields : List String) :
    Agrees (Builtin.Registry.standard.execute fields) R R := by
  cases fields with
  | nil => exact .pure false
  | cons name args =>
    cases hreplies : Builtin.replies? name with
    | none =>
      rw [Builtin.Registry.execute, Builtin.replies?_eq_none.mp hreplies]
      exact .pure false
    | some replies =>
      rw [(Builtin.standard_serves hreplies args).execute_eq]
      refine (h.agrees_note _).bind (fun _ => ?_) fun _ _ hst => hst
      refine h.agrees_world.bind (fun w => ?_) fun _ _ hst => hst
      exact (h.agrees_reply name _).bind (fun _ => .pure true) fun _ _ hst => hst

-- ---------------------------------------------------------------------------
-- Programs
-- ---------------------------------------------------------------------------

theorem agrees_world_drained : Agrees (Action.world : Action ε World) R' R' := fun s t hst =>
  ⟨(h.agrees_world s t (h.weaken s t hst)).1, hst⟩

section
variable {host : Programs.Host} (hf : ∀ image, Agrees (Programs.fork host image) R' R')
  (hc : ∀ image pid, Agrees (Programs.runChild host image pid) R' R)
include hf hc

theorem agrees_spawn (image : Programs.Image) : Agrees (Programs.spawn host image) R' R :=
  (hf image).bind (fun pid => hc image pid) h.weaken

theorem agrees_launch (path : String) (argv : List String) :
    Agrees (Programs.launch host path argv) R' R := by
  refine h.agrees_world_drained.bind (fun w => ?_) h.weaken
  split
  · exact (Agrees.throw _).weaken h.weaken
  · split
    · exact (Agrees.throw _).weaken h.weaken
    · exact h.agrees_spawn hf hc _

end

theorem agrees_missing (command : String) : Agrees (Dispatcher.missing command) R R :=
  ((h.write _).mapError _).bind (fun _ => .pure _) fun _ _ hst => hst

theorem agrees_conclude (command : String) (result : Except LaunchError ChildResult) :
    Agrees (Dispatcher.conclude command result) R R := by
  unfold Dispatcher.conclude
  split
  · exact (h.agrees_note _).bind (fun _ => .pure _) fun _ _ hst => hst
  · exact ((h.write _).mapError _).bind (fun _ => .pure _) fun _ _ hst => hst
  · exact h.agrees_missing command
  · exact .throw _

theorem agrees_runProgram {d : Dispatcher}
    (hl : ∀ path argv, Agrees (d.launch path argv) R' R) (line : CommandLine) :
    Agrees (d.runProgram line) R R := by
  refine h.agrees_world.bind (fun w => ?_) fun _ _ hst => hst
  refine (h.agrees_noteAll _).bind (fun _ => ?_) fun _ _ hst => hst
  split
  · exact h.agrees_missing _
  · refine (h.flush.mapError _).bind (fun _ => ?_) h.weaken
    exact (hl _ _).attempt.bind (fun _ => h.agrees_conclude _ _) fun _ _ hst => hst

theorem agrees_dispatch {d : Dispatcher} (hl : ∀ path argv, Agrees (d.launch path argv) R' R)
    (line : CommandLine) : Agrees (d.dispatch line) R R := by
  refine (h.agrees_execute _).bind (fun ran => ?_) fun _ _ hst => hst
  split
  · exact .pure _
  · split
    · exact .pure _
    · exact (h.agrees_runProgram hl line).mapError _

end Carried

end LineShell
