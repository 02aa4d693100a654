import LineShell.Proofs.Builtin.Effects
import LineShell.Proofs.Dispatch.Demands

/-!
# Commands that wait for ever

Of all commands only a copy can wait: it opens its source, and a fifo that nobody writes to is
never opened. `dispatch_waits_iff`: a command waits just if it is a copy from a fifo that the user
may read to a path that leads nowhere. It has done nothing to the world by then.
-/

namespace LineShell

open LineShell.Action

/-- Obeying the line in this world takes for ever. -/
def World.WaitsOn (w : World) (line : CommandLine) : Prop :=
  ∃ source target, line.fields = ["copy", source, target] ∧ w.LeadsToFifo source ∧
    w.leadsSomewhere target = false

theorem World.waitsOn_piped : World.piped.WaitsOn ⟨"copy", ["pipe", "new"]⟩ :=
  ⟨"pipe", "new", rfl, World.leadsToFifo_pipe, World.leadsNowhere_new⟩

namespace Builtin

theorem copy_of_fifo {w : World} {source target : String} (hfifo : w.LeadsToFifo source)
    (hno : w.leadsSomewhere target = false) :
    Reply.copy ["copy", source, target] w = .halt w .waits := by
  obtain ⟨node, hnode, -⟩ := id hfifo
  have hsome : w.leadsSomewhere source = true := World.leadsSomewhere_iff.mpr ⟨node, hnode⟩
  have hcopy : Reply.copy ["copy", source, target] w =
      if !w.leadsSomewhere source then .say w ["From file does not exist"]
      else if w.leadsSomewhere target then .say w ["To file already exists"]
      else .after (w.duplicate source target) [] := rfl
  rw [hcopy, hsome, hno]
  simp [World.duplicate, World.copyFile, World.openForReading_waits_iff.mpr hfifo, Reply.after]

end Builtin

namespace Dispatcher

variable {d : Dispatcher} {line : CommandLine} {s s' : Session}

theorem dispatch_waits (h : (d.dispatch line).perform s = (.error .waits, s')) :
    s.world.WaitsOn line ∧
      s' = { s with log := s.log ++ [.running line.name line.args.length] } := by
  cases hreplies : Builtin.replies? line.name with
  | none =>
    by_cases hn : line.name = exitName
    · rw [perform_dispatch_exit hreplies hn] at h
      cases h
    · rw [perform_dispatch_external ⟨hreplies, hn⟩] at h
      have hresult := congrArg Prod.fst h
      rcases hrun : ((d.runProgram line).perform s).1 with e | outcome
      · simp [hrun] at hresult
      · simp [hrun] at hresult
  | some replies =>
    rw [perform_dispatch_builtin hreplies] at h
    split at h
    · next e t hreply =>
      cases h
      have hwaits := Builtin.Reply.stop_of_waits (congrArg Prod.fst hreply)
      have hdoes : Builtin.Does s.world line.name line.args
        (replies (line.name :: line.args) s.world) := Builtin.does_standard hreplies
      obtain ⟨hname, source, target, hargs, hfifo, hno, hhalt⟩ := hdoes.waiting hwaits
      refine ⟨⟨source, target, by rw [CommandLine.fields, hname, hargs], hfifo, hno⟩, ?_⟩
      have hfields : replies line.fields s.world = .halt s.world .waits := hhalt
      rw [hfields] at hreply
      exact (congrArg Prod.snd hreply).symm
    · cases h

theorem dispatch_waits_iff :
    ((d.dispatch line).perform s).1 = .error .waits ↔ s.world.WaitsOn line := by
  constructor
  · intro h
    exact (dispatch_waits (Prod.ext h rfl)).1
  · rintro ⟨source, target, hfields, hfifo, hno⟩
    obtain ⟨hname, -⟩ := List.cons.inj hfields
    have hreplies : Builtin.replies? line.name = some Builtin.Reply.copy := by rw [hname]; rfl
    rw [perform_dispatch_builtin hreplies, hfields, Builtin.copy_of_fifo hfifo hno]
    rfl

end Dispatcher

end LineShell
