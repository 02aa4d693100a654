import LineShell.Proofs.Dispatch.Carried
import LineShell.Proofs.Input.Arrivals
import LineShell.Proofs.Output.Acceptance

/-!
# What commands leave alone

No command touches the shell's own input or the way its output buffers, and from standard input
a command can only take. So a command never gives the shell more turns than it had.
-/

namespace LineShell

open LineShell.Action

structure Session.Keeps (s t : Session) : Prop where
  input : t.input = s.input
  stdin : t.stdin <:+ s.stdin
  buffering : t.out.buffering = s.out.buffering

theorem Session.Keeps.refl (s : Session) : s.Keeps s := ⟨rfl, List.suffix_rfl, rfl⟩

theorem Session.Keeps.turnsLeft_le {s t : Session} (h : s.Keeps t) :
    Arrival.turnsLeft t.arrivals ≤ Arrival.turnsLeft s.arrivals := by
  apply Arrival.turnsLeft_sublist
  simp only [Session.arrivals, h.input]
  cases s.input with
  | own source => exact .refl _
  | standard held => exact ((List.Sublist.refl held).append h.stdin.sublist).map _

/-- One session, with the streams that `origin` may have come to have. -/
def KeptFrom (origin s t : Session) : Prop := s = t ∧ origin.Keeps s

theorem carried_keptFrom (origin : Session) : Carried (KeptFrom origin) (KeptFrom origin) where
  world h := congrArg Session.world h.1
  setWorld w h := ⟨congrArg (fun s : Session => { s with world := w }) h.1,
    h.2.input, h.2.stdin, h.2.buffering⟩
  log events h := ⟨congrArg (fun s : Session => { s with log := s.log ++ events }) h.1,
    h.2.input, h.2.stdin, h.2.buffering⟩
  write text := by
    rintro s t ⟨rfl, h⟩
    exact ⟨rfl, rfl, h.input, h.stdin, (s.out.put_buffering _).trans h.buffering⟩
  flush := by
    rintro s t ⟨rfl, h⟩
    exact ⟨rfl, rfl, h.input, h.stdin, s.out.flush_buffering.trans h.buffering⟩
  weaken _ _ h := h

theorem agrees_fork_keptFrom (origin : Session) (host : Programs.Host) (image : Programs.Image) :
    Agrees (Programs.fork host image) (KeptFrom origin) (KeptFrom origin) := by
  rintro s t ⟨rfl, h⟩
  unfold Programs.fork
  simp only [perform_ofStep]
  cases host.fork s.forks s.world with
  | error errno => exact ⟨trivial, rfl, h.input, h.stdin, h.buffering⟩
  | ok pid => exact ⟨trivial, rfl, h.input, h.stdin, h.buffering⟩

theorem agrees_runChild_keptFrom (origin : Session) (host : Programs.Host) (image : Programs.Image)
    (pid : Nat) :
    Agrees (Programs.runChild host image pid) (KeptFrom origin) (KeptFrom origin) := by
  rintro s t ⟨rfl, h⟩
  exact ⟨rfl, rfl, h.input, (List.drop_suffix _ _).trans h.stdin,
    (s.out.passThrough_buffering _).trans h.buffering⟩

theorem agrees_dispatch_keptFrom (origin : Session) {d : Dispatcher} {host : Programs.Host}
    (hd : d.launch = Programs.launch host) (line : CommandLine) :
    Agrees (d.dispatch line) (KeptFrom origin) (KeptFrom origin) := by
  apply (carried_keptFrom origin).agrees_dispatch
  rw [hd]
  exact (carried_keptFrom origin).agrees_launch (agrees_fork_keptFrom origin host)
    (agrees_runChild_keptFrom origin host)

end LineShell
