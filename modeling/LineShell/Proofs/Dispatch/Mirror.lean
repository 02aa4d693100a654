import LineShell.Proofs.Dispatch.Carried
import LineShell.Proofs.Output.Acceptance

/-!
# Buffered and straight sessions

A session on an output that never fails is mirrored by one with the same world, the same standard
input and the same contents on a straight output. Whatever a command does to the one it does to
the other, because the shell flushes before it launches a program.
-/

namespace LineShell

open LineShell.Action

/-- What there is to see of a session. -/
structure View where
  world : World
  stdin : Bytes
  forks : Nat
  children : List Programs.Child
  /-- Everything that was written, by the shell and by child processes. -/
  transcript : Bytes

def Session.view (s : Session) : View :=
  ⟨s.world, s.stdin, s.forks, s.children, s.out.contents⟩

/-- `t` shows on a straight output what `s` shows on an output that never fails. -/
structure Session.Mirrors (s t : Session) : Prop where
  view : s.view = t.view
  neverFails : s.out.NeverFails
  straight : t.out.Straight

structure Session.MirrorsDrained (s t : Session) : Prop extends Session.Mirrors s t where
  drained : s.out.pending = []

section
variable {s t : Session} (h : s.Mirrors t)
include h

theorem Session.Mirrors.world : s.world = t.world := congrArg View.world h.view

theorem Session.Mirrors.stdin : s.stdin = t.stdin := congrArg View.stdin h.view

theorem Session.Mirrors.forks : s.forks = t.forks := congrArg View.forks h.view

theorem Session.Mirrors.children : s.children = t.children := congrArg View.children h.view

theorem Session.Mirrors.contents : s.out.contents = t.out.contents :=
  congrArg View.transcript h.view

end

open Session (Mirrors MirrorsDrained)

theorem carried_mirrors : Carried Mirrors MirrorsDrained where
  world h := h.world
  setWorld w h := by
    refine ⟨?_, h.neverFails, h.straight⟩
    simp only [Session.view, h.stdin, h.forks, h.children, h.contents]
  log events h := ⟨h.view, h.neverFails, h.straight⟩
  write text := by
    intro s t h
    obtain ⟨hs, hs'⟩ := h.neverFails.put (bytesOf text)
    obtain ⟨ht, -⟩ := h.straight.neverFails.put (bytesOf text)
    simp only [perform_write, hs, ht, true_and]
    refine ⟨?_, hs', h.straight.put _⟩
    simp only [Session.view, h.world, h.stdin, h.forks, h.children, h.neverFails.contents_put,
      h.straight.neverFails.contents_put, h.contents]
  flush := by
    intro s t h
    obtain ⟨hs, hs', hp⟩ := h.neverFails.flush
    obtain ⟨ht, -, -⟩ := h.straight.neverFails.flush
    simp only [perform_flush, hs, ht, true_and]
    refine ⟨⟨?_, hs', h.straight.flush⟩, hp⟩
    simp only [Session.view, h.world, h.stdin, h.forks, h.children, Sink.contents_flush, h.contents]
  weaken _ _ h := h.toMirrors

theorem agrees_fork_mirrors (host : Programs.Host) (image : Programs.Image) :
    Agrees (Programs.fork host image) MirrorsDrained MirrorsDrained := by
  intro s t h
  unfold Programs.fork
  simp only [perform_ofStep, h.world, h.forks]
  cases host.fork t.forks t.world with
  | error errno =>
    refine ⟨rfl, ⟨?_, h.neverFails, h.straight⟩, h.drained⟩
    simp only [Session.view, h.stdin, h.children, h.contents]
  | ok pid =>
    refine ⟨rfl, ⟨?_, h.neverFails, h.straight⟩, h.drained⟩
    simp only [Session.view, h.stdin, h.children, h.contents]

/-- A child sees nothing of the output but that it can be written, and what the child writes comes
after all that the shell has written, since none of that is pending. -/
theorem agrees_runChild_mirrors (host : Programs.Host) (image : Programs.Image) (pid : Nat) :
    Agrees (Programs.runChild host image pid) MirrorsDrained Mirrors := by
  intro s t h
  have hs := h.neverFails.blocked
  have ht := h.straight.neverFails.blocked
  simp only [Programs.runChild, perform_ofStep, hs, ht, h.world, h.stdin, true_and]
  refine ⟨?_, h.neverFails.passThrough _, h.straight.passThrough _⟩
  simp only [Session.view, h.forks, h.children, h.neverFails.contents_passThrough h.drained,
    h.straight.neverFails.contents_passThrough h.straight.pending, h.contents]

theorem agrees_dispatch_mirrors {d : Dispatcher} {host : Programs.Host}
    (hd : d.launch = Programs.launch host) (line : CommandLine) :
    Agrees (d.dispatch line) Mirrors Mirrors := by
  apply carried_mirrors.agrees_dispatch
  rw [hd]
  exact carried_mirrors.agrees_launch (agrees_fork_mirrors host) (agrees_runChild_mirrors host)

-- ---------------------------------------------------------------------------
-- Twins
-- ---------------------------------------------------------------------------

structure Session.Twins (s t : Session) : Prop where
  mirrors : s.Mirrors t
  input : s.input = t.input

structure Session.TwinsDrained (s t : Session) : Prop where
  mirrors : s.MirrorsDrained t
  input : s.input = t.input

open Session (Twins TwinsDrained)

theorem carried_twins : Carried Twins TwinsDrained where
  world h := carried_mirrors.world h.mirrors
  setWorld w h := ⟨carried_mirrors.setWorld w h.mirrors, h.input⟩
  log events h := ⟨carried_mirrors.log events h.mirrors, h.input⟩
  write text s t h := by
    obtain ⟨hresult, hmirrors⟩ := carried_mirrors.write text s t h.mirrors
    exact ⟨hresult, hmirrors, h.input⟩
  flush s t h := by
    obtain ⟨hresult, hmirrors⟩ := carried_mirrors.flush s t h.mirrors
    exact ⟨hresult, hmirrors, h.input⟩
  weaken s t h := ⟨carried_mirrors.weaken s t h.mirrors, h.input⟩

theorem agrees_fork_twins (host : Programs.Host) (image : Programs.Image) :
    Agrees (Programs.fork host image) TwinsDrained TwinsDrained := by
  intro s t h
  obtain ⟨hresult, hmirrors⟩ := agrees_fork_mirrors host image s t h.mirrors
  have hinput (s : Session) : ((Programs.fork host image).perform s).2.input = s.input := by
    unfold Programs.fork
    simp only [perform_ofStep]
    cases host.fork s.forks s.world <;> rfl
  exact ⟨hresult, hmirrors, (hinput s).trans (h.input.trans (hinput t).symm)⟩

theorem agrees_dispatch_twins {d : Dispatcher} {host : Programs.Host}
    (hd : d.launch = Programs.launch host) (line : CommandLine) :
    Agrees (d.dispatch line) Twins Twins := by
  apply carried_twins.agrees_dispatch
  rw [hd]
  refine carried_twins.agrees_launch (agrees_fork_twins host) fun image pid s t h => ?_
  obtain ⟨hresult, hmirrors⟩ := agrees_runChild_mirrors host image pid s t h.mirrors
  exact ⟨hresult, hmirrors, h.input⟩

theorem agrees_takeLine_twins :
    Agrees (Action.takeLine : Action ε (Except Failure Bytes)) Twins Twins := by
  intro s t h
  have hstdin := h.mirrors.stdin
  simp only [perform_takeLine, Session.takeLine, h.input, hstdin]
  cases hi : t.input with
  | own source =>
    refine ⟨rfl, ⟨?_, h.mirrors.neverFails, h.mirrors.straight⟩, rfl⟩
    simp only [Session.view, h.mirrors.world, h.mirrors.forks, h.mirrors.children,
      h.mirrors.contents]
  | standard held =>
    refine ⟨rfl, ⟨?_, h.mirrors.neverFails, h.mirrors.straight⟩, rfl⟩
    simp only [Session.view, h.mirrors.world, h.mirrors.forks, h.mirrors.children,
      h.mirrors.contents]

def Session.straightened (s : Session) : Session := { s with out := s.out.straightened }

theorem Session.twins_straightened {s : Session} (hn : s.out.NeverFails) :
    s.Twins s.straightened where
  mirrors := by
    refine ⟨?_, hn, hn.straightened⟩
    simp only [Session.view, Session.straightened, Sink.contents_straightened]
  input := rfl

end LineShell
