import LineShell.Session

/-!
# Rules for actions

What the primitive actions do to a session, and what it means that sessions which look alike to
an action get the same result from it and look alike again afterwards. That passes through all
the ways in which actions are put together.
-/

namespace LineShell.Action

-- ---------------------------------------------------------------------------
-- What the primitive actions do
-- ---------------------------------------------------------------------------

theorem perform_write (text : String) (s : Session) :
    (write text).perform s =
      ((s.out.put (bytesOf text)).1, { s with out := (s.out.put (bytesOf text)).2 }) := rfl

theorem perform_flush (s : Session) :
    flush.perform s = (s.out.flush.1, { s with out := s.out.flush.2 }) := rfl

@[simp] theorem perform_note (event : Log.Event) (s : Session) :
    (note event : Action ε Unit).perform s = (.ok (), { s with log := s.log ++ [event] }) := rfl

@[simp] theorem perform_noteAll (events : List Log.Event) (s : Session) :
    (noteAll events : Action ε Unit).perform s = (.ok (), { s with log := s.log ++ events }) := rfl

@[simp] theorem perform_world (s : Session) :
    (world : Action ε World).perform s = (.ok s.world, s) := rfl

theorem perform_query (question : World → Except ε α) (s : Session) :
    (query question).perform s = (question s.world, s) := rfl

theorem perform_request (change : World → Except ε (α × World)) (s : Session) :
    (request change).perform s =
      match change s.world with
      | .ok (a, w) => (.ok a, { s with world := w })
      | .error e => (.error e, s) := rfl

@[simp] theorem perform_change (f : World → World) (s : Session) :
    (change f : Action ε Unit).perform s = (.ok (), { s with world := f s.world }) := rfl

theorem ext {action action' : Action ε α} (h : ∀ s, action.perform s = action'.perform s) :
    action = action' := funext h

theorem world_bind_const (action : Action ε α) : (world >>= fun _ => action) = action := rfl

theorem mapError_bind (action : Action ε α) (next : α → Action ε β) (error : ε → ε') :
    (action >>= next).mapError error =
      action.mapError error >>= fun a => (next a).mapError error := by
  apply ext
  intro s
  rw [perform_mapError, perform_bind, perform_bind, perform_mapError]
  rcases action.perform s with ⟨_ | a, s'⟩
  · rfl
  · rfl

@[simp] theorem perform_takeLine (s : Session) :
    (takeLine : Action ε (Except Failure Bytes)).perform s = (.ok s.takeLine.1, s.takeLine.2) := rfl

theorem perform_bind_of_ok {action : Action ε α} {s : Session} {a : α}
    (h : (action.perform s).1 = .ok a) (next : α → Action ε β) :
    (action >>= next).perform s = (next a).perform (action.perform s).2 :=
  perform_bind_ok (Prod.ext h rfl) next

-- ---------------------------------------------------------------------------
-- Agreeing on sessions that look alike
-- ---------------------------------------------------------------------------

/-- From sessions related by `R` the action comes to the same result, and to sessions related
by `R'`. -/
def Agrees (action : Action ε α) (R R' : Session → Session → Prop) : Prop :=
  ∀ s t, R s t → (action.perform s).1 = (action.perform t).1 ∧
    R' (action.perform s).2 (action.perform t).2

section
variable {R R' R'' : Session → Session → Prop}

theorem Agrees.pure (a : α) : Agrees (Pure.pure a : Action ε α) R R := fun _ _ h => ⟨rfl, h⟩

theorem Agrees.throw (e : ε) : Agrees (MonadExcept.throw e : Action ε α) R R :=
  fun _ _ h => ⟨rfl, h⟩

theorem Agrees.weaken {action : Action ε α} (h : Agrees action R R')
    (hw : ∀ s t, R' s t → R'' s t) : Agrees action R R'' := fun s t hst =>
  ⟨(h s t hst).1, hw _ _ (h s t hst).2⟩

/-- An error of the first part is the error of the whole, so what relates the sessions in between
has to relate them in the end. -/
theorem Agrees.bind {action : Action ε α} {next : α → Action ε β} (ha : Agrees action R R')
    (hn : ∀ a, Agrees (next a) R' R'') (hw : ∀ s t, R' s t → R'' s t) :
    Agrees (action >>= next) R R'' := by
  intro s t hst
  obtain ⟨heq, hst'⟩ := ha s t hst
  rw [perform_bind, perform_bind]
  rcases hs : action.perform s with ⟨_ | a, s'⟩
  all_goals
    rcases ht : action.perform t with ⟨_ | b, t'⟩
    all_goals
      rw [hs, ht] at heq hst'
      cases heq
  · exact ⟨rfl, hw _ _ hst'⟩
  · exact hn a _ _ hst'

theorem Agrees.attempt {action : Action ε α} (h : Agrees action R R') :
    Agrees (action.attempt : Action ε' (Except ε α)) R R' := by
  intro s t hst
  obtain ⟨heq, hst'⟩ := h s t hst
  simp only [perform_attempt, heq, true_and]
  exact hst'

theorem Agrees.mapError {action : Action ε α} (h : Agrees action R R') (error : ε → ε') :
    Agrees (action.mapError error) R R' := by
  intro s t hst
  obtain ⟨heq, hst'⟩ := h s t hst
  simp only [perform_mapError, heq, true_and]
  exact hst'

end

end LineShell.Action
