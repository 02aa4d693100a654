import LineShell.Proofs.Builtin.Replies
import LineShell.Proofs.Output.Acceptance

/-!
# Performing a reply

A reply comes true in the world first and is told afterwards. Telling it touches only the output
and the record of events, so what a command makes of the world is the same on every output:
`execute_world`. What is told is a beginning of all there is to tell.
-/

namespace LineShell

open LineShell.Action

theorem Sink.admitted_of_put_ok {s s' : Sink} {bytes : Bytes} (h : s.put bytes = (.ok (), s')) :
    s.admitted bytes = bytes := by
  have haccept : (s.accept bytes).1 = .ok () := by
    rw [put] at h
    rcases ha : s.accept bytes with ⟨accepted, out⟩
    rw [ha] at h
    rcases hs : out.settle bytes with ⟨f | _, out'⟩
    · simp [hs] at h
    · simpa [hs] using congrArg Prod.fst h
  exact admitted_of_accept_ok (Prod.ext haccept rfl)

namespace Builtin

/-- All that there is to tell, line by line. -/
def spoken (remarks : List Remark) : Bytes :=
  remarks.flatMap fun
    | .line text => bytesOf (text ++ "\n")
    | .note _ => []

/-- Telling some remarks changes no more of a session than its output and its events. -/
structure TellsOnly (remarks : List Remark) (s t : Session) : Prop where
  onlyTold : t = { s with out := t.out, log := t.log }
  written : ∃ bytes, bytes <+: spoken remarks ∧ t.out.contents = s.out.contents ++ bytes

theorem tellsOnly_utter (remarks : List Remark) (s : Session) :
    TellsOnly remarks s ((utter remarks).perform s).2 := by
  induction remarks generalizing s with
  | nil => exact ⟨rfl, ⟨[], List.nil_prefix, (List.append_nil _).symm⟩⟩
  | cons remark rest ih =>
    cases remark with
    | note event =>
      rw [utter, perform_bind_of_ok rfl]
      exact ⟨(ih { s with log := s.log ++ [event] }).onlyTold, (ih _).written⟩
    | line text =>
      have hwrite : (Action.writeLine text).perform s = _ := perform_write (text ++ "\n") s
      have hcontents := s.out.contents_put (bytesOf (text ++ "\n"))
      rcases hp : s.out.put (bytesOf (text ++ "\n")) with ⟨f | _, out⟩
      · rw [hp] at hwrite hcontents
        rw [utter, perform_bind_error hwrite]
        refine ⟨rfl, ⟨_, ?_, hcontents⟩⟩
        exact (List.take_prefix _ _).trans (List.prefix_append _ (spoken rest))
      · rw [hp] at hwrite hcontents
        rw [Sink.admitted_of_put_ok hp] at hcontents
        obtain ⟨hsame, bytes, hbytes, hrestContents⟩ := ih { s with out }
        rw [utter, perform_bind_ok hwrite]
        refine ⟨hsame, ⟨bytesOf (text ++ "\n") ++ bytes, ?_, ?_⟩⟩
        · exact (List.prefix_append_right_inj _).mpr hbytes
        · rw [hrestContents, hcontents, List.append_assoc]

-- ---------------------------------------------------------------------------
-- Replies
-- ---------------------------------------------------------------------------

theorem Reply.tellsOnly_perform (name : String) (reply : Reply) (s : Session) :
    TellsOnly reply.remarks { s with world := reply.world } ((reply.perform name).perform s).2 := by
  have h := tellsOnly_utter reply.remarks { s with world := reply.world }
  rw [Reply.perform_eq]
  rcases hu : (utter reply.remarks).perform { s with world := reply.world } with ⟨f | _, t⟩
  · rwa [hu] at h
  · rw [hu] at h
    cases reply.stop with
    | none => exact h
    | some stop => exact h

/-- A command reports a failure as its own just if it has one and could tell all before it. -/
theorem Reply.stop_of_failed {name name' : String} {reply : Reply} {s : Session} {f : Failure}
    (h : ((reply.perform name).perform s).1 = .error (.refused (.builtin name' f))) :
    reply.stop = some (.refused f) := by
  rw [Reply.perform_eq] at h
  rcases hu : (utter reply.remarks).perform { s with world := reply.world } with ⟨g | _, t⟩
  · simp [hu] at h
  · rcases hs : reply.stop with _ | _ | _
    all_goals simp_all [Stop.map]

theorem Reply.stop_of_waits {name : String} {reply : Reply} {s : Session}
    (h : ((reply.perform name).perform s).1 = .error .waits) : reply.stop = some .waits := by
  rw [Reply.perform_eq] at h
  rcases hu : (utter reply.remarks).perform { s with world := reply.world } with ⟨g | _, t⟩
  · simp [hu] at h
  · rcases hs : reply.stop with _ | _ | _
    all_goals simp_all [Stop.map]

-- ---------------------------------------------------------------------------
-- Commands by name
-- ---------------------------------------------------------------------------

namespace Registry.Serves

variable {r : Registry} {name : String} {args : List String} {reply : World → Reply}
  (h : r.Serves name args reply)
include h

theorem perform_execute (s : Session) :
    (r.execute (name :: args)).perform s =
      match ((reply s.world).perform name).perform
          { s with log := s.log ++ [.running name args.length] } with
      | (.error e, t) => (.error e, t)
      | (.ok (), t) => (.ok true, t) := by
  simp only [h.execute_eq, perform_bind, perform_note, perform_world]
  rcases Action.perform _ _ with ⟨e | _, t⟩
  · rfl
  · rfl

theorem execute_ne_false (s : Session) : ((r.execute (name :: args)).perform s).1 ≠ .ok false := by
  rw [h.perform_execute]
  rcases Action.perform _ _ with ⟨e | _, t⟩
  · simp
  · simp

theorem execute_snd (s : Session) :
    ((r.execute (name :: args)).perform s).2 =
      (((reply s.world).perform name).perform
        { s with log := s.log ++ [.running name args.length] }).2 := by
  rw [h.perform_execute]
  rcases Action.perform _ _ with ⟨e | _, t⟩
  · rfl
  · rfl

theorem tellsOnly (s : Session) :
    TellsOnly (reply s.world).remarks { s with world := (reply s.world).world }
      ((r.execute (name :: args)).perform s).2 := by
  rw [h.execute_snd]
  have htold := (reply s.world).tellsOnly_perform name
    { s with log := s.log ++ [.running name args.length] }
  exact ⟨htold.onlyTold, htold.written⟩

/-- What a command makes of the world is what its reply says, whatever becomes of its words. -/
theorem execute_world (s : Session) :
    ((r.execute (name :: args)).perform s).2.world = (reply s.world).world :=
  congrArg Session.world (h.tellsOnly s).onlyTold

theorem execute_error {s : Session} {stop : Stop CommandError}
    (he : ((r.execute (name :: args)).perform s).1 = .error stop) :
    (((reply s.world).perform name).perform
      { s with log := s.log ++ [.running name args.length] }).1 = .error stop := by
  rw [h.perform_execute] at he
  rcases hp : Action.perform _ _ with ⟨e | _, t⟩
  · simpa [hp] using he
  · simp [hp] at he

end Registry.Serves

-- ---------------------------------------------------------------------------
-- Answers
-- ---------------------------------------------------------------------------

def inLines (lines : List String) : Bytes := lines.flatMap fun line => bytesOf (line ++ "\n")

/-- What a command tells, line by line, what it comes to and what it makes of the world. Only lines
need an output that takes them. -/
structure Answers (s : Session) (fields : List String) (lines : List String)
    (result : Except (Stop CommandError) Bool) (world : World) : Prop where
  world : ((Registry.standard.execute fields).perform s).2.world = world
  result : lines = [] ∨ s.out.NeverFails →
    ((Registry.standard.execute fields).perform s).1 = result
  told : lines = [] ∨ s.out.NeverFails →
    ((Registry.standard.execute fields).perform s).2.out.contents = s.out.contents ++ inLines lines
  neverFails : s.out.NeverFails →
    ((Registry.standard.execute fields).perform s).2.out.NeverFails

theorem Answers.same_lines {s : Session} {fields lines lines' : List String}
    {result result' : Except (Stop CommandError) Bool} {world world' : World}
    (h : Answers s fields lines result world) (h' : Answers s fields lines' result' world')
    (hn : s.out.NeverFails) : inLines lines = inLines lines' :=
  List.append_cancel_left ((h.told (.inr hn)).symm.trans (h'.told (.inr hn)))

theorem spoken_lines (lines : List String) : spoken (lines.map .line) = inLines lines := by
  simp [spoken, inLines, List.flatMap_map]

theorem utter_told {s : Session} {remarks : List Remark}
    (h : spoken remarks = [] ∨ s.out.NeverFails) :
    ((utter remarks).perform s).1 = .ok () ∧
      ((utter remarks).perform s).2.out.contents = s.out.contents ++ spoken remarks ∧
      (s.out.NeverFails → ((utter remarks).perform s).2.out.NeverFails) := by
  induction remarks generalizing s with
  | nil => exact ⟨rfl, (List.append_nil _).symm, id⟩
  | cons remark rest ih =>
    cases remark with
    | note event =>
      rw [utter, perform_bind_of_ok rfl]
      exact ih (s := { s with log := s.log ++ [event] }) h
    | line text =>
      have hn : s.out.NeverFails := by
        refine h.resolve_left fun hnothing => ?_
        have hfeed := (List.append_eq_nil_iff.mp hnothing).1
        simp [bytesOf, Utf8.encode] at hfeed
      have hput := hn.put (bytesOf (text ++ "\n"))
      have hwrite : (Action.writeLine text).perform s =
          (.ok (), { s with out := (s.out.put (bytesOf (text ++ "\n"))).2 }) := by
        refine (perform_write (text ++ "\n") s).trans ?_
        rw [hput.1]
      obtain ⟨hok, htold, hnever⟩ := ih (s := { s with out := (s.out.put _).2 }) (.inr hput.2)
      rw [utter, perform_bind_ok hwrite]
      refine ⟨hok, ?_, fun _ => hnever hput.2⟩
      rw [htold, hn.contents_put, List.append_assoc]
      rfl

def Reply.result (name : String) (reply : Reply) : Except (Stop CommandError) Bool :=
  reply.stop.elim (.ok true) fun stop => .error (stop.map (.builtin name))

section
variable {r : Registry} {s : Session} {name : String} {args lines : List String}
  {reply : World → Reply}

theorem Registry.Serves.execute_told (hserves : r.Serves name args reply)
    (h : spoken (reply s.world).remarks = [] ∨ s.out.NeverFails) :
    ((r.execute (name :: args)).perform s).1 = (reply s.world).result name ∧
      ((r.execute (name :: args)).perform s).2.out.contents =
        s.out.contents ++ spoken (reply s.world).remarks ∧
      (s.out.NeverFails → ((r.execute (name :: args)).perform s).2.out.NeverFails) := by
  rcases hreply : reply s.world with ⟨world, remarks, stop⟩
  rw [hreply] at h
  let noted : Session := { s with world, log := s.log ++ [.running name args.length] }
  obtain ⟨hok, htold, hnever⟩ := utter_told (s := noted) h
  have hutter : (utter remarks).perform noted = (.ok (), _) := Prod.ext hok rfl
  have hended : (r.execute (name :: args)).perform s =
      (Reply.result name ⟨world, remarks, stop⟩, ((utter remarks).perform noted).2) := by
    rw [hserves.perform_execute, hreply, Reply.perform_eq]
    simp only [noted] at hutter
    rw [hutter]
    cases stop <;> rfl
  rw [hended]
  exact ⟨rfl, htold, hnever⟩

theorem answers_of_reply {reply : Reply} {replies : Replies}
    (hreplies : replies? name = some replies) (hreply : replies (name :: args) s.world = reply)
    (hlines : spoken reply.remarks = inLines lines) :
    Answers s (name :: args) lines (reply.result name) reply.world := by
  subst hreply
  have hserves := standard_serves hreplies args
  have hsilent (hnil : lines = []) : spoken (replies (name :: args) s.world).remarks = [] := by
    rw [hlines, hnil]
    rfl
  have htold (h : lines = [] ∨ s.out.NeverFails) := hserves.execute_told (h.imp_left hsilent)
  refine ⟨hserves.execute_world s, fun h => (htold h).1, fun h => ?_, fun hn => ?_⟩
  · rw [(htold h).2.1, hlines]
  · exact (htold (.inr hn)).2.2 hn

variable {replies : Replies} {world : World} (hreplies : replies? name = some replies)
include hreplies

theorem answers_say (hreply : replies (name :: args) s.world = .say world lines) :
    Answers s (name :: args) lines (.ok true) world :=
  answers_of_reply hreplies hreply (spoken_lines lines)

theorem answers_halt {stop : Stop Failure}
    (hreply : replies (name :: args) s.world = .halt world stop) :
    Answers s (name :: args) [] (.error (stop.map (.builtin name))) world :=
  answers_of_reply hreplies hreply rfl

theorem answers_fail {failure : Failure}
    (hreply : replies (name :: args) s.world = .fail world failure) :
    Answers s (name :: args) [] (.error (.refused (.builtin name failure))) world :=
  answers_halt hreplies hreply

end

end Builtin

end LineShell
