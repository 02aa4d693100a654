import LineShell.Builtin.Registry
import LineShell.Proofs.Action.Rules

/-!
# Commands as replies

A reply says what a command makes of the world, what it has to say after that, and why it stopped,
if it did. Every command that a shell has performs such a reply, on all sessions: it has changed
the world before it writes its first line, and asks nothing of the system after the last. So what
it writes, and whether that can be written, has no part in what it does.
-/

namespace LineShell

open LineShell.Action

-- ---------------------------------------------------------------------------
-- Replies
-- ---------------------------------------------------------------------------

namespace Builtin

inductive Remark
  | line (text : String)
  | note (event : Log.Event)
deriving DecidableEq

structure Reply where
  world : World
  remarks : List Remark := []
  stop : Option (Stop Failure) := none

namespace Reply

def say (w : World) (lines : List String) : Reply := { world := w, remarks := lines.map .line }

def halt (w : World) (stop : Stop Failure) : Reply := { world := w, stop }

def fail (w : World) (failure : Failure) : Reply := .halt w (.refused failure)

/-- What there is to say after an attempt, which leaves some world. -/
def after (attempt : Except (Stop Failure) Unit × World) (remarks : List Remark) : Reply :=
  match attempt with
  | (.ok (), w) => { world := w, remarks }
  | (.error stop, w) => .halt w stop

/-- What there is to say about an answer. -/
def about (w : World) (answer : Except Failure α) (lines : α → List String) : Reply :=
  match answer with
  | .ok a => .say w (lines a)
  | .error f => .fail w f

end Reply

/-- Writes and notes remarks in order, up to the first line that cannot be written. -/
def utter : List Remark → Action Failure Unit
  | [] => pure ()
  | .line text :: rest => do
    Action.writeLine text
    utter rest
  | .note event :: rest => do
    Action.note event
    utter rest

def tell (remarks : List Remark) : Action (Stop CommandError) Unit :=
  (utter remarks).mapError fun failure => .refused (.output failure)

def Reply.perform (name : String) (reply : Reply) : Action (Stop CommandError) Unit := do
  Action.change fun _ => reply.world
  tell reply.remarks
  match reply.stop with
  | some stop => throw (stop.map (.builtin name))
  | none => pure ()

abbrev Replies := List String → World → Reply

/-- On every session the action performs the reply to the world it finds. -/
def Performs (name : String) (action : Action (Stop CommandError) Unit) (reply : World → Reply) :
    Prop :=
  ∀ s, action.perform s = ((reply s.world).perform name).perform s

theorem Reply.perform_eq (name : String) (reply : Reply) (s : Session) :
    (reply.perform name).perform s =
      match (utter reply.remarks).perform { s with world := reply.world } with
      | (.error f, s') => (.error (.refused (.output f)), s')
      | (.ok (), s') =>
        match reply.stop with
        | some stop => (.error (stop.map (.builtin name)), s')
        | none => (.ok (), s') := by
  rw [Reply.perform, perform_bind_ok (perform_change _ s), perform_bind, tell, perform_mapError]
  rcases hu : (utter reply.remarks).perform { s with world := reply.world } with ⟨f | _, s'⟩
  · rfl
  · cases reply.stop <;> rfl

end Builtin

-- ---------------------------------------------------------------------------
-- Requests
-- ---------------------------------------------------------------------------

/-- The action asks the system for changes of the world and does nothing else. -/
def Action.Asks (action : Action ε α) (attempt : World → Except ε α × World) : Prop :=
  ∀ s, action.perform s = ((attempt s.world).1, { s with world := (attempt s.world).2 })

namespace World

/-- The world after a request that is granted or refused as a whole. -/
def tried (w : World) (attempt : Except Failure World) : Except (Stop Failure) Unit × World :=
  match attempt with
  | .ok w' => (.ok (), w')
  | .error f => (.error (.refused f), w)

def copyFile (w : World) (source target : String) : Except (Stop Failure) Unit × World :=
  match w.openForReading source with
  | .error stop => (.error stop, w)
  | .ok reader =>
    match w.fileMode reader with
    | .error stop => (.error stop, w)
    | .ok mode =>
      match w.create target mode with
      | .error stop => (.error stop, w)
      | .ok (writer, made) => (.ok (), (made.setMode writer mode).transfer reader writer)

def copyTime (w : World) (source target : String) : Except (Stop Failure) Unit × World :=
  match w.stat source with
  | .error f => (.error (.refused f), w)
  | .ok node =>
    match w.openForWriting target with
    | .error stop => (.error stop, w)
    | .ok writer => (.ok (), w.setTime writer node.modified)

/-- A copy in two parts. What the first one has made stays if the second one fails. -/
def duplicate (w : World) (source target : String) : Except (Stop Failure) Unit × World :=
  match w.copyFile source target with
  | (.error stop, w) => (.error stop, w)
  | (.ok (), w) => w.copyTime source target

end World

namespace Builtin

theorem asks_request (attempt : World → Except Failure World) :
    (Action.request fun w => ((attempt w).mapError Stop.refused).map fun w => ((), w)).Asks
      fun w => w.tried (attempt w) := by
  intro s
  rw [perform_request]
  cases h : attempt s.world with
  | error f => simp [h, World.tried, Except.map]
  | ok w => simp [h, World.tried, Except.map]

theorem asks_copyFile (source target : String) :
    (copyFile source target).Asks (·.copyFile source target) := by
  intro s
  simp only [World.copyFile]
  rw [copyFile, perform_bind, perform_query]
  cases hreader : s.world.openForReading source with
  | error stop => rfl
  | ok reader =>
    dsimp only
    rw [perform_bind, perform_query]
    cases hmode : s.world.fileMode reader with
    | error stop => rfl
    | ok mode =>
      dsimp only
      rw [perform_bind, perform_request]
      cases hwriter : s.world.create target mode with
      | error stop => rfl
      | ok made => rfl

theorem asks_copyPreservingTimes (source target : String) :
    (copyPreservingTimes source target).Asks (·.duplicate source target) := by
  intro s
  have hcopy := asks_copyFile source target s
  simp only [World.duplicate]
  rcases hmade : s.world.copyFile source target with ⟨stop | _, w⟩
  all_goals
    simp only [hmade] at hcopy
  · exact perform_bind_error hcopy _
  · rw [copyPreservingTimes, perform_bind_ok hcopy, perform_bind, perform_query]
    simp only [World.copyTime]
    cases hnode : w.stat source with
    | error f => rfl
    | ok node =>
      simp only [mapError_ok]
      rw [perform_bind, perform_query]
      cases hwriter : w.openForWriting target with
      | error stop => rfl
      | ok writer => rfl

-- ---------------------------------------------------------------------------
-- The parts of commands
-- ---------------------------------------------------------------------------

theorem tell_nil : tell [] = pure () := rfl

theorem tell_line (text : String) (rest : List Remark) :
    tell (.line text :: rest) = say text >>= fun _ => tell rest := mapError_bind _ _ _

theorem tell_note (event : Log.Event) (rest : List Remark) :
    tell (.note event :: rest) = Action.note event >>= fun _ => tell rest := mapError_bind _ _ _

theorem tell_append (first second : List Remark) :
    tell (first ++ second) = tell first >>= fun _ => tell second := by
  induction first with
  | nil => simp [tell_nil]
  | cons remark rest ih =>
    cases remark with
    | line text => simp only [List.cons_append, tell_line, ih, bind_assoc]
    | note event => simp only [List.cons_append, tell_note, ih, bind_assoc]

theorem say_eq_tell (text : String) : say text = tell [.line text] := by
  simp [tell_line, tell_nil]

theorem note_eq_tell (event : Log.Event) : Action.note event = tell [.note event] := by
  simp [tell_note, tell_nil]

theorem sayAll_eq_tell (lines : List String) : sayAll lines = tell (lines.map .line) := by
  induction lines with
  | nil => rfl
  | cons text rest ih => rw [sayAll, ih, List.map_cons, tell_line]

section
variable {name : String}

theorem performs_tell (name : String) (remarks : World → List Remark) :
    Performs name (Action.world >>= fun w => tell (remarks w))
      fun w => { world := w, remarks := remarks w } := by
  intro s
  rw [perform_bind_ok (perform_world s), Reply.perform, perform_bind_ok (perform_change _ s)]
  simp

theorem performs_asking (name : String) {requests : Action (Stop Failure) Unit}
    {attempt : World → Except (Stop Failure) Unit × World} (h : requests.Asks attempt)
    (remarks : List Remark) :
    Performs name (asking name requests >>= fun _ => tell remarks)
      fun w => .after (attempt w) remarks := by
  intro s
  have hasked : (asking name requests).perform s = _ := perform_mapError requests _ s
  rw [h s] at hasked
  rcases hw : attempt s.world with ⟨stop | _, w⟩
  all_goals
    simp only [hw, mapError_ok, mapError_error] at hasked
    simp only [hw, Reply.after]
  · rw [perform_bind_error hasked]
    rfl
  · rw [perform_bind_ok hasked, Reply.perform, perform_bind_ok (perform_change _ s)]
    simp

theorem performs_asked (name : String) (question : World → Except Failure α)
    (lines : World → α → List String) :
    Performs name
      (asking name (Action.query fun w => (question w).mapError Stop.refused) >>= fun a =>
        Action.world >>= fun w => sayAll (lines w a))
      fun w => .about w (question w) (lines w) := by
  intro s
  have hasked : (asking name (Action.query fun w => (question w).mapError Stop.refused)).perform s =
      (((question s.world).mapError Stop.refused).mapError (·.map (.builtin name)), s) := rfl
  cases h : question s.world with
  | error f =>
    rw [h] at hasked
    simp only [h]
    rw [perform_bind_error hasked]
    rfl
  | ok a =>
    rw [h] at hasked
    simp only [h]
    rw [perform_bind_ok hasked]
    simp only [sayAll_eq_tell]
    exact performs_tell name (fun w => (lines w a).map .line) s

theorem performs_say (w : World) (text : String) {s : Session} (hw : s.world = w) :
    (say text).perform s = ((Reply.say w [text]).perform name).perform s := by
  subst hw
  rw [say_eq_tell]
  exact performs_tell name (fun _ => [.line text]) s

end

-- ---------------------------------------------------------------------------
-- The replies of commands
-- ---------------------------------------------------------------------------

namespace Reply

def gated (expected : Nat) (body : List String → World → Reply) : Replies := fun fields w =>
  match arityComplaint fields expected with
  | some complaint => .say w [complaint]
  | none => body fields.tail w

def nullary (body : World → Reply) : Replies := gated 0 fun _ => body

def unary (body : String → World → Reply) : Replies :=
  gated 1 fun
    | [argument], w => body argument w
    | _, w => .say w []

def binary (body : String → String → World → Reply) : Replies :=
  gated 2 fun
    | [first, second], w => body first second w
    | _, w => .say w []

def filesBy (read : World → Reading) : Replies :=
  nullary fun w => .about w (read w).names fun names => (inOrder names).map (listingLine w)

def files : Replies := filesBy World.reading

def detailRemarks (w : World) (path : String) : Except Failure Files.Node → List Remark
  | .ok node => [.line ("Owner: " ++ w.ownerName node.owner),
      .line ("Last Edited: " ++ w.clock.localText node.modified.seconds)]
  | .error f => [.note (.statFailed path f), .line ("Cannot stat " ++ path ++ ": " ++ f.message)]

def info : Replies := unary fun path w =>
  { world := w
    remarks := (kindLines w path (w.stat path)).map .line ++ detailRemarks w path (w.stat path) }

def delete : Replies := unary fun path w =>
  if w.leadsSomewhere path then .after (w.tried (w.remove path)) [.line "Successfully deleted"]
  else .say w ["File does not exist"]

def copy : Replies := binary fun source target w =>
  if !w.leadsSomewhere source then .say w ["From file does not exist"]
  else if w.leadsSomewhere target then .say w ["To file already exists"]
  else .after (w.duplicate source target) []

def whereAmI : Replies := nullary fun w => .about w w.currentPath fun path => [shown path]

def enter (w : World) (path : String) (remarks : List Remark) : Reply :=
  .after (w.tried (w.enter path)) remarks

def down : Replies := fun fields w =>
  match fields.tail with
  | [] => .say w (arityComplaint fields 1).toList
  | args =>
    let path := String.intercalate " " args
    if w.isDirectory path then enter w path [.note (.entered path)]
    else .say w ["Error directory does not exist"]

def up : Replies := nullary fun w => enter w ".." []

end Reply

section
variable {name : String} {expected : Nat} {fields : List String}

theorem performs_gated {body : List String → Action (Stop CommandError) Unit}
    {reply : List String → World → Reply}
    (h : fields.tail.length = expected → Performs name (body fields.tail) (reply fields.tail)) :
    Performs name (gated expected body fields) (Reply.gated expected reply fields) := by
  intro s
  unfold gated checkArguments Reply.gated
  cases hc : arityComplaint fields expected with
  | some complaint =>
    have hsay := performs_tell name (fun _ => [.line complaint]) s
    rw [perform_bind_ok (perform_world s), ← say_eq_tell] at hsay
    simpa [Reply.say] using hsay
  | none =>
    have hlength : fields.tail.length = expected := by
      rw [← arityComplaint_eq_none.mp hc, given, List.length_tail]
    simpa using h hlength s

theorem performs_nullary {body : Action (Stop CommandError) Unit} {reply : World → Reply}
    (h : Performs name body reply) :
    Performs name (nullary body fields) (Reply.nullary reply fields) := performs_gated fun _ => h

theorem performs_unary {body : String → Action (Stop CommandError) Unit}
    {reply : String → World → Reply}
    (h : ∀ argument, Performs name (body argument) (reply argument)) :
    Performs name (unary body fields) (Reply.unary reply fields) := by
  refine performs_gated fun hlength => ?_
  obtain ⟨argument, hargument⟩ := List.length_eq_one_iff.mp hlength
  rw [hargument]
  exact h argument

theorem performs_binary {body : String → String → Action (Stop CommandError) Unit}
    {reply : String → String → World → Reply}
    (h : ∀ first second, Performs name (body first second) (reply first second)) :
    Performs name (binary body fields) (Reply.binary reply fields) := by
  refine performs_gated fun hlength => ?_
  match hargs : fields.tail, hlength with
  | [first, second], _ => exact h first second

end

-- ---------------------------------------------------------------------------
-- The commands perform them
-- ---------------------------------------------------------------------------

theorem performs_filesBy (read : World → Reading) (fields : List String) :
    Performs "files" (filesBy read fields) (Reply.filesBy read fields) :=
  performs_nullary (performs_asked "files" (fun w => (read w).names) fun w names =>
    (inOrder names).map (listingLine w))

theorem performs_info (fields : List String) :
    Performs "info" (info fields) (Reply.info fields) := by
  refine performs_unary fun path s => ?_
  have htell := performs_tell "info" (fun w => (kindLines w path (w.stat path)).map .line ++
    Reply.detailRemarks w path (w.stat path)) s
  rw [perform_bind_ok (perform_world s)] at htell ⊢
  rw [← htell, tell_append, ← sayAll_eq_tell]
  cases hfound : s.world.stat path with
  | ok node => simp only [Reply.detailRemarks, tell_line, tell_nil, bind_pure_unit]
  | error f => simp only [Reply.detailRemarks, tell_note, tell_line, tell_nil, bind_pure_unit]

theorem performs_delete (fields : List String) :
    Performs "delete" (delete fields) (Reply.delete fields) := by
  refine performs_unary fun path s => ?_
  rw [perform_bind_ok (perform_world s)]
  split
  · rw [say_eq_tell]
    exact performs_asking "delete" (asks_request (·.remove path)) _ s
  · exact performs_say s.world _ rfl

theorem performs_copy (fields : List String) :
    Performs "copy" (copy fields) (Reply.copy fields) := by
  refine performs_binary fun source target s => ?_
  rw [perform_bind_ok (perform_world s)]
  split
  · exact performs_say s.world _ rfl
  split
  · exact performs_say s.world _ rfl
  · have h := performs_asking "copy" (asks_copyPreservingTimes source target) [] s
    simpa only [tell_nil, bind_pure_unit] using h

theorem performs_whereAmI (fields : List String) :
    Performs "where" (whereAmI fields) (Reply.whereAmI fields) := by
  refine performs_nullary ?_
  have h := performs_asked "where" (·.currentPath) fun _ path => [shown path]
  simpa only [world_bind_const, sayAll, bind_pure_unit] using h

theorem performs_enter (name path : String) (remarks : List Remark) :
    Performs name (enter name path >>= fun _ => tell remarks) fun w => .enter w path remarks :=
  performs_asking name (asks_request (·.enter path)) remarks

theorem performs_down (fields : List String) :
    Performs "down" (down fields) (Reply.down fields) := by
  intro s
  unfold down Reply.down
  cases fields.tail with
  | nil =>
    unfold checkArguments
    cases arityComplaint fields 1 with
    | some complaint => simpa [Reply.say] using performs_say s.world complaint rfl
    | none => rfl
  | cons first rest =>
    dsimp only
    rw [perform_bind_ok (perform_world s)]
    split
    · rw [note_eq_tell]
      exact performs_enter "down" _ _ s
    · exact performs_say s.world _ rfl

theorem performs_up (fields : List String) : Performs "up" (up fields) (Reply.up fields) := by
  refine performs_nullary ?_
  have h := performs_enter "up" ".." []
  simpa only [tell_nil, bind_pure_unit] using h

-- ---------------------------------------------------------------------------
-- Commands by name
-- ---------------------------------------------------------------------------

def standardReplies : List (String × Replies) := [
  ("copy", Reply.copy), ("delete", Reply.delete), ("down", Reply.down), ("files", Reply.files),
  ("info", Reply.info), ("up", Reply.up), ("where", Reply.whereAmI)]

def replies? (name : String) : Option Replies :=
  (standardReplies.find? (·.1 = name)).map (·.2)

theorem standard_commands : Registry.standard.commands = [
    ("copy", copy), ("delete", delete), ("down", down), ("files", files), ("info", info),
    ("up", up), ("where", whereAmI)] := rfl

theorem standard_cases {name : String} {command : Command}
    (h : Registry.standard.find? name = some command) :
    name = "copy" ∧ command = copy ∨ name = "delete" ∧ command = delete ∨
      name = "down" ∧ command = down ∨ name = "files" ∧ command = files ∨
      name = "info" ∧ command = info ∨ name = "up" ∧ command = up ∨
      name = "where" ∧ command = whereAmI := by
  have hmem := Registry.mem_of_find? h
  simpa only [standard_commands, List.mem_cons, Prod.mk.injEq, List.not_mem_nil,
    or_false] using hmem

theorem standard_performs {name : String} {command : Command}
    (h : Registry.standard.find? name = some command) :
    ∃ replies, replies? name = some replies ∧
      ∀ fields, Performs name (command fields) (replies fields) := by
  obtain ⟨rfl, rfl⟩ | ⟨rfl, rfl⟩ | ⟨rfl, rfl⟩ | ⟨rfl, rfl⟩ | ⟨rfl, rfl⟩ | ⟨rfl, rfl⟩ | ⟨rfl, rfl⟩ :=
    standard_cases h
  · exact ⟨_, rfl, performs_copy⟩
  · exact ⟨_, rfl, performs_delete⟩
  · exact ⟨_, rfl, performs_down⟩
  · exact ⟨_, rfl, performs_filesBy _⟩
  · exact ⟨_, rfl, performs_info⟩
  · exact ⟨_, rfl, performs_up⟩
  · exact ⟨_, rfl, performs_whereAmI⟩

theorem replies?_eq_none {name : String} :
    replies? name = none ↔ Registry.standard.find? name = none := by
  have hreplies : (replies? name).isSome ↔ name ∈ standardReplies.map (·.1) := by simp [replies?]
  have hcommands := Registry.contains_iff .standard name
  rw [← Option.not_isSome_iff_eq_none, ← Option.not_isSome_iff_eq_none, hreplies]
  exact not_congr hcommands.symm

theorem replies?_cases {name : String} {replies : Replies} (h : replies? name = some replies) :
    name = "copy" ∧ replies = Reply.copy ∨ name = "delete" ∧ replies = Reply.delete ∨
      name = "down" ∧ replies = Reply.down ∨ name = "files" ∧ replies = Reply.files ∨
      name = "info" ∧ replies = Reply.info ∨ name = "up" ∧ replies = Reply.up ∨
      name = "where" ∧ replies = Reply.whereAmI := by
  obtain ⟨entry, hentry, rfl⟩ := Option.map_eq_some_iff.mp h
  obtain rfl : entry.1 = name := by simpa using List.find?_some hentry
  have hmem := List.mem_of_find?_eq_some hentry
  simp only [standardReplies, List.mem_cons, List.not_mem_nil, or_false] at hmem
  obtain rfl | rfl | rfl | rfl | rfl | rfl | rfl := hmem
  all_goals simp

-- ---------------------------------------------------------------------------
-- Executing commands
-- ---------------------------------------------------------------------------

def Registry.Serves (r : Registry) (name : String) (args : List String) (reply : World → Reply) :
    Prop :=
  ∃ command, r.find? name = some command ∧ Performs name (command (name :: args)) reply

theorem Registry.Serves.execute_eq {r : Registry} {name : String} {args : List String}
    {reply : World → Reply} (h : r.Serves name args reply) :
    r.execute (name :: args) = do
      Action.note (.running name args.length)
      let w ← Action.world
      (reply w).perform name
      return true := by
  obtain ⟨command, hfind, hperforms⟩ := h
  apply Action.ext
  intro s
  rw [Registry.execute, hfind]
  simp only [perform_bind, perform_note, perform_world, hperforms _]

theorem standard_serves {name : String} {replies : Replies} (h : replies? name = some replies)
    (args : List String) : Registry.standard.Serves name args (replies (name :: args)) := by
  cases hfind : Registry.standard.find? name with
  | none => simp [replies?_eq_none.mpr hfind] at h
  | some command =>
    obtain ⟨replies', hreplies, hperforms⟩ := standard_performs hfind
    obtain rfl := Option.some.inj (h.symm.trans hreplies)
    exact ⟨command, hfind, hperforms (name :: args)⟩

end Builtin

end LineShell
