import LineShell.Proofs.Builtin.Duplicating
import LineShell.Proofs.Builtin.Performance

/-!
# What built-in commands do to the world

Two commands move the shell, one takes away an entry and one adds a file; the others change
nothing. `builtins_frame`: no command does more than that, on any tree and with any output, and a
command that says why it does nothing, or fails, has left the world as it was.
-/

namespace LineShell

-- ---------------------------------------------------------------------------
-- Operations on the world
-- ---------------------------------------------------------------------------

namespace World

variable {w w' : World} {path source target : String}

theorem enter_ok (h : w.enter path = .ok w') :
    ∃ cwd, w' = { w with cwd } ∧ (w.files.directory? cwd).isSome := by
  unfold enter at h
  split at h
  · cases h
  split at h
  · cases h
  next hdir =>
  split at h
  · cases h
  · cases h
    exact ⟨_, rfl, by simpa [Option.isSome_iff_ne_none] using hdir⟩

theorem remove_ok (h : w.remove path = .ok w') :
    ∃ files parent entry, w' = { w with files } ∧
      w.files.NamesEntry w.user w.cwd (bytesOf path) parent entry ∧
      w.files.DropsEntry files parent entry := by
  unfold remove pathBytes at h
  split at h
  · cases h
  · next bytes hbytes =>
    split at hbytes
    · cases hbytes
    cases hbytes
    cases hu : w.files.unlink w.user w.cwd (bytesOf path) w.now with
    | error e =>
      rw [hu] at h
      cases h
    | ok files =>
      rw [hu] at h
      cases h
      obtain ⟨parent, entry, hnames, hdrops⟩ := Files.FileTree.unlink_ok hu
      exact ⟨files, parent, entry, rfl, hnames, hdrops⟩

end World

namespace Builtin

open LineShell.Action
open Files (FileTree)

-- ---------------------------------------------------------------------------
-- Replies of the single commands
-- ---------------------------------------------------------------------------

/-- Replies that change nothing, and the three ways in which a reply may change the world. -/
inductive Does (w : World) : String → List String → Reply → Prop
  | nothing {name : String} {args : List String} {reply : Reply} : reply.world = w →
      reply.stop ≠ some .waits → Does w name args reply
  | waits {source target : String} : w.LeadsToFifo source → w.leadsSomewhere target = false →
      Does w "copy" [source, target] (.halt w .waits)
  | moves {name : String} {args : List String} {cwd : Files.NodeId} {remarks : List Remark} :
      name = "down" ∨ name = "up" → (w.files.directory? cwd).isSome → spoken remarks = [] →
      Does w name args { world := { w with cwd }, remarks }
  | deletes {path : String} {files : FileTree} {parent : Files.NodeId} {entry : Files.Name} :
      w.files.NamesEntry w.user w.cwd (bytesOf path) parent entry →
      w.files.DropsEntry files parent entry →
      Does w "delete" [path] (.say { w with files } ["Successfully deleted"])
  /-- A copy whose time could not be set stays. -/
  | copies {source target : String} {files : FileTree} {parent : Files.NodeId}
      {entry : Files.Name} {stop : Option (Stop Failure)} : w.files.AddsFile files parent entry →
      stop = none ∨ stop = some (.refused (.system .denied)) ∧ ¬ w.MaySetTime source →
      Does w "copy" [source, target] { world := { w with files }, stop }

section Gates

variable {P : Reply → Prop} {fields : List String} {w : World}

theorem gated_holds {expected : Nat} {body : List String → World → Reply}
    (hsay : ∀ lines, P (.say w lines)) (hbody : P (body fields.tail w)) :
    P (Reply.gated expected body fields w) := by
  unfold Reply.gated
  split
  · exact hsay _
  · exact hbody

theorem nullary_holds {body : World → Reply} (hsay : ∀ lines, P (.say w lines))
    (hbody : P (body w)) : P (Reply.nullary body fields w) := gated_holds hsay hbody

theorem unary_holds {body : String → World → Reply} (hsay : ∀ lines, P (.say w lines))
    (hbody : ∀ argument, fields.tail = [argument] → P (body argument w)) :
    P (Reply.unary body fields w) := by
  refine gated_holds hsay ?_
  split
  · next argument hargs => exact hbody argument hargs
  · exact hsay []

theorem binary_holds {body : String → String → World → Reply} (hsay : ∀ lines, P (.say w lines))
    (hbody : ∀ first second, fields.tail = [first, second] → P (body first second w)) :
    P (Reply.binary body fields w) := by
  refine gated_holds hsay ?_
  split
  · next first second hargs => exact hbody first second hargs
  · exact hsay []

end Gates

section Commands

variable {w : World} {name : String} {args : List String}

theorem does_say (lines : List String) : Does w name args (.say w lines) := .nothing rfl nofun

theorem does_fail (failure : Failure) : Does w name args (.fail w failure) := .nothing rfl nofun

theorem does_about {α : Type} (answer : Except Failure α) (lines : α → List String) :
    Does w name args (.about w answer lines) := by
  cases answer with
  | ok a => exact does_say _
  | error f => exact does_fail _

theorem does_filesBy (read : World → Reading) :
    Does w name args (Reply.filesBy read (name :: args) w) := by
  refine nullary_holds does_say ?_
  exact does_about _ _

theorem does_enter {path : String} {remarks : List Remark} (hname : name = "down" ∨ name = "up")
    (hspoken : spoken remarks = []) : Does w name args (.enter w path remarks) := by
  unfold Reply.enter World.tried
  cases henter : w.enter path with
  | ok w' =>
    obtain ⟨cwd, rfl, hcwd⟩ := World.enter_ok henter
    exact .moves hname hcwd hspoken
  | error f => exact does_fail _

theorem does_down : Does w "down" args (Reply.down ("down" :: args) w) := by
  unfold Reply.down
  split
  · exact does_say _
  · dsimp only
    split
    · exact does_enter (.inl rfl) rfl
    · exact does_say _

theorem does_delete : Does w "delete" args (Reply.delete ("delete" :: args) w) := by
  refine unary_holds does_say fun path hargs => ?_
  obtain rfl : args = [path] := hargs
  split
  · unfold World.tried
    cases hremove : w.remove path with
    | ok w' =>
      obtain ⟨files, parent, entry, rfl, hnames, hdrops⟩ := World.remove_ok hremove
      exact .deletes hnames hdrops
    | error f => exact does_fail _
  · exact does_say _

theorem does_duplicate {source target : String} (hno : w.leadsSomewhere target = false) :
    Does w "copy" [source, target] (.after (w.duplicate source target) []) := by
  rcases World.duplicate_cases source hno with
    ⟨stop, hstop⟩ | ⟨node, bytes, parent, name, hsource, hfile, hread, hroom⟩
  · rw [hstop]
    cases stop with
    | refused f => exact does_fail f
    | waits => exact .waits ((World.duplicate_waits_iff hno).mp (congrArg Prod.fst hstop)) hno
  · by_cases hmay : w.MaySetTime source
    · obtain ⟨w', hdone, hmakes⟩ := World.duplicate_timed hsource hfile hread hroom hmay
      rw [hdone, hmakes.onlyFiles]
      exact .copies hmakes.adds (.inl rfl)
    · obtain ⟨made, hdone, hmakes⟩ := World.duplicate_untimed hsource hfile hread hroom hmay
      rw [hdone, hmakes.onlyFiles]
      exact .copies hmakes.adds (.inr ⟨rfl, hmay⟩)

theorem does_copy : Does w "copy" args (Reply.copy ("copy" :: args) w) := by
  refine binary_holds does_say fun source target hargs => ?_
  obtain rfl : args = [source, target] := hargs
  split
  · exact does_say _
  split
  · exact does_say _
  next hno => exact does_duplicate (Bool.eq_false_iff.mpr hno)

theorem does_standard {replies : Replies} (h : replies? name = some replies) :
    Does w name args (replies (name :: args) w) := by
  obtain ⟨rfl, rfl⟩ | ⟨rfl, rfl⟩ | ⟨rfl, rfl⟩ | ⟨rfl, rfl⟩ | ⟨rfl, rfl⟩ | ⟨rfl, rfl⟩ | ⟨rfl, rfl⟩ :=
    replies?_cases h
  · exact does_copy
  · exact does_delete
  · exact does_down
  · exact does_filesBy World.reading
  · exact unary_holds does_say fun path _ => .nothing rfl nofun
  · exact nullary_holds does_say (does_enter (.inr rfl) rfl)
  · refine nullary_holds does_say ?_
    exact does_about _ _

end Commands

-- ---------------------------------------------------------------------------
-- Words of refusal
-- ---------------------------------------------------------------------------

inductive Refusal (fields : List String) : String → Prop
  | arity {expected : Nat} {complaint : String} : arityComplaint fields expected = some complaint →
      Refusal fields complaint
  | noFile : Refusal fields "File does not exist"
  | noSource : Refusal fields "From file does not exist"
  | targetTaken : Refusal fields "To file already exists"
  | noDirectory : Refusal fields "Error directory does not exist"

theorem head?_bytesOf {a : String} {first : UInt8} (h : (bytesOf a).head? = some first)
    (b : String) : (bytesOf (a ++ b)).head? = some first := by
  rw [bytesOf_append, List.head?_append, h, Option.some_or]

theorem arityComplaint_begins {fields : List String} {expected : Nat} {complaint : String}
    (h : arityComplaint fields expected = some complaint) :
    ∃ rest, complaint = "Unexpected argument " ++ rest ∨
      complaint = "Missing argument for command " ++ rest := by
  simp only [arityComplaint] at h
  split at h
  · cases h
    exact ⟨_, .inl (by simp only [String.append_assoc]; rfl)⟩
  · split at h
    · cases h
      exact ⟨_, .inr rfl⟩
    · cases h

variable {fields : List String} {message : String}

theorem Refusal.head (h : Refusal fields message) :
    (bytesOf (message ++ "\n")).head? ≠ (bytesOf "Successfully deleted\n").head? := by
  cases h with
  | arity hc =>
    obtain ⟨rest, rfl | rfl⟩ := arityComplaint_begins hc
    · have hfirst : (bytesOf "Unexpected argument ").head? = some 0x55 := rfl
      rw [head?_bytesOf (head?_bytesOf hfirst rest)]
      decide +kernel
    · have hfirst : (bytesOf "Missing argument for command ").head? = some 0x4D := rfl
      rw [head?_bytesOf (head?_bytesOf hfirst rest)]
      decide +kernel
  | noFile | noSource | targetTaken | noDirectory => decide +kernel

theorem Refusal.not_success (h : Refusal fields message) {bytes : Bytes} (hne : bytes ≠ [])
    (hm : bytes <+: bytesOf (message ++ "\n")) :
    ¬ bytes <+: bytesOf "Successfully deleted\n" := by
  intro hs
  obtain ⟨b, rest, rfl⟩ := List.exists_cons_of_ne_nil hne
  obtain ⟨more, hmore⟩ := hm
  obtain ⟨more', hmore'⟩ := hs
  apply h.head
  rw [← hmore, ← hmore']
  rfl

section

variable {w : World} {name : String} {args : List String} {reply : Reply}

theorem Does.failed (h : Does w name args reply) {f : Failure}
    (hf : reply.stop = some (.refused f))
    (hmay : name = "copy" → ∀ source ∈ args.head?, w.MaySetTime source) : reply.world = w := by
  cases h with
  | nothing hw _ => exact hw
  | waits _ _ => rfl
  | moves _ _ _ | deletes _ _ => cases hf
  | copies _ hstop =>
    rcases hstop with rfl | ⟨-, hdenied⟩
    · cases hf
    · exact absurd (hmay rfl _ rfl) hdenied

theorem Does.waiting (h : Does w name args reply) (hw : reply.stop = some .waits) :
    name = "copy" ∧ ∃ source target, args = [source, target] ∧ w.LeadsToFifo source ∧
      w.leadsSomewhere target = false ∧ reply = .halt w .waits := by
  cases h with
  | nothing _ hno => exact absurd hw hno
  | waits hfifo hno => exact ⟨rfl, _, _, rfl, hfifo, hno, rfl⟩
  | moves _ _ _ | deletes _ _ => cases hw
  | copies _ hstop => rcases hstop with rfl | ⟨rfl, -⟩ <;> cases hw

theorem Does.still (h : Does w name args reply) (hname : name ∈ ["files", "info", "where"]) :
    reply.world = w := by
  cases h with
  | nothing hw _ => exact hw
  | waits _ _ => rfl
  | moves hmoves _ _ => obtain rfl | rfl := hmoves <;> simp at hname
  | deletes _ _ | copies _ _ => simp at hname

theorem Does.moved (h : Does w name args reply) (hname : name ∈ ["down", "up"]) :
    reply.world = { w with cwd := reply.world.cwd } := by
  cases h with
  | nothing hw _ => rw [hw]
  | waits _ _ => rfl
  | moves _ _ _ => rfl
  | deletes _ _ | copies _ _ => simp at hname

theorem Does.deleted (h : Does w name args reply) (hname : name = "delete") :
    reply.world = w ∨ ∃ path files parent entry, args = [path] ∧ reply.world = { w with files } ∧
      w.files.NamesEntry w.user w.cwd (bytesOf path) parent entry ∧
      w.files.DropsEntry files parent entry := by
  cases h with
  | nothing hw _ => exact .inl hw
  | waits _ _ => exact .inl rfl
  | moves hmoves _ _ => simp [hname] at hmoves
  | copies _ _ => simp at hname
  | deletes hnames hdrops => exact .inr ⟨_, _, _, _, rfl, rfl, hnames, hdrops⟩

theorem Does.copied (h : Does w name args reply) (hname : name = "copy") :
    reply.world = w ∨ ∃ source target files parent entry, args = [source, target] ∧
      reply.world = { w with files } ∧ w.files.AddsFile files parent entry := by
  cases h with
  | nothing hw _ => exact .inl hw
  | waits _ _ => exact .inl rfl
  | moves hmoves _ _ => simp [hname] at hmoves
  | deletes _ _ => simp at hname
  | copies hadds _ => exact .inr ⟨_, _, _, _, _, rfl, rfl, hadds⟩

theorem Does.lastPid (h : Does w name args reply) : reply.world.lastPid = w.lastPid := by
  cases h with
  | nothing hw _ => rw [hw]
  | waits _ _ | moves _ _ _ | deletes _ _ | copies _ _ => rfl

/-- A command that changes the world says at most that it has done so. -/
theorem Does.spoken (h : Does w name args reply) :
    reply.world = w ∨ spoken reply.remarks <+: bytesOf "Successfully deleted\n" := by
  cases h with
  | nothing hw _ => exact .inl hw
  | waits _ _ => exact .inl rfl
  | moves _ _ hs => exact .inr (hs ▸ List.nil_prefix)
  | deletes _ _ => exact .inr List.prefix_rfl
  | copies _ _ => exact .inr List.nil_prefix

end

-- ---------------------------------------------------------------------------
-- Commands in a session
-- ---------------------------------------------------------------------------

/-- What a command may have made of a session, by its name. -/
structure Frame (name : String) (args : List String) (s : Session)
    (result : Except (Stop CommandError) Bool) (t : Session) : Prop where
  known : name ∈ ["files", "info", "delete", "copy", "where", "down", "up"] → result ≠ .ok false
  still : name ∈ ["files", "info", "where"] → t.world = s.world
  moved : name ∈ ["down", "up"] → t.world = { s.world with cwd := t.world.cwd }
  deleted : name = "delete" → t.world = s.world ∨ ∃ path files parent entry, args = [path] ∧
    t.world = { s.world with files } ∧
    s.world.files.NamesEntry s.world.user s.world.cwd (bytesOf path) parent entry ∧
    s.world.files.DropsEntry files parent entry
  copied : name = "copy" → t.world = s.world ∨ ∃ source target files parent entry,
    args = [source, target] ∧ t.world = { s.world with files } ∧
    s.world.files.AddsFile files parent entry
  childless : t.children = s.children ∧ t.forks = s.forks ∧ t.world.lastPid = s.world.lastPid ∧
    t.stdin = s.stdin ∧ t.input = s.input
  /-- Unless the copy is made and only setting its time is refused. -/
  failed : (name = "copy" → ∀ source ∈ args.head?, s.world.MaySetTime source) →
    ∀ command f, result = .error (.refused (.builtin command f)) → t.world = s.world
  waiting : result = .error .waits → t.world = s.world
  /-- Also if only the beginning of the message could be written. -/
  refused : ∀ message bytes, Refusal (name :: args) message → bytes ≠ [] →
    bytes <+: bytesOf (message ++ "\n") → t.out.contents = s.out.contents ++ bytes →
    t.world = s.world

theorem replies?_isSome {name : String}
    (h : name ∈ ["files", "info", "delete", "copy", "where", "down", "up"]) :
    (replies? name).isSome := by
  simp only [List.mem_cons, List.not_mem_nil, or_false] at h
  obtain rfl | rfl | rfl | rfl | rfl | rfl | rfl := h
  all_goals rfl

section
variable {name : String} {args : List String} {s : Session}

theorem frame_of_does {t : Session} {reply : Reply} {result : Except (Stop CommandError) Bool}
    (h : Does s.world name args reply)
    (htold : TellsOnly reply.remarks { s with world := reply.world } t) (hran : result ≠ .ok false)
    (hfailed : ∀ command f, result = .error (.refused (.builtin command f)) →
      reply.stop = some (.refused f))
    (hwaits : result = .error .waits → reply.stop = some .waits) :
    Frame name args s result t := by
  have hworld : t.world = reply.world := congrArg Session.world htold.onlyTold
  refine ⟨fun _ => hran, ?_, ?_, ?_, ?_, ⟨?_, ?_, ?_, ?_, ?_⟩, ?_, ?_, ?_⟩
  · rw [hworld]
    exact h.still
  · rw [hworld]
    exact h.moved
  · rw [hworld]
    exact h.deleted
  · rw [hworld]
    exact h.copied
  · rw [htold.onlyTold]
  · rw [htold.onlyTold]
  · rw [hworld, h.lastPid]
  · rw [htold.onlyTold]
  · rw [htold.onlyTold]
  · intro hmay command f hf
    rw [hworld, h.failed (hfailed command f hf) hmay]
  · intro hw
    obtain ⟨-, _, _, -, -, -, hreply⟩ := h.waiting (hwaits hw)
    rw [hworld, hreply]
    rfl
  · intro message bytes hrefusal hne hmessage hcontents
    obtain ⟨written, hwritten, htotal⟩ := htold.written
    obtain rfl : bytes = written := List.append_cancel_left (hcontents.symm.trans htotal)
    rcases h.spoken with hsame | hsuccess
    · rw [hworld, hsame]
    · exact absurd (hwritten.trans hsuccess) (hrefusal.not_success hne hmessage)

/-- No command does more to a session than its name says, and none that refuses or fails has
changed the world. -/
theorem builtins_frame (name : String) (args : List String) (s : Session) :
    Frame name args s ((Registry.standard.execute (name :: args)).perform s).1
      ((Registry.standard.execute (name :: args)).perform s).2 := by
  cases hreplies : replies? name with
  | none =>
    have hidle : (Registry.standard.execute (name :: args)).perform s = (.ok false, s) := by
      simp only [Registry.execute, replies?_eq_none.mp hreplies, perform_pure]
    rw [hidle]
    refine ⟨fun hname => ?_, fun _ => rfl, fun _ => rfl, fun _ => .inl rfl, fun _ => .inl rfl,
      ⟨rfl, rfl, rfl, rfl, rfl⟩, fun _ _ _ _ => rfl, fun _ => rfl, fun _ _ _ _ _ _ => rfl⟩
    have hsome := replies?_isSome hname
    simp [hreplies] at hsome
  | some replies =>
    have hserves := standard_serves hreplies args
    exact frame_of_does (does_standard hreplies) (hserves.tellsOnly s) (hserves.execute_ne_false s)
      (fun _ _ hf => Reply.stop_of_failed (hserves.execute_error hf))
      fun hw => Reply.stop_of_waits (hserves.execute_error hw)

end

end Builtin

end LineShell
