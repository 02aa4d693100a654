import Mathlib.Data.List.Basic
import LineShell.Proofs.Builtin.Arguments
import LineShell.Proofs.Text.Shown
import LineShell.World.Fresh

/-!
# Commands and their arguments

A command by the number of arguments it takes, which in 64-bit words reads each of them from the
fields. `arguments_checked`: on a wrong number a command says so in one line and does nothing else,
and on a right one it says nothing about it; in words nothing goes wrong either way.
-/

namespace LineShell.Builtin

open LineShell.Action

-- ---------------------------------------------------------------------------
-- Commands by the arguments they take
-- ---------------------------------------------------------------------------

/-- How many arguments a command takes. -/
inductive Arity
  | exactly (n : Nat)
  | atLeast (n : Nat)

namespace Arity

def bound : Arity → Nat
  | exactly n | atLeast n => n

def Admits : Arity → Nat → Prop
  | exactly n, given => given = n
  | atLeast n, given => n ≤ given

variable {arity : Arity} {n : Nat}

theorem ne_bound (h : ¬ arity.Admits n) : n ≠ arity.bound := by
  rintro rfl
  cases arity with
  | exactly n => exact h rfl
  | atLeast n => exact h (Nat.le_refl n)

end Arity

/-- A command by what it does with its arguments once their number is right. -/
inductive Shape
  | nullary (body : Action (Stop CommandError) Unit)
  | unary (body : String → Action (Stop CommandError) Unit)
  | binary (body : String → String → Action (Stop CommandError) Unit)
  /-- One argument or more. -/
  | variadic (body : List String → Action (Stop CommandError) Unit)

namespace Shape

open Words (Fault)

def arity : Shape → Arity
  | nullary _ => .exactly 0
  | unary _ => .exactly 1
  | binary _ => .exactly 2
  | variadic _ => .atLeast 1

def command : Shape → Command
  | nullary body => Builtin.nullary body
  | unary body => Builtin.unary body
  | binary body => Builtin.binary body
  | variadic body => fun fields =>
    match fields.tail with
    | [] => sayAll (arityComplaint fields 1).toList
    | args => body args

def checked (expected : UInt64) (fields : List String)
    (body : Except Fault (Action (Stop CommandError) Unit)) :
    Except Fault (Action (Stop CommandError) Unit) := do
  let (fits, lines) ← Words.checkArguments fields expected
  if fits then body else return sayAll lines

/-- The command in words: its arguments are read from the fields one by one. -/
def run : Shape → List String → Except Fault (Action (Stop CommandError) Unit)
  | nullary body, fields => checked 0 fields (return body)
  | unary body, fields => checked 1 fields do
    return body (← Words.field fields 1)
  | binary body, fields => checked 2 fields do
    return body (← Words.field fields 1) (← Words.field fields 2)
  | variadic body, fields => do
    if Words.count fields < 2 then
      let (_, lines) ← Words.checkArguments fields 1
      return sayAll lines
    return body (← Words.fieldsFrom fields 1)

variable {shape : Shape} {name line : String} {args : List String} {expected : Nat}
  {body : List String → Action (Stop CommandError) Unit}

theorem gated_fits (h : arityComplaint (name :: args) expected = none) :
    gated expected body (name :: args) = body args := by
  rw [gated, Builtin.checkArguments, h]
  rfl

theorem gated_wrong (h : arityComplaint (name :: args) expected = some line) :
    gated expected body (name :: args) = sayAll [line] := by
  rw [gated, Builtin.checkArguments, h]
  simp [sayAll]

theorem checked_eq (expected : UInt64) {body : Except Fault (Action (Stop CommandError) Unit)}
    {gatedBody : List String → Action (Stop CommandError) Unit}
    (h : (name :: args).length < UInt64.size)
    (hbody : args.length = expected.toNat → body = .ok (gatedBody args)) :
    checked expected (name :: args) body =
      .ok (gated expected.toNat gatedBody (name :: args)) := by
  rw [checked, Words.checkArguments_eq h]
  cases hcomplaint : arityComplaint (name :: args) expected.toNat with
  | some complaint =>
    rw [gated_wrong hcomplaint]
    rfl
  | none =>
    rw [gated_fits hcomplaint]
    exact hbody (arityComplaint_eq_none.mp hcomplaint)

theorem run_eq (h : (name :: args).length < UInt64.size) :
    shape.run (name :: args) = .ok (shape.command (name :: args)) := by
  cases shape with
  | nullary body =>
    rw [run, command, Builtin.nullary]
    exact checked_eq 0 h fun _ => rfl
  | unary body =>
    rw [run, command, Builtin.unary]
    refine checked_eq 1 h fun hone => ?_
    obtain ⟨argument, rfl⟩ := List.length_eq_one_iff.mp hone
    rfl
  | binary body =>
    rw [run, command, Builtin.binary]
    refine checked_eq 2 h fun htwo => ?_
    obtain ⟨first, second, rfl⟩ := List.length_eq_two.mp htwo
    rfl
  | variadic body =>
    have hcount : Words.count (name :: args) < 2 ↔ args = [] := by
      rw [UInt64.lt_iff_toNat_lt, Words.toNat_count h]
      cases args <;> simp
    rw [run]
    cases args with
    | nil =>
      rw [if_pos (hcount.mpr rfl), Words.checkArguments_eq h]
      rfl
    | cons argument rest =>
      rw [if_neg (mt hcount.mp (List.cons_ne_nil _ _))]
      rfl

theorem command_wrong (name : String) (h : ¬ shape.arity.Admits args.length) :
    ∃ line, arityComplaint (name :: args) shape.arity.bound = some line ∧
      shape.command (name :: args) = sayAll [line] := by
  have hgiven : given (name :: args) ≠ shape.arity.bound := Arity.ne_bound h
  obtain ⟨line, hline⟩ := Option.ne_none_iff_exists'.mp (mt arityComplaint_eq_none.mp hgiven)
  refine ⟨line, hline, ?_⟩
  cases shape with
  | nullary body =>
    rw [command, Builtin.nullary]
    exact gated_wrong hline
  | unary body =>
    rw [command, Builtin.unary]
    exact gated_wrong hline
  | binary body =>
    rw [command, Builtin.binary]
    exact gated_wrong hline
  | variadic body =>
    obtain rfl : args = [] := List.eq_nil_of_length_eq_zero (Nat.eq_zero_of_not_pos h)
    have hline : arityComplaint [name] 1 = some line := hline
    change sayAll (arityComplaint [name] 1).toList = _
    rw [hline]
    rfl

end Shape

-- ---------------------------------------------------------------------------
-- Replies on a right number of arguments
-- ---------------------------------------------------------------------------

/-- No line of the reply is about the number of arguments. -/
def OffArguments (reply : Reply) : Prop :=
  ∀ line, .line line ∈ reply.remarks → ¬ AboutArguments line

section
variable {w : World}

theorem offArguments_say {lines : List String} (h : ∀ line ∈ lines, ¬ AboutArguments line) :
    OffArguments (.say w lines) := by
  intro line hline
  refine h line ?_
  simpa [Reply.say] using hline

theorem offArguments_about {α : Type} {answer : Except Failure α} {lines : α → List String}
    (h : ∀ a, answer = .ok a → ∀ line ∈ lines a, ¬ AboutArguments line) :
    OffArguments (.about w answer lines) := by
  cases answer with
  | ok a => exact offArguments_say (h a rfl)
  | error f => exact nofun

theorem offArguments_after {attempt : Except (Stop Failure) Unit × World} {remarks : List Remark}
    (h : ∀ line, .line line ∈ remarks → ¬ AboutArguments line) :
    OffArguments (.after attempt remarks) := by
  obtain ⟨stop | _, w'⟩ := attempt
  · exact nofun
  · exact h

theorem not_about_listingLine (name : Files.Name) : ¬ AboutArguments (listingLine w name) := by
  rw [listingLine, String.append_assoc, kindWord]
  split
  · exact not_about_append (by decide) _
  · exact not_about_append (by decide) _

theorem head?_shown_slash (rest : Bytes) :
    (shown (Files.slash :: rest)).toList.head? = some '/' := by
  have hshows := Utf8.Shows.character (c := '/') (Utf8.shows_display rest)
  rw [shown, String.toList_ofList]
  exact congrArg List.head? hshows.display

theorem not_about_currentPath {path : Bytes} (h : w.currentPath = .ok path) :
    ¬ AboutArguments (shown path) := by
  obtain ⟨names, rfl⟩ := World.currentPath_ok h
  have hslash : ∃ rest, Files.Path.render names = Files.slash :: rest := by
    cases names with
    | nil => exact ⟨[], rfl⟩
    | cons name names => simp [Files.Path.render]
  obtain ⟨rest, hrest⟩ := hslash
  have hhead : (shown (Files.Path.render names)).toList.head? = some '/' := by
    rw [hrest, head?_shown_slash]
  refine mt AboutArguments.head ?_
  rw [hhead]
  decide

theorem not_about_kindLines {path : String} {found : Except Failure Files.Node} :
    ∀ line ∈ kindLines w path found, ¬ AboutArguments line := by
  unfold kindLines
  split
  · split
    · simp only [List.forall_mem_cons]
      refine ⟨not_about_append (by decide) _, mt AboutArguments.head (by decide), ?_,
        not_about_append (by decide) _, List.forall_mem_nil _⟩
      exact not_about_append (a := "Size: ") (by decide) _
    · exact not_about_only (by decide)
  · exact not_about_only (by decide)

theorem not_about_detailRemarks {path : String} {found : Except Failure Files.Node} :
    ∀ line, .line line ∈ Reply.detailRemarks w path found → ¬ AboutArguments line := by
  intro line hline
  cases found with
  | ok node =>
    simp only [Reply.detailRemarks, List.mem_cons, Remark.line.injEq, List.not_mem_nil,
      or_false] at hline
    obtain rfl | rfl := hline
    · exact not_about_append (by decide) _
    · exact not_about_append (by decide) _
  | error f =>
    simp only [Reply.detailRemarks, List.mem_cons, Remark.line.injEq, reduceCtorEq,
      List.not_mem_nil, or_false, false_or] at hline
    rw [hline, String.append_assoc, String.append_assoc]
    exact not_about_append (by decide) _

end

-- ---------------------------------------------------------------------------
-- The single commands
-- ---------------------------------------------------------------------------

/-- A command that takes these numbers of arguments and on them has other things to say. -/
structure Takes (name : String) (arity : Arity) (shape : Shape) (replies : Replies) : Prop where
  arity_eq : shape.arity = arity
  found : Registry.standard.find? name = some shape.command
  replies_eq : replies? name = some replies
  offArguments : ∀ args w, arity.Admits args.length → OffArguments (replies (name :: args) w)

theorem takes_files : ∃ shape, Takes "files" (.exactly 0) shape Reply.files := by
  refine ⟨.nullary _, rfl, rfl, rfl, fun args w hadmits => ?_⟩
  obtain rfl := List.eq_nil_of_length_eq_zero hadmits
  refine offArguments_about fun names _ line hline => ?_
  obtain ⟨name, -, rfl⟩ := List.mem_map.mp hline
  exact not_about_listingLine name

theorem takes_info : ∃ shape, Takes "info" (.exactly 1) shape Reply.info := by
  refine ⟨.unary _, rfl, rfl, rfl, fun args w hadmits => ?_⟩
  obtain ⟨path, rfl⟩ := List.length_eq_one_iff.mp hadmits
  intro line hline
  rcases List.mem_append.mp hline with hkind | hdetail
  · obtain ⟨other, hother, hsame⟩ := List.mem_map.mp hkind
    cases hsame
    exact not_about_kindLines line hother
  · exact not_about_detailRemarks line hdetail

theorem takes_whereAmI : ∃ shape, Takes "where" (.exactly 0) shape Reply.whereAmI := by
  refine ⟨.nullary _, rfl, rfl, rfl, fun args w hadmits => ?_⟩
  obtain rfl := List.eq_nil_of_length_eq_zero hadmits
  exact offArguments_about fun path hpath =>
    List.forall_mem_singleton.mpr (not_about_currentPath hpath)

theorem takes_delete : ∃ shape, Takes "delete" (.exactly 1) shape Reply.delete := by
  refine ⟨.unary _, rfl, rfl, rfl, fun args w hadmits => ?_⟩
  obtain ⟨path, rfl⟩ := List.length_eq_one_iff.mp hadmits
  change OffArguments (if w.leadsSomewhere path then _ else _)
  split
  · refine offArguments_after fun line hline => ?_
    cases List.mem_singleton.mp hline
    exact not_about_only (by decide) _ (List.mem_singleton_self _)
  · exact offArguments_say (not_about_only (by decide))

theorem takes_copy : ∃ shape, Takes "copy" (.exactly 2) shape Reply.copy := by
  refine ⟨.binary _, rfl, rfl, rfl, fun args w hadmits => ?_⟩
  obtain ⟨source, target, rfl⟩ := List.length_eq_two.mp hadmits
  change OffArguments (if !w.leadsSomewhere source then _
    else if w.leadsSomewhere target then _ else _)
  split
  · exact offArguments_say (not_about_only (by decide))
  split
  · exact offArguments_say (not_about_only (by decide))
  · exact offArguments_after nofun

theorem takes_up : ∃ shape, Takes "up" (.exactly 0) shape Reply.up := by
  refine ⟨.nullary _, rfl, rfl, rfl, fun args w hadmits => ?_⟩
  obtain rfl := List.eq_nil_of_length_eq_zero hadmits
  exact offArguments_after nofun

def downShape : Shape := .variadic fun args => do
  let path := String.intercalate " " args
  let w ← Action.world
  if w.isDirectory path then do
    enter "down" path
    Action.note (.entered path)
  else say "Error directory does not exist"

theorem command_downShape : downShape.command = down := by
  funext fields
  cases hargs : fields.tail with
  | nil =>
    simp only [downShape, Shape.command, down, Builtin.checkArguments, hargs]
    cases arityComplaint fields 1 <;> simp [sayAll]
  | cons argument rest => simp only [downShape, Shape.command, down, hargs]

theorem takes_down : ∃ shape, Takes "down" (.atLeast 1) shape Reply.down := by
  refine ⟨downShape, rfl, by rw [command_downShape]; rfl, rfl, fun args w hadmits => ?_⟩
  obtain ⟨argument, rest, rfl⟩ := List.exists_cons_of_length_pos hadmits
  change OffArguments (if w.isDirectory _ then _ else _)
  split
  · exact offArguments_after fun line hline => by simp at hline
  · exact offArguments_say (not_about_only (by decide))

-- ---------------------------------------------------------------------------
-- Commands in a session
-- ---------------------------------------------------------------------------

/-- What comes of the arguments of a command. -/
structure Guards (name : String) (shape : Shape) : Prop where
  found : Registry.standard.find? name = some shape.command
  /-- In words there is no fault, neither in the check nor afterwards. -/
  inWords : ∀ args, (name :: args).length < UInt64.size →
    Words.predecessor (Words.count (name :: args)) = .ok (Words.count args) ∧
      shape.run (name :: args) = .ok (shape.command (name :: args))
  /-- Nothing happens but that one line is written, or fails to be. -/
  wrong : ∀ args s, ¬ shape.arity.Admits args.length → ∃ line,
    arityComplaint (name :: args) shape.arity.bound = some line ∧
      Answers s (name :: args) [line] (.ok true) s.world ∧
      (Registry.standard.execute (name :: args)).perform s =
        match (Action.writeLine line).perform
            { s with log := s.log ++ [.running name args.length] } with
        | (.error f, t) => (.error (.refused (.output f)), t)
        | (.ok (), t) => (.ok true, t)
  /-- The command performs a reply, which says nothing about the number of arguments. -/
  right : ∀ args s, shape.arity.Admits args.length → ∃ reply : World → Reply,
    Performs name (shape.command (name :: args)) reply ∧
      (∀ line, .line line ∈ (reply s.world).remarks → ¬ AboutArguments line) ∧
      TellsOnly (reply s.world).remarks { s with world := (reply s.world).world }
        ((Registry.standard.execute (name :: args)).perform s).2

section
variable {name line : String} {arity : Arity} {shape : Shape} {replies : Replies}

theorem perform_execute_line {r : Registry} {command : Command} {args : List String} {s : Session}
    (hfind : r.find? name = some command) (hline : command (name :: args) = sayAll [line]) :
    (r.execute (name :: args)).perform s =
      match (Action.writeLine line).perform
          { s with log := s.log ++ [.running name args.length] } with
      | (.error f, t) => (.error (.refused (.output f)), t)
      | (.ok (), t) => (.ok true, t) := by
  have hsay : sayAll [line] = say line := by simp [sayAll]
  simp only [Registry.execute, hfind, hline, hsay, say, perform_bind, perform_note,
    perform_mapError]
  rcases (Action.writeLine line).perform _ with ⟨f | _, t⟩
  · rfl
  · rfl

theorem performs_of_found {command : Command} (hfind : Registry.standard.find? name = some command)
    (hreplies : replies? name = some replies) (fields : List String) :
    Performs name (command fields) (replies fields) := by
  obtain ⟨replies', hreplies', hperforms⟩ := standard_performs hfind
  obtain rfl := Option.some.inj (hreplies.symm.trans hreplies')
  exact hperforms fields

theorem answers_line {command : Command} {args : List String} {s : Session}
    (hfind : Registry.standard.find? name = some command)
    (hline : command (name :: args) = sayAll [line]) :
    Answers s (name :: args) [line] (.ok true) s.world := by
  have hperform := perform_execute_line hfind hline (s := s)
  have hwrite : (Action.writeLine line).perform
      { s with log := s.log ++ [.running name args.length] } = _ := perform_write (line ++ "\n") _
  have hlines : inLines [line] = bytesOf (line ++ "\n") := List.append_nil _
  have hnever (hn : s.out.NeverFails) : (Registry.standard.execute (name :: args)).perform s =
      (.ok true, { s with
        out := (s.out.put (inLines [line])).2
        log := s.log ++ [.running name args.length] }) := by
    rw [hperform, hwrite, hlines]
    simp only [(hn.put _).1]
  constructor
  case world =>
    rw [hperform, hwrite]
    rcases s.out.put (bytesOf (line ++ "\n")) with ⟨f | _, out⟩
    · rfl
    · rfl
  case result =>
    intro h
    rw [hnever (h.resolve_left (List.cons_ne_nil _ _))]
  case told =>
    intro h
    have hn := h.resolve_left (List.cons_ne_nil _ _)
    rw [hnever hn]
    exact hn.contents_put _
  case neverFails =>
    intro hn
    rw [hnever hn]
    exact (hn.put _).2

theorem Takes.guards (h : Takes name arity shape replies) : Guards name shape where
  found := h.found
  inWords _ hsize := ⟨Words.predecessor_count hsize, Shape.run_eq hsize⟩
  wrong args s hwrong := by
    obtain ⟨line, hline, hcommand⟩ := Shape.command_wrong name hwrong
    exact ⟨line, hline, answers_line h.found hcommand, perform_execute_line h.found hcommand⟩
  right args s hright := by
    refine ⟨replies (name :: args), performs_of_found h.found h.replies_eq _, ?_, ?_⟩
    · exact h.offArguments args s.world (h.arity_eq ▸ hright)
    · exact (standard_serves h.replies_eq args).tellsOnly s

end

def arities : List (String × Arity) := [
  ("files", .exactly 0), ("info", .exactly 1), ("delete", .exactly 1), ("copy", .exactly 2),
  ("where", .exactly 0), ("up", .exactly 0), ("down", .atLeast 1)]

theorem arguments_checked :
    (∀ fields expected, Checks fields expected) ∧
      ∀ name arity, (name, arity) ∈ arities →
        ∃ shape : Shape, shape.arity = arity ∧ Guards name shape := by
  refine ⟨checks, fun name arity hmem => ?_⟩
  simp only [arities, List.mem_cons, Prod.mk.injEq, List.not_mem_nil, or_false] at hmem
  obtain ⟨rfl, rfl⟩ | ⟨rfl, rfl⟩ | ⟨rfl, rfl⟩ | ⟨rfl, rfl⟩ | ⟨rfl, rfl⟩ | ⟨rfl, rfl⟩ | ⟨rfl, rfl⟩ :=
    hmem
  · exact takes_files.imp fun _ h => ⟨h.arity_eq, h.guards⟩
  · exact takes_info.imp fun _ h => ⟨h.arity_eq, h.guards⟩
  · exact takes_delete.imp fun _ h => ⟨h.arity_eq, h.guards⟩
  · exact takes_copy.imp fun _ h => ⟨h.arity_eq, h.guards⟩
  · exact takes_whereAmI.imp fun _ h => ⟨h.arity_eq, h.guards⟩
  · exact takes_up.imp fun _ h => ⟨h.arity_eq, h.guards⟩
  · exact takes_down.imp fun _ h => ⟨h.arity_eq, h.guards⟩

theorem arguments_checked_copy :
    Answers { world := .fresh } ["copy", "a", "b", "c"]
      ["Unexpected argument c for command copy"] (.ok true) .fresh := by
  obtain ⟨shape, harity, hguards⟩ :=
    arguments_checked.2 "copy" (.exactly 2) (by simp [arities])
  have hwrong : ¬ shape.arity.Admits 3 := by
    rw [harity]
    exact fun h => by cases h
  obtain ⟨line, hline, hanswers, -⟩ := hguards.wrong ["a", "b", "c"] { world := .fresh } hwrong
  rw [harity] at hline
  cases hline
  exact hanswers

end LineShell.Builtin
