import Mathlib.Data.List.Basic
import Mathlib.Data.List.Induction
import LineShell.Proofs.Builtin.Moving
import LineShell.Proofs.Dispatch.Waiting
import LineShell.Proofs.Files.Planted

/-!
# Going down and up

On a tree each way up undoes the last way down that is not undone yet, whatever is typed in between
that does not move the shell. So the shell is always where the remaining ways down lead from the
start, and `where` prints just that: `journey_undone`.
-/

namespace LineShell

/-- The session after a typed line. A blank line does nothing. -/
def Dispatcher.typed (d : Dispatcher) (s : Session) (text : String) : Session :=
  (CommandLine.parse text).elim s fun line => ((d.dispatch line).perform s).2

namespace Builtin

open Files (FileTree Name NodeId)
open Text (tidy)

-- ---------------------------------------------------------------------------
-- Moves
-- ---------------------------------------------------------------------------

/-- A command that leaves the shell where it is and comes back: one that moves nothing, or a move
that fails. -/
inductive Aside (w : World) (line : CommandLine) : Prop
  | other : (Registry.standard.find? line.name).isSome → line.name ≠ "down" → line.name ≠ "up" →
      ¬ w.WaitsOn line → Aside w line
  | lost : line.name = "down" → (∀ id, ¬ w.LeadsInto (" ".intercalate line.args) id) → Aside w line
  | miscounted : line.name = "up" → line.args ≠ [] → Aside w line

inductive Move
  | down (name : String)
  | up
  | aside (text : String)
deriving DecidableEq

namespace Move

def text : Move → String
  | .down name => "down " ++ name
  | .up => "up"
  | .aside text => text

def isDown : Move → Bool
  | .down _ => true
  | _ => false

def isUp : Move → Bool
  | .up => true
  | _ => false

/-- What a move makes of the names of the ways down that are not undone. -/
def pending (names : List Name) : Move → List Name
  | .down name => names ++ [bytesOf name]
  | .up => names.dropLast
  | .aside _ => names

/-- What a move asks of the world. The way down is into a directory of the directory in use, which
is no link. -/
inductive Possible (w : World) : Move → Prop
  | down {name : String} {id : NodeId} : Files.ProperName (bytesOf name) → tidy name = name →
      w.files.Enters w.cwd (bytesOf name) id → (w.files.directory? id).isSome →
      Possible w (.down name)
  | up : Possible w .up
  | aside {text : String} {line : CommandLine} : CommandLine.parse text = some line →
      Aside w line → Possible w (.aside text)

end Move

namespace Journey

def downs (moves : List Move) : Nat := moves.countP (·.isDown)

def ups (moves : List Move) : Nat := moves.countP (·.isUp)

/-- The names of the ways down that are not undone, in order. -/
def pending (moves : List Move) : List Name := moves.foldl Move.pending []

def after (d : Dispatcher) (s : Session) (moves : List Move) : Session :=
  moves.foldl (fun s move => d.typed s move.text) s

end Journey

open Journey

structure Passable (d : Dispatcher) (s : Session) (moves : List Move) : Prop where
  neverAbove : ∀ front, front <+: moves → ups front ≤ downs front
  possible : ∀ front move, front ++ [move] <+: moves → move.Possible (after d s front).world

/-- The shell is in a directory of a tree in which its user may go anywhere. Some names lead down to
it from the start, and other ones from the root to the start. -/
structure Along (start : NodeId) (base names : List Name) (w : World) : Prop where
  tree : w.files.IsTree
  openTo : w.files.OpenTo w.user
  base : w.files.Descends FileTree.root base start
  way : w.files.Descends start names w.cwd

variable {d : Dispatcher} {s : Session} {w : World} {text : String} {line : CommandLine}
  {start : NodeId} {base names : List Name} {move : Move}

-- ---------------------------------------------------------------------------
-- Lines that do not move the shell
-- ---------------------------------------------------------------------------

/-- The shell is where it was, and so are all directories. -/
structure Stays (w w' : World) : Prop where
  cwd : w'.cwd = w.cwd
  user : w'.user = w.user
  files : w.files.Keeps w'.files

theorem stays_of_eq {w' : World} (h : w' = w) : Stays w w' := by
  rw [h]
  exact ⟨rfl, rfl, FileTree.keeps_refl _⟩

theorem Does.stays {name : String} {args : List String} {reply : Reply}
    (h : Does w name args reply) (hdown : name ≠ "down") (hup : name ≠ "up") :
    Stays w reply.world := by
  cases h with
  | nothing hworld _ => exact stays_of_eq hworld
  | waits _ _ => exact stays_of_eq rfl
  | moves hname _ _ => exact (hname.elim hdown hup).elim
  | deletes _ hdrops => exact ⟨rfl, rfl, hdrops.keeps⟩
  | copies hadds _ => exact ⟨rfl, rfl, hadds.keeps⟩

theorem Aside.stays (h : Aside w line) : ∃ replies, replies? line.name = some replies ∧
    Stays w (replies line.fields w).world := by
  obtain ⟨name, args⟩ := line
  cases h with
  | other hfind hdown hup _ =>
    obtain ⟨command, hfind⟩ := Option.isSome_iff_exists.mp hfind
    obtain ⟨replies, hreplies, -⟩ := standard_performs hfind
    exact ⟨replies, hreplies, (does_standard hreplies).stays hdown hup⟩
  | lost hname hno =>
    obtain rfl : name = "down" := hname
    refine ⟨Reply.down, rfl, stays_of_eq ?_⟩
    rw [CommandLine.fields]
    by_cases hargs : args = []
    · rw [hargs]
      rfl
    · rw [Reply.down_joined hargs, Reply.down_nowhere hno]
      rfl
  | miscounted hname hargs =>
    obtain rfl : name = "up" := hname
    refine ⟨Reply.up, rfl, stays_of_eq ?_⟩
    obtain ⟨first, rest, rfl⟩ := List.exists_cons_of_ne_nil hargs
    rfl

theorem Aside.not_waitsOn (h : Aside w line) : ¬ w.WaitsOn line := by
  cases h with
  | other _ _ _ hwaits => exact hwaits
  | lost hname _ | miscounted hname _ =>
    rintro ⟨source, target, hfields, -⟩
    have hcopy : line.name = "copy" := (List.cons.inj hfields).1
    rw [hname] at hcopy
    exact absurd hcopy (by decide)

theorem typed_world {replies : Replies} (hparse : CommandLine.parse text = some line)
    (hreplies : replies? line.name = some replies) :
    (d.typed s text).world = (replies line.fields s.world).world := by
  have hdispatch := Dispatcher.perform_dispatch_command (d := d) (s := s) hreplies
  rw [Dispatcher.typed, hparse, Option.elim_some, hdispatch]
  exact (standard_serves hreplies line.args).execute_world s

theorem Typed.world_typed {lines : List String} {world : World} (h : Typed s text lines world) :
    (d.typed s text).world = world := by
  obtain ⟨line, hparse, hdispatches⟩ := h
  rw [Dispatcher.typed, hparse, Option.elim_some, (hdispatches d).world]

-- ---------------------------------------------------------------------------
-- Single moves
-- ---------------------------------------------------------------------------

theorem leadsInto_above {dir : Files.Directory} (hdir : w.files.directory? w.cwd = some dir)
    (hopens : w.files.Opens w.user w.cwd) (hparent : (w.files.directory? dir.parent).isSome) :
    w.LeadsInto ".." dir.parent := by
  refine ⟨⟨by decide, by decide, by decide⟩, ?_, hparent⟩
  exact .above hdir hopens (.done nofun)

theorem typed_up {id : NodeId} (h : s.world.LeadsInto ".." id)
    (hopens : s.world.files.Opens s.world.user id) :
    Typed s "up" [] { s.world with cwd := id } := by
  have hparse : CommandLine.parse "up" = some ⟨"up", []⟩ := by decide +kernel
  have hreply : Reply.up ["up"] s.world =
      { world := { s.world with cwd := id }, remarks := [] } := by
    simp [Reply.up, Reply.nullary, Reply.gated, arityComplaint, given, Reply.enter,
      h.enter hopens, World.tried, Reply.after]
  exact typed_of_answers hparse rfl (answers_of_reply rfl hreply rfl)

/-- What one move makes of where the shell is. -/
structure Advances (d : Dispatcher) (s : Session) (start : NodeId) (base names : List Name)
    (move : Move) : Prop where
  along : Along start base (move.pending names) (d.typed s move.text).world
  silent : move.isDown ∨ move.isUp → Typed s move.text [] (d.typed s move.text).world

section
variable (h : Along start base names s.world)
include h

theorem Along.advances_down {name : String} {id : NodeId} (hname : Files.ProperName (bytesOf name))
    (htidy : tidy name = name) (henters : s.world.files.Enters s.world.cwd (bytesOf name) id)
    (hdir : (s.world.files.directory? id).isSome) : Advances d s start base names (.down name) := by
  have htyped := (typable_iff hname).mpr htidy s id henters hdir (h.openTo _ henters.isSome)
    (h.openTo id hdir)
  have hworld : (d.typed s (Move.down name).text).world = _ := htyped.world_typed
  refine ⟨?_, fun _ => hworld ▸ htyped⟩
  rw [hworld]
  exact ⟨h.tree, h.openTo, h.base, .into h.way henters hdir⟩

theorem Along.advances_up (hnames : names ≠ []) : Advances d s start base names .up := by
  obtain ⟨front, name, rfl⟩ : ∃ front name, names = front ++ [name] :=
    ⟨_, _, (List.dropLast_append_getLast hnames).symm⟩
  obtain ⟨id, hfront, henters, hdir⟩ := h.way.last
  have hcwd := h.openTo _ hdir
  obtain ⟨dir, hdir⟩ := Option.isSome_iff_exists.mp hdir
  obtain ⟨rfl, -⟩ := h.tree.inside henters hdir
  have htyped := typed_up (leadsInto_above hdir hcwd henters.isSome) (h.openTo _ henters.isSome)
  have hworld : (d.typed s Move.up.text).world = _ := htyped.world_typed
  refine ⟨?_, fun _ => hworld ▸ htyped⟩
  rw [hworld, Move.pending, List.dropLast_concat]
  exact ⟨h.tree, h.openTo, h.base, hfront⟩

theorem Along.advances_aside (hparse : CommandLine.parse text = some line)
    (haside : Aside s.world line) : Advances d s start base names (.aside text) := by
  obtain ⟨replies, hreplies, hstays⟩ := haside.stays
  have hworld := typed_world (d := d) (s := s) hparse hreplies
  refine ⟨?_, by simp [Move.isDown, Move.isUp]⟩
  rw [Move.text, hworld]
  refine ⟨h.tree.keeps hstays.files, ?_, h.base.keeps hstays.files, ?_⟩
  · rw [hstays.user]
    exact h.openTo.keeps hstays.files
  · rw [hstays.cwd]
    exact h.way.keeps hstays.files

theorem Along.advances (hpossible : move.Possible s.world) (hup : move = .up → names ≠ []) :
    Advances d s start base names move := by
  cases hpossible with
  | down hname htidy henters hdir => exact h.advances_down hname htidy henters hdir
  | up => exact h.advances_up (hup rfl)
  | aside hparse haside => exact h.advances_aside hparse haside

end

-- ---------------------------------------------------------------------------
-- Journeys
-- ---------------------------------------------------------------------------

theorem after_concat (front : List Move) (move : Move) :
    after d s (front ++ [move]) = d.typed (after d s front) move.text := by
  rw [after, List.foldl_concat, after]

theorem pending_concat (front : List Move) (move : Move) :
    pending (front ++ [move]) = move.pending (pending front) := by
  rw [pending, List.foldl_concat, pending]

theorem ups_concat (front : List Move) (move : Move) :
    ups (front ++ [move]) = ups front + if move.isUp then 1 else 0 := by
  simp [ups, List.countP_append, List.countP_singleton]

theorem downs_concat (front : List Move) (move : Move) :
    downs (front ++ [move]) = downs front + if move.isDown then 1 else 0 := by
  simp [downs, List.countP_append, List.countP_singleton]

theorem length_pending {moves : List Move}
    (h : ∀ front, front <+: moves → ups front ≤ downs front) :
    (pending moves).length + ups moves = downs moves := by
  induction moves using List.reverseRecOn with
  | nil => rfl
  | append_singleton front move ih =>
    have hfront := ih fun other hother => h other (hother.trans (List.prefix_append _ _))
    have hall := h _ (List.prefix_refl _)
    rw [ups_concat, downs_concat] at hall
    rw [pending_concat, ups_concat, downs_concat]
    cases move with
    | down name =>
      simp only [Move.pending, Move.isUp, Move.isDown, List.length_append, List.length_singleton,
        if_true, Bool.false_eq_true, if_false] at hall ⊢
      omega
    | up =>
      simp only [Move.pending, Move.isUp, Move.isDown, List.length_dropLast, if_true,
        Bool.false_eq_true, if_false] at hall ⊢
      omega
    | aside text => exact hfront

theorem passable_nil : Passable d s [] where
  neverAbove front hfront := by
    rw [List.prefix_nil.mp hfront]
    exact Nat.le_refl 0
  possible front move hfront := by simp at hfront

theorem Passable.concat {moves : List Move} (h : Passable d s moves)
    (habove : ups (moves ++ [move]) ≤ downs (moves ++ [move]))
    (hpossible : move.Possible (after d s moves).world) : Passable d s (moves ++ [move]) where
  neverAbove front hfront := by
    rcases List.prefix_concat_iff.mp hfront with rfl | hfront
    · exact habove
    · exact h.neverAbove front hfront
  possible front other hfront := by
    rcases List.prefix_concat_iff.mp hfront with hsame | hfront
    · obtain ⟨rfl, hother⟩ := List.append_inj' hsame rfl
      cases hother
      exact hpossible
    · exact h.possible front other hfront

section
variable {moves front : List Move} (h : Passable d s moves)
include h

theorem Passable.pending_ne_nil (hfront : front ++ [.up] <+: moves) : pending front ≠ [] := by
  intro hnil
  have hbefore : front <+: moves := (List.prefix_append _ _).trans hfront
  have hlength := length_pending fun other hother => h.neverAbove other (hother.trans hbefore)
  have habove := h.neverAbove _ hfront
  rw [ups_concat, downs_concat] at habove
  simp only [hnil, List.length_nil, Move.isUp, Move.isDown, if_true, Bool.false_eq_true,
    if_false] at hlength habove
  omega

variable (hstart : Along s.world.cwd base [] s.world)
include hstart

theorem along_after (hfront : front <+: moves) :
    Along s.world.cwd base (pending front) (after d s front).world := by
  induction front using List.reverseRecOn with
  | nil => exact hstart
  | append_singleton front move ih =>
    have halong := ih ((List.prefix_append _ _).trans hfront)
    rw [after_concat, pending_concat]
    refine (halong.advances (h.possible front move hfront) ?_).along
    rintro rfl
    exact h.pending_ne_nil hfront

theorem silent_after (hfront : front ++ [move] <+: moves) (hmove : move.isDown ∨ move.isUp) :
    Typed (after d s front) move.text [] (after d s (front ++ [move])).world := by
  have halong := along_after h hstart ((List.prefix_append _ _).trans hfront)
  rw [after_concat]
  refine (halong.advances (h.possible front move hfront) ?_).silent hmove
  rintro rfl
  exact h.pending_ne_nil hfront

end

/-- Moves that undo each other as brackets do, from a directory with the names `base`. -/
structure Undoes (d : Dispatcher) (s : Session) (base : List Name) (moves : List Move) : Prop where
  silent : ∀ front move, front ++ [move] <+: moves → move.isDown ∨ move.isUp →
    Typed (after d s front) move.text [] (after d s (front ++ [move])).world
  comesBack : ∀ front text, front ++ [.aside text] <+: moves →
    ∃ line, CommandLine.parse text = some line ∧
      ((d.dispatch line).perform (after d s front)).1 ≠ .error .waits
  below : ∀ front, front <+: moves → (after d s front).world.files.Descends s.world.cwd
    (pending front) (after d s front).world.cwd
  printed : ∀ front, front <+: moves → Typed (after d s front) "where"
    [shown (Files.Path.render (base ++ pending front))] (after d s front).world
  home : ∀ front, front <+: moves → ups front = downs front →
    (after d s front).world.cwd = s.world.cwd

def roundTrip : List Move := [.down "usr", .aside "down etc", .up]

end Builtin

end LineShell
