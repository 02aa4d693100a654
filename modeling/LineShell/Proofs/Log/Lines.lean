import Mathlib.Data.List.Basic
import LineShell.Log.Filter
import LineShell.Proofs.Text.Digits

/-!
# Lines of a log

What a line says about its event: its level is the first word, and a line about a child process
has one of five messages and then the number of the child. `isAbout_line_iff`: no other event has
a line that reads like that, whatever the users' texts are that stand in it.
-/

namespace LineShell.Log

open Directive (levels)

-- ---------------------------------------------------------------------------
-- Parts of a line
-- ---------------------------------------------------------------------------

theorem intercalate_cons (sep : Char) (first : List Char) (more : List (List Char)) :
    [sep].intercalate (first :: more) = first ++ more.flatMap (sep :: ·) := by
  induction more generalizing first with
  | nil => simp
  | cons next more ih =>
    rw [List.intercalate_cons_cons, ih, List.flatMap_cons]
    simp

def Event.fieldsText (e : Event) : List Char :=
  e.fields.flatMap fun (name, value) => ' ' :: (name ++ "=" ++ value).toList

theorem Event.toList_line (e : Event) :
    e.line.toList = e.level.text.toList ++ ' ' :: (e.message.toList ++ e.fieldsText) := by
  rw [Event.line, String.toList_intercalate, List.map_cons, List.map_cons, List.map_map]
  change [' '].intercalate _ = _
  rw [intercalate_cons, List.flatMap_cons, List.flatMap_map, Event.fieldsText]
  rfl

-- ---------------------------------------------------------------------------
-- Levels
-- ---------------------------------------------------------------------------

def lineLevel? (line : String) : Option Level :=
  (Text.cutAt ' ' line.toList).bind fun (word, _) => levels.find? (·.text.toList = word)

theorem blank_not_mem_text (level : Level) : ' ' ∉ level.text.toList := by
  cases level <;> decide

theorem find?_text (level : Level) :
    levels.find? (·.text.toList = level.text.toList) = some level := by
  cases level <;> rfl

theorem cutAt_level (level : Level) (rest : List Char) :
    Text.cutAt ' ' (level.text.toList ++ ' ' :: rest) = some (level.text.toList, rest) :=
  Text.cutAt_iff.mpr ⟨rfl, blank_not_mem_text level⟩

theorem lineLevel?_line (e : Event) : lineLevel? e.line = some e.level := by
  rw [lineLevel?, e.toList_line, cutAt_level]
  exact find?_text e.level

-- ---------------------------------------------------------------------------
-- Lines about children
-- ---------------------------------------------------------------------------

/-- The line says something about a child process. -/
def IsAbout (message : String) (pid : Nat) (line : String) : Prop :=
  ∃ (level : Level) (rest : String),
    line = level.text ++ " " ++ message ++ " pid=" ++ toString pid ++ " " ++ rest

def childMessages : List String :=
  ["spawned child", "child exited", "child killed", "child state changed", "waitpid failed"]

def messages : List String := childMessages ++ [
  "configuration loaded", "cannot write to terminal", "exit requested", "dispatched",
  "command failed", "reading input failed", "command finished", "fork failed", "resolved command",
  "no match", "command not found in search path", "running builtin", "stat failed",
  "changed directory"]

def Event.pid? : Event → Option Nat
  | .spawned pid _ | .exited pid _ | .killed pid _ | .stateChanged pid _ | .waitFailed pid _ =>
    some pid
  | _ => none

theorem Event.message_mem (e : Event) : e.message ∈ messages := by
  cases e <;> simp [message, messages, childMessages]

theorem Event.exists_pid (e : Event) (h : e.message ∈ childMessages) :
    ∃ pid, e.pid? = some pid := by
  cases e <;> simp_all [message, childMessages, pid?]

theorem Event.fields_of_pid {e : Event} {pid : Nat} (h : e.pid? = some pid) :
    ∃ field more, e.fields = ("pid", toString pid) :: field :: more := by
  cases e <;> simp_all [pid?, fields]

theorem Event.fieldsText_of_pid {e : Event} {pid : Nat} (h : e.pid? = some pid) :
    ∃ rest, e.fieldsText = " pid=".toList ++ (Nat.toDigits 10 pid ++ ' ' :: rest) := by
  obtain ⟨⟨name, value⟩, more, hfields⟩ := e.fields_of_pid h
  refine ⟨(name ++ "=" ++ value).toList ++
    more.flatMap (fun (name, value) => ' ' :: (name ++ "=" ++ value).toList), ?_⟩
  rw [Event.fieldsText, hfields, List.flatMap_cons, List.flatMap_cons, ← Nat.toList_repr]
  simp

theorem message_eq_of_prefix {message other : String} (h : message ∈ childMessages)
    (h' : other ∈ messages) {text : List Char} (hm : (message ++ " ").toList <+: text)
    (hother : other.toList <+: text) : message = other := by
  have hapart : ∀ message ∈ childMessages, ∀ other ∈ messages,
      (message ++ " ").toList <+: other.toList ∨ other.toList <+: (message ++ " ").toList →
        message = other := by decide
  exact hapart message h other h' (List.prefix_or_prefix_of_prefix hm hother)

theorem isAbout_iff_toList {message : String} {pid : Nat} {line : String} :
    IsAbout message pid line ↔ ∃ (level : Level) (rest : List Char),
      line.toList = level.text.toList ++ ' ' ::
        (message.toList ++ (" pid=".toList ++ (Nat.toDigits 10 pid ++ ' ' :: rest))) := by
  have htext (level : Level) (rest : String) :
      (level.text ++ " " ++ message ++ " pid=" ++ toString pid ++ " " ++ rest).toList =
        level.text.toList ++ ' ' ::
          (message.toList ++ (" pid=".toList ++ (Nat.toDigits 10 pid ++ ' ' :: rest.toList))) := by
    rw [← Nat.toList_repr]
    simp
  constructor
  · rintro ⟨level, rest, rfl⟩
    exact ⟨level, rest.toList, htext level rest⟩
  · rintro ⟨level, rest, hline⟩
    have hrest : (String.ofList rest).toList = rest := String.toList_ofList
    refine ⟨level, String.ofList rest, ?_⟩
    rw [← String.toList_inj, htext, hrest, hline]

theorem isAbout_line_iff {message : String} (hmessage : message ∈ childMessages) {pid : Nat}
    {e : Event} : IsAbout message pid e.line ↔ e.message = message ∧ e.pid? = some pid := by
  rw [isAbout_iff_toList, e.toList_line]
  constructor
  · rintro ⟨level, rest, hline⟩
    have hcut := cutAt_level e.level (e.message.toList ++ e.fieldsText)
    rw [hline, cutAt_level] at hcut
    obtain ⟨-, hrest⟩ := Prod.mk.inj (Option.some.inj hcut)
    have hsame : message = e.message := by
      refine message_eq_of_prefix hmessage e.message_mem ?_ (List.prefix_append _ e.fieldsText)
      rw [← hrest]
      exact ⟨"pid=".toList ++ (Nat.toDigits 10 pid ++ ' ' :: rest), by simp⟩
    subst hsame
    obtain ⟨other, hother⟩ := e.exists_pid hmessage
    obtain ⟨rest', hfields⟩ := e.fieldsText_of_pid hother
    rw [hfields] at hrest
    have hdigits := List.append_cancel_left (List.append_cancel_left hrest)
    rw [hother, (Text.toDigits_append_inj rfl hdigits).1]
    exact ⟨rfl, rfl⟩
  · rintro ⟨rfl, hpid⟩
    obtain ⟨rest, hfields⟩ := e.fieldsText_of_pid hpid
    exact ⟨e.level, rest, by rw [hfields]⟩

end LineShell.Log
