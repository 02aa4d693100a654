import LineShell.Builtin.Details
import LineShell.Builtin.Entries
import LineShell.Builtin.Listing
import LineShell.Builtin.Moves

/-!
# Registries of built-in commands

The built-in commands by name, in the order of the names' bytes. A name stands for the command
registered last under it.
-/

namespace LineShell.Builtin

structure Registry where
  commands : List (String × Command)

namespace Registry

def empty : Registry := ⟨[]⟩

def put (name : String) (command : Command) : List (String × Command) → List (String × Command)
  | [] => [(name, command)]
  | (other, old) :: rest =>
    if name = other then (name, command) :: rest
    else if bytesOf name < bytesOf other then (name, command) :: (other, old) :: rest
    else (other, old) :: put name command rest

def register (r : Registry) (name : String) (command : Command) : Registry :=
  ⟨put name command r.commands⟩

def find? (r : Registry) (name : String) : Option Command :=
  (r.commands.find? (·.1 = name)).map (·.2)

def names (r : Registry) : List String := r.commands.map (·.1)

def contains (r : Registry) (name : String) : Bool := (r.find? name).isSome

def standardCommands : List (String × Command) := [
  ("files", files), ("info", info), ("delete", delete), ("copy", copy), ("where", whereAmI),
  ("down", down), ("up", up)]

def standard : Registry :=
  standardCommands.foldl (fun r (name, command) => r.register name command) empty

/-- Runs the command that the first field names. Says whether there is one. -/
def execute (r : Registry) (fields : List String) : Action (Stop CommandError) Bool :=
  match fields with
  | [] => pure false
  | name :: args =>
    match r.find? name with
    | none => pure false
    | some command => do
      Action.note (.running name args.length)
      command fields
      return true

-- ---------------------------------------------------------------------------
-- Laws

theorem find?_put (name : String) (command : Command) (commands : List (String × Command))
    (other : String) :
    (put name command commands).find? (·.1 = other) =
      if other = name then some (name, command) else commands.find? (·.1 = other) := by
  induction commands with
  | nil => by_cases h : other = name <;> simp [put, h, eq_comm]
  | cons entry rest ih =>
    obtain ⟨first, old⟩ := entry
    rw [put]
    split
    · next he => subst he; by_cases h : other = name <;> simp [h, eq_comm]
    · split
      · by_cases h : other = name <;> simp [List.find?_cons, h, eq_comm]
      · next hne _ =>
        rw [List.find?_cons, List.find?_cons, ih]
        by_cases h : first = other
        · subst h; simp [Ne.symm hne]
        · simp [h]

/-- The command registered last under a name is the one that is found. -/
theorem find?_register (r : Registry) (name : String) (command : Command) (other : String) :
    (r.register name command).find? other =
      if other = name then some command else r.find? other := by
  rw [find?, register, find?_put]
  split <;> rfl

theorem mem_of_find? {r : Registry} {name : String} {command : Command}
    (h : r.find? name = some command) : (name, command) ∈ r.commands := by
  obtain ⟨entry, hentry, rfl⟩ := Option.map_eq_some_iff.mp h
  obtain rfl : entry.1 = name := by simpa using List.find?_some hentry
  exact List.mem_of_find?_eq_some hentry

theorem contains_iff (r : Registry) (name : String) : r.contains name ↔ name ∈ r.names := by
  simp [contains, find?, names]

end Registry

end LineShell.Builtin
