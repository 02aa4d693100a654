/-!
# Search paths

The directories in which a bare command name is looked up, in order. Every entry ends with a
slash, so entry and name written one after the other are the path to try.
-/

namespace LineShell

def EndsInSlash (s : String) : Prop := s.toList.getLast? = some '/'

instance (s : String) : Decidable (EndsInSlash s) :=
  inferInstanceAs (Decidable (s.toList.getLast? = some '/'))

structure SearchPath where
  dirs : List String
  closed : ∀ d ∈ dirs, EndsInSlash d
deriving DecidableEq

namespace SearchPath

def close (dir : String) : String := if EndsInSlash dir then dir else dir ++ "/"

theorem endsInSlash_close (dir : String) : EndsInSlash (close dir) := by
  unfold close
  split
  · assumption
  · simp [EndsInSlash, String.toList_append]

/-- Empty entries say nothing and are left out. -/
def ofList (dirs : List String) : SearchPath where
  dirs := (dirs.filter (· ≠ "")).map close
  closed d h := by
    obtain ⟨raw, _, rfl⟩ := List.mem_map.1 h
    exact endsInSlash_close raw

protected def default : SearchPath := ofList ["/bin/", "/usr/bin/", "/usr/local/bin/", "./"]

def candidates (path : SearchPath) (command : String) : List String :=
  path.dirs.map (· ++ command)

end SearchPath

end LineShell
