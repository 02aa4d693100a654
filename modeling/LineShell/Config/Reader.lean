import LineShell.Config.Basic
import LineShell.Failure
import LineShell.Text.Blank
import LineShell.Text.Pieces

/-!
# Reading a configuration

One setting a line, written `key=value`; blank lines and lines that start with `#` say nothing.
White space around the key and around the directories is dropped, the prompt keeps all of its.
Reading stops at the first line that is neither.
-/

namespace LineShell.Config

inductive LineFault
  | noEquals (line : String)
  | unknownKey (key : String)
deriving DecidableEq, Repr

def LineFault.message : LineFault → String
  | .noEquals line => "No '=' found: " ++ line
  | .unknownKey key => "Unknown key: " ++ key

/-- The first faulty line of a file, counted from one over all of its lines. -/
structure Fault where
  line : Nat
  fault : LineFault
deriving DecidableEq, Repr

def Fault.message (f : Fault) : String := s!"Line {f.line}: " ++ f.fault.message

def setting (key value : List Char) : Except LineFault Setting :=
  if key = "prompt".toList then .ok (.prompt (String.ofList value))
  else if key = "search_path".toList then
    let dirs := Text.pieces ':' (Text.trim value)
    .ok (.searchPath (.ofList (dirs.map String.ofList)))
  else .error (.unknownKey (String.ofList key))

def readLine (line : List Char) : Except LineFault (Option Setting) :=
  match Text.trimStart line with
  | [] => .ok none
  | '#' :: _ => .ok none
  | _ =>
    match Text.cutAt '=' line with
    | none => .error (.noEquals (String.ofList line))
    | some (key, value) => (setting (Text.trim key) value).map some

def readLines : List (List Char × Nat) → Except Fault (List Setting)
  | [] => .ok []
  | (line, number) :: rest =>
    match readLine line with
    | .error fault => .error ⟨number, fault⟩
    | .ok none => readLines rest
    | .ok (some s) => (readLines rest).map (s :: ·)

def parse (text : String) : Except Fault Config :=
  (readLines ((Text.lines text.toList).zipIdx 1)).map ofSettings

inductive Error
  | unreadable (failure : Failure)
  | malformed (fault : Fault)
deriving DecidableEq, Repr

def Error.describe (detail : String) : String := "Parse error: " ++ detail

def Error.message : Error → String
  | .unreadable failure => "IO error: " ++ failure.message
  | .malformed fault => Error.describe fault.message

def load (text : String) : Except Error Config := (parse text).mapError .malformed

end LineShell.Config
