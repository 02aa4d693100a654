import LineShell.Builtin.Command

/-!
# Details of a file

What is known about the node a path leads to. All that is not a regular file is called a
directory, even a path that leads nowhere, about which nothing more can be said.
-/

namespace LineShell.Builtin

def yesNo (answer : Bool) : String := if answer then "True" else "False"

def kindLines (w : World) (path : String) : Except Failure Files.Node → List String
  | .ok node =>
    if node.isFile then
      ["File Name: " ++ path, "Directory/File: file", s!"Size: {node.size}",
        "Executable?: " ++ yesNo (w.isExecutable path)]
    else ["Directory/File: directory"]
  | .error _ => ["Directory/File: directory"]

def info : Command := unary fun path => do
  let w ← Action.world
  let found := w.stat path
  sayAll (kindLines w path found)
  match found with
  | .ok node => do
    say ("Owner: " ++ w.ownerName node.owner)
    say ("Last Edited: " ++ w.clock.localText node.modified.seconds)
  | .error failure => do
    Action.note (.statFailed path failure)
    say ("Cannot stat " ++ path ++ ": " ++ failure.message)

end LineShell.Builtin
