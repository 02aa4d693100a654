import LineShell.Builtin.Command

/-!
# Deleting and copying

Deleting takes away one entry, and copying adds one. Both look through links to find out whether
there is something at a path; deleting then removes the entry itself.
-/

namespace LineShell.Builtin

def delete : Command := unary fun path => do
  let w ← Action.world
  if w.leadsSomewhere path then do
    asking "delete" (Action.request fun w =>
      ((w.remove path).mapError .refused).map fun w => ((), w))
    say "Successfully deleted"
  else say "File does not exist"

/-- The contents and the permissions of a file. The source has to be open before there is a
target. -/
def copyFile (source target : String) : Action (Stop Failure) Unit := do
  let reader ← Action.query (·.openForReading source)
  let mode ← Action.query (·.fileMode reader)
  let writer ← Action.request (·.create target mode)
  Action.change (·.setMode writer mode)
  Action.change (·.transfer reader writer)

/-- The time goes last, since writing changes it. By then the target has its permissions. -/
def copyPreservingTimes (source target : String) : Action (Stop Failure) Unit := do
  copyFile source target
  let node ← Action.query fun w => (w.stat source).mapError .refused
  let writer ← Action.query (·.openForWriting target)
  Action.change (·.setTime writer node.modified)

/-- Never writes over what is there. -/
def copy : Command := binary fun source target => do
  let w ← Action.world
  if !w.leadsSomewhere source then say "From file does not exist"
  else if w.leadsSomewhere target then say "To file already exists"
  else asking "copy" (copyPreservingTimes source target)

end LineShell.Builtin
