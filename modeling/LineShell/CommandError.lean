import LineShell.Failure

/-!
# Refused commands

Why a command did not do what it was asked: a program could not be started or waited for, a
built-in failed, or its report could not be written.
-/

namespace LineShell

inductive LaunchError
  | notExecutable (path : String)
  | invalidArgument (argument : String)
  | spawn (path : String) (errno : Errno)
  | wait (pid : Int) (errno : Errno)
deriving DecidableEq, Repr

def LaunchError.message : LaunchError → String
  | .notExecutable path => "executable " ++ path ++ " not found"
  | .invalidArgument argument => "invalid argument for " ++ argument ++ ": contains a NUL byte"
  | .spawn path errno => "could not spawn " ++ path ++ ": " ++ errno.label
  | .wait pid errno => s!"could not wait for child {pid}: " ++ errno.label

inductive CommandError
  | launch (error : LaunchError)
  | builtin (name : String) (failure : Failure)
  | output (failure : Failure)
deriving DecidableEq, Repr

def CommandError.message : CommandError → String
  | .launch error => "Something went wrong there: " ++ error.message
  | .builtin name failure => name ++ ": " ++ failure.message
  | .output failure => "IO error: " ++ failure.message

end LineShell
