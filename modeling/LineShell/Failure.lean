import LineShell.Errno

/-!
# Failures of files and streams

Why an operation on a file or a stream failed: a system call refused, or the bytes or the
request were refused before any system call. Readers may bring failures of their own, with
their own wording. Only the kind decides how a reader goes on.

Not everything that has no result was refused: a fifo that nobody writes to is never opened, and
whoever opens it waits.
-/

namespace LineShell

inductive FailureKind
  /-- The bytes are not what they should be. -/
  | invalidData
  /-- Nothing happened, and the operation may be tried again. -/
  | interrupted
  | unexpectedEnd
  | other
deriving DecidableEq, Repr

inductive Failure
  | system (errno : Errno)
  | notUtf8
  | nulInName
  | sourceNotRegular
  | reported (kind : FailureKind) (text : String)
deriving DecidableEq, Repr

namespace Failure

def kind : Failure → FailureKind
  | .system e => if e = .interrupted then .interrupted else .other
  | .notUtf8 => .invalidData
  | .nulInName | .sourceNotRegular => .other
  | .reported kind _ => kind

def message : Failure → String
  | .system e => e.message
  | .notUtf8 => "stream did not contain valid UTF-8"
  | .nulInName => "file name contained an unexpected NUL byte"
  | .sourceNotRegular => "the source path is neither a regular file nor a symlink to a regular file"
  | .reported _ text => text

end Failure

/-- Why something has no result. -/
inductive Stop (ε : Type)
  /-- It was refused, and whoever asked for it goes on. -/
  | refused (error : ε)
  /-- It waits for what never comes. -/
  | waits
deriving DecidableEq, Repr

def Stop.map (f : ε → ε') : Stop ε → Stop ε'
  | .refused error => .refused (f error)
  | .waits => .waits

-- ---------------------------------------------------------------------------
-- Errors of another kind

section
variable (error : ε → ε')

@[simp] theorem mapError_ok (a : α) : (Except.ok a : Except ε α).mapError error = .ok a := rfl

@[simp] theorem mapError_error (e : ε) :
    (Except.error e : Except ε α).mapError error = .error (error e) := rfl

end

end LineShell
