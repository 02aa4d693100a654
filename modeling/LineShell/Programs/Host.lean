import LineShell.Programs.Child
import LineShell.Programs.Wait
import LineShell.World

/-!
# Hosts

What a shell needs of the system to run programs: new processes, the execution of an image and
the reports about a child. A program may do anything to the files and may take bytes from
standard input, but puts none back.
-/

namespace LineShell.Programs

structure Streams where
  input : Bytes
  /-- Nothing can be written to the output. -/
  shut : Bool := false
deriving DecidableEq

/-- All that a program did until it ended. -/
structure Run where
  files : Files.FileTree
  /-- How many bytes of standard input it took. -/
  taken : Nat := 0
  output : Bytes := []
  status : Nat

structure Host where
  /-- The number of a new process. The requests for one are counted. -/
  fork : Nat → World → Except Errno Nat
  /-- What the image does when it is executed, unless it cannot be. -/
  exec : Image → World → Streams → Option Run
  /-- The reports about a child that ends with a status. -/
  reports : World → Nat → List WaitResult

def noImageCode : Nat := 127

/-- What becomes of a child that is to execute an image. -/
def Host.run (host : Host) (image : Image) (w : World) (streams : Streams) : Run :=
  (host.exec image w streams).getD { files := w.files, status := exitStatus noImageCode }

end LineShell.Programs
