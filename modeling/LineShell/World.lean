import LineShell.Files.Opening
import LineShell.Time.Clock

/-!
# The world a shell works in

The file tree with the directory in use, and what else commands and child processes share: the
environment, the clock, the users. A request to the system is granted or refused by what the user
may do; one that is refused leaves the world as it was.
-/

namespace LineShell

structure World where
  files : Files.FileTree
  cwd : Files.NodeId
  /-- Who runs the shell. -/
  user : Files.User
  now : Time.Instant
  clock : Time.Clock
  umask : Nat
  environment : List (Bytes × Bytes)
  /-- The names of users, by number. -/
  users : List (Nat × String)
  /-- The highest process number in use. -/
  lastPid : Nat

/-- The text has a NUL, which ends texts for the system. -/
def HoldsNul (text : String) : Prop := '\x00' ∈ text.toList

instance (text : String) : Decidable (HoldsNul text) :=
  inferInstanceAs (Decidable ('\x00' ∈ text.toList))

/-- What the system gives when a directory is read: one name after the other, in an order of its
own, or a failure in place of a name or of all of them. -/
abbrev Reading := Except Failure (List (Except Failure Files.Name))

/-- All the names, or the first failure. -/
def Reading.names (reading : Reading) : Except Failure (List Files.Name) := reading.bind (·.mapM id)

namespace World

def valueOf? (w : World) (name : String) : Option Bytes :=
  (w.environment.find? (·.1 = bytesOf name)).map (·.2)

-- ---------------------------------------------------------------------------
-- Looking

def pathBytes (path : String) : Except Failure Bytes :=
  if HoldsNul path then .error .nulInName else .ok (bytesOf path)

def locate (w : World) (path : String) : Except Failure Files.NodeId :=
  match pathBytes path with
  | .error f => .error f
  | .ok bytes => (w.files.lookup w.user w.cwd bytes).mapError .system

def stat (w : World) (path : String) : Except Failure Files.Node :=
  match w.locate path with
  | .error f => .error f
  | .ok id => (w.files.node? id).elim (.error (.system .noEntry)) .ok

def follow? (w : World) (path : Bytes) : Option Files.Node :=
  (w.files.lookup w.user w.cwd path).toOption.bind w.files.node?

def leadsSomewhere (w : World) (path : String) : Bool := (w.stat path).toOption.isSome

def leadsTo (w : World) (p : Files.Node → Bool) (path : String) : Bool :=
  (w.stat path).toOption.any p

def isDirectory (w : World) (path : String) : Bool := w.leadsTo (·.isDirectory) path

def mayRun (w : World) (node : Files.Node) : Bool := node.isFile && w.user.may .execute node.rights

def isExecutable (w : World) (path : String) : Bool := w.leadsTo w.mayRun path

def reading (w : World) : Reading :=
  match w.files.lookup w.user w.cwd Files.here with
  | .error e => .error (.system e)
  | .ok id =>
    match w.files.directory? id with
    | none => .error (.system .notDirectory)
    | some dir =>
      if !w.files.grants w.user .read id then .error (.system .denied)
      else .ok (dir.entries.map fun entry => .ok entry.1)

def currentPath (w : World) : Except Failure Bytes :=
  (w.files.namesOf? w.cwd).elim (.error (.system .noEntry))
    fun names => .ok (Files.Path.render names)

def ownerName (w : World) (uid : Nat) : String :=
  ((w.users.find? (·.1 = uid)).map (·.2)).getD (toString uid)

-- ---------------------------------------------------------------------------
-- Reading and writing files

def openForReading (w : World) (path : String) : Except (Stop Failure) Files.NodeId :=
  match pathBytes path with
  | .error f => .error (.refused f)
  | .ok bytes => (w.files.openForReading w.user w.cwd bytes).mapError (·.map .system)

def fileMode (w : World) (id : Files.NodeId) : Except (Stop Failure) Nat :=
  match (w.files.node? id).filter (·.isFile) with
  | some node => .ok node.mode
  | none => .error (.refused .sourceNotRegular)

def openForWriting (w : World) (path : String) : Except (Stop Failure) Files.NodeId :=
  match pathBytes path with
  | .error f => .error (.refused f)
  | .ok bytes => (w.files.openForWriting w.user w.cwd bytes).mapError (·.map .system)

def create (w : World) (path : String) (mode : Nat) :
    Except (Stop Failure) (Files.NodeId × World) :=
  match pathBytes path with
  | .error f => .error (.refused f)
  | .ok bytes =>
    match w.files.create w.user w.cwd bytes (mode - (mode &&& w.umask)) w.now with
    | .error stop => .error (stop.map .system)
    | .ok (id, files) => .ok (id, { w with files })

def setMode (w : World) (id : Files.NodeId) (mode : Nat) : World :=
  { w with files := w.files.update id ({ · with mode := Files.permissionBits mode }) }

def transfer (w : World) (source target : Files.NodeId) : World :=
  { w with files := w.files.setContent target ((w.files.file? source).getD []) w.now }

def setTime (w : World) (id : Files.NodeId) (time : Time.Instant) : World :=
  { w with files := w.files.update id ({ · with modified := time }) }

/-- The text of a file that is read from its start to its end. -/
def readText (w : World) (path : Bytes) : Except (Stop Failure) String :=
  if 0 ∈ path then .error (.refused .nulInName)
  else match w.files.openForReading w.user w.cwd path with
    | .error stop => .error (stop.map .system)
    | .ok id =>
      if (w.files.directory? id).isSome then .error (.refused (.system .isDirectory))
      else match Utf8.decode? ((w.files.file? id).getD []) with
        | none => .error (.refused .notUtf8)
        | some cs => .ok (String.ofList cs)

def isFile (w : World) (path : Bytes) : Bool := !path.contains 0 && (w.follow? path).any (·.isFile)

-- ---------------------------------------------------------------------------
-- Moving and removing

def enter (w : World) (path : String) : Except Failure World :=
  match w.locate path with
  | .error f => .error f
  | .ok id =>
    if (w.files.directory? id).isNone then .error (.system .notDirectory)
    else if !w.files.grants w.user .execute id then .error (.system .denied)
    else .ok { w with cwd := id }

def remove (w : World) (path : String) : Except Failure World :=
  match pathBytes path with
  | .error f => .error f
  | .ok bytes =>
    ((w.files.unlink w.user w.cwd bytes w.now).mapError .system).map fun files => { w with files }

-- ---------------------------------------------------------------------------
-- Laws

theorem mapError_eq_ok {x : Except ε α} {error : ε → ε'} {a : α} :
    x.mapError error = .ok a ↔ x = .ok a := by
  cases x with
  | error e => exact ⟨fun h => (nomatch h), fun h => (nomatch h)⟩
  | ok b =>
    constructor
    all_goals
      intro h
      cases h
      rfl

theorem locate_eq_ok {w : World} {path : String} {id : Files.NodeId} :
    w.locate path = .ok id ↔
      ∃ bytes, pathBytes path = .ok bytes ∧ w.files.lookup w.user w.cwd bytes = .ok id := by
  unfold locate
  cases pathBytes path with
  | error f => simp
  | ok bytes => simp [mapError_eq_ok]

theorem currentPath_ok {w : World} {bytes : Bytes} (h : w.currentPath = .ok bytes) :
    ∃ names, Files.Path.render names = bytes := by
  rw [currentPath] at h
  cases hnames : w.files.namesOf? w.cwd with
  | none => simp [hnames] at h
  | some names => exact ⟨names, by simpa [hnames] using h⟩

end World

end LineShell
