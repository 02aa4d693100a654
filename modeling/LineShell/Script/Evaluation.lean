import LineShell.Programs.Host
import LineShell.Script.Commands
import LineShell.Script.Outlets

/-!
# Running scripts

How commands run one after the other. The words of a command are expanded first, then its
redirections are opened, then it gets its variables. Handlers of signals that came in run
between commands.
-/

namespace LineShell.Script

abbrev Executor := Chars → List Chars → World → Programs.Streams → Option Programs.Run

-- ---------------------------------------------------------------------------
-- Programs

def pathVariable : Chars := "PATH".toList

def usualPath : Chars := "/usr/local/sbin:/usr/local/bin:/usr/sbin:/usr/bin:/sbin:/bin".toList

def isProgram (m : Machine) (path : Chars) : Bool := (nodeAt? m path).any m.world.mayRun

def programPath? (m : Machine) (name : Chars) : Option Chars :=
  if '/' ∈ name then some name
  else
    let directories := Text.pieces ':' ((m.value? pathVariable).getD usualPath)
    let candidate (directory : Chars) := if directory = [] then name else directory ++ '/' :: name
    (directories.map candidate).find? (isProgram m)

def Machine.environment (m : Machine) : List (Bytes × Bytes) :=
  m.exported.eraseDups.filterMap fun name =>
    (m.value? name).map fun value => (bytesFrom name, bytesFrom value)

def unknownProgram : Nat := 127

def noProgram : Nat := 126

def killedStatus (signal : Nat) : Nat := 128 + signal

def runProgram (exec : Executor) (name : Chars) (args : List Chars) : Step Unit := do
  let m ← get
  match (programPath? m name).filter fun path => (nodeAt? m path).isSome with
  | none => setStatus unknownProgram
  | some path =>
    if !isProgram m path then setStatus noProgram
    else
      let shut := m.shut && m.outlets.output == .transcript
      let world := { m.world with lastPid := m.world.lastPid + 1, environment := m.environment }
      match exec path (name :: args) world { input := m.input, shut } with
      | none => setStatus unknownProgram
      | some run => do
        set { (m.skipInput run.taken) with world := { m.world with files := run.files } }
        discard (deliver (charsOf run.output))
        match Programs.ending? m.world.lastPid run.status with
        | some (.exited code) => setStatus code
        | _ => setStatus (killedStatus (run.status % 128))

-- ---------------------------------------------------------------------------
-- Simple commands

def assignment? (word : Word) : Option (Chars × Word) :=
  match Text.cutAt '=' ((bareStart word).1) with
  | some (name, rest) =>
    if isName name then some (name, .literal rest true :: (bareStart word).2) else none
  | none => none
where
  /-- The literal text a word starts with, and what follows it. -/
  bareStart : Word → Chars × Word
    | .literal text false :: rest =>
      let (more, rest) := bareStart rest
      (text ++ more, rest)
    | rest => ([], rest)

def assignments : List Word → List (Chars × Word) × List Word
  | [] => ([], [])
  | word :: rest =>
    match assignment? word with
    | none => ([], word :: rest)
    | some assignment =>
      let (more, words) := assignments rest
      (assignment :: more, words)

def assignAll (inner : Inner) (assignments : List (Chars × Word)) : Step Unit :=
  assignments.forM fun (name, value) => do
    let value ← inner.expandWhole value
    modify (·.assign name value)

/-- Commands whose assignments stay after them. -/
def keepsAssignments : List String :=
  [":", "break", "continue", "eval", "exit", "export", "set", "shift", "trap", "unset"]

def Machine.takeBack (m former : Machine) (names : List Chars) : Machine :=
  let m := { m with exported := former.exported }
  names.foldl (fun m name => ((former.value? name).elim (m.unset name) (m.assign name ·))) m

def runOwn (command : List Chars → Step Result) (args : List Chars) : Step Unit := do
  let result ← command args
  let written ← deliver result.output
  setStatus (if written then result.status else result.status ||| 1)

def runFields (inner : Inner) (exec : Executor) (name : Chars) (args : List Chars) : Step Unit :=
  match commandNamed? name with
  | some command => runOwn command args
  | none =>
    match String.ofList name with
    | "eval" => do
      setStatus 0
      inner.run ([' '].intercalate args)
    | "exec" => do
      runProgram exec (args.headD []) args.tail
      leave (← get).status
    | _ => runProgram exec name args

def runSimple (inner : Inner) (exec : Executor) (words : List Word)
    (redirections : List Redirection) : Step Unit := do
  modify ({ · with innerStatus := 0 })
  let (assigned, words) := assignments words
  let fields ← inner.expand words
  if assigned = [] ∧ fields = ["exec".toList] then
    return ← setStatus (if ← openAll inner redirections then 0 else misuse)
  redirecting inner redirections do
    let former ← get
    assignAll inner assigned
    match fields with
    | [] => setStatus (← get).innerStatus
    | name :: args =>
      if assigned = [] ∨ keepsAssignments.contains (String.ofList name) then
        runFields inner exec name args
      else do
        let names := assigned.map (·.1)
        modify fun m => { m with exported := names ++ m.exported }
        guarded (runFields inner exec name args) fun m => m.takeBack former names

-- ---------------------------------------------------------------------------
-- Commands

/-- Runs the handlers of signals that wait. They leave the status as it was. -/
def catchUp (run : Chars → Step Unit) : Step Unit := do
  let m ← get
  if m.apart then return
  set { m with waiting := [] }
  m.waiting.forM fun signal =>
    match m.handlers.find? (·.1 = signal) with
    | some (_, some handler) => do
      run handler
      setStatus m.status
    | _ => pure ()

def insist (asked : Bool) : Step Unit := do
  let m ← get
  if m.strict ∧ !asked ∧ m.status ≠ 0 then leave m.status

def succeeded : Step Bool := do return (← get).status = 0

def runWith (inner : Inner) (exec : Executor) (asked : Bool) : Command → Step Unit
  | .skip => pure ()
  | .simple words redirections => do
    runSimple inner exec words redirections
    catchUp inner.run
    insist asked
  | .andThen first second => do
    runWith inner exec asked first
    runWith inner exec asked second
  | .both first second => do
    runWith inner exec true first
    if ← succeeded then runWith inner exec asked second
  | .either first second => do
    runWith inner exec true first
    if !(← succeeded) then runWith inner exec asked second
  | .pipe first second => do
    let bytes ← captured (runWith inner exec asked first)
    feeding bytes (isolated (runWith inner exec asked second))
    catchUp inner.run
    insist asked
  | .negated command => do
    runWith inner exec true command
    setStatus (if ← succeeded then 1 else 0)
  | .branch condition yes no => do
    runWith inner exec true condition
    if ← succeeded then runWith inner exec asked yes
    else if no = .skip then setStatus 0
    else runWith inner exec asked no
  | .loop goOn condition body =>
    let holds : Step Bool := do
      runWith inner exec true condition
      return (← succeeded) == goOn
    looping (repeatWhile holds (runWith inner exec asked body) mostTurns)
  | .forEach name words body => do
    let values ← inner.expand words
    looping (repeatFor (fun value => do
      modify (·.assign name value)
      runWith inner exec asked body) values)
  | .subshell command => do
    isolated (runWith inner exec asked command)
    catchUp inner.run
    insist asked
  | .background command => do
    feeding [] (isolated (runWith inner exec true command))
    setStatus 0
  | .redirected command redirections =>
    redirecting inner redirections (runWith inner exec asked command)

def runLines (run : Command → Step Unit) (text : Chars) : Step Unit := do
  let lines := parse text
  lines.commands.forM run
  if !lines.complete then leave misuse

/-- The words and scripts inside words, down to some depth. -/
def innerAt (exec : Executor) : Nat → Inner
  | 0 => { addWords := fun f _ _ => return f, run := fun _ => pure () }
  | depth + 1 =>
    let inner := innerAt exec depth
    { addWords := fun f quoted text =>
        match wordsOf? quoted text with
        | none => leave misuse
        | some [] => return if quoted then f.grow [] else f
        | some (word :: words) => do
          words.foldlM (fun f word => inner.addWord f.cut word) (← inner.addWord f word)
      run := runLines (runWith inner exec false) }

def deepestScript : Nat := 16

/-- The status word of a script that ended in this way. -/
def Jump.status (m : Machine) : Jump → Nat
  | .exit code => Programs.exitStatus code
  | .killed signal => Programs.signalStatus signal
  | _ => Programs.exitStatus m.status

/-- Runs a whole script and gives its status word. At its end the handler for the end has its
say. -/
def runScript (exec : Executor) (text : Chars) (m : Machine) : Nat × Machine :=
  let run := (innerAt exec deepestScript).run
  let (ended, m) := (run text).run m
  match ended, m.handlers.find? (·.1 = 0) with
  | .error (.killed signal), _ => (Programs.signalStatus signal, m)
  | ended, some (_, some handler) =>
    let code := match ended with
      | .error (.exit code) => code % 256
      | _ => m.status
    let (ended, m) := (run handler).run { m with status := code, handlers := [] }
    match ended with
    | .error jump => (jump.status m, m)
    | .ok () => (Programs.exitStatus code, m)
  | .error jump, _ => (jump.status m, m)
  | .ok (), _ => (Programs.exitStatus m.status, m)

end LineShell.Script
