import LineShell.Script.Escapes
import LineShell.Script.Expansion
import LineShell.Text.Pieces

/-!
# Commands of scripts

What the words of a simple command do once their fields are known. Each command gives what it
prints and its status; a command that is used in a wrong way may end the script.
-/

namespace LineShell.Script

structure Result where
  output : Chars := []
  status : Nat := 0

def succeed : Step Result := pure {}

def failWith (status : Nat) : Step Result := pure { status }

def print (output : Chars) : Step Result := pure { output }

def truth (b : Bool) : Step Result := failWith (if b then 0 else 1)

-- ---------------------------------------------------------------------------
-- Ends and signals

def largestStatus : Nat := 2147483647

def numberIn? (cs : Chars) : Option Nat :=
  let digits := match Text.trim cs with
    | '+' :: digits => digits
    | digits => digits
  if isNumeral digits ∧ number digits ≤ largestStatus then some (number digits) else none

def runExit (args : List Chars) : Step Result := do
  match args with
  | [] => leave (← get).status
  | code :: _ => leave ((numberIn? code).getD misuse)

def firstRealTime : Nat := 34

/-- How far names count from the first real-time signal up and from the last one down. -/
def mostAboveFirst : Nat := 15

def mostBelowLast : Nat := 14

def realTimeNames : List (Nat × String) :=
  (firstRealTime, "RTMIN") :: (Programs.highestSignal, "RTMAX") ::
    (List.range mostAboveFirst).map (fun n => (firstRealTime + n + 1, s!"RTMIN+{n + 1}")) ++
    (List.range mostBelowLast).map fun n => (Programs.highestSignal - n - 1, s!"RTMAX-{n + 1}")

def namelessSignal : Nat := 16

def sentNames : List (Nat × String) :=
  Programs.signalNames.filter (·.1 ≠ namelessSignal) ++ realTimeNames

def handledNames : List (Nat × String) := (0, "EXIT") :: sentNames

def signal? (names : List (Nat × String)) (cs : Chars) : Option Nat :=
  if isNumeral cs then if number cs ≤ Programs.highestSignal then some (number cs) else none
  else (names.find? fun (_, name) => name.toList = cs.map Char.toUpper).map (·.1)

def sendTo (signal : Nat) (targets : List Chars) : Step Result := do
  let m ← get
  if targets.isEmpty then failWith misuse
  else if targets.all (· = decimal m.world.lastPid) then do
    targets.forM fun _ => receive signal
    succeed
  else if targets.all isNumeral then failWith 1
  else failWith misuse

def terminationSignal : Nat := 15

def runKill (args : List Chars) : Step Result :=
  match args with
  | ['-', 's'] :: spec :: targets => sendSpecified spec targets
  | ('-' :: spec) :: targets => sendSpecified spec targets
  | targets => sendTo terminationSignal targets
where
  sendSpecified (spec : Chars) (targets : List Chars) : Step Result :=
    match signal? sentNames spec with
    | some signal => sendTo signal targets
    | none => failWith misuse

def handlerFor (action : Chars) : Option (Option Chars) :=
  match action with
  | ['-'] => none
  | [] => some none
  | action => some (some action)

def runTrap (args : List Chars) : Step Result :=
  match args with
  | [] => succeed
  | action :: specs =>
    match specs.mapM (signal? handledNames) with
    | none => failWith 1
    | some signals => do
      modify fun m => signals.foldl (fun m signal => m.handle signal (handlerFor action)) m
      succeed

-- ---------------------------------------------------------------------------
-- Input

/-- A line of some input. A backslash keeps the next character from being a separator, and hides a
line end, unless it is read as it is. The characters come with a mark of those that were kept, after
them whether the line has an end, and how many bytes it takes up. -/
def readMarked (asItIs escaped : Bool) : Bytes → List (Char × Bool) × Bool × Nat
  | [] => ([], false, 0)
  | b :: rest =>
    let c := Char.ofNat b.toNat
    let escapes := c = '\\' && !escaped && !asItIs
    if c = '\n' ∧ !escaped then ([], true, 1)
    else
      let (line, complete, count) := readMarked asItIs (escapes || (b = 0 && escaped)) rest
      let skipped := escapes || b = 0 || c = '\n'
      (if skipped then line else (c, escaped) :: line, complete, count + 1)

def isGap (c : Char × Bool) : Bool := !c.2 && Fields.isSeparator c.1

/-- Gives the fields of a line to variables, the rest of the line to the last one. -/
def share : List Chars → List (Char × Bool) → List (Chars × Chars)
  | [], _ => []
  | [name], line =>
    let line := line.dropWhile isGap
    [(name, (line.reverse.dropWhile isGap).reverse.map (·.1))]
  | name :: names, line =>
    let line := line.dropWhile isGap
    (name, (line.takeWhile (!isGap ·)).map (·.1)) :: share names (line.dropWhile (!isGap ·))

def runRead (args : List Chars) : Step Result := do
  let m ← get
  let asItIs := args.head? = some ['-', 'r']
  let names := if asItIs then args.tail else args
  let (line, complete, count) := readMarked asItIs false m.input
  set ((share names line).foldl (fun m (name, value) => m.assign name value) (m.skipInput count))
  truth complete

def nodeAt? (m : Machine) (path : Chars) : Option Files.Node := m.world.follow? (bytesFrom path)

def contentAt? (m : Machine) (path : Chars) : Option Bytes :=
  if path = ['-'] then some m.input else (nodeAt? m path).bind (·.bytes?)

def runCopy (args : List Chars) : Step Result := do
  let m ← get
  let paths := if args = [] then [['-']] else args
  let contents := paths.map (contentAt? m)
  if ['-'] ∈ paths then set (m.skipInput m.input.length)
  return { output := (contents.map fun bytes => charsOf (bytes.getD [])).flatten
           status := if contents.all Option.isSome then 0 else 1 }

-- ---------------------------------------------------------------------------
-- Tests

def integer? (cs : Chars) : Option Int :=
  match Text.trim cs with
  | '-' :: digits => if isNumeral digits then some (-(number digits : Int)) else none
  | '+' :: digits | digits => if isNumeral digits then some (number digits) else none

def comparison? (op : Chars) : Option (Int → Int → Bool) :=
  match String.ofList op with
  | "-eq" => some (· == ·)
  | "-ne" => some (· != ·)
  | "-lt" => some fun a b => a < b
  | "-le" => some fun a b => a ≤ b
  | "-gt" => some fun a b => a > b
  | "-ge" => some fun a b => a ≥ b
  | _ => none

def entryAt? (m : Machine) (path : Chars) : Option Files.Node :=
  match m.world.files.place m.world.user m.world.cwd .entry (bytesFrom path) with
  | .ok (.node id) => m.world.files.node? id
  | _ => none

def testOne? (m : Machine) (op a : Chars) : Option Bool :=
  match String.ofList op with
  | "!" | "-z" => some (a = [])
  | "-n" => some (a ≠ [])
  | "-e" | "-r" | "-w" => some (nodeAt? m a).isSome
  | "-f" => some ((nodeAt? m a).any (·.isFile))
  | "-d" => some ((nodeAt? m a).any (·.isDirectory))
  | "-x" => some ((nodeAt? m a).any fun node => m.world.user.may .execute node.rights)
  | "-s" => some ((nodeAt? m a).any fun node => node.isDirectory || node.size ≠ 0)
  | "-p" => some ((nodeAt? m a).any (·.content = .fifo))
  | "-h" | "-L" => some ((entryAt? m a).any (·.content matches .link _))
  | _ => none

def testTwo? (a op b : Chars) : Option Bool :=
  match String.ofList op with
  | "=" => some (a = b)
  | "!=" => some (a ≠ b)
  | "-a" => some (a ≠ [] ∧ b ≠ [])
  | "-o" => some (a ≠ [] ∨ b ≠ [])
  | _ => do (← comparison? op) (← integer? a) (← integer? b)

/-- What a test that is not made of others comes to, if it has a meaning. -/
def plainTest? (m : Machine) : List Chars → Option Bool
  | [] => some false
  | [a] => some (a ≠ [])
  | [op, a] => testOne? m op a
  | [a, op, b] =>
    match testTwo? a op b with
    | some result => some result
    | none => if a = ['!'] then (testOne? m op b).map (!·) else none
  | [['!'], a, op, b] => (testTwo? a op b).map (!·)
  | _ => none

/-- What a test comes to, if it has a meaning. It may be made of others, any of which may hold, and
these of others, all of which have to. -/
def test? (m : Machine) (args : List Chars) : Option Bool :=
  match plainTest? m args with
  | some result => some result
  | none => do
    let results ← (Text.pieces "-o".toList args).mapM fun part =>
      (Text.pieces "-a".toList part).mapM (plainTest? m)
    return results.any (·.all id)

def runTest (args : List Chars) : Step Result := do
  match test? (← get) args with
  | some b => truth b
  | none => failWith misuse

-- ---------------------------------------------------------------------------
-- The script and its world

def directoryVariable : Chars := "PWD".toList

def formerVariable : Chars := "OLDPWD".toList

def homeVariable : Chars := "HOME".toList

def Machine.directory (m : Machine) : Chars := (m.value? directoryVariable).getD []

def runWorkingDirectory : Step Result := do print ((← get).directory ++ ['\n'])

def joinedPath (start path : Chars) : Chars :=
  let names := Text.pieces '/' (if path.head? = some '/' then path else start ++ '/' :: path)
  let kept := names.foldl (fun kept name =>
    if name = [] ∨ name = ['.'] then kept
    else if name = ['.', '.'] then kept.dropLast
    else kept ++ [name]) []
  '/' :: ['/'].intercalate kept

def enterDirectory (path : Chars) (output : Chars) : Step Result := do
  let m ← get
  let path := joinedPath m.directory path
  match m.world.files.lookup m.world.user m.world.cwd (bytesFrom path) with
  | .ok id =>
    if (m.world.files.directory? id).isSome then do
      let moved := { m with world := { m.world with cwd := id } }
      set ((moved.assign formerVariable m.directory).assign directoryVariable path)
      print output
    else failWith misuse
  | .error _ => failWith misuse

def runEnter (args : List Chars) : Step Result := do
  let m ← get
  match args with
  | [] => enterDirectory ((m.value? homeVariable).getD []) []
  | [['-']] =>
    let path := (m.value? formerVariable).getD []
    enterDirectory path (path ++ ['\n'])
  | path :: _ => enterDirectory path []

def octalNumber (digits : Chars) : Nat := digits.foldl (fun n c => n * 8 + (c.toNat - 48)) 0

def runMask (args : List Chars) : Step Result := do
  let m ← get
  match args with
  | [] =>
    let digits := Nat.toDigits 8 m.world.umask
    print (List.replicate (4 - digits.length) '0' ++ digits ++ ['\n'])
  | mask :: _ =>
    if mask.all isOctal then do
      set { m with world := { m.world with umask := octalNumber mask % 0o1000 } }
      succeed
    else failWith misuse

def runSet : List Chars → Step Result
  | [] => succeed
  | ['-', '-'] :: args => do
    modify ({ · with args })
    succeed
  | (sign :: options) :: rest =>
    if sign = '-' ∨ sign = '+' then do
      if options.contains 'e' then modify ({ · with strict := sign = '-' })
      runSet rest
    else do
      modify ({ · with args := (sign :: options) :: rest })
      succeed
  | args => do
    modify ({ · with args })
    succeed

/-- The count that a command's first argument gives, which must not be more than some number. -/
def countIn? (args : List Chars) (most : Nat) : Option Nat :=
  match args with
  | [] => if 1 ≤ most then some 1 else none
  | count :: _ => (numberIn? count).filter (· ≤ most)

def runShift (args : List Chars) : Step Result := do
  let m ← get
  match countIn? args m.args.length with
  | some count => do
    set { m with args := m.args.drop count }
    succeed
  | none => leave misuse

def runUnset (args : List Chars) : Step Result := do
  modify fun m => args.foldl Machine.unset m
  succeed

def runExport (args : List Chars) : Step Result := do
  modify fun m => args.foldl (fun m arg =>
    match Text.cutAt '=' arg with
    | some (name, value) => { m.assign name value with exported := name :: m.exported }
    | none => { m with exported := arg :: m.exported }) m
  succeed

def runLeave (jump : Nat → Jump) (args : List Chars) : Step Result := do
  match (← get).loops, numberIn? (args.headD ['1']) with
  | _, none | _, some 0 => leave misuse
  | 0, _ => succeed
  | loops + 1, some (count + 1) => throw (jump (min count loops))

def runPrint : List Chars → Step Result
  | ['-', '-'] :: format :: args => print (printfText format args)
  | [] | ('-' :: _ :: _) :: _ => failWith misuse
  | format :: args => print (printfText format args)

def commandNamed? (name : Chars) : Option (List Chars → Step Result) :=
  match String.ofList name with
  | ":" | "true" | "sleep" | "wait" => some fun _ => succeed
  | "false" => some fun _ => failWith 1
  | "echo" => some fun args => print (echoText args)
  | "printf" => some runPrint
  | "exit" | "return" => some runExit
  | "kill" => some runKill
  | "trap" => some runTrap
  | "read" => some runRead
  | "cat" => some runCopy
  | "test" => some runTest
  | "[" => some fun args =>
    if args.getLast? = some [']'] then runTest args.dropLast else failWith misuse
  | "pwd" => some fun _ => runWorkingDirectory
  | "cd" => some runEnter
  | "umask" => some runMask
  | "set" => some runSet
  | "shift" => some runShift
  | "unset" => some runUnset
  | "export" => some runExport
  | "break" => some (runLeave .leaveLoop)
  | "continue" => some (runLeave .nextTurn)
  | _ => none

end LineShell.Script
