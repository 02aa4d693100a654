import LineShell.Script.Evaluation

/-!
# Calling the script shell

What the arguments of the script shell ask for: a script that is given as text, in a file or on
standard input, and the arguments of the script.
-/

namespace LineShell.Script

structure Invocation where
  text : Option Chars
  name : Chars
  args : List Chars
  strict : Bool := false
  /-- The script is what standard input holds. -/
  fromInput : Bool := false

def optionLetters : Chars := "abCcefhIimnsuVvx".toList

structure Flags where
  strict : Bool := false
  asText : Bool := false

/-- The options that arguments start with, and the other arguments, unless one is unknown. -/
def flags (f : Flags) : List Chars → Option (Flags × List Chars)
  | ['-'] :: rest | ['-', '-'] :: rest => some (f, rest)
  | (sign :: letters) :: rest =>
    let isOn := sign = '-'
    if !isOn ∧ sign ≠ '+' then some (f, (sign :: letters) :: rest)
    else if !letters.all optionLetters.contains then none
    else flags { strict := if letters.contains 'e' then isOn else f.strict
                 asText := if letters.contains 'c' then isOn else f.asText } rest
  | rest => some (f, rest)

def nul : Char := '\x00'

/-- The text of the script at a path, without NULs. What is no regular file holds an empty one. -/
def fileText (w : World) (path : Chars) : Option Chars :=
  (w.follow? (bytesFrom path)).map fun node =>
    (charsOf (node.bytes?.getD [])).filter (· ≠ nul)

def invocation (w : World) (stdin : Bytes) (own : Chars) (args : List Chars) : Invocation :=
  match flags {} args with
  | none => { text := none, name := own, args := [] }
  | some (f, rest) =>
    match f.asText, rest with
    | true, [] => { text := none, name := own, args := [] }
    | true, text :: rest =>
      { text := some text, name := rest.headD own, args := rest.tail, strict := f.strict }
    | false, [] =>
      { text := some ((charsOf stdin).filter (· ≠ nul)), name := own, args := []
        strict := f.strict, fromInput := true }
    | false, path :: args => { text := fileText w path, name := path, args, strict := f.strict }

def startBindings (w : World) : List (Chars × Chars) :=
  let directory := (w.currentPath.toOption.map charsOf).getD []
  (directoryVariable, directory) ::
    (w.environment.map fun (name, value) => (charsOf name, charsOf value)).filter
      (·.1 ≠ directoryVariable)

def shellRun (exec : Executor) (w : World) (streams : Programs.Streams) (argv : List Chars) :
    Programs.Run :=
  let call := invocation w streams.input (argv.headD []) argv.tail
  match call.text with
  | none => { files := w.files, status := Programs.exitStatus misuse }
  | some text =>
    let bindings := startBindings w
    let (status, m) := runScript exec text {
      world := w, stdin := if call.fromInput then [] else streams.input
      taken := if call.fromInput then streams.input.length else 0, shut := streams.shut
      name := call.name, args := call.args, bindings, exported := bindings.map (·.1)
      strict := call.strict }
    { files := m.world.files, taken := m.taken, output := m.output, status }

end LineShell.Script
