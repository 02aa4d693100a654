import LineShell.Script.Arithmetic
import LineShell.Script.Isolation

/-!
# Expanding words

The fields that words stand for. A value that is not quoted is split at blanks; the quoted list
of arguments gives one field for each argument, and none if there are none. A word may hold
words and scripts of its own: what is done about these is handed in, so that an expansion goes
only one level down.
-/

namespace LineShell.Script

def decimal (n : Nat) : Chars := (toString n).toList

namespace Machine

def isLacking (m : Machine) : Parameter → Bool
  | .argument 0 => false
  | .argument (n + 1) => m.args.length ≤ n
  | .arguments | .joined => m.args.isEmpty
  | .count | .status | .self => false
  | .named name => (m.value? name).isNone

def valueOf (m : Machine) : Parameter → Chars
  | .argument 0 => m.name
  | .argument (n + 1) => m.args.getD n []
  | .count => decimal m.args.length
  | .arguments | .joined => [' '].intercalate m.args
  | .status => decimal m.status
  | .self => decimal m.world.lastPid
  | .named name => (m.value? name).getD []

end Machine

structure Fields where
  complete : List Chars := []
  growing : Option Chars := none

namespace Fields

def grow (f : Fields) (text : Chars) : Fields :=
  { f with growing := some (f.growing.getD [] ++ text) }

def cut (f : Fields) : Fields := ⟨f.complete ++ f.growing.toList, none⟩

def isSeparator (c : Char) : Bool := c = ' ' || c = '\t' || c = '\n'

def scatter (f : Fields) (text : Chars) : Fields :=
  text.foldl (fun f c => if isSeparator c then f.cut else f.grow [c]) f

def take (f : Fields) (quoted : Bool) (text : Chars) : Fields :=
  if quoted then f.grow text else f.scatter text

def spread (f : Fields) (quoted : Bool) (texts : List Chars) : Fields :=
  match texts with
  | [] => f
  | text :: rest => rest.foldl (fun f text => f.cut.take quoted text) (f.take quoted text)

end Fields

structure Inner where
  /-- Adds the words of a text to fields. -/
  addWords : Fields → Bool → Chars → Step Fields
  run : Chars → Step Unit

namespace Inner

variable (inner : Inner)

def whole (quoted : Bool) (text : Chars) : Step Chars := do
  let fields ← inner.addWords {} quoted text
  return [' '].intercalate fields.cut.complete

def output (script : Chars) : Step Chars := do
  let former := (← get).status
  let bytes ← captured (inner.run script)
  modify fun m => { m with status := former, innerStatus := m.status }
  return ((charsOf (bytes.filter (· ≠ 0))).reverse.dropWhile (· = '\n')).reverse

def addValue (f : Fields) (parameter : Parameter) (quoted : Bool) : Step Fields := do
  let m ← get
  return match parameter, quoted with
    | .arguments, _ => f.spread quoted m.args
    | .joined, false => f.spread false m.args
    | parameter, quoted => f.take quoted (m.valueOf parameter)

def assignDefault (parameter : Parameter) (value : Chars) : Step Unit :=
  match parameter with
  | .named name => modify (·.assign name value)
  | _ => leave misuse

def addGuarded (f : Fields) (parameter : Parameter) (remedy : Remedy) (emptyLacks : Bool)
    (word : Chars) (quoted : Bool) : Step Fields := do
  let m ← get
  let lacks := m.isLacking parameter || (emptyLacks && m.valueOf parameter = [])
  match remedy, lacks with
  | .invert, true => return if quoted then f.grow [] else f
  | .invert, false | .replace, true => inner.addWords f quoted word
  | .assign, true => do
    let value ← inner.whole quoted word
    assignDefault parameter value
    return f.take quoted value
  | .refuse, true => leave misuse
  | _, false => addValue f parameter quoted

def addSegment (f : Fields) : Segment → Step Fields
  | .literal text _ => return f.grow text
  | .parameter parameter .value quoted => addValue f parameter quoted
  | .parameter parameter .length quoted => do
    return f.take quoted (decimal ((← get).valueOf parameter).length)
  | .parameter parameter (.guarded remedy emptyLacks word) quoted =>
    inner.addGuarded f parameter remedy emptyLacks word quoted
  | .output script quoted => do return f.take quoted (← inner.output script)
  | .number expression quoted => do
    let expression ← inner.whole true expression
    let m ← get
    match Arithmetic.value? (fun name => (m.value? name).getD []) expression with
    | some n => return f.take quoted (toString n).toList
    | none => leave misuse

def addWord (f : Fields) (word : Word) : Step Fields := word.foldlM inner.addSegment f

def expand (words : List Word) : Step (List Chars) := do
  let fields ← words.foldlM (fun f word => do return (← inner.addWord f word).cut) {}
  return fields.complete

def expandWhole (word : Word) : Step Chars := do
  return [' '].intercalate (← inner.expand [word.map Segment.unsplit])

end Inner

end LineShell.Script
