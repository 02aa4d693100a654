import LineShell.Script.Arithmetic

/-!
# Backslash escapes and formats

What the printing commands of a script make of their arguments. A backslash with a letter or with
octal digits stands for one byte, and a backslash with anything else for itself.
-/

namespace LineShell.Script

def letterEscapes : List (Char × Char) := [
  ('a', '\x07'), ('b', '\x08'), ('e', '\x1b'), ('f', '\x0c'), ('n', '\n'), ('r', '\r'), ('t', '\t'),
  ('v', '\x0b'), ('\\', '\\')]

def isOctal (c : Char) : Bool := '0' ≤ c && c ≤ '7'

def octalByte (most : Nat) (cs : Chars) : Char × Nat :=
  let digits := (cs.take most).takeWhile isOctal
  let value := digits.foldl (fun n c => n * 8 + (c.toNat - 48)) 0
  (Char.ofNat (value % 256), digits.length)

/-- The escapes of formats and those of arguments, where octal digits may follow a nought that
does not count and a text may be ended. -/
inductive EscapeStyle
  | format
  | argument
deriving DecidableEq

def unescape (style : EscapeStyle) : Chars → Chars × Bool
  | [] => ([], false)
  | '\\' :: c :: rest =>
    if c = 'c' ∧ style = .argument then ([], true)
    else match letterEscapes.lookup c with
      | some out =>
        let (more, ended) := unescape style rest
        (out :: more, ended)
      | none =>
        if isOctal c then
          let leading := style = .argument && c = '0'
          let (out, used) := octalByte 3 (if leading then rest else c :: rest)
          let (more, ended) := unescape style (rest.drop (if leading then used else used - 1))
          (out :: more, ended)
        else
          let (more, ended) := unescape style (c :: rest)
          ('\\' :: more, ended)
  | c :: rest =>
    let (more, ended) := unescape style rest
    (c :: more, ended)
termination_by cs => cs.length
decreasing_by all_goals simp only [List.length_cons, List.length_drop]; omega

def echoText (args : List Chars) : Chars :=
  let (quiet, args) := match args with
    | ['-', 'n'] :: rest => (true, rest)
    | args => (false, args)
  let (text, ended) := unescape .argument ([' '].intercalate args)
  if quiet || ended then text else text ++ ['\n']

structure Directive where
  letter : Char
  /-- Signs between the percent sign and the width. -/
  flags : Chars := []
  width : Nat := 0
  precision : Option Nat := none
deriving DecidableEq, Repr

inductive FormatPart
  | text (text : Chars)
  | directive (directive : Directive)
deriving DecidableEq, Repr

def isFlag (c : Char) : Bool := ['-', '+', ' ', '0', '#'].contains c

def directiveAt? (cs : Chars) : Option (Directive × Nat) :=
  let flags := cs.takeWhile isFlag
  let rest := cs.dropWhile isFlag
  let width := rest.takeWhile Char.isDigit
  let (dotted, precision) := match rest.drop width.length with
    | '.' :: rest => (true, rest.takeWhile Char.isDigit)
    | _ => (false, [])
  let used := flags.length + width.length + precision.length + if dotted then 1 else 0
  cs[used]?.map fun letter =>
    ({ letter, flags, width := number width
       precision := if dotted then some (number precision) else none }, used + 1)

def formatParts : Chars → List FormatPart
  | [] => []
  | '%' :: '%' :: rest => .text ['%'] :: formatParts rest
  | '%' :: rest =>
    match directiveAt? rest with
    | some (directive, used) => .directive directive :: formatParts (rest.drop used)
    | none => [.text ('%' :: rest)]
  | c :: rest => .text [c] :: formatParts rest
termination_by cs => cs.length
decreasing_by all_goals simp only [List.length_cons, List.length_drop]; omega

/-- The digits of a number, at least as many as the precision asks for. -/
def digitsOf (d : Directive) (base n : Nat) : Chars :=
  let digits := Nat.toDigits base n
  List.replicate (d.precision.getD 1 - digits.length) '0' ++ digits

def numberParts (d : Directive) (n : Int) : Chars × Chars :=
  let bits := (BitVec.ofInt 64 n).toNat
  if d.letter = 'x' then ([], digitsOf d 16 bits)
  else if d.letter = 'X' then ([], (digitsOf d 16 bits).map Char.toUpper)
  else if d.letter = 'o' then ([], digitsOf d 8 bits)
  else if d.letter = 'u' then ([], digitsOf d 10 bits)
  else
    (if n < 0 then ['-'] else if d.flags.contains '+' then ['+']
      else if d.flags.contains ' ' then [' '] else [], digitsOf d 10 n.natAbs)

def padded (d : Directive) (zeros : Bool) (head tail : Chars) : Chars :=
  let missing := d.width - (head.length + tail.length)
  if d.flags.contains '-' then head ++ tail ++ List.replicate missing ' '
  else if zeros && d.flags.contains '0' then head ++ List.replicate missing '0' ++ tail
  else List.replicate missing ' ' ++ head ++ tail

def directed (d : Directive) (arg : Chars) : Chars × Bool :=
  let cut (text : Chars) := d.precision.elim text text.take
  if d.letter = 'b' then
    let (text, ended) := unescape .argument arg
    (padded d false [] (cut text), ended)
  else if d.letter = 'c' then (padded d false [] (arg.take 1), false)
  else if d.letter = 's' then (padded d false [] (cut arg), false)
  else
    let (sign, digits) := numberParts d ((Arithmetic.valueOf? arg).getD 0)
    (padded d d.precision.isNone sign digits, false)

def formatOnce : List FormatPart → List Chars → Chars × Option (List Chars)
  | [], args => ([], some args)
  | .text text :: rest, args =>
    let (more, left) := formatOnce rest args
    (text ++ more, left)
  | .directive d :: rest, args =>
    match directed d (args.headD []) with
    | (text, true) => (text, none)
    | (text, false) =>
      let (more, left) := formatOnce rest args.tail
      (text ++ more, left)

def formatAll (parts : List FormatPart) : Nat → List Chars → Chars
  | 0, _ => []
  | passes + 1, args =>
    match formatOnce parts args with
    | (text, none) => text
    | (text, some left) =>
      if left = [] ∨ left.length = args.length then text else text ++ formatAll parts passes left

def printfText (format : Chars) (args : List Chars) : Chars :=
  formatAll (formatParts (unescape .format format).1) (args.length + 1) args

end LineShell.Script
