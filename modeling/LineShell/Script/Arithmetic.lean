import LineShell.Script.Word
import LineShell.Text.Blank

/-!
# Arithmetic of scripts

The value of an expression on whole numbers of 64 bits, which wrap around. Operands and signs
are taken one by one: an operator waits until the next one binds no more tightly than it does,
and is applied then.
-/

namespace LineShell.Script.Arithmetic

def wrap (n : Int) : Int := (BitVec.ofInt 64 n).toInt

/-- An operator between two operands. The higher its level, the more tightly it binds. -/
structure Operator where
  level : Nat
  apply : Int → Int → Option Int

def truth (b : Bool) : Int := if b then 1 else 0

def total (level : Nat) (f : Int → Int → Int) : Operator :=
  ⟨level, fun a b => some (wrap (f a b))⟩

def comparison (level : Nat) (p : Int → Int → Bool) : Operator :=
  total level fun a b => truth (p a b)

def division (level : Nat) (f : Int → Int → Int) : Operator :=
  ⟨level, fun a b => if b = 0 then none else some (wrap (f a b))⟩

def bitwise (level : Nat) (f : BitVec 64 → BitVec 64 → BitVec 64) : Operator :=
  total level fun a b => (f (.ofInt 64 a) (.ofInt 64 b)).toInt

def shiftCount (n : Int) : Nat := (n % 64).toNat

def operators : List (String × Operator) := [
  ("||", comparison 1 fun a b => a != 0 || b != 0),
  ("&&", comparison 2 fun a b => a != 0 && b != 0),
  ("|", bitwise 3 (· ||| ·)),
  ("^", bitwise 4 (· ^^^ ·)),
  ("&", bitwise 5 (· &&& ·)),
  ("==", comparison 6 (· == ·)),
  ("!=", comparison 6 (· != ·)),
  ("<=", comparison 7 fun a b => a ≤ b),
  (">=", comparison 7 fun a b => a ≥ b),
  ("<", comparison 7 fun a b => a < b),
  (">", comparison 7 fun a b => a > b),
  ("<<", total 8 fun a b => a <<< shiftCount b),
  (">>", total 8 fun a b => a >>> shiftCount b),
  ("+", total 9 (· + ·)),
  ("-", total 9 (· - ·)),
  ("*", total 10 (· * ·)),
  ("/", division 10 Int.tdiv),
  ("%", division 10 Int.tmod)]

def unary? (c : Char) : Option (Int → Int) :=
  match c with
  | '+' => some id
  | '-' => some fun a => wrap (-a)
  | '!' => some fun a => truth (a == 0)
  | '~' => some fun a => -a - 1
  | _ => none

inductive Waiting
  | unary (f : Int → Int)
  | binary (operator : Operator) (first : Int)
  | parenthesis

/-- The longest operator at the start of a text. -/
def operatorAt? (cs : Chars) : Option (Operator × Chars) :=
  let found := fun (sign, _) => sign.toList.isPrefixOf cs
  let longest := (operators.filter found).mergeSort fun a b => a.1.length ≥ b.1.length
  longest.head?.map fun (sign, operator) => (operator, cs.drop sign.length)

/-- Applies what binds at least as tightly as a level, up to the nearest parenthesis. -/
def settle (level : Nat) (value : Int) : List Waiting → Option (Int × List Waiting)
  | .unary f :: rest => settle level (f value) rest
  | .binary operator first :: rest =>
    if level ≤ operator.level then
      (operator.apply first value).bind fun value => settle level value rest
    else some (value, .binary operator first :: rest)
  | waiting => some (value, waiting)

def digitValue (c : Char) : Nat :=
  if c.isDigit then c.toNat - 48 else c.toLower.toNat - 87

def numberIn (base : Nat) (digits : Chars) : Option Int :=
  if digits ≠ [] ∧ digits.all fun c => c.isAlphanum && digitValue c < base then
    some (digits.foldl (fun n c => n * base + digitValue c) 0 : Nat)
  else none

/-- The number that digits stand for. A nought before them makes them octal, with an `x`
hexadecimal. -/
def literal? : Chars → Option Int
  | '0' :: 'x' :: digits | '0' :: 'X' :: digits => numberIn 16 digits
  | '0' :: c :: digits => numberIn 8 (c :: digits)
  | digits => numberIn 10 digits

def valueOf? (text : Chars) : Option Int :=
  match Text.trim text with
  | [] => some 0
  | '-' :: digits => (literal? digits).map (wrap <| -·)
  | '+' :: digits | digits => (literal? digits).map wrap

def evaluate (lookup : Chars → Chars) : Nat → Option Int → List Waiting → Chars → Option Int
  | 0, _, _, _ => none
  | fuel + 1, some value, waiting, cs =>
    match cs.dropWhile Text.isBlank with
    | [] =>
      match settle 0 value waiting with
      | some (value, []) => some value
      | _ => none
    | ')' :: cs =>
      match settle 0 value waiting with
      | some (value, .parenthesis :: waiting) => evaluate lookup fuel (some value) waiting cs
      | _ => none
    | cs => do
      let (operator, cs) ← operatorAt? cs
      let (value, waiting) ← settle operator.level value waiting
      evaluate lookup fuel none (.binary operator value :: waiting) cs
  | fuel + 1, none, waiting, cs =>
    match cs.dropWhile Text.isBlank with
    | [] => none
    | '(' :: cs => evaluate lookup fuel none (.parenthesis :: waiting) cs
    | c :: cs =>
      match unary? c with
      | some f => evaluate lookup fuel none (.unary f :: waiting) cs
      | none => do
        let operand := (c :: cs).takeWhile isNameChar
        let value ← if isNameStart c then valueOf? (lookup operand) else literal? operand
        evaluate lookup fuel (some value) waiting ((c :: cs).drop operand.length)

def value? (lookup : Chars → Chars) (expression : Chars) : Option Int :=
  if expression.all Text.isBlank then some 0
  else evaluate lookup (expression.length + 1) none [] expression

end LineShell.Script.Arithmetic
