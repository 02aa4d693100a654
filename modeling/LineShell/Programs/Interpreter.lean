import LineShell.Script.Word

/-!
# Interpreters

A file that starts with `#!` names on its first line the program that is to be executed instead,
with at most one argument. Only the start of a file is looked at. A line that is longer still
counts if the interpreter's name is complete, and the argument is then what is seen of it.
-/

namespace LineShell.Programs

open Script (Chars charsOf)

structure Interpreter where
  path : Chars
  argument : Option Chars
deriving DecidableEq, Repr

namespace Interpreter

/-- How much of a file is looked at. A shorter file is seen with NULs behind it. -/
def headLength : Nat := 256

def nul : Char := '\x00'

def headOf (bytes : Bytes) : Chars := (charsOf (bytes.take headLength)).rightpad headLength nul

def isGap (c : Char) : Bool := c = ' ' || c = '\t'

def endsName (c : Char) : Bool := isGap c || c = nul

def upToNul (cs : Chars) : Chars := cs.takeWhile (· ≠ nul)

def trimGaps (cs : Chars) : Chars := ((cs.dropWhile isGap).reverse.dropWhile isGap).reverse

/-- The line that a head starts with, unless it may break off within the interpreter's name. -/
def line? (head : Chars) : Option Chars :=
  if '\n' ∈ upToNul head then some (head.takeWhile (· ≠ '\n'))
  else if (head.dropWhile isGap).any endsName then some head.dropLast
  else none

def ofLine? (line : Chars) : Option Interpreter :=
  let line := trimGaps line
  let path := line.takeWhile (!endsName ·)
  let argument := match line.drop path.length with
    | [] => none
    | c :: rest => if isGap c then some (upToNul (rest.dropWhile isGap)) else none
  if line = [] then none else some { path, argument }

def ofFile? (bytes : Bytes) : Option Interpreter :=
  match headOf bytes with
  | '#' :: '!' :: head => (line? head).bind ofLine?
  | _ => none

end Interpreter

end LineShell.Programs
