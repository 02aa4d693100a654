import LineShell.Script.Word

/-!
# Tokens of scripts

A script is read character by character. What surrounds a character decides what it means, and
the word that is being read is carried along, so the reading follows the text and nothing else.
Where a text cannot be read on, its tokens end with one that is invalid.
-/

namespace LineShell.Script

inductive Redirect
  | read
  | write
  | append
  | duplicate
deriving DecidableEq, Repr

inductive Token
  | word (word : Word)
  | redirect (descriptor : Nat) (how : Redirect)
  /-- Go on if all went well. -/
  | both
  /-- Go on if it did not. -/
  | either
  | pipe
  | background
  | leftParenthesis
  | rightParenthesis
  | semicolon
  | newline
  | invalid
deriving DecidableEq, Repr

inductive Enclosure
  | braces
  | parentheses
deriving DecidableEq, Repr

/-- What surrounds the next character. -/
inductive Mode
  | plain
  | comment
  | single
  /-- Double quotes, in which nothing has stood yet if they are untouched. -/
  | double (untouched : Bool)
  | escaped (quoted : Bool)
  /-- A parameter's dollar sign. -/
  | dollar (quoted : Bool)
  /-- A parameter's name, with at least one character to come. -/
  | name (quoted : Bool) (soFar : Chars)
  /-- An enclosure, with the signs that are still to come, the next one first. -/
  | enclosed (what : Enclosure) (quoted : Bool) (awaited : Chars) (soFar : Chars)
  /-- The character after a backslash in an enclosure. -/
  | enclosedEscape (what : Enclosure) (quoted : Bool) (awaited : Chars) (soFar : Chars)
  | backquotes (quoted : Bool) (soFar : Chars)
  /-- The character after a backslash between backquotes. -/
  | backquotesEscape (quoted : Bool) (soFar : Chars)
deriving DecidableEq, Repr

def Mode.around (quoted : Bool) : Mode := if quoted then .double false else .plain

def extend (word : Option Word) (segment : Segment) : Option Word :=
  some (word.getD [] ++ [segment])

def withChar (word : Option Word) (c : Char) (quoted : Bool) : Option Word :=
  extend word (.literal [c] quoted)

def finish (word : Option Word) (rest : List Token) : List Token :=
  match word with
  | none => rest
  | some w => .word w :: rest

def Redirect.usual : Redirect → Nat
  | .read => 0
  | _ => 1

/-- A redirection sign after a word: a number directly before it is the descriptor. -/
def redirected (word : Option Word) (how : Redirect) (rest : List Token) : List Token :=
  match (word.bind bareText?).filter isNumeral with
  | some digits => .redirect (number digits) how :: rest
  | none => finish word (.redirect how.usual how :: rest)

def leftBrace : Char := '\x7b'

def rightBrace : Char := '\x7d'

def backquote : Char := '\x60'

def startsParameter (c : Char) : Bool :=
  isNameStart c || (specialParameter? c).isSome || c = leftBrace || c = '('

def specialMode? (quoted : Bool) (c : Char) (rest : Chars) : Option Mode :=
  if c = backquote then some (.backquotes quoted [])
  else if c = '$' ∧ rest.head?.any startsParameter then some (.dollar quoted)
  else none

def escapable : Chars := ['$', backquote, '"', '\\']

def escapableInBackquotes : Chars := ['$', backquote, '\\']

def awaitedAfter (quoted : Bool) (c : Char) (afterDollar : Bool) (awaited : Chars) : Chars :=
  match awaited with
  | [] => []
  | top :: below =>
    if c = top then below
    else if top = '\'' ∨ top = backquote then awaited
    else if c = '(' ∧ (afterDollar ∨ top = ')') then ')' :: awaited
    else if c = leftBrace ∧ afterDollar then rightBrace :: awaited
    else if c = backquote then backquote :: awaited
    else if top = '"' then awaited
    else if c = '"' then '"' :: awaited
    else if c = '\'' ∧ (top = ')' ∨ !quoted) then '\'' :: awaited
    else awaited

/-- What an enclosed text stands for. Parentheses within parentheses hold an expression. -/
def enclosedSegment? (what : Enclosure) (quoted : Bool) (text : Chars) : Option Segment :=
  match what with
  | .braces => (braced? text).map fun (parameter, use) => .parameter parameter use quoted
  | .parentheses =>
    if text.head? = some '(' ∧ text.getLast? = some ')' then
      some (.number (text.drop 1).dropLast quoted)
    else some (.output text quoted)

def scan (mode : Mode) (word : Option Word) : Chars → List Token
  | [] =>
    match mode with
    | .plain | .comment => finish word []
    | _ => [.invalid]
  | c :: rest =>
    match mode with
    | .comment => if c = '\n' then .newline :: scan .plain none rest else scan .comment none rest
    | .single =>
      if c = '\'' then scan .plain (extend word (.literal [] true)) rest
      else scan .single (withChar word c true) rest
    | .escaped quoted =>
      if c = '\n' then scan (.around quoted) word rest
      else if quoted && !escapable.contains c then
        scan (.around quoted) (withChar (withChar word '\\' true) c true) rest
      else scan (.around quoted) (withChar word c true) rest
    | .dollar quoted =>
      if c = leftBrace then scan (.enclosed .braces quoted [rightBrace] []) word rest
      else if c = '(' then scan (.enclosed .parentheses quoted [')'] []) word rest
      else match specialParameter? c with
        | some p => scan (.around quoted) (extend word (.parameter p .value quoted)) rest
        | none =>
          if rest.head?.any isNameChar then scan (.name quoted [c]) word rest
          else scan (.around quoted) (extend word (.parameter (.named [c]) .value quoted)) rest
    | .name quoted soFar =>
      let name := soFar ++ [c]
      if rest.head?.any isNameChar then scan (.name quoted name) word rest
      else scan (.around quoted) (extend word (.parameter (.named name) .value quoted)) rest
    | .enclosed what quoted awaited soFar =>
      if c = '\\' ∧ awaited.head? ≠ some '\'' then
        scan (.enclosedEscape what quoted awaited (soFar ++ [c])) word rest
      else match awaitedAfter quoted c (soFar.getLast? = some '$') awaited with
        | [] => match enclosedSegment? what quoted soFar with
          | some segment => scan (.around quoted) (extend word segment) rest
          | none => [.invalid]
        | awaited => scan (.enclosed what quoted awaited (soFar ++ [c])) word rest
    | .enclosedEscape what quoted awaited soFar =>
      scan (.enclosed what quoted awaited (soFar ++ [c])) word rest
    | .backquotes quoted soFar =>
      if c = backquote then scan (.around quoted) (extend word (.output soFar quoted)) rest
      else if c = '\\' then scan (.backquotesEscape quoted soFar) word rest
      else scan (.backquotes quoted (soFar ++ [c])) word rest
    | .backquotesEscape quoted soFar =>
      if escapableInBackquotes.contains c || (quoted && c = '"') then
        scan (.backquotes quoted (soFar ++ [c])) word rest
      else scan (.backquotes quoted (soFar ++ ['\\', c])) word rest
    | .double untouched =>
      if c = '"' then
        scan .plain (if untouched then extend word (.literal [] true) else word) rest
      else if c = '\\' then scan (.escaped true) word rest
      else match specialMode? true c rest with
        | some mode => scan mode word rest
        | none => scan (.double false) (withChar word c true) rest
    | .plain =>
      if c = '\n' then finish word (.newline :: scan .plain none rest)
      else if c = ' ' ∨ c = '\t' then finish word (scan .plain none rest)
      else if c = '#' ∧ word.isNone then scan .comment none rest
      else if c = '\'' then scan .single word rest
      else if c = '"' then scan (.double true) word rest
      else if c = '\\' then scan (.escaped false) word rest
      else if c = '(' then finish word (.leftParenthesis :: scan .plain none rest)
      else if c = ')' then finish word (.rightParenthesis :: scan .plain none rest)
      else if c = ';' then match rest with
        | ';' :: _ => finish word [.invalid]
        | rest => finish word (.semicolon :: scan .plain none rest)
      else if c = '&' then match rest with
        | '&' :: rest => finish word (.both :: scan .plain none rest)
        | rest => finish word (.background :: scan .plain none rest)
      else if c = '|' then match rest with
        | '|' :: rest => finish word (.either :: scan .plain none rest)
        | rest => finish word (.pipe :: scan .plain none rest)
      else if c = '<' then match rest with
        | '<' :: _ | '>' :: _ => finish word [.invalid]
        | '&' :: rest => redirected word .duplicate (scan .plain none rest)
        | rest => redirected word .read (scan .plain none rest)
      else if c = '>' then match rest with
        | '>' :: rest => redirected word .append (scan .plain none rest)
        | '&' :: rest => redirected word .duplicate (scan .plain none rest)
        | '|' :: rest => redirected word .write (scan .plain none rest)
        | rest => redirected word .write (scan .plain none rest)
      else match specialMode? false c rest with
        | some mode => scan mode word rest
        | none => scan .plain (withChar word c false) rest

def tokens (text : Chars) : List Token := scan .plain none text

def Token.word? : Token → Option Word
  | .word w => some w
  | _ => none

def wordsOf? (quoted : Bool) (text : Chars) : Option (List Word) :=
  (scan (.around quoted) none (if quoted then text ++ ['"'] else text)).mapM Token.word?

end LineShell.Script
