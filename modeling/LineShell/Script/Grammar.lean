import LineShell.Script.Token

/-!
# Grammar of scripts

Commands, and how tokens make them up. Tokens are taken one by one: the command that is being
read, what is to be joined to it, and the compound commands that are still open are kept on a
stack. A script is read line by line, and a line that is none does not undo those before it.
-/

namespace LineShell.Script

structure Redirection where
  descriptor : Nat
  how : Redirect
  target : Word
deriving DecidableEq, Repr

inductive Command
  | skip
  | simple (words : List Word) (redirections : List Redirection)
  | andThen (first second : Command)
  | both (first second : Command)
  | either (first second : Command)
  | pipe (first second : Command)
  | negated (inner : Command)
  | branch (condition yes no : Command)
  /-- A loop that goes on as long as its condition comes to a truth value. -/
  | loop (goOn : Bool) (condition body : Command)
  | forEach (name : Chars) (words : List Word) (body : Command)
  | subshell (inner : Command)
  | background (inner : Command)
  | redirected (inner : Command) (redirections : List Redirection)
deriving DecidableEq, Repr

inductive Body
  | simple (words : List Word)
  | compound (command : Command)
deriving Repr

def Body.command (redirections : List Redirection) : Body → Command
  | .simple words => .simple words redirections
  | .compound command => if redirections = [] then command else .redirected command redirections

inductive Current
  | none
  | started (body : Body) (redirections : List Redirection)
  /-- A command whose last redirection lacks its target. -/
  | dangling (body : Body) (redirections : List Redirection) (descriptor : Nat) (how : Redirect)
  | loopName
  | loopIn (name : Chars)
  | loopWords (name : Chars) (words : List Word)
  | loopDo (name : Chars) (words : List Word)
deriving Repr

/-- What a sequence is a part of, with the parts of it that are complete. -/
inductive Opening
  | script
  | condition (chosen : List (Command × Command))
  | chosen (chosen : List (Command × Command)) (condition : Command)
  | otherwise (chosen : List (Command × Command))
  | loopCondition (goOn : Bool)
  | loopBody (goOn : Bool) (condition : Command)
  | forBody (name : Chars) (words : List Word)
  | braces
  | parentheses

structure Frame where
  opening : Opening := .script
  before : Command := .skip
  /-- What the current pipeline is joined to, and how. -/
  left : Option (Command × (Command → Command → Command)) := none
  negated : Bool := false
  /-- What the current command gets its input from. -/
  piped : Option Command := none
  current : Current := .none

abbrev Stack := Frame × List Frame

namespace Frame

def pipeline? (f : Frame) : Option Command :=
  match f.current with
  | .started body redirections =>
    let last := body.command redirections
    some (f.piped.elim last (.pipe · last))
  | _ => none

/-- The pipelines that are joined, if they can end here. -/
def chain? (f : Frame) : Option Command :=
  f.pipeline?.map fun c =>
    let c := if f.negated then .negated c else c
    f.left.elim c fun (first, join) => join first c

def isFresh (f : Frame) : Bool :=
  f.left.isNone && !f.negated && f.piped.isNone && f.current matches .none

def close? (f : Frame) (kind : Command → Command) : Option Frame :=
  f.chain?.map fun c => { opening := f.opening, before := .andThen f.before (kind c) }

def sequence? (f : Frame) : Option Command :=
  if f.isFresh then if f.before = .skip then none else some f.before
  else (f.close? id).map (·.before)

def join? (f : Frame) (join : Command → Command → Command) : Option Frame :=
  f.chain?.map fun c => { opening := f.opening, before := f.before, left := some (c, join) }

def pipe? (f : Frame) : Option Frame :=
  f.pipeline?.map fun c => { f with piped := some c, current := .none }

def started (f : Frame) (body : Body) : Frame := { f with current := .started body [] }

end Frame

def chooseAmong (chosen : List (Command × Command)) (otherwise : Command) : Command :=
  chosen.foldr (fun (condition, yes) no => .branch condition yes no) otherwise

def opened (opening : Opening) : Stack → Stack
  | (f, outer) => ({ opening }, f :: outer)

def completed? (command : Command) : List Frame → Option Stack
  | [] => none
  | f :: outer => some (f.started (.compound command), outer)

def openWith? (word : Chars) (stack : Stack) : Option Stack :=
  let (f, outer) := stack
  match String.ofList word with
  | "if" => some (opened (.condition []) stack)
  | "while" => some (opened (.loopCondition true) stack)
  | "until" => some (opened (.loopCondition false) stack)
  | "\x7b" => some (opened .braces stack)
  | "for" => some ({ f with current := .loopName }, outer)
  | "!" => if f.negated || f.piped.isSome then none else some ({ f with negated := true }, outer)
  | _ => none

def closers : List String := ["then", "elif", "else", "fi", "do", "done", "\x7d"]

def closeWith? (word : Chars) (stack : Stack) : Option Stack :=
  let (f, outer) := stack
  f.sequence?.bind fun sequence =>
    match String.ofList word, f.opening with
    | "then", .condition chosen => some ({ opening := .chosen chosen sequence }, outer)
    | "elif", .chosen chosen condition =>
      some ({ opening := .condition (chosen ++ [(condition, sequence)]) }, outer)
    | "else", .chosen chosen condition =>
      some ({ opening := .otherwise (chosen ++ [(condition, sequence)]) }, outer)
    | "fi", .chosen chosen condition =>
      completed? (chooseAmong (chosen ++ [(condition, sequence)]) .skip) outer
    | "fi", .otherwise chosen => completed? (chooseAmong chosen sequence) outer
    | "do", .loopCondition goOn => some ({ opening := .loopBody goOn sequence }, outer)
    | "done", .loopBody goOn condition => completed? (.loop goOn condition sequence) outer
    | "done", .forBody name words => completed? (.forEach name words sequence) outer
    | "\x7d", .braces => completed? sequence outer
    | _, _ => none

def beginWith? (word : Word) (stack : Stack) : Option Stack :=
  match bareText? word with
  | none => some (stack.1.started (.simple [word]), stack.2)
  | some bare =>
    if closers.contains (String.ofList bare) then closeWith? bare stack
    else if ["if", "while", "until", "for", "!", "\x7b"].contains (String.ofList bare) then
      openWith? bare stack
    else some (stack.1.started (.simple [word]), stack.2)

def allArguments : Word := [.parameter .arguments .value true]

def takeWord? (word : Word) : Stack → Option Stack
  | (f, outer) =>
    match f.current with
    | .none => beginWith? word (f, outer)
    | .started (.simple words) redirections =>
      some ({ f with current := .started (.simple (words ++ [word])) redirections }, outer)
    | .started (.compound _) _ => (bareText? word).bind fun bare => closeWith? bare (f, outer)
    | .dangling body redirections descriptor how =>
      let redirection : Redirection := ⟨descriptor, how, word⟩
      some ({ f with current := .started body (redirections ++ [redirection]) }, outer)
    | .loopName => (bareText? word).bind fun name =>
      if isName name then some ({ f with current := .loopIn name }, outer) else none
    | .loopIn name =>
      if bareText? word = some "in".toList then
        some ({ f with current := .loopWords name [] }, outer)
      else if bareText? word = some "do".toList then
        some (opened (.forBody name [allArguments]) ({ f with current := .none }, outer))
      else none
    | .loopWords name words =>
      some ({ f with current := .loopWords name (words ++ [word]) }, outer)
    | .loopDo name words =>
      if bareText? word = some "do".toList then
        some (opened (.forBody name words) ({ f with current := .none }, outer))
      else none

/-- A sign between commands. A line end is passed over where a command is still to come. -/
def separate? (newline : Bool) (kind : Command → Command) : Stack → Option Stack
  | (f, outer) =>
    match f.current with
    | .loopWords name words => some ({ f with current := .loopDo name words }, outer)
    | .loopIn name => some ({ f with current := .loopDo name [allArguments] }, outer)
    | .loopDo .. => if newline then some (f, outer) else none
    | .none => if newline && !f.negated then some (f, outer) else none
    | _ => (f.close? kind).map (·, outer)

def takeToken? (token : Token) (stack : Stack) : Option Stack :=
  let (f, outer) := stack
  match token, f.current with
  | .word word, _ => takeWord? word stack
  | .redirect descriptor how, .none =>
    some ({ f with current := .dangling (.simple []) [] descriptor how }, outer)
  | .redirect descriptor how, .started body redirections =>
    some ({ f with current := .dangling body redirections descriptor how }, outer)
  | .both, _ => (f.join? .both).map (·, outer)
  | .either, _ => (f.join? .either).map (·, outer)
  | .pipe, _ => f.pipe?.map (·, outer)
  | .leftParenthesis, .none => some (opened .parentheses stack)
  | .rightParenthesis, _ =>
    match f.opening, f.sequence? with
    | .parentheses, some sequence => completed? (.subshell sequence) outer
    | _, _ => none
  | .semicolon, _ => separate? false id stack
  | .background, .started .. => separate? false .background stack
  | .newline, _ => separate? true id stack
  | _, _ => none

structure Lines where
  commands : List Command
  complete : Bool
deriving Repr

def endsLine (stack : Stack) : Bool := stack.1.isFresh && stack.2.isEmpty

def takeTokens : List Token → Stack → Lines
  | [], (f, []) => (f.sequence?).elim ⟨[], f.isFresh⟩ fun line => ⟨[line], true⟩
  | [], _ => ⟨[], false⟩
  | token :: rest, stack =>
    match takeToken? token stack with
    | none => ⟨[], false⟩
    | some stack =>
      if token = .newline ∧ endsLine stack then
        let more := takeTokens rest ({}, [])
        { more with commands := stack.1.before :: more.commands }
      else takeTokens rest stack

def parse (text : Chars) : Lines := takeTokens (tokens text) ({}, [])

end LineShell.Script
