import LineShell.Text.Blank

/-!
# Command lines

One input line as the fields between its blanks. A command line has a name, so a blank line is
none. Nothing is quoted or escaped.
-/

namespace LineShell

structure CommandLine where
  name : String
  args : List String
deriving DecidableEq, Repr

namespace CommandLine

def fields (line : CommandLine) : List String := line.name :: line.args

def ofFields? : List String → Option CommandLine
  | [] => none
  | name :: args => some ⟨name, args⟩

def parse (text : String) : Option CommandLine :=
  ofFields? ((Text.words text.toList).map String.ofList)

@[simp] theorem fields_ofFields? {fs : List String} {line : CommandLine} :
    ofFields? fs = some line ↔ line.fields = fs := by
  cases fs with
  | nil => simp [ofFields?, fields]
  | cons name args =>
    cases line
    simp [ofFields?, fields, eq_comm]

theorem parse_eq_none {cs : List Char} : parse (String.ofList cs) = none ↔ Text.AllBlank cs := by
  rw [← Text.words_eq_nil, parse, String.toList_ofList]
  cases Text.words cs <;> simp [ofFields?]

end CommandLine

end LineShell
