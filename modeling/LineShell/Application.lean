import LineShell.Config.File
import LineShell.Config.Location
import LineShell.Log.Filter
import LineShell.Options
import LineShell.Repl

/-!
# The program

A whole run of the shell as a program: its arguments and its environment decide on the
configuration and on the events that are shown, the read loop does the rest, and the exit code
says whether the shell could say all it had to say.

How arguments are read and how filters are written is the business of libraries, which the
program takes as its `Front`. `Front.standard` is such a front.
-/

namespace LineShell.Application

def name : String := "pshell"

def version : String := "0.1.0"

def versionText : String := name ++ " " ++ version ++ "\n"

def helpText : String := String.intercalate "\n" [
  "A small interactive shell with filesystem built-ins",
  "",
  "Usage: " ++ name ++ " [OPTIONS]",
  "",
  "Options:",
  "  -c, --config <FILE>  Configuration file; defaults to ~/.pshellrc when it exists",
  "  -v, --verbose...     Increase log verbosity (-v, -vv, -vvv)",
  "  -h, --help           Print help",
  "  -V, --version        Print version",
  ""]

def homeVariable : String := "HOME"

def filterVariable : String := "RUST_LOG"

structure Front where
  read : List Bytes → Except UsageError Request
  /-- The events that a variable of the environment asks for, if it is set and makes sense. -/
  filter? : Option Bytes → Option (Log.Event → Bool)
  /-- The events up to a level. -/
  upTo : Log.Level → Log.Event → Bool

def Front.standard : Front where
  read := Request.ofArguments
  filter? value := (Log.Filter.ofVariable? value).map (·.admits)
  upTo level := (Log.Filter.ofLevel level).admits

structure Ending where
  /-- A run that waits for ever has none. -/
  code : Option Nat
  session : Session
  /-- What there is to say about a run that did not start. -/
  complaint : String := ""
  log : List String := []

def succeeded : Nat := 0

def failed : Nat := 1

def misused : Nat := 2

/-- The configuration to use: the file the user names, else the user's own if there is one. -/
def configuration (w : World) (options : Options) : Except (Stop Config.Error) Config :=
  match options.config with
  | some path => Config.ofFile w path
  | none =>
    match Config.location? (w.valueOf? homeVariable) with
    | some path => if w.isFile path then Config.ofFile w path else .ok .default
    | none => .ok .default

/-- Says one thing and ends well, whether or not it could be said. -/
def announce (s : Session) (text : String) : Ending :=
  let (_, out) := s.out.put (bytesOf text)
  { code := some succeeded, session := { s with out } }

def runLoop (host : Programs.Host) (config : Config) (s : Session) : Option Nat × Session :=
  let dispatcher := Dispatcher.onHost host config.searchPath
  let start := { s with log := s.log ++ [.configured config] }
  match Repl.run { prompt := config.prompt, dispatcher, session := start } with
  | (.ok (), r) => (some succeeded, r.session)
  | (.error (.refused failure), r) =>
    (some failed, { r.session with log := r.session.log ++ [.unwritable failure] })
  | (.error .waits, r) => (none, r.session)

/-- The environment takes precedence over the user's flags. -/
def shownLog (front : Front) (s : Session) (verbosity : Nat) : List String :=
  let admits := (front.filter? (s.world.valueOf? filterVariable)).getD
    (front.upTo (Log.levelFor verbosity))
  (s.log.filter admits).map (·.line)

def start (front : Front) (host : Programs.Host) (options : Options) (s : Session) : Ending :=
  match configuration s.world options with
  | .error (.refused e) =>
    { code := some failed, session := s, complaint := name ++ ": " ++ e.message ++ "\n" }
  | .error .waits => { code := none, session := s }
  | .ok config =>
    let (code, session) := runLoop host config s
    { code, session, log := shownLog front session options.verbosity }

def UsageError.message : UsageError → String
  | .unexpected argument => "unexpected argument '" ++ shown argument ++ "' found"
  | .missingValue => "a value is required for '--config <FILE>' but none was supplied"
  | .repeated => "the argument '--config <FILE>' cannot be used multiple times"

def run (front : Front) (host : Programs.Host) (arguments : List Bytes) (s : Session) : Ending :=
  match front.read arguments with
  | .error e =>
    { code := some misused, session := s, complaint := "error: " ++ UsageError.message e ++ "\n" }
  | .ok .help => announce s helpText
  | .ok .version => announce s versionText
  | .ok (.run options) => start front host options s

end LineShell.Application
