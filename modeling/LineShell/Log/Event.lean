import LineShell.CommandError
import LineShell.Config.Basic
import LineShell.Outcome
import LineShell.Programs.Signal
import LineShell.Text.Quoted

/-!
# Diagnostic events

What a shell can report about its own work. An event has a level, an origin and a line of text:
its message and its fields. Values that came from the user are quoted, paths and errors stand as
they are.
-/

namespace LineShell.Log

inductive Level
  | error | warn | info | debug | trace
deriving DecidableEq, Repr

def Level.rank : Level → Nat
  | .error => 1
  | .warn => 2
  | .info => 3
  | .debug => 4
  | .trace => 5

def Level.text : Level → String
  | .error => "ERROR"
  | .warn => "WARN"
  | .info => "INFO"
  | .debug => "DEBUG"
  | .trace => "TRACE"

def levelFor : Nat → Level
  | 0 => .warn
  | 1 => .info
  | 2 => .debug
  | _ => .trace

def Level.admits (finest level : Level) : Bool := level.rank ≤ finest.rank

inductive Event
  | configured (config : Config)
  | unwritable (failure : Failure)
  | exitRequested
  | dispatched (outcome : Outcome)
  | refused (error : CommandError) (command : String)
  | unreadable (failure : Failure)
  | finished (command : String) (code : Nat)
  | spawned (pid : Nat) (path : String)
  | forkFailed (path : String) (errno : Errno)
  | exited (pid code : Nat)
  | killed (pid signal : Nat)
  | stateChanged (pid status : Nat)
  | waitFailed (pid : Nat) (errno : Errno)
  | resolved (command path : String)
  | noMatch (command dir : String)
  | unresolved (command : String)
  | running (builtin : String) (args : Nat)
  | statFailed (path : String) (failure : Failure)
  | entered (directory : String)
deriving DecidableEq

namespace Event

def level : Event → Level
  | .unwritable _ => .error
  | .unreadable _ | .forkFailed .. | .waitFailed .. => .warn
  | .stateChanged .. | .noMatch .. => .trace
  | _ => .debug

def origin : Event → String
  | .configured _ | .unwritable _ => "pshell"
  | .exitRequested | .dispatched _ | .refused .. | .unreadable _ => "pshell::repl"
  | .finished .. => "pshell::executor::dispatcher"
  | .spawned .. | .forkFailed .. | .exited .. | .killed .. | .stateChanged .. | .waitFailed .. =>
    "pshell::executor::launcher"
  | .resolved .. | .noMatch .. | .unresolved _ => "pshell::executor::path_resolver"
  | .running .. => "pshell::executor::builtin::manager"
  | .statFailed .. | .entered _ => "pshell::executor::builtin::commands"

def message : Event → String
  | .configured _ => "configuration loaded"
  | .unwritable _ => "cannot write to terminal"
  | .exitRequested => "exit requested"
  | .dispatched _ => "dispatched"
  | .refused .. => "command failed"
  | .unreadable _ => "reading input failed"
  | .finished .. => "command finished"
  | .spawned .. => "spawned child"
  | .forkFailed .. => "fork failed"
  | .exited .. => "child exited"
  | .killed .. => "child killed"
  | .stateChanged .. => "child state changed"
  | .waitFailed .. => "waitpid failed"
  | .resolved .. => "resolved command"
  | .noMatch .. => "no match"
  | .unresolved _ => "command not found in search path"
  | .running .. => "running builtin"
  | .statFailed .. => "stat failed"
  | .entered _ => "changed directory"

def configText (c : Config) : String :=
  let path := "SearchPathList \x7b dirs: " ++ Text.quotedList c.searchPath.dirs ++ " \x7d"
  "Config \x7b prompt: " ++ Text.quoted c.prompt ++ ", search_path: " ++ path ++ " \x7d"

def fields : Event → List (String × String)
  | .configured config => [("config", configText config)]
  | .unwritable failure => [("error", failure.message)]
  | .exitRequested => []
  | .dispatched outcome => [("outcome", outcome.text)]
  | .refused error command => [("error", error.message), ("command", Text.quoted command)]
  | .unreadable failure => [("error", failure.message)]
  | .finished command code => [("command", Text.quoted command), ("code", toString code)]
  | .spawned pid path => [("pid", toString pid), ("path", Text.quoted path)]
  | .forkFailed path errno => [("path", Text.quoted path), ("errno", errno.label)]
  | .exited pid code => [("pid", toString pid), ("code", toString code)]
  | .killed pid signal =>
    [("pid", toString pid), ("signal", toString signal),
      ("name", Text.quoted (Programs.signalLabel signal))]
  | .stateChanged pid status => [("pid", toString pid), ("status", toString status)]
  | .waitFailed pid errno => [("pid", toString pid), ("errno", errno.label)]
  | .resolved command path => [("command", Text.quoted command), ("path", path)]
  | .noMatch command dir => [("command", Text.quoted command), ("dir", Text.quoted dir)]
  | .unresolved command => [("command", Text.quoted command)]
  | .running builtin args => [("builtin", Text.quoted builtin), ("args", toString args)]
  | .statFailed path failure => [("path", path), ("error", failure.message)]
  | .entered directory => [("directory", directory)]

def line (e : Event) : String :=
  let parts := e.level.text :: e.message :: e.fields.map fun (name, value) => name ++ "=" ++ value
  String.intercalate " " parts

end Event

end LineShell.Log
