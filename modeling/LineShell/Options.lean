import LineShell.Text.Utf8

/-!
# Command-line options

What the arguments of the program ask for. They are read from left to right; a request for help
or for the version is answered at once, and the first argument that makes no sense is an error.
Arguments are bytes, since the name of a file need not be a text.
-/

namespace LineShell

structure Options where
  config : Option Bytes := none
  verbosity : Nat := 0
deriving DecidableEq, Repr

inductive Request
  | run (options : Options)
  | help
  | version
deriving DecidableEq, Repr

inductive UsageError
  | unexpected (argument : Bytes)
  | missingValue
  | repeated
deriving DecidableEq, Repr

namespace Options

def dash : UInt8 := 0x2D

def equality : UInt8 := 0x3D

def looksLikeOption (argument : Bytes) : Bool := argument.head? = some dash && argument ≠ [dash]

def setConfig (o : Options) (path : Bytes) : Except UsageError Options :=
  if path = [] then .error .missingValue
  else if o.config.isSome then .error .repeated
  else .ok { o with config := some path }

inductive Group
  | done (options : Options)
  | request (request : Request)
  /-- The last option's value is the next argument. -/
  | wantsValue (options : Options)
deriving DecidableEq, Repr

/-- A value directly after its letter may follow a sign of equality. -/
def attached (value : Bytes) : Bytes := if value.head? = some equality then value.tail else value

def readGroup (argument : Bytes) (o : Options) : Bytes → Except UsageError Group
  | [] => .ok (.done o)
  | letter :: rest =>
    if letter = 'v'.toUInt8 then
      readGroup argument { o with verbosity := o.verbosity + 1 } rest
    else if letter = 'h'.toUInt8 then .ok (.request .help)
    else if letter = 'V'.toUInt8 then .ok (.request .version)
    else if letter = 'c'.toUInt8 then
      if rest = [] then .ok (.wantsValue o) else (o.setConfig (attached rest)).map .done
    else .error (.unexpected argument)

def longConfig : Bytes := bytesOf "--config"

def readLong (argument : Bytes) (o : Options) : Except UsageError Group :=
  if argument = bytesOf "--help" then .ok (.request .help)
  else if argument = bytesOf "--version" then .ok (.request .version)
  else if argument = bytesOf "--verbose" then .ok (.done { o with verbosity := o.verbosity + 1 })
  else if argument = longConfig then .ok (.wantsValue o)
  else if (longConfig ++ [equality]).isPrefixOf argument then
    (o.setConfig (argument.drop (longConfig.length + 1))).map .done
  else .error (.unexpected argument)

def readArgument (argument : Bytes) (o : Options) : Except UsageError Group :=
  match argument with
  | first :: second :: rest =>
    if first ≠ dash then .error (.unexpected argument)
    else if second = dash then readLong argument o
    else readGroup argument o (second :: rest)
  | _ => .error (.unexpected argument)

def read (o : Options) : List Bytes → Except UsageError Request
  | [] => .ok (.run o)
  | argument :: rest =>
    if argument = [dash, dash] then
      match rest with
      | [] => .ok (.run o)
      | next :: _ => .error (.unexpected next)
    else match readArgument argument o with
    | .error e => .error e
    | .ok (.request request) => .ok request
    | .ok (.done o) => o.read rest
    | .ok (.wantsValue o) =>
      match rest with
      | [] => .error .missingValue
      | value :: rest =>
        if looksLikeOption value then .error .missingValue
        else match o.setConfig value with
          | .error e => .error e
          | .ok o => o.read rest

end Options

def Request.ofArguments (arguments : List Bytes) : Except UsageError Request :=
  Options.read {} arguments

end LineShell
