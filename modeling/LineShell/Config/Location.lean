import LineShell.Files.Path

/-!
# Where the configuration lies

The configuration file of a user who names none is in the user's home directory.
-/

namespace LineShell.Config

def fileName : Bytes := bytesOf ".pshellrc"

def location? (home : Option Bytes) : Option Bytes := home.map (Files.Path.join · fileName)

end LineShell.Config
