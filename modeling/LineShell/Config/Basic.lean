import LineShell.Config.SearchPath

/-!
# Configurations

What the user may choose: the prompt and the directories in which commands are looked up. A
configuration file is a list of settings, and the last setting of a kind wins.
-/

namespace LineShell

structure Config where
  prompt : String
  searchPath : SearchPath
deriving DecidableEq

namespace Config

protected def default : Config := ⟨"PShell>", .default⟩

inductive Setting
  | prompt (text : String)
  | searchPath (path : SearchPath)
deriving DecidableEq

def apply (config : Config) : Setting → Config
  | .prompt text => { config with prompt := text }
  | .searchPath path => { config with searchPath := path }

def ofSettings (settings : List Setting) : Config := settings.foldl apply .default

end Config

end LineShell
