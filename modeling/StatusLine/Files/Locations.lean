import StatusLine.Files.Path

namespace StatusLine

structure Environment where
  home : Option String
  configHome : Option String
  dataHome : Option String
deriving DecidableEq, Repr

namespace Environment

def program : String := "tmux-styler"

/-- The user's directory. Where `HOME` is unset or empty the user database would be asked next,
which is taken to have no answer. -/
def homeDirectory (e : Environment) : Option String := e.home.filter fun h => !h.isEmpty

def configBase (e : Environment) : Option String :=
  (e.configHome.filter fun d => !d.isEmpty).or
    (e.homeDirectory.map fun h => Path.join h ".config")

def configDirectories (e : Environment) : List String :=
  (e.configBase.map fun d => Path.join (Path.join d "tmux") program).toList ++
    (e.homeDirectory.map fun h => Path.join (Path.join h ".tmux") program).toList

def configCandidates (e : Environment) : List String :=
  e.configDirectories.map fun d => Path.join d "config.toml"

/-- Only an absolute path replaces the usual data directory. -/
def dataBase (e : Environment) : Option String :=
  (e.dataHome.filter Path.isAbsolute).or (e.homeDirectory.map fun h => Path.join h ".local/share")

def snapshotPath (e : Environment) : Option String :=
  e.dataBase.map fun d => Path.join (Path.join d program) "statusbar.json"

end Environment

end StatusLine
