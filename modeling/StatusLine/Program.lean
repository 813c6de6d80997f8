import StatusLine.CommandLine
import StatusLine.Files.Locations
import StatusLine.Files.System
import StatusLine.Host.Command
import StatusLine.Layout
import StatusLine.Provider.Builtin
import StatusLine.Snapshot
import StatusLine.Toml.Document

/-!
Runs of the program: `apply` reads the user's configuration, keeps it in the snapshot and prints the
commands that hand it to the host; the other commands read the snapshot and print what is to be
drawn.
-/

namespace StatusLine

/-- The file operations of a run. A failure of `read` is no text; `write` and `makeDirectories` say
whether they succeeded. -/
structure FileAccess (m : Type → Type) where
  has : String → m Bool
  read : String → m (Option String)
  write : String → String → m Bool
  makeDirectories : String → m Bool

def FileSystem.access : FileAccess (StateM FileSystem) where
  has p := fun fs => (fs.has p, fs)
  read p := fun fs => (fs.read p, fs)
  write p text := fun fs =>
    match fs.write p text with
    | some fs' => (true, fs')
    | none => (false, fs)
  makeDirectories p := fun fs => fs.makeDirectories p

inductive ConfigError where
  | file (path : String)
  | toml (path : String) (cause : DocumentError)
  | snapshot (path : String) (cause : DocumentError)
  | notFound (directories : List String)
  | noDataDirectory
deriving DecidableEq, Repr

/-- What is wrong, up to the path of a file that it is wrong with. -/
def ConfigError.message : ConfigError → String
  | .file path => "I/O error on " ++ path
  | .toml path _ => "TOML parse error in " ++ path
  | .snapshot path _ => "snapshot error in " ++ path
  | .notFound directories =>
      "no config.toml found (looked in " ++ ", ".intercalate directories ++ ")"
  | .noDataDirectory => "cannot determine the data directory"

/-- Why a command fails; drawing without a snapshot that can be read has a sentence of its own. -/
inductive Failure where
  | config (cause : ConfigError)
  | noSnapshot (cause : ConfigError)
deriving DecidableEq, Repr

def Failure.messages : Failure → List String
  | .config e => [e.message]
  | .noSnapshot e => ["no usable snapshot; run `tmux-styler apply` first", e.message]

namespace Program

variable {m : Type → Type} [Monad m]

def firstThere (files : FileAccess m) : List String → m (Option String)
  | [] => pure none
  | p :: rest => do
      if ← files.has p then pure (some p) else firstThere files rest

def userConfigPath (files : FileAccess m) (env : Environment) : m (Option String) :=
  firstThere files env.configCandidates

def readConfig (files : FileAccess m) (path : String) : m (Except ConfigError Config) := do
  match ← files.read path with
  | some text => pure ((Config.decoder.ofToml text).mapError (.toml path))
  | none => pure (.error (.file path))

def loadConfig (files : FileAccess m) (env : Environment) (path : Option String) :
    m (Except ConfigError Config) := do
  match path with
  | some p => readConfig files p
  | none =>
      match ← userConfigPath files env with
      | some p => readConfig files p
      | none => pure (.error (.notFound env.configDirectories))

def readSnapshot (files : FileAccess m) (path : String) : m (Except ConfigError Config) := do
  match ← files.read path with
  | some text => pure ((Snapshot.read text).mapError (.snapshot path))
  | none => pure (.error (.file path))

def prepare (files : FileAccess m) (path : String) : m (Except ConfigError Unit) := do
  match Path.parent? path with
  | some directory =>
      if ← files.makeDirectories directory then pure (.ok ()) else pure (.error (.file directory))
  | none => pure (.ok ())

def writeSnapshot (files : FileAccess m) (c : Config) (path : String) :
    m (Except ConfigError Unit) := do
  match ← prepare files path with
  | .ok () =>
      if ← files.write path (Snapshot.write c) then pure (.ok ()) else pure (.error (.file path))
  | .error e => pure (.error e)

structure Setup where
  env : Environment
  self : String
  now : Moment

def snapshotPath (env : Environment) (given : Option String) : Except ConfigError String :=
  match given.or env.snapshotPath with
  | some p => .ok p
  | none => .error .noDataDirectory

def draw (files : FileAccess m) (setup : Setup) (given : Option String)
    (line : Statusbar → Registry → String) : m (Except Failure (List String)) := do
  match snapshotPath setup.env given with
  | .error e => pure (.error (.config e))
  | .ok path =>
      match ← readSnapshot files path with
      | .ok c => pure (.ok [line c.statusbar (Provider.builtins setup.now)])
      | .error e => pure (.error (.noSnapshot e))

/-- How the host calls this program: with the snapshot's path, unless it is the usual one. -/
def callback (setup : Setup) (path : String) : String :=
  match setup.env.snapshotPath with
  | some usual =>
      if Path.same usual path then Host.callback setup.self none
      else Host.callback setup.self (some path)
  | none => Host.callback setup.self (some path)

def apply (files : FileAccess m) (setup : Setup) (given config : Option String) :
    m (Except Failure (List String)) := do
  match ← loadConfig files setup.env config with
  | .error e => pure (.error (.config e))
  | .ok c =>
      match snapshotPath setup.env given with
      | .error e => pure (.error (.config e))
      | .ok path =>
          match ← writeSnapshot files c path with
          | .error e => pure (.error (.config e))
          | .ok () => pure (.ok ((Host.commands c (callback setup path)).map Host.Command.line))

def perform (files : FileAccess m) (setup : Setup) (i : Invocation) :
    m (Except Failure (List String)) :=
  match i.command with
  | .side side active => draw files setup i.snapshot fun b r => b.sideText r side active
  | .window kind => draw files setup i.snapshot fun b r => b.windowText r kind
  | .apply config => apply files setup i.snapshot config
  | .configPath => do
      let path ← userConfigPath files setup.env
      pure (.ok [path.getD ""])

inductive Outcome where
  | printed (lines : List String)
  | failed (cause : Failure)
  | usage (cause : UsageError)
deriving DecidableEq, Repr

def versionText : String := "tmux-styler 0.4.0"

/-- Asking for help or the version is no error. -/
def Outcome.status : Outcome → Nat
  | .printed _ => 0
  | .failed _ => 1
  | .usage .help => 0
  | .usage .version => 0
  | .usage _ => 2

def lines (ls : List String) : String := String.join (ls.map fun l => l ++ "\n")

/-- What a run prints, but for the help that is generated from the command line's grammar. -/
def Outcome.output : Outcome → String
  | .printed ls => lines ls
  | .usage .version => lines [versionText]
  | _ => ""

def Outcome.complaints : Outcome → List String
  | .failed e =>
      match e.messages with
      | [] => []
      | first :: causes => ("Error: " ++ first) :: causes
  | .usage .help => []
  | .usage .version => []
  | .usage e => ["error: " ++ e.message]
  | .printed _ => []

def run (files : FileAccess m) (setup : Setup) (args : List String) : m Outcome :=
  match CommandLine.parse args with
  | .error e => pure (.usage e)
  | .ok i => do
      match ← perform files setup i with
      | .ok ls => pure (.printed ls)
      | .error e => pure (.failed e)

end Program

end StatusLine
