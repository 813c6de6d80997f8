import StatusLine.Segment

/-!
The command line. Its words are Unicode texts; words of other bytes are outside the model. Options
may stand before and behind the command's name; `--snapshot` is understood on both levels, and the
one nearer the command counts.

A value that was given is looked at when the next option begins or the level ends, so that of two
faults the later one may be told.
-/

namespace StatusLine

inductive Command where
  | side (side : Side) (active : Bool)
  | window (kind : WindowKind)
  | apply (config : Option String)
  | configPath
deriving DecidableEq, Repr

structure Invocation where
  command : Command
  snapshot : Option String
deriving DecidableEq, Repr

inductive UsageError where
  | help
  | version
  | nothingGiven
  | missingCommand
  | unknownCommand
  | unknownArgument
  | attachedValue
  | repeated
  | missingOperand
  | invalidValue
  | notAFlag (text : String)
deriving DecidableEq, Repr

namespace CommandLine

/-- The two levels: in front of the command's name, and behind it. -/
inductive Level where
  | top
  | side (side : Side)
  | window
  | apply
  | configPath
deriving DecidableEq, Repr

def commands : List (String × Level) :=
  [("left", .side .left), ("right", .side .right), ("window", .window), ("apply", .apply),
    ("config-path", .configPath)]

inductive Setting where
  | snapshot
  | config
deriving DecidableEq, Repr

def Level.setting? (level : Level) (name : String) : Option Setting :=
  if name = "snapshot" then some .snapshot
  else if name = "config" ∧ level = .apply then some .config
  else none

def Level.answer? (level : Level) (name : String) : Option UsageError :=
  if name = "help" then some .help
  else if name = "version" ∧ level = .top then some .version
  else none

def Level.letter? (level : Level) (c : Char) : Option UsageError :=
  if c = 'h' then some .help
  else if c = 'V' ∧ level = .top then some .version
  else none

def Level.takesOperand : Level → Bool
  | .side _ => true
  | .window => true
  | _ => false

def Level.command (level : Level) (config operand : Option String) :
    Except UsageError Command :=
  match level, operand with
  | .side s, some "1" => .ok (.side s true)
  | .side s, some "0" => .ok (.side s false)
  | .side _, some text => .error (.notAFlag text)
  | .side _, none => .error .missingOperand
  | .window, some "active" => .ok (.window .active)
  | .window, some "inactive" => .ok (.window .inactive)
  | .window, some _ => .error .invalidValue
  | .window, none => .error .missingOperand
  | .apply, _ => .ok (.apply config)
  | .configPath, _ => .ok .configPath
  | .top, _ => .error .missingCommand

inductive Word where
  | endOfOptions
  | long (name : String) (value : Option String)
  | short (letters : List Char)
  | plain
deriving DecidableEq, Repr

def word (s : String) : Word :=
  match s.toList with
  | ['-', '-'] => .endOfOptions
  | '-' :: '-' :: cs =>
      match cs.span (· != '=') with
      | (name, '=' :: value) => .long (String.ofList name) (some (String.ofList value))
      | (name, _) => .long (String.ofList name) none
  | '-' :: c :: cs => .short (c :: cs)
  | _ => .plain

/-- What was given last and not looked at yet. -/
inductive Pending where
  | nothing
  | setting (which : Setting) (value : Option String)
  | operand (text : String)
deriving DecidableEq, Repr

def Pending.isOperand : Pending → Bool
  | .operand _ => true
  | _ => false

structure Scan where
  pending : Pending
  snapshot : Option String
  config : Option String
  operand : Option String
deriving DecidableEq, Repr

def Scan.start : Scan := ⟨.nothing, none, none, none⟩

def Scan.value (s : Scan) : Setting → Option String
  | .snapshot => s.snapshot
  | .config => s.config

def Scan.put (s : Scan) (which : Setting) (value : String) : Scan :=
  match which with
  | .snapshot => { s with snapshot := some value }
  | .config => { s with config := some value }

def Scan.waiting (s : Scan) : Option Setting :=
  match s.pending with
  | .setting which none => some which
  | _ => none

def Scan.set (s : Scan) (which : Setting) (value : String) : Except UsageError Scan :=
  if (s.value which).isSome then .error .repeated
  else if value.isEmpty then .error .invalidValue
  else .ok (s.put which value)

def Scan.settle (level : Level) (s : Scan) : Except UsageError Scan :=
  let done := { s with pending := .nothing }
  match s.pending with
  | .nothing => .ok s
  | .setting _ none => .error .invalidValue
  | .setting which (some value) => done.set which value
  | .operand text =>
      (level.command none (some text)).map fun _ => { done with operand := some text }

def long (level : Level) (s : Scan) (name : String) (value : Option String) :
    Except UsageError Scan :=
  match level.setting? name with
  | some which => do
      let s ← s.settle level
      match value with
      | some v => s.set which v
      | none => .ok { s with pending := .setting which none }
  | none =>
      match level.answer? name with
      | some answer =>
          if value.isSome then .error .attachedValue
          else do
            let _ ← s.settle level
            .error answer
      | none => .error .unknownArgument

def short (level : Level) (s : Scan) (letters : List Char) : Except UsageError Scan :=
  match letters.head?.bind level.letter? with
  | some answer => do
      let _ ← s.settle level
      .error answer
  | none => .error .unknownArgument

/-- A word that is no option. Behind `--` the name of a command is taken for an argument. -/
def operand (level : Level) (s : Scan) (behindEnd : Bool) (text : String) :
    Except UsageError Scan :=
  if level.takesOperand && s.operand.isNone && !s.pending.isOperand then do
    let s ← s.settle level
    .ok { s with pending := .operand text }
  else if level ≠ .top then .error .unknownArgument
  else if behindEnd ∧ (text = "help" ∨ (commands.lookup text).isSome) then .error .unknownArgument
  else .error .unknownCommand

def help : List String → UsageError
  | [] => .help
  | [name] => if name = "help" ∨ (commands.lookup name).isSome then .help else .unknownCommand
  | _ => .unknownCommand

/-- Scans the words of a level; `behindEnd` tells that `--` has been met. Ends at the name of a
command, with the words behind it. -/
def scan (level : Level) : Scan → Bool → List String →
    Except UsageError (Scan × Option (Level × List String))
  | s, _, [] => .ok (s, none)
  | s, true, text :: rest => do
      let s ← operand level s true text
      scan level s true rest
  | s, false, text :: rest =>
      match if level = .top ∧ s.waiting.isNone then commands.lookup text else none with
      | some sub => .ok (s, some (sub, rest))
      | none =>
          if level = .top ∧ s.waiting.isNone ∧ text = "help" then .error (help rest)
          else
            match word text with
            | .endOfOptions => scan level s true rest
            | .long name value => do
                let s ← long level s name value
                scan level s false rest
            | .short letters => do
                let s ← short level s letters
                scan level s false rest
            | .plain =>
                match s.waiting with
                | some which =>
                    scan level { s with pending := .setting which (some text) } false rest
                | none => do
                    let s ← operand level s false text
                    scan level s false rest

def parse (args : List String) : Except UsageError Invocation := do
  let (outer, sub) ← scan .top .start false args
  match sub with
  | some (level, rest) =>
      let (inner, _) ← scan level .start false rest
      let inner ← inner.settle level
      let command ← level.command inner.config inner.operand
      let outer ← outer.settle .top
      .ok ⟨command, inner.snapshot.or outer.snapshot⟩
  | none =>
      let outer ← outer.settle .top
      if outer.snapshot.isNone then .error .nothingGiven else .error .missingCommand

end CommandLine

def UsageError.reason : UsageError → Option String
  | .notAFlag text => some ("expected 0 or 1, got '" ++ text ++ "'")
  | _ => none

def UsageError.message : UsageError → String
  | .help => "help was asked for"
  | .version => "the version was asked for"
  | .nothingGiven => "no command is given"
  | .missingCommand => "the command is missing"
  | .unknownCommand => "no such command"
  | .unknownArgument => "unexpected argument"
  | .attachedValue => "an option takes no value"
  | .repeated => "an option is given twice"
  | .missingOperand => "the argument of a command is missing"
  | .invalidValue => "invalid value"
  | .notAFlag text => "expected 0 or 1, got '" ++ text ++ "'"

end StatusLine
