import StatusLine.Json.Document
import StatusLine.Provider
import StatusLine.Time.Format

namespace StatusLine.Provider

open Decoder (Record)

def arguments {σ : Type} (name : String) (r : Record σ) (args : Arguments) :
    Except ProviderError σ :=
  match r.decode.ofValue (.object args) with
  | .ok s => .ok s
  | .error (.refused cause) => .error (.arguments name cause.message)
  | .error .malformed => .error (.arguments name "")

def windowInfo : Provider :=
  constant [.variable .windowIndex, .variable .windowFlags, .text " | ", .variable .windowName]

def sessionName : Provider := constant [.variable .sessionName]

def ellipsis : String := "..."

def kept (most : Nat) : Nat := max (most - ellipsis.length) 1

/-- The pane's path, cut from the left to at most that many characters by the host. -/
def pathFormat (most : Nat) : String :=
  "#\x7b?#\x7be|>:#\x7bn:" ++ Variable.paneCurrentPath.name ++ "\x7d," ++ Integer.text most ++
    "\x7d,#\x7b=/-" ++ Integer.text (kept most) ++ "/" ++ ellipsis ++ ":" ++
    Variable.paneCurrentPath.name ++ "\x7d," ++ Variable.paneCurrentPath.token ++ "\x7d"

def lengthRecord : Record Nat where
  type := "CwdArgs"
  strict := true
  blank := 30
  fields := [.of "max_length" Decoder.word64 fun n _ => n]

def workingDirectory : Provider := fun args =>
  (arguments "cwd" lengthRecord args).map fun most => [.format (pathFormat most)]

def patternRecord : Record (Option String) where
  type := "FormatArgs"
  strict := true
  blank := none
  fields := [.of "format" (Decoder.optional Decoder.text) fun f _ => f]

def formatted (now : Moment) (pattern : String) : Except ProviderError Output :=
  match Time.format? pattern now with
  | some s => .ok [.text s]
  | none => .error (.failed ("invalid time format `" ++ pattern ++ "`"))

def patterned (name usual : String) (now : Moment) : Provider := fun args =>
  match arguments name patternRecord args with
  | .ok pattern => formatted now (pattern.getD usual)
  | .error e => .error e

def weekday (now : Moment) : Provider := fun _ => formatted now "%A"

def builtins (now : Moment) : Registry :=
  Keyed.ofList [
    ("window_info", windowInfo),
    ("session_name", sessionName),
    ("cwd", workingDirectory),
    ("date_day", weekday now),
    ("date", patterned "date" "%Y-%m-%d" now),
    ("time", patterned "time" "%H:%M" now)]

end StatusLine.Provider
