import StatusLine.Config
import StatusLine.Host.Quoted

/-!
The commands that hand a configuration to the host. Each sets one option; those of the status line
have the host run this program again whenever it draws.
-/

namespace StatusLine.Host

/-- The words that begin a callback: the program, and the snapshot unless it is the default one.
Both are Unicode texts; paths with other bytes, which would be replaced here, are outside the
model. -/
def callback (program : String) (snapshot : Option String) : String :=
  match snapshot with
  | some path => callbackWord program ++ " --snapshot " ++ callbackWord path
  | none => callbackWord program

inductive Value where
  | word (s : String)
  | text (s : String)
deriving DecidableEq, Repr

def Value.written : Value → String
  | .word s => s
  | .text s => quoted s

def Value.content : Value → String
  | .word s => s
  | .text s => s

structure Command where
  option : String
  value : Value
deriving DecidableEq, Repr

def Command.line (c : Command) : String := "tmux set -g " ++ c.option ++ " " ++ c.value.written

def switch (on : Bool) : Value := .word (if on then "on" else "off")

def number (n : UInt32) : Value := .word (Integer.text n.toNat)

def job (callback arguments : String) : Value := .text ("#(" ++ callback ++ " " ++ arguments ++ ")")

def sideStyle : Option Style → Value
  | some s => .text (if s.isEmpty then "default" else s.text)
  | none => .text "default"

def statusbarCommands (b : Statusbar) (callback : String) : List Command := [
  ⟨"status-justify", .word b.windows.alignment.word⟩,
  ⟨"window-status-current-format", job callback "window active"⟩,
  ⟨"window-status-format", job callback "window inactive"⟩,
  ⟨"window-status-separator", .text ""⟩,
  ⟨"status", switch b.visible⟩,
  ⟨"status-interval", number b.interval⟩,
  ⟨"status-style", .text b.statusStyle.text⟩,
  ⟨"status-left-length", number b.leftLength⟩,
  ⟨"status-right-length", number b.rightLength⟩,
  ⟨"status-left", job callback "left #\x7bwindow_start_flag\x7d"⟩,
  ⟨"status-left-style", sideStyle b.left.style⟩,
  ⟨"status-right", job callback "right #\x7bwindow_end_flag\x7d"⟩,
  ⟨"status-right-style", sideStyle b.right.style⟩]

def optionCommands (o : Options) : List Command := [
  ⟨"automatic-rename", switch o.renameWindows⟩,
  ⟨"renumber-windows", switch o.renumberWindows⟩,
  ⟨"automatic-rename-format", .text o.renameFormat⟩,
  ⟨"pane-border-status", .text o.border.name⟩,
  ⟨"pane-border-lines", .text o.borderLine.name⟩,
  ⟨"pane-border-format", .text (" " ++ o.borderContent ++ " ")⟩,
  ⟨"default-terminal", .text "screen-256color"⟩]

def commands (c : Config) (callback : String) : List Command :=
  statusbarCommands c.statusbar callback ++ optionCommands c.options

end StatusLine.Host
