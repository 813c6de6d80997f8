import StatusLine.Json
import StatusLine.Segment
import StatusLine.Separator

namespace StatusLine

abbrev Arguments := Keyed Json

structure SideConfig where
  segments : List Segment
  style : Option Style
deriving DecidableEq, Repr

instance : Inhabited SideConfig := ⟨⟨[], none⟩⟩

/-- What a status line has beside its window list. Each field may be left out of a configuration. -/
structure Settings where
  left : SideConfig
  right : SideConfig
  separator : SeparatorSet
  leftEnd : Option SeparatorSet
  rightEnd : Option SeparatorSet
  arguments : Keyed Arguments
  leftLength : UInt32
  rightLength : UInt32
  bg : Color
  fg : Color
  style : Option Style
  interval : UInt32
  visible : Bool
deriving DecidableEq, Repr

namespace Settings

def defaultLeftLength : UInt32 := 60

def defaultRightLength : UInt32 := 90

def defaultInterval : UInt32 := 1

def default : Settings where
  left := ⟨[], none⟩
  right := ⟨[], none⟩
  separator := .default
  leftEnd := none
  rightEnd := none
  arguments := []
  leftLength := defaultLeftLength
  rightLength := defaultRightLength
  bg := .terminal
  fg := .terminal
  style := none
  interval := defaultInterval
  visible := true

end Settings

structure Statusbar extends Settings where
  windows : WindowList
deriving DecidableEq, Repr

namespace Statusbar

def new (left right : List Segment) (windows : WindowList) : Statusbar :=
  { Settings.default with left := ⟨left, none⟩, right := ⟨right, none⟩, windows := windows }

def side (b : Statusbar) : Side → SideConfig
  | .left => b.left
  | .right => b.right

def endSeparator (b : Statusbar) : Side → SeparatorSet
  | .left => b.leftEnd.getD b.separator
  | .right => b.rightEnd.getD b.separator

/-- The style of the whole status line: colours that the default style leaves open come from the
default colours. -/
def statusStyle (b : Statusbar) : Style :=
  match b.style with
  | some s => { s with fg := some (s.fg.getD b.fg), bg := some (s.bg.getD b.bg) }
  | none => ⟨some b.fg, some b.bg, [], []⟩

end Statusbar

inductive PaneBorder where
  | off
  | top
  | bottom
deriving DecidableEq, Repr

namespace PaneBorder

def all : List PaneBorder := [off, top, bottom]

def name : PaneBorder → String
  | off => "off"
  | top => "top"
  | bottom => "bottom"

end PaneBorder

inductive BorderLine where
  | single
  | double
  | heavy
  | simple
  | number
deriving DecidableEq, Repr

namespace BorderLine

def all : List BorderLine := [single, double, heavy, simple, number]

def name : BorderLine → String
  | single => "single"
  | double => "double"
  | heavy => "heavy"
  | simple => "simple"
  | number => "number"

end BorderLine

structure Options where
  renumberWindows : Bool
  renameWindows : Bool
  renameFormat : String
  border : PaneBorder
  borderLine : BorderLine
  borderContent : String
deriving DecidableEq, Repr

namespace Options

def defaultRenameFormat : String := "#\x7bpane_current_command\x7d"

def defaultBorderContent : String := "#\x7bpane_index\x7d #\x7bpane_current_command\x7d"

def default : Options where
  renumberWindows := true
  renameWindows := true
  renameFormat := defaultRenameFormat
  border := .top
  borderLine := .single
  borderContent := defaultBorderContent

end Options

structure Config where
  statusbar : Statusbar
  options : Options
deriving DecidableEq, Repr

def Config.new (b : Statusbar) : Config := ⟨b, .default⟩

def Arguments.same (a b : Keyed Arguments) : Bool :=
  a.length == b.length &&
    (a.zip b).all fun e => e.1.1 == e.2.1 && Json.sameMembers e.1.2 e.2.2

def Statusbar.same (a b : Statusbar) : Bool :=
  a.left == b.left && a.right == b.right && a.windows == b.windows && a.separator == b.separator &&
    a.leftEnd == b.leftEnd && a.rightEnd == b.rightEnd && Arguments.same a.arguments b.arguments &&
    a.leftLength == b.leftLength && a.rightLength == b.rightLength && a.bg == b.bg &&
    a.fg == b.fg && a.style == b.style && a.interval == b.interval && a.visible == b.visible

def Config.same (a b : Config) : Bool := a.statusbar.same b.statusbar && a.options == b.options

end StatusLine
