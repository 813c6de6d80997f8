import StatusLine.Style

namespace StatusLine

/-- `literal` is shown as written and may hold host syntax; `provider` is looked up by its name. -/
inductive Content where
  | literal (text : String)
  | provider (name : String)
deriving DecidableEq, Repr

/-- A segment with its own colours, which its style may replace, and an optional separator of its
own. -/
structure Segment where
  content : Content
  ownBg : Color
  ownFg : Color
  style : Option Style
  separator : Option String
deriving DecidableEq, Repr

inductive SegmentError where
  | ambiguous
  | empty
deriving DecidableEq, Repr

def SegmentError.message : SegmentError → String
  | .ambiguous => "segment declares both `text` and `provider`"
  | .empty => "segment declares neither `text` nor `provider`"

namespace Segment

def new (content : Content) : Segment := ⟨content, .default, .default, none, none⟩

def literal (text : String) : Segment := new (.literal text)

def provider (name : String) : Segment := new (.provider name)

def withBg (s : Segment) (c : Color) : Segment := { s with ownBg := c }

def withFg (s : Segment) (c : Color) : Segment := { s with ownFg := c }

def withStyle (s : Segment) (style : Style) : Segment := { s with style := some style }

def withSeparator (s : Segment) (glyph : String) : Segment := { s with separator := some glyph }

def bg (s : Segment) : Color := (s.style.bind Style.bg).getD s.ownBg

def fg (s : Segment) : Color := (s.style.bind Style.fg).getD s.ownFg

end Segment

inductive Side where
  | left
  | right
deriving DecidableEq, Repr

inductive WindowKind where
  | active
  | inactive
deriving DecidableEq, Repr

inductive Alignment where
  | left
  | right
  | center
  | absoluteCenter
deriving DecidableEq, Repr

namespace Alignment

def all : List Alignment := [left, right, center, absoluteCenter]

def name : Alignment → String
  | left => "left"
  | right => "right"
  | center => "center"
  | absoluteCenter => "absolute_center"

def word : Alignment → String
  | left => "left"
  | right => "right"
  | center => "centre"
  | absoluteCenter => "absolute-centre"

def adjoins : Alignment → Side → Bool
  | left, .left => true
  | right, .right => true
  | _, _ => false

end Alignment

structure WindowList where
  active : Segment
  inactive : Segment
  alignment : Alignment
deriving DecidableEq, Repr

def WindowList.new (active inactive : Segment) : WindowList := ⟨active, inactive, .left⟩

def WindowList.segment (w : WindowList) : WindowKind → Segment
  | .active => w.active
  | .inactive => w.inactive

end StatusLine
