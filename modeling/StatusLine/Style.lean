import StatusLine.Color
import StatusLine.Style.Attribute

/-!
Styles: two optional colours, attributes switched on and attributes switched off. A style has a
full text for options and an attribute text that stands in front of a segment's content.
-/

namespace StatusLine

inductive StyleError where
  | unknownAttribute (name : String)
  | color (cause : ColorError)
deriving DecidableEq, Repr

def StyleError.message : StyleError → String
  | .unknownAttribute s => "unknown text attribute `" ++ s ++ "`"
  | .color e => "invalid colour in style: " ++ e.message

/-- An attribute that is both set and unset is unset. -/
structure Style where
  fg : Option Color
  bg : Option Color
  attrs : List Attribute
  unset : List Attribute
deriving DecidableEq, Repr

def Attribute.parse (s : String) : Except StyleError Attribute :=
  match Attribute.parse? s with
  | some a => .ok a
  | none => .error (.unknownAttribute (Text.trim s))

namespace Style

def empty : Style := ⟨none, none, [], []⟩

instance : Inhabited Style := ⟨empty⟩

def isEmpty (s : Style) : Bool :=
  s.fg.isNone && s.bg.isNone && s.attrs.isEmpty && s.unset.isEmpty

def withFg (s : Style) (c : Color) : Style := { s with fg := some c }

def withBg (s : Style) (c : Color) : Style := { s with bg := some c }

def withAttr (s : Style) (a : Attribute) : Style := { s with attrs := s.attrs ++ [a] }

def withUnset (s : Style) (a : Attribute) : Style := { s with unset := s.unset ++ [a] }

def effective (s : Style) : List Attribute := s.attrs.filter fun a => !s.unset.contains a

def attrWords (s : Style) : List String :=
  s.effective.map Attribute.name ++ s.unset.map fun a => "no" ++ a.name

def colorWords (s : Style) : List String :=
  (s.fg.map fun c => "fg=" ++ c.wire).toList ++ (s.bg.map fun c => "bg=" ++ c.wire).toList

def attrText (s : Style) : String := ",".intercalate s.attrWords

def text (s : Style) : String := ",".intercalate (s.colorWords ++ s.attrWords)

def isBreak (c : Char) : Bool := c == ',' || c == ' '

/-- The words of a style text: what stands between commas and spaces, trimmed, if anything does. -/
def words (cs : List Char) : List (List Char) :=
  ((cs.splitOnP isBreak).map Text.trimmed).filter fun w => !w.isEmpty

theorem words_append_cons {c : Char} (h : isBreak c = true) (a b : List Char) :
    words (a ++ c :: b) = words a ++ words b := by
  simp [words, List.splitOnP_append_cons a b h]

def color (cs : List Char) : Except StyleError Color :=
  (Color.parse (String.ofList cs)).mapError .color

def unset? (word : List Char) : Option Attribute :=
  (Text.after? "no".toList word).bind fun cs => Attribute.parse? (String.ofList cs)

def addWord (s : Style) (word : List Char) : Except StyleError Style :=
  match Text.after? "fg=".toList word with
  | some cs => (color cs).map s.withFg
  | none =>
    match Text.after? "bg=".toList word with
    | some cs => (color cs).map s.withBg
    | none =>
      if word = "default".toList ∨ word = "none".toList then .ok s
      else match unset? word with
        | some a => .ok (s.withUnset a)
        | none => (Attribute.parse (String.ofList word)).map s.withAttr

def parse (s : String) : Except StyleError Style := (words s.toList).foldlM addWord empty

end Style

end StatusLine
