/-!
Separator glyphs. A set has a thick and a thin glyph for each direction a glyph can point in.
-/

namespace StatusLine

inductive Direction where
  | left
  | right
deriving DecidableEq, Repr

structure SeparatorSet where
  thickLeft : String
  thickRight : String
  thinLeft : String
  thinRight : String
deriving DecidableEq, Repr

namespace SeparatorSet

def thick (s : SeparatorSet) : Direction → String
  | .left => s.thickLeft
  | .right => s.thickRight

def thin (s : SeparatorSet) : Direction → String
  | .left => s.thinLeft
  | .right => s.thinRight

end SeparatorSet

inductive Preset where
  | none
  | classic
  | angle
  | slashForward
  | slashBackward
  | round
  | flame
  | pixelSquares
deriving DecidableEq, Repr

inductive SeparatorError where
  | unknownPreset (name : String)
deriving DecidableEq, Repr

def SeparatorError.message : SeparatorError → String
  | .unknownPreset s => "unknown separator preset `" ++ s ++ "`"

namespace Preset

def all : List Preset :=
  [none, classic, angle, slashForward, slashBackward, round, flame, pixelSquares]

def name : Preset → String
  | none => "none"
  | classic => "original"
  | angle => "angle"
  | slashForward => "slash_forward"
  | slashBackward => "slash_backward"
  | round => "round"
  | flame => "flame"
  | pixelSquares => "pixel_squares"

def parse (s : String) : Except SeparatorError Preset :=
  match all.find? fun p => p.name == s with
  | some p => .ok p
  | Option.none => .error (.unknownPreset s)

/-- The glyphs of the powerline symbol fonts; where a flame or a pixel edge opens a segment, a full
block fills the cell behind it. -/
def glyphs : Preset → SeparatorSet
  | none => ⟨"", "", "", ""⟩
  | classic => ⟨"\ue0b2", "\ue0b0", "\ue0b3", "\ue0b1"⟩
  | angle => ⟨"\ue0b2", "\ue0b0", "\ue0b3", "\ue0b1"⟩
  | slashForward => ⟨"\ue0ba", "\ue0bc", "\ue0bd", "\ue0bb"⟩
  | slashBackward => ⟨"\ue0be", "\ue0b8", "\ue0b9", "\ue0b9"⟩
  | round => ⟨"\ue0b6", "\ue0b4", "\ue0b7", "\ue0b5"⟩
  | flame => ⟨"\ue0c2 \u2588", "\ue0c0 ", "\ue0c3 ", "\ue0c1 "⟩
  | pixelSquares => ⟨"\ue0c7 \u2588", "\ue0c6 ", "\ue0c5 ", "\ue0c4"⟩

end Preset

def SeparatorSet.default : SeparatorSet := Preset.classic.glyphs

instance : Inhabited SeparatorSet := ⟨.default⟩

end StatusLine
