import StatusLine.Number.Integer
import StatusLine.Text.LowerCase
import StatusLine.Text.Trim

/-!
Colours as the host writes them: a name, an index into the palette of 256, or `#RRGGBB`. Every
colour has one text, and reading that text gives the colour back.
-/

namespace StatusLine

/-- `terminal` shows the terminal's own colour; `default` is the status line's. -/
inductive NamedColor where
  | black
  | red
  | green
  | yellow
  | blue
  | magenta
  | cyan
  | white
  | terminal
  | default
deriving DecidableEq, Repr

namespace NamedColor

def all : List NamedColor :=
  [black, red, green, yellow, blue, magenta, cyan, white, terminal, default]

def name : NamedColor → String
  | black => "black"
  | red => "red"
  | green => "green"
  | yellow => "yellow"
  | blue => "blue"
  | magenta => "magenta"
  | cyan => "cyan"
  | white => "white"
  | terminal => "terminal"
  | default => "default"

end NamedColor

def isHexColor : List Char → Bool
  | '#' :: ds => ds.length == 6 && ds.all fun c =>
      Integer.isDigit c || ('a' ≤ c && c ≤ 'f') || ('A' ≤ c && c ≤ 'F')
  | _ => false

structure HexColor where
  text : String
  isHex : isHexColor text.toList = true
deriving DecidableEq, Repr

inductive Color where
  | named (n : NamedColor)
  | indexed (i : Fin 256)
  | hex (h : HexColor)
deriving DecidableEq, Repr

inductive ColorError where
  | indexOutOfRange (value : Int)
  | malformedHex (text : String)
  | unknownName (text : String)
deriving DecidableEq, Repr

def ColorError.message : ColorError → String
  | .indexOutOfRange v => "colour index " ++ Integer.text v ++ " is outside 0..=255"
  | .malformedHex s => "`" ++ s ++ "` is not a #RRGGBB hex colour"
  | .unknownName s => "unknown colour `" ++ s ++ "`"

namespace Color

def default : Color := .named .default

def terminal : Color := .named .terminal

instance : Inhabited Color := ⟨default⟩

def wire : Color → String
  | .named n => n.name
  | .indexed i => "colour" ++ Integer.text i.val
  | .hex h => h.text

def ofIndex (v : Int) : Except ColorError Color :=
  if h : 0 ≤ v ∧ v < 256 then .ok (.indexed ⟨v.toNat, by omega⟩) else .error (.indexOutOfRange v)

def ofHex (s : String) : Except ColorError Color :=
  if h : isHexColor s.toList = true then .ok (.hex ⟨s, h⟩) else .error (.malformedHex s)

def ofName (name : String) (lower : List Char) : Except ColorError Color :=
  match NamedColor.all.find? fun n => n.name.toList == lower with
  | some n => .ok (.named n)
  | none => .error (.unknownName name)

def indexText? (lower : List Char) : Option (List Char) :=
  (Text.after? "colour".toList lower).or (Text.after? "color".toList lower)

/-- Reads a colour; white space around it and the case of its letters do not matter. -/
def parse (s : String) : Except ColorError Color :=
  let name := Text.trim s
  match name.toList with
  | '#' :: _ => ofHex name
  | cs =>
      let lower := Text.lowered cs
      match indexText? lower with
      | some ds =>
          match Integer.word? ds with
          | some v => ofIndex v
          | none => .error (.unknownName name)
      | none => ofName name lower

def same (a b : Color) : Bool := a.wire == b.wire

end Color

end StatusLine
