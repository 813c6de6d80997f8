import StatusLine.Text.Trim

namespace StatusLine

inductive Attribute where
  | acs
  | bright
  | bold
  | dim
  | underscore
  | blink
  | reverse
  | hidden
  | italics
  | overline
  | strikethrough
  | doubleUnderscore
  | curlyUnderscore
  | dottedUnderscore
  | dashedUnderscore
deriving DecidableEq, Repr

namespace Attribute

def all : List Attribute :=
  [acs, bright, bold, dim, underscore, blink, reverse, hidden, italics, overline, strikethrough,
    doubleUnderscore, curlyUnderscore, dottedUnderscore, dashedUnderscore]

def name : Attribute → String
  | acs => "acs"
  | bright => "bright"
  | bold => "bold"
  | dim => "dim"
  | underscore => "underscore"
  | blink => "blink"
  | reverse => "reverse"
  | hidden => "hidden"
  | italics => "italics"
  | overline => "overline"
  | strikethrough => "strikethrough"
  | doubleUnderscore => "double-underscore"
  | curlyUnderscore => "curly-underscore"
  | dottedUnderscore => "dotted-underscore"
  | dashedUnderscore => "dashed-underscore"

def ofName? (name : String) : Option Attribute := all.find? fun a => a.name == name

/-- The two names an attribute also goes by in style texts. -/
def unaliased (name : String) : String :=
  if name = "italic" then "italics" else if name = "underline" then "underscore" else name

def parse? (s : String) : Option Attribute := ofName? (unaliased (Text.trim s))

theorem ofName?_name (a : Attribute) : ofName? a.name = some a := by
  cases a <;> decide

end Attribute

end StatusLine
