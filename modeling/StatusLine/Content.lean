import StatusLine.Provider

/-!
What a segment shows. Every failure stays inside its own segment: it becomes the segment's content.
-/

namespace StatusLine

/-- Names with a point are providers of the user's own. -/
def isQualified (name : String) : Bool := name.toList.contains '.'

/-- The content of a provider segment; a bare name that nobody provides shows nothing. -/
def provided (registry : Registry) (args : Keyed Arguments) (name : String) : String :=
  match registry.lookup name with
  | some provider =>
      match provider ((args.find? name).getD []) with
      | .ok output => Output.format output
      | .error e => escapeText e.message
  | none => if isQualified name then escapeText (ProviderError.unknown name).message else ""

def padded (body : String) : String := " " ++ body ++ " "

def attributed (attrs content : String) : String :=
  if attrs.isEmpty then content
  else Expr.render (.concat [.attrs attrs, .literal content, .reset])

def Segment.attrText (s : Segment) : String := (s.style.map Style.attrText).getD ""

/-- What is shown before spaces and attributes; nothing when the segment is left out. A literal is
never left out. -/
def Segment.body? (s : Segment) (registry : Registry) (args : Keyed Arguments) : Option String :=
  match s.content with
  | .literal text => some text
  | .provider name =>
      let body := provided registry args name
      if body.isEmpty then none else some body

def Segment.resolve (s : Segment) (registry : Registry) (args : Keyed Arguments) : String :=
  match s.body? registry args with
  | some body => attributed s.attrText (padded body)
  | none => ""

end StatusLine
