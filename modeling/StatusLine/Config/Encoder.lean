import StatusLine.Config

namespace StatusLine

open Json (ofInt)

/-- A member that is left out when there is nothing to say. -/
def Json.member? (key : String) (x : Option Json) : List (String × Json) :=
  (x.map fun j => (key, j)).toList

def Color.json (c : Color) : Json := .string c.wire

def Attribute.json (a : Attribute) : Json := .string a.name

def Attribute.listJson? (as : List Attribute) : Option Json :=
  if as.isEmpty then none else some (.array (as.map json))

def Style.json (s : Style) : Json :=
  .object (Json.member? "fg" (s.fg.map Color.json) ++ Json.member? "bg" (s.bg.map Color.json) ++
    Json.member? "attrs" (Attribute.listJson? s.attrs) ++
    Json.member? "unset_attrs" (Attribute.listJson? s.unset))

def SeparatorSet.json (s : SeparatorSet) : Json :=
  .object [("thick_left", .string s.thickLeft), ("thick_right", .string s.thickRight),
    ("thin_left", .string s.thinLeft), ("thin_right", .string s.thinRight)]

def Content.member : Content → String × Json
  | .literal t => ("text", .string t)
  | .provider name => ("provider", .string name)

def Segment.json (s : Segment) : Json :=
  .object ([s.content.member, ("bg", s.ownBg.json), ("fg", s.ownFg.json)] ++
    Json.member? "style" (s.style.map Style.json) ++
    Json.member? "separator" (s.separator.map .string))

def Alignment.json (a : Alignment) : Json := .string a.name

def WindowList.json (w : WindowList) : Json :=
  .object [("active", w.active.json), ("inactive", w.inactive.json),
    ("alignment", w.alignment.json)]

def SideConfig.json (s : SideConfig) : Json :=
  .object (("segments", .array (s.segments.map Segment.json)) ::
    Json.member? "style" (s.style.map Style.json))

def Arguments.json (args : Keyed Arguments) : Json :=
  .object (args.map fun e => (e.1, .object e.2))

def Statusbar.json (b : Statusbar) : Json :=
  .object ([("left", b.left.json), ("right", b.right.json), ("window_list", b.windows.json),
      ("separator", b.separator.json)] ++
    Json.member? "left_end_separator" (b.leftEnd.map SeparatorSet.json) ++
    Json.member? "right_end_separator" (b.rightEnd.map SeparatorSet.json) ++
    [("provider_args", Arguments.json b.arguments), ("left_max_length", ofInt b.leftLength.toNat),
      ("right_max_length", ofInt b.rightLength.toNat), ("default_bg", b.bg.json),
      ("default_fg", b.fg.json)] ++
    Json.member? "default_style" (b.style.map Style.json) ++
    [("status_interval", ofInt b.interval.toNat), ("visible", .bool b.visible)])

def Options.json (o : Options) : Json :=
  .object [("renumber_windows", .bool o.renumberWindows),
    ("auto_rename_window", .bool o.renameWindows), ("auto_rename_format", .string o.renameFormat),
    ("pane_border", .string o.border.name), ("pane_border_line", .string o.borderLine.name),
    ("pane_border_content", .string o.borderContent)]

def Config.json (c : Config) : Json :=
  .object [("statusbar", c.statusbar.json), ("options", c.options.json)]

end StatusLine
