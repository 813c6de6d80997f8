import StatusLine.Config
import StatusLine.Document.Decoder
import StatusLine.Format.Variable

namespace StatusLine

open Decoder (Field Record)

def Color.decoder : Decoder Color := Decoder.spelled fun s => (Color.parse s).mapError .color

def Attribute.decoder : Decoder Attribute := Decoder.choice Attribute.all Attribute.name

def Variable.decoder : Decoder Variable := Decoder.choice Variable.all Variable.name

def Style.record : Record Style where
  type := "StyleTable"
  strict := true
  blank := .empty
  fields := [
    .of "fg" (Decoder.optional Color.decoder) fun c s => { s with fg := c },
    .of "bg" (Decoder.optional Color.decoder) fun c s => { s with bg := c },
    .of "attrs" (Decoder.list Attribute.decoder) fun as s => { s with attrs := as },
    .of "unset_attrs" (Decoder.list Attribute.decoder) fun as s => { s with unset := as }]

/-- A style is a style text or a table, and what is wrong with a table is not told. -/
def Style.decoder : Decoder Style := fun p node =>
  if Decoder.isWhole p node then
    match node with
    | .text s => (Style.parse s).mapError fun e => .refused (.style e)
    | node =>
        (Style.record.decode ⟨.jsonValue, p.level⟩ node).mapError fun _ =>
          .refused (.noForm "StyleRepr")
  else .error .malformed

def SeparatorSet.record : Record SeparatorSet where
  type := "Glyphs"
  strict := false
  blank := ⟨"", "", "", ""⟩
  fields := [
    .needed "thick_left" Decoder.text fun g s => { s with thickLeft := g },
    .needed "thick_right" Decoder.text fun g s => { s with thickRight := g },
    .needed "thin_left" Decoder.text fun g s => { s with thinLeft := g },
    .needed "thin_right" Decoder.text fun g s => { s with thinRight := g }]

def SeparatorSet.decoder : Decoder SeparatorSet := fun p node =>
  if Decoder.isWhole p node then
    match node with
    | .text s =>
        match Preset.parse s with
        | .ok preset => .ok preset.glyphs
        | .error e => .error (.refused (.separator e))
    | .list _ _ => .error (.refused (.noForm "SeparatorSpec"))
    | .tables _ => .error (.refused (.noForm "SeparatorSpec"))
    | node =>
        (SeparatorSet.record.decode ⟨.jsonValue, p.level⟩ node).mapError fun _ =>
          .refused (.noForm "SeparatorSpec")
  else .error .malformed

structure SegmentDraft where
  text : Option String
  provider : Option String
  bg : Color
  fg : Color
  style : Option Style
  separator : Option String

def SegmentDraft.record : Record SegmentDraft where
  type := "RawSegment"
  strict := true
  blank := ⟨none, none, .default, .default, none, none⟩
  fields := [
    .of "text" (Decoder.optional Decoder.text) fun t s => { s with text := t },
    .of "provider" (Decoder.optional Decoder.text) fun t s => { s with provider := t },
    .of "bg" Color.decoder fun c s => { s with bg := c },
    .of "fg" Color.decoder fun c s => { s with fg := c },
    .of "style" (Decoder.optional Style.decoder) fun x s => { s with style := x },
    .of "separator" (Decoder.optional Decoder.text) fun t s => { s with separator := t }]

def SegmentDraft.content (d : SegmentDraft) : Except SegmentError Content :=
  match d.text, d.provider with
  | some t, none => .ok (.literal t)
  | none, some name => .ok (.provider name)
  | some _, some _ => .error .ambiguous
  | none, none => .error .empty

def SegmentDraft.segment (d : SegmentDraft) : Except SegmentError Segment :=
  d.content.map fun c => ⟨c, d.bg, d.fg, d.style, d.separator⟩

def Segment.decoder : Decoder Segment := fun p node =>
  match SegmentDraft.record.decode p node with
  | .ok d => d.segment.mapError fun e => .refused (.segment e)
  | .error e => .error e

def Alignment.decoder : Decoder Alignment := Decoder.choice Alignment.all Alignment.name

def WindowList.record : Record WindowList where
  type := "WindowListConfig"
  strict := false
  blank := ⟨.literal "", .literal "", .left⟩
  fields := [
    .needed "active" Segment.decoder fun x w => { w with active := x },
    .needed "inactive" Segment.decoder fun x w => { w with inactive := x },
    .of "alignment" Alignment.decoder fun x w => { w with alignment := x }]

def WindowList.decoder : Decoder WindowList := WindowList.record.decode

def Arguments.decoder : Decoder Arguments := Decoder.keyed Decoder.json

def SideConfig.record : Record SideConfig where
  type := "SideConfig"
  strict := true
  blank := ⟨[], none⟩
  fields := [
    .of "segments" (Decoder.list Segment.decoder) fun x s => { s with segments := x },
    .of "style" (Decoder.optional Style.decoder) fun x s => { s with style := x }]

def SideConfig.decoder : Decoder SideConfig := SideConfig.record.decode

def Statusbar.record : Record Statusbar where
  type := "StatusbarConfig"
  strict := true
  blank := {
    left := SideConfig.record.blank
    right := SideConfig.record.blank
    windows := WindowList.record.blank
    separator := .default
    leftEnd := none
    rightEnd := none
    arguments := []
    leftLength := Settings.defaultLeftLength
    rightLength := Settings.defaultRightLength
    bg := .terminal
    fg := .terminal
    style := none
    interval := Settings.defaultInterval
    visible := true }
  fields := [
    .of "left" SideConfig.decoder fun x b => { b with left := x },
    .of "right" SideConfig.decoder fun x b => { b with right := x },
    .needed "window_list" WindowList.decoder fun x b => { b with windows := x },
    .of "separator" SeparatorSet.decoder fun x b => { b with separator := x },
    .of "left_end_separator" (Decoder.optional SeparatorSet.decoder) fun x b =>
      { b with leftEnd := x },
    .of "right_end_separator" (Decoder.optional SeparatorSet.decoder) fun x b =>
      { b with rightEnd := x },
    .of "provider_args" (Decoder.keyed Arguments.decoder) fun x b => { b with arguments := x },
    .of "left_max_length" Decoder.word32 fun x b => { b with leftLength := x },
    .of "right_max_length" Decoder.word32 fun x b => { b with rightLength := x },
    .of "default_bg" Color.decoder fun x b => { b with bg := x },
    .of "default_fg" Color.decoder fun x b => { b with fg := x },
    .of "default_style" (Decoder.optional Style.decoder) fun x b => { b with style := x },
    .of "status_interval" Decoder.word32 fun x b => { b with interval := x },
    .of "visible" Decoder.boolean fun x b => { b with visible := x }]

def PaneBorder.decoder : Decoder PaneBorder := Decoder.choice PaneBorder.all PaneBorder.name

def BorderLine.decoder : Decoder BorderLine := Decoder.choice BorderLine.all BorderLine.name

def Options.record : Record Options where
  type := "StylerOptions"
  strict := true
  blank := {
    renumberWindows := true
    renameWindows := true
    renameFormat := Options.defaultRenameFormat
    border := .top
    borderLine := .single
    borderContent := Options.defaultBorderContent }
  fields := [
    .of "renumber_windows" Decoder.boolean fun x o => { o with renumberWindows := x },
    .of "auto_rename_window" Decoder.boolean fun x o => { o with renameWindows := x },
    .of "auto_rename_format" Decoder.text fun x o => { o with renameFormat := x },
    .of "pane_border" PaneBorder.decoder fun x o => { o with border := x },
    .of "pane_border_line" BorderLine.decoder fun x o => { o with borderLine := x },
    .of "pane_border_content" Decoder.text fun x o => { o with borderContent := x }]

def Config.record : Record Config where
  type := "StylerConfig"
  strict := true
  blank := ⟨Statusbar.record.blank, Options.record.blank⟩
  fields := [
    .needed "statusbar" Statusbar.record.decode fun x c => { c with statusbar := x },
    .of "options" Options.record.decode fun x c => { c with options := x }]

def Config.decoder : Decoder Config := Config.record.decode

end StatusLine
