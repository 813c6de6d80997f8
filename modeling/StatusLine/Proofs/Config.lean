import StatusLine.Config.Decoder
import StatusLine.Proofs.Color
import StatusLine.Proofs.Document.Record

namespace StatusLine

open Decoder

theorem Color.reads (c : Color) : Reads Color.decoder c.json c :=
  reads_spelled (by rw [Color.parse_wire]; rfl)

theorem Color.json_ne_null (c : Color) : c.json ≠ .null := by
  simp [Color.json]

theorem Attribute.reads (a : Attribute) : Reads Attribute.decoder a.json a :=
  reads_choice (Attribute.ofName?_name a)

theorem Alignment.reads (a : Alignment) : Reads Alignment.decoder a.json a :=
  reads_choice (by cases a <;> rfl)

theorem PaneBorder.reads (b : PaneBorder) : Reads PaneBorder.decoder (.string b.name) b :=
  reads_choice (by cases b <;> rfl)

theorem BorderLine.reads (b : BorderLine) : Reads BorderLine.decoder (.string b.name) b :=
  reads_choice (by cases b <;> rfl)

theorem Style.json_eq (s : Style) :
    s.json = .object (written Style.record.fields [s.fg.map Color.json, s.bg.map Color.json,
      Attribute.listJson? s.attrs, Attribute.listJson? s.unset]) := by
  simp [Style.json, Style.record, written, Field.of]

theorem Style.json_ne_null (s : Style) : s.json ≠ .null := by
  simp [Style.json]

-- A list of attributes that is left out is empty in the record, which `hblank` says.
theorem Attribute.fills {σ : Type} {fs : List (Decoder.Field σ)} {xs : List (Option Json)} {s u : σ}
    {name : String} {set : List Attribute → σ → σ} (as : List Attribute) (hblank : set [] s = s)
    (hrest : Fills fs xs (set as s) u) :
    Fills (.of name (Decoder.list Attribute.decoder) set :: fs) (Attribute.listJson? as :: xs)
      s u := by
  cases as with
  | nil =>
      rw [hblank] at hrest
      exact .absent rfl hrest
  | cons a as => exact .of (reads_list fun b _ => Attribute.reads b) hrest

theorem Style.fills (s : Style) :
    Fills Style.record.fields [s.fg.map Color.json, s.bg.map Color.json,
      Attribute.listJson? s.attrs, Attribute.listJson? s.unset] Style.record.blank s := by
  refine .optional s.fg (fun c _ => c.reads) Color.json_ne_null rfl ?_
  refine .optional s.bg (fun c _ => c.reads) Color.json_ne_null rfl ?_
  refine Attribute.fills s.attrs rfl ?_
  exact Attribute.fills s.unset rfl (.done s)

theorem Style.reads (s : Style) : Reads Style.decoder s.json s := by
  intro p hp
  have hrecord : Reads Style.record.decode s.json s := by
    rw [Style.json_eq]
    exact reads_record (by decide) s.fills
  have hread := hrecord ⟨.jsonValue, p.level⟩ hp
  have hwhole := isWhole_ofJson hp
  simp only [Style.json, Node.ofJson] at hread hwhole ⊢
  simp only [Style.decoder, hwhole, if_true, hread]
  rfl

theorem SeparatorSet.json_eq (s : SeparatorSet) :
    s.json = .object (written SeparatorSet.record.fields [some (.string s.thickLeft),
      some (.string s.thickRight), some (.string s.thinLeft), some (.string s.thinRight)]) := rfl

theorem SeparatorSet.json_ne_null (s : SeparatorSet) : s.json ≠ .null := by
  simp [SeparatorSet.json]

theorem SeparatorSet.fills (s : SeparatorSet) :
    Fills SeparatorSet.record.fields [some (.string s.thickLeft), some (.string s.thickRight),
      some (.string s.thinLeft), some (.string s.thinRight)] SeparatorSet.record.blank s := by
  refine .needed (reads_text s.thickLeft) ?_
  refine .needed (reads_text s.thickRight) ?_
  refine .needed (reads_text s.thinLeft) ?_
  exact .needed (reads_text s.thinRight) (.done s)

theorem SeparatorSet.reads (s : SeparatorSet) : Reads SeparatorSet.decoder s.json s := by
  intro p hp
  have hrecord : Reads SeparatorSet.record.decode s.json s := by
    rw [SeparatorSet.json_eq]
    exact reads_record (by decide) s.fills
  have hread := hrecord ⟨.jsonValue, p.level⟩ hp
  have hwhole := isWhole_ofJson hp
  simp only [SeparatorSet.json, Node.ofJson] at hread hwhole ⊢
  simp only [SeparatorSet.decoder, hwhole, if_true, hread]
  rfl

def Content.text? : Content → Option String
  | .literal t => some t
  | .provider _ => none

def Content.provider? : Content → Option String
  | .literal _ => none
  | .provider name => some name

def Segment.draft (s : Segment) : SegmentDraft :=
  ⟨s.content.text?, s.content.provider?, s.ownBg, s.ownFg, s.style, s.separator⟩

theorem Segment.segment_draft (s : Segment) : s.draft.segment = .ok s := by
  obtain ⟨content, bg, fg, style, separator⟩ := s
  cases content <;> rfl

theorem Segment.json_eq (s : Segment) :
    s.json = .object (written SegmentDraft.record.fields [s.content.text?.map .string,
      s.content.provider?.map .string, some s.ownBg.json, some s.ownFg.json,
      s.style.map Style.json, s.separator.map .string]) := by
  obtain ⟨content, bg, fg, style, separator⟩ := s
  cases content <;>
    simp [Segment.json, Content.member, Content.text?, Content.provider?, SegmentDraft.record,
      written, Field.of, Json.member?]

theorem Segment.fills (s : Segment) :
    Fills SegmentDraft.record.fields [s.content.text?.map .string,
      s.content.provider?.map .string, some s.ownBg.json, some s.ownFg.json,
      s.style.map Style.json, s.separator.map .string] SegmentDraft.record.blank s.draft := by
  have hstring : ∀ t : String, Json.string t ≠ .null := fun _ h => nomatch h
  refine .optional s.content.text? (fun t _ => reads_text t) hstring rfl ?_
  refine .optional s.content.provider? (fun t _ => reads_text t) hstring rfl ?_
  refine .of s.ownBg.reads ?_
  refine .of s.ownFg.reads ?_
  refine .optional s.style (fun x _ => x.reads) Style.json_ne_null rfl ?_
  exact .optional s.separator (fun t _ => reads_text t) hstring rfl (.done s.draft)

theorem Segment.reads (s : Segment) : Reads Segment.decoder s.json s := by
  intro p hp
  have hrecord : Reads SegmentDraft.record.decode s.json s.draft := by
    rw [Segment.json_eq]
    exact reads_record (by decide) s.fills
  simp only [Segment.decoder, hrecord p hp, s.segment_draft]
  rfl

theorem WindowList.json_eq (w : WindowList) :
    w.json = .object (written WindowList.record.fields [some w.active.json,
      some w.inactive.json, some w.alignment.json]) := rfl

theorem WindowList.reads (w : WindowList) : Reads WindowList.decoder w.json w := by
  rw [WindowList.json_eq]
  refine reads_record (by decide) ?_
  refine .needed w.active.reads ?_
  refine .needed w.inactive.reads ?_
  exact .of w.alignment.reads (.done w)

theorem SideConfig.json_eq (s : SideConfig) :
    s.json = .object (written SideConfig.record.fields [some (.array (s.segments.map Segment.json)),
      s.style.map Style.json]) := by
  simp [SideConfig.json, SideConfig.record, written, Field.of, Json.member?]

theorem SideConfig.reads (s : SideConfig) : Reads SideConfig.decoder s.json s := by
  rw [SideConfig.json_eq]
  refine reads_record (by decide) ?_
  refine .of (reads_list fun x _ => x.reads) ?_
  exact .optional s.style (fun x _ => x.reads) Style.json_ne_null rfl (.done s)

theorem Arguments.reads {args : Keyed Arguments} (h : (Arguments.json args).isOrdered = true) :
    Reads (keyed Arguments.decoder) (Arguments.json args) args := by
  obtain ⟨hsorted, hmembers⟩ := Json.isOrdered_object.mp h
  have hall := Json.haveOrdered_iff.mp hmembers
  refine reads_keyed .object ((Keyed.sorted_map Json.object).mp hsorted) ?_
  intro e he
  obtain ⟨hinner, hvalues⟩ := Json.isOrdered_object.mp (hall _ (List.mem_map_of_mem he))
  have hread := reads_keyed id hinner fun d hd =>
    reads_json (Json.haveOrdered_iff.mp hvalues d hd)
  simpa [Arguments.decoder] using hread

theorem Statusbar.json_eq (b : Statusbar) :
    b.json = .object (written Statusbar.record.fields [some b.left.json, some b.right.json,
      some b.windows.json, some b.separator.json, b.leftEnd.map SeparatorSet.json,
      b.rightEnd.map SeparatorSet.json, some (Arguments.json b.arguments),
      some (Json.ofInt b.leftLength.toNat), some (Json.ofInt b.rightLength.toNat), some b.bg.json,
      some b.fg.json, b.style.map Style.json, some (Json.ofInt b.interval.toNat),
      some (.bool b.visible)]) := by
  simp [Statusbar.json, Statusbar.record, written, Field.of, Field.needed, Json.member?]

theorem Statusbar.reads (b : Statusbar) (h : (Arguments.json b.arguments).isOrdered = true) :
    Reads Statusbar.record.decode b.json b := by
  rw [Statusbar.json_eq]
  refine reads_record (by decide) ?_
  refine .of b.left.reads ?_
  refine .of b.right.reads ?_
  refine .needed b.windows.reads ?_
  refine .of b.separator.reads ?_
  refine .optional b.leftEnd (fun x _ => x.reads) SeparatorSet.json_ne_null rfl ?_
  refine .optional b.rightEnd (fun x _ => x.reads) SeparatorSet.json_ne_null rfl ?_
  refine .of (Arguments.reads h) ?_
  refine .of (reads_word32 b.leftLength) ?_
  refine .of (reads_word32 b.rightLength) ?_
  refine .of b.bg.reads ?_
  refine .of b.fg.reads ?_
  refine .optional b.style (fun x _ => x.reads) Style.json_ne_null rfl ?_
  refine .of (reads_word32 b.interval) ?_
  exact .of (reads_boolean b.visible) (.done b)

theorem Options.json_eq (o : Options) :
    o.json = .object (written Options.record.fields [some (.bool o.renumberWindows),
      some (.bool o.renameWindows), some (.string o.renameFormat), some (.string o.border.name),
      some (.string o.borderLine.name), some (.string o.borderContent)]) := rfl

theorem Options.reads (o : Options) : Reads Options.record.decode o.json o := by
  rw [Options.json_eq]
  refine reads_record (by decide) ?_
  refine .of (reads_boolean o.renumberWindows) ?_
  refine .of (reads_boolean o.renameWindows) ?_
  refine .of (reads_text o.renameFormat) ?_
  refine .of o.border.reads ?_
  refine .of o.borderLine.reads ?_
  exact .of (reads_text o.borderContent) (.done o)

theorem Config.json_eq (c : Config) :
    c.json = .object (written Config.record.fields [some c.statusbar.json,
      some c.options.json]) := rfl

theorem Config.reads (c : Config)
    (h : (Arguments.json c.statusbar.arguments).isOrdered = true) :
    Reads Config.decoder c.json c := by
  rw [Config.json_eq]
  refine reads_record (by decide) ?_
  refine .needed (c.statusbar.reads h) ?_
  exact .of c.options.reads (.done c)

end StatusLine
