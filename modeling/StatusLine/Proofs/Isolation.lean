import StatusLine.Proofs.Format.Pen
import StatusLine.Proofs.Format.Scan
import StatusLine.Proofs.Line

/-!
Each segment is drawn in its own style and each separator in its own two colours: no colour and no
attribute is carried from one piece of the line into another.
-/

namespace StatusLine

open Host (Item Pen ScansAs ReadAs scan unescaped)

def Segment.pen (s : Segment) : Pen where
  fg := s.fg
  bg := s.bg
  on a := s.style.any fun style => style.attrs.contains a && !style.unset.contains a

def Segment.strokes (s : Segment) (body : String) : List (Char × Pen) :=
  (unescaped (padded body).toList).map (·, s.pen)

/-- Nothing in what a segment shows begins a style token. -/
def Segment.Unstyled (s : Segment) (registry : Registry) (args : Keyed Arguments) : Prop :=
  ∀ body, s.body? registry args = some body → ¬ "#[".toList <:+: body.toList

def Expr.strokes : Expr → List (Char × Pen)
  | .concat [.color fg bg, .text glyph] => glyph.toList.map (·, ⟨fg, bg, fun _ => false⟩)
  | _ => []

namespace Statusbar

variable (b : Statusbar) (registry : Registry)

def strokes (s : Segment) : List (Char × Pen) :=
  ((s.body? registry b.arguments).map s.strokes).getD []

def sideStrokes (side : Side) (active : Bool) : List (Char × Pen) :=
  let row := (b.shown registry side).map Shown.segment
  let separator s next :=
    (Layout.separator s next b.separator (b.endSeparator side) (Layout.direction side)).strokes
  match side with
  | .left => (row.mapIdx fun i s =>
      b.strokes registry s ++ separator s (row[i + 1]?.or (b.boundary side active))).flatten
  | .right => (row.mapIdx fun i s =>
      separator s (if i = 0 then b.boundary side active else row[i - 1]?) ++
        b.strokes registry s).flatten

def windowStrokes (kind : WindowKind) (v : Predicate → Bool) : List (Char × Pen) :=
  let s := b.windows.segment kind
  let separator side edge beside :=
    (Layout.separator s (Layout.faced b.windows kind (v edge) (v beside)) b.separator
      (b.endSeparator side) (Layout.direction side)).strokes
  match b.windows.alignment with
  | .left => b.strokes registry s ++ separator .left .isLast .beforeActive
  | .right => separator .right .isFirst .afterActive ++ b.strokes registry s
  | _ => b.strokes registry s ++
      if kind = .active ∧ v .isLast = false then (Layout.mark s.fg s.bg " ").strokes else []

end Statusbar

namespace Host

/-- Any bare pen draws the items with these strokes, and is bare behind them. -/
def Draws (items : List Item) (strokes : List (Char × Pen)) : Prop :=
  ∀ p : Pen, p.IsBare → p.strokes items = strokes ∧ (p.after items).IsBare

def colorItem (fg bg : Color) : Item :=
  .style (",".intercalate (Expr.colorWords (some fg) (some bg))).toList

namespace Draws

theorem nil : Draws [] [] := fun _ h => ⟨rfl, h⟩

theorem append {xs ys : List Item} {a b : List (Char × Pen)} (ha : Draws xs a) (hb : Draws ys b) :
    Draws (xs ++ ys) (a ++ b) := by
  intro p hp
  obtain ⟨hxs, hbare⟩ := ha p hp
  obtain ⟨hys, hend⟩ := hb (p.after xs) hbare
  rw [Pen.strokes_append, Pen.after_append, hxs, hys]
  exact ⟨rfl, hend⟩

theorem reset : Draws [.style "default".toList] [] := fun _ _ => ⟨rfl, fun _ => rfl⟩

theorem colored {fg bg : Color} {items : List Item} {strokes : List (Char × Pen)}
    (h : (Pen.mk fg bg fun _ => false).strokes items = strokes ∧
      ((Pen.mk fg bg fun _ => false).after items).IsBare) :
    Draws (colorItem fg bg :: items) strokes := by
  intro p hp
  have hpen : p.style (",".intercalate (Expr.colorWords (some fg) (some bg))).toList =
      ⟨fg, bg, fun _ => false⟩ := by
    rw [Pen.style_colors, funext hp]
  simpa only [colorItem, Pen.strokes, Pen.after, hpen] using h

theorem mark (fg bg : Color) (glyph : String) :
    Draws (colorItem fg bg :: glyph.toList.map .char) (Layout.mark fg bg glyph).strokes :=
  colored ⟨Pen.strokes_chars _ _, by rw [Pen.after_chars]; exact fun _ => rfl⟩

theorem colors (fg bg : Color) : Draws [colorItem fg bg] [] := colored ⟨rfl, fun _ => rfl⟩

end Draws

end Host

namespace Segment

variable (s : Segment)

def contentItems (body : String) : List Item :=
  let items := (unescaped (padded body).toList).map .char
  if s.attrText.isEmpty then items
  else .style s.attrText.toList :: (items ++ [.style "default".toList])

theorem isQuiet_attrText : Host.isQuiet s.attrText.toList = true := by
  cases hstyle : s.style with
  | none => simp [attrText, hstyle, Host.isQuiet]
  | some style =>
      have htext : s.attrText = style.attrText := by simp [attrText, hstyle]
      rw [htext]
      exact Host.isQuiet_joined (Host.isQuiet_attrWords style)

theorem scansAs_padded {body : String} (h : ¬ "#[".toList <:+: body.toList) :
    ScansAs (padded body).toList ((unescaped (padded body).toList).map .char) := by
  have heq : (padded body).toList = ' ' :: (body.toList ++ [' ']) := by simp [padded]
  rw [heq]
  refine Host.scansAs_unescaped ?_ ?_
  · rw [List.infix_cons_iff, List.infix_concat_iff]
    rintro (hstart | hsuffix | hinfix)
    · simp at hstart
    · have hlast := hsuffix.getLast (by simp)
      simp at hlast
    · exact h hinfix
  · rw [← List.cons_append, List.getLast?_concat]
    decide

theorem scansAs_attributed {body : String} (h : ¬ "#[".toList <:+: body.toList) :
    ScansAs (attributed s.attrText (padded body)).toList (s.contentItems body) := by
  have hbody := scansAs_padded h
  unfold attributed contentItems
  split
  · exact hbody
  · rename_i hattrs
    have hreset : ScansAs "#[default]".toList [.style "default".toList] :=
      ScansAs.token false (show Host.isQuiet "default".toList = true by decide)
    simp only [Expr.render, String.toList_ofList, Expr.write_concat, Expr.writeAll,
      Expr.write_attrs, hattrs, Expr.write_reset, List.append_nil]
    exact .append (.token false s.isQuiet_attrText) (.append hbody hreset)

theorem style_attrText {p : Pen} (hp : p.IsBare) :
    p.style s.attrText.toList = { p with on := s.pen.on } := by
  cases hstyle : s.style with
  | none =>
      have hempty : s.attrText = "" := by simp [attrText, hstyle]
      have hon : s.pen.on = p.on := by
        funext a
        simp [pen, hstyle, hp a]
      rw [hempty, hon]
      rfl
  | some style =>
      have htext : s.attrText = style.attrText := by simp [attrText, hstyle]
      rw [htext, Pen.style_attrText]
      simp [pen, hstyle, hp _]

theorem draws_content (body : String) :
    Host.Draws (Host.colorItem s.fg s.bg :: s.contentItems body) (s.strokes body) := by
  refine .colored ?_
  have hpen : (Pen.mk s.fg s.bg fun _ => false).style s.attrText.toList = s.pen :=
    s.style_attrText fun _ => rfl
  unfold contentItems
  split
  · rename_i hempty
    -- The empty text is an attribute token that changes nothing.
    have hsame : Pen.mk s.fg s.bg (fun _ => false) = s.pen := by
      rw [← hpen, String.isEmpty_iff.mp hempty]
      rfl
    rw [Pen.strokes_chars, Pen.after_chars]
    exact ⟨by rw [hsame]; rfl, fun _ => rfl⟩
  · simp only [Pen.strokes, Pen.after, hpen, Pen.strokes_append, Pen.after_append,
      Pen.strokes_chars, Pen.after_chars, Pen.style_default, List.append_nil]
    exact ⟨rfl, fun _ => rfl⟩

end Segment

namespace Layout

theorem separator_eq_mark (s : Segment) (next : Option Segment) (set last : SeparatorSet)
    (d : Direction) : ∃ fg bg glyph, separator s next set last d = mark fg bg glyph := by
  unfold separator
  split
  · exact ⟨_, _, _, rfl⟩
  · split
    · exact ⟨_, _, _, rfl⟩
    · split <;> exact ⟨_, _, _, rfl⟩

end Layout

namespace Host

/-- A text is drawn with these strokes by any bare pen, which is bare behind it. -/
def Paints (cs : List Char) (strokes : List (Char × Pen)) : Prop :=
  ∃ items, ScansAs cs items ∧ Draws items strokes

namespace Paints

theorem nil : Paints [] [] := ⟨[], .nil, .nil⟩

theorem append {a b : List Char} {x y : List (Char × Pen)} (ha : Paints a x) (hb : Paints b y) :
    Paints (a ++ b) (x ++ y) := by
  obtain ⟨xs, hxs, hx⟩ := ha
  obtain ⟨ys, hys, hy⟩ := hb
  exact ⟨xs ++ ys, hxs.append hys, hx.append hy⟩

theorem scansAs_colors (fg bg : Color) :
    ScansAs ((Expr.colors fg bg).write false) [colorItem fg bg] :=
  .token false (isQuiet_joined (isQuiet_colorWords _ _))

theorem separator (s : Segment) (next : Option Segment) (set last : SeparatorSet) (d : Direction) :
    Paints ((Layout.separator s next set last d).write false)
      (Layout.separator s next set last d).strokes := by
  obtain ⟨fg, bg, glyph, heq⟩ := Layout.separator_eq_mark s next set last d
  rw [heq]
  refine ⟨_, ?_, .mark fg bg glyph⟩
  rw [Layout.mark, Expr.write_concat, Expr.writeAll, Expr.writeAll, Expr.writeAll,
    Expr.write_text, List.append_nil]
  exact (scansAs_colors fg bg).append (.escape false glyph.toList)

theorem body (s : Segment) {body : String} (h : ¬ "#[".toList <:+: body.toList) :
    Paints (Expr.writeAll false (Layout.body s (attributed s.attrText (padded body))))
      (s.strokes body) := by
  refine ⟨_, ?_, s.draws_content body⟩
  rw [Layout.body, Expr.writeAll, Expr.writeAll, Expr.writeAll, Expr.write_literal,
    List.append_nil]
  exact (scansAs_colors s.fg s.bg).append (s.scansAs_attributed h)

theorem flatten {α : Type} {f : Nat → α → List Expr} {g : Nat → α → List (Char × Pen)}
    {xs : List α} (h : ∀ i, ∀ x ∈ xs, Paints (Expr.writeAll false (f i x)) (g i x)) :
    Paints (Expr.writeAll false (xs.mapIdx f).flatten) (xs.mapIdx g).flatten := by
  induction xs generalizing f g with
  | nil => exact nil
  | cons x xs ih =>
      have hrest := ih fun i y hy => h (i + 1) y (List.mem_cons_of_mem x hy)
      simp only [List.mapIdx_cons, List.flatten_cons, Expr.writeAll_append]
      exact (h 0 x List.mem_cons_self).append hrest

end Paints

end Host

namespace Statusbar

open Layout

variable (b : Statusbar) (registry : Registry)

def segments : List Segment :=
  b.left.segments ++ [b.windows.active, b.windows.inactive] ++ b.right.segments

theorem mem_shown {side : Side} {x : Shown} (h : x ∈ b.shown registry side) :
    x.segment ∈ (b.side side).segments ∧ ∃ body, x.segment.body? registry b.arguments = some body ∧
      x.content = attributed x.segment.attrText (padded body) := by
  simp only [shown, List.mem_filterMap] at h
  obtain ⟨s, hs, hx⟩ := h
  split at hx
  · cases hx
  · rename_i hne
    cases hx
    refine ⟨hs, ?_⟩
    cases hbody : s.body? registry b.arguments with
    | none => simp [resolve, Segment.resolve, hbody] at hne
    | some body => exact ⟨body, rfl, by simp [resolve, Segment.resolve, hbody]⟩

theorem paints_shown {side : Side} (h : ∀ s ∈ (b.side side).segments,
    s.Unstyled registry b.arguments) {x : Shown} (hx : x ∈ b.shown registry side) :
    Host.Paints (Expr.writeAll false (Shown.stretch x).body) (b.strokes registry x.segment) := by
  obtain ⟨hmem, body, hbody, hcontent⟩ := b.mem_shown registry hx
  have hpaints := Host.Paints.body x.segment (h x.segment hmem body hbody)
  simpa only [Shown.stretch, strokes, hcontent, hbody, Option.map_some, Option.getD_some]
    using hpaints

theorem paints_side {side : Side} (active : Bool)
    (h : ∀ s ∈ (b.side side).segments, s.Unstyled registry b.arguments) :
    Host.Paints (b.sideText registry side active).toList
      (b.sideStrokes registry side active) := by
  have hrow : (b.shown registry side).map Shown.segment =
      ((b.shown registry side).map Shown.stretch).map Stretch.segment := by
    simp [Function.comp_def, Shown.stretch]
  have hpiece : ∀ x ∈ (b.shown registry side).map Shown.stretch,
      Host.Paints (Expr.writeAll false x.body) (b.strokes registry x.segment) := by
    simp only [List.forall_mem_map]
    exact fun x hx => b.paints_shown registry h hx
  have htext : (b.sideText registry side active).toList = Expr.writeAll false
      (sideParts side (b.shown registry side) (b.boundary side active) b.separator
        (b.endSeparator side)) := String.toList_ofList
  rw [htext]
  cases side with
  | left =>
      simp only [sideParts, sideStrokes, leftParts_eq_flatten, hrow, Stretch.mapIdx_map_segment,
        List.getElem?_map]
      refine .flatten fun i x hx => ?_
      rw [Expr.writeAll_append, Expr.writeAll, Expr.writeAll, List.append_nil]
      exact (hpiece x hx).append (.separator _ _ _ _ _)
  | right =>
      simp only [sideParts, sideStrokes, rightParts_eq_flatten, hrow, Stretch.mapIdx_map_segment,
        List.getElem?_map]
      refine .flatten fun i x hx => ?_
      rw [Expr.writeAll]
      exact .append (.separator _ _ _ _ _) (hpiece x hx)

end Statusbar

namespace Expr

mutual

theorem drawn_pick (v : Predicate → Bool) : ∀ e : Expr, (e.pick v).drawn v = e.drawn v
  | .literal _ => rfl
  | .text _ => rfl
  | .color _ _ => rfl
  | .attrs _ => rfl
  | .reset => rfl
  | .cond test yes no => by
      rw [pick, drawn]
      split
      · exact drawn_pick v yes
      · exact drawn_pick v no
  | .concat parts => by
      rw [pick, drawn, drawn]
      exact drawnAll_pickAll v parts

theorem drawnAll_pickAll (v : Predicate → Bool) :
    ∀ es : List Expr, drawnAll v (pickAll v es) = drawnAll v es
  | [] => rfl
  | e :: rest => by rw [pickAll, drawnAll, drawnAll, drawn_pick v e, drawnAll_pickAll v rest]

end

theorem drawn_colors (v : Predicate → Bool) (fg bg : Color) :
    (colors fg bg).drawn v = [Host.colorItem fg bg] := rfl

end Expr

namespace Host.Draws

theorem separator (v : Predicate → Bool) (s : Segment) (next : Option Segment)
    (set last : SeparatorSet) (d : Direction) :
    Draws ((Layout.separator s next set last d).drawn v)
      (Layout.separator s next set last d).strokes := by
  obtain ⟨fg, bg, glyph, heq⟩ := Layout.separator_eq_mark s next set last d
  have hdrawn : (Layout.mark fg bg glyph).drawn v = colorItem fg bg :: glyph.toList.map .char := by
    simp [Layout.mark, Expr.drawn, Expr.drawnAll, Expr.drawn_colors]
  rw [heq, hdrawn]
  exact mark fg bg glyph

theorem windowSeparator (w : WindowList) (kind : WindowKind) (set last : SeparatorSet)
    (side : Side) (edge beside : Predicate) (v : Predicate → Bool) :
    Draws ((Layout.windowSeparator w kind set last side edge beside).drawn v)
      (Layout.separator (w.segment kind) (Layout.faced w kind (v edge) (v beside)) set last
        (Layout.direction side)).strokes := by
  rw [← Expr.drawn_pick, Layout.pick_windowSeparator]
  exact separator v _ _ _ _ _

theorem spacer (w : WindowList) (kind : WindowKind) (v : Predicate → Bool) :
    Draws (Expr.drawnAll v (.reset :: Layout.spacer w kind))
      (if kind = .active ∧ v .isLast = false then
        (Layout.mark (w.segment kind).fg (w.segment kind).bg " ").strokes else []) := by
  cases kind with
  | inactive => exact reset
  | active =>
      cases hlast : v .isLast with
      | true =>
          simpa [Layout.spacer, Expr.drawnAll, Expr.drawn, Expr.empty, hlast] using reset
      | false =>
          have hspace := reset.append (mark w.active.fg w.active.bg " ")
          simpa [Layout.spacer, Expr.drawnAll, Expr.drawn, Expr.drawn_colors, hlast,
            WindowList.segment] using hspace

end Host.Draws

namespace Layout

theorem isPlain_separator (s : Segment) (next : Option Segment) (set last : SeparatorSet)
    (d : Direction) : (separator s next set last d).IsPlain := by
  obtain ⟨fg, bg, glyph, heq⟩ := separator_eq_mark s next set last d
  rw [heq]
  exact ⟨trivial, trivial, trivial⟩

theorem isPlain_windowSeparator (w : WindowList) (kind : WindowKind) (set last : SeparatorSet)
    (side : Side) (edge beside : Predicate) :
    (windowSeparator w kind set last side edge beside).IsPlain := by
  cases kind with
  | active => exact ⟨isPlain_separator _ _ _ _ _, isPlain_separator _ _ _ _ _⟩
  | inactive => exact ⟨isPlain_separator _ _ _ _ _, isPlain_separator _ _ _ _ _,
      isPlain_separator _ _ _ _ _⟩

def around (b : Statusbar) (kind : WindowKind) : List Expr × List Expr :=
  let s := b.windows.segment kind
  match b.windows.alignment with
  | .left => ([.colors s.fg s.bg], [.colors s.bg .default,
      windowSeparator b.windows kind b.separator (b.endSeparator .left) .left .isLast
        .beforeActive])
  | .right => ([windowSeparator b.windows kind b.separator (b.endSeparator .right) .right .isFirst
      .afterActive, .colors s.fg s.bg], [])
  | _ => ([.colors s.fg s.bg], .reset :: spacer b.windows kind)

theorem write_windowExpr (b : Statusbar) (kind : WindowKind) (content : String) :
    (windowExpr b kind content).write false =
      Expr.writeAll false (around b kind).1 ++ content.toList ++
        Expr.writeAll false (around b kind).2 := by
  cases halign : b.windows.alignment <;>
    simp [windowExpr, around, halign, Expr.write_concat, Expr.writeAll, body, Expr.write_literal]

theorem allPlain_around (b : Statusbar) (kind : WindowKind) :
    Expr.AllPlain (around b kind).1 ∧ Expr.AllPlain (around b kind).2 := by
  unfold around
  simp only
  split
  · exact ⟨⟨trivial, trivial⟩, trivial, isPlain_windowSeparator _ _ _ _ _ _ _, trivial⟩
  · exact ⟨⟨isPlain_windowSeparator _ _ _ _ _ _ _, trivial, trivial⟩, trivial⟩
  · refine ⟨⟨trivial, trivial⟩, trivial, ?_⟩
    cases kind with
    | active => exact ⟨⟨trivial, trivial, trivial, trivial⟩, trivial⟩
    | inactive => trivial

end Layout

namespace Statusbar

open Layout

variable (b : Statusbar) (registry : Registry)

theorem draws_content {s : Segment} (h : s.Unstyled registry b.arguments) :
    Host.Draws (Host.colorItem s.fg s.bg :: scan (b.resolve registry s).toList)
      (b.strokes registry s) := by
  cases hbody : s.body? registry b.arguments with
  | none =>
      have hempty : scan "".toList = [] := Host.scan_nil
      simp only [resolve, Segment.resolve, strokes, hbody, hempty]
      exact .colors s.fg s.bg
  | some body =>
      simp only [resolve, Segment.resolve, strokes, hbody,
        (s.scansAs_attributed (h body hbody)).all]
      exact s.draws_content body

theorem draws_window {kind : WindowKind} (v : Predicate → Bool)
    (h : (b.windows.segment kind).Unstyled registry b.arguments) :
    Host.Draws (Expr.drawnAll v (around b kind).1 ++
      scan (b.resolve registry (b.windows.segment kind)).toList ++
        Expr.drawnAll v (around b kind).2) (b.windowStrokes registry kind v) := by
  have hcontent := b.draws_content registry h
  cases halign : b.windows.alignment with
  | left =>
      have hrest := (Host.Draws.colors (b.windows.segment kind).bg .default).append
        (.windowSeparator b.windows kind b.separator (b.endSeparator .left) .left .isLast
          .beforeActive v)
      simpa [around, windowStrokes, halign, Expr.drawnAll, Expr.drawn_colors] using
        hcontent.append hrest
  | right =>
      have hstart := Host.Draws.windowSeparator b.windows kind b.separator (b.endSeparator .right)
        .right .isFirst .afterActive v
      simpa [around, windowStrokes, halign, Expr.drawnAll, Expr.drawn_colors] using
        hstart.append hcontent
  | center | absoluteCenter =>
      have hrest := Host.Draws.spacer b.windows kind v
      simpa [around, windowStrokes, halign, Expr.drawnAll, Expr.drawn_colors] using
        hcontent.append hrest

/-- A piece of the line is drawn the same way whatever bare pen comes to it, and leaves the pen
bare: content in the colours and attributes of its own segment, separators in their two colours and
without attributes. The content of a window is read by itself, between the rest of its format. -/
theorem pieces_isolated (h : ∀ s ∈ b.segments, s.Unstyled registry b.arguments) :
    ∀ p : Pen, p.IsBare →
      (∀ side active,
        let items := scan (b.sideText registry side active).toList
        p.strokes items = b.sideStrokes registry side active ∧ (p.after items).IsBare) ∧
      (∀ kind v, ∃ start rest xs ys,
        let content := (b.resolve registry (b.windows.segment kind)).toList
        let items := xs ++ scan content ++ ys
        (b.windowText registry kind).toList = start ++ content ++ rest ∧
        ReadAs v start xs ∧ ReadAs v rest ys ∧
        p.strokes items = b.windowStrokes registry kind v ∧ (p.after items).IsBare) := by
  intro p hp
  constructor
  · intro side active items
    have hside : ∀ s ∈ (b.side side).segments, s.Unstyled registry b.arguments := by
      intro s hs
      refine h s ?_
      cases side <;> simp only [segments, List.mem_append] <;> simp_all [Statusbar.side]
    obtain ⟨xs, hscan, hdraws⟩ := b.paints_side registry active hside
    have hitems : items = xs := hscan.all
    rw [hitems]
    exact hdraws p hp
  · intro kind v
    have hwindow : (b.windows.segment kind).Unstyled registry b.arguments := by
      refine h _ ?_
      cases kind <;> simp [segments, WindowList.segment]
    obtain ⟨hstart, hrest⟩ := allPlain_around b kind
    refine ⟨_, _, _, _, ?_, Host.readAs_writeAll v false hstart, Host.readAs_writeAll v false hrest,
      b.draws_window registry v hwindow p hp⟩
    rw [windowText, Expr.render, String.toList_ofList, write_windowExpr]

theorem pieces_isolated_of_bold :
    let bold := (Segment.literal "a##").withStyle ⟨some (.named .red), none, [.bold, .dim], [.dim]⟩
    let plain := (Segment.literal "w").withBg (.named .blue)
    let b := Statusbar.new [bold] [] (.new plain plain)
    let pen : Pen := ⟨some (.named .red), some .default, (· == .bold)⟩
    (∀ s ∈ b.segments, s.Unstyled [] b.arguments) ∧ Pen.cleared.IsBare ∧
      Pen.cleared.strokes (scan (b.sideText [] .left true).toList) =
        [(' ', pen), ('a', pen), ('#', pen), (' ', pen),
          ('\ue0b0', ⟨some .default, some (.named .blue), fun _ => false⟩)] := by
  intro bold plain b pen
  have hunstyled : ∀ s ∈ b.segments, s.Unstyled [] b.arguments := by
    have hbold : bold.Unstyled [] b.arguments := by
      rintro _ ⟨⟩
      decide
    have hplain : plain.Unstyled [] b.arguments := by
      rintro _ ⟨⟩
      decide
    simp only [b, segments, Statusbar.new, WindowList.new, List.append_nil, List.forall_mem_append,
      List.forall_mem_cons]
    exact ⟨⟨hbold, fun _ hs => absurd hs List.not_mem_nil⟩, hplain, hplain,
      fun _ hs => absurd hs List.not_mem_nil⟩
  have hbare : Pen.cleared.IsBare := fun _ => rfl
  have hpen : bold.pen = pen := by
    have hon : bold.pen.on = pen.on := by
      funext a
      cases a <;> rfl
    exact congrArg (Pen.mk _ _) hon
  have hside := (b.pieces_isolated [] hunstyled Pen.cleared hbare).1 .left true
  refine ⟨hunstyled, hbare, hside.1.trans ?_⟩
  rw [← hpen]
  simp only [b, plain, bold]
  rfl

end Statusbar

end StatusLine
