import Mathlib.Data.List.Forall2
import StatusLine.Host.Command
import StatusLine.Proofs.Dependence
import StatusLine.Proofs.Style

/-!
Where a color is set: a segment is drawn the same whether its style or the segment itself has the
color, in every place and next to every neighbour.
-/

namespace StatusLine

structure Segment.Alike (s t : Segment) : Prop where
  content : s.content = t.content
  attrText : s.attrText = t.attrText
  bg : s.bg = t.bg
  fg : s.fg = t.fg
  separator : s.separator = t.separator

theorem Segment.Alike.refl (s : Segment) : s.Alike s := ⟨rfl, rfl, rfl, rfl, rfl⟩

theorem Segment.Alike.resolve {s t : Segment} (h : s.Alike t) (registry : Registry)
    (args : Keyed Arguments) : s.resolve registry args = t.resolve registry args := by
  have hbody : s.body? registry args = t.body? registry args := by
    simp only [body?, h.content]
  rw [Segment.resolve, Segment.resolve, hbody, h.attrText]

structure Shown.Alike (x y : Shown) : Prop where
  segment : x.segment.Alike y.segment
  content : x.content = y.content

namespace Layout

variable {s t : Segment} {xs ys : List Shown} (set last : SeparatorSet)

theorem separator_alike (h : s.Alike t) (next : Option Segment) (d : Direction) :
    separator s next set last d = separator t next set last d := by
  simp only [separator, h.separator, h.bg, h.fg]

theorem body_alike (h : s.Alike t) (content : String) : body s content = body t content := by
  simp only [body, h.bg, h.fg]

theorem following_alike (after : Option Segment) (h : List.Forall₂ Shown.Alike xs ys) :
    (following after xs).map Segment.bg = (following after ys).map Segment.bg := by
  cases h with
  | nil => rfl
  | cons hx _ => exact congrArg some hx.segment.bg

theorem leftParts_alike (after : Option Segment) (h : List.Forall₂ Shown.Alike xs ys) :
    leftParts after set last xs = leftParts after set last ys := by
  induction h with
  | nil => rfl
  | cons hx hrest ih =>
      have hnext := following_alike after hrest
      rw [leftParts, leftParts, ih, hx.content, body_alike hx.segment,
        separator_alike set last hx.segment, separator_congr _ set last _ hnext]

theorem rightParts_alike (before : Option Segment) (h : List.Forall₂ Shown.Alike xs ys) :
    rightParts before set last xs = rightParts before set last ys := by
  induction h generalizing before with
  | nil => rfl
  | @cons x y _ _ hx _ ih =>
      have hbefore : (some x.segment).map Segment.bg = (some y.segment).map Segment.bg :=
        congrArg some hx.segment.bg
      rw [rightParts, rightParts, ih, rightParts_congr set last _ hbefore, hx.content,
        body_alike hx.segment, separator_alike set last hx.segment]

theorem sideExpr_alike (side : Side) (boundary : Option Segment)
    (h : List.Forall₂ Shown.Alike xs ys) :
    sideExpr side xs boundary set last = sideExpr side ys boundary set last := by
  cases side with
  | left => exact congrArg Expr.concat (leftParts_alike set last boundary h)
  | right => exact congrArg Expr.concat (rightParts_alike set last boundary h)

end Layout

structure Statusbar.Alike (b c : Statusbar) : Prop where
  segments : ∀ side, List.Forall₂ Segment.Alike (b.side side).segments (c.side side).segments
  window : ∀ kind, (b.windows.segment kind).Alike (c.windows.segment kind)
  alignment : b.windows.alignment = c.windows.alignment
  arguments : b.arguments = c.arguments
  separator : b.separator = c.separator
  last : ∀ side, b.endSeparator side = c.endSeparator side

namespace Statusbar.Alike

variable {b c : Statusbar} (h : b.Alike c)

include h

theorem resolve (registry : Registry) {s t : Segment} (hs : s.Alike t) :
    b.resolve registry s = c.resolve registry t := by
  rw [Statusbar.resolve, Statusbar.resolve, h.arguments, hs.resolve]

theorem shown (registry : Registry) (side : Side) :
    List.Forall₂ Shown.Alike (b.shown registry side) (c.shown registry side) := by
  refine List.rel_filterMap (fun s t hs => ?_) (h.segments side)
  dsimp only
  rw [h.resolve registry hs]
  split
  · exact .none
  · exact .some ⟨hs, rfl⟩

theorem boundary (side : Side) (active : Bool) :
    (b.boundary side active).map Segment.bg = (c.boundary side active).map Segment.bg := by
  unfold Statusbar.boundary
  rw [h.alignment]
  split
  · exact congrArg some (h.window _).bg
  · rfl

theorem sideText (registry : Registry) (side : Side) (active : Bool) :
    b.sideText registry side active = c.sideText registry side active := by
  rw [Statusbar.sideText, Statusbar.sideText, h.separator, h.last,
    Layout.sideExpr_alike _ _ side _ (h.shown registry side),
    Layout.sideExpr_congr side _ _ _ (h.boundary side active)]

theorem windowSeparator (kind : WindowKind) (set last : SeparatorSet) (side : Side)
    (edge beside : Predicate) :
    Layout.windowSeparator b.windows kind set last side edge beside =
      Layout.windowSeparator c.windows kind set last side edge beside := by
  have htoward (k : WindowKind) (next : Option WindowKind) :
      Layout.separator (b.windows.segment k) (next.map b.windows.segment) set last
          (Layout.direction side) =
        Layout.separator (c.windows.segment k) (next.map c.windows.segment) set last
          (Layout.direction side) := by
    rw [Layout.separator_alike set last (h.window k)]
    refine Layout.separator_congr _ set last _ ?_
    cases next with
    | none => rfl
    | some other => exact congrArg some (h.window other).bg
  cases kind with
  | active =>
      exact congrArg₂ (Expr.cond edge) (htoward .active none) (htoward .active (some .inactive))
  | inactive =>
      exact congrArg₂ (Expr.cond edge) (htoward .inactive none)
        (congrArg₂ (Expr.cond beside) (htoward .inactive (some .active))
          (htoward .inactive (some .inactive)))

theorem spacer (kind : WindowKind) :
    Layout.spacer b.windows kind = Layout.spacer c.windows kind := by
  cases kind with
  | active =>
      have hfg : b.windows.active.fg = c.windows.active.fg := (h.window .active).fg
      have hbg : b.windows.active.bg = c.windows.active.bg := (h.window .active).bg
      simp only [Layout.spacer, hfg, hbg]
  | inactive => rfl

theorem windowExpr (kind : WindowKind) (content : String) :
    Layout.windowExpr b kind content = Layout.windowExpr c kind content := by
  have hbody := Layout.body_alike (h.window kind) content
  have hbg := (h.window kind).bg
  simp only [Layout.windowExpr, h.alignment, hbody, hbg, h.separator, h.last, h.windowSeparator,
    h.spacer]

theorem windowText (registry : Registry) (kind : WindowKind) :
    b.windowText registry kind = c.windowText registry kind := by
  rw [Statusbar.windowText, Statusbar.windowText, h.resolve registry (h.window kind), h.windowExpr]

end Statusbar.Alike

/-- The colors in effect are the segment's own, and its style has attributes only. -/
def Segment.normal (s : Segment) : Segment :=
  { s with ownBg := s.bg, ownFg := s.fg, style := s.style.map Style.uncolored }

theorem Segment.alike_normal (s : Segment) : s.normal.Alike s := by
  obtain ⟨content, bg, fg, style, separator⟩ := s
  cases style with
  | none => exact .refl _
  | some style => exact ⟨rfl, rfl, rfl, rfl, rfl⟩

def Segment.normalIf (s : Segment) (chosen : Bool) : Segment := if chosen then s.normal else s

theorem Segment.alike_normalIf (s : Segment) (chosen : Bool) : (s.normalIf chosen).Alike s := by
  cases chosen with
  | false => exact .refl s
  | true => exact s.alike_normal

def SideConfig.normalAt (c : SideConfig) (chosen : Nat → Bool) : SideConfig :=
  { c with segments := c.segments.mapIdx fun i s => s.normalIf (chosen i) }

def WindowList.normalAt (w : WindowList) (chosen : WindowKind → Bool) : WindowList :=
  { w with
    active := w.active.normalIf (chosen .active)
    inactive := w.inactive.normalIf (chosen .inactive) }

def Statusbar.normalAt (b : Statusbar) (places : Side → Nat → Bool) (kinds : WindowKind → Bool) :
    Statusbar :=
  { b with
    left := b.left.normalAt (places .left)
    right := b.right.normalAt (places .right)
    windows := b.windows.normalAt kinds }

theorem SideConfig.alike_normalAt (c : SideConfig) (chosen : Nat → Bool) :
    List.Forall₂ Segment.Alike (c.normalAt chosen).segments c.segments := by
  unfold normalAt
  dsimp only
  generalize c.segments = segments
  induction segments generalizing chosen with
  | nil => exact .nil
  | cons s rest ih =>
      rw [List.mapIdx_cons]
      exact .cons (s.alike_normalIf (chosen 0)) (ih fun i => chosen (i + 1))

theorem Statusbar.alike_normalAt (b : Statusbar) (places : Side → Nat → Bool)
    (kinds : WindowKind → Bool) : (b.normalAt places kinds).Alike b where
  segments side := by
    cases side with
    | left => exact b.left.alike_normalAt (places .left)
    | right => exact b.right.alike_normalAt (places .right)
  window kind := by
    cases kind with
    | active => exact b.windows.active.alike_normalIf (kinds .active)
    | inactive => exact b.windows.inactive.alike_normalIf (kinds .inactive)
  alignment := rfl
  arguments := rfl
  separator := rfl
  last side := by cases side <;> rfl

/-- Whichever segments and windows have their colors moved from the style to the segment itself,
both sides and both windows are drawn the same, and the same commands hand the configuration on. -/
theorem Config.drawn_normalAt (c : Config) (registry : Registry) (places : Side → Nat → Bool)
    (kinds : WindowKind → Bool) :
    let d : Config := { c with statusbar := c.statusbar.normalAt places kinds }
    (∀ side active,
      d.statusbar.sideText registry side active = c.statusbar.sideText registry side active) ∧
    (∀ kind, d.statusbar.windowText registry kind = c.statusbar.windowText registry kind) ∧
    ∀ callback, Host.commands d callback = Host.commands c callback := by
  intro d
  have halike := c.statusbar.alike_normalAt places kinds
  exact ⟨halike.sideText registry, halike.windowText registry, fun _ => rfl⟩

end StatusLine
