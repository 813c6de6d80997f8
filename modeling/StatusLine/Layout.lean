import StatusLine.Content

/-!
Layout: segments side by side with a separator at every seam. A side knows its neighbours when it is
laid out. A window does not: the host expands one format for every window, so the neighbour is
chosen when the host draws, by the window's place in the list.
-/

namespace StatusLine

/-- A segment with its content, which is not empty. -/
structure Shown where
  segment : Segment
  content : String
deriving DecidableEq, Repr

namespace Layout

def mark (fg bg : Color) (glyph : String) : Expr := .concat [.colors fg bg, .text glyph]

def background (next : Option Segment) : Color := (next.map Segment.bg).getD .default

/-- The separator drawn after a segment toward the next one. A separator of the segment's own comes
first; at the end of the line stands the thick glyph of the end set; between equal backgrounds a
thin glyph in the segment's own colours, and else a thick one from background to background. -/
def separator (s : Segment) (next : Option Segment) (set last : SeparatorSet) (d : Direction) :
    Expr :=
  match s.separator with
  | some glyph => mark s.bg (background next) glyph
  | none =>
      match next with
      | none => mark s.bg .default (last.thick d)
      | some n =>
          if s.bg.same n.bg then mark s.fg s.bg (set.thin d) else mark s.bg n.bg (set.thick d)

/-- Glyphs point toward the window list. -/
def direction : Side → Direction
  | .left => .right
  | .right => .left

def body (s : Segment) (content : String) : List Expr := [.colors s.fg s.bg, .literal content]

def following (after : Option Segment) : List Shown → Option Segment
  | [] => after
  | x :: _ => some x.segment

def leftParts (after : Option Segment) (set last : SeparatorSet) : List Shown → List Expr
  | [] => []
  | x :: rest =>
      body x.segment x.content ++
        separator x.segment (following after rest) set last (direction .left) ::
          leftParts after set last rest

def rightParts (before : Option Segment) (set last : SeparatorSet) : List Shown → List Expr
  | [] => []
  | x :: rest =>
      separator x.segment before set last (direction .right) ::
        (body x.segment x.content ++ rightParts (some x.segment) set last rest)

/-- The parts of a side in the order of the screen. `boundary` is the window next to the side. -/
def sideParts (side : Side) (xs : List Shown) (boundary : Option Segment)
    (set last : SeparatorSet) : List Expr :=
  match side with
  | .left => leftParts boundary set last xs
  | .right => rightParts boundary set last xs

def sideExpr (side : Side) (xs : List Shown) (boundary : Option Segment)
    (set last : SeparatorSet) : Expr :=
  .concat (sideParts side xs boundary set last)

/-- The separator of a window in a list that stands against a side: `edge` holds at the window
farthest from the side, and `beside` at the one whose next window on that way is the active one. -/
def windowSeparator (w : WindowList) (kind : WindowKind) (set last : SeparatorSet)
    (side : Side) (edge beside : Predicate) : Expr :=
  let toward s next := separator s next set last (direction side)
  match kind with
  | .active =>
      .cond edge (toward w.active none) (toward w.active (some w.inactive))
  | .inactive =>
      .cond edge (toward w.inactive none)
        (.cond beside (toward w.inactive (some w.active)) (toward w.inactive (some w.inactive)))

/-- In a list that touches no side the active window is followed by a space of its own colours,
unless it is the last. -/
def spacer (w : WindowList) : WindowKind → List Expr
  | .active =>
      [.cond .isLast .empty (.concat [.colors w.active.fg w.active.bg, .text " "])]
  | .inactive => []

def windowExpr (b : Statusbar) (kind : WindowKind) (content : String) : Expr :=
  let s := b.windows.segment kind
  let inner := Expr.concat (body s content)
  match b.windows.alignment with
  | .left =>
      .concat [inner, .colors s.bg .default,
        windowSeparator b.windows kind b.separator (b.endSeparator .left) .left
          .isLast .beforeActive]
  | .right =>
      .concat [
        windowSeparator b.windows kind b.separator (b.endSeparator .right) .right
          .isFirst .afterActive,
        inner]
  | _ => .concat (inner :: .reset :: spacer b.windows kind)

end Layout

namespace Statusbar

def resolve (b : Statusbar) (registry : Registry) (s : Segment) : String :=
  s.resolve registry b.arguments

def shown (b : Statusbar) (registry : Registry) (side : Side) : List Shown :=
  (b.side side).segments.filterMap fun s =>
    let content := b.resolve registry s
    if content.isEmpty then none else some ⟨s, content⟩

def boundary (b : Statusbar) (side : Side) (active : Bool) : Option Segment :=
  if b.windows.alignment.adjoins side then
    some (b.windows.segment (if active then .active else .inactive))
  else none

/-- The format string of a side; `active` says whether the window next to it is the active one. -/
def sideText (b : Statusbar) (registry : Registry) (side : Side) (active : Bool) : String :=
  (Layout.sideExpr side (b.shown registry side) (b.boundary side active) b.separator
    (b.endSeparator side)).render

def windowText (b : Statusbar) (registry : Registry) (kind : WindowKind) : String :=
  (Layout.windowExpr b kind (b.resolve registry (b.windows.segment kind))).render

end Statusbar

end StatusLine
