import StatusLine.Proofs.Line
import StatusLine.Proofs.Slots

/-!
Sides cut and turned over: the two parts of a side are sides themselves, each the other's neighbour
at the cut, and the right side is the left side of the reversed segments seen in a mirror.
-/

namespace StatusLine

def SeparatorSet.mirrored (s : SeparatorSet) : SeparatorSet :=
  ⟨s.thickRight, s.thickLeft, s.thinRight, s.thinLeft⟩

theorem SeparatorSet.thick_mirrored (s : SeparatorSet) :
    s.mirrored.thick .right = s.thick .left := rfl

theorem SeparatorSet.thin_mirrored (s : SeparatorSet) :
    s.mirrored.thin .right = s.thin .left := rfl

namespace Layout

variable (set last : SeparatorSet)

def preceding (before : Option Segment) (xs : List Shown) : Option Segment :=
  (xs.getLast?.map Shown.segment).or before

theorem following_eq (after : Option Segment) (xs : List Shown) :
    following after xs = (xs.head?.map Shown.segment).or after := by
  cases xs <;> rfl

theorem following_append (after : Option Segment) (xs ys : List Shown) :
    following after (xs ++ ys) = following (following after ys) xs := by
  cases xs <;> rfl

theorem preceding_cons (before : Option Segment) (x : Shown) (xs : List Shown) :
    preceding before (x :: xs) = preceding (some x.segment) xs := by
  cases hlast : xs.getLast? <;> simp [preceding, List.getLast?_cons, hlast]

theorem leftSlots_append (after : Option Segment) (xs ys : List Shown) :
    leftSlots after set last (xs ++ ys) =
      leftSlots (following after ys) set last xs ++ leftSlots after set last ys := by
  induction xs with
  | nil => rfl
  | cons x rest ih =>
      rw [List.cons_append, leftSlots, leftSlots, ih, following_append, List.cons_append]

theorem rightSlots_append (before : Option Segment) (xs ys : List Shown) :
    rightSlots before set last (xs ++ ys) =
      rightSlots before set last xs ++ rightSlots (preceding before xs) set last ys := by
  induction xs generalizing before with
  | nil => rfl
  | cons x rest ih =>
      rw [List.cons_append, rightSlots, rightSlots, ih, preceding_cons, List.cons_append]

def facing (side : Side) (boundary : Option Segment) (xs ys : List Shown) : Option Segment :=
  match side with
  | .left => following boundary ys
  | .right => preceding boundary xs

def slotBetween (side : Side) (boundary : Option Segment) (xs : List Shown) (x : Shown)
    (ys : List Shown) : Slot :=
  ⟨x, separator x.segment (facing side boundary xs ys) set last (direction side)⟩

theorem sideSlots_cut (side : Side) (xs : List Shown) (x : Shown) (ys : List Shown)
    (boundary : Option Segment) :
    ∃ before after : List Slot,
      sideSlots side (xs ++ x :: ys) boundary set last =
        before ++ slotBetween set last side boundary xs x ys :: after ∧
      before.map Slot.toShown = xs ∧ after.map Slot.toShown = ys := by
  cases side with
  | left =>
      refine ⟨leftSlots (some x.segment) set last xs, leftSlots boundary set last ys, ?_,
        sideSlots_shown set last .left xs _, sideSlots_shown set last .left ys _⟩
      exact leftSlots_append set last boundary xs (x :: ys)
  | right =>
      refine ⟨rightSlots boundary set last xs, rightSlots (some x.segment) set last ys, ?_,
        sideSlots_shown set last .right xs _, sideSlots_shown set last .right ys _⟩
      exact rightSlots_append set last boundary xs (x :: ys)

theorem separator_some (s next : Segment) (set last other : SeparatorSet) (d : Direction) :
    separator s (some next) set last d = separator s (some next) set other d := by
  cases hown : s.separator <;> simp [separator, hown]

theorem leftSlots_some (s : Segment) (other : SeparatorSet) (xs : List Shown) :
    leftSlots (some s) set last xs = leftSlots (some s) set other xs := by
  induction xs with
  | nil => rfl
  | cons x rest ih =>
      -- Something stands behind every segment, so no separator is one at the end of the line.
      obtain ⟨next, hnext⟩ : ∃ next, following (some s) rest = some next := by
        cases rest with
        | nil => exact ⟨s, rfl⟩
        | cons y rest => exact ⟨y.segment, rfl⟩
      rw [leftSlots, leftSlots, ih, hnext, separator_some x.segment next set last other]

theorem rightSlots_some (s : Segment) (other : SeparatorSet) (xs : List Shown) :
    rightSlots (some s) set last xs = rightSlots (some s) set other xs := by
  induction xs generalizing s with
  | nil => rfl
  | cons x rest ih =>
      rw [rightSlots, rightSlots, ih, separator_some x.segment s set last other]

theorem sideSlots_some (side : Side) (s : Segment) (other : SeparatorSet) (xs : List Shown) :
    sideSlots side xs (some s) set last = sideSlots side xs (some s) set other := by
  cases side with
  | left => exact leftSlots_some set last s other xs
  | right => exact rightSlots_some set last s other xs

theorem parts_sideExpr (side : Side) (xs : List Shown) (boundary : Option Segment) :
    (sideExpr side xs boundary set last).parts =
      (sideSlots side xs boundary set last).flatMap (Slot.parts side) :=
  sideParts_eq_flatMap set last side xs boundary

theorem parts_sideExpr_some (side : Side) (s : Segment) (other : SeparatorSet) (xs : List Shown) :
    (sideExpr side xs (some s) set last).parts = (sideExpr side xs (some s) set other).parts := by
  rw [parts_sideExpr, parts_sideExpr, sideSlots_some set last side s other]

theorem parts_sideExpr_left (boundary : Option Segment) (xs ys : List Shown) :
    (sideExpr .left (xs ++ ys) boundary set last).parts =
      (sideExpr .left xs (following boundary ys) set last).parts ++
        (sideExpr .left ys boundary set last).parts := by
  simp only [parts_sideExpr, sideSlots, leftSlots_append, List.flatMap_append]

theorem parts_sideExpr_right (boundary : Option Segment) (xs ys : List Shown) :
    (sideExpr .right (xs ++ ys) boundary set last).parts =
      (sideExpr .right xs boundary set last).parts ++
        (sideExpr .right ys (preceding boundary xs) set last).parts := by
  simp only [parts_sideExpr, sideSlots, rightSlots_append, List.flatMap_append]

/-- A side is made of the two sides that a cut leaves, and in the end of sides of one segment: its
body and the separator toward the window list. The side that is farther from the window list faces
the segment behind the cut, just as the nearer one faces the window, and the window itself where
there is no such segment. The glyphs of the end are drawn at most for the segment nearest the window
list, and for none where a window stands against it. -/
theorem sideExpr_append (xs ys : List Shown) (boundary : Option Segment)
    (set last : SeparatorSet) :
    let parts (side : Side) (zs : List Shown) (next : Option Segment) (last : SeparatorSet) :=
      (sideExpr side zs next set last).parts
    parts .left (xs ++ ys) boundary last =
      parts .left xs ((ys.head?.map Shown.segment).or boundary) last ++
        parts .left ys boundary last ∧
    parts .right (xs ++ ys) boundary last =
      parts .right xs boundary last ++
        parts .right ys ((xs.getLast?.map Shown.segment).or boundary) last ∧
    (∀ side s other, parts side xs (some s) last = parts side xs (some s) other) ∧
    (∀ x other, parts .left (xs ++ [x]) none last =
      parts .left xs (some x.segment) other ++ parts .left [x] none last) ∧
    (∀ x other, parts .right (x :: xs) none last =
      parts .right [x] none last ++ parts .right xs (some x.segment) other) ∧
    (∀ x next, parts .left [x] next last =
      body x.segment x.content ++ [separator x.segment next set last .right]) ∧
    (∀ x next, parts .right [x] next last =
      separator x.segment next set last .left :: body x.segment x.content) := by
  intro parts
  have hsome (side : Side) (s : Segment) (other : SeparatorSet) :
      parts side xs (some s) last = parts side xs (some s) other :=
    parts_sideExpr_some set last side s other xs
  refine ⟨?_, parts_sideExpr_right set last boundary xs ys, hsome, ?_, ?_, fun _ _ => rfl,
    fun _ _ => rfl⟩
  · rw [← following_eq]
    exact parts_sideExpr_left set last boundary xs ys
  · intro x other
    rw [← hsome .left x.segment other]
    exact parts_sideExpr_left set last none xs [x]
  · intro x other
    rw [← hsome .right x.segment other]
    exact parts_sideExpr_right set last none [x] xs

theorem separator_mirrored (s : Segment) (next : Option Segment) :
    separator s next set.mirrored last.mirrored .right = separator s next set last .left := by
  simp only [separator, SeparatorSet.thick_mirrored, SeparatorSet.thin_mirrored]

-- What the right side begins with is what the left side ends with, next to the window list.
theorem reverse_rightSlots (before : Option Segment) (xs : List Shown) :
    (rightSlots before set last xs).reverse =
      leftSlots before set.mirrored last.mirrored xs.reverse := by
  induction xs generalizing before with
  | nil => rfl
  | cons x rest ih =>
      rw [rightSlots, List.reverse_cons, ih, List.reverse_cons, leftSlots_append]
      simp only [leftSlots, following, direction, separator_mirrored]

def threes : List Expr → List (Expr × Expr × Expr)
  | a :: b :: c :: rest => (a, b, c) :: threes rest
  | _ => []

def turned : Expr × Expr × Expr → Expr × Expr × Expr
  | (a, b, c) => (c, a, b)

def slotGroup (side : Side) (x : Slot) : Expr × Expr × Expr :=
  let group := (.colors x.segment.fg x.segment.bg, .literal x.content, x.separator)
  match side with
  | .left => group
  | .right => turned group

theorem threes_flatMap_parts (side : Side) (slots : List Slot) :
    threes (slots.flatMap (Slot.parts side)) = slots.map (slotGroup side) := by
  induction slots with
  | nil => rfl
  | cons x rest ih =>
      rw [List.flatMap_cons, List.map_cons, ← ih]
      cases side <;> rfl

theorem length_parts_sideExpr (side : Side) (xs : List Shown) (boundary : Option Segment) :
    (sideExpr side xs boundary set last).parts.length = 3 * xs.length := by
  have hparts : ∀ x : Slot, (x.parts side).length = 3 := by
    intro x
    cases side <;> rfl
  have hslots := congrArg List.length (sideSlots_shown set last side xs boundary)
  rw [List.length_map] at hslots
  rw [parts_sideExpr, ← hslots, Nat.mul_comm]
  simp [List.length_flatMap, hparts]

theorem isMark_leftSlots (after : Option Segment) (xs : List Shown) :
    ∀ x ∈ leftSlots after set last xs, x.separator.isMark = true := by
  induction xs with
  | nil => simp [leftSlots]
  | cons x rest ih =>
      exact List.forall_mem_cons.mpr ⟨isMark_separator _ _ _ _ _, ih⟩

/-- The right side, read in threes and from its end, is the left side of the reversed segments with
the glyphs exchanged, but for the separator: it moves from behind the content to before the
colors. -/
theorem sideExpr_mirrored (xs : List Shown) (boundary : Option Segment)
    (set last : SeparatorSet) :
    let right := (sideExpr .right xs boundary set last).parts
    let left := (sideExpr .left xs.reverse boundary set.mirrored last.mirrored).parts
    (threes right).reverse = (threes left).map turned ∧
    right.length = 3 * xs.length ∧ left.length = 3 * xs.length ∧
    (threes left).map (fun g => [g.1, g.2.1]) = xs.reverse.map (fun x => body x.segment x.content) ∧
    ∀ g ∈ threes left, g.2.2.isMark = true := by
  intro right left
  have hright : threes right = (rightSlots boundary set last xs).map (slotGroup .right) := by
    rw [← threes_flatMap_parts, ← rightParts_eq_flatMap]
    rfl
  have hleft : threes left =
      (leftSlots boundary set.mirrored last.mirrored xs.reverse).map (slotGroup .left) := by
    rw [← threes_flatMap_parts, ← leftParts_eq_flatMap]
    rfl
  refine ⟨?_, length_parts_sideExpr set last .right xs boundary, ?_, ?_, ?_⟩
  · rw [hright, hleft, ← List.map_reverse, reverse_rightSlots, List.map_map]
    rfl
  · have hlength : xs.reverse.length = xs.length := List.length_reverse
    rw [← hlength]
    exact length_parts_sideExpr _ _ .left xs.reverse boundary
  · have hshown := sideSlots_shown set.mirrored last.mirrored .left xs.reverse boundary
    rw [hleft, ← congrArg (List.map fun x => body x.segment x.content) hshown, List.map_map,
      List.map_map]
    rfl
  · rw [hleft]
    exact List.forall_mem_map.mpr (isMark_leftSlots _ _ boundary xs.reverse)

end Layout

end StatusLine
