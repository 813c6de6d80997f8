import StatusLine.Layout

/-!
The whole line: a side and the windows that stand against it, one after the other. At every seam
stands the separator of the two segments that meet there.
-/

namespace StatusLine

namespace Expr

mutual

def pick (v : Predicate → Bool) : Expr → Expr
  | .cond test yes no => if v test then pick v yes else pick v no
  | .concat parts => .concat (pickAll v parts)
  | e => e

def pickAll (v : Predicate → Bool) : List Expr → List Expr
  | [] => []
  | e :: rest => pick v e :: pickAll v rest

end

def parts : Expr → List Expr
  | .concat es => es
  | e => [e]

def isMark : Expr → Bool
  | .concat [.color (some _) (some _), .text _] => true
  | _ => false

end Expr

namespace Layout

theorem pick_separator (v : Predicate → Bool) (s : Segment) (next : Option Segment)
    (set last : SeparatorSet) (d : Direction) :
    (separator s next set last d).pick v = separator s next set last d := by
  simp only [separator, mark]
  split
  · rfl
  · split
    · rfl
    · split <;> rfl

theorem isMark_separator (s : Segment) (next : Option Segment) (set last : SeparatorSet)
    (d : Direction) : (separator s next set last d).isMark = true := by
  simp only [separator, mark]
  split
  · rfl
  · split
    · rfl
    · split <;> rfl

def kindAt (active k : Nat) : WindowKind := if k = active then .active else .inactive

@[simp] theorem kindAt_self (k : Nat) : kindAt k k = .active := if_pos rfl

theorem kindAt_of_ne {active k : Nat} (h : k ≠ active) : kindAt active k = .inactive := if_neg h

def holds (n active k : Nat) : Predicate → Bool
  | .isFirst => k = 0
  | .isLast => k + 1 = n
  | .beforeActive => k + 1 = active
  | .afterActive => k = active + 1

/-- The window that a window of a kind faces, by the two answers that its format asks for. -/
def faced (w : WindowList) (kind : WindowKind) (edge beside : Bool) : Option Segment :=
  if edge then none
  else match kind with
    | .active => some w.inactive
    | .inactive => some (if beside then w.active else w.inactive)

theorem pick_windowSeparator (w : WindowList) (kind : WindowKind) (set last : SeparatorSet)
    (side : Side) (edge beside : Predicate) (v : Predicate → Bool) :
    (windowSeparator w kind set last side edge beside).pick v =
      separator (w.segment kind) (faced w kind (v edge) (v beside)) set last (direction side) := by
  cases kind with
  | active => cases he : v edge <;>
      simp [windowSeparator, Expr.pick, he, pick_separator, faced, WindowList.segment]
  | inactive => cases he : v edge <;> cases hb : v beside <;>
      simp [windowSeparator, Expr.pick, he, hb, pick_separator, faced, WindowList.segment]

def windowAt? (w : WindowList) (n active k : Nat) : Option Segment :=
  if k < n then some (w.segment (kindAt active k)) else none

theorem faced_left (w : WindowList) {n k : Nat} (active : Nat) (hk : k < n) :
    faced w (kindAt active k) (holds n active k .isLast) (holds n active k .beforeActive) =
      windowAt? w n active (k + 1) := by
  by_cases hlast : k + 1 = n
  · simp [faced, holds, windowAt?, hlast]
  · have hn : k + 1 < n := by omega
    by_cases ha : k = active
    · subst ha
      have hnext : k + 1 ≠ k := by omega
      simp [faced, holds, windowAt?, hlast, hn, kindAt_of_ne hnext, WindowList.segment]
    · by_cases hb : k + 1 = active
      · subst hb
        simp [faced, holds, windowAt?, hlast, hn, kindAt_of_ne ha, WindowList.segment]
      · simp [faced, holds, windowAt?, hlast, hn, kindAt_of_ne ha, kindAt_of_ne hb, hb,
          WindowList.segment]

theorem faced_right (w : WindowList) {n k : Nat} (active : Nat) (hk : k < n) :
    faced w (kindAt active k) (holds n active k .isFirst) (holds n active k .afterActive) =
      if k = 0 then none else windowAt? w n active (k - 1) := by
  cases k with
  | zero => simp [faced, holds]
  | succ k =>
      have hn : k < n := by omega
      by_cases ha : k + 1 = active
      · subst ha
        have hprev : k ≠ k + 1 := by omega
        simp [faced, holds, windowAt?, hn, kindAt_of_ne hprev, WindowList.segment]
      · by_cases hb : k = active
        · subst hb
          simp [faced, holds, windowAt?, hn, kindAt_of_ne ha, WindowList.segment]
        · simp [faced, holds, windowAt?, hn, kindAt_of_ne ha, kindAt_of_ne hb, hb,
            WindowList.segment]

/-- What is drawn for one segment, without its separator. -/
structure Stretch where
  segment : Segment
  body : List Expr

def Shown.stretch (x : Shown) : Stretch := ⟨x.segment, Layout.body x.segment x.content⟩

namespace Stretch

variable (set last : SeparatorSet)

def forward (xs : List Stretch) : List Expr :=
  (xs.mapIdx fun i x =>
    x.body ++ [separator x.segment (xs[i + 1]?.map segment) set last .right]).flatten

def backward (xs : List Stretch) : List Expr :=
  (xs.mapIdx fun i x =>
    separator x.segment (if i = 0 then none else xs[i - 1]?.map segment) set last .left ::
      x.body).flatten

theorem forward_append (xs ys : List Stretch) :
    forward set last (xs ++ ys) =
      (xs.mapIdx fun i x => x.body ++
        [separator x.segment ((xs[i + 1]?.map segment).or (ys.head?.map segment)) set last
          .right]).flatten ++
      forward set last ys := by
  simp only [forward, List.mapIdx_append, List.flatten_append]
  congr 2
  · rw [List.mapIdx_eq_mapIdx_iff]
    intro i hi
    rw [List.getElem?_append]
    split
    · rename_i hn
      simp [List.getElem?_eq_getElem hn]
    · rename_i hn
      have hend : i + 1 - xs.length = 0 := by omega
      have hnone : xs[i + 1]? = none := List.getElem?_eq_none (by omega)
      simp [hend, hnone, List.head?_eq_getElem?]
  · rw [List.mapIdx_eq_mapIdx_iff]
    intro i hi
    have hskip : i + xs.length + 1 - xs.length = i + 1 := by omega
    rw [List.getElem?_append_right (by omega), hskip]

theorem backward_append (xs ys : List Stretch) :
    backward set last (xs ++ ys) =
      backward set last xs ++
      (ys.mapIdx fun i y =>
        separator y.segment (if i = 0 then xs.getLast?.map segment else ys[i - 1]?.map segment)
          set last .left :: y.body).flatten := by
  simp only [backward, List.mapIdx_append, List.flatten_append]
  congr 2
  · rw [List.mapIdx_eq_mapIdx_iff]
    intro i hi
    rw [List.getElem?_append_left (by omega)]
  · rw [List.mapIdx_eq_mapIdx_iff]
    intro i hi
    cases i with
    | zero =>
        rcases xs.eq_nil_or_concat with rfl | ⟨xs, x, rfl⟩
        · simp
        · simp
    | succ i =>
        have hpred : i + 1 + xs.length - 1 = xs.length + i := by omega
        simp [hpred, List.getElem?_append_right]

theorem filter_flatten_mapIdx {α β : Type} {p : β → Bool} {f : Nat → α → List β} {g : Nat → α → β}
    {xs : List α} (h : ∀ i, ∀ x ∈ xs, (f i x).filter p = [g i x]) :
    (xs.mapIdx f).flatten.filter p = xs.mapIdx g := by
  induction xs generalizing f g with
  | nil => rfl
  | cons x xs ih =>
      have hrest : ∀ i, ∀ y ∈ xs, (f (i + 1) y).filter p = [g (i + 1) y] :=
        fun i y hy => h (i + 1) y (List.mem_cons_of_mem _ hy)
      simp [List.mapIdx_cons, h 0 x List.mem_cons_self, ih hrest]

theorem mapIdx_map_segment {α : Type} (f : Nat → Segment → α) (xs : List Stretch) :
    (xs.map segment).mapIdx f = xs.mapIdx fun i x => f i x.segment :=
  List.ext_getElem (by simp) (by simp)

theorem filter_forward {xs : List Stretch} (h : ∀ x ∈ xs, x.body.filter Expr.isMark = []) :
    (forward set last xs).filter Expr.isMark =
      (xs.map segment).mapIdx fun i s =>
        separator s (xs.map segment)[i + 1]? set last .right := by
  rw [mapIdx_map_segment, forward]
  refine filter_flatten_mapIdx fun i x hx => ?_
  simp [h x hx, isMark_separator]

theorem filter_backward {xs : List Stretch} (h : ∀ x ∈ xs, x.body.filter Expr.isMark = []) :
    (backward set last xs).filter Expr.isMark =
      (xs.map segment).mapIdx fun i s =>
        separator s (if i = 0 then none else (xs.map segment)[i - 1]?) set last .left := by
  rw [mapIdx_map_segment, backward]
  refine filter_flatten_mapIdx fun i x hx => ?_
  simp [h x hx, isMark_separator]

end Stretch

theorem leftParts_eq_flatten (after : Option Segment) (set last : SeparatorSet) (xs : List Shown) :
    leftParts after set last xs =
      ((xs.map Shown.stretch).mapIdx fun i x => x.body ++
        [separator x.segment
          (((xs.map Shown.stretch)[i + 1]?.map Stretch.segment).or after) set last
            .right]).flatten := by
  induction xs with
  | nil => rfl
  | cons x rest ih =>
      have hnext : following after rest =
          ((rest.map Shown.stretch)[0]?.map Stretch.segment).or after := by
        cases rest <;> rfl
      simp only [leftParts, ih, hnext, List.map_cons, List.mapIdx_cons, List.flatten_cons,
        List.getElem?_cons_succ, direction]
      simp [Shown.stretch]

theorem rightParts_eq_flatten (before : Option Segment) (set last : SeparatorSet)
    (xs : List Shown) :
    rightParts before set last xs =
      ((xs.map Shown.stretch).mapIdx fun i x =>
        separator x.segment
          (if i = 0 then before else (xs.map Shown.stretch)[i - 1]?.map Stretch.segment) set last
            .left :: x.body).flatten := by
  induction xs generalizing before with
  | nil => rfl
  | cons x rest ih =>
      simp only [rightParts, ih, List.map_cons, List.mapIdx_cons, List.flatten_cons, direction]
      simp only [Shown.stretch, ↓reduceIte, List.cons_append]
      congr 4
      funext i y
      cases i <;> simp

def windowStretch (b : Statusbar) (content : WindowKind → String) (active k : Nat) : Stretch :=
  let s := b.windows.segment (kindAt active k)
  let inner := Expr.concat (body s (content (kindAt active k)))
  ⟨s, if b.windows.alignment = .left then [inner, .colors s.bg .default] else [inner]⟩

def windowStretches (b : Statusbar) (content : WindowKind → String) (n active : Nat) :
    List Stretch :=
  (List.range n).map (windowStretch b content active)

/-- The windows as the host draws them, from the one format of each kind. -/
def windowParts (b : Statusbar) (content : WindowKind → String) (n active : Nat) : List Expr :=
  (List.range n).flatMap fun k =>
    ((windowExpr b (kindAt active k) (content (kindAt active k))).pick (holds n active k)).parts

theorem parts_window_left (b : Statusbar) (content : WindowKind → String) {n k : Nat} (active : Nat)
    (h : b.windows.alignment = .left) (hk : k < n) :
    ((windowExpr b (kindAt active k) (content (kindAt active k))).pick (holds n active k)).parts =
      (windowStretch b content active k).body ++
        [separator (windowStretch b content active k).segment
          (windowAt? b.windows n active (k + 1)) b.separator (b.endSeparator .left) .right] := by
  simp only [windowExpr, h, Expr.pick, Expr.pickAll, Expr.parts, pick_windowSeparator,
    faced_left b.windows active hk, direction, windowStretch]
  rfl

theorem parts_window_right (b : Statusbar) (content : WindowKind → String) {n k : Nat}
    (active : Nat) (h : b.windows.alignment = .right) (hk : k < n) :
    ((windowExpr b (kindAt active k) (content (kindAt active k))).pick (holds n active k)).parts =
      separator (windowStretch b content active k).segment
        (if k = 0 then none else windowAt? b.windows n active (k - 1)) b.separator
          (b.endSeparator .right) .left :: (windowStretch b content active k).body := by
  simp only [windowExpr, h, Expr.pick, Expr.pickAll, Expr.parts, pick_windowSeparator,
    faced_right b.windows active hk, direction, windowStretch]
  rfl

theorem getElem?_windowStretches (b : Statusbar) (content : WindowKind → String)
    (n active k : Nat) :
    (windowStretches b content n active)[k]?.map Stretch.segment =
      windowAt? b.windows n active k := by
  by_cases hk : k < n <;> simp [windowStretches, windowAt?, hk, windowStretch]

theorem windowParts_left (b : Statusbar) (content : WindowKind → String) (n active : Nat)
    (h : b.windows.alignment = .left) :
    windowParts b content n active =
      Stretch.forward b.separator (b.endSeparator .left) (windowStretches b content n active) := by
  simp only [windowParts, Stretch.forward, List.flatMap]
  congr 1
  refine List.ext_getElem (by simp [windowStretches]) fun k hk _ => ?_
  have hn : k < n := by simpa using hk
  rw [List.getElem_mapIdx, getElem?_windowStretches]
  simpa [windowStretches] using parts_window_left b content active h hn

theorem windowParts_right (b : Statusbar) (content : WindowKind → String) (n active : Nat)
    (h : b.windows.alignment = .right) :
    windowParts b content n active =
      Stretch.backward b.separator (b.endSeparator .right)
        (windowStretches b content n active) := by
  simp only [windowParts, Stretch.backward, List.flatMap]
  congr 1
  refine List.ext_getElem (by simp [windowStretches]) fun k hk _ => ?_
  have hn : k < n := by simpa using hk
  rw [List.getElem_mapIdx, getElem?_windowStretches]
  simpa [windowStretches] using parts_window_right b content active h hn

theorem windowParts_body_marks (b : Statusbar) (content : WindowKind → String) (n active : Nat) :
    ∀ x ∈ windowStretches b content n active, x.body.filter Expr.isMark = [] := by
  simp only [windowStretches, List.mem_map]
  rintro x ⟨k, -, rfl⟩
  simp only [windowStretch]
  split <;> rfl

theorem shown_body_marks (xs : List Shown) :
    ∀ x ∈ xs.map Shown.stretch, x.body.filter Expr.isMark = [] := by
  simp only [List.mem_map]
  rintro x ⟨y, -, rfl⟩
  rfl

end Layout

namespace Statusbar

open Layout

variable (b : Statusbar) (registry : Registry) (n active : Nat)

def windowContent (kind : WindowKind) : String := b.resolve registry (b.windows.segment kind)

def leftLine : List Expr :=
  (sideExpr .left (b.shown registry .left) (b.boundary .left (active = 0)) b.separator
    (b.endSeparator .left)).parts ++ windowParts b (b.windowContent registry) n active

def rightLine : List Expr :=
  windowParts b (b.windowContent registry) n active ++
    (sideExpr .right (b.shown registry .right) (b.boundary .right (active + 1 = n)) b.separator
      (b.endSeparator .right)).parts

def leftChain : List Stretch :=
  (b.shown registry .left).map Shown.stretch ++
    windowStretches b (b.windowContent registry) n active

def rightChain : List Stretch :=
  windowStretches b (b.windowContent registry) n active ++
    (b.shown registry .right).map Shown.stretch

variable {n active}

theorem leftLine_eq_forward (ha : active < n) (h : b.windows.alignment = .left) :
    b.leftLine registry n active =
      Stretch.forward b.separator (b.endSeparator .left) (b.leftChain registry n active) := by
  have hfirst : (windowStretches b (b.windowContent registry) n active).head?.map Stretch.segment =
      b.boundary .left (active = 0) := by
    have hn : 0 < n := by omega
    rw [List.head?_eq_getElem?, getElem?_windowStretches]
    simp [windowAt?, hn, boundary, h, Alignment.adjoins, kindAt, eq_comm]
  rw [leftChain, Stretch.forward_append, hfirst, ← leftParts_eq_flatten,
    ← windowParts_left _ _ _ _ h]
  rfl

theorem rightLine_eq_backward (ha : active < n) (h : b.windows.alignment = .right) :
    b.rightLine registry n active =
      Stretch.backward b.separator (b.endSeparator .right) (b.rightChain registry n active) := by
  have hlast : (windowStretches b (b.windowContent registry) n active).getLast?.map
      Stretch.segment = b.boundary .right (active + 1 = n) := by
    have hn : n - 1 < n := by omega
    have hk : n - 1 = active ↔ active + 1 = n := by omega
    rw [List.getLast?_eq_getElem?, getElem?_windowStretches]
    simp [windowStretches, windowAt?, hn, boundary, h, Alignment.adjoins, kindAt, hk]
  rw [rightChain, Stretch.backward_append, hlast, ← rightParts_eq_flatten,
    ← windowParts_right _ _ _ _ h]
  rfl

theorem leftChain_body_marks : ∀ x ∈ b.leftChain registry n active,
    x.body.filter Expr.isMark = [] := by
  intro x hx
  rcases List.mem_append.mp hx with hx | hx
  · exact shown_body_marks _ x hx
  · exact windowParts_body_marks b _ n active x hx

theorem rightChain_body_marks : ∀ x ∈ b.rightChain registry n active,
    x.body.filter Expr.isMark = [] := by
  intro x hx
  rcases List.mem_append.mp hx with hx | hx
  · exact windowParts_body_marks b _ n active x hx
  · exact shown_body_marks _ x hx

variable (n active) in
def windowSegments : List Segment :=
  (List.range n).map fun k => b.windows.segment (kindAt active k)

theorem leftChain_segments : (b.leftChain registry n active).map Stretch.segment =
    (b.shown registry .left).map Shown.segment ++ b.windowSegments n active := by
  simp [leftChain, windowStretches, windowSegments, Function.comp_def, Shown.stretch, windowStretch]

theorem rightChain_segments : (b.rightChain registry n active).map Stretch.segment =
    b.windowSegments n active ++ (b.shown registry .right).map Shown.segment := by
  simp [rightChain, windowStretches, windowSegments, Function.comp_def, Shown.stretch,
    windowStretch]

/-- Where the window list stands against a side, the separators of that side and of the windows are
those of one row of segments: each is drawn toward the next segment on the way to the window that
is farthest from the side, and that window's own toward the end of the line. -/
theorem line_separators (ha : active < n) :
    (b.windows.alignment = .left →
      let row := (b.shown registry .left).map Shown.segment ++ b.windowSegments n active
      b.leftLine registry n active =
        Stretch.forward b.separator (b.endSeparator .left) (b.leftChain registry n active) ∧
      (b.leftChain registry n active).map Stretch.segment = row ∧
      (b.leftLine registry n active).filter Expr.isMark = row.mapIdx fun i s =>
        separator s row[i + 1]? b.separator (b.endSeparator .left) .right) ∧
    (b.windows.alignment = .right →
      let row := b.windowSegments n active ++ (b.shown registry .right).map Shown.segment
      b.rightLine registry n active =
        Stretch.backward b.separator (b.endSeparator .right) (b.rightChain registry n active) ∧
      (b.rightChain registry n active).map Stretch.segment = row ∧
      (b.rightLine registry n active).filter Expr.isMark = row.mapIdx fun i s =>
        separator s (if i = 0 then none else row[i - 1]?) b.separator (b.endSeparator .right)
          .left) := by
  constructor
  · intro h
    have hline := b.leftLine_eq_forward registry ha h
    refine ⟨hline, b.leftChain_segments registry, ?_⟩
    rw [hline, Stretch.filter_forward _ _ (b.leftChain_body_marks registry),
      b.leftChain_segments registry]
  · intro h
    have hline := b.rightLine_eq_backward registry ha h
    refine ⟨hline, b.rightChain_segments registry, ?_⟩
    rw [hline, Stretch.filter_backward _ _ (b.rightChain_body_marks registry),
      b.rightChain_segments registry]

theorem line_separators_of_three :
    let block (c : NamedColor) : Segment := (Segment.literal "w").withBg (.named c)
    let l := Statusbar.new [block .red] [] ⟨block .green, block .blue, .left⟩
    let r := Statusbar.new [] [block .red] ⟨block .green, block .blue, .right⟩
    1 < 3 ∧ (l.windows.alignment = .left ∧
      (l.leftLine [] 3 1).filter Expr.isMark =
        [mark (.named .red) (.named .blue) "\ue0b0", mark (.named .blue) (.named .green) "\ue0b0",
          mark (.named .green) (.named .blue) "\ue0b0", mark (.named .blue) .default "\ue0b0"]) ∧
      (r.windows.alignment = .right ∧
      (r.rightLine [] 3 1).filter Expr.isMark =
        [mark (.named .blue) .default "\ue0b2", mark (.named .green) (.named .blue) "\ue0b2",
          mark (.named .blue) (.named .green) "\ue0b2",
          mark (.named .red) (.named .blue) "\ue0b2"]) := by
  intro block l r
  have hactive : 1 < 3 := by decide
  refine ⟨hactive, ⟨rfl, ?_⟩, ⟨rfl, ?_⟩⟩
  · exact ((line_separators l [] hactive).1 rfl).2.2.trans rfl
  · exact ((line_separators r [] hactive).2 rfl).2.2.trans rfl

end Statusbar

end StatusLine
