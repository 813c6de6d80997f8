import StatusLine.Proofs.Format.Value
import StatusLine.Proofs.Sides

/-!
Segments that show nothing: a side is drawn as if they were not there. Only a provider can have
nothing to show; a literal always has its place, its colors and its separator.
-/

namespace StatusLine

/-- Nobody provides a bare name, or the output is empty, or the error has no text. -/
inductive Silent (registry : Registry) (args : Keyed Arguments) (name : String) : Prop
  | missing (hlookup : registry.lookup name = none) (hbare : isQualified name = false)
  | output {provider : Provider} {o : Output} (hlookup : registry.lookup name = some provider)
      (houtput : provider ((args.find? name).getD []) = .ok o) (hempty : o.format = "")
  | failure (hfails : Fails registry args name (.failed ""))

variable {registry : Registry} {args : Keyed Arguments} {name : String}

theorem Silent.provided (h : Silent registry args name) : provided registry args name = "" := by
  cases h with
  | missing hlookup hbare => simp [StatusLine.provided, hlookup, hbare]
  | output hlookup houtput hempty => simp only [StatusLine.provided, hlookup, houtput, hempty]
  | failure hfails => exact hfails.provided

theorem Fails.silent {e : ProviderError} (hfails : Fails registry args name e)
    (h : StatusLine.provided registry args name = "") : Silent registry args name := by
  rw [hfails.provided, escapeText_eq_empty_iff, ProviderError.message_eq_empty_iff] at h
  exact .failure (h ▸ hfails)

theorem silent_of_provided (h : provided registry args name = "") :
    Silent registry args name := by
  cases hlookup : registry.lookup name with
  | none =>
      cases hqualified : isQualified name with
      | false => exact .missing hlookup hqualified
      | true => exact (Fails.missing hlookup hqualified).silent h
  | some provider =>
      cases hprovider : provider ((args.find? name).getD []) with
      | ok o =>
          simp only [provided, hlookup, hprovider] at h
          exact .output hlookup hprovider h
      | error e => exact (Fails.raised hlookup hprovider).silent h

theorem Segment.resolve_eq_empty_iff_silent (s : Segment) :
    s.resolve registry args = "" ↔
      ∃ name, s.content = .provider name ∧ Silent registry args name := by
  rw [resolve_eq_empty_iff]
  cases hcontent : s.content with
  | literal text => simp [body?, hcontent]
  | provider name =>
      have hbody : s.body? registry args = none ↔ provided registry args name = "" := by
        simp [body?, hcontent]
      rw [hbody]
      constructor
      · exact fun h => ⟨name, rfl, silent_of_provided h⟩
      · rintro ⟨other, heq, h⟩
        cases heq
        exact h.provided

theorem Segment.resolve_literal {s : Segment} {text : String} (h : s.content = .literal text) :
    s.resolve registry args = attributed s.attrText (padded text) := by
  simp only [resolve, body?, h]

namespace Slot

def rowText (side : Side) (slots : List Slot) : String :=
  (Expr.concat (slots.flatMap (Slot.parts side))).render

theorem rowText_append (side : Side) (xs ys : List Slot) :
    rowText side (xs ++ ys) = rowText side xs ++ rowText side ys := by
  simp only [rowText, Expr.render, Expr.write_concat, List.flatMap_append, Expr.writeAll_append,
    String.ofList_append]

theorem rowText_singleton_ne (side : Side) (x : Slot) : rowText side [x] ≠ "" := by
  have hcolors : Expr.write false (.colors x.segment.fg x.segment.bg) ≠ [] := by
    simp [Expr.colors, Expr.write_color, Expr.colorToken, Expr.colorWords, Expr.token]
  intro hempty
  have hchars := String.ofList_eq_empty_iff.mp hempty
  cases side <;>
    simp [parts, Layout.body, Expr.write_concat, Expr.writeAll, hcolors] at hchars

theorem rowText_eq_empty_iff (side : Side) (slots : List Slot) :
    rowText side slots = "" ↔ slots = [] := by
  cases slots with
  | nil => exact iff_of_true rfl rfl
  | cons x rest =>
      rw [← List.singleton_append, rowText_append]
      simp [rowText_singleton_ne]

end Slot

/-- A row of segments, and the same row with others put in anywhere. -/
inductive Inserted (extra : Segment → Prop) : List Segment → List Segment → Prop
  | nil : Inserted extra [] []
  | keep {xs ys : List Segment} (s : Segment) :
      Inserted extra xs ys → Inserted extra (s :: xs) (s :: ys)
  | insert {xs ys : List Segment} {s : Segment} :
      extra s → Inserted extra xs ys → Inserted extra xs (s :: ys)

theorem Inserted.filterMap_eq {α : Type} {extra : Segment → Prop} {f : Segment → Option α}
    {xs ys : List Segment} (h : Inserted extra xs ys) (hf : ∀ s, extra s → f s = none) :
    ys.filterMap f = xs.filterMap f := by
  induction h with
  | nil => rfl
  | keep s _ ih => rw [List.filterMap_cons, List.filterMap_cons, ih]
  | insert hs _ ih => rw [List.filterMap_cons_none (hf _ hs), ih]

namespace Statusbar

def withSegments (b : Statusbar) (side : Side) (segments : List Segment) : Statusbar :=
  match side with
  | .left => { b with left := { b.left with segments := segments } }
  | .right => { b with right := { b.right with segments := segments } }

section

variable (b : Statusbar) (side : Side) (segments : List Segment)

@[simp] theorem segments_withSegments :
    ((b.withSegments side segments).side side).segments = segments := by
  cases side <;> rfl

@[simp] theorem arguments_withSegments :
    (b.withSegments side segments).arguments = b.arguments := by
  cases side <;> rfl

@[simp] theorem windows_withSegments : (b.withSegments side segments).windows = b.windows := by
  cases side <;> rfl

@[simp] theorem separator_withSegments :
    (b.withSegments side segments).separator = b.separator := by
  cases side <;> rfl

@[simp] theorem endSeparator_withSegments (other : Side) :
    (b.withSegments side segments).endSeparator other = b.endSeparator other := by
  cases side <;> cases other <;> rfl

@[simp] theorem boundary_withSegments (other : Side) (active : Bool) :
    (b.withSegments side segments).boundary other active = b.boundary other active := by
  simp only [boundary, windows_withSegments]

@[simp] theorem resolve_withSegments (registry : Registry) (s : Segment) :
    (b.withSegments side segments).resolve registry s = b.resolve registry s := by
  simp only [resolve, arguments_withSegments]

end

variable (b : Statusbar) (registry : Registry) (side : Side) (active : Bool)

def shownOf (segments : List Segment) : List Shown :=
  segments.filterMap fun s =>
    let content := b.resolve registry s
    if content.isEmpty then none else some ⟨s, content⟩

theorem shown_eq_shownOf : b.shown registry side = b.shownOf registry (b.side side).segments := rfl

theorem shown_withSegments (segments : List Segment) :
    (b.withSegments side segments).shown registry side = b.shownOf registry segments := by
  rw [shown_eq_shownOf, segments_withSegments]
  exact List.filterMap_congr fun s _ => by rw [resolve_withSegments]

theorem shownOf_inserted {xs ys : List Segment}
    (h : Inserted (fun s => b.resolve registry s = "") xs ys) :
    b.shownOf registry ys = b.shownOf registry xs :=
  h.filterMap_eq fun s hs => by simp [hs]

theorem shownOf_literal {s : Segment} {text : String} (h : s.content = .literal text)
    (before after : List Segment) :
    b.shownOf registry (before ++ s :: after) =
      b.shownOf registry before ++
        ⟨s, attributed s.attrText (padded text)⟩ :: b.shownOf registry after := by
  have hcontent : b.resolve registry s = attributed s.attrText (padded text) :=
    Segment.resolve_literal h
  simp [shownOf, List.filterMap_append, hcontent, attributed_padded_ne]

theorem shownOf_eq_nil_iff (segments : List Segment) :
    b.shownOf registry segments = [] ↔ ∀ s ∈ segments, b.resolve registry s = "" := by
  simp [shownOf, List.filterMap_eq_nil_iff]

theorem sideText_withSegments (segments : List Segment) :
    (b.withSegments side segments).sideText registry side active =
      (Layout.sideExpr side (b.shownOf registry segments) (b.boundary side active) b.separator
        (b.endSeparator side)).render := by
  rw [sideText, shown_withSegments, boundary_withSegments, separator_withSegments,
    endSeparator_withSegments]

/-- A side is drawn the same with any segments put in that show nothing, which only the segments of
silent providers do, whatever their colors, styles and separators; a literal is drawn between what
is shown before and behind it, with its colors, content and separator; and a side is empty only
where none of its segments shows anything. -/
theorem sideText_inserted (b : Statusbar) (registry : Registry) (side : Side) (active : Bool) :
    (∀ s, b.resolve registry s = "" ↔
      ∃ name, s.content = .provider name ∧ Silent registry b.arguments name) ∧
    (∀ more, Inserted (fun s => b.resolve registry s = "") (b.side side).segments more →
      (b.withSegments side more).sideText registry side active =
        b.sideText registry side active) ∧
    (∀ before s after text, (b.side side).segments = before ++ s :: after →
      s.content = .literal text →
      let x : Shown := ⟨s, attributed s.attrText (padded text)⟩
      let slot := Layout.slotBetween b.separator (b.endSeparator side) side (b.boundary side active)
        (b.shownOf registry before) x (b.shownOf registry after)
      ∃ left right : List Slot, left.map Slot.toShown = b.shownOf registry before ∧
        right.map Slot.toShown = b.shownOf registry after ∧
        b.sideText registry side active =
          Slot.rowText side left ++ Slot.rowText side [slot] ++ Slot.rowText side right) ∧
    (b.sideText registry side active = "" ↔
      ∀ s ∈ (b.side side).segments, b.resolve registry s = "") := by
  refine ⟨fun s => s.resolve_eq_empty_iff_silent, ?_, ?_, ?_⟩
  · intro more h
    rw [sideText_withSegments, shownOf_inserted b registry h]
    rfl
  · intro before s after text hsegments htext x slot
    obtain ⟨left, right, hslots, hleft, hright⟩ :=
      Layout.sideSlots_cut b.separator (b.endSeparator side) side (b.shownOf registry before) x
        (b.shownOf registry after) (b.boundary side active)
    have hshown : b.shown registry side =
        b.shownOf registry before ++ x :: b.shownOf registry after := by
      rw [shown_eq_shownOf, hsegments, shownOf_literal b registry htext]
    have hrow : b.sideText registry side active = Slot.rowText side (left ++ slot :: right) := by
      rw [sideText_eq_slots, slots, hshown, hslots]
      rfl
    refine ⟨left, right, hleft, hright, ?_⟩
    rw [hrow, Slot.rowText_append, ← List.singleton_append, Slot.rowText_append,
      String.append_assoc]
  · have hnil : b.slots registry side active = [] ↔ b.shown registry side = [] := by
      rw [← b.slots_shown registry side active, List.map_eq_nil_iff]
    rw [← shownOf_eq_nil_iff, ← shown_eq_shownOf, ← hnil, ← Slot.rowText_eq_empty_iff side,
      sideText_eq_slots]
    rfl

theorem sideText_inserted_styled :
    let style : Style := ⟨some (.named .green), some (.named .red), [.bold], []⟩
    let silent (name : String) := ((Segment.provider name).withStyle style).withSeparator "|"
    let blank := Segment.literal ""
    let window := Segment.literal "w"
    let b := Statusbar.new [blank] [] (.new window window)
    let registry : Registry :=
      [("blank", .constant [.text ""]), ("failed", fun _ => .error (.failed ""))]
    let more := [silent "unknown", silent "blank", blank, silent "failed"]
    (Inserted (fun s => b.resolve registry s = "") (b.side .left).segments more ∧
      (b.withSegments .left more).sideText registry .left true =
        b.sideText registry .left true) ∧
    (blank.content = .literal "" ∧ b.sideText registry .left true =
      "#[fg=default,bg=default]  #[fg=default,bg=default]\ue0b1") ∧
    (b.sideText registry .right true = "" ∧
      ∀ s ∈ (b.side .right).segments, b.resolve registry s = "") := by
  intro style silent blank window b registry more
  have hinserted : Inserted (fun s => b.resolve registry s = "") [blank] more :=
    .insert rfl (.insert rfl (.keep blank (.insert rfl .nil)))
  obtain ⟨-, hmore, hliteral, -⟩ := sideText_inserted b registry .left true
  obtain ⟨left, right, hleft, hright, htext⟩ := hliteral [] blank [] "" rfl rfl
  rw [List.map_eq_nil_iff.mp hleft, List.map_eq_nil_iff.mp hright] at htext
  have hempty := (sideText_inserted b registry .right true).2.2.2
  have hnone : ∀ s ∈ (b.side .right).segments, b.resolve registry s = "" := by simp [b, side, new]
  exact ⟨⟨hinserted, hmore more hinserted⟩, ⟨rfl, htext.trans (by decide)⟩, hempty.mpr hnone, hnone⟩

end Statusbar

end StatusLine
