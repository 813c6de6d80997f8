import Mathlib.Data.List.Basic
import StatusLine.Proofs.Dependence

/-!
A side as a row of slots, one for each segment that is shown: its colours, its content and its
separator. A provider that fails says so in its own slots and leaves the others as they were.
-/

namespace StatusLine

structure Slot extends Shown where
  separator : Expr

def Slot.parts (side : Side) (x : Slot) : List Expr :=
  match side with
  | .left => Layout.body x.segment x.content ++ [x.separator]
  | .right => x.separator :: Layout.body x.segment x.content

namespace Layout

def leftSlots (after : Option Segment) (set last : SeparatorSet) : List Shown → List Slot
  | [] => []
  | x :: rest =>
      ⟨x, separator x.segment (following after rest) set last (direction .left)⟩ ::
        leftSlots after set last rest

def rightSlots (before : Option Segment) (set last : SeparatorSet) : List Shown → List Slot
  | [] => []
  | x :: rest =>
      ⟨x, separator x.segment before set last (direction .right)⟩ ::
        rightSlots (some x.segment) set last rest

def sideSlots (side : Side) (xs : List Shown) (boundary : Option Segment)
    (set last : SeparatorSet) : List Slot :=
  match side with
  | .left => leftSlots boundary set last xs
  | .right => rightSlots boundary set last xs

variable (set last : SeparatorSet)

theorem leftParts_eq_flatMap (after : Option Segment) (xs : List Shown) :
    leftParts after set last xs = (leftSlots after set last xs).flatMap (Slot.parts .left) := by
  induction xs with
  | nil => rfl
  | cons x rest ih =>
      rw [leftParts, leftSlots, List.flatMap_cons, ih, Slot.parts, List.append_assoc,
        List.singleton_append]

theorem rightParts_eq_flatMap (before : Option Segment) (xs : List Shown) :
    rightParts before set last xs =
      (rightSlots before set last xs).flatMap (Slot.parts .right) := by
  induction xs generalizing before with
  | nil => rfl
  | cons x rest ih =>
      rw [rightParts, rightSlots, List.flatMap_cons, ih, Slot.parts, List.cons_append]

theorem sideParts_eq_flatMap (side : Side) (xs : List Shown) (boundary : Option Segment) :
    sideParts side xs boundary set last =
      (sideSlots side xs boundary set last).flatMap (Slot.parts side) := by
  cases side with
  | left => exact leftParts_eq_flatMap set last boundary xs
  | right => exact rightParts_eq_flatMap set last boundary xs

theorem sideSlots_shown (side : Side) (xs : List Shown) (boundary : Option Segment) :
    (sideSlots side xs boundary set last).map Slot.toShown = xs := by
  cases side with
  | left =>
      induction xs with
      | nil => rfl
      | cons x rest ih => exact congrArg (x :: ·) ih
  | right =>
      simp only [sideSlots]
      induction xs generalizing boundary with
      | nil => rfl
      | cons x rest ih => exact congrArg (x :: ·) (ih (some x.segment))

variable {f : Shown → Shown} (hf : ∀ x, (f x).segment = x.segment)

include hf

theorem leftSlots_map (after : Option Segment) (xs : List Shown) :
    leftSlots after set last (xs.map f) =
      (leftSlots after set last xs).map fun x => { x with toShown := f x.toShown } := by
  induction xs with
  | nil => rfl
  | cons x rest ih =>
      have hnext : following after (rest.map f) = following after rest := by
        cases rest with
        | nil => rfl
        | cons y rest => exact congrArg some (hf y)
      rw [List.map_cons, leftSlots, leftSlots, List.map_cons, ih, hnext, hf]

theorem rightSlots_map (before : Option Segment) (xs : List Shown) :
    rightSlots before set last (xs.map f) =
      (rightSlots before set last xs).map fun x => { x with toShown := f x.toShown } := by
  induction xs generalizing before with
  | nil => rfl
  | cons x rest ih => rw [List.map_cons, rightSlots, rightSlots, List.map_cons, ih, hf]

theorem sideSlots_map (side : Side) (xs : List Shown) (boundary : Option Segment) :
    sideSlots side (xs.map f) boundary set last =
      (sideSlots side xs boundary set last).map fun x => { x with toShown := f x.toShown } := by
  cases side with
  | left => exact leftSlots_map set last hf boundary xs
  | right => exact rightSlots_map set last hf boundary xs

end Layout

theorem escapeText_eq_empty_iff (s : String) : escapeText s = "" ↔ s = "" := by
  constructor
  · intro h
    have hchars : Expr.escape false s.toList = [] := by
      simpa [escapeText] using congrArg String.toList h
    cases hs : s.toList with
    | nil => exact String.toList_eq_nil_iff.mp hs
    | cons c cs =>
        rw [hs, Expr.escape, List.flatMap_cons] at hchars
        by_cases hc : c = '#' <;> simp [Expr.escapeChar, hc] at hchars
  · rintro rfl
    rfl

theorem ProviderError.message_eq_empty_iff (e : ProviderError) :
    e.message = "" ↔ e = .failed "" := by
  cases e with
  | unknown name =>
      have hne : "unknown provider " ++ name ≠ "" := by simp
      exact iff_of_false hne nofun
  | arguments name reason =>
      have hne : name ++ ": bad arguments: " ++ reason ≠ "" := by simp
      exact iff_of_false hne nofun
  | failed reason => exact ⟨congrArg ProviderError.failed, ProviderError.failed.inj⟩

theorem attributed_ne (attrs : String) {content : String} (h : content ≠ "") :
    attributed attrs content ≠ "" := by
  unfold attributed
  split
  · exact h
  · rename_i hattrs
    intro hempty
    have hchars := String.ofList_eq_empty_iff.mp hempty
    rw [Expr.write_concat, Expr.writeAll, Expr.write_attrs, if_neg hattrs] at hchars
    cases hchars

theorem attributed_padded_ne (attrs body : String) : attributed attrs (padded body) ≠ "" :=
  attributed_ne attrs (by simp [padded])

theorem Segment.resolve_eq_empty_iff (s : Segment) (registry : Registry) (args : Keyed Arguments) :
    s.resolve registry args = "" ↔ s.body? registry args = none := by
  cases hbody : s.body? registry args with
  | none => simp [resolve, hbody]
  | some body => simp [resolve, hbody, attributed_padded_ne]

theorem Statusbar.shown_eq (b : Statusbar) (registry : Registry) (side : Side) :
    b.shown registry side = (b.side side).segments.filterMap fun s =>
      (s.body? registry b.arguments).map fun body =>
        ⟨s, attributed s.attrText (padded body)⟩ := by
  refine List.filterMap_congr fun s _ => ?_
  cases hbody : s.body? registry b.arguments with
  | none => simp [resolve, Segment.resolve, hbody]
  | some body => simp [resolve, Segment.resolve, hbody, attributed_padded_ne]

def Segment.failure (s : Segment) (e : ProviderError) : String :=
  attributed s.attrText (padded (escapeText e.message))

def Shown.failing (name : String) (e : ProviderError) (x : Shown) : Shown :=
  if x.segment.content = .provider name then { x with content := x.segment.failure e } else x

def Slot.failing (name : String) (e : ProviderError) (x : Slot) : Slot :=
  { x with toShown := x.toShown.failing name e }

theorem Shown.segment_failing (name : String) (e : ProviderError) (x : Shown) :
    (x.failing name e).segment = x.segment := by
  unfold failing
  split <;> rfl

namespace Statusbar

def slots (b : Statusbar) (registry : Registry) (side : Side) (active : Bool) : List Slot :=
  Layout.sideSlots side (b.shown registry side) (b.boundary side active) b.separator
    (b.endSeparator side)

theorem sideText_eq_slots (b : Statusbar) (registry : Registry) (side : Side) (active : Bool) :
    b.sideText registry side active =
      (Expr.concat ((b.slots registry side active).flatMap (Slot.parts side))).render := by
  rw [sideText, Layout.sideExpr, Layout.sideParts_eq_flatMap, slots]

theorem slots_shown (b : Statusbar) (registry : Registry) (side : Side) (active : Bool) :
    (b.slots registry side active).map Slot.toShown = b.shown registry side :=
  Layout.sideSlots_shown _ _ side _ _

theorem slots_length (b : Statusbar) (registry : Registry) (side : Side) (active : Bool) :
    (b.slots registry side active).length = (b.shown registry side).length := by
  rw [← b.slots_shown registry side active, List.length_map]

section

variable {b : Statusbar} {registry : Registry} {name : String} {p q : Provider} {o : Output}
  {e : ProviderError}

theorem body?_working (hlookup : registry.lookup name = some p)
    (hp : p (b.argumentsOf name) = .ok o) (ho : o.format ≠ "") {s : Segment}
    (hs : s.content = .provider name) : s.body? registry b.arguments = some o.format := by
  have hprovided : provided registry b.arguments name = o.format := by
    rw [argumentsOf] at hp
    simp only [provided, hlookup, hp]
  simp [Segment.body?, hs, hprovided, ho]

theorem body?_failed (hq : q (b.argumentsOf name) = .error e) {s : Segment}
    (hs : s.content = .provider name) :
    s.body? (registry.register name q) b.arguments =
      if e = .failed "" then none else some (escapeText e.message) := by
  have hprovided : provided (registry.register name q) b.arguments name =
      escapeText e.message := by
    rw [argumentsOf] at hq
    simp only [provided, Registry.lookup_register, if_true, hq]
  have hempty : (escapeText e.message).isEmpty = true ↔ e = .failed "" := by
    rw [String.isEmpty_iff, escapeText_eq_empty_iff, ProviderError.message_eq_empty_iff]
  by_cases he : e = .failed ""
  · simp only [Segment.body?, hs, hprovided, hempty.mpr he, if_true, if_pos he]
  · simp only [Segment.body?, hs, hprovided, mt hempty.mp he, if_false, if_neg he,
      Bool.false_eq_true]

theorem body?_other {s : Segment} (hs : s.content ≠ .provider name) :
    s.body? (registry.register name q) b.arguments = s.body? registry b.arguments := by
  cases hcontent : s.content with
  | literal text => simp only [Segment.body?, hcontent]
  | provider other =>
      have hne : name ≠ other := fun heq => hs (heq ▸ hcontent)
      have hprovided : provided (registry.register name q) b.arguments other =
          provided registry b.arguments other :=
        provided_congr (by rw [Registry.lookup_register, if_neg hne]) rfl
      simp only [Segment.body?, hcontent, hprovided]

variable (hlookup : registry.lookup name = some p) (hp : p (b.argumentsOf name) = .ok o)
  (ho : o.format ≠ "") (hq : q (b.argumentsOf name) = .error e)

include hlookup hp ho

theorem mem_shown_working {side : Side} {s : Segment} (hmem : s ∈ (b.side side).segments)
    (hs : s.content = .provider name) :
    ∃ x ∈ b.shown registry side, x.segment.content = .provider name := by
  rw [shown_eq]
  refine ⟨⟨s, attributed s.attrText (padded o.format)⟩, List.mem_filterMap.mpr ⟨s, hmem, ?_⟩, hs⟩
  rw [body?_working hlookup hp ho hs, Option.map_some]

theorem named_shown (side : Side) :
    (((b.shown registry side).map Shown.segment).filter fun s => s.content = .provider name) =
      (b.side side).segments.filter fun s => s.content = .provider name := by
  rw [shown_eq, List.map_filterMap, List.filter_filterMap, ← List.filterMap_eq_filter]
  refine List.filterMap_congr fun s _ => ?_
  by_cases hs : s.content = .provider name
  · simp [body?_working hlookup hp ho hs, hs, Option.filter, Option.guard]
  · cases hbody : s.body? registry b.arguments <;> simp [hs, Option.filter, Option.guard]

include hq

theorem shown_failing {side : Side}
    (h : e ≠ .failed "" ∨ ∀ s ∈ (b.side side).segments, s.content ≠ .provider name) :
    b.shown (registry.register name q) side =
      (b.shown registry side).map (Shown.failing name e) := by
  rw [shown_eq, shown_eq, List.map_filterMap]
  refine List.filterMap_congr fun s hmem => ?_
  by_cases hs : s.content = .provider name
  · have he : e ≠ .failed "" := h.resolve_right fun hall => hall s hmem hs
    simp [body?_working hlookup hp ho hs, body?_failed hq hs, he, Shown.failing, hs,
      Segment.failure]
  · simp [body?_other hs, Shown.failing, hs, Function.comp_def]

theorem shown_silent (he : e = .failed "") (side : Side) :
    b.shown (registry.register name q) side =
      (b.shown registry side).filter fun x => x.segment.content ≠ .provider name := by
  rw [shown_eq, shown_eq, List.filter_filterMap]
  refine List.filterMap_congr fun s _ => ?_
  by_cases hs : s.content = .provider name
  · simp [body?_working hlookup hp ho hs, body?_failed hq hs, he, hs, Option.filter]
  · cases hbody : s.body? registry b.arguments <;>
      simp [body?_other hs, hs, hbody, Option.filter]

end

/-- A provider that fails where it showed something changes the content of its own slots and nothing
else, unless its error is the empty text: then its segments are left out, as if it had nothing to
show. -/
theorem slots_failing_iff (b : Statusbar) (registry : Registry) (side : Side) (active : Bool)
    {name : String} {p q : Provider} {o : Output} {e : ProviderError}
    (hlookup : registry.lookup name = some p) (hp : p (b.argumentsOf name) = .ok o)
    (ho : o.format ≠ "") (hq : q (b.argumentsOf name) = .error e) :
    (b.slots (registry.register name q) side active =
        (b.slots registry side active).map (Slot.failing name e) ↔
      e ≠ .failed "" ∨ ∀ s ∈ (b.side side).segments, s.content ≠ .provider name) ∧
    (∀ r, b.sideText r side active =
      (Expr.concat ((b.slots r side active).flatMap (Slot.parts side))).render) ∧
    (((b.slots registry side active).map fun x => x.segment).filter
        fun s => s.content = .provider name) =
      ((b.side side).segments.filter fun s => s.content = .provider name) ∧
    (∀ s, s.content = .provider name →
      (b.resolve (registry.register name q) s = "" ↔ e = .failed "")) ∧
    (e = .failed "" → b.shown (registry.register name q) side =
      (b.shown registry side).filter fun x => x.segment.content ≠ .provider name) := by
  refine ⟨⟨?_, ?_⟩, fun r => b.sideText_eq_slots r side active, ?_, ?_,
    fun he => shown_silent hlookup hp ho hq he side⟩
  · intro h
    by_cases he : e = .failed ""
    · refine .inr fun s hmem hs => ?_
      obtain ⟨x, hx, hname⟩ := mem_shown_working hlookup hp ho hmem hs
      have hlength := congrArg List.length h
      rw [List.length_map, slots_length, slots_length, shown_silent hlookup hp ho hq he side,
        List.length_filter_eq_length_iff] at hlength
      simpa [hname] using hlength x hx
    · exact .inl he
  · intro h
    rw [slots, slots, shown_failing hlookup hp ho hq h]
    exact Layout.sideSlots_map _ _ (Shown.segment_failing name e) side _ _
  · rw [← named_shown hlookup hp ho side, ← b.slots_shown registry side active, List.map_map]
    rfl
  · intro s hs
    rw [resolve, Segment.resolve_eq_empty_iff, body?_failed hq hs]
    split <;> simp_all

theorem slots_failing_iff_of_clock :
    let clock := (Segment.provider "clock").withStyle ⟨none, some (.named .red), [.bold], []⟩
    let name := (Segment.literal "host").withSeparator "|"
    let window := Segment.literal "w"
    let b := Statusbar.new [clock, name, clock] [] (.new window window)
    let time : Provider := .constant [.text "12:00"]
    let failure : Provider := fun _ => .error (.failed "#1")
    let registry := Registry.ofRegistrations [("clock", time)]
    let failed := registry.register "clock" failure
    registry.lookup "clock" = some time ∧ Output.format [.text "12:00"] ≠ "" ∧
      ProviderError.failed "#1" ≠ .failed "" ∧
      (∀ s, s.content = .provider "clock" → b.resolve failed s ≠ "") ∧
      b.slots failed .left true =
        (b.slots registry .left true).map (Slot.failing "clock" (.failed "#1")) := by
  intro clock name window b time failure registry failed
  have hlookup : registry.lookup "clock" = some time := rfl
  have hformat : Output.format [.text "12:00"] ≠ "" := by decide
  have herror : ProviderError.failed "#1" ≠ .failed "" := by decide
  obtain ⟨hslots, -, -, hresolve, -⟩ :=
    b.slots_failing_iff registry .left true hlookup rfl hformat (q := failure) rfl
  exact ⟨hlookup, hformat, herror, fun s hs => mt (hresolve s hs).mp herror,
    hslots.mpr (.inl herror)⟩

theorem slot_lost_without_message :
    let clock := (Segment.provider "clock").withBg (.named .red)
    let window := Segment.literal "w"
    let b := Statusbar.new [.literal "host", clock] [] (.new window window)
    let registry := Registry.ofRegistrations [("clock", .constant [.text "12:00"])]
    let failed := registry.register "clock" fun _ => .error (.failed "")
    b.resolve failed clock = "" ∧
    b.sideText registry .left true = "#[fg=default,bg=default] host #[fg=default,bg=red]\ue0b0" ++
      "#[fg=default,bg=red] 12:00 #[fg=red,bg=default]\ue0b0" ∧
    b.sideText failed .left true =
      "#[fg=default,bg=default] host #[fg=default,bg=default]\ue0b1" := by
  decide

end Statusbar

end StatusLine
