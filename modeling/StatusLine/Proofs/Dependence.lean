import Mathlib.Data.List.Basic
import StatusLine.Layout

/-!
What a drawn piece depends on: a side on its own segments and on the backgrounds next to it, a
window on the window list, and both on the providers and arguments that their segments name.
-/

namespace StatusLine

namespace Registry

def ofRegistrations (entries : List (String × Provider)) : Registry :=
  entries.foldl (fun r e => r.register e.1 e.2) []

def lastRegistered? (entries : List (String × Provider)) (name : String) : Option Provider :=
  (entries.reverse.find? fun e => e.1 == name).map Prod.snd

theorem lookup_register (r : Registry) (name other : String) (p : Provider) :
    (r.register name p).lookup other = if name = other then some p else r.lookup other :=
  Keyed.find?_insert r name other p

theorem lastRegistered?_cons (e : String × Provider) (rest : List (String × Provider))
    (name : String) :
    lastRegistered? (e :: rest) name =
      (lastRegistered? rest name).or (if e.1 = name then some e.2 else none) := by
  by_cases h : e.1 = name
  · simp [lastRegistered?, List.find?_append, h]
  · simp [lastRegistered?, List.find?_append, h]

-- The registry that the registrations start from is general, for the induction.
theorem lookup_foldl_register (entries : List (String × Provider)) (r : Registry) (name : String) :
    (entries.foldl (fun r e => r.register e.1 e.2) r).lookup name =
      (lastRegistered? entries name).or (r.lookup name) := by
  induction entries generalizing r with
  | nil => rfl
  | cons e rest ih =>
      rw [List.foldl_cons, ih, lookup_register, lastRegistered?_cons, Option.or_assoc]
      split
      · rfl
      · rfl

theorem lookup_ofRegistrations (entries : List (String × Provider)) (name : String) :
    (ofRegistrations entries).lookup name = lastRegistered? entries name := by
  rw [ofRegistrations, lookup_foldl_register]
  exact Option.or_none

end Registry

theorem provided_congr {r q : Registry} {args others : Keyed Arguments} {name : String}
    (hprovider : r.lookup name = q.lookup name)
    (harguments : (args.find? name).getD [] = (others.find? name).getD []) :
    provided r args name = provided q others name := by
  simp only [provided, hprovider, harguments]

theorem Segment.resolve_congr {s : Segment} {r q : Registry} {args others : Keyed Arguments}
    (h : ∀ name, s.content = .provider name → provided r args name = provided q others name) :
    s.resolve r args = s.resolve q others := by
  have hbody : s.body? r args = s.body? q others := by
    cases hcontent : s.content with
    | literal text => simp only [body?, hcontent]
    | provider name => simp only [body?, hcontent, h name hcontent]
  rw [resolve, resolve, hbody]

namespace Layout

theorem separator_congr (s : Segment) {next other : Option Segment} (set last : SeparatorSet)
    (d : Direction) (h : next.map Segment.bg = other.map Segment.bg) :
    separator s next set last d = separator s other set last d := by
  cases next with
  | none =>
      cases other with
      | none => rfl
      | some o => cases h
  | some n =>
      cases other with
      | none => cases h
      | some o =>
          have hbg : n.bg = o.bg := Option.some.inj h
          simp only [separator, background, Option.map_some, hbg]

theorem leftParts_congr {after other : Option Segment} (set last : SeparatorSet) (xs : List Shown)
    (h : after.map Segment.bg = other.map Segment.bg) :
    leftParts after set last xs = leftParts other set last xs := by
  induction xs with
  | nil => rfl
  | cons x rest ih =>
      have hnext :
          (following after rest).map Segment.bg = (following other rest).map Segment.bg := by
        cases rest with
        | nil => exact h
        | cons y rest => rfl
      rw [leftParts, leftParts, ih, separator_congr x.segment set last _ hnext]

theorem rightParts_congr {before other : Option Segment} (set last : SeparatorSet)
    (xs : List Shown) (h : before.map Segment.bg = other.map Segment.bg) :
    rightParts before set last xs = rightParts other set last xs := by
  cases xs with
  | nil => rfl
  | cons x rest => rw [rightParts, rightParts, separator_congr x.segment set last _ h]

theorem sideExpr_congr (side : Side) (xs : List Shown) {boundary other : Option Segment}
    (set last : SeparatorSet) (h : boundary.map Segment.bg = other.map Segment.bg) :
    sideExpr side xs boundary set last = sideExpr side xs other set last := by
  cases side with
  | left => exact congrArg Expr.concat (leftParts_congr set last xs h)
  | right => exact congrArg Expr.concat (rightParts_congr set last xs h)

theorem windowExpr_congr {b c : Statusbar} (kind : WindowKind) (content : String)
    (hwindows : b.windows = c.windows)
    (hseparator : ∀ side, b.windows.alignment.adjoins side = true → b.separator = c.separator)
    (hlast : ∀ side, b.windows.alignment.adjoins side = true →
      b.endSeparator side = c.endSeparator side) :
    windowExpr b kind content = windowExpr c kind content := by
  cases halign : b.windows.alignment with
  | left =>
      have hset := hseparator .left (by rw [halign]; rfl)
      have hend := hlast .left (by rw [halign]; rfl)
      simp only [windowExpr, ← hwindows, halign, hset, hend]
  | right =>
      have hset := hseparator .right (by rw [halign]; rfl)
      have hend := hlast .right (by rw [halign]; rfl)
      simp only [windowExpr, ← hwindows, halign, hset, hend]
  | center => simp only [windowExpr, ← hwindows, halign]
  | absoluteCenter => simp only [windowExpr, ← hwindows, halign]

end Layout

namespace Statusbar

open Registry (ofRegistrations lastRegistered?)

def argumentsOf (b : Statusbar) (name : String) : Arguments := (b.arguments.find? name).getD []

structure SameSource (b c : Statusbar) (p q : List (String × Provider)) (s : Segment) : Prop where
  provider : ∀ name, s.content = .provider name → lastRegistered? p name = lastRegistered? q name
  arguments : ∀ name, s.content = .provider name → b.argumentsOf name = c.argumentsOf name

structure AgreeOnSide (b c : Statusbar) (p q : List (String × Provider)) (side : Side) : Prop where
  segments : (b.side side).segments = (c.side side).segments
  sources : ∀ s ∈ (b.side side).segments, SameSource b c p q s
  separator : b.separator = c.separator
  last : b.endSeparator side = c.endSeparator side
  alignment : b.windows.alignment = c.windows.alignment
  backgrounds : b.windows.alignment.adjoins side = true →
    ∀ kind, (b.windows.segment kind).bg = (c.windows.segment kind).bg

structure AgreeOnWindow (b c : Statusbar) (p q : List (String × Provider)) (kind : WindowKind) :
    Prop where
  windows : b.windows = c.windows
  source : SameSource b c p q (b.windows.segment kind)
  separator : ∀ side, b.windows.alignment.adjoins side = true → b.separator = c.separator
  last : ∀ side, b.windows.alignment.adjoins side = true →
    b.endSeparator side = c.endSeparator side

variable {b c : Statusbar} {p q : List (String × Provider)}

theorem SameSource.resolve {s : Segment} (h : SameSource b c p q s) :
    b.resolve (ofRegistrations p) s = c.resolve (ofRegistrations q) s := by
  refine Segment.resolve_congr fun name hname => provided_congr ?_ (h.arguments name hname)
  rw [Registry.lookup_ofRegistrations, Registry.lookup_ofRegistrations, h.provider name hname]

theorem shown_congr {r r' : Registry} {side : Side}
    (hsegments : (b.side side).segments = (c.side side).segments)
    (hcontents : ∀ s ∈ (b.side side).segments, b.resolve r s = c.resolve r' s) :
    b.shown r side = c.shown r' side := by
  rw [shown, shown, ← hsegments]
  exact List.filterMap_congr fun s hs => by rw [hcontents s hs]

theorem AgreeOnSide.boundary {side : Side} (h : AgreeOnSide b c p q side) (active : Bool) :
    (b.boundary side active).map Segment.bg = (c.boundary side active).map Segment.bg := by
  cases hadjoins : b.windows.alignment.adjoins side with
  | false => simp only [Statusbar.boundary, ← h.alignment, hadjoins, Bool.false_eq_true, if_false]
  | true =>
      have hbg := h.backgrounds hadjoins (if active then .active else .inactive)
      simp only [Statusbar.boundary, ← h.alignment, hadjoins, if_true, Option.map_some, hbg]

theorem boundary_of_not_adjoins {side : Side} (h : b.windows.alignment.adjoins side = false)
    (active : Bool) : b.boundary side active = none := by
  simp only [boundary, h, Bool.false_eq_true, if_false]

/-- A side is drawn the same from any two status lines and registrations that agree on it, and takes
no notice of the active window unless the windows stand against it; a window is drawn the same from
any two that agree on the window list and its separators. -/
theorem drawn_congr (b c : Statusbar) (p q : List (String × Provider)) :
    (∀ side, AgreeOnSide b c p q side → ∀ active,
      b.sideText (ofRegistrations p) side active = c.sideText (ofRegistrations q) side active) ∧
    (∀ side, b.windows.alignment.adjoins side = false → ∀ active other,
      b.sideText (ofRegistrations p) side active = b.sideText (ofRegistrations p) side other) ∧
    (∀ kind, AgreeOnWindow b c p q kind →
      b.windowText (ofRegistrations p) kind = c.windowText (ofRegistrations q) kind) := by
  refine ⟨?_, ?_, ?_⟩
  · intro side h active
    have hshown : b.shown (ofRegistrations p) side = c.shown (ofRegistrations q) side :=
      shown_congr h.segments fun s hs => (h.sources s hs).resolve
    rw [sideText, sideText, hshown, h.separator, h.last]
    exact congrArg Expr.render (Layout.sideExpr_congr side _ _ _ (h.boundary active))
  · intro side h active other
    rw [sideText, sideText, boundary_of_not_adjoins h, boundary_of_not_adjoins h]
  · intro kind h
    have hcontent : b.resolve (ofRegistrations p) (b.windows.segment kind) =
        c.resolve (ofRegistrations q) (c.windows.segment kind) := by
      rw [h.source.resolve, h.windows]
    rw [windowText, windowText, hcontent]
    exact congrArg Expr.render (Layout.windowExpr_congr kind _ h.windows h.separator h.last)

theorem drawn_congr_of_clock :
    let shows (s : String) : Provider := .constant [.text s]
    let red (s : Segment) : Segment := s.withStyle (Style.empty.withBg (.named .red))
    let clock := Segment.provider "clock"
    let p := [("clock", shows "now"), ("host", shows "h"), ("clock", shows "12:00")]
    let q := [("clock", shows "12:00")]
    let b := { Statusbar.new [clock] [] (.new (red (.literal "w")) clock) with
      arguments := [("host", [("short", .bool true)])] }
    let c := Statusbar.new [clock] [.provider "host"] (.new (red (.provider "host")) clock)
    let d := { Statusbar.new [] [] b.windows with rightEnd := some Preset.flame.glyphs }
    (AgreeOnSide b c p q .left ∧ b.sideText (ofRegistrations p) .left true =
      c.sideText (ofRegistrations q) .left true) ∧
    (b.windows.alignment.adjoins .right = false ∧ b.sideText (ofRegistrations p) .right true =
      b.sideText (ofRegistrations p) .right false) ∧
    (AgreeOnWindow b d p q .inactive ∧ b.windowText (ofRegistrations p) .inactive =
      d.windowText (ofRegistrations q) .inactive) := by
  intro shows red clock p q b c d
  have hclock (x y : Statusbar) (h : x.argumentsOf "clock" = y.argumentsOf "clock") :
      SameSource x y p q clock :=
    ⟨fun name hname => by cases hname; rfl, fun name hname => by cases hname; exact h⟩
  have hside : AgreeOnSide b c p q .left := {
    segments := rfl
    sources := fun s hs => List.mem_singleton.mp hs ▸ hclock b c rfl
    separator := rfl
    last := rfl
    alignment := rfl
    backgrounds := fun _ kind => by cases kind <;> rfl }
  have hwindow : AgreeOnWindow b d p q .inactive := {
    windows := rfl
    source := hclock b d rfl
    separator := fun _ _ => rfl
    last := fun side hside => by cases side <;> first | rfl | cases hside }
  have hadjoins : b.windows.alignment.adjoins .right = false := rfl
  exact ⟨⟨hside, (drawn_congr b c p q).1 .left hside true⟩,
    ⟨hadjoins, (drawn_congr b c p q).2.1 .right hadjoins true false⟩,
    hwindow, (drawn_congr b d p q).2.2 .inactive hwindow⟩

end Statusbar

end StatusLine
