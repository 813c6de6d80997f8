import StatusLine.Proofs.Config
import StatusLine.Proofs.Json.Reader

/-!
Arguments, the one part of a configuration where numbers with a fraction stand: other numbers can
take their places, and what is read into arguments is in order.
-/

namespace StatusLine

open Decoder

namespace Json

theorem haveExact_append (a b : List (String × Json)) :
    haveExact (a ++ b) = (haveExact a && haveExact b) := by
  induction a with
  | nil => rfl
  | cons m rest ih => simp [haveExact, ih, Bool.and_assoc]

theorem haveExact_member? (key : String) (x : Option Json) :
    haveExact (member? key x) = x.all isExact := by
  cases x <;> simp [member?, haveExact]

theorem areExact_map {α : Type} {encode : α → Json} (h : ∀ a, (encode a).isExact = true)
    (xs : List α) : areExact (xs.map encode) = true := by
  induction xs with
  | nil => rfl
  | cons x rest ih => simp [areExact, h x, ih]

theorem all_isExact_some {j : Json} (h : j.isExact = true) : (some j).all isExact = true := by
  simp [h]

theorem all_isExact_map {α : Type} {encode : α → Json} (h : ∀ a, (encode a).isExact = true)
    (x : Option α) : (x.map encode).all isExact = true := by
  cases x <;> simp [h]

end Json

open Json (isExact haveExact haveExact_append haveExact_member? areExact_map all_isExact_some
  all_isExact_map)

theorem Json.isExact_string (s : String) : (Json.string s).isExact = true := rfl

theorem Json.isExact_ofInt (i : Int) : (Json.ofInt i).isExact = true := by
  by_cases h : Integer.isWhole i = true
  · rw [Json.ofInt, dif_pos h]
    rfl
  · rw [Json.ofInt, dif_neg h]
    rfl

theorem Color.isExact_json (c : Color) : c.json.isExact = true := rfl

theorem Attribute.isExact_json (a : Attribute) : a.json.isExact = true := rfl

theorem Attribute.isExact_listJson? (as : List Attribute) :
    (Attribute.listJson? as).all isExact = true := by
  cases as with
  | nil => rfl
  | cons a as => exact areExact_map Attribute.isExact_json (a :: as)

theorem Style.isExact_json (s : Style) : s.json.isExact = true := by
  simp [Style.json, isExact, haveExact_append, haveExact_member?,
    all_isExact_map Color.isExact_json, Attribute.isExact_listJson?]

theorem SeparatorSet.isExact_json (s : SeparatorSet) : s.json.isExact = true := by
  simp [SeparatorSet.json, isExact, haveExact]

theorem Segment.isExact_json (s : Segment) : s.json.isExact = true := by
  have hcontent : s.content.member.2.isExact = true := by cases s.content <;> rfl
  simp [Segment.json, isExact, haveExact, haveExact_append, haveExact_member?, hcontent,
    Color.isExact_json, all_isExact_map Style.isExact_json, all_isExact_map Json.isExact_string]

theorem WindowList.isExact_json (w : WindowList) : w.json.isExact = true := by
  simp [WindowList.json, isExact, haveExact, Segment.isExact_json, Alignment.json]

theorem SideConfig.isExact_json (s : SideConfig) : s.json.isExact = true := by
  simp [SideConfig.json, isExact, haveExact, haveExact_member?,
    areExact_map Segment.isExact_json, all_isExact_map Style.isExact_json]

def Statusbar.before (b : Statusbar) : List (Option Json) :=
  [some b.left.json, some b.right.json, some b.windows.json, some b.separator.json,
    b.leftEnd.map SeparatorSet.json, b.rightEnd.map SeparatorSet.json]

def Statusbar.after (b : Statusbar) : List (Option Json) :=
  [some (Json.ofInt b.leftLength.toNat), some (Json.ofInt b.rightLength.toNat), some b.bg.json,
    some b.fg.json, b.style.map Style.json, some (Json.ofInt b.interval.toNat),
    some (.bool b.visible)]

theorem Statusbar.json_eq_append (b : Statusbar) :
    b.json = .object (written Statusbar.record.fields
      (b.before ++ some (Arguments.json b.arguments) :: b.after)) :=
  b.json_eq

theorem Statusbar.before_exact (b : Statusbar) : ∀ x ∈ b.before, x.all isExact = true := by
  simp only [before, List.forall_mem_cons]
  exact ⟨all_isExact_some b.left.isExact_json, all_isExact_some b.right.isExact_json,
    all_isExact_some b.windows.isExact_json, all_isExact_some b.separator.isExact_json,
    all_isExact_map SeparatorSet.isExact_json b.leftEnd,
    all_isExact_map SeparatorSet.isExact_json b.rightEnd, fun _ h => absurd h List.not_mem_nil⟩

theorem Statusbar.after_exact (b : Statusbar) : ∀ x ∈ b.after, x.all isExact = true := by
  simp only [after, List.forall_mem_cons]
  exact ⟨all_isExact_some (Json.isExact_ofInt _), all_isExact_some (Json.isExact_ofInt _),
    all_isExact_some b.bg.isExact_json, all_isExact_some b.fg.isExact_json,
    all_isExact_map Style.isExact_json b.style, all_isExact_some (Json.isExact_ofInt _), rfl,
    fun _ h => absurd h List.not_mem_nil⟩

theorem Options.isExact_json (o : Options) : o.json.isExact = true := by
  simp [Options.json, isExact, haveExact]

namespace Json

variable {f : FiniteReal → FiniteReal}

theorem mapMembers_append (a b : List (String × Json)) :
    mapMembers f (a ++ b) = mapMembers f a ++ mapMembers f b := by
  simp only [mapMembers_eq, List.map_append]

theorem mapReals_written {σ : Type} (fs : List (Decoder.Field σ)) (xs : List (Option Json)) :
    mapReals f (object (written fs xs)) =
      object (written fs (xs.map fun x => x.map (mapReals f))) := by
  have hmembers : mapMembers f (written fs xs) =
      written fs (xs.map fun x => x.map (mapReals f)) := by
    induction fs generalizing xs with
    | nil => rfl
    | cons g fs ih =>
        cases xs with
        | nil => rfl
        | cons x xs =>
            rw [written, mapMembers_append, ih, List.map_cons, written]
            cases x <;> rfl
  exact congrArg object hmembers

theorem mapReals_of_isExact {j : Json} (h : j.isExact = true) : mapReals f j = j :=
  mapReals_eq_self j fun x hx => by
    rw [reals_of_isExact j h] at hx
    cases hx

theorem map_mapReals_of_exact {xs : List (Option Json)} (h : ∀ x ∈ xs, x.all isExact = true) :
    (xs.map fun x => x.map (mapReals f)) = xs := by
  refine (List.map_congr_left fun x hx => ?_).trans (List.map_id xs)
  cases x with
  | none => rfl
  | some j => exact congrArg some (mapReals_of_isExact (by simpa using h _ hx))

theorem inRange_of_isExact {j : Json} (h : j.isExact = true) : j.InRange := by
  rw [InRange, reals_of_isExact j h]
  exact fun _ hx => absurd hx List.not_mem_nil

theorem inRange_written {σ : Type} {fs : List (Decoder.Field σ)} {xs : List (Option Json)}
    (h : ∀ x ∈ xs, ∀ j, x = some j → j.InRange) : (object (written fs xs)).InRange := by
  induction fs generalizing xs with
  | nil => exact fun x hx => absurd hx List.not_mem_nil
  | cons f fs ih =>
      cases xs with
      | nil => exact fun x hx => absurd hx List.not_mem_nil
      | cons x xs =>
          simp only [List.forall_mem_cons] at h
          cases x with
          | none => exact ih h.2
          | some j => exact inRange_object_cons.mpr ⟨h.1 j rfl, ih h.2⟩

theorem inRange_of_exact {xs : List (Option Json)} (h : ∀ x ∈ xs, x.all isExact = true) :
    ∀ x ∈ xs, ∀ j, x = some j → j.InRange := by
  rintro x hx j rfl
  exact inRange_of_isExact (by simpa using h _ hx)

end Json

theorem Statusbar.inRange_json (b : Statusbar) (h : (Arguments.json b.arguments).InRange) :
    b.json.InRange := by
  rw [Statusbar.json_eq_append]
  refine Json.inRange_written ?_
  simp only [List.forall_mem_append, List.forall_mem_cons]
  refine ⟨Json.inRange_of_exact b.before_exact, ?_, Json.inRange_of_exact b.after_exact⟩
  rintro j ⟨⟩
  exact h

theorem Config.inRange_json (c : Config) (h : (Arguments.json c.statusbar.arguments).InRange) :
    c.json.InRange := by
  rw [Config.json_eq]
  refine Json.inRange_written ?_
  simp only [List.forall_mem_cons]
  refine ⟨?_, ?_, fun _ h => absurd h List.not_mem_nil⟩
  · rintro j ⟨⟩
    exact c.statusbar.inRange_json h
  · rintro j ⟨⟩
    exact Json.inRange_of_isExact c.options.isExact_json

def Arguments.mapReals (f : FiniteReal → FiniteReal) (args : Keyed Arguments) : Keyed Arguments :=
  args.map fun e => (e.1, Json.mapMembers f e.2)

theorem Arguments.mapReals_json (f : FiniteReal → FiniteReal) (args : Keyed Arguments) :
    (Arguments.json args).mapReals f = Arguments.json (Arguments.mapReals f args) := by
  simp only [Arguments.json, Json.mapReals, Json.mapMembers_eq, Arguments.mapReals, List.map_map,
    Function.comp_def]

theorem Arguments.mapReals_eq_self {f : FiniteReal → FiniteReal} {args : Keyed Arguments}
    (h : ∀ x ∈ (Arguments.json args).reals, f x = x) : Arguments.mapReals f args = args := by
  refine (List.map_congr_left fun e he => ?_).trans (List.map_id args)
  have hmember : (e.1, Json.object e.2) ∈ args.map fun e => (e.1, Json.object e.2) :=
    List.mem_map_of_mem (f := fun e : String × Arguments => (e.1, Json.object e.2)) he
  rw [Json.mapMembers_eq_self e.2 fun x hx => h x (Json.mem_realsMembers.mpr ⟨_, hmember, hx⟩)]
  rfl

def Statusbar.mapReals (f : FiniteReal → FiniteReal) (b : Statusbar) : Statusbar :=
  { b with arguments := Arguments.mapReals f b.arguments }

theorem Statusbar.mapReals_json (f : FiniteReal → FiniteReal) (b : Statusbar) :
    b.json.mapReals f = (b.mapReals f).json := by
  rw [Statusbar.json_eq_append, Statusbar.json_eq_append, Json.mapReals_written, List.map_append,
    List.map_cons, Json.map_mapReals_of_exact b.before_exact,
    Json.map_mapReals_of_exact b.after_exact, Option.map_some, Arguments.mapReals_json]
  rfl

def Config.mapReals (f : FiniteReal → FiniteReal) (c : Config) : Config :=
  { c with statusbar := c.statusbar.mapReals f }

theorem Config.mapReals_eq_self {f : FiniteReal → FiniteReal} {c : Config}
    (h : ∀ x ∈ (Arguments.json c.statusbar.arguments).reals, f x = x) : c.mapReals f = c := by
  rw [Config.mapReals, Statusbar.mapReals, Arguments.mapReals_eq_self h]

theorem Config.mapReals_json (f : FiniteReal → FiniteReal) (c : Config) :
    c.json.mapReals f = (c.mapReals f).json := by
  rw [Config.json_eq, Config.json_eq, Json.mapReals_written]
  simp only [List.map_cons, List.map_nil, Option.map_some, Statusbar.mapReals_json,
    Json.mapReals_of_isExact c.options.isExact_json]
  rfl

theorem Statusbar.arguments_of_decoder {Q : Node → Prop} {P : Keyed Arguments → Prop}
    (hQ : Inherited Q) (hblank : P [])
    (h : ∀ p node args, Q node → keyed Arguments.decoder p node = .ok args → P args)
    {p : Place} {node : Node} (hnode : Q node) {b : Statusbar}
    (hb : Statusbar.record.decode p node = .ok b) :
    P b.arguments := by
  refine decode_keeps (P := fun b => P b.arguments) hQ ?_ hblank hnode hb
  simp only [Statusbar.record, List.forall_mem_cons]
  refine ⟨?_, ?_, ?_, ?_, ?_, ?_, ?_, ?_, ?_, ?_, ?_, ?_, ?_, ?_,
    fun _ h => absurd h List.not_mem_nil⟩
  case refine_3 => exact Field.keeps_needed fun _ _ _ _ _ _ hs => hs
  case refine_7 => exact Field.keeps_of fun _ _ _ _ hnode hx _ => h _ _ _ hnode hx
  all_goals exact Field.keeps_of fun _ _ _ _ _ _ hs => hs

theorem Config.arguments_of_decoder {Q : Node → Prop} {P : Keyed Arguments → Prop}
    (hQ : Inherited Q) (hblank : P [])
    (h : ∀ p node args, Q node → keyed Arguments.decoder p node = .ok args → P args)
    {p : Place} {node : Node} (hnode : Q node) {c : Config} (hc : Config.decoder p node = .ok c) :
    P c.statusbar.arguments := by
  refine decode_keeps (P := fun c => P c.statusbar.arguments) hQ ?_ hblank hnode hc
  simp only [Config.record, List.forall_mem_cons]
  refine ⟨?_, ?_, fun _ h => absurd h List.not_mem_nil⟩
  · exact Field.keeps_needed fun _ _ _ _ hnode hx _ =>
      Statusbar.arguments_of_decoder hQ hblank h hnode hx
  · exact Field.keeps_of fun _ _ _ _ _ _ hs => hs

theorem Arguments.isOrdered_of_decoder {p : Place} {node : Node} {args : Keyed Arguments}
    (h : keyed Arguments.decoder p node = .ok args) : (Arguments.json args).isOrdered = true := by
  obtain ⟨hsorted, hmembers⟩ := keyed_sorted inherited_true trivial h
  refine Json.isOrdered_object.mpr ⟨(Keyed.sorted_map Json.object).mpr hsorted,
    Json.haveOrdered_iff.mpr fun e he => ?_⟩
  obtain ⟨d, hd, rfl⟩ := List.mem_map.mp he
  obtain ⟨q, n, -, hn⟩ := hmembers d hd
  obtain ⟨hinner, hvalues⟩ := keyed_sorted inherited_true trivial hn
  refine Json.isOrdered_object.mpr ⟨hinner, Json.haveOrdered_iff.mpr fun v hv => ?_⟩
  obtain ⟨q', n', -, hn'⟩ := hvalues v hv
  rw [eq_json_of_json hn']
  exact Node.isOrdered_json n'

theorem Config.isOrdered_of_decoder {p : Place} {node : Node} {c : Config}
    (h : Config.decoder p node = .ok c) :
    (Arguments.json c.statusbar.arguments).isOrdered = true :=
  Config.arguments_of_decoder (P := fun args => (Arguments.json args).isOrdered = true)
    inherited_true rfl (fun _ _ _ _ hargs => Arguments.isOrdered_of_decoder hargs) trivial h

theorem Arguments.inRange_of_decoder {p : Place} {node : Node} (hnode : node.InRange)
    {args : Keyed Arguments} (h : keyed Arguments.decoder p node = .ok args) :
    ∀ x ∈ (Arguments.json args).reals, x.val.isInRange = true := by
  intro x hx
  obtain ⟨e, he, hx⟩ := Json.mem_realsMembers.mp hx
  obtain ⟨d, hd, rfl⟩ := List.mem_map.mp he
  obtain ⟨q, n, hinner, hn⟩ := (keyed_sorted Node.inherited_inRange hnode h).2 d hd
  obtain ⟨v, hv, hx⟩ := Json.mem_realsMembers.mp hx
  obtain ⟨q', n', hvalue, hn'⟩ := (keyed_sorted Node.inherited_inRange hinner hn).2 v hv
  rw [eq_json_of_json hn'] at hx
  exact hvalue x.val (Node.reals_json n' x hx)

theorem Config.inRange_of_decoder {p : Place} {node : Node} (hnode : node.InRange) {c : Config}
    (h : Config.decoder p node = .ok c) :
    ∀ x ∈ (Arguments.json c.statusbar.arguments).reals, x.val.isInRange = true :=
  Config.arguments_of_decoder
    (P := fun args => ∀ x ∈ (Arguments.json args).reals, x.val.isInRange = true)
    Node.inherited_inRange (fun _ h => nomatch h)
    (fun _ _ _ hnode hargs => Arguments.inRange_of_decoder hnode hargs) hnode h

end StatusLine
