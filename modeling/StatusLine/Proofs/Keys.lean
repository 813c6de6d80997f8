import StatusLine.Proofs.Document.Inside
import StatusLine.Snapshot
import StatusLine.Toml.Document

/-!
The keys of documents. Each table of a document that is accepted has a shape, and in a table of a
strict shape stand no keys but the names of its fields. The window list and the tables of glyphs are
not strict: an unknown key there changes nothing.
-/

namespace StatusLine

open Decoder

/-- What is asked for at a place of a document. `vacant` is what stands behind the name of a
variant, and `free` what is not looked into. -/
inductive Shape where
  | config
  | statusbar
  | side
  | segments
  | segment
  | windows
  | style
  | attrs
  | attr
  | glyphs
  | options
  | alignment
  | border
  | borderLine
  | vacant
  | arguments
  | free
deriving DecidableEq

namespace Shape

def Value : Shape → Type
  | .config => Config
  | .statusbar => Statusbar
  | .side => SideConfig
  | .segments => List Segment
  | .segment => Segment
  | .windows => WindowList
  | .style => Style
  | .attrs => List Attribute
  | .attr => Attribute
  | .glyphs => SeparatorSet
  | .options => Options
  | .alignment => Alignment
  | .border => PaneBorder
  | .borderLine => BorderLine
  | .vacant => Unit
  | .arguments => Keyed Arguments
  | .free => Unit

def decoder : (k : Shape) → Decoder k.Value
  | .config => Config.decoder
  | .statusbar => Statusbar.record.decode
  | .side => SideConfig.decoder
  | .segments => list Segment.decoder
  | .segment => Segment.decoder
  | .windows => WindowList.decoder
  | .style => Style.decoder
  | .attrs => list Attribute.decoder
  | .attr => Attribute.decoder
  | .glyphs => SeparatorSet.decoder
  | .options => Options.record.decode
  | .alignment => Alignment.decoder
  | .border => PaneBorder.decoder
  | .borderLine => BorderLine.decoder
  | .vacant => Decoder.vacant
  | .arguments => keyed Arguments.decoder
  | .free => fun _ _ => .ok ()

def variants {α : Type} (all : List α) (name : α → String) : List (String × Option Shape) :=
  all.map fun a => (name a, some .vacant)

/-- The fields of a table, in the order in which a list that stands for it has them, with what is
asked for at those that can hold a list or a table. -/
def fields : Shape → List (String × Option Shape)
  | .config => [("statusbar", some .statusbar), ("options", some .options)]
  | .statusbar => [("left", some .side), ("right", some .side), ("window_list", some .windows),
      ("separator", some .glyphs), ("left_end_separator", some .glyphs),
      ("right_end_separator", some .glyphs), ("provider_args", some .arguments),
      ("left_max_length", none), ("right_max_length", none), ("default_bg", none),
      ("default_fg", none), ("default_style", some .style), ("status_interval", none),
      ("visible", none)]
  | .side => [("segments", some .segments), ("style", some .style)]
  | .segment => [("text", none), ("provider", none), ("bg", none), ("fg", none),
      ("style", some .style), ("separator", none)]
  | .windows => [("active", some .segment), ("inactive", some .segment),
      ("alignment", some .alignment)]
  | .style => [("fg", none), ("bg", none), ("attrs", some .attrs),
      ("unset_attrs", some .attrs)]
  | .glyphs => [("thick_left", none), ("thick_right", none), ("thin_left", none),
      ("thin_right", none)]
  | .options => [("renumber_windows", none), ("auto_rename_window", none),
      ("auto_rename_format", none), ("pane_border", some .border),
      ("pane_border_line", some .borderLine), ("pane_border_content", none)]
  | .attr => variants Attribute.all Attribute.name
  | .alignment => variants Alignment.all Alignment.name
  | .border => variants PaneBorder.all PaneBorder.name
  | .borderLine => variants BorderLine.all BorderLine.name
  | _ => []

def names (k : Shape) : List String := k.fields.map Prod.fst

def strict : Shape → Bool
  | .windows => false
  | .glyphs => false
  | .arguments => false
  | .free => false
  | _ => true

def item : Shape → Shape
  | .segments => .segment
  | .attrs => .attr
  | _ => .free

def fieldAt? (k : Shape) : Hole → Option (String × Option Shape)
  | .entry _ key _ _ => k.fields.find? (·.1 == key)
  | .item before _ _ => k.fields[before.length]?
  | .row before _ => k.fields[before.length]?

def other? (k : Shape) : Hole → Option Shape
  | .entry _ _ _ _ => if k.strict then none else some .free
  | _ => some k.item

def inner? (k : Shape) (hole : Hole) : Option Shape :=
  match k.fieldAt? hole with
  | some field => field.2
  | none => k.other? hole

def at? : Shape → List Hole → Option Shape
  | k, [] => some k
  | k, hole :: rest => (k.inner? hole).bind fun l => l.at? rest

def Accepts (k : Shape) (n : Node) : Prop := ∃ p x, k.decoder p n = .ok x

end Shape

inductive Asks {σ : Type} : Decoder.Field σ → String × Option Shape → Prop where
  | shape (k : Shape) {f : Decoder.Field σ} (h : f.ReadsAs k.decoder) : Asks f (f.name, some k)
  | scalar {f : Decoder.Field σ} (h : ∀ n, f.Accepts n → n.isBranch = false) : Asks f (f.name, none)

namespace Asks

variable {α σ : Type}

theorem of (k : Shape) (name : String) (set : k.Value → σ → σ) :
    Asks (.of name k.decoder set) (name, some k) :=
  .shape k ⟨set, fun _ _ _ _ => rfl⟩

theorem needed (k : Shape) (name : String) (set : k.Value → σ → σ) :
    Asks (.needed name k.decoder set) (name, some k) :=
  .shape k ⟨set, fun _ _ _ _ => rfl⟩

theorem optional (k : Shape) (name : String) (set : Option k.Value → σ → σ) :
    Asks (.of name (Decoder.optional k.decoder) set) (name, some k) := by
  refine .shape k ⟨fun x => set (some x), fun p n s hn => ?_⟩
  have hmap : Decoder.optional k.decoder p n = (k.decoder p n).map some := by
    cases n <;> first | rfl | cases hn
  simp only [Decoder.Field.of, hmap]
  cases k.decoder p n <;> rfl

theorem scalar_of {decode : Decoder α} (h : Scalar decode) (name : String) (set : α → σ → σ) :
    Asks (.of name decode set) (name, none) := by
  refine .scalar fun n ⟨p, s, t, hread⟩ => ?_
  obtain ⟨x, hx, -⟩ := map_eq_ok.mp hread
  exact h p n x hx

theorem scalar_needed {decode : Decoder α} (h : Scalar decode) (name : String)
    (set : α → σ → σ) : Asks (.needed name decode set) (name, none) := by
  refine .scalar fun n ⟨p, s, t, hread⟩ => ?_
  obtain ⟨x, hx, -⟩ := map_eq_ok.mp hread
  exact h p n x hx

variable {fs : List (Decoder.Field σ)} {slots : List (String × Option Shape)}

theorem find? (h : List.Forall₂ Asks fs slots) (key : String) :
    Option.Rel Asks (fs.find? (·.name == key)) (slots.find? (·.1 == key)) := by
  induction h with
  | nil => exact .none
  | @cons f slot fs slots hasks hrest ih =>
      have hname : slot.1 = f.name := by cases hasks <;> rfl
      simp only [List.find?_cons, hname]
      split
      · exact .some hasks
      · exact ih

theorem getElem? (h : List.Forall₂ Asks fs slots) (i : Nat) :
    Option.Rel Asks fs[i]? slots[i]? := by
  induction h generalizing i with
  | nil => exact .none
  | cons hasks hrest ih =>
      cases i with
      | zero => exact .some hasks
      | succ i => exact ih i

theorem fieldAt? {r : Record σ} {k : Shape} (h : List.Forall₂ Asks r.fields k.fields)
    (hole : Hole) : Option.Rel Asks (Decoder.fieldAt? r hole) (k.fieldAt? hole) := by
  cases hole with
  | entry before key after ending => exact find? h key
  | item before after closed => exact getElem? h before.length
  | row before after => exact getElem? h before.length

theorem map_name_eq (h : List.Forall₂ Asks fs slots) :
    fs.map Decoder.Field.name = slots.map Prod.fst := by
  induction h with
  | nil => rfl
  | cons hasks hrest ih =>
      rw [List.map_cons, List.map_cons, ih]
      cases hasks <;> rfl

theorem names_eq {r : Record σ} {k : Shape} (h : List.Forall₂ Asks r.fields k.fields) :
    r.names = k.names :=
  map_name_eq h

theorem config : List.Forall₂ Asks Config.record.fields Shape.config.fields :=
  .cons (needed .statusbar _ _) (.cons (of .options _ _) .nil)

theorem statusbar : List.Forall₂ Asks Statusbar.record.fields Shape.statusbar.fields := by
  refine .cons (of .side _ _) (.cons (of .side _ _) (.cons (needed .windows _ _) ?_))
  refine .cons (of .glyphs _ _) (.cons (optional .glyphs _ _) (.cons (optional .glyphs _ _) ?_))
  refine .cons (of .arguments _ _) (.cons (scalar_of scalar_word32 _ _) ?_)
  refine .cons (scalar_of scalar_word32 _ _) (.cons (scalar_of (scalar_spelled _) _ _) ?_)
  refine .cons (scalar_of (scalar_spelled _) _ _) (.cons (optional .style _ _) ?_)
  exact .cons (scalar_of scalar_word32 _ _) (.cons (scalar_of scalar_boolean _ _) .nil)

theorem side : List.Forall₂ Asks SideConfig.record.fields Shape.side.fields :=
  .cons (of .segments _ _) (.cons (optional .style _ _) .nil)

theorem segment : List.Forall₂ Asks SegmentDraft.record.fields Shape.segment.fields := by
  refine .cons (scalar_of (scalar_optional scalar_text) _ _) ?_
  refine .cons (scalar_of (scalar_optional scalar_text) _ _) ?_
  refine .cons (scalar_of (scalar_spelled _) _ _) (.cons (scalar_of (scalar_spelled _) _ _) ?_)
  exact .cons (optional .style _ _) (.cons (scalar_of (scalar_optional scalar_text) _ _) .nil)

theorem windows : List.Forall₂ Asks WindowList.record.fields Shape.windows.fields :=
  .cons (needed .segment _ _) (.cons (needed .segment _ _) (.cons (of .alignment _ _) .nil))

theorem style : List.Forall₂ Asks Style.record.fields Shape.style.fields := by
  refine .cons (scalar_of (scalar_optional (scalar_spelled _)) _ _) ?_
  refine .cons (scalar_of (scalar_optional (scalar_spelled _)) _ _) ?_
  exact .cons (of .attrs _ _) (.cons (of .attrs _ _) .nil)

theorem glyphs : List.Forall₂ Asks SeparatorSet.record.fields Shape.glyphs.fields := by
  refine .cons (scalar_needed scalar_text _ _) (.cons (scalar_needed scalar_text _ _) ?_)
  exact .cons (scalar_needed scalar_text _ _) (.cons (scalar_needed scalar_text _ _) .nil)

theorem options : List.Forall₂ Asks Options.record.fields Shape.options.fields := by
  refine .cons (scalar_of scalar_boolean _ _) (.cons (scalar_of scalar_boolean _ _) ?_)
  refine .cons (scalar_of scalar_text _ _) (.cons (of .border _ _) ?_)
  exact .cons (of .borderLine _ _) (.cons (scalar_of scalar_text _ _) .nil)

end Asks

theorem Segment.draft_of_decoder {p : Place} {n : Node} {s : Segment}
    (h : Segment.decoder p n = .ok s) : ∃ d, SegmentDraft.record.decode p n = .ok d := by
  simp only [Segment.decoder] at h
  split at h
  · exact ⟨_, ‹_›⟩
  · cases h

theorem Style.record_of_decoder {p : Place} {n : Node} (hn : n.isBranch = true) {s : Style}
    (h : Style.decoder p n = .ok s) : Style.record.decode ⟨.jsonValue, p.level⟩ n = .ok s := by
  simp only [Style.decoder] at h
  split at h
  · cases n with
    | list items closed => exact mapError_eq_ok.mp h
    | tables rows => exact mapError_eq_ok.mp h
    | table entries ending => exact mapError_eq_ok.mp h
    | _ => cases hn
  · cases h

theorem SeparatorSet.record_of_decoder {p : Place} {n : Node} (hn : n.isBranch = true)
    {s : SeparatorSet} (h : SeparatorSet.decoder p n = .ok s) :
    SeparatorSet.record.decode ⟨.jsonValue, p.level⟩ n = .ok s := by
  simp only [SeparatorSet.decoder] at h
  split at h
  · cases n with
    | table entries ending => exact mapError_eq_ok.mp h
    | list items closed => cases h
    | tables rows => cases h
    | _ => cases hn
  · cases h

namespace Shape

inductive Reading (k : Shape) (n : Node) : Prop where
  | record {σ : Type} (r : Record σ) (hasks : List.Forall₂ Asks r.fields k.fields)
      (hstrict : r.strict = k.strict) (hitem : k.item = .free) (p : Place) (s : σ)
      (h : r.decode p n = .ok s)
  | list (hfields : k.fields = []) (p : Place) (xs : List k.item.Value)
      (h : Decoder.list k.item.decoder p n = .ok xs)
  | choice {α : Type} (all : List α) (name : α → String) (hfields : k.fields = variants all name)
      (p : Place) (a : α) (h : Decoder.choice all name p n = .ok a)
  | vacant (p : Place) (h : Decoder.vacant p n = .ok ())
  | free (hfields : k.fields = []) (hstrict : k.strict = false) (hitem : k.item = .free)

theorem reading_of_accepts {k : Shape} {n : Node} (hn : n.isBranch = true) (h : k.Accepts n) :
    k.Reading n := by
  obtain ⟨p, x, h⟩ := h
  cases k with
  | config => exact .record Config.record Asks.config rfl rfl p x h
  | statusbar => exact .record Statusbar.record Asks.statusbar rfl rfl p x h
  | side => exact .record SideConfig.record Asks.side rfl rfl p x h
  | segments => exact .list rfl p x h
  | segment =>
      obtain ⟨d, hd⟩ := Segment.draft_of_decoder h
      exact .record SegmentDraft.record Asks.segment rfl rfl p d hd
  | windows => exact .record WindowList.record Asks.windows rfl rfl p x h
  | style =>
      have hrecord := Style.record_of_decoder hn h
      exact .record Style.record Asks.style rfl rfl _ x hrecord
  | attrs => exact .list rfl p x h
  | attr => exact .choice Attribute.all Attribute.name rfl p x h
  | glyphs =>
      have hrecord := SeparatorSet.record_of_decoder hn h
      exact .record SeparatorSet.record Asks.glyphs rfl rfl _ x hrecord
  | options => exact .record Options.record Asks.options rfl rfl p x h
  | alignment => exact .choice Alignment.all Alignment.name rfl p x h
  | border => exact .choice PaneBorder.all PaneBorder.name rfl p x h
  | borderLine => exact .choice BorderLine.all BorderLine.name rfl p x h
  | vacant => exact .vacant p h
  | arguments => exact .free rfl rfl rfl
  | free => exact .free rfl rfl rfl

theorem free_accepts (n : Node) : Shape.free.Accepts n := ⟨⟨.toml, 0⟩, (), rfl⟩

theorem inner?_of_fieldAt? {k : Shape} {hole : Hole} {field : String × Option Shape}
    (h : k.fieldAt? hole = some field) : k.inner? hole = field.2 := by
  simp only [inner?, h]

theorem inner?_of_other {k : Shape} {hole : Hole} (h : k.fieldAt? hole = none) :
    k.inner? hole = k.other? hole := by
  simp only [inner?, h]

theorem fieldAt?_of_nil {k : Shape} (h : k.fields = []) (hole : Hole) :
    k.fieldAt? hole = none := by
  cases hole <;> simp [fieldAt?, h]

theorem accepts_of_asks {σ : Type} {f : Decoder.Field σ} {field : String × Option Shape} {n : Node}
    (hasks : Asks f field) (hn : n.isBranch = true) (h : f.Accepts n) :
    ∃ l, field.2 = some l ∧ l.Accepts n := by
  cases hasks with
  | shape l hreads =>
      obtain ⟨p, s, t, h⟩ := h
      obtain ⟨set, hset⟩ := hreads
      rw [hset p n s hn] at h
      obtain ⟨x, hx, -⟩ := map_eq_ok.mp h
      exact ⟨l, rfl, p, x, hx⟩
  | scalar hscalar =>
      rw [hscalar n h] at hn
      cases hn

theorem inner_of_record {σ : Type} {r : Record σ} {k : Shape}
    (hasks : List.Forall₂ Asks r.fields k.fields) (hstrict : r.strict = k.strict)
    (hitem : k.item = .free) {p : Place} {s : σ} {hole : Hole} {n : Node}
    (hn : n.isBranch = true) (h : r.decode p (hole.fill n) = .ok s) :
    ∃ l, k.inner? hole = some l ∧ l.Accepts n := by
  have hrel := Asks.fieldAt? hasks hole
  generalize hf : Decoder.fieldAt? r hole = f?, hfield : k.fieldAt? hole = field? at hrel
  cases hrel with
  | some hfieldAsks =>
      rw [inner?_of_fieldAt? hfield]
      exact accepts_of_asks hfieldAsks hn (accepts_of_fill h hf)
  | none =>
      refine ⟨.free, ?_, free_accepts n⟩
      rw [inner?_of_other hfield]
      cases hole with
      | entry before key after ending =>
          rcases accepts_of_table h List.mem_append_cons_self with ⟨f, hkey, -⟩ | ⟨-, hlenient⟩
          · cases hf.symm.trans hkey
          · rw [other?, ← hstrict, hlenient]
            rfl
      | item before after closed => exact congrArg some hitem
      | row before after => exact congrArg some hitem

theorem inner_of_list {k : Shape} (hfields : k.fields = []) {p : Place} {xs : List k.item.Value}
    {hole : Hole} {n : Node} (h : Decoder.list k.item.decoder p (hole.fill n) = .ok xs) :
    ∃ l, k.inner? hole = some l ∧ l.Accepts n := by
  rw [inner?_of_other (fieldAt?_of_nil hfields hole)]
  cases hole with
  | entry before key after ending => cases h
  | item before after closed =>
      obtain ⟨ys, hys, -⟩ := bind_eq_ok.mp h
      obtain ⟨x, hx⟩ := items_accepts hys
      exact ⟨k.item, rfl, p.inside, x, hx⟩
  | row before after =>
      obtain ⟨ys, hys, -⟩ := bind_eq_ok.mp h
      obtain ⟨x, hx⟩ := items_accepts hys
      exact ⟨k.item, rfl, p.inside, x, hx⟩

theorem find?_variants {α : Type} {all : List α} {name : α → String} {key : String} {a : α}
    (h : (all.find? fun b => name b == key) = some a) :
    (variants all name).find? (·.1 == key) = some (name a, some .vacant) := by
  rw [variants, List.find?_map]
  exact congrArg (Option.map _) h

theorem inner_of_choice {α : Type} {all : List α} {name : α → String} {k : Shape}
    (hfields : k.fields = variants all name) {p : Place} {a : α} {hole : Hole} {n : Node}
    (h : Decoder.choice all name p (hole.fill n) = .ok a) :
    ∃ l, k.inner? hole = some l ∧ l.Accepts n := by
  cases hole with
  | entry before key after ending =>
      obtain ⟨key', m, hsole, hfind, hvacant⟩ := choice_table h
      obtain ⟨rfl, heq⟩ : before = [] ∧ (key, n) = (key', m) := by
        cases before with
        | nil => exact ⟨rfl, (List.cons.inj hsole).1⟩
        | cons e rest => simp at hsole
      cases heq
      have hfield : k.fieldAt? (.entry [] key after ending) = some (name a, some .vacant) := by
        rw [fieldAt?, hfields]
        exact find?_variants hfind
      exact ⟨.vacant, inner?_of_fieldAt? hfield, p, (), hvacant⟩
  | item before after closed => exact absurd h (choice_items all name p a rfl)
  | row before after => exact absurd h (choice_items all name p a rfl)

theorem inner_accepts {k : Shape} {hole : Hole} {n : Node} (hn : n.isBranch = true)
    (h : k.Accepts (hole.fill n)) : ∃ l, k.inner? hole = some l ∧ l.Accepts n := by
  cases reading_of_accepts (Hole.isBranch_fill hole n) h with
  | record r hasks hstrict hitem p s h => exact inner_of_record hasks hstrict hitem hn h
  | list hfields p xs h => exact inner_of_list hfields h
  | choice all name hfields p a h => exact inner_of_choice hfields h
  | vacant p h => exact absurd h (vacant_fill p hole n)
  | free hfields hstrict hitem =>
      refine ⟨.free, ?_, free_accepts n⟩
      rw [inner?_of_other (fieldAt?_of_nil hfields hole)]
      cases hole with
      | entry before key after ending =>
          rw [other?, hstrict]
          rfl
      | item before after closed => exact congrArg some hitem
      | row before after => exact congrArg some hitem

theorem at_accepts {k : Shape} {route : List Hole} {n : Node} (hn : n.isBranch = true)
    (h : k.Accepts (Hole.fillAll route n)) : ∃ l, k.at? route = some l ∧ l.Accepts n := by
  induction route generalizing k with
  | nil => exact ⟨k, rfl, h⟩
  | cons hole rest ih =>
      obtain ⟨l, hl, haccepts⟩ := inner_accepts (Hole.isBranch_fillAll rest hn) h
      obtain ⟨m, hm, hmaccepts⟩ := ih haccepts
      refine ⟨m, ?_, hmaccepts⟩
      rw [at?, hl, Option.bind_some, hm]

theorem keys_known {k : Shape} (hstrict : k.strict = true) {es : List (String × Node)}
    {ending : Ending} (h : k.Accepts (.table es ending)) : ∀ e ∈ es, e.1 ∈ k.names := by
  intro e he
  cases reading_of_accepts rfl h with
  | record r hasks hsame hitem p s h =>
      rcases accepts_of_table h he with ⟨f, hf, -⟩ | ⟨-, hlenient⟩
      · have hname : f.name = e.1 := by simpa using List.find?_some hf
        rw [← Asks.names_eq hasks, ← hname]
        exact List.mem_map_of_mem (List.mem_of_find?_eq_some hf)
      · rw [hsame, hstrict] at hlenient
        cases hlenient
  | list hfields p xs h => cases h
  | choice all name hfields p a h =>
      obtain ⟨key, n, rfl, hfind, -⟩ := choice_table h
      cases List.mem_singleton.mp he
      have hname : name a = key := by simpa using List.find?_some hfind
      rw [names, hfields, ← hname]
      exact List.mem_map_of_mem (List.mem_map_of_mem (List.mem_of_find?_eq_some hfind))
  | vacant p h =>
      obtain ⟨before, after, rfl⟩ := List.append_of_mem he
      exact absurd h (vacant_fill p (.entry before e.1 after ending) e.2)
  | free hfields hlenient hitem =>
      rw [hstrict] at hlenient
      cases hlenient

/-- Whether a table that is not strict can stand at a shape or inside it, arguments apart. -/
def holdsLenient : Shape → Bool
  | .config => true
  | .statusbar => true
  | .windows => true
  | .glyphs => true
  | _ => false

theorem mem_of_fieldAt? {k : Shape} {hole : Hole} {field : String × Option Shape}
    (h : k.fieldAt? hole = some field) : field ∈ k.fields := by
  cases hole with
  | entry before key after ending => exact List.mem_of_find?_eq_some h
  | item before after closed => exact List.mem_of_getElem? h
  | row before after => exact List.mem_of_getElem? h

theorem record_of_holdsLenient {k l : Shape} {name : String} (h : (name, some l) ∈ k.fields)
    (hl : l.holdsLenient = true) : k = .config ∨ k = .statusbar := by
  have hall : ∀ field ∈ k.fields, field.2.all (fun l => !l.holdsLenient) = true ∨
      k = .config ∨ k = .statusbar := by
    cases k <;> decide
  refine (hall _ h).resolve_left fun hnone => ?_
  simp [hl] at hnone

theorem fieldAt?_of_holdsLenient {k l : Shape} {hole : Hole} (h : k.inner? hole = some l)
    (hl : l.holdsLenient = true) : ∃ name, k.fieldAt? hole = some (name, some l) := by
  cases hfield : k.fieldAt? hole with
  | some field =>
      rw [inner?_of_fieldAt? hfield] at h
      exact ⟨field.1, congrArg some (Prod.ext rfl h)⟩
  | none =>
      rw [inner?_of_other hfield] at h
      have hitem : k.item.holdsLenient = false := by cases k <;> rfl
      cases hole with
      | entry before key after ending =>
          rw [other?] at h
          split at h
          · cases h
          · cases h
            cases hl
      | item before after closed =>
          cases h
          rw [hitem] at hl
          cases hl
      | row before after =>
          cases h
          rw [hitem] at hl
          cases hl

theorem carries_of_record {σ : Type} {r : Record σ} {k l : Shape}
    (hasks : List.Forall₂ Asks r.fields k.fields) {hole : Hole} {name : String}
    (hfield : k.fieldAt? hole = some (name, some l)) {m n : Node} (hm : m.isBranch = true)
    (hn : n.isBranch = true) (h : Carries l.decoder m n) :
    Carries r.decode (hole.fill m) (hole.fill n) := by
  have hrel := Asks.fieldAt? hasks hole
  rw [hfield] at hrel
  generalize hf : Decoder.fieldAt? r hole = f? at hrel
  cases hrel with
  | some hfieldAsks =>
      cases hfieldAsks with
      | shape l hreads => exact record_carries hf hreads h hm hn

theorem carries_fillAll {k l : Shape} {route : List Hole} (hat : k.at? route = some l)
    (hl : l.holdsLenient = true) {m n : Node} (hm : m.isBranch = true) (hn : n.isBranch = true)
    (h : Carries l.decoder m n) :
    Carries k.decoder (Hole.fillAll route m) (Hole.fillAll route n) ∧ k.holdsLenient = true := by
  induction route generalizing k with
  | nil =>
      cases hat
      exact ⟨h, hl⟩
  | cons hole rest ih =>
      obtain ⟨i, hi, hat⟩ := Option.bind_eq_some_iff.mp hat
      obtain ⟨hcarries, hholds⟩ := ih hat
      obtain ⟨name, hfield⟩ := fieldAt?_of_holdsLenient hi hholds
      have hm' := Hole.isBranch_fillAll rest hm
      have hn' := Hole.isBranch_fillAll rest hn
      rcases record_of_holdsLenient (mem_of_fieldAt? hfield) hholds with rfl | rfl
      · exact ⟨carries_of_record Asks.config hfield hm' hn' hcarries, rfl⟩
      · exact ⟨carries_of_record Asks.statusbar hfield hm' hn' hcarries, rfl⟩

theorem field?_of_not_mem {σ : Type} {r : Record σ} {k : Shape}
    (hasks : List.Forall₂ Asks r.fields k.fields) {key : String} (h : key ∉ k.names) :
    r.field? key = none := by
  rw [← Asks.names_eq hasks, Record.names] at h
  refine List.find?_eq_none.mpr fun f hf hname => h ?_
  rw [← eq_of_beq hname]
  exact List.mem_map_of_mem hf

theorem carries_ignored {k : Shape} (hk : k = .windows ∨ k = .glyphs) {key : String}
    (hkey : key ∉ k.names) (x : Node) (before after : List (String × Node)) (ending : Ending) :
    Carries k.decoder (.table (before ++ after) ending)
      (.table (before ++ (key, x) :: after) ending) := by
  intro p y hwhole h
  rcases hk with rfl | rfl
  · have hsound : p.dialect = .jsonText → x.intact = true := by
      intro hdialect
      have hnode := (isWhole_iff.mp hwhole).resolve_left (not_not_intro hdialect)
      simp only [Node.whole, Bool.and_eq_true] at hnode
      have hmem := Node.within_of_mem_entries List.mem_append_cons_self hnode.1.2
      exact Node.intact_of_whole x hmem.1
    exact
      (decode_ignored (field?_of_not_mem Asks.windows hkey) rfl hsound before after ending).trans h
  · have hignored := decode_ignored (n := x) (p := ⟨.jsonValue, p.level⟩)
      (field?_of_not_mem Asks.glyphs hkey) rfl (fun h => by cases h) before after ending
    have hrecord := hignored.trans (SeparatorSet.record_of_decoder rfl h)
    simp only [decoder, SeparatorSet.decoder, hwhole, if_true, hrecord]
    rfl

end Shape

inductive Document where
  | config (text : String)
  | snapshot (text : String)

namespace Document

def place : Document → Place
  | .config _ => ⟨.toml, 0⟩
  | .snapshot _ => ⟨.jsonText, 0⟩

def node? : Document → Option Node
  | .config text => Toml.read text
  | .snapshot text => some (Json.read text).1

def decode : Document → Except DocumentError Config
  | .config text => Config.decoder.ofToml text
  | .snapshot text => Snapshot.read text

def IsWellFormed : Document → Prop
  | .config text => (Toml.read text).isSome = true
  | .snapshot text =>
      (Json.read text).2 = true ∧ isWhole ⟨.jsonText, 0⟩ (Json.read text).1 = true

/-- `Extends d e k key`: `e` is the document `d` with an entry more in a table of that shape. -/
inductive Extends (d e : Document) (k : Shape) (key : String) : Prop where
  | intro (route : List Hole) (before after : List (String × Node)) (x : Node) (ending : Ending)
      (hplace : e.place = d.place) (hat : Shape.config.at? route = some k)
      (hd : d.node? = some (Hole.fillAll route (.table (before ++ after) ending)))
      (he : e.node? = some (Hole.fillAll route (.table (before ++ (key, x) :: after) ending)))

theorem decoder_of_decode {d : Document} {c : Config} (h : d.decode = .ok c) {n : Node}
    (hn : d.node? = some n) : Config.decoder d.place n = .ok c := by
  cases d with
  | config text =>
      simp only [node?] at hn
      simp only [decode, ofToml, hn] at h
      exact h
  | snapshot text =>
      cases hn
      simp only [decode, Snapshot.read, ofText] at h
      split at h
      · rename_i hread
        split at h
        · cases h
          exact hread
        · cases h
      · cases h

theorem decode_of_decoder {d : Document} (hd : d.IsWellFormed) {n : Node}
    (hn : d.node? = some n) {c : Config} (h : Config.decoder d.place n = .ok c) :
    d.decode = .ok c := by
  cases d with
  | config text =>
      simp only [node?] at hn
      simp only [decode, ofToml, hn]
      exact h
  | snapshot text =>
      cases hn
      simp only [place] at h
      simp only [decode, Snapshot.read, ofText, h, hd.1, if_true]

theorem isWhole_of_isWellFormed {d : Document} (hd : d.IsWellFormed) {n : Node}
    (hn : d.node? = some n) : isWhole d.place n = true := by
  cases d with
  | config text => rfl
  | snapshot text =>
      cases hn
      exact hd.2

theorem keys_of_decode {d : Document} {c : Config} (h : d.decode = .ok c) {route : List Hole}
    {es : List (String × Node)} {ending : Ending}
    (hn : d.node? = some (Hole.fillAll route (.table es ending))) :
    ∃ k, Shape.config.at? route = some k ∧ (k.strict = true → ∀ e ∈ es, e.1 ∈ k.names) := by
  have haccepts : Shape.config.Accepts (Hole.fillAll route (.table es ending)) :=
    ⟨d.place, c, decoder_of_decode h hn⟩
  obtain ⟨k, hk, htable⟩ := Shape.at_accepts rfl haccepts
  exact ⟨k, hk, fun hstrict => Shape.keys_known hstrict htable⟩

/-- Each table of an accepted document has a shape, and no strict one holds an unknown key, so that
adding one makes a document refused; in the window list or a table of glyphs it changes nothing. -/
theorem unknown_key_refused_iff_strict (d : Document) {c : Config} (h : d.decode = .ok c) :
    (∀ (route : List Hole) (es : List (String × Node)) (ending : Ending),
      d.node? = some (Hole.fillAll route (.table es ending)) →
        ∃ k, Shape.config.at? route = some k ∧ (k.strict = true → ∀ e ∈ es, e.1 ∈ k.names)) ∧
    ∀ (e : Document) (k : Shape) (key : String), d.Extends e k key → key ∉ k.names →
      (k.strict = true → ∃ cause, e.decode = .error cause) ∧
      (k = .windows ∨ k = .glyphs → e.IsWellFormed → e.decode = .ok c) := by
  refine ⟨fun route es ending hn => keys_of_decode h hn, ?_⟩
  rintro e k key ⟨route, before, after, x, ending, hplace, hat, hd, he⟩ hkey
  constructor
  · intro hstrict
    cases hdecode : e.decode with
    | error cause => exact ⟨cause, rfl⟩
    | ok c' =>
        obtain ⟨l, hl, hknown⟩ := keys_of_decode hdecode he
        cases hat.symm.trans hl
        exact absurd (hknown hstrict (key, x) List.mem_append_cons_self) hkey
  · intro hk hformed
    have hlenient : k.holdsLenient = true := by rcases hk with rfl | rfl <;> rfl
    have hcarries := (Shape.carries_fillAll hat hlenient rfl rfl
      (Shape.carries_ignored hk hkey x before after ending)).1
    refine decode_of_decoder hformed he (hcarries e.place c (isWhole_of_isWellFormed hformed he) ?_)
    rw [hplace]
    exact decoder_of_decode h hd

theorem decode_windows :
    (Document.config
      "[statusbar.window_list]\nactive.text = \"a\"\ninactive.text = \"i\"\n").decode =
      .ok (.new (.new [] [] (.new (.literal "a") (.literal "i")))) := by decide +kernel

theorem extends_statusbar :
    (Document.config
        "[statusbar.window_list]\nactive.text = \"a\"\ninactive.text = \"i\"\n").Extends
      (.config ("[statusbar.window_list]\nactive.text = \"a\"\ninactive.text = \"i\"\n" ++
        "[statusbar]\nvisibel = false\n")) .statusbar "visibel" := by
  let segments := [("active", Node.table [("text", .text "a")] .closed),
    ("inactive", Node.table [("text", .text "i")] .closed)]
  refine ⟨[.entry [] "statusbar" [] .closed], [("window_list", .table segments .closed)], [],
    .bool false, .closed, rfl, rfl, ?_, ?_⟩
  · decide +kernel
  · decide +kernel

theorem extends_windows :
    (Document.config
        "[statusbar.window_list]\nactive.text = \"a\"\ninactive.text = \"i\"\n").Extends
      (.config ("[statusbar.window_list]\nactive.text = \"a\"\ninactive.text = \"i\"\n" ++
        "allignment = \"right\"\n")) .windows "allignment" := by
  let segments := [("active", Node.table [("text", .text "a")] .closed),
    ("inactive", Node.table [("text", .text "i")] .closed)]
  refine ⟨[.entry [] "statusbar" [] .closed, .entry [] "window_list" [] .closed], segments, [],
    .text "right", .closed, rfl, rfl, ?_, ?_⟩
  · decide +kernel
  · decide +kernel

theorem unknown_key_refused_iff_strict_misspelt :
    let windows := "[statusbar.window_list]\nactive.text = \"a\"\ninactive.text = \"i\"\n"
    let d : Document := .config windows
    let strict : Document := .config (windows ++ "[statusbar]\nvisibel = false\n")
    let lenient : Document := .config (windows ++ "allignment = \"right\"\n")
    let c := Config.new (.new [] [] (.new (.literal "a") (.literal "i")))
    d.decode = .ok c ∧ d.Extends strict .statusbar "visibel" ∧
      (∃ cause, strict.decode = .error cause) ∧ d.Extends lenient .windows "allignment" ∧
      lenient.IsWellFormed ∧ lenient.decode = .ok c := by
  intro windows d strict lenient c
  have hd : d.decode = .ok c := decode_windows
  have hstrict : d.Extends strict .statusbar "visibel" := extends_statusbar
  have hlenient : d.Extends lenient .windows "allignment" := extends_windows
  have hformed : lenient.IsWellFormed := by
    obtain ⟨route, before, after, x, ending, -, -, -, he⟩ := hlenient
    exact Option.isSome_of_eq_some he
  have hall := (d.unknown_key_refused_iff_strict hd).2
  have hrefused := (hall strict .statusbar "visibel" hstrict (by decide)).1 rfl
  have hkept := (hall lenient .windows "allignment" hlenient (by decide)).2 (.inl rfl)
  exact ⟨hd, hstrict, hrefused, hlenient, hformed, hkept hformed⟩

theorem unknown_key_ignored :
    ¬ ∀ (d e : Document) (c : Config) (k : Shape) (key : String), d.decode = .ok c →
      d.Extends e k key → k ≠ .arguments → k ≠ .free → key ∉ k.names →
        ∃ cause, e.decode = .error cause := by
  intro hrefused
  have he : (Document.config
      ("[statusbar.window_list]\nactive.text = \"a\"\ninactive.text = \"i\"\n" ++
        "allignment = \"right\"\n")).decode =
      .ok (.new (.new [] [] (.new (.literal "a") (.literal "i")))) := by decide +kernel
  obtain ⟨cause, hcause⟩ := hrefused _ _ _ .windows _ decode_windows extends_windows (by decide)
    (by decide) (by decide)
  cases he.symm.trans hcause

end Document

end StatusLine
