import StatusLine.Proofs.Document.Record

/-!
Nodes inside nodes: what a decoder that accepts a node has read inside it, and what of a node it
reads alike when another node stands inside.
-/

namespace StatusLine

open Decoder

namespace Node

def isBranch : Node → Bool
  | .list _ _ => true
  | .tables _ => true
  | .table _ _ => true
  | _ => false

mutual

theorem intact_of_whole : ∀ n : Node, n.whole = true → n.intact = true
  | .null, _ => rfl
  | .bool _, _ => rfl
  | .integer _, _ => rfl
  | .real _, _ => rfl
  | .text _, _ => rfl
  | .moment _, _ => rfl
  | .list items closed, h => by
      simp only [whole, Bool.and_eq_true] at h
      simp [intact, h.1, intactItems_of_wholeItems items h.2]
  | .tables rows, h => intactItems_of_wholeItems rows h
  | .table entries ending, h => by
      simp only [whole, Bool.and_eq_true, decide_eq_true_eq] at h
      simp [intact, h.1, intactEntries_of_wholeEntries entries h.2]

theorem intactItems_of_wholeItems :
    ∀ items : List Node, wholeItems items = true → intactItems items = true
  | [], _ => rfl
  | x :: rest, h => by
      simp only [wholeItems, Bool.and_eq_true] at h
      simp [intactItems, intact_of_whole x h.1, intactItems_of_wholeItems rest h.2]

theorem intactEntries_of_wholeEntries :
    ∀ entries : List (String × Node), wholeEntries entries = true → intactEntries entries = true
  | [], _ => rfl
  | (_, x) :: rest, h => by
      simp only [wholeEntries, Bool.and_eq_true] at h
      simp [intactEntries, intact_of_whole x h.1, intactEntries_of_wholeEntries rest h.2]

end

theorem within_of_mem_items {x : Node} {items : List Node} (hx : x ∈ items)
    (h : wholeItems items = true) : x.whole = true ∧ x.depth ≤ depthItems items := by
  induction items with
  | nil => cases hx
  | cons y rest ih =>
      simp only [wholeItems, Bool.and_eq_true] at h
      simp only [depthItems]
      rcases List.mem_cons.mp hx with rfl | hx
      · exact ⟨h.1, Nat.le_max_left _ _⟩
      · exact ⟨(ih hx h.2).1, Nat.le_trans (ih hx h.2).2 (Nat.le_max_right _ _)⟩

theorem within_of_mem_entries {key : String} {x : Node} {entries : List (String × Node)}
    (hx : (key, x) ∈ entries) (h : wholeEntries entries = true) :
    x.whole = true ∧ x.depth ≤ depthEntries entries := by
  induction entries with
  | nil => cases hx
  | cons e rest ih =>
      simp only [wholeEntries, Bool.and_eq_true] at h
      simp only [depthEntries]
      rcases List.mem_cons.mp hx with rfl | hx
      · exact ⟨h.1, Nat.le_max_left _ _⟩
      · exact ⟨(ih hx h.2).1, Nat.le_trans (ih hx h.2).2 (Nat.le_max_right _ _)⟩

end Node

theorem Decoder.isWhole_iff {p : Place} {n : Node} :
    isWhole p n = true ↔ p.dialect ≠ .jsonText ∨ n.whole = true ∧ p.level + n.depth ≤ deepest := by
  simp [isWhole]

/-- A list or a table with a place for one of its nodes. -/
inductive Hole where
  | entry (before : List (String × Node)) (key : String) (after : List (String × Node))
      (ending : Ending)
  | item (before after : List Node) (closed : Bool)
  | row (before after : List Node)

namespace Hole

def fill : Hole → Node → Node
  | .entry before key after ending, n => .table (before ++ (key, n) :: after) ending
  | .item before after closed, n => .list (before ++ n :: after) closed
  | .row before after, n => .tables (before ++ n :: after)

/-- Nodes around a node, the outermost first. -/
def fillAll (route : List Hole) (n : Node) : Node := route.foldr fill n

theorem isBranch_fill (hole : Hole) (n : Node) : (hole.fill n).isBranch = true := by
  cases hole <;> rfl

theorem isBranch_fillAll (route : List Hole) {n : Node} (h : n.isBranch = true) :
    (fillAll route n).isBranch = true := by
  cases route with
  | nil => exact h
  | cons hole rest => exact isBranch_fill hole (fillAll rest n)

theorem isWhole_of_fill {p : Place} {hole : Hole} {n : Node}
    (h : isWhole p (hole.fill n) = true) : isWhole p.inside n = true := by
  refine isWhole_iff.mpr ((isWhole_iff.mp h).imp_right fun ⟨hwhole, hdepth⟩ => ?_)
  simp only [Place.inside]
  cases hole with
  | entry before key after ending =>
      simp only [fill, Node.whole, Node.depth, Bool.and_eq_true] at hwhole hdepth
      obtain ⟨hn, hle⟩ := Node.within_of_mem_entries List.mem_append_cons_self hwhole.2
      exact ⟨hn, by omega⟩
  | item before after closed =>
      simp only [fill, Node.whole, Node.depth, Bool.and_eq_true] at hwhole hdepth
      obtain ⟨hn, hle⟩ := Node.within_of_mem_items List.mem_append_cons_self hwhole.2
      exact ⟨hn, by omega⟩
  | row before after =>
      simp only [fill, Node.whole, Node.depth] at hwhole hdepth
      obtain ⟨hn, hle⟩ := Node.within_of_mem_items List.mem_append_cons_self hwhole
      exact ⟨hn, by omega⟩

end Hole

namespace Decoder

variable {α β σ : Type}

/-- Whether a decoder accepts nothing that other nodes can stand inside. -/
def Scalar (decode : Decoder α) : Prop :=
  ∀ p n x, decode p n = .ok x → n.isBranch = false

theorem scalar_text : Scalar text := by
  intro p n x h
  cases n <;> first | rfl | cases h

theorem scalar_boolean : Scalar boolean := by
  intro p n x h
  cases n <;> first | rfl | cases h

theorem scalar_below (limit : Nat) (type : String) : Scalar (below limit type) := by
  intro p n x h
  cases n <;> first | rfl | cases h

theorem scalar_word32 : Scalar word32 := by
  intro p n x h
  obtain ⟨y, hy, -⟩ := map_eq_ok.mp h
  exact scalar_below _ _ p n y hy

theorem scalar_spelled (read : String → Except Refusal α) : Scalar (spelled read) := by
  intro p n x h
  cases n <;> first | rfl | cases h

theorem scalar_optional {decode : Decoder α} (hscalar : Scalar decode) :
    Scalar (optional decode) := by
  intro p n x h
  cases n with
  | null => rfl
  | _ =>
      obtain ⟨y, hy, -⟩ := map_eq_ok.mp h
      exact hscalar p _ y hy

/-- Whether a field reads what a decoder reads when other nodes can stand inside. -/
def Field.ReadsAs (f : Field σ) (decode : Decoder α) : Prop :=
  ∃ set : α → σ → σ, ∀ p n s,
    n.isBranch = true → f.read p n s = (decode p n).map fun x => set x s

def Field.Accepts (f : Field σ) (n : Node) : Prop := ∃ p s t, f.read p n s = .ok t

theorem accepts_of_readItems {r : Record σ} {p : Place} {closed : Bool} {i : Nat}
    {fs : List (Field σ)} {before after left : List Node} {n : Node} {s t : σ}
    (h : r.readItems p closed i fs (before ++ n :: after) s = .ok (left, t)) {f : Field σ}
    (hf : fs[before.length]? = some f) : f.Accepts n := by
  induction before generalizing i fs s with
  | nil =>
      cases fs with
      | nil => cases hf
      | cons g fs =>
          cases hf
          obtain ⟨u, hu, -⟩ := bind_eq_ok.mp h
          exact ⟨p, s, u, hu⟩
  | cons m rest ih =>
      cases fs with
      | nil => cases hf
      | cons g fs =>
          obtain ⟨u, -, h⟩ := bind_eq_ok.mp h
          exact ih h hf

theorem accepts_of_table {r : Record σ} {p : Place} {es : List (String × Node)} {ending : Ending}
    {s : σ} (h : r.decode p (.table es ending) = .ok s) {key : String} {n : Node}
    (hn : (key, n) ∈ es) :
    (∃ f, r.field? key = some f ∧ f.Accepts n) ∨ r.field? key = none ∧ r.strict = false := by
  obtain ⟨⟨given, t⟩, hread, -⟩ := bind_eq_ok.mp h
  exact (readEntries_mem hread hn).imp_left fun ⟨f, u, v, hf, hv⟩ => ⟨f, hf, p.inside, u, v, hv⟩

theorem accepts_of_items {r : Record σ} {p : Place} {before after : List Node} {n : Node}
    {closed : Bool} {s : σ} (h : r.ofList p (before ++ n :: after) closed = .ok s) {f : Field σ}
    (hf : r.fields[before.length]? = some f) : f.Accepts n := by
  obtain ⟨⟨left, t⟩, hread, -⟩ := bind_eq_ok.mp h
  exact accepts_of_readItems hread hf

def fieldAt? (r : Record σ) : Hole → Option (Field σ)
  | .entry _ key _ _ => r.field? key
  | .item before _ _ => r.fields[before.length]?
  | .row before _ => r.fields[before.length]?

theorem accepts_of_fill {r : Record σ} {p : Place} {hole : Hole} {n : Node} {s : σ}
    (h : r.decode p (hole.fill n) = .ok s) {f : Field σ} (hf : fieldAt? r hole = some f) :
    f.Accepts n := by
  cases hole with
  | entry before key after ending =>
      rcases accepts_of_table h List.mem_append_cons_self with ⟨g, hg, haccepts⟩ | ⟨hnone, -⟩
      · cases hf.symm.trans hg
        exact haccepts
      · cases hf.symm.trans hnone
  | item before after closed => exact accepts_of_items h hf
  | row before after => exact accepts_of_items h hf

theorem items_accepts {decode : Decoder α} {p : Place} {before after : List Node} {n : Node}
    {xs : List α} (h : items decode p (before ++ n :: after) = .ok xs) :
    ∃ x, decode p n = .ok x := by
  induction before generalizing xs with
  | nil =>
      obtain ⟨x, hx, -⟩ := bind_eq_ok.mp h
      exact ⟨x, hx⟩
  | cons m rest ih =>
      obtain ⟨x, -, h⟩ := bind_eq_ok.mp h
      obtain ⟨ys, hys, -⟩ := bind_eq_ok.mp h
      exact ih hys

/-- What stands behind a name that takes nothing, in each kind of document. -/
def vacant : Decoder Unit := fun p n => if p.dialect = .toml then emptyTable p n else nothing p n

theorem vacant_fill (p : Place) (hole : Hole) (n : Node) : vacant p (hole.fill n) ≠ .ok () := by
  intro h
  simp only [vacant] at h
  split at h
  · cases hole with
    | entry before key after ending => cases before <;> cases h
    | item before after closed => cases before <;> cases h
    | row before after => cases before <;> cases h
  · cases hole <;> cases h

theorem find?_of_variant {all : List α} {name : α → String} {s : String} {a : α}
    (h : variant all name s = .ok a) : (all.find? fun b => name b == s) = some a := by
  simp only [variant] at h
  split at h
  · rename_i hfound
    cases h
    exact hfound
  · cases h

theorem choice_table {all : List α} {name : α → String} {p : Place} {es : List (String × Node)}
    {ending : Ending} {a : α} (h : choice all name p (.table es ending) = .ok a) :
    ∃ key n, es = [(key, n)] ∧ (all.find? fun b => name b == key) = some a ∧
      vacant p n = .ok () := by
  simp only [choice] at h
  split at h
  · rename_i key n hsingle
    obtain ⟨b, hb, h⟩ := bind_eq_ok.mp h
    have hinner : (vacant p n >>= fun _ =>
        if isSingle (.table es ending) then .ok b else .error .malformed) = .ok a := by
      simp only [vacant]
      split at h <;> rename_i hdialect <;> simpa only [hdialect, if_true, if_false] using h
    obtain ⟨⟨⟩, hvacant, hone⟩ := bind_eq_ok.mp hinner
    split at hone
    · rename_i hsole
      cases hone
      rcases es with _ | ⟨e, _ | ⟨d, rest⟩⟩
      · cases hsole
      · cases hsingle
        exact ⟨key, n, rfl, find?_of_variant hb, hvacant⟩
      · cases hsole
    · cases hone
  · cases h

theorem choice_items (all : List α) (name : α → String) (p : Place) (a : α) {n : Node}
    {x : List Node × Bool} (h : items? n = some x) : choice all name p n ≠ .ok a := by
  intro ha
  cases n with
  | list items closed => cases ha
  | tables rows => cases ha
  | _ => cases h

/-- Whether what is read off a node is read off another, where that can be taken as it stands. -/
def Carries (decode : Decoder α) (m n : Node) : Prop :=
  ∀ p x, isWhole p n = true → decode p m = .ok x → decode p n = .ok x

theorem carries_field {f : Field σ} {decode : Decoder α} {m n : Node} (h : Carries decode m n)
    (hf : f.ReadsAs decode) (hm : m.isBranch = true) (hn : n.isBranch = true) {p : Place}
    (hwhole : isWhole p n = true) {s t : σ} (hread : f.read p m s = .ok t) :
    f.read p n s = .ok t := by
  obtain ⟨set, hset⟩ := hf
  rw [hset p m s hm] at hread
  obtain ⟨x, hx, hxt⟩ := map_eq_ok.mp hread
  rw [hset p n s hn]
  exact map_eq_ok.mpr ⟨x, h p x hwhole hx, hxt⟩

theorem readEntries_carries {r : Record σ} {p : Place} {key : String} {f : Field σ}
    (hf : r.field? key = some f) {m n : Node}
    (hread : ∀ s t, f.read p m s = .ok t → f.read p n s = .ok t)
    {before after : List (String × Node)} {seen : List String} {s : σ} {x : List String × σ}
    (h : r.readEntries p (before ++ (key, m) :: after) seen s = .ok x) :
    r.readEntries p (before ++ (key, n) :: after) seen s = .ok x := by
  induction before generalizing seen s with
  | nil =>
      simp only [List.nil_append, Record.readEntries, hf] at h ⊢
      split at h
      · cases h
      · rename_i hfresh
        obtain ⟨t, ht, h⟩ := bind_eq_ok.mp h
        rw [if_neg hfresh]
        exact bind_eq_ok.mpr ⟨t, hread s t ht, h⟩
  | cons e rest ih =>
      obtain ⟨k, l⟩ := e
      cases hg : r.field? k with
      | some g =>
          simp only [List.cons_append, Record.readEntries, hg] at h ⊢
          split at h
          · cases h
          · rename_i hfresh
            obtain ⟨t, ht, h⟩ := bind_eq_ok.mp h
            rw [if_neg hfresh]
            exact bind_eq_ok.mpr ⟨t, ht, ih h⟩
      | none =>
          simp only [List.cons_append, Record.readEntries, hg] at h ⊢
          split at h
          · cases h
          · rename_i hlenient
            rw [if_neg hlenient]
            split at h
            · cases h
            · rename_i hsound
              rw [if_neg hsound]
              exact ih h

theorem readItems_carries {r : Record σ} {p : Place} {closed : Bool} {i : Nat} {f : Field σ}
    {m n : Node} (hread : ∀ s t, f.read p m s = .ok t → f.read p n s = .ok t)
    {fs : List (Field σ)} {before after : List Node} (hf : fs[before.length]? = some f) {s : σ}
    {x : List Node × σ} (h : r.readItems p closed i fs (before ++ m :: after) s = .ok x) :
    r.readItems p closed i fs (before ++ n :: after) s = .ok x := by
  induction before generalizing i fs s with
  | nil =>
      cases fs with
      | nil => cases hf
      | cons g fs =>
          cases hf
          obtain ⟨t, ht, h⟩ := bind_eq_ok.mp h
          exact bind_eq_ok.mpr ⟨t, hread s t ht, h⟩
  | cons l rest ih =>
      cases fs with
      | nil => cases hf
      | cons g fs =>
          obtain ⟨t, ht, h⟩ := bind_eq_ok.mp h
          exact bind_eq_ok.mpr ⟨t, ht, ih hf h⟩

theorem record_carries {r : Record σ} {hole : Hole} {f : Field σ} (hf : fieldAt? r hole = some f)
    {decode : Decoder α} (hreads : f.ReadsAs decode) {m n : Node} (h : Carries decode m n)
    (hm : m.isBranch = true) (hn : n.isBranch = true) :
    Carries r.decode (hole.fill m) (hole.fill n) := by
  intro p x hwhole hx
  have hread (s t : σ) (ht : f.read p.inside m s = .ok t) : f.read p.inside n s = .ok t :=
    carries_field h hreads hm hn (Hole.isWhole_of_fill hwhole) ht
  cases hole with
  | entry before key after ending =>
      obtain ⟨y, hy, hx⟩ := bind_eq_ok.mp hx
      exact bind_eq_ok.mpr ⟨y, readEntries_carries hf hread hy, hx⟩
  | item before after closed =>
      obtain ⟨y, hy, hx⟩ := bind_eq_ok.mp hx
      refine bind_eq_ok.mpr ⟨y, readItems_carries hread hf hy, ?_⟩
      simpa using hx
  | row before after =>
      obtain ⟨y, hy, hx⟩ := bind_eq_ok.mp hx
      refine bind_eq_ok.mpr ⟨y, readItems_carries hread hf hy, ?_⟩
      simpa using hx

theorem readEntries_ignored {r : Record σ} {p : Place} {key : String} {n : Node}
    (hf : r.field? key = none) (hlenient : r.strict = false)
    (hsound : p.dialect = .jsonText → n.intact = true) (before after : List (String × Node))
    (seen : List String) (s : σ) :
    r.readEntries p (before ++ (key, n) :: after) seen s =
      r.readEntries p (before ++ after) seen s := by
  induction before generalizing seen s with
  | nil =>
      have hpass : ¬ (p.dialect = .jsonText ∧ n.intact = false) := fun ⟨hd, hn⟩ => by
        rw [hsound hd] at hn
        cases hn
      simp [Record.readEntries, hf, hlenient, hpass]
  | cons e rest ih =>
      obtain ⟨k, m⟩ := e
      simp only [List.cons_append, Record.readEntries, ih]

theorem decode_ignored {r : Record σ} {p : Place} {key : String} {n : Node}
    (hf : r.field? key = none) (hlenient : r.strict = false)
    (hsound : p.dialect = .jsonText → n.intact = true) (before after : List (String × Node))
    (ending : Ending) :
    r.decode p (.table (before ++ (key, n) :: after) ending) =
      r.decode p (.table (before ++ after) ending) := by
  simp only [Record.decode, entries?, Record.ofEntries,
    readEntries_ignored (p := p.inside) hf hlenient hsound]

end Decoder

end StatusLine
