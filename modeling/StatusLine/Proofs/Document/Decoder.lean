import Mathlib.Algebra.Group.Nat.Defs
import Mathlib.Data.List.Forall2
import StatusLine.Config.Encoder
import StatusLine.Document.Decoder
import StatusLine.Proofs.Document.Node

/-!
Decoders that give values back. `Reads decode j x` says that `j` is read as `x` at every place that
is not too deep for it; there is one lemma for each shape of a decoder.
-/

namespace StatusLine.Decoder

variable {α β : Type}

def Reads (decode : Decoder α) (j : Json) (x : α) : Prop :=
  ∀ p : Place, p.level + j.depth ≤ deepest → decode p (.ofJson j) = .ok x

theorem isWhole_ofJson {p : Place} {j : Json} (h : p.level + j.depth ≤ deepest) :
    isWhole p (.ofJson j) = true := by
  simp [isWhole, Node.whole_ofJson, Node.depth_ofJson, h]

theorem reads_text (s : String) : Reads text (.string s) s := fun _ _ => rfl

theorem reads_boolean (b : Bool) : Reads boolean (.bool b) b := fun _ _ => rfl

theorem below_natCast {limit n : Nat} (type : String) (p : Place) (h : n < limit) :
    below limit type p (.integer n) = .ok n := by
  have hrange : 0 ≤ (n : Int) ∧ (n : Int) < limit := by omega
  rw [below, if_pos hrange, Int.toNat_natCast]

theorem isWhole_natCast {n : Nat} (h : n < 2 ^ 64) : Integer.isWhole n = true := by
  simp only [Integer.isWhole, Bool.and_eq_true, decide_eq_true_eq]
  omega

theorem reads_word32 (n : UInt32) : Reads word32 (Json.ofInt n.toNat) n := by
  intro p _
  have hlt : n.toNat < Nat.pow 2 32 := n.toNat_lt
  have hlimit : Nat.pow 2 32 = 4294967296 := rfl
  rw [Node.ofJson_ofInt (isWhole_natCast (by omega)), word32, below_natCast "u32" p hlt, Except.map,
    UInt32.ofNat_toNat]

theorem word64_eq_ok_iff {p : Place} {j : Json} {n : Nat} :
    word64 p (.ofJson j) = .ok n ↔ n < 2 ^ 64 ∧ j = .ofInt n := by
  have hlimit : Nat.pow 2 64 = 18446744073709551616 := rfl
  constructor
  · intro h
    simp only [word64, below, hlimit] at h
    split at h
    · rename_i i hnode
      split at h
      · rename_i hrange
        obtain rfl : i.toNat = n := by simpa using h
        have hcast : (i.toNat : Int) = i := Int.toNat_of_nonneg hrange.1
        rw [hcast]
        exact ⟨by omega, Node.eq_ofInt_of_ofJson hnode⟩
      · cases h
    · cases h
  · rintro ⟨hlt, hj⟩
    rw [hj, Node.ofJson_ofInt (isWhole_natCast hlt), word64, hlimit,
      below_natCast "usize" p (by omega)]

theorem reads_spelled {read : String → Except Refusal α} {s : String} {x : α}
    (h : read s = .ok x) : Reads (spelled read) (.string s) x := by
  intro p _
  simp only [spelled, text, Node.ofJson, h]
  rfl

theorem reads_choice {all : List α} {name : α → String} {a : α}
    (h : (all.find? fun b => name b == name a) = some a) :
    Reads (choice all name) (.string (name a)) a := by
  intro p _
  simp [choice, variant, Node.ofJson, h]

theorem reads_optional {decode : Decoder α} {j : Json} {x : α} (h : Reads decode j x)
    (hnull : j ≠ .null) : Reads (optional decode) j (some x) := by
  intro p hp
  have hx := h p hp
  have hstep : optional decode p (.ofJson j) = (decode p (.ofJson j)).map some := by
    cases j with
    | null => exact absurd rfl hnull
    | _ => rfl
  rw [hstep, hx, Except.map]

theorem depth_le_of_mem_items {x : Json} {items : List Json} (h : x ∈ items) :
    x.depth ≤ Json.depthItems items := by
  induction items with
  | nil => cases h
  | cons y rest ih =>
      simp only [Json.depthItems]
      rcases List.mem_cons.mp h with rfl | h
      · exact Nat.le_max_left _ _
      · exact Nat.le_trans (ih h) (Nat.le_max_right _ _)

theorem items_of_forall₂ {decode : Decoder α} {p : Place} {js : List Json} {xs : List α}
    (h : List.Forall₂ (fun j x => decode p (.ofJson j) = .ok x) js xs) :
    items decode p (js.map .ofJson) = .ok xs := by
  induction h with
  | nil => rfl
  | cons hx hrest ih =>
      simp only [List.map_cons, items, hx, ih]
      rfl

theorem reads_list_of_forall₂ {decode : Decoder α} {js : List Json} {xs : List α}
    (h : List.Forall₂ (Reads decode) js xs) : Reads (list decode) (.array js) xs := by
  intro p hp
  simp only [Json.depth] at hp
  have hdepth : ∀ j ∈ js, p.inside.level + j.depth ≤ deepest := by
    intro j hj
    have hle := depth_le_of_mem_items hj
    simp only [Place.inside]
    omega
  have hitems : items decode p.inside (js.map .ofJson) = .ok xs := by
    refine items_of_forall₂ ?_
    clear hp
    induction h with
    | nil => exact .nil
    | cons hx hrest ih =>
        simp only [List.forall_mem_cons] at hdepth
        exact .cons (hx p.inside hdepth.1) (ih hdepth.2)
  simp only [Node.ofJson, Node.ofItems_eq, list, items?, hitems]
  rfl

theorem reads_list {decode : Decoder α} {encode : α → Json} {xs : List α}
    (h : ∀ x ∈ xs, Reads decode (encode x) x) :
    Reads (list decode) (.array (xs.map encode)) xs :=
  reads_list_of_forall₂ (List.forall₂_map_left_iff.mpr (List.forall₂_same.mpr h))

theorem depth_le_of_mem_members {e : String × Json} {members : List (String × Json)}
    (h : e ∈ members) : e.2.depth ≤ Json.depthMembers members := by
  induction members with
  | nil => cases h
  | cons m rest ih =>
      simp only [Json.depthMembers]
      rcases List.mem_cons.mp h with rfl | h
      · exact Nat.le_max_left _ _
      · exact Nat.le_trans (ih h) (Nat.le_max_right _ _)

theorem entries_map {decode : Decoder α} {encode : α → Json} {p : Place} {m : Keyed α}
    (h : ∀ e ∈ m, decode p (.ofJson (encode e.2)) = .ok e.2) :
    entries decode p (m.map fun e => (e.1, .ofJson (encode e.2))) = .ok m := by
  induction m with
  | nil => rfl
  | cons e rest ih =>
      have he := h e List.mem_cons_self
      have hrest := ih fun d hd => h d (List.mem_cons_of_mem _ hd)
      simp only [List.map_cons, entries, he, hrest]
      rfl

theorem reads_keyed {decode : Decoder α} (encode : α → Json) {m : Keyed α} (hm : m.Sorted)
    (h : ∀ e ∈ m, Reads decode (encode e.2) e.2) :
    Reads (keyed decode) (.object (m.map fun e => (e.1, encode e.2))) m := by
  intro p hp
  simp only [Json.depth] at hp
  have hentries := entries_map (p := p.inside) fun e he => h e he p.inside (by
    have he : (encode e.2).depth ≤ _ := depth_le_of_mem_members
      (List.mem_map_of_mem (f := fun e => (e.1, encode e.2)) he)
    simp only [Place.inside]
    omega)
  simp only [Node.ofJson, Node.ofMembers_eq, List.map_map, Function.comp_def, keyed, entries?,
    decide_true, hentries]
  exact congrArg Except.ok (Keyed.ofList_of_sorted hm)

theorem reads_json {j : Json} (h : j.isOrdered = true) : Reads json j j := by
  intro p hp
  simp [json, isWhole_ofJson hp, Node.json_ofJson j h]

theorem bind_eq_ok {ε : Type} {x : Except ε α} {f : α → Except ε β} {b : β} :
    (x >>= f) = .ok b ↔ ∃ a, x = .ok a ∧ f a = .ok b := by
  cases x <;> simp [bind, Except.bind]

theorem map_eq_ok {ε : Type} {x : Except ε α} {f : α → β} {b : β} :
    x.map f = .ok b ↔ ∃ a, x = .ok a ∧ f a = b := by
  cases x <;> simp [Except.map]

theorem mapError_eq_ok {ε δ : Type} {x : Except ε α} {f : ε → δ} {a : α} :
    x.mapError f = .ok a ↔ x = .ok a := by
  cases x <;> simp [Except.mapError]

structure Inherited (Q : Node → Prop) : Prop where
  entries : ∀ {node es closed}, entries? node = some (es, closed) → Q node → ∀ e ∈ es, Q e.2
  items : ∀ {node nodes closed}, items? node = some (nodes, closed) → Q node → ∀ n ∈ nodes, Q n

theorem inherited_true : Inherited fun _ => True :=
  ⟨fun _ _ _ _ => trivial, fun _ _ _ _ => trivial⟩

theorem entries_mem {decode : Decoder α} {p : Place}
    {es : List (String × Node)} {xs : List (String × α)} (h : entries decode p es = .ok xs) :
    ∀ e ∈ xs, ∃ d ∈ es, decode p d.2 = .ok e.2 := by
  induction es generalizing xs with
  | nil =>
      cases h
      exact fun e he => absurd he List.not_mem_nil
  | cons d rest ih =>
      rw [entries] at h
      obtain ⟨x, hx, h⟩ := bind_eq_ok.mp h
      obtain ⟨ys, hys, h⟩ := bind_eq_ok.mp h
      cases h
      intro e he
      rcases List.mem_cons.mp he with rfl | he
      · exact ⟨d, List.mem_cons_self, hx⟩
      · obtain ⟨c, hc, hread⟩ := ih hys e he
        exact ⟨c, List.mem_cons_of_mem _ hc, hread⟩

theorem keyed_sorted {decode : Decoder α} {Q : Node → Prop} (hQ : Inherited Q) {p : Place}
    {node : Node} (hnode : Q node) {m : Keyed α} (h : keyed decode p node = .ok m) :
    m.Sorted ∧ ∀ e ∈ m, ∃ q n, Q n ∧ decode q n = .ok e.2 := by
  simp only [keyed] at h
  split at h
  · rename_i hentries
    obtain ⟨xs, hxs, h⟩ := bind_eq_ok.mp h
    split at h
    · cases h
      refine ⟨Keyed.sorted_ofList xs, fun e he => ?_⟩
      obtain ⟨d, hd, hread⟩ := entries_mem hxs e (Keyed.mem_ofList he)
      exact ⟨p.inside, d.2, hQ.entries hentries hnode d hd, hread⟩
    · cases h
  · cases h

theorem eq_json_of_json {p : Place} {node : Node} {j : Json} (h : json p node = .ok j) :
    j = node.json := by
  simp only [json] at h
  split at h
  · cases h
    rfl
  · cases h

end StatusLine.Decoder
