import StatusLine.Proofs.Document.Decoder
import StatusLine.Proofs.Number.Rounding

namespace StatusLine

namespace Json

mutual

def reals : Json → List FiniteReal
  | .real x => [x]
  | .array items => realsItems items
  | .object members => realsMembers members
  | _ => []

def realsItems : List Json → List FiniteReal
  | [] => []
  | x :: rest => reals x ++ realsItems rest

def realsMembers : List (String × Json) → List FiniteReal
  | [] => []
  | (_, x) :: rest => reals x ++ realsMembers rest

end

mutual

def mapReals (f : FiniteReal → FiniteReal) : Json → Json
  | .real x => .real (f x)
  | .array items => .array (mapItems f items)
  | .object members => .object (mapMembers f members)
  | j => j

def mapItems (f : FiniteReal → FiniteReal) : List Json → List Json
  | [] => []
  | x :: rest => mapReals f x :: mapItems f rest

def mapMembers (f : FiniteReal → FiniteReal) : List (String × Json) → List (String × Json)
  | [] => []
  | (k, x) :: rest => (k, mapReals f x) :: mapMembers f rest

end

variable {f : FiniteReal → FiniteReal}

theorem mem_realsMembers {x : FiniteReal} {members : List (String × Json)} :
    x ∈ realsMembers members ↔ ∃ e ∈ members, x ∈ e.2.reals := by
  induction members with
  | nil => simp [realsMembers]
  | cons e rest ih => simp [realsMembers, ih]

def InRange (j : Json) : Prop := ∀ x ∈ j.reals, x.val.isInRange = true

theorem inRange_real {x : FiniteReal} : (real x).InRange ↔ x.val.isInRange = true := by
  simp [InRange, reals]

theorem inRange_array_cons {j : Json} {rest : List Json} :
    (array (j :: rest)).InRange ↔ j.InRange ∧ (array rest).InRange := by
  simp only [InRange, reals, realsItems, List.forall_mem_append]

theorem inRange_object_cons {e : String × Json} {rest : List (String × Json)} :
    (object (e :: rest)).InRange ↔ e.2.InRange ∧ (object rest).InRange := by
  simp only [InRange, reals, realsMembers, List.forall_mem_append]

theorem mapMembers_eq (members : List (String × Json)) :
    mapMembers f members = members.map fun e => (e.1, mapReals f e.2) := by
  induction members with
  | nil => rfl
  | cons e rest ih => rw [mapMembers, ih, List.map_cons]

mutual

theorem mapReals_eq_self : ∀ j : Json, (∀ x ∈ j.reals, f x = x) → mapReals f j = j
  | .null, _ => rfl
  | .bool _, _ => rfl
  | .whole _, _ => rfl
  | .real x, h => congrArg real (h x List.mem_cons_self)
  | .string _, _ => rfl
  | .array items, h => congrArg array (mapItems_eq_self items h)
  | .object members, h => congrArg object (mapMembers_eq_self members h)

theorem mapItems_eq_self :
    ∀ items : List Json, (∀ x ∈ realsItems items, f x = x) → mapItems f items = items
  | [], _ => rfl
  | j :: rest, h => by
      simp only [realsItems, List.forall_mem_append] at h
      rw [mapItems, mapReals_eq_self j h.1, mapItems_eq_self rest h.2]

theorem mapMembers_eq_self :
    ∀ members : List (String × Json), (∀ x ∈ realsMembers members, f x = x) →
      mapMembers f members = members
  | [], _ => rfl
  | (_, j) :: rest, h => by
      simp only [realsMembers, List.forall_mem_append] at h
      rw [mapMembers, mapReals_eq_self j h.1, mapMembers_eq_self rest h.2]

end

mutual

theorem depth_mapReals : ∀ j : Json, (mapReals f j).depth = j.depth
  | .null => rfl
  | .bool _ => rfl
  | .whole _ => rfl
  | .real _ => rfl
  | .string _ => rfl
  | .array items => by simp [mapReals, depth, depthItems_mapItems items]
  | .object members => by simp [mapReals, depth, depthMembers_mapMembers members]

theorem depthItems_mapItems : ∀ items : List Json, depthItems (mapItems f items) = depthItems items
  | [] => rfl
  | x :: rest => by simp [mapItems, depthItems, depth_mapReals x, depthItems_mapItems rest]

theorem depthMembers_mapMembers :
    ∀ members : List (String × Json), depthMembers (mapMembers f members) = depthMembers members
  | [] => rfl
  | (_, x) :: rest => by
      simp [mapMembers, depthMembers, depth_mapReals x, depthMembers_mapMembers rest]

end

mutual

theorem isOrdered_mapReals : ∀ j : Json, (mapReals f j).isOrdered = j.isOrdered
  | .null => rfl
  | .bool _ => rfl
  | .whole _ => rfl
  | .real _ => rfl
  | .string _ => rfl
  | .array items => by simp [mapReals, isOrdered, areOrdered_mapItems items]
  | .object members => by
      have hsorted : Keyed.Sorted (mapMembers f members) ↔ Keyed.Sorted members := by
        rw [mapMembers_eq]
        exact Keyed.sorted_map (mapReals f)
      simp [mapReals, isOrdered, hsorted, haveOrdered_mapMembers members]

theorem areOrdered_mapItems : ∀ items : List Json, areOrdered (mapItems f items) = areOrdered items
  | [] => rfl
  | x :: rest => by simp [mapItems, areOrdered, isOrdered_mapReals x, areOrdered_mapItems rest]

theorem haveOrdered_mapMembers :
    ∀ members : List (String × Json), haveOrdered (mapMembers f members) = haveOrdered members
  | [] => rfl
  | (_, x) :: rest => by
      simp [mapMembers, haveOrdered, isOrdered_mapReals x, haveOrdered_mapMembers rest]

end

end Json

namespace Node

mutual

def reals : Node → List Binary64
  | .real x => [x]
  | .list items _ => realsItems items
  | .tables rows => realsItems rows
  | .table entries _ => realsEntries entries
  | _ => []

def realsItems : List Node → List Binary64
  | [] => []
  | x :: rest => reals x ++ realsItems rest

def realsEntries : List (String × Node) → List Binary64
  | [] => []
  | (_, x) :: rest => reals x ++ realsEntries rest

end

def InRange (n : Node) : Prop := ∀ x ∈ n.reals, x.isInRange = true

theorem inRange_of_reals_nil {n : Node} (h : n.reals = []) : n.InRange := by
  rw [InRange, h]
  exact fun _ hx => absurd hx List.not_mem_nil

theorem inRange_real {x : Binary64} : (real x).InRange ↔ x.isInRange = true := by
  simp [InRange, reals]

theorem mem_realsItems {x : Binary64} {items : List Node} :
    x ∈ realsItems items ↔ ∃ n ∈ items, x ∈ n.reals := by
  induction items with
  | nil => simp [realsItems]
  | cons n rest ih => simp [realsItems, ih]

theorem mem_realsEntries {x : Binary64} {entries : List (String × Node)} :
    x ∈ realsEntries entries ↔ ∃ e ∈ entries, x ∈ e.2.reals := by
  induction entries with
  | nil => simp [realsEntries]
  | cons e rest ih => simp [realsEntries, ih]

theorem inRange_items {items : List Node} :
    (∀ x ∈ realsItems items, x.isInRange = true) ↔ ∀ n ∈ items, n.InRange := by
  simp only [mem_realsItems, InRange]
  exact ⟨fun h n hn x hx => h x ⟨n, hn, hx⟩, fun h x ⟨n, hn, hx⟩ => h n hn x hx⟩

theorem inRange_entries {entries : List (String × Node)} :
    (∀ x ∈ realsEntries entries, x.isInRange = true) ↔ ∀ e ∈ entries, e.2.InRange := by
  simp only [mem_realsEntries, InRange]
  exact ⟨fun h e he x hx => h x ⟨e, he, hx⟩, fun h x ⟨e, he, hx⟩ => h e he x hx⟩

mutual

theorem reals_json : ∀ (n : Node) (x : FiniteReal), x ∈ n.json.reals → x.val ∈ n.reals
  | .null, _, h => by simp [json, Json.reals] at h
  | .bool _, _, h => by simp [json, Json.reals] at h
  | .integer i, _, h => by
      simp only [json, Json.ofInt] at h
      split at h <;> simp [Json.reals] at h
  | .real y, x, h => by
      simp only [json, Json.ofReal] at h
      split at h
      · simp only [Json.reals, List.mem_singleton] at h
        simp [h, reals]
      · simp [Json.reals] at h
  | .text _, _, h => by simp [json, Json.reals] at h
  | .moment _, _, h => by simp [json, Json.reals, Json.realsMembers] at h
  | .list items _, x, h => realsItems_jsonItems items x h
  | .tables rows, x, h => realsItems_jsonItems rows x h
  | .table entries _, x, h => by
      obtain ⟨e, he, hx⟩ := Json.mem_realsMembers.mp h
      exact realsEntries_jsonEntries entries x
        (Json.mem_realsMembers.mpr ⟨e, Keyed.mem_ofList he, hx⟩)
  | .valueless, _, h => by simp [json, Json.reals] at h
  | .missing, _, h => by simp [json, Json.reals] at h

theorem realsItems_jsonItems :
    ∀ (items : List Node) (x : FiniteReal), x ∈ Json.realsItems (jsonItems items) →
      x.val ∈ realsItems items
  | [], _, h => by simp [jsonItems, Json.realsItems] at h
  | n :: rest, x, h => by
      rw [jsonItems, Json.realsItems, List.mem_append] at h
      rw [realsItems, List.mem_append]
      exact h.imp (reals_json n x) (realsItems_jsonItems rest x)

theorem realsEntries_jsonEntries :
    ∀ (entries : List (String × Node)) (x : FiniteReal),
      x ∈ Json.realsMembers (jsonEntries entries) → x.val ∈ realsEntries entries
  | [], _, h => by simp [jsonEntries, Json.realsMembers] at h
  | (_, n) :: rest, x, h => by
      rw [jsonEntries, Json.realsMembers, List.mem_append] at h
      rw [realsEntries, List.mem_append]
      exact h.imp (reals_json n x) (realsEntries_jsonEntries rest x)

end

theorem inherited_inRange : Decoder.Inherited InRange where
  entries {node es closed} h hnode := by
    unfold Decoder.entries? at h
    split at h <;> cases h
    · exact inRange_entries.mp hnode
    · simp [InRange, reals]
  items {node nodes closed} h hnode := by
    unfold Decoder.items? at h
    split at h <;> cases h
    · exact inRange_items.mp hnode
    · exact inRange_items.mp hnode

end Node

end StatusLine
