import StatusLine.Document.Node
import StatusLine.Proofs.Keyed

namespace StatusLine

namespace Json

mutual

def depth : Json → Nat
  | .array items => depthItems items + 1
  | .object members => depthMembers members + 1
  | _ => 0

def depthItems : List Json → Nat
  | [] => 0
  | x :: rest => max (depth x) (depthItems rest)

def depthMembers : List (String × Json) → Nat
  | [] => 0
  | (_, x) :: rest => max (depth x) (depthMembers rest)

end

mutual

/-- Whether each key of an object stands once and in its place, in every object of a value. -/
def isOrdered : Json → Bool
  | .array items => areOrdered items
  | .object members => decide (Keyed.Sorted members) && haveOrdered members
  | _ => true

def areOrdered : List Json → Bool
  | [] => true
  | x :: rest => isOrdered x && areOrdered rest

def haveOrdered : List (String × Json) → Bool
  | [] => true
  | (_, x) :: rest => isOrdered x && haveOrdered rest

end

theorem isOrdered_object {members : List (String × Json)} :
    (object members).isOrdered = true ↔ Keyed.Sorted members ∧ haveOrdered members = true := by
  simp [isOrdered]

theorem haveOrdered_iff {members : List (String × Json)} :
    haveOrdered members = true ↔ ∀ e ∈ members, e.2.isOrdered = true := by
  induction members with
  | nil => simp [haveOrdered]
  | cons m rest ih => simp [haveOrdered, ih]

end Json

namespace Node

open Json (isOrdered areOrdered haveOrdered)

theorem ofJson_ofInt {i : Int} (h : Integer.isWhole i = true) : ofJson (.ofInt i) = .integer i := by
  rw [Json.ofInt, dif_pos h, ofJson]

theorem eq_ofInt_of_ofJson {j : Json} {i : Int} (h : ofJson j = .integer i) : j = .ofInt i := by
  cases j with
  | whole n =>
      obtain ⟨val, fits⟩ := n
      obtain rfl : val = i := by simpa [ofJson] using h
      rw [Json.ofInt, dif_pos fits]
  | _ => simp [ofJson] at h

theorem ofItems_eq (items : List Json) : ofItems items = items.map ofJson := by
  induction items with
  | nil => rfl
  | cons x rest ih => rw [ofItems, ih, List.map_cons]

theorem ofMembers_eq (members : List (String × Json)) :
    ofMembers members = members.map fun m => (m.1, ofJson m.2) := by
  induction members with
  | nil => rfl
  | cons m rest ih => rw [ofMembers, ih, List.map_cons]

mutual

theorem whole_ofJson : ∀ j : Json, (ofJson j).whole = true
  | .null => rfl
  | .bool _ => rfl
  | .whole _ => rfl
  | .real _ => rfl
  | .string _ => rfl
  | .array items => by simp [ofJson, whole, wholeItems_ofItems items]
  | .object members => by simp [ofJson, whole, wholeEntries_ofMembers members]

theorem wholeItems_ofItems : ∀ items : List Json, wholeItems (ofItems items) = true
  | [] => rfl
  | x :: rest => by simp [ofItems, wholeItems, whole_ofJson x, wholeItems_ofItems rest]

theorem wholeEntries_ofMembers :
    ∀ members : List (String × Json), wholeEntries (ofMembers members) = true
  | [] => rfl
  | (_, x) :: rest => by simp [ofMembers, wholeEntries, whole_ofJson x, wholeEntries_ofMembers rest]

end

mutual

theorem depth_ofJson : ∀ j : Json, (ofJson j).depth = j.depth
  | .null => rfl
  | .bool _ => rfl
  | .whole _ => rfl
  | .real _ => rfl
  | .string _ => rfl
  | .array items => by simp [ofJson, depth, Json.depth, depthItems_ofItems items]
  | .object members => by simp [ofJson, depth, Json.depth, depthEntries_ofMembers members]

theorem depthItems_ofItems : ∀ items : List Json, depthItems (ofItems items) = Json.depthItems items
  | [] => rfl
  | x :: rest => by
      simp [ofItems, depthItems, Json.depthItems, depth_ofJson x, depthItems_ofItems rest]

theorem depthEntries_ofMembers :
    ∀ members : List (String × Json), depthEntries (ofMembers members) = Json.depthMembers members
  | [] => rfl
  | (_, x) :: rest => by
      simp [ofMembers, depthEntries, Json.depthMembers, depth_ofJson x, depthEntries_ofMembers rest]

end

mutual

theorem json_ofJson : ∀ j : Json, j.isOrdered = true → (ofJson j).json = j
  | .null, _ => rfl
  | .bool _, _ => rfl
  | .whole n, _ => by simp [ofJson, json, Json.ofInt, n.fits]
  | .real x, _ => by simp [ofJson, json, Json.ofReal, x.finite]
  | .string _, _ => rfl
  | .array items, h => by
      simp only [isOrdered] at h
      simp [ofJson, json, jsonItems_ofItems items h]
  | .object members, h => by
      obtain ⟨hsorted, hmembers⟩ := Json.isOrdered_object.mp h
      simp only [ofJson, json, jsonEntries_ofMembers members hmembers,
        Keyed.ofList_of_sorted hsorted]

theorem jsonItems_ofItems :
    ∀ items : List Json, areOrdered items = true → jsonItems (ofItems items) = items
  | [], _ => rfl
  | x :: rest, h => by
      simp only [areOrdered, Bool.and_eq_true] at h
      simp [ofItems, jsonItems, json_ofJson x h.1, jsonItems_ofItems rest h.2]

theorem jsonEntries_ofMembers :
    ∀ members : List (String × Json),
      haveOrdered members = true → jsonEntries (ofMembers members) = members
  | [], _ => rfl
  | (_, x) :: rest, h => by
      simp only [haveOrdered, Bool.and_eq_true] at h
      simp [ofMembers, jsonEntries, json_ofJson x h.1, jsonEntries_ofMembers rest h.2]

end

theorem isOrdered_ofInt (i : Int) : (Json.ofInt i).isOrdered = true := by
  simp only [Json.ofInt]
  split <;> rfl

theorem isOrdered_ofReal (x : Binary64) : (Json.ofReal x).isOrdered = true := by
  simp only [Json.ofReal]
  split <;> rfl

theorem isOrdered_ofList {members : List (String × Json)} (h : haveOrdered members = true) :
    (Json.object (Keyed.ofList members)).isOrdered = true := by
  have hmembers := Json.haveOrdered_iff.mp h
  exact Json.isOrdered_object.mpr ⟨Keyed.sorted_ofList members,
    Json.haveOrdered_iff.mpr fun e he => hmembers e (Keyed.mem_ofList he)⟩

mutual

theorem isOrdered_json : ∀ n : Node, n.json.isOrdered = true
  | .null => rfl
  | .bool _ => rfl
  | .integer i => isOrdered_ofInt i
  | .real x => isOrdered_ofReal x
  | .text _ => rfl
  | .moment s => by simp [json, isOrdered, Keyed.Sorted, haveOrdered]
  | .list items _ => areOrdered_jsonItems items
  | .tables rows => areOrdered_jsonItems rows
  | .table entries _ => isOrdered_ofList (haveOrdered_jsonEntries entries)
  | .valueless => rfl
  | .missing => rfl

theorem areOrdered_jsonItems : ∀ items : List Node, areOrdered (jsonItems items) = true
  | [] => rfl
  | x :: rest => by
      simp [jsonItems, areOrdered, isOrdered_json x, areOrdered_jsonItems rest]

theorem haveOrdered_jsonEntries :
    ∀ entries : List (String × Node), haveOrdered (jsonEntries entries) = true
  | [] => rfl
  | (_, x) :: rest => by
      simp [jsonEntries, haveOrdered, isOrdered_json x, haveOrdered_jsonEntries rest]

end

end Node

end StatusLine
