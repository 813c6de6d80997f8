/-!
Maps from texts, kept as lists in the order of their keys with each key once.
-/

namespace StatusLine

abbrev Keyed (α : Type) := List (String × α)

namespace Keyed

variable {α : Type}

def find? (m : Keyed α) (key : String) : Option α := m.lookup key

def insert (key : String) (value : α) : Keyed α → Keyed α
  | [] => [(key, value)]
  | (k, v) :: rest =>
      if key < k then (key, value) :: (k, v) :: rest
      else if key = k then (key, value) :: rest
      else (k, v) :: insert key value rest

def ofList (entries : List (String × α)) : Keyed α :=
  entries.foldl (fun m e => insert e.1 e.2 m) []

def keys (m : Keyed α) : List String := m.map Prod.fst

theorem find?_cons (k : String) (v : α) (rest : Keyed α) (key : String) :
    find? ((k, v) :: rest) key = if k = key then some v else find? rest key := by
  by_cases h : k = key
  · simp [find?, h]
  · simp [find?, List.lookup_cons, h, beq_eq_false_iff_ne.mpr (Ne.symm h)]

theorem find?_insert (m : Keyed α) (key other : String) (value : α) :
    find? (insert key value m) other = if key = other then some value else find? m other := by
  induction m with
  | nil => simp only [insert, find?_cons]
  | cons e rest ih =>
      obtain ⟨k, v⟩ := e
      simp only [insert]
      split
      · rw [find?_cons]
      · split
        · rename_i h
          subst h
          by_cases ho : key = other <;> simp [find?_cons, ho]
        · rename_i h
          simp only [find?_cons, ih]
          by_cases ho : key = other
          · subst ho
            simp [Ne.symm h]
          · simp [ho]

end Keyed

end StatusLine
