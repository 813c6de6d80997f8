import StatusLine.Keyed

namespace StatusLine.Keyed

variable {α : Type}

def Sorted (m : Keyed α) : Prop := m.Pairwise fun a b => a.1 < b.1

instance (m : Keyed α) : Decidable m.Sorted :=
  inferInstanceAs (Decidable (m.Pairwise fun a b => a.1 < b.1))

theorem sorted_map {β : Type} (f : α → β) {m : Keyed α} :
    Sorted (m.map fun e => (e.1, f e.2)) ↔ m.Sorted :=
  List.pairwise_map

theorem lt_of_not_lt {k l : String} (h : ¬ k < l) (hne : k ≠ l) : l < k := by
  have hle : l ≤ k := String.not_lt.mp h
  by_cases hlt : l < k
  · exact hlt
  · exact absurd (String.le_antisymm (String.not_lt.mp hlt) hle) hne

theorem mem_insert {key : String} {value : α} {m : Keyed α} {e : String × α}
    (h : e ∈ insert key value m) : e = (key, value) ∨ e ∈ m := by
  induction m with
  | nil => simpa [insert] using h
  | cons d rest ih =>
      obtain ⟨k, v⟩ := d
      simp only [insert] at h
      split at h
      · exact List.mem_cons.mp h
      · split at h
        · rcases List.mem_cons.mp h with h | h
          · exact .inl h
          · exact .inr (List.mem_cons_of_mem _ h)
        · rcases List.mem_cons.mp h with rfl | h
          · exact .inr List.mem_cons_self
          · exact (ih h).imp_right (List.mem_cons_of_mem _)

theorem sorted_insert (key : String) (value : α) {m : Keyed α} (h : m.Sorted) :
    Sorted (insert key value m) := by
  induction m with
  | nil => simp [insert, Sorted]
  | cons d rest ih =>
      obtain ⟨k, v⟩ := d
      obtain ⟨hhead, htail⟩ := List.pairwise_cons.mp h
      simp only [insert]
      split
      · rename_i hlt
        refine List.pairwise_cons.mpr ⟨?_, h⟩
        intro e he
        rcases List.mem_cons.mp he with rfl | he
        · exact hlt
        · exact String.lt_trans hlt (hhead e he)
      · split
        · rename_i heq
          subst heq
          exact List.pairwise_cons.mpr ⟨hhead, htail⟩
        · rename_i hlt hne
          refine List.pairwise_cons.mpr ⟨?_, ih htail⟩
          intro e he
          rcases mem_insert he with rfl | he
          · exact lt_of_not_lt hlt hne
          · exact hhead e he

theorem sorted_foldl (entries : List (String × α)) {m : Keyed α} (h : m.Sorted) :
    Sorted (entries.foldl (fun m e => insert e.1 e.2 m) m) := by
  induction entries generalizing m with
  | nil => exact h
  | cons e rest ih => exact ih (sorted_insert e.1 e.2 h)

theorem sorted_ofList (entries : List (String × α)) : (ofList entries).Sorted :=
  sorted_foldl entries List.Pairwise.nil

theorem mem_foldl {entries : List (String × α)} {m : Keyed α} {e : String × α}
    (h : e ∈ entries.foldl (fun m e => insert e.1 e.2 m) m) : e ∈ m ∨ e ∈ entries := by
  induction entries generalizing m with
  | nil => exact .inl h
  | cons d rest ih =>
      rcases ih h with h | h
      · rcases mem_insert h with rfl | h
        · exact .inr List.mem_cons_self
        · exact .inl h
      · exact .inr (List.mem_cons_of_mem _ h)

theorem mem_ofList {entries : List (String × α)} {e : String × α} (h : e ∈ ofList entries) :
    e ∈ entries := by
  rcases mem_foldl h with h | h
  · exact absurd h List.not_mem_nil
  · exact h

theorem insert_of_forall_lt (key : String) (value : α) {m : Keyed α}
    (h : ∀ e ∈ m, e.1 < key) : insert key value m = m ++ [(key, value)] := by
  induction m with
  | nil => rfl
  | cons d rest ih =>
      obtain ⟨k, v⟩ := d
      have hk : k < key := h (k, v) List.mem_cons_self
      have hlt : ¬ key < k := String.lt_asymm hk
      have hne : key ≠ k := by
        rintro rfl
        exact String.lt_irrefl key hk
      simp only [insert, hlt, hne, if_false, List.cons_append]
      rw [ih fun e he => h e (List.mem_cons_of_mem _ he)]

theorem foldl_insert (entries : List (String × α)) {m : Keyed α}
    (h : Sorted (m ++ entries)) :
    entries.foldl (fun m e => insert e.1 e.2 m) m = m ++ entries := by
  induction entries generalizing m with
  | nil => simp
  | cons e rest ih =>
      have hlast : ∀ d ∈ m, d.1 < e.1 := fun d hd =>
        (List.pairwise_append.mp h).2.2 d hd e List.mem_cons_self
      have happend : m ++ e :: rest = (m ++ [e]) ++ rest := by simp
      rw [happend] at h ⊢
      rw [List.foldl_cons, insert_of_forall_lt e.1 e.2 hlast]
      exact ih h

theorem ofList_of_sorted {entries : List (String × α)} (h : Sorted entries) :
    ofList entries = entries :=
  foldl_insert entries (m := []) h

end StatusLine.Keyed
