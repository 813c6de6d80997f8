import Mathlib.Algebra.Group.Int.Defs
import Mathlib.Data.List.Induction
import StatusLine.Proofs.Number.Decimal

/-!
Numerals by rules: what is a decimal number and which one, apart from how it is read. The reader of
integers accepts exactly the numerals that may have a sign.
-/

namespace StatusLine.Integer

inductive Numeral : List Char → Nat → Prop
  | digit {d : Nat} (hd : d < 10) : Numeral [d.digitChar] d
  | snoc {ds : List Char} {n d : Nat} (hds : Numeral ds n) (hd : d < 10) :
      Numeral (ds ++ [d.digitChar]) (n * 10 + d)

inductive Signed : List Char → Int → Prop
  | bare {ds : List Char} {n : Nat} (h : Numeral ds n) : Signed ds n
  | plus {ds : List Char} {n : Nat} (h : Numeral ds n) : Signed ('+' :: ds) n
  | minus {ds : List Char} {n : Nat} (h : Numeral ds n) : Signed ('-' :: ds) (-n)

theorem isDigit_digitChar : ∀ d, d < 10 →
    isDigit d.digitChar = true ∧ digitValue d.digitChar = d := by
  decide

theorem digitChar_digitValue {c : Char} (h : isDigit c = true) :
    digitValue c < 10 ∧ (digitValue c).digitChar = c := by
  have hrange := toNat_of_isDigit h
  have hlt : digitValue c < 10 := by
    simp only [digitValue]
    omega
  refine ⟨hlt, Char.toNat_inj.mp ?_⟩
  rw [Nat.toNat_digitChar_of_lt_ten hlt]
  simp only [digitValue]
  omega

theorem Numeral.isDigit {ds : List Char} {n : Nat} (h : Numeral ds n) :
    ∀ c ∈ ds, isDigit c = true := by
  induction h with
  | digit hd => exact List.forall_mem_singleton.mpr (isDigit_digitChar _ hd).1
  | snoc _ hd ih =>
      exact List.forall_mem_append.mpr
        ⟨ih, List.forall_mem_singleton.mpr (isDigit_digitChar _ hd).1⟩

theorem natural?_of_numeral {ds : List Char} {n : Nat} (h : Numeral ds n) :
    natural? ds = some n := by
  have hvalue : ds ≠ [] ∧ accumulate 10 digitValue 0 ds = n := by
    induction h with
    | @digit d hd => exact ⟨by simp, by simp [accumulate, (isDigit_digitChar d hd).2]⟩
    | @snoc ds n d _ hd ih =>
        refine ⟨by simp, ?_⟩
        rw [accumulate_append, ih.2]
        simp [accumulate, (isDigit_digitChar d hd).2]
  have hall : ds.all isDigit = true := List.all_eq_true.mpr h.isDigit
  simp [natural?, hvalue, hall]

-- The last digit is the one that is added, so the induction is from the end of the digits.
theorem numeral_accumulate {ds : List Char} (hne : ds ≠ []) (hall : ∀ c ∈ ds, isDigit c = true) :
    Numeral ds (accumulate 10 digitValue 0 ds) := by
  induction ds using List.reverseRecOn with
  | nil => exact absurd rfl hne
  | append_singleton ds c ih =>
      obtain ⟨hds, hc⟩ := List.forall_mem_append.mp hall
      obtain ⟨hlt, hchar⟩ := digitChar_digitValue (hc c (by simp))
      have hvalue : accumulate 10 digitValue 0 (ds ++ [c]) =
          accumulate 10 digitValue 0 ds * 10 + digitValue c := by
        rw [accumulate_append]
        rfl
      rw [hvalue]
      by_cases hnil : ds = []
      · have hdigit := Numeral.digit hlt
        rw [hchar] at hdigit
        simpa [hnil, accumulate] using hdigit
      · have hsnoc := Numeral.snoc (ih hnil hds) hlt
        rwa [hchar] at hsnoc

theorem natural?_eq_some_iff {ds : List Char} {n : Nat} :
    natural? ds = some n ↔ Numeral ds n := by
  refine ⟨fun h => ?_, natural?_of_numeral⟩
  simp only [natural?, Option.ite_none_right_eq_some, Option.some.injEq, Bool.and_eq_true,
    Bool.not_eq_true', List.isEmpty_eq_false_iff, List.all_eq_true] at h
  obtain ⟨⟨hne, hall⟩, rfl⟩ := h
  exact numeral_accumulate hne hall

theorem read?_of_numeral {ds : List Char} {n : Nat} (h : Numeral ds n) :
    read? ds = some (n : Int) := by
  have hread := natural?_of_numeral h
  rw [read?]
  · rw [hread]
    rfl
  · rintro rest rfl
    cases h.isDigit '+' (by simp)
  · rintro rest rfl
    cases h.isDigit '-' (by simp)

theorem read?_minus (ds : List Char) :
    read? ('-' :: ds) = (natural? ds).map fun n : Nat => -(n : Int) := by
  cases h : natural? ds <;> simp [read?, h]

theorem read?_eq_some_iff {cs : List Char} {v : Int} : read? cs = some v ↔ Signed cs v := by
  constructor
  · intro h
    unfold read? at h
    split at h
    · obtain ⟨n, hn, rfl⟩ := Option.map_eq_some_iff.mp h
      exact .plus (natural?_eq_some_iff.mp hn)
    · rename_i ds
      obtain ⟨n, hn, rfl⟩ := Option.map_eq_some_iff.mp ((read?_minus ds).symm.trans h)
      exact .minus (natural?_eq_some_iff.mp hn)
    · obtain ⟨n, hn, rfl⟩ := Option.map_eq_some_iff.mp h
      exact .bare (natural?_eq_some_iff.mp hn)
  · intro h
    cases h with
    | bare h => exact read?_of_numeral h
    | plus h => exact Option.map_eq_some_iff.mpr ⟨_, natural?_of_numeral h, rfl⟩
    | minus h => rw [read?_minus, natural?_of_numeral h, Option.map_some]

theorem word?_eq_some_iff {cs : List Char} {v : Int} :
    word? cs = some v ↔ Signed cs v ∧ -2 ^ 63 ≤ v ∧ v < 2 ^ 63 := by
  rw [word?, Option.filter_eq_some_iff, read?_eq_some_iff]
  simp [isWord]

end StatusLine.Integer
