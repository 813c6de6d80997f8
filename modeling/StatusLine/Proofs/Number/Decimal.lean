import Mathlib.Algebra.Group.Nat.Defs
import Mathlib.Data.List.TakeWhile
import StatusLine.Number.Integer
import StatusLine.Number.Shortest

namespace StatusLine.Integer

open RealNotation (zeros)

theorem isDigit_of_mem_toDigits {n : Nat} {c : Char} (h : c ∈ Nat.toDigits 10 n) :
    isDigit c = true := by
  have hc := Nat.isDigit_of_mem_toDigits (by decide) (by decide) h
  simpa [isDigit, Char.isDigit, Char.le_def] using hc

theorem all_isDigit_toDigits (n : Nat) : (Nat.toDigits 10 n).all isDigit = true :=
  List.all_eq_true.mpr fun _ => isDigit_of_mem_toDigits

theorem accumulate_toDigits (n : Nat) :
    accumulate 10 digitValue 0 (Nat.toDigits 10 n) = n := by
  have h := Nat.ofDigitChars_ten_toDigits (n := n)
  rw [Nat.ofDigitChars_eq_foldl] at h
  simpa [accumulate, digitValue, Nat.mul_comm] using h

theorem natural?_toDigits (n : Nat) : natural? (Nat.toDigits 10 n) = some n := by
  simp [natural?, all_isDigit_toDigits, accumulate_toDigits]

theorem digitChar_of_lt : ∀ d, d < 10 → 0 < d →
    d.digitChar ≠ '0' ∧ isDigit d.digitChar = true := by
  decide

theorem toDigits_head_of_pos {n : Nat} (h : 0 < n) :
    ∃ c rest, Nat.toDigits 10 n = c :: rest ∧ c ≠ '0' ∧ isDigit c = true := by
  induction n using Nat.strongRecOn with
  | _ n ih =>
      by_cases hn : n < 10
      · rw [Nat.toDigits_of_lt_base hn]
        exact ⟨n.digitChar, [], rfl, digitChar_of_lt n hn h⟩
      · obtain ⟨c, rest, heq, hc⟩ := ih (n / 10) (by omega) (by omega)
        rw [Nat.toDigits_of_base_le (by decide) (by omega), heq]
        exact ⟨c, rest ++ [(n % 10).digitChar], rfl, hc⟩

theorem toDigits_eq_cons (n : Nat) :
    ∃ c rest, Nat.toDigits 10 n = c :: rest ∧ isDigit c = true := by
  obtain ⟨c, rest, h⟩ := List.exists_cons_of_ne_nil (Nat.toDigits_ne_nil (n := n) (b := 10))
  exact ⟨c, rest, h, isDigit_of_mem_toDigits (n := n) (by simp [h])⟩

theorem read?_toDigits (n : Nat) : read? (Nat.toDigits 10 n) = some (n : Int) := by
  obtain ⟨c, rest, h, hc⟩ := toDigits_eq_cons n
  have hplus : c ≠ '+' := by rintro rfl; cases hc
  have hminus : c ≠ '-' := by rintro rfl; cases hc
  have hread := natural?_toDigits n
  rw [h] at hread ⊢
  rw [read?]
  · simp [hread]
  · simp [hplus]
  · simp [hminus]

theorem toList_text (n : Nat) : (text n).toList = Nat.toDigits 10 n := by
  have hpos : ¬ ((n : Int) < 0) := by omega
  simp [text, decimal, hpos]

theorem mem_decimal {i : Int} {c : Char} (h : c ∈ decimal i) : c = '-' ∨ isDigit c = true := by
  simp only [decimal] at h
  split at h
  · rcases List.mem_cons.mp h with h | h
    · exact .inl h
    · exact .inr (isDigit_of_mem_toDigits h)
  · exact .inr (isDigit_of_mem_toDigits h)

theorem le_accumulate (ds : List Char) (n : Nat) : n ≤ accumulate 10 digitValue n ds := by
  induction ds generalizing n with
  | nil => exact Nat.le_refl n
  | cons d ds ih =>
      have h := ih (n * 10 + digitValue d)
      simp only [accumulate, List.foldl_cons] at h ⊢
      omega

theorem pow_le_accumulate (ds : List Char) (n : Nat) :
    n * 10 ^ ds.length ≤ accumulate 10 digitValue n ds := by
  induction ds generalizing n with
  | nil => exact (Nat.mul_one n).le
  | cons d ds ih =>
      refine le_trans ?_ (ih (n * 10 + digitValue d))
      rw [List.length_cons, Nat.pow_succ', ← Nat.mul_assoc]
      exact Nat.mul_le_mul_right _ (Nat.le_add_right _ _)

theorem accumulate_append (a b : List Char) (n : Nat) :
    accumulate 10 digitValue n (a ++ b) =
      accumulate 10 digitValue (accumulate 10 digitValue n a) b :=
  List.foldl_append

theorem accumulate_zeros (n k : Nat) :
    accumulate 10 digitValue n (zeros k) = n * 10 ^ k := by
  induction k generalizing n with
  | zero => exact (Nat.mul_one n).symm
  | succ k ih =>
      have hstep := ih (n * 10)
      rw [Nat.pow_succ', ← Nat.mul_assoc, ← hstep]
      rfl

theorem toNat_of_isDigit {c : Char} (h : isDigit c = true) : 48 ≤ c.toNat ∧ c.toNat ≤ 57 := by
  simpa [isDigit, Char.le_def, UInt32.le_iff_toNat_le] using h

theorem digitValue_le {c : Char} (h : isDigit c = true) : digitValue c ≤ 9 := by
  have hrange := toNat_of_isDigit h
  simp only [digitValue]
  omega

theorem digitValue_pos {c : Char} (h : isDigit c = true) (hzero : c ≠ '0') : 0 < digitValue c := by
  have hrange := toNat_of_isDigit h
  have hne : c.toNat ≠ 48 := fun heq => hzero (Char.toNat_inj.mp heq)
  simp only [digitValue]
  omega

theorem accumulate_lt {ds : List Char} (hall : ds.all isDigit = true) (n : Nat) :
    accumulate 10 digitValue n ds < (n + 1) * 10 ^ ds.length := by
  induction ds generalizing n with
  | nil => simp [accumulate]
  | cons d ds ih =>
      simp only [List.all_cons, Bool.and_eq_true] at hall
      have hd := digitValue_le hall.1
      refine lt_of_lt_of_le (ih hall.2 (n * 10 + digitValue d)) ?_
      rw [List.length_cons, Nat.pow_succ', ← Nat.mul_assoc]
      exact Nat.mul_le_mul_right _ (by omega)

theorem pow_le_accumulate_leading {c : Char} {ds : List Char} (h : isDigit c = true)
    (hzero : c ≠ '0') : 10 ^ ds.length ≤ accumulate 10 digitValue 0 (c :: ds) := by
  have hle := pow_le_accumulate ds (0 * 10 + digitValue c)
  have hpos := digitValue_pos h hzero
  exact le_trans (Nat.le_mul_of_pos_left _ (by omega)) hle

theorem all_isDigit_zeros (k : Nat) : (zeros k).all isDigit = true :=
  List.all_eq_true.mpr fun c hc => by
    rw [List.eq_of_mem_replicate hc]
    rfl

theorem exists_zeros (ds : List Char) :
    ∃ k, ds = (ds.reverse.dropWhile (· == '0')).reverse ++ zeros k := by
  have hsplit := congrArg List.reverse (List.takeWhile_append_dropWhile (p := (· == '0'))
    (l := ds.reverse))
  rw [List.reverse_append, List.reverse_reverse] at hsplit
  have hzeros : (ds.reverse.takeWhile (· == '0')).reverse =
      zeros (ds.reverse.takeWhile (· == '0')).length := by
    rw [zeros, ← List.reverse_replicate]
    congr 1
    refine List.eq_replicate_of_mem fun c hc => ?_
    simpa using List.mem_takeWhile_imp hc
  rw [hzeros] at hsplit
  exact ⟨_, hsplit.symm⟩

theorem significant_digits {n : Nat} (h : 0 < n) :
    ∃ c ds k, ((Nat.toDigits 10 n).reverse.dropWhile (· == '0')).reverse = c :: ds ∧ c ≠ '0' ∧
      (c :: ds).all isDigit = true ∧ Nat.toDigits 10 n = c :: ds ++ zeros k := by
  obtain ⟨c, rest, heq, hzero, -⟩ := toDigits_head_of_pos h
  obtain ⟨k, hk⟩ := exists_zeros (Nat.toDigits 10 n)
  have hall := all_isDigit_toDigits n
  cases htrim : ((Nat.toDigits 10 n).reverse.dropWhile (· == '0')).reverse with
  | nil =>
      rw [htrim, List.nil_append, heq] at hk
      have hc : c ∈ zeros k := hk ▸ List.mem_cons_self
      exact absurd (List.eq_of_mem_replicate hc) hzero
  | cons d ds =>
      rw [htrim] at hk
      rw [hk, List.all_append, Bool.and_eq_true] at hall
      obtain rfl : c = d := by
        rw [heq, List.cons_append] at hk
        exact (List.cons.inj hk).1
      exact ⟨c, ds, k, rfl, hzero, hall.1, hk⟩

end StatusLine.Integer
