import StatusLine.Number.Shortest
import StatusLine.Proofs.Number.Rounding

/-!
The shortest decimal of a double lies at most half a unit of its last place above it.
-/

namespace StatusLine.Binary64

theorem zpow_mul_pow_toNat {a : ℚ} (ha : a ≠ 0) (k : Int) :
    a ^ k * a ^ (-k).toNat = a ^ k.toNat := by
  rw [← zpow_natCast, ← zpow_natCast, ← zpow_add₀ ha]
  congr 1
  omega

theorem sides_le_iff (x : Nat) (unit : Int) (d : Nat) (p : Int) :
    (sides x unit d p).2 ≤ (sides x unit d p).1 ↔ (d : ℚ) * 10 ^ p ≤ x * 2 ^ unit := by
  have hten := zpow_mul_pow_toNat (a := 10) (by norm_num) p
  have htwo := zpow_mul_pow_toNat (a := 2) (by norm_num) unit
  have hpos : (0 : ℚ) < 10 ^ (-p).toNat * 2 ^ (-unit).toNat := by positivity
  have hleft : ((sides x unit d p).2 : ℚ) =
      d * 10 ^ p * (10 ^ (-p).toNat * 2 ^ (-unit).toNat) := by
    simp only [sides, Nat.pow_eq]
    push_cast
    rw [← hten]
    ring
  have hright : ((sides x unit d p).1 : ℚ) =
      x * 2 ^ unit * (10 ^ (-p).toNat * 2 ^ (-unit).toNat) := by
    simp only [sides, Nat.pow_eq]
    push_cast
    rw [← htwo]
    ring
  rw [← @Nat.cast_le ℚ, hleft, hright, mul_le_mul_iff_left₀ hpos]

namespace Interval

variable {i : Interval} {d : Nat} {p : Int}

theorem le_high_of_contains (h : i.contains d p = true) :
    (d : ℚ) * 10 ^ p ≤ i.high * 2 ^ i.unit := by
  refine (sides_le_iff i.high i.unit d p).mp ?_
  unfold contains at h
  simp only at h
  split at h
  · exact (decide_eq_true_eq.mp (Bool.and_eq_true_iff.mp h).2)
  · exact (decide_eq_true_eq.mp (Bool.and_eq_true_iff.mp h).2).le

theorem ne_zero_of_contains (hlow : 0 < i.low) (h : i.contains d p = true) : d ≠ 0 := by
  rintro rfl
  have hpos : 0 < (sides i.low i.unit 0 p).1 :=
    Nat.mul_pos (Nat.mul_pos hlow (Nat.pow_pos (by decide))) (Nat.pow_pos (by decide))
  have hzero : (sides i.low i.unit 0 p).2 = 0 := by simp [sides]
  unfold contains at h
  simp only [hzero] at h
  split at h
  · have hle := decide_eq_true_eq.mp (Bool.and_eq_true_iff.mp h).1
    omega
  · have hlt := decide_eq_true_eq.mp (Bool.and_eq_true_iff.mp h).1
    omega

theorem nearer_eq (i : Interval) (halfway : Halfway) (d : Nat) (p : Int) :
    i.nearer halfway d p = d ∨ i.nearer halfway d p = d + 1 := by
  unfold nearer
  simp only
  split_ifs
  · exact .inl rfl
  · exact .inr rfl
  · cases halfway with
    | even =>
        have hparity : d % 2 = 0 ∨ d % 2 = 1 := by omega
        rcases hparity with h | h <;> simp [Halfway.of, h]
    | up => exact .inr rfl

theorem contains_of_onGrid {halfway : Halfway} {x : Decimal} (h : i.onGrid halfway p = some x) :
    i.contains x.digits x.exponent = true := by
  unfold onGrid at h
  simp only at h
  split at h <;> cases h
  · rename_i hd hnext
    rcases i.nearer_eq halfway ((sides i.value i.unit 1 p).1 / (sides i.value i.unit 1 p).2) p
      with heq | heq <;> rw [heq] <;> assumption
  · assumption
  · assumption

end Interval

theorem shortest_spec (halfway : Halfway) {m : Nat} (hm : m ≠ 0) (e : Int) :
    shortest halfway m e = ⟨0, 0⟩ ∨
      (shortest halfway m e).digits ≠ 0 ∧
        ((shortest halfway m e).digits : ℚ) * 10 ^ (shortest halfway m e).exponent ≤
          (m + 1 / 2) * 2 ^ e := by
  unfold shortest
  simp only
  split
  · rename_i x hx
    obtain ⟨n, -, hgrid⟩ := List.exists_of_findSome?_eq_some hx
    have hcontains := Interval.contains_of_onGrid hgrid
    have hlow : 0 < (interval m e).low := by
      simp only [interval]
      split <;> omega
    refine .inr ⟨Interval.ne_zero_of_contains hlow hcontains, ?_⟩
    have hle := Interval.le_high_of_contains hcontains
    have hhigh : ((interval m e).high : ℚ) * 2 ^ (interval m e).unit = (m + 1 / 2) * 2 ^ e := by
      simp only [interval]
      rw [zpow_sub₀ two_ne_zero]
      push_cast
      ring
    rwa [hhigh] at hle
  · exact .inl rfl

end StatusLine.Binary64
