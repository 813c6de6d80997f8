import Mathlib.Algebra.Order.Field.Power
import Mathlib.Tactic.FieldSimp
import Mathlib.Tactic.Linarith
import Mathlib.Tactic.NormNum
import Mathlib.Tactic.Positivity
import Mathlib.Tactic.Ring
import StatusLine.Number.Binary64

/-!
Doubles as rational numbers: a quotient is rounded by at most half a unit of its last place, and
stays finite below the number half-way to the next power of two.
-/

namespace StatusLine.Binary64

def magnitude : Binary64 → ℚ
  | .finite _ m e => m * 2 ^ e
  | _ => 0

/-- Half-way between the largest double and the next power of two. -/
def edge : ℚ := (2 ^ 53 - 1 / 2) * 2 ^ mostExponent

def isInRange : Binary64 → Bool
  | .finite _ m e => decide (m < 2 ^ 53) && decide (e ≤ mostExponent)
  | _ => true

theorem roundDiv_bounds (num : Nat) {den : Nat} (h : 0 < den) :
    2 * (den * roundDiv num den) ≤ 2 * num + den ∧
      2 * num ≤ 2 * (den * roundDiv num den) + den := by
  have hsplit := Nat.div_add_mod num den
  have hlt := Nat.mod_lt num h
  unfold roundDiv
  simp only
  split
  · omega
  · split
    · rw [Nat.mul_add]
      omega
    · have hparity : num / den % 2 = 0 ∨ num / den % 2 = 1 := by omega
      rw [Nat.mul_add]
      rcases hparity with hparity | hparity <;> rw [hparity] <;> omega

theorem abs_roundDiv_sub_le (num : Nat) {den : Nat} (h : 0 < den) :
    |(roundDiv num den : ℚ) - num / den| ≤ 1 / 2 := by
  obtain ⟨hle, hge⟩ := roundDiv_bounds num h
  have hden : (0 : ℚ) < den := by exact_mod_cast h
  have hle' : 2 * ((den : ℚ) * roundDiv num den) ≤ 2 * num + den := by exact_mod_cast hle
  have hge' : 2 * (num : ℚ) ≤ 2 * (den * roundDiv num den) + den := by exact_mod_cast hge
  have hsplit : (num : ℚ) = den * (num / den) := by field_simp
  rw [abs_le]
  constructor <;> nlinarith

theorem scaled_pos (num : Nat) {den : Nat} (h : 0 < den) (e : Int) : 0 < (scaled num den e).2 := by
  unfold scaled
  split
  · exact Nat.mul_pos h (Nat.pow_pos (by decide))
  · exact h

theorem scaled_ratio (num : Nat) {den : Nat} (h : 0 < den) (e : Int) :
    ((scaled num den e).1 : ℚ) / (scaled num den e).2 = num / den * 2 ^ (-e) := by
  have hden : (den : ℚ) ≠ 0 := by positivity
  unfold scaled
  split
  · rename_i he
    obtain ⟨n, rfl⟩ := Int.eq_ofNat_of_zero_le he
    simp [zpow_neg]
    field_simp
  · rename_i he
    obtain ⟨n, hn⟩ := Int.eq_ofNat_of_zero_le (show 0 ≤ -e by omega)
    rw [hn]
    simp
    field_simp

variable {num den : Nat}

theorem two_zpow_sub (a b : Nat) : (2 : ℚ) ^ ((a : Int) - b) = 2 ^ a / 2 ^ b := by
  rw [zpow_sub₀ two_ne_zero, zpow_natCast, zpow_natCast]

theorem ratio_lt (hden : 0 < den) :
    (num : ℚ) / den < 2 ^ (((num.log2 + 1 : Nat) : Int) - den.log2) := by
  have hlow : (2 : ℚ) ^ den.log2 ≤ den := by exact_mod_cast Nat.log2_self_le hden.ne'
  have hhigh : (num : ℚ) < 2 ^ (num.log2 + 1) := by exact_mod_cast Nat.lt_log2_self
  rw [two_zpow_sub]
  exact div_lt_div₀ hhigh hlow (by positivity) (by positivity)

theorem lt_ratio (hnum : num ≠ 0) (hden : 0 < den) :
    2 ^ ((num.log2 : Int) - (den.log2 + 1 : Nat)) < (num : ℚ) / den := by
  have hlow : (2 : ℚ) ^ num.log2 ≤ num := by exact_mod_cast Nat.log2_self_le hnum
  have hhigh : (den : ℚ) < 2 ^ (den.log2 + 1) := by exact_mod_cast Nat.lt_log2_self
  have hpos : (0 : ℚ) < den := by exact_mod_cast hden
  rw [two_zpow_sub]
  exact div_lt_div₀' hlow hhigh (by positivity) hpos

theorem split_unit (r : ℚ) (e : Int) : r = r * 2 ^ (-e) * 2 ^ e := by
  rw [mul_assoc, zpow_neg_mul_zpow_self e two_ne_zero, mul_one]

theorem scale_lt {r : ℚ} {a e : Int} {n : Nat} (h : r < 2 ^ a) (ha : a ≤ e + n) :
    r * 2 ^ (-e) < 2 ^ n := by
  have hone : (1 : ℚ) ≤ 2 := one_le_two
  calc r * 2 ^ (-e) < 2 ^ a * 2 ^ (-e) := mul_lt_mul_of_pos_right h (by positivity)
    _ ≤ 2 ^ (e + n) * 2 ^ (-e) := by gcongr
    _ = 2 ^ n := by
        rw [← zpow_add₀ two_ne_zero, ← zpow_natCast]
        congr 1
        ring

theorem le_scale {r : ℚ} {a e : Int} {n : Nat} (h : 2 ^ a < r) (ha : e + n ≤ a) :
    2 ^ n ≤ r * 2 ^ (-e) := by
  have hone : (1 : ℚ) ≤ 2 := one_le_two
  calc (2 : ℚ) ^ n = 2 ^ (e + n) * 2 ^ (-e) := by
        rw [← zpow_add₀ two_ne_zero, ← zpow_natCast]
        congr 1
        ring
    _ ≤ 2 ^ a * 2 ^ (-e) := by gcongr
    _ ≤ r * 2 ^ (-e) := by gcongr

theorem div_scaled_lt_iff (num : Nat) (hden : 0 < den) (e : Int) (n : Nat) :
    (scaled num den e).1 / (scaled num den e).2 < 2 ^ n ↔
      (num : ℚ) / den * 2 ^ (-e) < 2 ^ n := by
  have hpos := scaled_pos num hden e
  have hpos' : (0 : ℚ) < (scaled num den e).2 := by exact_mod_cast hpos
  rw [← scaled_ratio num hden, div_lt_iff₀ hpos', Nat.div_lt_iff_lt_mul hpos]
  exact_mod_cast Iff.rfl

def roundAt (negative : Bool) (num den : Nat) (e : Int) : Binary64 :=
  let t := scaled num den e
  let m := roundDiv t.1 t.2
  if m = 2 ^ 53 then ofParts negative (2 ^ 52) (e + 1) else ofParts negative m e

theorem ofRatio_eq_roundAt (negative : Bool) (hnum : num ≠ 0) (hden : 0 < den) :
    ∃ e, leastExponent ≤ e ∧ (num : ℚ) / den * 2 ^ (-e) < 2 ^ 53 ∧
      (leastExponent < e → 2 ^ 52 ≤ (num : ℚ) / den * 2 ^ (-e)) ∧
      ofRatio negative num den = roundAt negative num den e := by
  let e₀ := max ((num.log2 : Int) - den.log2 - 53) leastExponent
  have hfirst : (num.log2 : Int) - den.log2 - 53 ≤ e₀ := Int.le_max_left _ _
  have hleast : leastExponent ≤ e₀ := Int.le_max_right _ _
  have hround : ofRatio negative num den = roundAt negative num den
      (if (scaled num den e₀).1 / (scaled num den e₀).2 < 2 ^ 53 then e₀ else e₀ + 1) := by
    rw [ofRatio, if_neg hnum]
    rfl
  by_cases h : (scaled num den e₀).1 / (scaled num den e₀).2 < 2 ^ 53
  · rw [if_pos h] at hround
    refine ⟨e₀, hleast, (div_scaled_lt_iff num hden e₀ 53).mp h, fun hlt => ?_, hround⟩
    exact le_scale (lt_ratio hnum hden) (by push_cast; omega)
  · rw [if_neg h] at hround
    have hlow : 2 ^ 53 ≤ (num : ℚ) / den * 2 ^ (-e₀) :=
      not_lt.mp ((div_scaled_lt_iff num hden e₀ 53).not.mp h)
    have hstep : (num : ℚ) / den * 2 ^ (-e₀) = num / den * 2 ^ (-(e₀ + 1)) * 2 := by
      rw [mul_assoc, ← zpow_add_one₀ two_ne_zero]
      congr 2
      ring
    refine ⟨e₀ + 1, by omega, ?_, fun _ => ?_, hround⟩
    · exact scale_lt (ratio_lt hden) (by push_cast; omega)
    · rw [hstep] at hlow
      linarith

theorem roundAt_spec (negative : Bool) (num : Nat) (hden : 0 < den) {e : Int}
    (h : (num : ℚ) / den * 2 ^ (-e) < 2 ^ 53) :
    ∃ m f, roundAt negative num den e = ofParts negative m f ∧ m < 2 ^ 53 ∧
      |(m : ℚ) * 2 ^ f - num / den| ≤ 2 ^ e / 2 ∧
      (f = e ∨ f = e + 1 ∧ (2 ^ 53 - 1 / 2) * 2 ^ e ≤ (num : ℚ) / den) := by
  have hnear := abs_roundDiv_sub_le (scaled num den e).1 (scaled_pos num hden e)
  rw [scaled_ratio num hden] at hnear
  set n := roundDiv (scaled num den e).1 (scaled num den e).2 with hn
  have hunit : (0 : ℚ) < 2 ^ e := by positivity
  have hratio := split_unit ((num : ℚ) / den) e
  have herror : |(n : ℚ) * 2 ^ e - num / den| ≤ 2 ^ e / 2 := by
    rw [hratio, ← sub_mul, abs_mul, abs_of_pos hunit]
    calc _ ≤ 1 / 2 * 2 ^ e := mul_le_mul_of_nonneg_right hnear hunit.le
      _ = 2 ^ e / 2 := by ring
  by_cases hfull : n = 2 ^ 53
  · refine ⟨2 ^ 52, e + 1, by rw [roundAt, ← hn, if_pos hfull], by decide, ?_, .inr ⟨rfl, ?_⟩⟩
    · have hvalue : ((2 ^ 52 : Nat) : ℚ) * 2 ^ (e + 1) = n * 2 ^ e := by
        rw [hfull, zpow_add_one₀ two_ne_zero]
        push_cast
        ring
      rwa [hvalue]
    · rw [hfull] at hnear
      push_cast at hnear
      rw [hratio]
      exact mul_le_mul_of_nonneg_right (by linarith [(abs_le.mp hnear).2]) hunit.le
  · refine ⟨n, e, by rw [roundAt, ← hn, if_neg hfull], ?_, herror, .inl rfl⟩
    have hbelow : (n : ℚ) < (2 ^ 53 + 1 : Nat) := by
      push_cast
      linarith [(abs_le.mp hnear).2]
    have hle : n < 2 ^ 53 + 1 := by exact_mod_cast hbelow
    omega

theorem half_unit_le {r : ℚ} {e : Int} (h : 2 ^ 52 ≤ r * 2 ^ (-e)) :
    2 ^ e / 2 ≤ r * 2 ^ (-53 : Int) := by
  rw [split_unit r e]
  calc (2 : ℚ) ^ e / 2 = 2 ^ 52 * 2 ^ e * 2 ^ (-53 : Int) := by norm_num; ring
    _ ≤ r * 2 ^ (-e) * 2 ^ e * 2 ^ (-53 : Int) := by gcongr

theorem edge_le {r : ℚ} {e : Int} (h : 2 ^ 52 ≤ r * 2 ^ (-e)) (hmost : mostExponent < e) :
    edge ≤ r := by
  have hone : (1 : ℚ) ≤ 2 := one_le_two
  have hunit : (0 : ℚ) < 2 ^ mostExponent := by positivity
  rw [edge, split_unit r e]
  calc ((2 : ℚ) ^ 53 - 1 / 2) * 2 ^ mostExponent ≤ 2 ^ 52 * 2 ^ (mostExponent + 1) := by
        rw [zpow_add_one₀ two_ne_zero]
        nlinarith
    _ ≤ 2 ^ 52 * 2 ^ e :=
        mul_le_mul_of_nonneg_left (zpow_le_zpow_right₀ hone hmost) (by positivity)
    _ ≤ r * 2 ^ (-e) * 2 ^ e := mul_le_mul_of_nonneg_right h (by positivity)

theorem ofRatio_spec (negative : Bool) (num : Nat) (hden : 0 < den) :
    ∃ m e, ofRatio negative num den = ofParts negative m e ∧ m < 2 ^ 53 ∧
      |(m : ℚ) * 2 ^ e - num / den| ≤ num / den * 2 ^ (-53 : Int) + 2 ^ (-1075 : Int) ∧
      (mostExponent < e → edge ≤ (num : ℚ) / den) := by
  by_cases hnum : num = 0
  · subst hnum
    refine ⟨0, leastExponent, rfl, by decide, ?_, fun h => absurd h (by decide)⟩
    simp
  obtain ⟨e, hleast, hbelow, hfull, hround⟩ := ofRatio_eq_roundAt negative hnum hden
  obtain ⟨m, f, heq, hm, herror, hf⟩ := roundAt_spec negative num hden hbelow
  refine ⟨m, f, hround.trans heq, hm, herror.trans ?_, fun hmost => ?_⟩
  -- Half a unit is at most a 53rd binary digit of the quotient, unless the unit is the least.
  · by_cases he : leastExponent < e
    · exact (half_unit_le (hfull he)).trans (le_add_of_nonneg_right (by positivity))
    · have hhalf : (2 : ℚ) ^ leastExponent / 2 = 2 ^ (-1075 : Int) := by
        rw [div_eq_mul_inv, ← zpow_sub_one₀ two_ne_zero]
        rfl
      rw [show e = leastExponent by omega, hhalf]
      exact le_add_of_nonneg_left (by positivity)
  · rcases hf with rfl | ⟨rfl, hedge⟩
    · refine edge_le (hfull ?_) hmost
      simp only [leastExponent, mostExponent] at *
      omega
    · refine le_trans ?_ hedge
      have hone : (1 : ℚ) ≤ 2 := one_le_two
      have hmost' : mostExponent ≤ e := by omega
      rw [edge]
      gcongr

theorem isInRange_ofParts (negative : Bool) {m : Nat} (e : Int) (h : m < 2 ^ 53) :
    (ofParts negative m e).isInRange = true := by
  unfold ofParts
  split
  · rfl
  · simp only [isInRange, h, decide_true, Bool.true_and, decide_eq_true_eq]
    omega

theorem isInRange_ofRatio (negative : Bool) (num : Nat) (hden : 0 < den) :
    (ofRatio negative num den).isInRange = true := by
  obtain ⟨m, e, heq, hm, -⟩ := ofRatio_spec negative num hden
  rw [heq]
  exact isInRange_ofParts negative e hm

theorem isInRange_ofDecimal (negative : Bool) (digits : Nat) (exponent : Int) :
    (ofDecimal negative digits exponent).isInRange = true := by
  unfold ofDecimal
  split_ifs
  · rfl
  · rfl
  · rfl
  · exact isInRange_ofRatio negative _ Nat.one_pos
  · exact isInRange_ofRatio negative _ (Nat.pow_pos (by decide))

structure Rounds (x : Binary64) (r : ℚ) : Prop where
  finite : x.isFinite = true
  near : |x.magnitude - r| ≤ r * 2 ^ (-53 : Int) + 2 ^ (-1075 : Int)

theorem rounds_ofRatio (negative : Bool) (num : Nat) (hden : 0 < den)
    (h : (num : ℚ) / den < edge) :
    (ofRatio negative num den).Rounds (num / den) := by
  obtain ⟨m, e, heq, -, herror, hedge⟩ := ofRatio_spec negative num hden
  have hmost : ¬ mostExponent < e := fun hmost => absurd h (not_lt.mpr (hedge hmost))
  rw [heq, ofParts, if_neg hmost]
  exact ⟨rfl, herror⟩

theorem rounds_ofNat {n : Nat} (h : (n : ℚ) < edge) : (ofNat n).Rounds n := by
  have hratio : ((n : Nat) : ℚ) / ((1 : Nat) : ℚ) = n := by simp
  have hrounds := rounds_ofRatio false n Nat.one_pos (by rwa [hratio])
  rwa [hratio] at hrounds

theorem ratio_pos (m : Nat) (e : Int) : 0 < (ratio m e).2 := by
  unfold ratio
  split
  · exact Nat.one_pos
  · exact Nat.pow_pos (by decide)

theorem ratio_eq (m : Nat) (e : Int) : ((ratio m e).1 : ℚ) / (ratio m e).2 = m * 2 ^ e := by
  unfold ratio
  split
  · rename_i he
    obtain ⟨n, rfl⟩ := Int.eq_ofNat_of_zero_le he
    simp
  · rename_i he
    obtain ⟨n, hn⟩ := Int.eq_ofNat_of_zero_le (show 0 ≤ -e by omega)
    obtain rfl : e = -(n : Int) := by omega
    simp [div_eq_mul_inv]

theorem rounds_mul {x y : Binary64} (hx : x.isFinite = true) (hy : y.isFinite = true)
    (h : x.magnitude * y.magnitude < edge) : (x.mul y).Rounds (x.magnitude * y.magnitude) := by
  cases x with
  | finite s m e =>
      cases y with
      | finite t n f =>
          have hproduct : (((ratio m e).1 * (ratio n f).1 : Nat) : ℚ) /
              ((ratio m e).2 * (ratio n f).2 : Nat) = m * 2 ^ e * (n * 2 ^ f) := by
            rw [← ratio_eq m e, ← ratio_eq n f]
            push_cast
            exact mul_div_mul_comm _ _ _ _
          have hrounds := rounds_ofRatio (s != t) _ (Nat.mul_pos (ratio_pos m e) (ratio_pos n f))
            (by rw [hproduct]; exact h)
          rwa [hproduct] at hrounds
      | _ => cases hy
  | _ => cases hx

theorem rounds_div {x y : Binary64} (hx : x.isFinite = true) (hy : 0 < y.magnitude)
    (h : x.magnitude / y.magnitude < edge) : (x.div y).Rounds (x.magnitude / y.magnitude) := by
  cases x with
  | finite s m e =>
      cases y with
      | finite t n f =>
          have hquotient : (((ratio m e).1 * (ratio n f).2 : Nat) : ℚ) /
              ((ratio m e).2 * (ratio n f).1 : Nat) = m * 2 ^ e / (n * 2 ^ f) := by
            rw [← ratio_eq m e, ← ratio_eq n f]
            push_cast
            exact (div_div_div_eq ..).symm
          have hpos : 0 < (ratio n f).1 := by
            rw [Nat.pos_iff_ne_zero]
            intro hzero
            rw [magnitude, ← ratio_eq n f, hzero] at hy
            simp at hy
          have hrounds := rounds_ofRatio (s != t) _ (Nat.mul_pos (ratio_pos m e) hpos)
            (by rw [hquotient]; exact h)
          rwa [hquotient] at hrounds
      | _ => simp [magnitude] at hy
  | _ => cases hx

end StatusLine.Binary64
