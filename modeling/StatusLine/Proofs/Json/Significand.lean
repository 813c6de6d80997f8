import StatusLine.Proofs.Json.Integer
import StatusLine.Proofs.Number.Rounding

/-!
The double of a significand and a power of ten. Both are rounded before their product is, so a
number stays finite only if it keeps away from the edge of the doubles.
-/

namespace StatusLine.Json.Number

open Integer
open Binary64 (edge Rounds)

/-- Three units of the last place below the largest double, and half of one. -/
def safe : ℚ := (2 ^ 53 - 7 / 2) * 2 ^ Binary64.mostExponent

def Significand.magnitude (s : Significand) : ℚ := s.digits * 10 ^ s.exponent

theorem two_pow_most : (2 : ℚ) ^ Binary64.mostExponent = 2 ^ 971 := zpow_natCast 2 971

-- The comparisons are of natural numbers, which the kernel evaluates.
theorem pow_308_lt_edge : (10 : ℚ) ^ 308 < edge := by
  have hnat : 2 * 10 ^ 308 < 18014398509481983 * 2 ^ 971 := by decide +kernel
  have hrat : (2 : ℚ) * 10 ^ 308 < 18014398509481983 * 2 ^ 971 := by exact_mod_cast hnat
  rw [edge, two_pow_most]
  generalize (2 : ℚ) ^ 971 = unit, (10 : ℚ) ^ 308 = power at *
  linarith

theorem safe_lt_pow_309 : safe < (10 : ℚ) ^ 309 := by
  have hnat : 18014398509481977 * 2 ^ 971 < 2 * 10 ^ 309 := by decide +kernel
  have hrat : (18014398509481977 : ℚ) * 2 ^ 971 < 2 * 10 ^ 309 := by exact_mod_cast hnat
  rw [safe, two_pow_most]
  generalize (2 : ℚ) ^ 971 = unit, (10 : ℚ) ^ 309 = power at *
  linarith

theorem pow_66_lt_edge : (2 : ℚ) ^ 66 < edge :=
  calc (2 : ℚ) ^ 66 ≤ 10 ^ 20 := by norm_num
    _ ≤ 10 ^ 308 := pow_le_pow_right₀ (by norm_num) (by decide)
    _ < edge := pow_308_lt_edge

/-- Numbers from one on are rounded to within a little more than a 53rd binary digit. -/
def margin : ℚ := 2 ^ (-53 : Int) + 2 ^ (-100 : Int)

theorem near_of_one_le {x : Binary64} {r : ℚ} (h : x.Rounds r) (hr : 1 ≤ r) :
    r * (1 - margin) ≤ x.magnitude ∧ x.magnitude ≤ r * (1 + margin) := by
  have hleast : (2 : ℚ) ^ (-1075 : Int) ≤ 2 ^ (-100 : Int) :=
    zpow_le_zpow_right₀ one_le_two (by decide)
  have hunit : (0 : ℚ) < 2 ^ (-100 : Int) := by positivity
  obtain ⟨hlow, hhigh⟩ := abs_le.mp h.near
  unfold margin
  constructor <;> nlinarith

theorem safe_mul_margin_lt : safe * (1 + margin) ^ 2 < edge := by
  have hmargin : (2 ^ 53 - 7 / 2) * (1 + margin) ^ 2 < (2 ^ 53 - 1 / 2 : ℚ) := by
    norm_num [margin]
  rw [safe, edge, mul_right_comm]
  exact mul_lt_mul_of_pos_right hmargin (by positivity)

theorem margin_lt_half : margin < 1 / 2 := by
  norm_num [margin]

theorem margin_pos : 0 < margin := by
  norm_num [margin]

theorem rounds_powerOfTen {n : Nat} (h : n ≤ 308) : (powerOfTen n).Rounds (10 ^ n) := by
  have hratio : ((Nat.pow 10 n : Nat) : ℚ) / ((1 : Nat) : ℚ) = 10 ^ n := by simp
  have hlt : (10 : ℚ) ^ n < edge :=
    lt_of_le_of_lt (pow_le_pow_right₀ (by norm_num) h) pow_308_lt_edge
  have hrounds := Binary64.rounds_ofRatio false (Nat.pow 10 n) Nat.one_pos (by rwa [hratio])
  rwa [hratio] at hrounds

theorem magnitude_powerOfTen {n : Nat} (h : n ≤ 308) :
    10 ^ n * (1 - margin) ≤ (powerOfTen n).magnitude ∧
      (powerOfTen n).magnitude ≤ 10 ^ n * (1 + margin) :=
  near_of_one_le (rounds_powerOfTen h) (one_le_pow₀ (by norm_num))

theorem magnitude_nonneg (x : Binary64) : 0 ≤ x.magnitude := by
  cases x <;> simp only [Binary64.magnitude, le_refl]
  positivity

theorem magnitude_ofNat_le {n : Nat} (h : (n : ℚ) < edge) :
    (Binary64.ofNat n).magnitude ≤ n * (1 + margin) := by
  rcases Nat.eq_zero_or_pos n with rfl | hpos
  · simp [Binary64.ofNat, Binary64.ofRatio, Binary64.zero, Binary64.magnitude]
  · exact (near_of_one_le (Binary64.rounds_ofNat h) (by exact_mod_cast hpos)).2

theorem scale_up (fuel : Nat) {n e : Nat} (h : (n : ℚ) * 10 ^ e ≤ safe) :
    ∃ y, scale (fuel + 1) (.ofNat n) e = some y ∧ y.isFinite = true := by
  have hten : (1 : ℚ) ≤ 10 ^ e := one_le_pow₀ (by norm_num)
  have hmargin := margin_pos
  have hsafe : safe < edge := by
    have hpos : 0 ≤ safe := le_trans (by positivity) h
    refine lt_of_le_of_lt ?_ safe_mul_margin_lt
    exact le_mul_of_one_le_right hpos (one_le_pow₀ (by linarith))
  have hn : (n : ℚ) < edge := by
    refine lt_of_le_of_lt ?_ hsafe
    exact (le_mul_of_one_le_right (by positivity) hten).trans h
  have hfinite := (Binary64.rounds_ofNat hn).finite
  -- The digits, the power of ten and their product are rounded, which `safe` leaves room for.
  by_cases he : e ≤ 308
  · obtain ⟨-, hpower⟩ := magnitude_powerOfTen he
    have hproduct : (Binary64.ofNat n).magnitude * (powerOfTen e).magnitude < edge := by
      refine lt_of_le_of_lt ?_ safe_mul_margin_lt
      calc _ ≤ n * (1 + margin) * (10 ^ e * (1 + margin)) :=
            mul_le_mul (magnitude_ofNat_le hn) hpower (magnitude_nonneg _) (by positivity)
        _ = n * 10 ^ e * (1 + margin) ^ 2 := by ring
        _ ≤ safe * (1 + margin) ^ 2 := mul_le_mul_of_nonneg_right h (by positivity)
    have hmul := (Binary64.rounds_mul hfinite (rounds_powerOfTen he).finite hproduct).finite
    refine ⟨_, ?_, hmul⟩
    simp [scale, he, hmul]
  · have hzero : n = 0 := by
      by_contra hne
      have hone : (1 : ℚ) ≤ n := by exact_mod_cast Nat.one_le_iff_ne_zero.mpr hne
      have hpow : (10 : ℚ) ^ 309 ≤ n * 10 ^ e :=
        (pow_le_pow_right₀ (by norm_num) (by omega)).trans
          (le_mul_of_one_le_left (by positivity) hone)
      exact absurd (hpow.trans h) (not_le.mpr safe_lt_pow_309)
    subst hzero
    refine ⟨_, ?_, hfinite⟩
    simp [scale, he, Binary64.ofNat, Binary64.ofRatio, Binary64.zero, Binary64.isZero]

theorem div_powerOfTen {x : Binary64} (hx : x.isFinite = true) (hle : x.magnitude ≤ 2 ^ 66)
    {n : Nat} (hpos : 0 < n) (h : n ≤ 308) :
    (x.div (powerOfTen n)).isFinite = true ∧ (x.div (powerOfTen n)).magnitude ≤ 2 ^ 66 := by
  have hnonneg := magnitude_nonneg x
  have htwo : 2 ≤ (powerOfTen n).magnitude := by
    refine le_trans ?_ (magnitude_powerOfTen h).1
    have hten : (10 : ℚ) ≤ 10 ^ n := le_self_pow₀ (by norm_num) hpos.ne'
    nlinarith [margin_lt_half]
  have hquotient : x.magnitude / (powerOfTen n).magnitude ≤ 2 ^ 65 := by
    rw [div_le_iff₀ (by linarith)]
    linarith
  have hrounds := Binary64.rounds_div hx (by linarith)
    (lt_of_le_of_lt (hquotient.trans (by norm_num)) pow_66_lt_edge)
  refine ⟨hrounds.finite, ?_⟩
  have hleast : (2 : ℚ) ^ (-1075 : Int) ≤ 2 ^ (0 : Int) :=
    zpow_le_zpow_right₀ one_le_two (by decide)
  have hunit : (2 : ℚ) ^ (-53 : Int) ≤ 1 / 2 := by norm_num
  have herror := mul_le_mul_of_nonneg_left hunit
    (div_nonneg hnonneg (magnitude_nonneg (powerOfTen n)))
  have hnear := (abs_le.mp hrounds.near).2
  rw [zpow_zero] at hleast
  linarith

theorem scale_down (fuel : Nat) {x : Binary64} (hx : x.isFinite = true)
    (hle : x.magnitude ≤ 2 ^ 66) {e : Int} (he : e < 0) :
    ∃ y, scale fuel x e = some y ∧ y.isFinite = true := by
  induction fuel generalizing x e with
  | zero => exact ⟨x, rfl, hx⟩
  | succ fuel ih =>
      have hneg : ¬ 0 ≤ e := by omega
      by_cases hnear : e.natAbs ≤ 308
      · obtain ⟨hfinite, -⟩ := div_powerOfTen hx hle (by omega) hnear
        exact ⟨_, by simp [scale, hnear, hneg, hfinite], hfinite⟩
      · by_cases hzero : x.isZero = true
        · exact ⟨x, by simp [scale, hnear, hzero], hx⟩
        · obtain ⟨hfinite, hsmall⟩ := div_powerOfTen hx hle (by decide) (Nat.le_refl 308)
          obtain ⟨y, hy, hfin⟩ := ih hfinite hsmall (show e + 308 < 0 by omega)
          exact ⟨y, by simp [scale, hnear, hneg, hzero, hy], hfin⟩

theorem isFinite_signed (negative : Bool) (x : Binary64) :
    (signed negative x).isFinite = x.isFinite := by
  cases negative with
  | false => rfl
  | true => cases x <;> rfl

theorem real_finite (negative : Bool) {s : Significand} (hdigits : s.digits < limit)
    (h : s.magnitude ≤ safe) : ∃ y, real negative s = .real y ∧ y.isFinite = true := by
  have hscale : ∃ y, scale 4 (.ofNat s.digits) s.exponent = some y ∧ y.isFinite = true := by
    by_cases he : 0 ≤ s.exponent
    · obtain ⟨n, hn⟩ := Int.eq_ofNat_of_zero_le he
      rw [Significand.magnitude, hn, zpow_natCast] at h
      rw [hn]
      exact scale_up 3 h
    · have hlimit : (s.digits : ℚ) ≤ 2 ^ 64 := by exact_mod_cast hdigits.le
      have hedge : (s.digits : ℚ) < edge :=
        lt_of_le_of_lt (hlimit.trans (by norm_num)) pow_66_lt_edge
      refine scale_down 4 (Binary64.rounds_ofNat hedge).finite ?_ (not_le.mp he)
      refine (magnitude_ofNat_le hedge).trans ?_
      nlinarith [margin_lt_half, margin_pos]
  obtain ⟨y, hy, hfinite⟩ := hscale
  exact ⟨signed negative y, by rw [real, hy], by rw [isFinite_signed, hfinite]⟩

theorem takeFraction_digits_lt {s : Significand} (ds : List Char) (h : s.digits < limit) :
    (takeFraction s ds).digits < limit := by
  induction ds generalizing s with
  | nil => exact h
  | cons d ds ih =>
      simp only [takeFraction]
      split
      · rename_i hlt
        exact ih hlt
      · exact h

-- Digits that do not fit are left out, which makes the number no larger.
theorem takeFraction_le (s : Significand) (ds : List Char) :
    (takeFraction s ds).magnitude ≤
      accumulate 10 digitValue s.digits ds * 10 ^ (s.exponent - ds.length) := by
  induction ds generalizing s with
  | nil => simp [takeFraction, Significand.magnitude, accumulate]
  | cons d ds ih =>
      simp only [takeFraction]
      have hlength : s.exponent - ((d :: ds).length : Int) = s.exponent - 1 - ds.length := by
        rw [List.length_cons]
        push_cast
        ring
      split
      · rw [hlength]
        exact ih ⟨s.digits * 10 + digitValue d, s.exponent - 1⟩
      · have hle : (s.digits : ℚ) * 10 ^ (d :: ds).length ≤
            accumulate 10 digitValue s.digits (d :: ds) := by
          exact_mod_cast pow_le_accumulate (d :: ds) s.digits
        have hunit : (0 : ℚ) < 10 ^ (s.exponent - ((d :: ds).length : Int)) := by positivity
        refine le_trans (le_of_eq ?_) (mul_le_mul_of_nonneg_right hle hunit.le)
        rw [Significand.magnitude, mul_assoc, ← zpow_natCast, ← zpow_add₀ (by norm_num)]
        congr 2
        ring

def Parts.power (p : Parts) : Int :=
  match p.exponent with
  | some (down, ds) =>
      if down then -(accumulate 10 digitValue 0 ds : Int) else accumulate 10 digitValue 0 ds
  | none => 0

def Parts.digits (p : Parts) : Nat := accumulate 10 digitValue 0 (p.whole ++ p.fraction)

def Parts.magnitude (p : Parts) : ℚ := p.digits * 10 ^ (p.power - p.fraction.length)

def Parts.significand (p : Parts) : Significand :=
  takeFraction (takeWhole ⟨0, 0⟩ p.whole) p.fraction

theorem Parts.significand_le {p : Parts} (hwhole : accumulate 10 digitValue 0 p.whole < limit) :
    p.significand.magnitude * 10 ^ p.power ≤ p.magnitude := by
  have hle := takeFraction_le (takeWhole ⟨0, 0⟩ p.whole) p.fraction
  rw [takeWhole_of_lt p.whole 0 0 hwhole] at hle
  have hdigits : p.digits =
      accumulate 10 digitValue (accumulate 10 digitValue 0 p.whole) p.fraction := by
    rw [Parts.digits, accumulate, List.foldl_append]
    rfl
  rw [Parts.significand, takeWhole_of_lt p.whole 0 0 hwhole, Parts.magnitude, hdigits]
  refine (mul_le_mul_of_nonneg_right hle (by positivity)).trans (le_of_eq ?_)
  rw [mul_assoc, ← zpow_add₀ (by norm_num)]
  congr 2
  ring

theorem Parts.significand_digits_lt {p : Parts}
    (hwhole : accumulate 10 digitValue 0 p.whole < limit) : p.significand.digits < limit := by
  refine takeFraction_digits_lt _ ?_
  rw [takeWhole_of_lt p.whole 0 0 hwhole]
  exact hwhole

theorem value_finite {p : Parts} (hwhole : accumulate 10 digitValue 0 p.whole < limit)
    (hinexact : p.fraction ≠ [] ∨ p.exponent ≠ none) (hpower : p.power < 2147483648)
    (h : p.magnitude ≤ safe) : ∃ y, value p = .real y ∧ y.isFinite = true := by
  have hreal (e : Int) (he : e = p.significand.exponent + p.power) :
      ∃ y, real p.negative ⟨p.significand.digits, e⟩ = .real y ∧ y.isFinite = true := by
    refine real_finite p.negative (Parts.significand_digits_lt hwhole) (le_trans ?_ h)
    refine le_trans (le_of_eq ?_) (Parts.significand_le hwhole)
    rw [he, Significand.magnitude, Significand.magnitude, zpow_add₀ (by norm_num), mul_assoc]
  obtain ⟨negative, whole, fraction, exponent⟩ := p
  cases exponent with
  | none =>
      cases fraction with
      | nil => simp at hinexact
      | cons d ds =>
          exact hreal (Parts.significand ⟨negative, whole, d :: ds, none⟩).exponent
            (Int.add_zero _).symm
  | some mark =>
      obtain ⟨down, ds⟩ := mark
      simp only [Parts.power] at hpower hreal
      simp only [value]
      split
      · refine hreal _ ?_
        cases down <;> rfl
      · rename_i hbig
        have hdown : down = true := by
          by_contra hup
          rw [if_neg hup] at hpower
          omega
        rw [if_pos (.inr hdown)]
        exact ⟨_, rfl, rfl⟩

end StatusLine.Json.Number
