import StatusLine.Proofs.Json.Significand
import StatusLine.Proofs.Number.Shortest

namespace StatusLine.Json.Number

open Integer
open RealNotation (document pointed powered zeros)

def Parts.fractionText (p : Parts) : List Char :=
  match p.fraction with
  | [] => []
  | ds => '.' :: ds

def Parts.exponentText (p : Parts) : List Char :=
  match p.exponent with
  | some (down, ds) => 'e' :: (if down then '-' else '+') :: ds
  | none => []

def Parts.text (p : Parts) : List Char := p.whole ++ (p.fractionText ++ p.exponentText)

/-- Whether the parts are written as they stand, and not as an integer. -/
structure Parts.Written (p : Parts) : Prop where
  whole : p.whole = ['0'] ∨ ∃ c ds, p.whole = c :: ds ∧ c ≠ '0' ∧ p.whole.all isDigit = true
  fraction : p.fraction.all isDigit = true
  exponent : ∀ down ds, p.exponent = some (down, ds) → ds ≠ [] ∧ ds.all isDigit = true
  inexact : p.fraction ≠ [] ∨ p.exponent ≠ none

variable {p : Parts} {rest : List Char}

theorem exponentDigits_digits (down : Bool) {ds : List Char} (hne : ds ≠ [])
    (hall : ds.all isDigit = true) (h : Stops rest) :
    exponentDigits down (ds ++ rest) = some (some (down, ds), rest) := by
  obtain ⟨d, es, rfl⟩ := List.exists_cons_of_ne_nil hne
  rw [exponentDigits, span_digits hall h]

theorem exponentPart_text (hwritten : p.Written) (h : Closes rest) :
    exponentPart (p.exponentText ++ rest) = some (p.exponent, rest) := by
  unfold Parts.exponentText
  split
  · rename_i down ds heq
    obtain ⟨hne, hall⟩ := hwritten.exponent down ds heq
    have hdigits := exponentDigits_digits down hne hall h.stops
    cases down <;> simpa [exponentPart, heq] using hdigits
  · rename_i heq
    rw [heq]
    exact exponentPart_closes h

theorem stops_exponentText (p : Parts) (h : Closes rest) : Stops (p.exponentText ++ rest) := by
  unfold Parts.exponentText
  split
  · exact stops_cons _ rfl
  · exact h.stops

theorem fractionPart_text (hwritten : p.Written) (h : Closes rest) :
    fractionPart (p.fractionText ++ (p.exponentText ++ rest)) =
      some (p.fraction, p.exponentText ++ rest) := by
  have hstops := stops_exponentText p h
  have hspan := span_digits hwritten.fraction hstops
  unfold Parts.fractionText
  split
  · rename_i heq
    rw [heq, List.nil_append]
    unfold Parts.exponentText
    split
    · rfl
    · exact fractionPart_closes h
  · rename_i ds hne
    obtain ⟨d, es, heq⟩ := List.exists_cons_of_ne_nil hne
    rw [List.cons_append, fractionPart, hspan, heq]

theorem stops_fractionText (p : Parts) (h : Closes rest) :
    Stops (p.fractionText ++ (p.exponentText ++ rest)) := by
  unfold Parts.fractionText
  split
  · exact stops_exponentText p h
  · exact stops_cons _ rfl

theorem wholePart_text (hwritten : p.Written) (h : Stops rest) :
    wholePart (p.whole ++ rest) = some (p.whole, rest) := by
  rcases hwritten.whole with hzero | ⟨c, ds, heq, hc, hall⟩
  · rw [hzero]
    exact wholePart_zero h
  · rw [heq] at hall ⊢
    exact wholePart_leading hc hall h

theorem read_text (hwritten : p.Written) (h : Closes rest) :
    read p.negative (p.text ++ rest) = (value p, rest) := by
  have hwhole := wholePart_text hwritten (stops_fractionText p h)
  simp only [read, parts, Parts.text, List.append_assoc, hwhole, Option.bind_eq_bind,
    Option.bind_some, fractionPart_text hwritten h, exponentPart_text hwritten h]

/-- Whether a text is that of a number that is not written as an integer, and how large it is. -/
structure Parts.Spells (p : Parts) (cs : List Char) (r : ℚ) : Prop where
  written : p.Written
  text : p.text = cs
  fits : accumulate 10 digitValue 0 p.whole < limit
  power : p.power < 2147483648
  magnitude : p.magnitude = r

theorem fractionText_of_ne_nil {p : Parts} (h : p.fraction ≠ []) :
    p.fractionText = '.' :: p.fraction := by
  obtain ⟨d, ds, heq⟩ := List.exists_cons_of_ne_nil h
  rw [Parts.fractionText, heq]

theorem accumulate_lt_limit {ds : List Char} (hall : ds.all isDigit = true)
    (hlength : ds.length ≤ 16) : accumulate 10 digitValue 0 ds < limit := by
  have hlt := accumulate_lt hall 0
  have hpow : 10 ^ ds.length ≤ 10 ^ 16 := Nat.pow_le_pow_right (by decide) hlength
  have hlimit : 10 ^ 16 < limit := by decide
  omega

variable {c : Char} {ds : List Char} {x : Int}

-- A number with a point is written in three ways: its digits begin behind the point, end before
-- it, or go on across it.
theorem spells_below (negative : Bool) (hall : (c :: ds).all isDigit = true) (hx : x < 0) :
    Parts.Spells ⟨negative, ['0'], zeros (-x - 1).toNat ++ c :: ds, none⟩ (pointed (c :: ds) x)
      (accumulate 10 digitValue 0 (c :: ds) * 10 ^ (x - ds.length)) where
  written := by
    refine ⟨.inl rfl, ?_, nofun, .inl (by simp)⟩
    rw [List.all_append, all_isDigit_zeros, hall, Bool.and_self]
  text := by
    rw [Parts.text, fractionText_of_ne_nil (by simp), pointed, if_pos hx]
    simp [Parts.exponentText]
  fits := show accumulate 10 digitValue 0 ['0'] < limit by decide
  power := show (0 : Int) < 2147483648 by decide
  magnitude := by
    have hzero : accumulate 10 digitValue 0 ['0'] = 0 := rfl
    rw [Parts.magnitude, Parts.digits, accumulate_append, accumulate_append, accumulate_zeros,
      hzero, Nat.zero_mul]
    congr 2
    simp only [Parts.power, List.length_append, zeros, List.length_replicate, List.length_cons]
    omega

theorem spells_above (negative : Bool) (hzero : c ≠ '0') (hall : (c :: ds).all isDigit = true)
    (hpos : ¬ x < 0) (hx : x ≤ 15) (hlength : (c :: ds).length ≤ x.toNat + 1) :
    Parts.Spells ⟨negative, c :: ds ++ zeros (x.toNat + 1 - (c :: ds).length), ['0'], none⟩
      (pointed (c :: ds) x) (accumulate 10 digitValue 0 (c :: ds) * 10 ^ (x - ds.length)) := by
  have hdigits : (c :: ds ++ zeros (x.toNat + 1 - (c :: ds).length)).all isDigit = true := by
    rw [List.all_append, all_isDigit_zeros, hall, Bool.and_self]
  constructor
  case written => exact ⟨.inr ⟨c, _, rfl, hzero, hdigits⟩, rfl, nofun, .inl nofun⟩
  case text =>
    rw [pointed, if_neg hpos]
    simp only
    rw [if_pos hlength]
    simp [Parts.text, Parts.fractionText, Parts.exponentText]
  case fits =>
    refine accumulate_lt_limit hdigits ?_
    rw [List.length_append, zeros, List.length_replicate]
    omega
  case power => exact show (0 : Int) < 2147483648 by decide
  case magnitude =>
    have hlast (n : Nat) : accumulate 10 digitValue n ['0'] = n * 10 := rfl
    rw [Parts.magnitude, Parts.digits, accumulate_append, accumulate_append, accumulate_zeros,
      hlast]
    push_cast
    rw [mul_assoc, mul_assoc, ← zpow_natCast, ← zpow_one_add₀ (by norm_num),
      ← zpow_add₀ (by norm_num)]
    congr 2
    simp only [Parts.power, List.length_cons, List.length_nil] at hlength ⊢
    push_cast [hlength]
    omega

theorem spells_across (negative : Bool) (hzero : c ≠ '0') (hall : (c :: ds).all isDigit = true)
    (hpos : ¬ x < 0) (hx : x ≤ 15) (hlength : ¬ (c :: ds).length ≤ x.toNat + 1) :
    Parts.Spells ⟨negative, (c :: ds).take (x.toNat + 1), (c :: ds).drop (x.toNat + 1), none⟩
      (pointed (c :: ds) x) (accumulate 10 digitValue 0 (c :: ds) * 10 ^ (x - ds.length)) := by
  have hsplit := hall
  rw [← List.take_append_drop (x.toNat + 1) (c :: ds), List.all_append, Bool.and_eq_true] at hsplit
  have hfraction : (c :: ds).drop (x.toNat + 1) ≠ [] := by
    rw [ne_eq, List.drop_eq_nil_iff]
    exact hlength
  constructor
  case written =>
    exact ⟨.inr ⟨c, ds.take x.toNat, rfl, hzero, hsplit.1⟩, hsplit.2, nofun, .inl hfraction⟩
  case text =>
    rw [Parts.text, fractionText_of_ne_nil hfraction, pointed, if_neg hpos]
    simp only
    rw [if_neg hlength]
    simp [Parts.exponentText]
  case fits =>
    refine accumulate_lt_limit hsplit.1 ?_
    rw [List.length_take]
    omega
  case power => exact show (0 : Int) < 2147483648 by decide
  case magnitude =>
    rw [Parts.magnitude, Parts.digits, List.take_append_drop]
    congr 2
    simp only [Parts.power, List.length_cons, List.length_drop] at hlength ⊢
    omega

theorem power_marked (negative : Bool) (whole fraction : List Char) (x : Int) :
    Parts.power ⟨negative, whole, fraction, some (decide (x < 0), Nat.toDigits 10 x.natAbs)⟩ =
      x := by
  simp only [Parts.power, accumulate_toDigits, decide_eq_true_eq]
  split <;> omega

theorem spells_powered (negative : Bool) (hzero : c ≠ '0') (hall : (c :: ds).all isDigit = true)
    (hx : x < 2147483648) :
    Parts.Spells ⟨negative, [c], ds, some (decide (x < 0), Nat.toDigits 10 x.natAbs)⟩
      (powered (c :: ds) x) (accumulate 10 digitValue 0 (c :: ds) * 10 ^ (x - ds.length)) := by
  have hsplit := hall
  rw [List.all_cons, Bool.and_eq_true] at hsplit
  have hfirst : [c].all isDigit = true := by simp [hsplit.1]
  constructor
  case written =>
    refine ⟨.inr ⟨c, [], rfl, hzero, hfirst⟩, hsplit.2, ?_, .inr (by simp)⟩
    rintro down es ⟨⟩
    exact ⟨Nat.toDigits_ne_nil, all_isDigit_toDigits _⟩
  case text => cases ds <;> simp [Parts.text, Parts.fractionText, Parts.exponentText, powered]
  case fits => exact accumulate_lt_limit hfirst (by simp)
  case power => rwa [power_marked]
  case magnitude =>
    rw [Parts.magnitude, power_marked]
    rfl

theorem spells_zero (negative : Bool) :
    Parts.Spells ⟨negative, ['0'], ['0'], none⟩ ['0', '.', '0'] 0 where
  written := ⟨.inl rfl, rfl, nofun, .inl nofun⟩
  text := rfl
  fits := show accumulate 10 digitValue 0 ['0'] < limit by decide
  power := show (0 : Int) < 2147483648 by decide
  magnitude := by
    have hzero : accumulate 10 digitValue 0 ['0', '0'] = 0 := rfl
    simp [Parts.magnitude, Parts.digits, hzero]

theorem half_unit_above_lt {m : Nat} {e : Int} (hm : m < 2 ^ 53) (he : e ≤ Binary64.mostExponent) :
    ((m : ℚ) + 1 / 2) * 2 ^ e < 10 ^ 309 := by
  have hnat : 2 ^ 1024 < 10 ^ 309 := by decide +kernel
  have hm' : (m : ℚ) + 1 ≤ 2 ^ 53 := by exact_mod_cast hm
  calc ((m : ℚ) + 1 / 2) * 2 ^ e ≤ 2 ^ 53 * 2 ^ Binary64.mostExponent := by
        have hone : (1 : ℚ) ≤ 2 := one_le_two
        have hmantissa : (m : ℚ) + 1 / 2 ≤ 2 ^ 53 := by linarith
        gcongr
    _ = 2 ^ 1024 := by rw [two_pow_most, ← pow_add]
    _ < 10 ^ 309 := by exact_mod_cast hnat

/-- The power of ten that the first digit stands for. -/
def leading (d : Decimal) : Int := d.exponent + (Nat.toDigits 10 d.digits).length - 1

theorem magnitude_eq {m : Nat} (hm : m ≠ 0) {e : Int} {d : Decimal}
    (hd : Binary64.shortest .even m e = d) :
    let ds := ((Nat.toDigits 10 d.digits).reverse.dropWhile (· == '0')).reverse
    document.magnitude m e =
      if -5 ≤ leading d && leading d ≤ 15 then pointed ds (leading d)
      else powered ds (leading d) := by
  rw [RealNotation.magnitude, if_neg hm]
  simp only [document, hd]
  rfl

theorem exists_significant {d : Decimal} (h : 0 < d.digits) :
    ∃ c ds, ((Nat.toDigits 10 d.digits).reverse.dropWhile (· == '0')).reverse = c :: ds ∧
      c ≠ '0' ∧ (c :: ds).all isDigit = true ∧
      (d.digits : ℚ) * 10 ^ d.exponent =
        accumulate 10 digitValue 0 (c :: ds) * 10 ^ (leading d - ds.length) := by
  obtain ⟨c, ds, k, htrim, hzero, hall, heq⟩ := significant_digits h
  refine ⟨c, ds, htrim, hzero, hall, ?_⟩
  have hvalue := accumulate_toDigits d.digits
  have hlength := congrArg List.length heq
  rw [heq, accumulate_append, accumulate_zeros] at hvalue
  rw [List.length_append, zeros, List.length_replicate, List.length_cons] at hlength
  rw [← hvalue, Nat.cast_mul, Nat.cast_pow, mul_assoc, ← zpow_natCast, Nat.cast_ofNat,
    ← zpow_add₀ (by norm_num)]
  congr 2
  simp only [leading, hlength]
  push_cast
  ring

theorem leading_lt (hzero : c ≠ '0') (hall : (c :: ds).all isDigit = true)
    (h : (accumulate 10 digitValue 0 (c :: ds) : ℚ) * 10 ^ (x - ds.length) < 10 ^ 309) :
    x < 309 := by
  rw [List.all_cons, Bool.and_eq_true] at hall
  have hfirst : ((10 ^ ds.length : Nat) : ℚ) ≤ accumulate 10 digitValue 0 (c :: ds) := by
    exact_mod_cast pow_le_accumulate_leading hall.1 hzero
  have hpow : (10 : ℚ) ^ x < 10 ^ (309 : Int) :=
    calc (10 : ℚ) ^ x = (10 ^ ds.length : Nat) * 10 ^ (x - ds.length) := by
          rw [Nat.cast_pow, ← zpow_natCast, Nat.cast_ofNat, ← zpow_add₀ (by norm_num)]
          congr 1
          ring
      _ ≤ accumulate 10 digitValue 0 (c :: ds) * 10 ^ (x - ds.length) :=
          mul_le_mul_of_nonneg_right hfirst (by positivity)
      _ < 10 ^ (309 : Int) := by exact_mod_cast h
  exact (zpow_lt_zpow_iff_right₀ (by norm_num)).mp hpow

theorem exists_spelling_of_digits (negative : Bool) {m : Nat} (hm : m ≠ 0) {e : Int} {d : Decimal}
    (hd : Binary64.shortest .even m e = d) (hdigits : 0 < d.digits)
    (hle : (d.digits : ℚ) * 10 ^ d.exponent < 10 ^ 309) :
    ∃ p : Parts, p.negative = negative ∧
      p.Spells (document.magnitude m e) (d.digits * 10 ^ d.exponent) := by
  obtain ⟨c, ds, htrim, hzero, hall, hvalue⟩ := exists_significant hdigits
  have htext := magnitude_eq hm hd
  simp only [htrim] at htext
  rw [hvalue] at hle ⊢
  rw [htext]
  split
  · rename_i hpositional
    have hx : leading d ≤ 15 := (decide_eq_true_eq.mp (Bool.and_eq_true_iff.mp hpositional).2)
    by_cases hneg : leading d < 0
    · exact ⟨_, rfl, spells_below negative hall hneg⟩
    · by_cases hlong : (c :: ds).length ≤ (leading d).toNat + 1
      · exact ⟨_, rfl, spells_above negative hzero hall hneg hx hlong⟩
      · exact ⟨_, rfl, spells_across negative hzero hall hneg hx hlong⟩
  · have hx := leading_lt hzero hall hle
    exact ⟨_, rfl, spells_powered negative hzero hall (by omega)⟩

theorem exists_spelling (negative : Bool) {m : Nat} {e : Int} (hm : m < 2 ^ 53)
    (he : e ≤ Binary64.mostExponent) :
    ∃ (p : Parts) (r : ℚ), p.negative = negative ∧
      p.Spells (document.magnitude m e) r ∧ r ≤ (m + 1 / 2) * 2 ^ e := by
  have hnonneg : (0 : ℚ) ≤ (m + 1 / 2) * 2 ^ e := by positivity
  by_cases hzero : m = 0
  · have htext : document.magnitude m e = ['0', '.', '0'] := by
      rw [RealNotation.magnitude, if_pos hzero]
    rw [htext]
    exact ⟨_, 0, rfl, spells_zero negative, hnonneg⟩
  rcases Binary64.shortest_spec .even hzero e with hnone | ⟨hdigits, hle⟩
  · have htext : document.magnitude m e = ['0', '.', '0'] := magnitude_eq hzero hnone
    rw [htext]
    exact ⟨_, 0, rfl, spells_zero negative, hnonneg⟩
  · obtain ⟨p, hp, hspells⟩ := exists_spelling_of_digits negative hzero rfl
      (Nat.pos_of_ne_zero hdigits) (lt_of_le_of_lt hle (half_unit_above_lt hm he))
    exact ⟨p, _, hp, hspells, hle⟩

def isFiniteReal : Node → Bool
  | .real x => x.isFinite
  | _ => false

-- The three largest doubles are read back one by one: rounding twice may take them across the edge.
theorem isFiniteReal_read_largest : ∀ negative,
    ∀ m ∈ [9007199254740989, 9007199254740990, 9007199254740991],
      isFiniteReal (read negative (document.magnitude m Binary64.mostExponent)).1 = true := by
  decide +kernel

theorem largest_of_safe_lt {m : Nat} {e : Int} (hm : m < 2 ^ 53) (he : e ≤ Binary64.mostExponent)
    (h : safe < (m + 1 / 2) * 2 ^ e) :
    m ∈ [9007199254740989, 9007199254740990, 9007199254740991] ∧ e = Binary64.mostExponent := by
  have hm' : (m : ℚ) + 1 ≤ 2 ^ 53 := by exact_mod_cast hm
  have hunit : (0 : ℚ) < 2 ^ Binary64.mostExponent := by positivity
  have hmost : e = Binary64.mostExponent := by
    by_contra hne
    have hhalf : (2 : ℚ) ^ e * 2 ≤ 2 ^ Binary64.mostExponent := by
      rw [← zpow_add_one₀ two_ne_zero]
      exact zpow_le_zpow_right₀ one_le_two (by omega)
    have hpos : (0 : ℚ) < 2 ^ e := by positivity
    rw [safe] at h
    nlinarith
  subst hmost
  refine ⟨?_, rfl⟩
  have hlow : (2 ^ 53 - 7 / 2 : ℚ) < m + 1 / 2 := lt_of_mul_lt_mul_right h hunit.le
  have hnat : 2 ^ 53 < m + 4 := by
    have hrat : (2 ^ 53 : ℚ) < m + 4 := by linarith
    exact_mod_cast hrat
  simp only [List.mem_cons, List.not_mem_nil, or_false]
  omega

/-- A double that is written is read back as a finite one, if not always as the same. -/
theorem read_magnitude (negative : Bool) {m : Nat} {e : Int} (hm : m < 2 ^ 53)
    (he : e ≤ Binary64.mostExponent) :
    ∃ y : Binary64, y.isFinite = true ∧ ∀ rest, Closes rest →
      read negative (document.magnitude m e ++ rest) = (.real y, rest) := by
  obtain ⟨p, r, rfl, hspells, hr⟩ := exists_spelling negative hm he
  have hread {rest : List Char} (h : Closes rest) :
      read p.negative (document.magnitude m e ++ rest) = (value p, rest) := by
    rw [← hspells.text]
    exact read_text hspells.written h
  have hvalue : ∃ y, value p = .real y ∧ y.isFinite = true := by
    by_cases hsafe : (m + 1 / 2) * 2 ^ e ≤ safe
    · refine value_finite hspells.fits hspells.written.inexact hspells.power ?_
      rw [hspells.magnitude]
      exact hr.trans hsafe
    · obtain ⟨hlargest, rfl⟩ := largest_of_safe_lt hm he (not_le.mp hsafe)
      have hfinite := isFiniteReal_read_largest p.negative m hlargest
      have hend := hread (show Closes [] from fun _ h => nomatch h)
      rw [List.append_nil] at hend
      rw [hend] at hfinite
      generalize value p = node at hfinite
      cases node with
      | real y => exact ⟨y, rfl, hfinite⟩
      | _ => cases hfinite
  obtain ⟨y, hy, hfinite⟩ := hvalue
  exact ⟨y, hfinite, fun rest h => by rw [hread h, hy]⟩

theorem magnitude_opens {m : Nat} {e : Int} (hm : m < 2 ^ 53) (he : e ≤ Binary64.mostExponent) :
    ∃ c cs, document.magnitude m e = c :: cs ∧ isDigit c = true := by
  obtain ⟨p, r, -, hspells, -⟩ := exists_spelling false hm he
  rw [← hspells.text, Parts.text]
  rcases hspells.written.whole with hzero | ⟨c, ds, heq, -, hall⟩
  · rw [hzero]
    exact ⟨_, _, rfl, rfl⟩
  · rw [heq] at hall ⊢
    rw [List.all_cons, Bool.and_eq_true] at hall
    exact ⟨c, _, rfl, hall.1⟩

end StatusLine.Json.Number
