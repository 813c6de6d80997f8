import Mathlib.Data.List.Basic
import StatusLine.Proofs.Line
import StatusLine.Text.Trim

/-!
What the host answers to a condition when it draws a window. It finds the windows beside the active
one by their numbers, and the numbers of neighbours in the list may leave a gap.
-/

namespace StatusLine.Host

structure Window where
  number : Int
  activeNumber : Int
  isFirst : Bool
  isLast : Bool
deriving DecidableEq, Repr

def truth (b : Bool) : Int := if b then 1 else 0

def equals (a b : Int) : Int := truth (a = b)

def operations : List (String × (Int → Int → Int)) :=
  [("#\x7b==:", equals), ("#\x7be|-:", (· - ·)), ("#\x7be|+:", (· + ·))]

def lookup? {α : Type} (entries : List (String × α)) (cs : List Char) : Option (α × List Char) :=
  entries.findSome? fun e => (Text.after? e.1.toList cs).map fun rest => (e.2, rest)

def numeral? (cs : List Char) : Option (Int × List Char) :=
  (Integer.natural? (cs.takeWhile Integer.isDigit)).map fun n =>
    (n, cs.dropWhile Integer.isDigit)

namespace Window

def bindings (w : Window) : List (String × Int) :=
  [("#I", w.number), ("#\x7bactive_window_index\x7d", w.activeNumber),
    ("#\x7bwindow_start_flag\x7d", truth w.isFirst), ("#\x7bwindow_end_flag\x7d", truth w.isLast)]

/-- The value at the beginning of a text, with fuel for the operations inside each other. -/
def value? (w : Window) : Nat → List Char → Option (Int × List Char)
  | 0, _ => none
  | fuel + 1, cs =>
      match lookup? w.bindings cs with
      | some r => some r
      | none =>
          match lookup? operations cs with
          | some (operate, cs) => do
              let (a, cs) ← value? w fuel cs
              let cs ← Text.after? [','] cs
              let (b, cs) ← value? w fuel cs
              let cs ← Text.after? ['}'] cs
              some (operate a b, cs)
          | none => numeral? cs

variable (w : Window)

theorem value?_variable (fuel : Nat) {cs : List Char} {r : Int × List Char}
    (h : lookup? w.bindings cs = some r) : w.value? (fuel + 1) cs = some r := by
  simp only [value?, h]

theorem value?_numeral (fuel : Nat) {cs : List Char} (hvariable : lookup? w.bindings cs = none)
    (hoperation : lookup? operations cs = none) : w.value? (fuel + 1) cs = numeral? cs := by
  simp only [value?, hvariable, hoperation]

theorem value?_operation {fuel : Nat} {cs left right rest : List Char} {operate : Int → Int → Int}
    {a b : Int} (hvariable : lookup? w.bindings cs = none)
    (hoperation : lookup? operations cs = some (operate, left))
    (ha : w.value? fuel left = some (a, ',' :: right))
    (hb : w.value? fuel right = some (b, '}' :: rest)) :
    w.value? (fuel + 1) cs = some (operate a b, rest) := by
  have hcomma : Text.after? [','] (',' :: right) = some right := Text.after?_append [','] right
  have hbrace : Text.after? ['}'] ('}' :: rest) = some rest := Text.after?_append ['}'] rest
  simp [value?, hvariable, hoperation, ha, hb, hcomma, hbrace]

theorem value?_number (fuel : Nat) (rest : List Char) :
    w.value? (fuel + 1) ("#I".toList ++ rest) = some (w.number, rest) :=
  w.value?_variable fuel (by simp [lookup?, bindings, Text.after?, List.isPrefixOf?])

theorem value?_activeNumber (fuel : Nat) (rest : List Char) :
    w.value? (fuel + 1) ("#\x7bactive_window_index\x7d".toList ++ rest) =
      some (w.activeNumber, rest) :=
  w.value?_variable fuel (by simp [lookup?, bindings, Text.after?, List.isPrefixOf?])

theorem value?_one (fuel : Nat) (rest : List Char) :
    w.value? (fuel + 1) ('1' :: '}' :: rest) = some (1, '}' :: rest) := by
  rw [value?_numeral]
  · simp [numeral?, Integer.isDigit, Integer.natural?, Integer.accumulate, Integer.digitValue]
  · simp [lookup?, bindings, Text.after?, List.isPrefixOf?]
  · simp [lookup?, operations, Text.after?, List.isPrefixOf?]

theorem value?_compare {step : String} {operate : Int → Int → Int} {fuel : Nat} (hfuel : 3 ≤ fuel)
    (h : (step, operate) = ("#\x7be|-:", (· - ·)) ∨ (step, operate) = ("#\x7be|+:", (· + ·))) :
    w.value? fuel ("#\x7b==:#I,".toList ++ (step.toList ++
      "#\x7bactive_window_index\x7d,1\x7d\x7d".toList)) =
      some (equals w.number (operate w.activeNumber 1), []) := by
  obtain ⟨fuel, rfl⟩ := Nat.exists_eq_add_of_le' hfuel
  have hnumber := w.value?_number (fuel + 1) (',' :: (step.toList ++
    "#\x7bactive_window_index\x7d,1\x7d\x7d".toList))
  have hactive := w.value?_activeNumber fuel ",1\x7d\x7d".toList
  have hone := w.value?_one fuel ['}']
  have hstep : w.value? (fuel + 2) (step.toList ++
      "#\x7bactive_window_index\x7d,1\x7d\x7d".toList) =
      some (operate w.activeNumber 1, ['}']) := by
    refine w.value?_operation ?_ ?_ hactive hone
    · rcases h with h | h <;> cases h <;> simp [lookup?, bindings, Text.after?, List.isPrefixOf?]
    · rcases h with h | h <;> cases h <;> simp [lookup?, operations, Text.after?, List.isPrefixOf?]
  refine w.value?_operation ?_ ?_ hnumber hstep
  · simp [lookup?, bindings, Text.after?, List.isPrefixOf?]
  · simp [lookup?, operations, Text.after?, List.isPrefixOf?]

/-- The host's answer to a condition, which has to be one value. -/
def answer? (p : Predicate) : Option Bool :=
  match w.value? p.token.length p.token.toList with
  | some (x, []) => some (x ≠ 0)
  | _ => none

theorem answer?_of_value {p : Predicate} {b : Bool}
    (h : w.value? p.token.length p.token.toList = some (truth b, [])) : w.answer? p = some b := by
  simp only [answer?, h]
  cases b <;> rfl

theorem answer?_eq (p : Predicate) :
    w.answer? p = some (match p with
      | .isFirst => w.isFirst
      | .isLast => w.isLast
      | .beforeActive => w.number = w.activeNumber - 1
      | .afterActive => w.number = w.activeNumber + 1) := by
  cases p with
  | isFirst =>
      exact w.answer?_of_value (w.value?_variable _
        (by simp [lookup?, bindings, Text.after?, List.isPrefixOf?, Predicate.token]))
  | isLast =>
      exact w.answer?_of_value (w.value?_variable _
        (by simp [lookup?, bindings, Text.after?, List.isPrefixOf?, Predicate.token]))
  | beforeActive =>
      have hfuel : 3 ≤ Predicate.beforeActive.token.length := by decide
      exact w.answer?_of_value (w.value?_compare hfuel (.inl rfl))
  | afterActive =>
      have hfuel : 3 ≤ Predicate.afterActive.token.length := by decide
      exact w.answer?_of_value (w.value?_compare hfuel (.inr rfl))

end Window

variable (numbers : List Int) (active k : Fin numbers.length)

def windowAt : Window where
  number := numbers[k]
  activeNumber := numbers[active]
  isFirst := k.val = 0
  isLast := k.val + 1 = numbers.length

/-- Whether the numbers leave a gap between the window and the active one where a condition asks for
the next number. -/
def isGap : Predicate → Bool
  | .beforeActive => numbers[k] + 1 < numbers[active]
  | .afterActive => numbers[active] + 1 < numbers[k]
  | _ => false

variable {numbers}

theorem succ_iff (h : numbers.Pairwise (· < ·)) (i j : Fin numbers.length) :
    numbers[j] = numbers[i] + 1 ↔ i.val + 1 = j ∧ ¬ numbers[i] + 1 < numbers[j] := by
  have hlt {a b : Nat} (ha : a < numbers.length) (hb : b < numbers.length) (hab : a < b) :
      numbers[a] < numbers[b] := List.pairwise_iff_getElem.mp h a b ha hb hab
  simp only [Fin.getElem_fin]
  constructor
  · intro heq
    rcases Nat.lt_trichotomy i j with hij | hij | hij
    · rcases Nat.lt_or_eq_of_le hij with hbetween | hnext
      -- A window between the two would have a number between two neighbouring ones.
      · have hlow := hlt i.isLt (Nat.lt_trans hbetween j.isLt) (Nat.lt_succ_self i.val)
        have hhigh := hlt (Nat.lt_trans hbetween j.isLt) j.isLt hbetween
        omega
      · exact ⟨hnext, by omega⟩
    · simp only [hij] at heq
      omega
    · have := hlt j.isLt i.isLt hij
      omega
  · rintro ⟨hnext, hgap⟩
    have := hlt i.isLt j.isLt (by omega)
    omega

/-- The host answers as the places in the list are, unless the numbers of the window and the active
one leave a gap: a window directly before or after the active one is then taken for one that is
farther away. -/
theorem answer?_windowAt (h : numbers.Pairwise (· < ·)) (p : Predicate) :
    (windowAt numbers active k).answer? p =
      some (Layout.holds numbers.length active k p && !isGap numbers active k p) := by
  rw [Window.answer?_eq]
  cases p with
  | isFirst => simp [windowAt, Layout.holds, isGap]
  | isLast => simp [windowAt, Layout.holds, isGap]
  | beforeActive =>
      have hsucc := succ_iff h k active
      have heq : numbers[k] = numbers[active] - 1 ↔ numbers[active] = numbers[k] + 1 := by omega
      rw [← heq] at hsucc
      simp only [Fin.getElem_fin] at hsucc
      refine congrArg some (Bool.eq_iff_iff.mpr ?_)
      simp [windowAt, Layout.holds, isGap, hsucc]
  | afterActive =>
      have hsucc := succ_iff h active k
      rw [eq_comm (a := active.val + 1)] at hsucc
      simp only [Fin.getElem_fin] at hsucc
      refine congrArg some (Bool.eq_iff_iff.mpr ?_)
      simp [windowAt, Layout.holds, isGap, hsucc]

theorem answer?_windowAt_of_three :
    [1, 2, 5].Pairwise ((· < ·) : Int → Int → Prop) ∧
      (windowAt [1, 2, 5] (1 : Fin 3) (0 : Fin 3)).answer? .beforeActive = some true ∧
      (windowAt [1, 2, 5] (1 : Fin 3) (2 : Fin 3)).answer? .afterActive = some false := by
  have hsorted : [1, 2, 5].Pairwise ((· < ·) : Int → Int → Prop) := by decide
  refine ⟨hsorted, ?_, ?_⟩
  · exact (@answer?_windowAt [1, 2, 5] (1 : Fin 3) (0 : Fin 3) hsorted .beforeActive).trans
      (by decide)
  · exact (@answer?_windowAt [1, 2, 5] (1 : Fin 3) (2 : Fin 3) hsorted .afterActive).trans
      (by decide)

theorem answer?_across_gap :
    Layout.holds 2 1 0 .beforeActive = true ∧
      (windowAt [1, 3] (1 : Fin 2) (0 : Fin 2)).answer? .beforeActive = some false ∧
    Layout.holds 2 0 1 .afterActive = true ∧
      (windowAt [1, 3] (0 : Fin 2) (1 : Fin 2)).answer? .afterActive = some false := by
  simp only [Window.answer?_eq]
  decide

end StatusLine.Host
