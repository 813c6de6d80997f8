import Mathlib.Data.List.TakeDrop
import StatusLine.Json.Number
import StatusLine.Proofs.Number.Decimal

namespace StatusLine.Json.Number

open Integer

/-- What can follow a value in a text: another member or item, or the end of a list or a table. -/
def Closes (rest : List Char) : Prop := ∀ c, rest.head? = some c → c = ',' ∨ c = '\n'

def Stops (rest : List Char) : Prop := ∀ c, rest.head? = some c → isDigit c = false

theorem Closes.stops {rest : List Char} (h : Closes rest) : Stops rest := by
  intro c hc
  rcases h c hc with rfl | rfl <;> rfl

theorem stops_cons {c : Char} (cs : List Char) (h : isDigit c = false) : Stops (c :: cs) := by
  rintro d ⟨⟩
  exact h

theorem span_digits {ds rest : List Char} (hall : ds.all isDigit = true) (h : Stops rest) :
    (ds ++ rest).span isDigit = (ds, rest) := by
  have hrest : rest.takeWhile isDigit = [] ∧ rest.dropWhile isDigit = rest := by
    cases rest with
    | nil => exact ⟨rfl, rfl⟩
    | cons c rest => simp [h c rfl]
  have hdigits := List.all_eq_true.mp hall
  rw [List.span_eq_takeWhile_dropWhile, List.takeWhile_append_of_pos hdigits,
    List.dropWhile_append_of_pos hdigits, hrest.1, hrest.2, List.append_nil]

theorem wholePart_zero {rest : List Char} (h : Stops rest) :
    wholePart ('0' :: rest) = some (['0'], rest) := by
  cases rest with
  | nil => rfl
  | cons c rest => simp [wholePart, h c rfl]

theorem wholePart_leading {c : Char} {ds rest : List Char} (hzero : c ≠ '0')
    (hall : (c :: ds).all isDigit = true) (h : Stops rest) :
    wholePart (c :: ds ++ rest) = some (c :: ds, rest) := by
  have hspan := span_digits hall h
  rw [List.cons_append] at hspan ⊢
  rw [wholePart]
  · simp only [hspan]
  · simp [hzero]

theorem wholePart_digits (n : Nat) {rest : List Char} (h : Closes rest) :
    wholePart (Nat.toDigits 10 n ++ rest) = some (Nat.toDigits 10 n, rest) := by
  by_cases hn : n = 0
  · subst hn
    exact wholePart_zero h.stops
  · obtain ⟨c, ds, heq, hzero, -⟩ := toDigits_head_of_pos (show 0 < n by omega)
    have hall := all_isDigit_toDigits n
    rw [heq] at hall ⊢
    exact wholePart_leading hzero hall h.stops

theorem fractionPart_closes {rest : List Char} (h : Closes rest) :
    fractionPart rest = some ([], rest) := by
  cases rest with
  | nil => rfl
  | cons c rest => rcases h c rfl with rfl | rfl <;> rfl

theorem exponentPart_closes {rest : List Char} (h : Closes rest) :
    exponentPart rest = some (none, rest) := by
  cases rest with
  | nil => rfl
  | cons c rest => rcases h c rfl with rfl | rfl <;> rfl

theorem takeWhole_of_lt (ds : List Char) (n : Nat) (e : Int)
    (h : accumulate 10 digitValue n ds < limit) :
    takeWhole ⟨n, e⟩ ds = ⟨accumulate 10 digitValue n ds, e⟩ := by
  induction ds generalizing n with
  | nil => rfl
  | cons d ds ih =>
      have hle := le_accumulate ds (n * 10 + digitValue d)
      simp only [accumulate, List.foldl_cons] at h hle ⊢
      have hlt : n * 10 + digitValue d < limit := by omega
      simp only [takeWhole, hlt, ↓reduceIte]
      exact ih _ h

theorem read_digits (negative : Bool) {n : Nat} {rest : List Char} (h : Closes rest)
    (hn : n < limit) :
    read negative (Nat.toDigits 10 n ++ rest) = (integer negative n, rest) := by
  have htake := takeWhole_of_lt (Nat.toDigits 10 n) 0 0 (by rwa [accumulate_toDigits])
  rw [accumulate_toDigits] at htake
  simp [read, parts, wholePart_digits n h, fractionPart_closes h, exponentPart_closes h, value,
    htake]

end StatusLine.Json.Number
