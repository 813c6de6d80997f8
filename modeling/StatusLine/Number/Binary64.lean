/-!
Double-precision numbers as exact values. `ofRatio` rounds a quotient of natural numbers to the
nearest double; products and quotients of doubles are exact until that one rounding.
-/

namespace StatusLine

/-- A double: `mantissa · 2 ^ exponent` with its sign, an infinity, or no number at all. -/
inductive Binary64 where
  | finite (negative : Bool) (mantissa : Nat) (exponent : Int)
  | infinity (negative : Bool)
  | notNumber
deriving DecidableEq, Repr, Inhabited

namespace Binary64

def leastExponent : Int := -1074

def mostExponent : Int := 971

def zero (negative : Bool) : Binary64 := .finite negative 0 leastExponent

/-- The quotient rounded to the nearest integer, a half to the even neighbour. -/
def roundDiv (num den : Nat) : Nat :=
  let q := num / den
  let r := num % den
  if 2 * r < den then q
  else if den < 2 * r then q + 1
  else q + q % 2

/-- `num / den` in units of `2 ^ e`, as a quotient. -/
def scaled (num den : Nat) (e : Int) : Nat × Nat :=
  if 0 ≤ e then (num, den * Nat.pow 2 e.toNat) else (num * Nat.pow 2 (-e).toNat, den)

def ofParts (negative : Bool) (mantissa : Nat) (exponent : Int) : Binary64 :=
  if mostExponent < exponent then .infinity negative else .finite negative mantissa exponent

/-- The double nearest to `num / den`, a tie to the even mantissa. -/
def ofRatio (negative : Bool) (num den : Nat) : Binary64 :=
  if num = 0 then zero negative
  else
    let e₀ := max ((num.log2 : Int) - den.log2 - 53) leastExponent
    let s := scaled num den e₀
    let e := if s.1 / s.2 < Nat.pow 2 53 then e₀ else e₀ + 1
    let t := scaled num den e
    let m := roundDiv t.1 t.2
    if m = Nat.pow 2 53 then ofParts negative (Nat.pow 2 52) (e + 1) else ofParts negative m e

def ofNat (n : Nat) : Binary64 := ofRatio false n 1

def ratio (m : Nat) (e : Int) : Nat × Nat :=
  if 0 ≤ e then (m * Nat.pow 2 e.toNat, 1) else (m, Nat.pow 2 (-e).toNat)

def isFinite : Binary64 → Bool
  | .finite .. => true
  | _ => false

def isZero : Binary64 → Bool
  | .finite _ 0 _ => true
  | _ => false

def neg : Binary64 → Binary64
  | .finite s m e => .finite (!s) m e
  | .infinity s => .infinity (!s)
  | .notNumber => .notNumber

def mul : Binary64 → Binary64 → Binary64
  | .finite s m e, .finite t n f =>
      let a := ratio m e
      let b := ratio n f
      ofRatio (s != t) (a.1 * b.1) (a.2 * b.2)
  | _, _ => .notNumber

def div : Binary64 → Binary64 → Binary64
  | .finite s m e, .finite t n f =>
      let a := ratio m e
      let b := ratio n f
      ofRatio (s != t) (a.1 * b.2) (a.2 * b.1)
  | _, _ => .notNumber

/-- Equality of the numbers: the two zeros are equal and what is no number equals nothing. -/
def same (x y : Binary64) : Bool :=
  match x, y with
  | .notNumber, _ => false
  | x, y => (x.isZero && y.isZero) || x == y

def ofDecimal (negative : Bool) (digits : Nat) (exponent : Int) : Binary64 :=
  if digits = 0 then zero negative
  else if 400 < exponent then .infinity negative
  else if exponent + digits.log2 < -1200 then zero negative
  else if 0 ≤ exponent then ofRatio negative (digits * Nat.pow 10 exponent.toNat) 1
  else ofRatio negative digits (Nat.pow 10 (-exponent).toNat)

end Binary64

end StatusLine
