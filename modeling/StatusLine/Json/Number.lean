import StatusLine.Document.Node

/-!
Numbers in JSON texts. An integer that fits a word is kept; any other number is a double that comes
from at most twenty significant digits and one power of ten.
-/

namespace StatusLine.Json.Number

structure Parts where
  negative : Bool
  whole : List Char
  fraction : List Char
  exponent : Option (Bool × List Char)

def limit : Nat := 18446744073709551616

structure Significand where
  digits : Nat
  exponent : Int

/-- Once a digit of the whole part does not fit, it and the digits after it only count. -/
def takeWhole : Significand → List Char → Significand
  | s, [] => s
  | s, d :: ds =>
      let n := s.digits * 10 + Integer.digitValue d
      if n < limit then takeWhole ⟨n, s.exponent⟩ ds
      else ⟨s.digits, s.exponent + (ds.length + 1)⟩

/-- The first digit of the fraction that does not fit ends it. -/
def takeFraction : Significand → List Char → Significand
  | s, [] => s
  | s, d :: ds =>
      let n := s.digits * 10 + Integer.digitValue d
      if n < limit then takeFraction ⟨n, s.exponent - 1⟩ ds else s

def powerOfTen (n : Nat) : Binary64 := .ofRatio false (Nat.pow 10 n) 1

def scale : Nat → Binary64 → Int → Option Binary64
  | 0, x, _ => some x
  | fuel + 1, x, e =>
      if e.natAbs ≤ 308 then
        let y := if 0 ≤ e then x.mul (powerOfTen e.natAbs) else x.div (powerOfTen e.natAbs)
        if y.isFinite then some y else none
      else if x.isZero then some x
      else if 0 ≤ e then none
      else scale fuel (x.div (powerOfTen 308)) (e + 308)

def signed (negative : Bool) (x : Binary64) : Binary64 := if negative then x.neg else x

/-- The double of a significand. Three steps down bring every significand to zero. -/
def real (negative : Bool) (s : Significand) : Node :=
  match scale 4 (.ofNat s.digits) s.exponent with
  | some x => .real (signed negative x)
  | none => .valueless

def integer (negative : Bool) (n : Nat) : Node :=
  if !negative then .integer n
  else if n = 0 ∨ 9223372036854775808 < n then .real (.neg (.ofNat n))
  else .integer (-n)

def value (p : Parts) : Node :=
  let w := takeWhole ⟨0, 0⟩ p.whole
  match p.fraction, p.exponent with
  | [], none => if w.exponent = 0 then integer p.negative w.digits else real p.negative w
  | fs, none => real p.negative (takeFraction w fs)
  | fs, some (down, ds) =>
      let s := takeFraction w fs
      let e := Integer.accumulate 10 Integer.digitValue 0 ds
      if e < 2147483648 then
        real p.negative ⟨s.digits, if down then s.exponent - e else s.exponent + e⟩
      else if s.digits = 0 ∨ down then .real (.zero p.negative)
      else .valueless

def wholePart : List Char → Option (List Char × List Char)
  | '0' :: rest =>
      match rest with
      | d :: _ => if Integer.isDigit d then none else some (['0'], rest)
      | [] => some (['0'], [])
  | cs =>
      match cs.span Integer.isDigit with
      | ([], _) => none
      | (ds, rest) => some (ds, rest)

def fractionPart : List Char → Option (List Char × List Char)
  | '.' :: cs =>
      match cs.span Integer.isDigit with
      | ([], _) => none
      | (ds, rest) => some (ds, rest)
  | cs => some ([], cs)

def exponentDigits (down : Bool) (cs : List Char) :
    Option (Option (Bool × List Char) × List Char) :=
  match cs.span Integer.isDigit with
  | ([], _) => none
  | (ds, rest) => some (some (down, ds), rest)

def exponentPart : List Char → Option (Option (Bool × List Char) × List Char)
  | c :: cs =>
      if c = 'e' ∨ c = 'E' then
        match cs with
        | '+' :: ds => exponentDigits false ds
        | '-' :: ds => exponentDigits true ds
        | ds => exponentDigits false ds
      else some (none, c :: cs)
  | [] => some (none, [])

def parts (negative : Bool) (cs : List Char) : Option (Parts × List Char) := do
  let (w, cs) ← wholePart cs
  let (f, cs) ← fractionPart cs
  let (e, cs) ← exponentPart cs
  some (⟨negative, w, f, e⟩, cs)

def read (negative : Bool) (cs : List Char) : Node × List Char :=
  match parts negative cs with
  | some (p, rest) => (value p, rest)
  | none => (.missing, [])

end StatusLine.Json.Number
