import StatusLine.Number.Binary64

/-!
The shortest decimal form of a double: the fewest digits that read back as it, and of those the
nearest. Which of two that are equally near is taken, where the point stands and when an exponent is
written is a `RealNotation`.
-/

namespace StatusLine

structure Decimal where
  digits : Nat
  exponent : Int
deriving DecidableEq, Repr

inductive Halfway where
  | even
  | up
deriving DecidableEq, Repr

def Halfway.of : Halfway → Nat → Nat
  | .even, d => d + d % 2
  | .up, d => d + 1

namespace Binary64

/-- Four times the magnitude of a double and of the two ends of the interval that rounds to it, in
units of `2 ^ (exponent - 2)`. -/
structure Interval where
  low : Nat
  value : Nat
  high : Nat
  unit : Int
  closed : Bool

def interval (m : Nat) (e : Int) : Interval where
  low := if m = Nat.pow 2 52 ∧ leastExponent < e then 4 * m - 1 else 4 * m - 2
  value := 4 * m
  high := 4 * m + 2
  unit := e - 2
  closed := m % 2 = 0

def sides (x : Nat) (unit : Int) (d : Nat) (p : Int) : Nat × Nat :=
  (x * Nat.pow 2 unit.toNat * Nat.pow 10 (-p).toNat,
    d * Nat.pow 10 p.toNat * Nat.pow 2 (-unit).toNat)

def Interval.contains (i : Interval) (d : Nat) (p : Int) : Bool :=
  let l := sides i.low i.unit d p
  let h := sides i.high i.unit d p
  if i.closed then l.1 ≤ l.2 && h.2 ≤ h.1 else l.1 < l.2 && h.2 < h.1

def Interval.nearer (i : Interval) (halfway : Halfway) (d : Nat) (p : Int) : Nat :=
  let s := sides i.value i.unit (2 * d + 1) p
  if 2 * s.1 < s.2 then d else if s.2 < 2 * s.1 then d + 1 else halfway.of d

/-- The point of the grid of `10 ^ p` that reads back, if there is one. -/
def Interval.onGrid (i : Interval) (halfway : Halfway) (p : Int) : Option Decimal :=
  let s := sides i.value i.unit 1 p
  let d := s.1 / s.2
  match i.contains d p, i.contains (d + 1) p with
  | true, true => some ⟨i.nearer halfway d p, p⟩
  | true, false => some ⟨d, p⟩
  | false, true => some ⟨d + 1, p⟩
  | false, false => none

def decimalExponent (m : Nat) (e : Int) : Int :=
  let guess := ((m.log2 : Int) + e) * 30103 / 100000
  let above (x : Int) : Bool := (sides m e 1 x).2 ≤ (sides m e 1 x).1
  if above (guess + 1) then guess + 1 else if above guess then guess else guess - 1

def shortest (halfway : Halfway) (m : Nat) (e : Int) : Decimal :=
  let i := interval m e
  let x := decimalExponent m e
  match (List.range 17).findSome? fun (n : Nat) => i.onGrid halfway (x - n) with
  | some d => d
  | none => ⟨0, 0⟩

end Binary64

/-- Which of two equally short and near decimals is written, and which decimal exponents are written
with a point alone. -/
structure RealNotation where
  halfway : Halfway
  positional : Int → Bool

namespace RealNotation

def document : RealNotation := ⟨.even, fun x => -5 ≤ x && x ≤ 15⟩

def plain : RealNotation := ⟨.up, fun _ => true⟩

def zeros (n : Nat) : List Char := List.replicate n '0'

/-- Digits with a point after the one that stands for `10 ^ 0`, the first standing for `10 ^ x`. -/
def pointed (ds : List Char) (x : Int) : List Char :=
  if x < 0 then '0' :: '.' :: zeros (-x - 1).toNat ++ ds
  else
    let n := x.toNat + 1
    if ds.length ≤ n then ds ++ zeros (n - ds.length) ++ ['.', '0']
    else ds.take n ++ '.' :: ds.drop n

def powered (ds : List Char) (x : Int) : List Char :=
  let head := match ds with
    | [] => []
    | [d] => [d]
    | d :: rest => d :: '.' :: rest
  head ++ 'e' :: (if x < 0 then '-' else '+') :: Nat.toDigits 10 x.natAbs

def magnitude (style : RealNotation) (m : Nat) (e : Int) : List Char :=
  if m = 0 then ['0', '.', '0']
  else
    let d := Binary64.shortest style.halfway m e
    let all := Nat.toDigits 10 d.digits
    let x := d.exponent + all.length - 1
    let ds := (all.reverse.dropWhile (· == '0')).reverse
    if style.positional x then pointed ds x else powered ds x

def text (style : RealNotation) : Binary64 → List Char
  | .finite s m e => if s then '-' :: style.magnitude m e else style.magnitude m e
  | .infinity s => if s then ['-', 'i', 'n', 'f'] else ['i', 'n', 'f']
  | .notNumber => ['N', 'a', 'N']

end RealNotation

end StatusLine
