import StatusLine.Document.Node
import StatusLine.Toml.Text

namespace StatusLine.Toml.Number

def digits (isDigit : Char → Bool) : List Char → List Char × List Char
  | '_' :: c :: cs =>
      if isDigit c then
        let r := digits isDigit cs
        (c :: r.1, r.2)
      else ([], '_' :: c :: cs)
  | c :: cs =>
      if isDigit c then
        let r := digits isDigit cs
        (c :: r.1, r.2)
      else ([], c :: cs)
  | [] => ([], [])

/-- At least one digit, and no underscore first. -/
def digits? (isDigit : Char → Bool) : List Char → Reading (List Char)
  | c :: cs => if isDigit c then some (digits isDigit (c :: cs)) else none
  | [] => none

/-- A zero alone, or digits that do not begin with one. -/
def whole? : List Char → Reading (List Char)
  | '0' :: cs => some (['0'], cs)
  | cs => digits? Integer.isDigit cs

def fraction? : List Char → Reading (List Char)
  | '.' :: cs => digits? Integer.isDigit cs
  | cs => some ([], cs)

def sign : List Char → Bool × List Char
  | '-' :: cs => (true, cs)
  | '+' :: cs => (false, cs)
  | cs => (false, cs)

def exponentDigits? (cs : List Char) : Reading Int :=
  let (down, cs) := sign cs
  (digits? Integer.isDigit cs).map fun r =>
    let e := Integer.accumulate 10 Integer.digitValue 0 r.1
    (if down then -(e : Int) else e, r.2)

def exponent? : List Char → Reading (Option Int)
  | 'e' :: cs => (exponentDigits? cs).map fun r => (some r.1, r.2)
  | 'E' :: cs => (exponentDigits? cs).map fun r => (some r.1, r.2)
  | cs => some (none, cs)

def integer? (i : Int) : Option Node := if Integer.isWord i then some (.integer i) else none

/-- The double nearest to a number; one above all doubles is refused. -/
def real? (negative : Bool) (ds : List Char) (exponent : Int) : Option Node :=
  match Binary64.ofDecimal negative (Integer.accumulate 10 Integer.digitValue 0 ds) exponent with
  | .infinity false => none
  | x => some (.real x)

def decimal? (negative : Bool) (cs : List Char) : Option (Node × List Char) := do
  let (w, cs) ← whole? cs
  let (f, cs) ← fraction? cs
  let (e, cs) ← exponent? cs
  let node ←
    if f.isEmpty && e.isNone then
      let n := Integer.accumulate 10 Integer.digitValue 0 w
      integer? (if negative then -(n : Int) else n)
    else real? negative (w ++ f) (e.getD 0 - f.length)
  some (node, cs)

def based? (base : Nat) (cs : List Char) : Option (Node × List Char) := do
  let isDigit c := match hexDigit? c with
    | some d => decide (d < base)
    | none => false
  let (ds, cs) ← digits? isDigit cs
  let node ← integer? (Integer.accumulate base (fun c => (hexDigit? c).getD 0) 0 ds)
  some (node, cs)

def special? (negative : Bool) : List Char → Reading Node
  | 'i' :: 'n' :: 'f' :: cs => some (.real (.infinity negative), cs)
  | 'n' :: 'a' :: 'n' :: cs => some (.real .notNumber, cs)
  | _ => none

def number? : List Char → Reading Node
  | '0' :: 'x' :: cs => based? 16 cs
  | '0' :: 'o' :: cs => based? 8 cs
  | '0' :: 'b' :: cs => based? 2 cs
  | cs =>
      let (negative, cs) := sign cs
      (special? negative cs).or (decimal? negative cs)

end StatusLine.Toml.Number
