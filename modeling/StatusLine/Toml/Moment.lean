import StatusLine.Time.Calendar
import StatusLine.Toml.Text

/-!
Dates and times of TOML, kept as texts: seconds with at most nine places, of which trailing zeros
are dropped.
-/

namespace StatusLine.Toml.Moment

def number? (width : Nat) (cs : List Char) : Reading Nat :=
  let ds := cs.take width
  if ds.length = width ∧ ds.all Integer.isDigit then
    some (Integer.accumulate 10 Integer.digitValue 0 ds, cs.drop width)
  else none

def upTo? (limit : Nat) (cs : List Char) : Reading Nat :=
  (number? 2 cs).filter fun r => r.1 ≤ limit

def mark? (c : Char) (cs : List Char) : Option (List Char) := Text.after? [c] cs

def wide (width n : Nat) : List Char :=
  let ds := Nat.toDigits 10 n
  List.replicate (width - ds.length) '0' ++ ds

def date? (cs : List Char) : Option (List Char × List Char) := do
  let (y, cs) ← number? 4 cs
  let cs ← mark? '-' cs
  let (m, cs) ← upTo? 12 cs
  let cs ← mark? '-' cs
  let (d, cs) ← upTo? (monthLength y m) cs
  if m = 0 ∨ d = 0 then none
  else some (wide 4 y ++ '-' :: wide 2 m ++ '-' :: wide 2 d, cs)

def places (cs : List Char) : List Char × List Char :=
  match cs with
  | '.' :: rest =>
      match rest.span Integer.isDigit with
      | ([], _) => ([], cs)
      | (ds, rest) =>
          match ((ds.take 9).reverse.dropWhile (· == '0')).reverse with
          | [] => ([], rest)
          | kept => ('.' :: kept, rest)
  | cs => ([], cs)

/-- A time of day; a minute may have a leap second. -/
def time? (cs : List Char) : Option (List Char × List Char) := do
  let (h, cs) ← upTo? 23 cs
  let cs ← mark? ':' cs
  let (m, cs) ← upTo? 59 cs
  let cs ← mark? ':' cs
  let (s, cs) ← upTo? 60 cs
  let (p, cs) := places cs
  some (wide 2 h ++ ':' :: wide 2 m ++ ':' :: wide 2 s ++ p, cs)

def hoursMinutes? (negative : Bool) (cs : List Char) : Option (List Char × List Char) := do
  let (h, cs) ← upTo? 23 cs
  let cs ← mark? ':' cs
  let (m, cs) ← upTo? 59 cs
  let minus := negative && (h ≠ 0 || m ≠ 0)
  some ((if minus then '-' else '+') :: wide 2 h ++ ':' :: wide 2 m, cs)

def offset? : List Char → Reading (List Char)
  | 'Z' :: cs => some (['Z'], cs)
  | 'z' :: cs => some (['Z'], cs)
  | '+' :: cs => hoursMinutes? false cs
  | '-' :: cs => hoursMinutes? true cs
  | cs => some ([], cs)

def timeOfDate? : List Char → Option (List Char × List Char)
  | c :: cs => do
      if c ≠ 'T' ∧ c ≠ 't' ∧ c ≠ ' ' then none
      let (t, cs) ← time? cs
      let (o, cs) ← offset? cs
      some ('T' :: t ++ o, cs)
  | [] => none

def moment? (cs : List Char) : Reading (List Char) :=
  match date? cs with
  | some (d, cs) =>
      match timeOfDate? cs with
      | some (t, cs) => some (d ++ t, cs)
      | none => some (d, cs)
  | none => time? cs

end StatusLine.Toml.Moment
