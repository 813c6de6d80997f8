import StatusLine.Number.Integer
import StatusLine.Text.Trim
import StatusLine.Time.Calendar

/-!
Formatting dates and times by a pattern with `%` specifiers. A pattern with a specifier that does
not exist formats nothing.
-/

namespace StatusLine.Time

inductive Pad where
  | none
  | zero
  | space
deriving DecidableEq, Repr

inductive Quantity where
  | year
  | century
  | yearOfCentury
  | isoYear
  | isoYearOfCentury
  | quarter
  | month
  | day
  | weekFromSunday
  | weekFromMonday
  | isoWeek
  | weekday
  | isoWeekday
  | ordinal
  | hour
  | hour12
  | minute
  | second
  | nanosecond
  | timestamp
deriving DecidableEq, Repr

inductive OffsetStyle where
  | plain
  | colon
  | seconds
  | hours
deriving DecidableEq, Repr

inductive Item where
  | text (s : List Char)
  | number (q : Quantity) (pad : Pad)
  | weekday (long : Bool)
  | month (long : Bool)
  | half (upper : Bool)
  | fraction
  | fractionDigits (point : Bool) (digits : Nat)
  | offset (style : OffsetStyle)
  | zone
  | standard
deriving DecidableEq, Repr

def zero (q : Quantity) : Item := .number q .zero

def clock : List Item :=
  [zero .hour, .text [':'], zero .minute, .text [':'], zero .second]

def slashed : List Item :=
  [zero .month, .text ['/'], zero .day, .text ['/'], zero .yearOfCentury]

def letter? : Char → Option (List Item)
  | 'A' => some [.weekday true]
  | 'B' => some [.month true]
  | 'C' => some [zero .century]
  | 'D' => some slashed
  | 'F' => some [zero .year, .text ['-'], zero .month, .text ['-'], zero .day]
  | 'G' => some [zero .isoYear]
  | 'H' => some [zero .hour]
  | 'I' => some [zero .hour12]
  | 'M' => some [zero .minute]
  | 'P' => some [.half false]
  | 'R' => some [zero .hour, .text [':'], zero .minute]
  | 'S' => some [zero .second]
  | 'T' => some clock
  | 'U' => some [zero .weekFromSunday]
  | 'V' => some [zero .isoWeek]
  | 'W' => some [zero .weekFromMonday]
  | 'X' => some clock
  | 'Y' => some [zero .year]
  | 'Z' => some [.zone]
  | 'a' => some [.weekday false]
  | 'b' => some [.month false]
  | 'c' => some ([.weekday false, .text [' '], .month false, .text [' '], .number .day .space,
      .text [' ']] ++ clock ++ [.text [' '], zero .year])
  | 'd' => some [zero .day]
  | 'e' => some [.number .day .space]
  | 'f' => some [zero .nanosecond]
  | 'g' => some [zero .isoYearOfCentury]
  | 'h' => some [.month false]
  | 'j' => some [zero .ordinal]
  | 'k' => some [.number .hour .space]
  | 'l' => some [.number .hour12 .space]
  | 'm' => some [zero .month]
  | 'n' => some [.text ['\n']]
  | 'p' => some [.half true]
  | 'q' => some [.number .quarter .none]
  | 'r' => some [zero .hour12, .text [':'], zero .minute, .text [':'], zero .second, .text [' '],
      .half true]
  | 's' => some [.number .timestamp .none]
  | 't' => some [.text ['\t']]
  | 'u' => some [.number .isoWeekday .none]
  | 'v' => some [.number .day .space, .text ['-'], .month false, .text ['-'], zero .year]
  | 'w' => some [.number .weekday .none]
  | 'x' => some slashed
  | 'y' => some [zero .yearOfCentury]
  | 'z' => some [.offset .plain]
  | '+' => some [.standard]
  | '%' => some [.text ['%']]
  | _ => none

def longSpecifiers : List (List Char × Item) := [
  (":::z".toList, .offset .hours),
  ("::z".toList, .offset .seconds),
  (":z".toList, .offset .colon),
  (".3f".toList, .fractionDigits true 3),
  (".6f".toList, .fractionDigits true 6),
  (".9f".toList, .fractionDigits true 9),
  (".f".toList, .fraction),
  ("3f".toList, .fractionDigits false 3),
  ("6f".toList, .fractionDigits false 6),
  ("9f".toList, .fractionDigits false 9)]

def specifier? (cs : List Char) : Option (List Item × Nat) :=
  match longSpecifiers.find? fun s => (Text.after? s.1 cs).isSome with
  | some (word, item) => some ([item], word.length)
  | none =>
      match cs with
      | c :: _ => (letter? c).map fun items => (items, 1)
      | [] => none

def pad? : Char → Option Pad
  | '-' => some .none
  | '0' => some .zero
  | '_' => some .space
  | _ => none

/-- Only a single number can be padded otherwise. -/
def padded? (pad : Pad) : List Item → Option (List Item)
  | [.number q _] => some [.number q pad]
  | _ => none

def conversion? (cs : List Char) : Option (List Item × Nat) :=
  match cs with
  | c :: rest =>
      match pad? c with
      | some pad => do
          let (items, n) ← specifier? rest
          let items ← padded? pad items
          some (items, n + 1)
      | none => specifier? cs
  | [] => none

/-- The items of a pattern; `skip` characters belong to the specifier before. -/
def itemsFrom? : Nat → List Char → Option (List Item)
  | _, [] => some []
  | skip + 1, _ :: cs => itemsFrom? skip cs
  | 0, '%' :: cs =>
      match conversion? cs with
      | some (items, n) => (itemsFrom? n cs).map (items ++ ·)
      | none => none
  | 0, c :: cs => (itemsFrom? 0 cs).map (.text [c] :: ·)

def items? (pattern : String) : Option (List Item) := itemsFrom? 0 pattern.toList

def weekdays : List String :=
  ["Sunday", "Monday", "Tuesday", "Wednesday", "Thursday", "Friday", "Saturday"]

def months : List String :=
  ["January", "February", "March", "April", "May", "June", "July", "August", "September",
    "October", "November", "December"]

def nameAt (long : Bool) (names : List String) (i : Nat) : List Char :=
  let name := (names.getD i "").toList
  if long then name else name.take 3

def fill (pad : Pad) (width : Nat) (ds : List Char) : List Char :=
  match pad with
  | .none => ds
  | .zero => List.replicate (width - ds.length) '0' ++ ds
  | .space => List.replicate (width - ds.length) ' ' ++ ds

def natural (pad : Pad) (width n : Nat) : List Char := fill pad width (Nat.toDigits 10 n)

/-- A year of more than four digits, or before the year zero, is written with its sign. -/
def yearDigits (pad : Pad) (y : Int) : List Char :=
  if 0 ≤ y ∧ y ≤ 9999 then natural pad 4 y.toNat
  else
    let signed := (if y < 0 then '-' else '+') :: Nat.toDigits 10 y.natAbs
    match pad with
    | .zero => signed.take 1 ++ natural .zero 4 y.natAbs
    | pad => fill pad 5 signed

def integer (pad : Pad) (width : Nat) (i : Int) : List Char :=
  if 0 ≤ i then natural pad width i.toNat
  else
    match pad with
    | .zero => '-' :: natural .zero (width - 1) i.natAbs
    | pad => fill pad width ('-' :: Nat.toDigits 10 i.natAbs)

def quantity (m : Moment) (pad : Pad) : Quantity → List Char
  | .year => yearDigits pad m.date.year
  | .century => integer pad 2 (m.date.year / 100)
  | .yearOfCentury => natural pad 2 (m.date.year % 100).toNat
  | .isoYear => yearDigits pad m.isoWeek.1
  | .isoYearOfCentury => natural pad 2 (m.isoWeek.1 % 100).toNat
  | .quarter => natural pad 1 m.date.quarter
  | .month => natural pad 2 m.date.month
  | .day => natural pad 2 m.date.day
  | .weekFromSunday => natural pad 2 m.weekFromSunday
  | .weekFromMonday => natural pad 2 m.weekFromMonday
  | .isoWeek => natural pad 2 m.isoWeek.2
  | .weekday => natural pad 1 m.weekday
  | .isoWeekday => natural pad 1 m.isoWeekday
  | .ordinal => natural pad 3 m.date.ordinal
  | .hour => natural pad 2 m.hour
  | .hour12 => natural pad 2 m.hour12
  | .minute => natural pad 2 m.minute
  | .second => natural pad 2 m.second
  | .nanosecond => natural pad 9 m.nanos
  | .timestamp => integer pad 9 m.seconds

def fractionDigits (m : Moment) (digits : Nat) : List Char := (natural .zero 9 m.nanos).take digits

/-- The fraction of a second in as many groups of three digits as it needs. -/
def fraction (m : Moment) : List Char :=
  if m.nanos = 0 then []
  else if m.nanos % 1000000 = 0 then '.' :: fractionDigits m 3
  else if m.nanos % 1000 = 0 then '.' :: fractionDigits m 6
  else '.' :: fractionDigits m 9

def offset (m : Moment) (style : OffsetStyle) : List Char :=
  let sign := if m.offset < 0 then '-' else '+'
  let exact := m.offset.natAbs
  let minutes := (exact + 30) / 60
  match style with
  | .plain => sign :: natural .zero 2 (minutes / 60) ++ natural .zero 2 (minutes % 60)
  | .colon => sign :: natural .zero 2 (minutes / 60) ++ ':' :: natural .zero 2 (minutes % 60)
  | .seconds =>
      sign :: natural .zero 2 (exact / 3600) ++ ':' :: natural .zero 2 (exact / 60 % 60) ++
        ':' :: natural .zero 2 (exact % 60)
  | .hours => sign :: natural .zero 2 (exact / 3600)

def zone (m : Moment) : List Char :=
  if m.offset % 60 = 0 then offset m .colon else offset m .seconds

def standard (m : Moment) : List Char :=
  yearDigits .zero m.date.year ++ '-' :: natural .zero 2 m.date.month ++
    '-' :: natural .zero 2 m.date.day ++ 'T' :: natural .zero 2 m.hour ++
    ':' :: natural .zero 2 m.minute ++ ':' :: natural .zero 2 m.second ++ fraction m ++
    offset m .colon

def Item.write (m : Moment) : Item → List Char
  | .text s => s
  | .number q pad => Time.quantity m pad q
  | .weekday long => nameAt long weekdays m.weekday
  | .month long => nameAt long months (m.date.month - 1)
  | .half upper =>
      if m.hour < 12 then (if upper then "AM" else "am").toList
      else (if upper then "PM" else "pm").toList
  | .fraction => Time.fraction m
  | .fractionDigits point digits =>
      (if point then ['.'] else []) ++ Time.fractionDigits m digits
  | .offset style => Time.offset m style
  | .zone => Time.zone m
  | .standard => Time.standard m

def format? (pattern : String) (m : Moment) : Option String :=
  (items? pattern).map fun items => String.ofList (items.flatMap (Item.write m))

end StatusLine.Time
