namespace StatusLine.Integer

def isDigit (c : Char) : Bool := '0' ≤ c && c ≤ '9'

def digitValue (c : Char) : Nat := c.toNat - 48

def accumulate (base : Nat) (digit : Char → Nat) (start : Nat) (ds : List Char) : Nat :=
  ds.foldl (fun n c => n * base + digit c) start

def natural? (ds : List Char) : Option Nat :=
  if !ds.isEmpty && ds.all isDigit then some (accumulate 10 digitValue 0 ds) else none

def read? : List Char → Option Int
  | '+' :: ds => (natural? ds).map Int.ofNat
  | '-' :: ds => (natural? ds).map fun n => -(n : Int)
  | ds => (natural? ds).map Int.ofNat

def isWord (i : Int) : Bool := -9223372036854775808 ≤ i && i < 9223372036854775808

/-- The range of signed and unsigned words of 64 bits together. -/
def isWhole (i : Int) : Bool := -9223372036854775808 ≤ i && i < 18446744073709551616

def word? (cs : List Char) : Option Int := (read? cs).filter isWord

def decimal (i : Int) : List Char :=
  if i < 0 then '-' :: Nat.toDigits 10 i.natAbs else Nat.toDigits 10 i.natAbs

def text (i : Int) : String := String.ofList (decimal i)

end StatusLine.Integer
