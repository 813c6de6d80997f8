import StatusLine.Keyed
import StatusLine.Number.Integer
import StatusLine.Number.Shortest

namespace StatusLine

/-- The integers that a document keeps as integers: signed and unsigned words of 64 bits. -/
structure Whole where
  val : Int
  fits : Integer.isWhole val = true
deriving DecidableEq, Repr

structure FiniteReal where
  val : Binary64
  finite : val.isFinite = true
deriving DecidableEq, Repr

/-- Members stand in the order in which they are written. -/
inductive Json where
  | null
  | bool (b : Bool)
  | whole (n : Whole)
  | real (x : FiniteReal)
  | string (s : String)
  | array (items : List Json)
  | object (members : List (String × Json))
deriving Repr

namespace Json

instance : Inhabited Json := ⟨.null⟩

def ofInt (i : Int) : Json :=
  if h : Integer.isWhole i = true then .whole ⟨i, h⟩ else .null

/-- What is not finite has no form in JSON and is written as `null`. -/
def ofReal (x : Binary64) : Json := if h : x.isFinite = true then .real ⟨x, h⟩ else .null

mutual

/-- Whether two values are equal, but for numbers with a fraction, which `real` compares. -/
def agree (real : FiniteReal → FiniteReal → Bool) : Json → Json → Bool
  | .null, .null => true
  | .bool a, .bool b => a == b
  | .whole a, .whole b => a == b
  | .real x, .real y => real x y
  | .string s, .string t => s == t
  | .array xs, .array ys => agreeItems real xs ys
  | .object xs, .object ys => agreeMembers real xs ys
  | _, _ => false

def agreeItems (real : FiniteReal → FiniteReal → Bool) : List Json → List Json → Bool
  | [], [] => true
  | x :: xs, y :: ys => agree real x y && agreeItems real xs ys
  | _, _ => false

def agreeMembers (real : FiniteReal → FiniteReal → Bool) :
    List (String × Json) → List (String × Json) → Bool
  | [], [] => true
  | (k, x) :: xs, (l, y) :: ys => k == l && agree real x y && agreeMembers real xs ys
  | _, _ => false

end

mutual

theorem agree_iff : ∀ a b : Json, agree (· == ·) a b = true ↔ a = b
  | .array xs, b => by cases b <;> simp [agree, agreeItems_iff xs]
  | .object xs, b => by cases b <;> simp [agree, agreeMembers_iff xs]
  | .null, b | .bool _, b | .whole _, b | .real _, b | .string _, b => by
      cases b <;> simp [agree]

theorem agreeItems_iff : ∀ xs ys : List Json, agreeItems (· == ·) xs ys = true ↔ xs = ys
  | [], ys => by cases ys <;> simp [agreeItems]
  | x :: xs, ys => by cases ys <;> simp [agreeItems, agree_iff x, agreeItems_iff xs]

theorem agreeMembers_iff :
    ∀ xs ys : List (String × Json), agreeMembers (· == ·) xs ys = true ↔ xs = ys
  | [], ys => by cases ys <;> simp [agreeMembers]
  | (k, x) :: xs, ys => by
      cases ys <;> simp [agreeMembers, agree_iff x, agreeMembers_iff xs, Prod.ext_iff]

end

instance : DecidableEq Json := fun a b => decidable_of_iff _ (agree_iff a b)

/-- Values as the program compares them: the two zeros among the numbers with a fraction are one. -/
def sameMembers : List (String × Json) → List (String × Json) → Bool :=
  agreeMembers fun x y => x.val.same y.val

def hexDigit (n : Nat) : Char := (Nat.digitChar n)

/-- One character between quotes. Controls without a letter of their own are written as four
hexadecimal digits. -/
def escapedChar (c : Char) : List Char :=
  if c = '"' then ['\\', '"']
  else if c = '\\' then ['\\', '\\']
  else if c = '\x08' then ['\\', 'b']
  else if c = '\x0c' then ['\\', 'f']
  else if c = '\n' then ['\\', 'n']
  else if c = '\r' then ['\\', 'r']
  else if c = '\t' then ['\\', 't']
  else if c.toNat < 0x20 then
    ['\\', 'u', '0', '0', hexDigit (c.toNat / 16), hexDigit (c.toNat % 16)]
  else [c]

def quote (s : String) : List Char := '"' :: s.toList.flatMap escapedChar ++ ['"']

def bare (b : Bool) : List Char := if b then "true".toList else "false".toList

mutual

def compact : Json → List Char
  | .null => "null".toList
  | .bool b => bare b
  | .whole n => Integer.decimal n.val
  | .real x => RealNotation.document.text x.val
  | .string s => quote s
  | .array items => '[' :: compactItems items ++ [']']
  | .object members => '{' :: compactMembers members ++ ['}']

def compactItems : List Json → List Char
  | [] => []
  | [x] => compact x
  | x :: rest => compact x ++ ',' :: compactItems rest

def compactMembers : List (String × Json) → List Char
  | [] => []
  | [(k, x)] => quote k ++ ':' :: compact x
  | (k, x) :: rest => quote k ++ ':' :: compact x ++ ',' :: compactMembers rest

end

def newLine (level : Nat) : List Char := '\n' :: List.replicate (2 * level) ' '

mutual

def spread (level : Nat) : Json → List Char
  | .null => "null".toList
  | .bool b => bare b
  | .whole n => Integer.decimal n.val
  | .real x => RealNotation.document.text x.val
  | .string s => quote s
  | .array [] => ['[', ']']
  | .array (x :: rest) => '[' :: spreadItems (level + 1) (x :: rest) ++ newLine level ++ [']']
  | .object [] => ['{', '}']
  | .object (m :: rest) => '{' :: spreadMembers (level + 1) (m :: rest) ++ newLine level ++ ['}']

def spreadItems (level : Nat) : List Json → List Char
  | [] => []
  | [x] => newLine level ++ spread level x
  | x :: rest => newLine level ++ spread level x ++ ',' :: spreadItems level rest

def spreadMembers (level : Nat) : List (String × Json) → List Char
  | [] => []
  | [(k, x)] => newLine level ++ quote k ++ ':' :: ' ' :: spread level x
  | (k, x) :: rest =>
      newLine level ++ quote k ++ ':' :: ' ' :: spread level x ++ ',' :: spreadMembers level rest

end

def compactText (j : Json) : String := String.ofList (compact j)

def spreadText (j : Json) : String := String.ofList (spread 0 j)

end Json

end StatusLine
