import StatusLine.Json.Number
import StatusLine.Text.Trim

/-!
Reading JSON texts. `read` never fails: where a text breaks off, so does the node, and what follows
a whole value is handed back.
-/

namespace StatusLine.Json

def isSpace (c : Char) : Bool := c = ' ' || c = '\t' || c = '\n' || c = '\r'

def skip (cs : List Char) : List Char := cs.dropWhile isSpace

/-- A character of a string, or half a character written as four hexadecimal digits. -/
inductive Piece where
  | char (c : Char)
  | unit (n : Nat)

def hexValue? (c : Char) : Option Nat :=
  if '0' ≤ c ∧ c ≤ '9' then some (c.toNat - 48)
  else if 'a' ≤ c ∧ c ≤ 'f' then some (c.toNat - 87)
  else if 'A' ≤ c ∧ c ≤ 'F' then some (c.toNat - 55)
  else none

def unit? (a b c d : Char) : Option Nat := do
  let a ← hexValue? a
  let b ← hexValue? b
  let c ← hexValue? c
  let d ← hexValue? d
  some (a * 4096 + b * 256 + c * 16 + d)

def escape? (c : Char) : Option Char :=
  if c = '"' ∨ c = '\\' ∨ c = '/' then some c
  else if c = 'b' then some '\x08'
  else if c = 'f' then some '\x0c'
  else if c = 'n' then some '\n'
  else if c = 'r' then some '\r'
  else if c = 't' then some '\t'
  else none

def pieces : List Char → Option (List Piece × List Char)
  | [] => none
  | '"' :: rest => some ([], rest)
  | '\\' :: 'u' :: a :: b :: c :: d :: rest =>
      match unit? a b c d, pieces rest with
      | some n, some (ps, rest) => some (.unit n :: ps, rest)
      | _, _ => none
  | '\\' :: e :: rest =>
      match escape? e, pieces rest with
      | some c, some (ps, rest) => some (.char c :: ps, rest)
      | _, _ => none
  | c :: rest =>
      if c = '\\' ∨ c.toNat < 0x20 then none
      else (pieces rest).map fun r => (.char c :: r.1, r.2)

def isHigh (n : Nat) : Bool := 0xD800 ≤ n && n ≤ 0xDBFF

def isLow (n : Nat) : Bool := 0xDC00 ≤ n && n ≤ 0xDFFF

/-- The characters of a string; a half without its other half is none. -/
def characters : List Piece → Option (List Char)
  | [] => some []
  | .char c :: rest => (characters rest).map (c :: ·)
  | .unit h :: .unit l :: rest =>
      if isHigh h then
        if isLow l then
          (characters rest).map (Char.ofNat (0x10000 + (h - 0xD800) * 0x400 + (l - 0xDC00)) :: ·)
        else none
      else if isLow h then none
      else (characters (.unit l :: rest)).map (Char.ofNat h :: ·)
  | .unit h :: rest =>
      if isHigh h || isLow h then none else (characters rest).map (Char.ofNat h :: ·)

def readString (cs : List Char) : Node × List Char :=
  match pieces cs with
  | none => (.missing, [])
  | some (ps, rest) =>
      match characters ps with
      | some s => (.text (String.ofList s), rest)
      | none => (.valueless, rest)

/-- One more member in front of those that follow it. Behind a key that denotes no text, members
count only for whether the text goes on. -/
def member (key value : Node) (rest : List (String × Node) × Ending) :
    List (String × Node) × Ending :=
  match key with
  | .text k => ((k, value) :: rest.1, rest.2)
  | _ => ([], if value.intact && (Node.table rest.1 rest.2).intact then .garbled else .broken)

def literal (word : List Char) (node : Node) (cs : List Char) : Node × List Char :=
  match Text.after? word cs with
  | some rest => (node, rest)
  | none => (.missing, [])

def scalar : List Char → Node × List Char
  | 'n' :: cs => literal "ull".toList .null cs
  | 't' :: cs => literal "rue".toList (.bool true) cs
  | 'f' :: cs => literal "alse".toList (.bool false) cs
  | '-' :: cs => Number.read true cs
  | c :: cs => if Integer.isDigit c then Number.read false (c :: cs) else (.missing, [])
  | [] => (.missing, [])

mutual

/-- Reads a value, with fuel for two steps a character. -/
def readValue : Nat → List Char → Node × List Char
  | 0, _ => (.missing, [])
  | fuel + 1, cs =>
      match skip cs with
      | '"' :: cs => readString cs
      | '[' :: cs =>
          match skip cs with
          | ']' :: rest => (.list [] true, rest)
          | cs =>
              let r := readItems fuel cs
              (.list r.1.1 r.1.2, r.2)
      | '{' :: cs =>
          match skip cs with
          | '}' :: rest => (.table [] .closed, rest)
          | '"' :: cs =>
              let r := readMembers fuel cs
              (.table r.1.1 r.1.2, r.2)
          | _ => (.table [] .broken, [])
      | cs => scalar cs

def readItems : Nat → List Char → (List Node × Bool) × List Char
  | 0, _ => (([], false), [])
  | fuel + 1, cs =>
      let x := readValue fuel cs
      match skip x.2 with
      | ']' :: rest => (([x.1], true), rest)
      | ',' :: rest =>
          match skip rest with
          | ']' :: _ => (([x.1], false), [])
          | rest =>
              let r := readItems fuel rest
              ((x.1 :: r.1.1, r.1.2), r.2)
      | _ => (([x.1], false), [])

def readMembers : Nat → List Char → (List (String × Node) × Ending) × List Char
  | 0, _ => (([], .broken), [])
  | fuel + 1, cs =>
      let key := readString cs
      match skip key.2 with
      | ':' :: cs =>
          let x := readValue fuel cs
          match skip x.2 with
          | '}' :: rest => (member key.1 x.1 ([], .closed), rest)
          | ',' :: rest =>
              match skip rest with
              | '"' :: rest =>
                  let r := readMembers fuel rest
                  (member key.1 x.1 r.1, r.2)
              | _ => (member key.1 x.1 ([], .broken), [])
          | _ => (member key.1 x.1 ([], .broken), [])
      | _ => (member key.1 .missing ([], .broken), [])

end

def read (s : String) : Node × Bool :=
  let cs := s.toList
  let r := readValue (2 * cs.length + 2) cs
  (r.1, (skip r.2).isEmpty)

end StatusLine.Json
