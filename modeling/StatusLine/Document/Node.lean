import StatusLine.Json

/-!
Documents as read. A `Node` is what a text holds at one place, up to where the text breaks off, so
that a decoder that walks it in the order of the text meets the faults of the text and its own in
the order in which they stand.
-/

namespace StatusLine

/-- How the entries of a table end: with its closing brace, before a key that denotes no text but
behind which the text goes on to the closing brace, or where the text breaks off. -/
inductive Ending where
  | closed
  | garbled
  | broken
deriving DecidableEq, Repr

/-- `moment` is a date or a time, and `tables` is a list of tables with a header each. A list is not
`closed` when its text breaks off before its closing bracket; `missing` stands where a value should
begin and none does, and `valueless` is a well-formed scalar that denotes nothing, such as a number
beyond all doubles. -/
inductive Node where
  | null
  | bool (b : Bool)
  | integer (i : Int)
  | real (x : Binary64)
  | text (s : String)
  | moment (s : String)
  | list (items : List Node) (closed : Bool)
  | tables (rows : List Node)
  | table (entries : List (String × Node)) (ending : Ending)
  | valueless
  | missing
deriving Repr

namespace Node

instance : Inhabited Node := ⟨.missing⟩

mutual

def beq : Node → Node → Bool
  | .null, .null => true
  | .bool a, .bool b => a == b
  | .integer i, .integer j => i == j
  | .real x, .real y => x == y
  | .text s, .text t => s == t
  | .moment s, .moment t => s == t
  | .list xs a, .list ys b => a == b && beqItems xs ys
  | .tables xs, .tables ys => beqItems xs ys
  | .table xs a, .table ys b => a == b && beqEntries xs ys
  | .valueless, .valueless => true
  | .missing, .missing => true
  | _, _ => false

def beqItems : List Node → List Node → Bool
  | [], [] => true
  | x :: xs, y :: ys => beq x y && beqItems xs ys
  | _, _ => false

def beqEntries : List (String × Node) → List (String × Node) → Bool
  | [], [] => true
  | (k, x) :: xs, (l, y) :: ys => k == l && beq x y && beqEntries xs ys
  | _, _ => false

end

mutual

theorem beq_iff : ∀ m n : Node, beq m n = true ↔ m = n
  | .list xs _, n => by cases n <;> simp [beq, beqItems_iff xs, and_comm]
  | .tables xs, n => by cases n <;> simp [beq, beqItems_iff xs]
  | .table xs _, n => by cases n <;> simp [beq, beqEntries_iff xs, and_comm]
  | .null, n | .bool _, n | .integer _, n | .real _, n | .text _, n | .moment _, n
  | .valueless, n | .missing, n => by cases n <;> simp [beq]

theorem beqItems_iff : ∀ xs ys : List Node, beqItems xs ys = true ↔ xs = ys
  | [], ys => by cases ys <;> simp [beqItems]
  | x :: xs, ys => by cases ys <;> simp [beqItems, beq_iff x, beqItems_iff xs]

theorem beqEntries_iff : ∀ xs ys : List (String × Node), beqEntries xs ys = true ↔ xs = ys
  | [], ys => by cases ys <;> simp [beqEntries]
  | (k, x) :: xs, ys => by
      cases ys <;> simp [beqEntries, beq_iff x, beqEntries_iff xs, Prod.ext_iff]

end

instance : DecidableEq Node := fun m n => decidable_of_iff _ (beq_iff m n)

/-- The key under which a date or a time stands where a table is asked for. -/
def momentKey : String := "$__toml_private_datetime"

mutual

/-- Whether the text goes on after this place. -/
def intact : Node → Bool
  | .list items closed => closed && intactItems items
  | .tables rows => intactItems rows
  | .table entries ending => decide (ending ≠ .broken) && intactEntries entries
  | .missing => false
  | _ => true

def intactItems : List Node → Bool
  | [] => true
  | x :: rest => intact x && intactItems rest

def intactEntries : List (String × Node) → Bool
  | [] => true
  | (_, x) :: rest => intact x && intactEntries rest

end

mutual

/-- Whether the text goes on after this place and every key and scalar in it denotes something. -/
def whole : Node → Bool
  | .list items closed => closed && wholeItems items
  | .tables rows => wholeItems rows
  | .table entries ending => decide (ending = .closed) && wholeEntries entries
  | .missing => false
  | .valueless => false
  | _ => true

def wholeItems : List Node → Bool
  | [] => true
  | x :: rest => whole x && wholeItems rest

def wholeEntries : List (String × Node) → Bool
  | [] => true
  | (_, x) :: rest => whole x && wholeEntries rest

end

mutual

def depth : Node → Nat
  | .list items _ => depthItems items + 1
  | .tables rows => depthItems rows + 1
  | .table entries _ => depthEntries entries + 1
  | .moment _ => 1
  | _ => 0

def depthItems : List Node → Nat
  | [] => 0
  | x :: rest => max (depth x) (depthItems rest)

def depthEntries : List (String × Node) → Nat
  | [] => 0
  | (_, x) :: rest => max (depth x) (depthEntries rest)

end

mutual

/-- The value a node stands for: of members with one key the last counts, and what denotes nothing
is null. -/
def json : Node → Json
  | .null => .null
  | .bool b => .bool b
  | .integer i => .ofInt i
  | .real x => .ofReal x
  | .text s => .string s
  | .moment s => .object [(momentKey, .string s)]
  | .list items _ => .array (jsonItems items)
  | .tables rows => .array (jsonItems rows)
  | .table entries _ => .object (Keyed.ofList (jsonEntries entries))
  | .valueless => .null
  | .missing => .null

def jsonItems : List Node → List Json
  | [] => []
  | x :: rest => json x :: jsonItems rest

def jsonEntries : List (String × Node) → List (String × Json)
  | [] => []
  | (k, x) :: rest => (k, json x) :: jsonEntries rest

end

mutual

def ofJson : Json → Node
  | .null => .null
  | .bool b => .bool b
  | .whole n => .integer n.val
  | .real x => .real x.val
  | .string s => .text s
  | .array items => .list (ofItems items) true
  | .object members => .table (ofMembers members) .closed

def ofItems : List Json → List Node
  | [] => []
  | x :: rest => ofJson x :: ofItems rest

def ofMembers : List (String × Json) → List (String × Node)
  | [] => []
  | (k, x) :: rest => (k, ofJson x) :: ofMembers rest

end

end Node

end StatusLine
