import StatusLine.Document.Error
import StatusLine.Document.Node

/-!
Decoding documents. A decoder walks a node in the order of the text and stops at the first fault,
whether the text breaks off there or holds something else than what is asked for. Three kinds of
document are decoded by the same rules and differ in a few of them: the text of a JSON value, a JSON
value that was read before, and TOML.
-/

namespace StatusLine

inductive Dialect where
  | jsonText
  | jsonValue
  | toml
deriving DecidableEq, Repr

/-- The kind of document, and how many lists and tables are open around a node. -/
structure Place where
  dialect : Dialect
  level : Nat
deriving DecidableEq, Repr

abbrev Decoder (α : Type) := Place → Node → Except DocumentError α

/-- Lists and tables inside each other, at most, in a JSON text. -/
def deepest : Nat := 127

def Dialect.reals : Dialect → RealNotation
  | .toml => .plain
  | _ => .document

def Place.inside (p : Place) : Place := ⟨p.dialect, p.level + 1⟩

def Node.found (dialect : Dialect) : Node → String
  | .null => "null"
  | .bool b => "boolean " ++ Text.offered (if b then "true" else "false")
  | .integer i => "integer " ++ Text.offered (Integer.text i)
  | .real x => "floating point " ++ Text.offered (String.ofList (dialect.reals.text x))
  | .text s => "string " ++ Text.quoted s
  | .list _ _ => "sequence"
  | .tables _ => "sequence"
  | .moment _ => "map"
  | .table _ _ => "map"
  | .valueless => ""
  | .missing => ""

namespace Decoder

variable {α β σ : Type}

def mismatch (p : Place) (node : Node) (expected : String) : DocumentError :=
  match node with
  | .missing => .malformed
  | .valueless => .malformed
  | node => .refused (.wrongType (node.found p.dialect) expected)

/-- Whether a node can be taken as it stands. -/
def isWhole (p : Place) (node : Node) : Bool :=
  p.dialect != .jsonText || (node.whole && p.level + node.depth ≤ deepest)

def text : Decoder String
  | _, .text s => .ok s
  | p, node => .error (mismatch p node "a string")

def boolean : Decoder Bool
  | _, .bool b => .ok b
  | p, node => .error (mismatch p node "a boolean")

def below (limit : Nat) (type : String) : Decoder Nat
  | p, .integer i =>
      if 0 ≤ i ∧ i < limit then .ok i.toNat
      else .error (.refused (.wrongValue ((Node.integer i).found p.dialect) type))
  | p, node => .error (mismatch p node type)

def word32 : Decoder UInt32 := fun p node => (below (Nat.pow 2 32) "u32" p node).map UInt32.ofNat

def word64 : Decoder Nat := below (Nat.pow 2 64) "usize"

def spelled (read : String → Except Refusal α) : Decoder α := fun p node =>
  match text p node with
  | .ok s => (read s).mapError .refused
  | .error e => .error e

def optional (decode : Decoder α) : Decoder (Option α)
  | _, .null => .ok none
  | p, node => (decode p node).map some

def items (decode : Decoder α) (p : Place) : List Node → Except DocumentError (List α)
  | [] => .ok []
  | node :: rest => do
      let x ← decode p node
      let xs ← items decode p rest
      .ok (x :: xs)

/-- The items of a node that can stand for a list, and whether its text goes on to their end. -/
def items? : Node → Option (List Node × Bool)
  | .list nodes closed => some (nodes, closed)
  | .tables rows => some (rows, true)
  | _ => none

def list (decode : Decoder α) : Decoder (List α) := fun p node =>
  match items? node with
  | some (nodes, closed) => do
      let xs ← items decode p.inside nodes
      if closed then .ok xs else .error .malformed
  | none => .error (mismatch p node "a sequence")

def entries (decode : Decoder α) (p : Place) :
    List (String × Node) → Except DocumentError (List (String × α))
  | [] => .ok []
  | (key, node) :: rest => do
      let x ← decode p node
      let xs ← entries decode p rest
      .ok ((key, x) :: xs)

/-- The entries of a node that can stand for a table, and whether they are all there are. -/
def entries? : Node → Option (List (String × Node) × Bool)
  | .table es ending => some (es, decide (ending = .closed))
  | .moment s => some ([(Node.momentKey, .text s)], true)
  | _ => none

def keyed (decode : Decoder α) : Decoder (Keyed α) := fun p node =>
  match entries? node with
  | some (es, closed) => do
      let xs ← entries decode p.inside es
      if closed then .ok (Keyed.ofList xs) else .error .malformed
  | none => .error (mismatch p node "a map")

def json : Decoder Json := fun p node =>
  if isWhole p node then .ok node.json else .error .malformed

def variant (all : List α) (name : α → String) (s : String) : Except DocumentError α :=
  match all.find? fun a => name a == s with
  | some a => .ok a
  | none => .error (.refused (.unknownVariant s (all.map name)))

def nothing (p : Place) : Node → Except DocumentError Unit
  | .null => .ok ()
  | node => .error (mismatch p node "unit")

/-- What stands behind a name in TOML, which has no null: an empty list or table. -/
def emptyTable (p : Place) : Node → Except DocumentError Unit
  | .list [] _ => .ok ()
  | .tables [] => .ok ()
  | .table [] _ => .ok ()
  | .tables _ => .error (.refused (.wanted "expected empty array"))
  | .list _ _ => .error (.refused (.wanted "expected empty table"))
  | .table _ _ => .error (.refused (.wanted "expected empty table"))
  | .text _ => .error (.refused (.wanted "expected table, found string"))
  | .integer _ => .error (.refused (.wanted "expected table, found integer"))
  | .real _ => .error (.refused (.wanted "expected table, found float"))
  | .bool _ => .error (.refused (.wanted "expected table, found boolean"))
  | .moment _ => .error (.refused (.wanted "expected table, found datetime"))
  | node => .error (mismatch p node "unit")

def unnamed (p : Place) (node : Node) : DocumentError :=
  match p.dialect with
  | .jsonText => .malformed
  | .jsonValue =>
      match node with
      | .table _ _ => .refused (.wrongValue "map" "map with a single key")
      | node => mismatch p node "string or map"
  | .toml =>
      match node with
      | .table [] _ => .refused (.wanted "wanted exactly 1 element, found 0 elements")
      | .table _ _ => .refused (.wanted "wanted exactly 1 element, more than 1 element")
      | _ => .refused (.wanted "wanted string or table")

/-- The one entry a node names something by. A JSON text is looked at no further than its first
entry before that is decoded. -/
def single? (p : Place) : Node → Option (String × Node)
  | .table [e] _ => some e
  | .table (e :: _) _ => if p.dialect = .jsonText then some e else none
  | _ => none

def isSingle : Node → Bool
  | .table [_] ending => decide (ending = .closed)
  | _ => false

def choice (all : List α) (name : α → String) : Decoder α := fun p node =>
  match node with
  | .text s => variant all name s
  | node =>
      match single? p node with
      | some (key, inner) => do
          let a ← variant all name key
          if p.dialect = .toml then emptyTable p inner else nothing p inner
          if isSingle node then .ok a else .error .malformed
      | none => .error (unnamed p node)

/-- A field of a record that is decoded: its name, whether it has to be given, and how its value is
put into the record. -/
structure Field (σ : Type) where
  name : String
  required : Bool
  read : Place → Node → σ → Except DocumentError σ

def Field.of (name : String) (decode : Decoder α) (set : α → σ → σ) : Field σ :=
  ⟨name, false, fun p node s => (decode p node).map fun x => set x s⟩

def Field.needed (name : String) (decode : Decoder α) (set : α → σ → σ) : Field σ :=
  ⟨name, true, fun p node s => (decode p node).map fun x => set x s⟩

/-- A record: `strict` refuses entries that are no field, and `blank` holds what fields that are not
given stand at. -/
structure Record (σ : Type) where
  type : String
  strict : Bool
  fields : List (Field σ)
  blank : σ

namespace Record

def names (r : Record σ) : List String := r.fields.map Field.name

def field? (r : Record σ) (name : String) : Option (Field σ) := r.fields.find? (·.name == name)

def readEntries (r : Record σ) (p : Place) :
    List (String × Node) → List String → σ → Except DocumentError (List String × σ)
  | [], seen, s => .ok (seen, s)
  | (key, node) :: rest, seen, s =>
      match r.field? key with
      | some f =>
          if seen.contains key then .error (.refused (.duplicateField key))
          else do
            let s ← f.read p node s
            readEntries r p rest (key :: seen) s
      | none =>
          if r.strict then .error (.refused (.unknownField key r.names))
          else if p.dialect = .jsonText ∧ node.intact = false then .error .malformed
          else readEntries r p rest seen s

def absent? (fields : List (Field σ)) (seen : List String) : Option String :=
  (fields.find? fun f => f.required && !seen.contains f.name).map Field.name

def ofEntries (r : Record σ) (p : Place) (es : List (String × Node)) (closed : Bool) :
    Except DocumentError σ := do
  let (seen, s) ← r.readEntries p.inside es [] r.blank
  if closed then
    match absent? r.fields seen with
    | some name => .error (.refused (.missingField name))
    | none => .ok s
  else .error .malformed

def length (r : Record σ) : String :=
  let n := r.fields.length
  "struct " ++ r.type ++ " with " ++ Integer.text n ++ (if n = 1 then " element" else " elements")

def readItems (r : Record σ) (p : Place) (closed : Bool) :
    Nat → List (Field σ) → List Node → σ → Except DocumentError (List Node × σ)
  | _, [], nodes, s => .ok (nodes, s)
  | i, f :: fs, node :: nodes, s => do
      let s ← f.read p node s
      readItems r p closed (i + 1) fs nodes s
  | i, f :: fs, [], s =>
      if !closed then .error .malformed
      else if f.required then .error (.refused (.wrongLength i r.length))
      else readItems r p closed (i + 1) fs [] s

def ofList (r : Record σ) (p : Place) (nodes : List Node) (closed : Bool) :
    Except DocumentError σ := do
  let (surplus, s) ← r.readItems p.inside closed 0 r.fields nodes r.blank
  if !closed then .error .malformed
  else if surplus.isEmpty ∨ p.dialect = .toml then .ok s
  else if p.dialect = .jsonText then .error .malformed
  else .error (.refused (.wrongLength nodes.length "fewer elements in array"))

/-- A record from a table, or from a list that holds its fields in order. -/
def decode (r : Record σ) : Decoder σ := fun p node =>
  match entries? node with
  | some (es, closed) => r.ofEntries p es closed
  | none =>
      match items? node with
      | some (nodes, closed) => r.ofList p nodes closed
      | none => .error (mismatch p node ("struct " ++ r.type))

end Record

end Decoder

end StatusLine
