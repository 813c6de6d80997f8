import StatusLine.Document.Decoder
import StatusLine.Toml.Moment
import StatusLine.Toml.Number
import StatusLine.Toml.Table

namespace StatusLine.Toml

/-- Lists and tables in values inside each other, and parts of a key, at most. -/
def limit : Nat := 79

def word? (word : List Char) (node : Node) (cs : List Char) : Reading Node :=
  (Text.after? word cs).map fun rest => (node, rest)

def scalar (cs : List Char) : Reading Node :=
  match cs with
  | 't' :: _ => word? "true".toList (.bool true) cs
  | 'f' :: _ => word? "false".toList (.bool false) cs
  | _ =>
      match Moment.moment? cs with
      | some (m, rest) => some (.moment (String.ofList m), rest)
      | none => Number.number? cs

def inlineTable? (members : List (List String × Node)) : Option Node :=
  (members.foldlM (fun es m => Entries.add m.1 m.2 .defined es) []).map fun es =>
    .table (Item.nodes es) .closed

mutual

/-- Reads a value, with fuel for each step and the levels that are left. -/
def value : Nat → Nat → List Char → Reading Node
  | 0, _, _ => none
  | fuel + 1, levels, cs =>
      match cs with
      | '"' :: _ => (string? cs).map fun r => (.text (String.ofList r.1), r.2)
      | '\'' :: _ => (string? cs).map fun r => (.text (String.ofList r.1), r.2)
      | '[' :: cs =>
          match levels with
          | 0 => none
          | levels + 1 => (items fuel levels (skipBlank false cs)).map fun r =>
              (.list r.1 true, r.2)
      | '{' :: cs =>
          match levels with
          | 0 => none
          | levels + 1 =>
              match skipSpace cs with
              | '}' :: rest => some (.table [] .closed, rest)
              | cs =>
                  match members fuel levels cs with
                  | some (ms, rest) => (inlineTable? ms).map fun node => (node, rest)
                  | none => none
      | cs => scalar cs

/-- Reads the items up to the closing bracket; a comma may stand before it. -/
def items : Nat → Nat → List Char → Reading (List Node)
  | 0, _, _ => none
  | _ + 1, _, ']' :: rest => some ([], rest)
  | fuel + 1, levels, cs =>
      match value fuel levels cs with
      | none => none
      | some (x, cs) =>
          match skipBlank false cs with
          | ',' :: cs => (items fuel levels (skipBlank false cs)).map fun r => (x :: r.1, r.2)
          | ']' :: rest => some ([x], rest)
          | _ => none

def members : Nat → Nat → List Char → Reading (List (List String × Node))
  | 0, _, _ => none
  | fuel + 1, levels, cs =>
      match key? limit cs with
      | some (key, '=' :: cs) =>
          match value fuel levels (skipSpace cs) with
          | none => none
          | some (x, cs) =>
              match skipSpace cs with
              | ',' :: cs => (members fuel levels cs).map fun r => ((key, x) :: r.1, r.2)
              | '}' :: rest => some ([(key, x)], rest)
              | _ => none
      | _ => none

end

def member? (cs : List Char) : Option ((List String × Node) × List Char) :=
  match key? limit cs with
  | some (key, '=' :: cs) => do
      let (x, cs) ← value (2 * cs.length + 2) limit (skipSpace cs)
      let cs ← lineEnd? cs
      some ((key, x), cs)
  | _ => none

def header? (close : List Char) (cs : List Char) : Option (List String × List Char) := do
  let (path, cs) ← key? limit cs
  let cs ← Text.after? close cs
  let cs ← lineEnd? cs
  some (path, cs)

inductive Line where
  | blank
  | header (listed : Bool) (path : List String)
  | member (key : List String) (node : Node)

def line? (cs : List Char) : Reading Line :=
  match skipSpace cs with
  | '[' :: '[' :: cs => (header? [']', ']'] cs).map fun r => (.header true r.1, r.2)
  | '[' :: cs => (header? [']'] cs).map fun r => (.header false r.1, r.2)
  | cs =>
      match lineEnd? cs with
      | some rest => some (.blank, rest)
      | none => (member? cs).map fun r => (.member r.1.1 r.1.2, r.2)

structure State where
  root : Entries
  header : List String

def State.add (s : State) : Line → Option State
  | .blank => some s
  | .header listed path => (s.root.start listed path).map fun root => ⟨root, path⟩
  | .member key node => (s.root.addUnder s.header key node).map fun root => ⟨root, s.header⟩

/-- Reads the lines of a text, with fuel for one a character. -/
def lines : Nat → State → List Char → Option Entries
  | _, s, [] => some s.root
  | 0, _, _ => none
  | fuel + 1, s, cs =>
      match line? cs with
      | none => none
      | some (line, rest) =>
          match s.add line with
          | none => none
          | some s => lines fuel s rest

/-- The node of a text. A mark of the byte order in front of it is skipped. -/
def read (s : String) : Option Node :=
  let cs := match s.toList with
    | '\ufeff' :: cs => cs
    | cs => cs
  (lines cs.length ⟨[], []⟩ cs).map fun es => .table (Item.nodes es) .closed

end StatusLine.Toml

namespace StatusLine.Decoder

def ofToml {α : Type} (decode : Decoder α) (s : String) : Except DocumentError α :=
  match Toml.read s with
  | some node => decode ⟨.toml, 0⟩ node
  | none => .error .malformed

end StatusLine.Decoder
