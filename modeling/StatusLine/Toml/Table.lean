import StatusLine.Document.Node

/-!
Tables of TOML while they are being read. How a table came to be decides what may be added to it
later. Entries stand in the order in which they were added.
-/

namespace StatusLine.Toml

/-- A table is implied by the headers of tables inside it, dotted when a key with points made it,
and defined by a header of its own. -/
inductive Origin where
  | implied
  | dotted
  | defined
deriving DecidableEq, Repr

/-- `value` takes no additions, not even when it is a table; `tables` is a list of tables with a
header each. -/
inductive Item where
  | value (node : Node)
  | table (origin : Origin) (entries : List (String × Item))
  | tables (rows : List (List (String × Item)))
deriving Repr

abbrev Entries := List (String × Item)

namespace Item

mutual

def node : Item → Node
  | .value n => n
  | .table _ entries => .table (nodes entries) .closed
  | .tables rows => .tables (rowNodes rows)

def nodes : List (String × Item) → List (String × Node)
  | [] => []
  | (k, x) :: rest => (k, node x) :: nodes rest

def rowNodes : List (List (String × Item)) → List Node
  | [] => []
  | row :: rest => .table (nodes row) .closed :: rowNodes rest

end

end Item

namespace Entries

def find? (es : Entries) (key : String) : Option Item := List.lookup key es

def replace (key : String) (x : Item) (es : Entries) : Entries :=
  es.map fun e => if e.1 = key then (key, x) else e

def erase (key : String) (es : Entries) : Entries := es.filter fun e => e.1 ≠ key

/-- Changes the table at a path; tables on the way that are not there are made. Keys lead only
through tables that no header defines, and a list of tables stands for its last table. -/
def change (byKeys : Bool) (f : Origin → Entries → Option Entries) :
    List String → Origin → Entries → Option Entries
  | [], origin, es => f origin es
  | key :: path, _, es =>
      match es.find? key with
      | none =>
          let made := if byKeys then Origin.dotted else .implied
          (change byKeys f path made []).map fun inner => es ++ [(key, .table made inner)]
      | some (.table origin inner) =>
          if byKeys ∧ origin = .defined then none
          else (change byKeys f path origin inner).map fun inner =>
            replace key (.table origin inner) es
      | some (.tables rows) =>
          match rows.getLast? with
          | some row =>
              (change byKeys f path .defined row).map fun row =>
                replace key (.tables (rows.dropLast ++ [row])) es
          | none => none
      | some (.value _) => none

/-- Adds a value under the last part of its key. A key without points does not add to a table that
keys with points have made, nor one with points to a table that headers imply. -/
def addLast (key : String) (node : Node) (dotted : Bool) (origin : Origin) (es : Entries) :
    Option Entries :=
  if decide (origin = .dotted) != dotted then none
  else
    match es.find? key with
    | none => some (es ++ [(key, .value node)])
    | some _ => none

def add (key : List String) (node : Node) (origin : Origin) (es : Entries) : Option Entries :=
  match key.getLast? with
  | some last => change true (addLast last node (!key.dropLast.isEmpty)) key.dropLast origin es
  | none => none

/-- A table's own header: the table is not there yet, or only implied, and moves to the end. -/
def define (key : String) (_ : Origin) (es : Entries) : Option Entries :=
  match es.find? key with
  | none => some (es ++ [(key, .table .defined [])])
  | some (.table .implied inner) => some (erase key es ++ [(key, .table .defined inner)])
  | some _ => none

def append (key : String) (_ : Origin) (es : Entries) : Option Entries :=
  match es.find? key with
  | none => some (es ++ [(key, .tables [[]])])
  | some (.tables rows) => some (replace key (.tables (rows ++ [[]])) es)
  | some _ => none

/-- Begins the table of a header; `listed` tells a header in double brackets. -/
def start (listed : Bool) (path : List String) (es : Entries) : Option Entries :=
  match path.getLast? with
  | some last =>
      change false (if listed then append last else define last) path.dropLast .defined es
  | none => none

def addUnder (header key : List String) (node : Node) (es : Entries) : Option Entries :=
  change false (add key node) header .defined es

end Entries

end StatusLine.Toml
