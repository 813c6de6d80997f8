import StatusLine.Files.Path

/-!
File systems as values: directories and files at their places below the root, without links between
them, and the directory that relative paths begin in.
-/

namespace StatusLine

inductive FileNode where
  | directory
  | file (text : String)
deriving DecidableEq, Repr

abbrev Location := List (List Char)

structure FileSystem where
  nodes : List (Location × FileNode)
  working : Location
deriving DecidableEq, Repr

namespace FileSystem

def node? (fs : FileSystem) (l : Location) : Option FileNode :=
  if l.isEmpty then some .directory else fs.nodes.lookup l

def isDirectory (fs : FileSystem) (l : Location) : Bool := fs.node? l == some .directory

def place (fs : FileSystem) (l : Location) (n : FileNode) : FileSystem :=
  { fs with nodes := (l, n) :: fs.nodes.filter fun e => e.1 ≠ l }

def step (fs : FileSystem) (l : Location) (piece : List Char) : Option Location :=
  if !fs.isDirectory l then none
  else if !Path.counts piece then some l
  else if piece = ['.', '.'] then some l.dropLast
  else if (fs.node? (l ++ [piece])).isSome then some (l ++ [piece])
  else none

def walk (fs : FileSystem) : Location → List (List Char) → Option Location
  | l, [] => some l
  | l, piece :: rest => (fs.step l piece).bind fun l => walk fs l rest

def start (fs : FileSystem) (p : String) : Location :=
  if Path.isAbsolute p then [] else fs.working

/-- The place a path leads to, if anything stands there. -/
def locate (fs : FileSystem) (p : String) : Option Location :=
  if p.isEmpty then none else fs.walk (fs.start p) (Path.pieces p)

def has (fs : FileSystem) (p : String) : Bool := (fs.locate p).isSome

def read (fs : FileSystem) (p : String) : Option String :=
  match (fs.locate p).bind fs.node? with
  | some (.file text) => some text
  | _ => none

/-- Where a file of a path would stand: its last piece is a name in a directory that is there. -/
def target (fs : FileSystem) (p : String) : Option Location :=
  match (Path.pieces p).reverse with
  | [] => none
  | name :: rest =>
      if !Path.counts name ∨ name = ['.', '.'] then none
      else
        match fs.walk (fs.start p) rest.reverse with
        | some l => if fs.isDirectory l then some (l ++ [name]) else none
        | none => none

def write (fs : FileSystem) (p text : String) : Option FileSystem :=
  match fs.target p with
  | some l => if fs.isDirectory l then none else some (fs.place l (.file text))
  | none => none

/-- Goes along a path and makes the directories that are missing; says whether it got to the end. -/
def makeAlong (fs : FileSystem) : Location → List (List Char) → Bool × FileSystem
  | l, [] => (fs.isDirectory l, fs)
  | l, piece :: rest =>
      if !fs.isDirectory l then (false, fs)
      else if !Path.counts piece then makeAlong fs l rest
      else if piece = ['.', '.'] then makeAlong fs l.dropLast rest
      else if (fs.node? (l ++ [piece])).isSome then makeAlong fs (l ++ [piece]) rest
      else makeAlong (fs.place (l ++ [piece]) .directory) (l ++ [piece]) rest

def makeDirectories (fs : FileSystem) (p : String) : Bool × FileSystem :=
  fs.makeAlong (fs.start p) (Path.pieces p)

end FileSystem

end StatusLine
