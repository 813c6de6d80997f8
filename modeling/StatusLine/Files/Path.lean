/-!
Paths as texts. What a path consists of are the names between its slashes; empty ones and points say
nothing, but for a point in front of a relative path.
-/

namespace StatusLine.Path

def isAbsolute (p : String) : Bool := p.toList.head? == some '/'

def pieces (p : String) : List (List Char) := p.toList.splitOn '/'

def counts (piece : List Char) : Bool := !piece.isEmpty && piece != ['.']

/-- The pieces that say something. -/
def components (p : String) : List (List Char) :=
  match pieces p with
  | ['.'] :: rest => ['.'] :: rest.filter counts
  | ps => ps.filter counts

def same (p q : String) : Bool := isAbsolute p == isAbsolute q && components p == components q

def join (directory p : String) : String :=
  if isAbsolute p ∨ directory.isEmpty then p
  else if directory.toList.getLast? = some '/' then directory ++ p
  else directory ++ "/" ++ p

def written (ps : List (List Char)) : String := String.ofList (['/'].intercalate ps)

/-- The pieces without those at the end that say nothing. -/
def trimmed (absolute : Bool) (ps : List (List Char)) : List (List Char) :=
  let leading := if !absolute && ps.head? == some ['.'] then 1 else 0
  ps.take leading ++ ((ps.drop leading).reverse.dropWhile (!counts ·)).reverse

def parent? (p : String) : Option String :=
  let kept := trimmed (isAbsolute p) (pieces p)
  match kept.reverse with
  | [] => none
  | _ :: rest =>
      match trimmed (isAbsolute p) rest.reverse with
      | [] => some (if isAbsolute p then "/" else "")
      | ps => some (written ps)

end StatusLine.Path
