import StatusLine.Number.Integer
import StatusLine.Text.Trim

/-!
The characters of TOML texts: space and line ends, comments, strings and keys. A reader takes what
it reads off the beginning of a text, or fails where the text is not TOML.
-/

namespace StatusLine.Toml

abbrev Reading (α : Type) := Option (α × List Char)

def isSpace (c : Char) : Bool := c = ' ' || c = '\t'

def skipSpace (cs : List Char) : List Char := cs.dropWhile isSpace

/-- What stands for itself in comments and strings: all but controls other than the tab. -/
def isText (c : Char) : Bool := c = '\t' || (0x20 ≤ c.toNat && c.toNat ≠ 0x7F)

def newline? : List Char → Option (List Char)
  | '\n' :: cs => some cs
  | '\r' :: '\n' :: cs => some cs
  | _ => none

def skipComment : List Char → List Char
  | '#' :: cs => cs.dropWhile isText
  | cs => cs

def lineEnd? (cs : List Char) : Option (List Char) :=
  match skipComment (skipSpace cs) with
  | [] => some []
  | cs => newline? cs

def skipBlank (comment : Bool) : List Char → List Char
  | '\n' :: cs => skipBlank false cs
  | '\r' :: '\n' :: cs => skipBlank false cs
  | c :: cs =>
      if comment then (if isText c then skipBlank true cs else c :: cs)
      else if isSpace c then skipBlank false cs
      else if c = '#' then skipBlank true cs
      else c :: cs
  | [] => []

def skipLines : List Char → List Char
  | '\n' :: cs => skipLines cs
  | '\r' :: '\n' :: cs => skipLines cs
  | c :: cs => if isSpace c then skipLines cs else c :: cs
  | [] => []

def hexDigit? (c : Char) : Option Nat :=
  if '0' ≤ c ∧ c ≤ '9' then some (c.toNat - 48)
  else if 'a' ≤ c ∧ c ≤ 'f' then some (c.toNat - 87)
  else if 'A' ≤ c ∧ c ≤ 'F' then some (c.toNat - 55)
  else none

def hexNumber? (ds : List Char) : Option Nat :=
  ds.foldlM (fun n c => (hexDigit? c).map fun d => n * 16 + d) 0

def scalar? (n : Nat) : Option Char :=
  if n < 0xD800 ∨ (0xDFFF < n ∧ n < 0x110000) then some (Char.ofNat n) else none

def codePoint? (digits : Nat) (cs : List Char) : Option Char :=
  let ds := cs.take digits
  if ds.length = digits then (hexNumber? ds).bind scalar? else none

/-- The character an escape stands for, and the length of the escape behind its backslash. -/
def escape? : List Char → Option (Char × Nat)
  | 'b' :: _ => some ('\x08', 1)
  | 't' :: _ => some ('\t', 1)
  | 'n' :: _ => some ('\n', 1)
  | 'f' :: _ => some ('\x0c', 1)
  | 'r' :: _ => some ('\r', 1)
  | '"' :: _ => some ('"', 1)
  | '\\' :: _ => some ('\\', 1)
  | 'u' :: cs => (codePoint? 4 cs).map fun c => (c, 5)
  | 'U' :: cs => (codePoint? 8 cs).map fun c => (c, 9)
  | _ => none

def push (c : Char) (r : List Char × List Char) : List Char × List Char := (c :: r.1, r.2)

/-- A string of one line from behind its quote; `skip` characters belong to the escape before. -/
def basic : Nat → List Char → Reading (List Char)
  | _, [] => none
  | skip + 1, _ :: cs => basic skip cs
  | 0, c :: cs =>
      if c = '"' then some ([], cs)
      else if c = '\\' then
        match escape? cs with
        | some (x, n) => (basic n cs).map (push x)
        | none => none
      else if isText c then (basic 0 cs).map (push c)
      else none

def verbatim : List Char → Reading (List Char)
  | [] => none
  | c :: cs =>
      if c = '\'' then some ([], cs)
      else if isText c then (verbatim cs).map (push c)
      else none

/-- Three quotes close a string of many lines; one or two before them are part of it. -/
def closing? (quote : Char) (cs : List Char) : Reading (List Char) :=
  let run := (cs.takeWhile (· == quote)).length
  if 3 ≤ run then
    let own := min (run - 3) 2
    some (List.replicate own quote, cs.drop (own + 3))
  else none

/-- How far a backslash at the end of a line reaches: to the next character that is not blank. -/
def continuation? (cs : List Char) : Option Nat :=
  if (newline? (skipSpace cs)).isSome then some (cs.length - (skipLines cs).length) else none

def newlineLength? : List Char → Option Nat
  | '\n' :: _ => some 1
  | '\r' :: '\n' :: _ => some 2
  | _ => none

def multi (quote : Char) (escapes : Bool) : Nat → List Char → Reading (List Char)
  | _, [] => none
  | skip + 1, _ :: cs => multi quote escapes skip cs
  | 0, c :: cs =>
      match closing? quote (c :: cs) with
      | some r => some r
      | none =>
          if escapes && c = '\\' then
            match continuation? cs with
            | some n => multi quote escapes n cs
            | none =>
                match escape? cs with
                | some (x, n) => (multi quote escapes n cs).map (push x)
                | none => none
          else
            match newlineLength? (c :: cs) with
            | some n => (multi quote escapes (n - 1) cs).map (push '\n')
            | none => if isText c then (multi quote escapes 0 cs).map (push c) else none

/-- A line end right behind the opening quotes is no part of the string. -/
def dropNewline (cs : List Char) : List Char := (newline? cs).getD cs

def string? : List Char → Reading (List Char)
  | '"' :: '"' :: '"' :: cs => multi '"' true 0 (dropNewline cs)
  | '"' :: cs => basic 0 cs
  | '\'' :: '\'' :: '\'' :: cs => multi '\'' false 0 (dropNewline cs)
  | '\'' :: cs => verbatim cs
  | _ => none

def isBare (c : Char) : Bool :=
  ('a' ≤ c && c ≤ 'z') || ('A' ≤ c && c ≤ 'Z') || ('0' ≤ c && c ≤ '9') || c = '_' || c = '-'

def simpleKey? : List Char → Reading (List Char)
  | '"' :: cs => basic 0 cs
  | '\'' :: cs => verbatim cs
  | cs =>
      match cs.span isBare with
      | ([], _) => none
      | r => some r

/-- A key of at most so many parts, with points between them, and the space around it. -/
def key? : Nat → List Char → Reading (List String)
  | 0, _ => none
  | most + 1, cs =>
      match simpleKey? (skipSpace cs) with
      | none => none
      | some (part, cs) =>
          match skipSpace cs with
          | '.' :: cs => (key? most cs).map fun r => (String.ofList part :: r.1, r.2)
          | cs => some ([String.ofList part], cs)

end StatusLine.Toml
