import StatusLine.Color

/-!
Format strings: what the host expands each time it draws. An `Expr` is a tree of host syntax, plain
text, style tokens and conditionals; `Expr.render` writes it down.

Inside a branch of a conditional the host cuts at commas and closing braces, so there they are
written with a `#` in front of them.
-/

namespace StatusLine

/-- What only the host can answer, window by window, when it draws the window list. -/
inductive Predicate where
  | isFirst
  | isLast
  | beforeActive
  | afterActive
deriving DecidableEq, Repr

def Predicate.token : Predicate → String
  | isFirst => "#\x7bwindow_start_flag\x7d"
  | isLast => "#\x7bwindow_end_flag\x7d"
  | beforeActive => "#\x7b==:#I,#\x7be|-:#\x7bactive_window_index\x7d,1\x7d\x7d"
  | afterActive => "#\x7b==:#I,#\x7be|+:#\x7bactive_window_index\x7d,1\x7d\x7d"

/-- `literal` is host syntax as it stands and `text` is shown as it stands; a missing colour is left
as it is, and `reset` goes back to the status line's own style. -/
inductive Expr where
  | literal (s : String)
  | text (s : String)
  | color (fg bg : Option Color)
  | attrs (s : String)
  | reset
  | cond (test : Predicate) (yes no : Expr)
  | concat (parts : List Expr)
deriving Repr

namespace Expr

def colors (fg bg : Color) : Expr := .color (some fg) (some bg)

def empty : Expr := .concat []

def escapeChar (inBranch : Bool) (c : Char) : List Char :=
  if c = '#' then ['#', '#']
  else if inBranch ∧ (c = ',' ∨ c = '}') then ['#', c]
  else [c]

def escape (inBranch : Bool) (cs : List Char) : List Char := cs.flatMap (escapeChar inBranch)

def token (inBranch : Bool) (body : List Char) : List Char :=
  let inner := if inBranch then body.flatMap fun c => if c = ',' then ['#', ','] else [c] else body
  '#' :: '[' :: inner ++ [']']

def colorWords (fg bg : Option Color) : List String :=
  (fg.map fun c => "fg=" ++ c.wire).toList ++ (bg.map fun c => "bg=" ++ c.wire).toList

def colorToken (inBranch : Bool) (fg bg : Option Color) : List Char :=
  match colorWords fg bg with
  | [] => []
  | words => token inBranch (",".intercalate words).toList

mutual

def write (inBranch : Bool) : Expr → List Char
  | .literal s => s.toList
  | .text s => escape inBranch s.toList
  | .color fg bg => colorToken inBranch fg bg
  | .attrs s => if s.isEmpty then [] else token inBranch s.toList
  | .reset => "#[default]".toList
  | .cond test yes no =>
      '#' :: '{' :: '?' :: test.token.toList ++ ',' :: write true yes ++
        ',' :: write true no ++ ['}']
  | .concat parts => writeAll inBranch parts

def writeAll (inBranch : Bool) : List Expr → List Char
  | [] => []
  | e :: rest => write inBranch e ++ writeAll inBranch rest

end

def render (e : Expr) : String := String.ofList (write false e)

theorem write_literal (inBranch : Bool) (s : String) :
    write inBranch (.literal s) = s.toList := rfl

theorem write_text (inBranch : Bool) (s : String) :
    write inBranch (.text s) = escape inBranch s.toList := rfl

theorem write_color (inBranch : Bool) (fg bg : Option Color) :
    write inBranch (.color fg bg) = colorToken inBranch fg bg := rfl

theorem write_attrs (inBranch : Bool) (s : String) :
    write inBranch (.attrs s) = if s.isEmpty then [] else token inBranch s.toList := rfl

theorem write_reset (inBranch : Bool) : write inBranch .reset = "#[default]".toList := rfl

theorem write_cond (inBranch : Bool) (test : Predicate) (yes no : Expr) :
    write inBranch (.cond test yes no) =
      '#' :: '{' :: '?' :: test.token.toList ++ ',' :: write true yes ++
        ',' :: write true no ++ ['}'] := rfl

theorem write_concat (inBranch : Bool) (parts : List Expr) :
    write inBranch (.concat parts) = writeAll inBranch parts := rfl

theorem writeAll_append (inBranch : Bool) (a b : List Expr) :
    writeAll inBranch (a ++ b) = writeAll inBranch a ++ writeAll inBranch b := by
  induction a with
  | nil => simp [writeAll]
  | cons e rest ih => simp [writeAll, ih]

end Expr

def escapeText (s : String) : String := String.ofList (Expr.escape false s.toList)

end StatusLine
