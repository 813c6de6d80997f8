import StatusLine.Format.Expr

/-!
How the host reads a format string when it draws: characters, style tokens, and conditionals of
which it reads one branch.
-/

namespace StatusLine.Host

inductive Item where
  | char (c : Char)
  | style (body : List Char)
deriving DecidableEq, Repr

/-- What stands before the first `stop` that is outside of all braces, and what stands behind it. A
character behind `#` that would count for something else does not. -/
def cut (stop : Char) : Int → List Char → Option (List Char × List Char)
  | _, [] => none
  | depth, '#' :: '{' :: cs =>
      (cut stop (depth + 1) cs).map fun r => ('#' :: '{' :: r.1, r.2)
  | depth, '#' :: '#' :: cs => (cut stop depth cs).map fun r => ('#' :: '#' :: r.1, r.2)
  | depth, '#' :: ',' :: cs => (cut stop depth cs).map fun r => ('#' :: ',' :: r.1, r.2)
  | depth, '#' :: '}' :: cs => (cut stop depth cs).map fun r => ('#' :: '}' :: r.1, r.2)
  | depth, c :: cs =>
      if c = stop ∧ depth = 0 then some ([], cs)
      else (cut stop (if c = '}' then depth - 1 else depth) cs).map fun r => (c :: r.1, r.2)

theorem cut_length {stop : Char} {depth : Int} {cs : List Char} {r : List Char × List Char}
    (h : cut stop depth cs = some r) : r.1.length + r.2.length < cs.length := by
  fun_induction cut stop depth cs generalizing r with
  | case1 => cases h
  | case6 => cases h; simp
  | _ =>
      rename_i ih
      obtain ⟨t, ht, rfl⟩ := Option.map_eq_some_iff.mp h
      have := ih ht
      simp only [List.length_cons]
      omega

theorem cut_cons {stop c : Char} (depth : Int) (cs : List Char) (h : c ≠ '#') :
    cut stop depth (c :: cs) =
      if c = stop ∧ depth = 0 then some ([], cs)
      else (cut stop (if c = '}' then depth - 1 else depth) cs).map fun r => (c :: r.1, r.2) := by
  rw [cut] <;> simp [h]

def token? : List Char → Option (List Char × List Char)
  | [] => none
  | c :: cs => if c = ']' then some ([], cs) else (token? cs).map fun r => (c :: r.1, r.2)

theorem token?_length {cs : List Char} {r : List Char × List Char} (h : token? cs = some r) :
    r.2.length < cs.length := by
  induction cs generalizing r with
  | nil => cases h
  | cons c cs ih =>
      simp only [token?] at h
      split at h
      · cases h; simp
      · obtain ⟨t, ht, rfl⟩ := Option.map_eq_some_iff.mp h
        have := ih ht
        simp only [List.length_cons]
        omega

def plainBody : List Char → List Char
  | [] => []
  | '#' :: ',' :: cs => ',' :: plainBody cs
  | c :: cs => c :: plainBody cs

def predicates : List Predicate := [.isFirst, .isLast, .beforeActive, .afterActive]

def predicate? (condition : List Char) : Option Predicate :=
  predicates.find? fun p => p.token.toList == condition

inductive Lexeme where
  | item (i : Item)
  | cond (test : Predicate) (yes no : List Char)
deriving DecidableEq, Repr

def cond? (cs : List Char) : Option (Lexeme × List Char) := do
  let (condition, cs) ← cut ',' 0 cs
  let (yes, cs) ← cut ',' 0 cs
  let (no, rest) ← cut '}' 0 cs
  let test ← predicate? condition
  some (.cond test yes no, rest)

def next? : List Char → Option (Lexeme × List Char)
  | [] => none
  | '#' :: '#' :: cs => some (.item (.char '#'), cs)
  | '#' :: ',' :: cs => some (.item (.char ','), cs)
  | '#' :: '}' :: cs => some (.item (.char '}'), cs)
  | '#' :: '[' :: cs => (token? cs).map fun r => (.item (.style (plainBody r.1)), r.2)
  | '#' :: '{' :: '?' :: cs => cond? cs
  | c :: cs => some (.item (.char c), cs)

theorem next?_cons {c : Char} (cs : List Char) (h : c ≠ '#') :
    next? (c :: cs) = some (.item (.char c), cs) := by
  rw [next?] <;> simp [h]

def Lexeme.size : Lexeme → Nat
  | .item _ => 0
  | .cond _ yes no => yes.length + no.length

theorem cond?_length {cs : List Char} {r : Lexeme × List Char} (h : cond? cs = some r) :
    r.1.size + r.2.length < cs.length := by
  simp only [cond?, bind, Option.bind_eq_some_iff, Option.some.injEq] at h
  obtain ⟨a, ha, b, hb, c, hc, test, -, rfl⟩ := h
  have := cut_length ha
  have := cut_length hb
  have := cut_length hc
  simp only [Lexeme.size]
  omega

theorem next?_length {cs : List Char} {r : Lexeme × List Char} (h : next? cs = some r) :
    r.1.size + r.2.length < cs.length := by
  simp only [next?] at h
  split at h
  · cases h
  · cases h; simp only [Lexeme.size, List.length_cons]; omega
  · cases h; simp only [Lexeme.size, List.length_cons]; omega
  · cases h; simp only [Lexeme.size, List.length_cons]; omega
  · obtain ⟨t, ht, rfl⟩ := Option.map_eq_some_iff.mp h
    have := token?_length ht
    simp only [Lexeme.size, List.length_cons]
    omega
  · have := cond?_length h
    simp only [List.length_cons]
    omega
  · cases h; simp [Lexeme.size]

/-- What the host draws for a format string where it answers conditions as `v` does; none where the
string breaks off or asks for something else. -/
def read (v : Predicate → Bool) (cs : List Char) : Option (List Item) :=
  match _h : next? cs with
  | none => if cs.isEmpty then some [] else none
  | some (.item i, rest) => (read v rest).map (i :: ·)
  | some (.cond test yes no, rest) => do
      let branch ← read v (if v test then yes else no)
      let items ← read v rest
      some (branch ++ items)
termination_by cs.length
decreasing_by
  all_goals
    have := next?_length _h
    simp only [Lexeme.size] at this
    try split
    all_goals omega

theorem read_nil (v : Predicate → Bool) : read v [] = some [] := by
  rw [read]
  simp [next?]

theorem read_item (v : Predicate → Bool) {cs rest : List Char} {i : Item}
    (h : next? cs = some (.item i, rest)) : read v cs = (read v rest).map (i :: ·) := by
  rw [read]
  split <;> simp_all

theorem read_cond (v : Predicate → Bool) {cs yes no rest : List Char} {test : Predicate}
    {branch : List Item} (h : next? cs = some (.cond test yes no, rest))
    (hbranch : read v (if v test then yes else no) = some branch) :
    read v cs = (read v rest).map (branch ++ ·) := by
  rw [read]
  split
  · rename_i heq
    cases h.symm.trans heq
  · rename_i heq
    cases h.symm.trans heq
  · rename_i heq
    cases h.symm.trans heq
    rw [hbranch]
    cases read v rest <;> rfl

end StatusLine.Host
