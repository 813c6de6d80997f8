import StatusLine.Proofs.Format.Drawn

/-!
Reading text that is more than an expression knows of: what stands in a segment is up to its owner.
Its host syntax is passed over character by character, only escapes and style tokens are read.
-/

namespace StatusLine.Host

def scan (cs : List Char) : List Item :=
  match _h : next? cs with
  | some (.item i, rest) => i :: scan rest
  | _ =>
      match cs with
      | [] => []
      | c :: cs => .char c :: scan cs
termination_by cs.length
decreasing_by
  · have := next?_length _h
    simp only [Lexeme.size] at this
    omega
  · simp

theorem scan_nil : scan [] = [] := by
  rw [scan]
  rfl

theorem scan_item {cs rest : List Char} {i : Item} (h : next? cs = some (.item i, rest)) :
    scan cs = i :: scan rest := by
  rw [scan]
  split
  · rename_i heq
    cases h.symm.trans heq
    rfl
  · rename_i hnot
    exact absurd h (hnot i rest)

theorem scan_hash {c : Char} (h : c ∉ ['#', ',', '}', '[']) (cs : List Char) :
    scan ('#' :: c :: cs) = .char '#' :: scan (c :: cs) := by
  simp only [List.mem_cons, List.not_mem_nil, or_false, not_or] at h
  by_cases hcond : ∃ rest, c = '\x7b' ∧ cs = '?' :: rest
  · obtain ⟨cs, rfl, rfl⟩ := hcond
    have hnext : next? ('#' :: '\x7b' :: '?' :: cs) = cond? cs := by rw [next?]
    rw [scan]
    split
    · rename_i heq
      rw [hnext] at heq
      simp [cond?, Option.bind_eq_some_iff] at heq
    · rfl
  · refine scan_item ?_
    rw [next?] <;> simp_all

def ScansAs (cs : List Char) (items : List Item) : Prop :=
  ∀ rest, scan (cs ++ rest) = items ++ scan rest

namespace ScansAs

theorem nil : ScansAs [] [] := fun _ => rfl

theorem append {a b : List Char} {xs ys : List Item} (ha : ScansAs a xs) (hb : ScansAs b ys) :
    ScansAs (a ++ b) (xs ++ ys) := by
  intro rest
  rw [List.append_assoc, ha, hb, List.append_assoc]

theorem all {cs : List Char} {items : List Item} (h : ScansAs cs items) : scan cs = items := by
  have hnil := h []
  rwa [List.append_nil, scan_nil, List.append_nil] at hnil

theorem of_next {cs : List Char} {i : Item}
    (h : ∀ rest, next? (cs ++ rest) = some (.item i, rest)) : ScansAs cs [i] :=
  fun rest => scan_item (h rest)

theorem escape (inBranch : Bool) (cs : List Char) :
    ScansAs (Expr.escape inBranch cs) (cs.map .char) := by
  induction cs with
  | nil => exact nil
  | cons c cs ih => exact append (of_next (next?_escapeChar inBranch c)) ih

theorem token (inBranch : Bool) {body : List Char} (h : isQuiet body = true) :
    ScansAs (Expr.token inBranch body) [.style body] :=
  of_next (next?_token inBranch h)

end ScansAs

def unescaped : List Char → List Char
  | [] => []
  | '#' :: c :: cs =>
      if c = '#' ∨ c = ',' ∨ c = '}' then c :: unescaped cs else '#' :: unescaped (c :: cs)
  | c :: cs => c :: unescaped cs

theorem next?_escaped {c : Char} (h : c = '#' ∨ c = ',' ∨ c = '}') (cs : List Char) :
    next? ('#' :: c :: cs) = some (.item (.char c), cs) := by
  rcases h with rfl | rfl | rfl <;> rfl

theorem getLast?_ne_of_cons {c : Char} {cs : List Char} (h : (c :: cs).getLast? ≠ some '#') :
    cs.getLast? ≠ some '#' := by
  cases cs with
  | nil => simp
  | cons d cs => rwa [List.getLast?_cons_cons] at h

theorem scansAs_unescaped {cs : List Char} (hstyle : ¬ ['#', '['] <:+: cs)
    (hlast : cs.getLast? ≠ some '#') : ScansAs cs ((unescaped cs).map .char) := by
  intro rest
  fun_induction unescaped cs with
  | case1 => rfl
  | case2 c cs hescaped ih =>
      have hrest := ih (fun hin => hstyle (hin.trans (List.suffix_append ['#', c] cs).isInfix))
        (getLast?_ne_of_cons (getLast?_ne_of_cons hlast))
      rw [List.cons_append, List.cons_append, scan_item (next?_escaped hescaped _), hrest]
      rfl
  | case3 c cs hescaped ih =>
      have hbracket : c ≠ '[' := by
        rintro rfl
        exact hstyle (List.prefix_append ['#', '['] cs).isInfix
      have hrest := ih (fun hin => hstyle (hin.trans (List.suffix_cons '#' (c :: cs)).isInfix))
        (getLast?_ne_of_cons hlast)
      have hc : c ∉ ['#', ',', '}', '['] := by
        simp only [not_or] at hescaped
        simp [hescaped, hbracket]
      rw [List.cons_append, List.cons_append, scan_hash hc, ← List.cons_append, hrest]
      rfl
  | case4 c cs hhash ih =>
      have hc : c ≠ '#' := by
        rintro rfl
        cases cs with
        | nil => exact hlast rfl
        | cons d cs => exact hhash d cs rfl rfl
      have hrest := ih (fun hin => hstyle (hin.trans (List.suffix_cons c cs).isInfix))
        (getLast?_ne_of_cons hlast)
      rw [List.cons_append, scan_item (next?_cons _ hc), hrest]
      rfl

end StatusLine.Host
