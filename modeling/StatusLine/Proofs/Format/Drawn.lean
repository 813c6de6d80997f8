import StatusLine.Proofs.Format.StyleBody

namespace StatusLine

namespace Expr

open Host (Item)

def styleItems (words : List String) : List Item :=
  if words.isEmpty then [] else [.style (",".intercalate words).toList]

mutual

/-- What an expression draws where the host answers its conditions as `v` does. Host syntax in it is
left out. -/
def drawn (v : Predicate → Bool) : Expr → List Item
  | .literal _ => []
  | .text s => s.toList.map .char
  | .color fg bg => styleItems (colorWords fg bg)
  | .attrs s => if s.isEmpty then [] else [.style s.toList]
  | .reset => [.style "default".toList]
  | .cond test yes no => if v test then drawn v yes else drawn v no
  | .concat parts => drawnAll v parts

def drawnAll (v : Predicate → Bool) : List Expr → List Item
  | [] => []
  | e :: rest => drawn v e ++ drawnAll v rest

end

mutual

/-- An expression without host syntax, in which attributes are those of styles. -/
def IsPlain : Expr → Prop
  | .literal _ => False
  | .attrs s => ∃ style : Style, s = style.attrText
  | .cond _ yes no => IsPlain yes ∧ IsPlain no
  | .concat parts => AllPlain parts
  | _ => True

def AllPlain : List Expr → Prop
  | [] => True
  | e :: rest => IsPlain e ∧ AllPlain rest

end

end Expr

namespace Host

/-- Text that is passed over, from depth `least` on, on the way to a comma or a closing brace. -/
def Crossed (least : Int) (cs : List Char) : Prop :=
  ∀ stop, stop = ',' ∨ stop = '}' → ∀ depth, least ≤ depth → ∀ rest,
    cut stop depth (cs ++ rest) = (cut stop depth rest).map fun r => (cs ++ r.1, r.2)

namespace Crossed

theorem nil (least : Int) : Crossed least [] := by
  intro stop _ depth _ rest
  simp

theorem append {least : Int} {a b : List Char} (ha : Crossed least a) (hb : Crossed least b) :
    Crossed least (a ++ b) := by
  intro stop hstop depth hdepth rest
  rw [List.append_assoc, ha stop hstop depth hdepth, hb stop hstop depth hdepth]
  simp [Option.map_map, Function.comp_def]

theorem mono {least more : Int} {cs : List Char} (h : Crossed least cs) (hle : least ≤ more) :
    Crossed more cs :=
  fun stop hstop depth hdepth => h stop hstop depth (by omega)

theorem char {c : Char} (least : Int) (hhash : c ≠ '#') (hcomma : c ≠ ',') (hbrace : c ≠ '}') :
    Crossed least [c] := by
  intro stop hstop depth _ rest
  have hc : c ≠ stop := by rcases hstop with rfl | rfl <;> assumption
  rw [List.singleton_append, cut_cons depth rest hhash]
  simp [hc, hbrace]

theorem comma : Crossed 1 [','] := by
  intro stop _ depth hdepth rest
  have hd : depth ≠ 0 := by omega
  rw [List.singleton_append, cut_cons depth rest (by decide)]
  simp [hd]

theorem escaped (least : Int) {c : Char} (h : c = '#' ∨ c = ',' ∨ c = '}') :
    Crossed least ['#', c] := by
  intro stop _ depth _ rest
  rcases h with rfl | rfl | rfl <;> simp [cut]

theorem braced {cs : List Char} (h : Crossed 1 cs) : Crossed 0 ('#' :: '{' :: cs ++ ['}']) := by
  intro stop hstop depth hdepth rest
  have hd : depth + 1 ≠ 0 := by omega
  have hopen : cut stop depth ('#' :: '{' :: (cs ++ '}' :: rest)) =
      (cut stop (depth + 1) (cs ++ '}' :: rest)).map fun r => ('#' :: '{' :: r.1, r.2) := by
    rw [cut]
  simp only [List.cons_append, List.append_assoc, List.nil_append, hopen,
    h stop hstop (depth + 1) (by omega), cut_cons (depth + 1) rest (show '}' ≠ '#' by decide)]
  simp [hd, Function.comp_def]

theorem escape (cs : List Char) : Crossed 0 (Expr.escape true cs) := by
  induction cs with
  | nil => exact nil 0
  | cons c cs ih =>
      refine append (b := Expr.escape true cs) ?_ ih
      by_cases hc : c = '#' ∨ c = ',' ∨ c = '}'
      · have hstep : Expr.escapeChar true c = ['#', c] := by
          rcases hc with rfl | rfl | rfl <;> rfl
        rw [hstep]
        exact escaped 0 hc
      · simp only [not_or] at hc
        have hstep : Expr.escapeChar true c = [c] := by simp [Expr.escapeChar, hc]
        rw [hstep]
        exact char 0 hc.1 hc.2.1 hc.2.2

-- A lone `#` stands before a character that it does nothing to, such as a digit of a colour.
theorem hash {cs : List Char} (h : Crossed 0 cs) (hhead : ∀ c, cs.head? = some c →
    c ∉ ['#', ',', '\x7b', '}']) (hne : cs ≠ []) : Crossed 0 ('#' :: cs) := by
  intro stop hstop depth hdepth rest
  obtain ⟨c, cs, rfl⟩ := List.exists_cons_of_ne_nil hne
  have hc := hhead c rfl
  simp only [List.mem_cons, List.not_mem_nil, or_false, not_or] at hc
  have hs : '#' ≠ stop := by rcases hstop with rfl | rfl <;> decide
  have hlone : cut stop depth ('#' :: c :: (cs ++ rest)) =
      (cut stop depth (c :: (cs ++ rest))).map fun r => ('#' :: r.1, r.2) := by
    rw [cut] <;> simp [hs, hc]
  rw [List.cons_append, List.cons_append, hlone, ← List.cons_append, h stop hstop depth hdepth]
  simp [Function.comp_def]

theorem escapedBody {body : List Char} (h : isQuiet body = true) :
    Crossed 0 (escapedBody body) := by
  induction body with
  | nil => exact nil 0
  | cons c cs ih =>
      by_cases hc : c = '#'
      · subst hc
        simp only [isQuiet, ↓reduceIte, Bool.and_eq_true] at h
        cases cs with
        | nil => cases h.1
        | cons d cs =>
            have hd : d ∉ ['#', ',', '\x7b', '}'] := by
              have := h.1
              simp at this ⊢
              exact ⟨this.1, this.2.1, this.2.2.1, this.2.2.2.1⟩
            have hcomma : d ≠ ',' := by rintro rfl; simp at hd
            have hstep : Host.escapedBody (d :: cs) = d :: Host.escapedBody cs := by
              simp [Host.escapedBody, hcomma]
            change Crossed 0 ('#' :: Host.escapedBody (d :: cs))
            have hrest := ih h.2
            rw [hstep] at hrest ⊢
            refine hash hrest ?_ (by simp)
            rintro _ ⟨⟩
            exact hd
      · simp only [isQuiet, hc, ↓reduceIte, Bool.and_eq_true, bne_iff_ne, ne_eq] at h
        by_cases hcomma : c = ','
        · subst hcomma
          exact append (escaped 0 (.inr (.inl rfl))) (ih h.2)
        · have hstep : Host.escapedBody (c :: cs) = [c] ++ Host.escapedBody cs := by
            simp [Host.escapedBody, hcomma]
          rw [hstep]
          exact append (char 0 hc hcomma h.1.2) (ih h.2)

theorem token {body : List Char} (h : isQuiet body = true) :
    Crossed 0 (Expr.token true body) := by
  have hinner : Crossed 0 ('[' :: (Host.escapedBody body ++ [']'])) :=
    append (a := ['[']) (char 0 (by decide) (by decide) (by decide))
      (append (escapedBody h) (char 0 (by decide) (by decide) (by decide)))
  refine hash hinner ?_ (by simp)
  rintro _ ⟨⟩
  decide

theorem condition (p : Predicate) : Crossed 0 p.token.toList := by
  intro stop hstop depth hdepth rest
  have hone : depth + 1 ≠ 0 := by omega
  have htwo : depth + 1 + 1 ≠ 0 := by omega
  have hthree : depth + 1 + 1 + 1 ≠ 0 := by omega
  cases p <;> simp [Predicate.token, cut, hone, htwo, hthree, Function.comp_def]

theorem cond {p : Predicate} {yes no : List Char} (hyes : Crossed 0 yes) (hno : Crossed 0 no) :
    Crossed 0 ('#' :: '{' :: '?' :: p.token.toList ++ ',' :: yes ++ ',' :: no ++ ['}']) := by
  have hle : (0 : Int) ≤ 1 := by decide
  have htest : Crossed 1 ('?' :: p.token.toList) :=
    append (a := ['?']) (b := p.token.toList) (char 1 (by decide) (by decide) (by decide))
      ((condition p).mono hle)
  have hinner := append (append htest (append comma (hyes.mono hle))) (append comma (hno.mono hle))
  simpa using braced hinner

theorem cut_stop {stop : Char} (hstop : stop = ',' ∨ stop = '}') {cs : List Char}
    (h : Crossed 0 cs) (rest : List Char) : cut stop 0 (cs ++ stop :: rest) = some (cs, rest) := by
  have hhash : stop ≠ '#' := by rcases hstop with rfl | rfl <;> decide
  rw [h stop hstop 0 (by decide), cut_cons 0 rest hhash]
  simp

end Crossed

mutual

theorem crossed_write : ∀ {e : Expr}, e.IsPlain → Crossed 0 (e.write true)
  | .literal _, h => h.elim
  | .text s, _ => Expr.write_text true s ▸ .escape s.toList
  | .color fg bg, _ => by
      rw [Expr.write_color, Expr.colorToken]
      split
      · exact .nil 0
      · exact .token (isQuiet_joined (isQuiet_colorWords fg bg))
  | .attrs s, h => by
      obtain ⟨style, rfl⟩ := h
      rw [Expr.write_attrs]
      split
      · exact .nil 0
      · exact .token (isQuiet_joined (isQuiet_attrWords style))
  | .reset, _ => Crossed.token (show isQuiet "default".toList = true by decide)
  | .cond test yes no, h => by
      rw [Expr.write_cond]
      exact .cond (crossed_write h.1) (crossed_write h.2)
  | .concat parts, h => by
      rw [Expr.write_concat]
      exact crossed_writeAll h

theorem crossed_writeAll : ∀ {es : List Expr}, Expr.AllPlain es → Crossed 0 (Expr.writeAll true es)
  | [], _ => .nil 0
  | _ :: _, h => .append (crossed_write h.1) (crossed_writeAll h.2)

end

theorem next?_escapeChar (inBranch : Bool) (c : Char) (rest : List Char) :
    next? (Expr.escapeChar inBranch c ++ rest) = some (.item (.char c), rest) := by
  by_cases hhash : c = '#'
  · subst hhash
    rfl
  · by_cases hspecial : inBranch = true ∧ (c = ',' ∨ c = '}')
    · obtain ⟨rfl, rfl | rfl⟩ := hspecial <;> rfl
    · have hstep : Expr.escapeChar inBranch c = [c] := by
        simp [Expr.escapeChar, hhash, hspecial]
      rw [hstep]
      exact next?_cons rest hhash

theorem next?_token (inBranch : Bool) {body : List Char} (h : isQuiet body = true)
    (rest : List Char) :
    next? (Expr.token inBranch body ++ rest) = some (.item (.style body), rest) := by
  cases inBranch with
  | false =>
      have htoken := token?_append rest (not_mem_of_quiet h)
      simp [Expr.token, next?, htoken, plainBody_of_quiet h]
  | true =>
      have htoken := token?_append rest (not_mem_escapedBody h)
      have hplain := plainBody_escapedBody body
      simp only [escapedBody] at htoken hplain
      simp [Expr.token, next?, htoken, hplain]

def ReadAs (v : Predicate → Bool) (cs : List Char) (items : List Item) : Prop :=
  ∀ rest, read v (cs ++ rest) = (read v rest).map (items ++ ·)

namespace ReadAs

variable {v : Predicate → Bool}

theorem nil : ReadAs v [] [] := by
  intro rest
  simp

theorem append {a b : List Char} {xs ys : List Item} (ha : ReadAs v a xs) (hb : ReadAs v b ys) :
    ReadAs v (a ++ b) (xs ++ ys) := by
  intro rest
  rw [List.append_assoc, ha, hb]
  simp [Option.map_map, Function.comp_def]

theorem all {cs : List Char} {items : List Item} (h : ReadAs v cs items) :
    read v cs = some items := by
  have hnil := h []
  rw [List.append_nil, read_nil] at hnil
  simpa using hnil

theorem of_next {cs : List Char} {i : Item}
    (h : ∀ rest, next? (cs ++ rest) = some (.item i, rest)) : ReadAs v cs [i] :=
  fun rest => read_item v (h rest)

theorem escape (inBranch : Bool) (cs : List Char) :
    ReadAs v (Expr.escape inBranch cs) (cs.map .char) := by
  induction cs with
  | nil => exact nil
  | cons c cs ih => exact append (of_next (next?_escapeChar inBranch c)) ih

theorem token (inBranch : Bool) {body : List Char} (h : isQuiet body = true) :
    ReadAs v (Expr.token inBranch body) [.style body] :=
  of_next (next?_token inBranch h)

theorem cond {p : Predicate} {yes no : List Char} {xs ys : List Item} (hyes : Crossed 0 yes)
    (hno : Crossed 0 no) (hxs : ReadAs v yes xs) (hys : ReadAs v no ys) :
    ReadAs v ('#' :: '{' :: '?' :: p.token.toList ++ ',' :: yes ++ ',' :: no ++ ['}'])
      (if v p then xs else ys) := by
  intro rest
  have hnext : next? ('#' :: '{' :: '?' :: p.token.toList ++ ',' :: yes ++ ',' :: no ++ ['}'] ++
      rest) = some (.cond p yes no, rest) := by
    have hcond : cond? (p.token.toList ++ ',' :: (yes ++ ',' :: (no ++ '}' :: rest))) =
        some (.cond p yes no, rest) := by
      rw [cond?, Crossed.cut_stop (.inl rfl) (.condition p)]
      simp only [Option.bind_eq_bind, Option.bind_some, Crossed.cut_stop (.inl rfl) hyes,
        Crossed.cut_stop (.inr rfl) hno]
      cases p <;> rfl
    simpa [next?] using hcond
  refine read_cond v hnext ?_
  split
  · exact hxs.all
  · exact hys.all

end ReadAs

mutual

theorem readAs_write (v : Predicate → Bool) (inBranch : Bool) :
    ∀ {e : Expr}, e.IsPlain → ReadAs v (e.write inBranch) (e.drawn v)
  | .literal _, h => h.elim
  | .text s, _ => .escape inBranch s.toList
  | .color fg bg, _ => by
      rw [Expr.write_color, Expr.colorToken, Expr.drawn, Expr.styleItems]
      split
      · rename_i hwords
        simpa [hwords] using ReadAs.nil
      · rename_i hwords
        rw [if_neg (by simpa using hwords)]
        exact .token inBranch (isQuiet_joined (isQuiet_colorWords fg bg))
  | .attrs s, h => by
      obtain ⟨style, rfl⟩ := h
      rw [Expr.write_attrs, Expr.drawn]
      split
      · exact .nil
      · exact .token inBranch (isQuiet_joined (isQuiet_attrWords style))
  | .reset, _ => by
      cases inBranch
      · exact ReadAs.token false (show isQuiet "default".toList = true by decide)
      · exact ReadAs.token true (show isQuiet "default".toList = true by decide)
  | .cond test yes no, h => by
      rw [Expr.write_cond, Expr.drawn]
      exact .cond (crossed_write h.1) (crossed_write h.2) (readAs_write v true h.1)
        (readAs_write v true h.2)
  | .concat parts, h => by
      rw [Expr.write_concat, Expr.drawn]
      exact readAs_writeAll v inBranch h

theorem readAs_writeAll (v : Predicate → Bool) (inBranch : Bool) :
    ∀ {es : List Expr}, Expr.AllPlain es →
      ReadAs v (Expr.writeAll inBranch es) (Expr.drawnAll v es)
  | [], _ => .nil
  | _ :: _, h => .append (readAs_write v inBranch h.1) (readAs_writeAll v inBranch h.2)

end

/-- Out of the format string of an expression the host reads what the expression draws, whatever the
answers to its conditions are. -/
theorem read_render (v : Predicate → Bool) {e : Expr} (h : e.IsPlain) :
    read v e.render.toList = some (e.drawn v) := by
  rw [Expr.render, String.toList_ofList]
  exact (readAs_write v false h).all

theorem read_render_nested :
    let bold : Style := ⟨none, none, [.bold, .dim], [.dim]⟩
    let e := Expr.cond .isLast (.text "#,") (.cond .afterActive
      (.concat [.colors (.named .red) .default, .attrs bold.attrText, .text "a\x7d#"]) (.text "b"))
    e.IsPlain ∧ read (· == .afterActive) e.render.toList =
      some ([.style "fg=red,bg=default".toList, .style "bold,nodim".toList] ++
        "a\x7d#".toList.map .char) := by
  intro bold e
  have hplain : e.IsPlain := ⟨trivial, ⟨trivial, ⟨bold, rfl⟩, trivial, trivial⟩, trivial⟩
  exact ⟨hplain, (read_render (· == .afterActive) hplain).trans (by decide)⟩

end Host

end StatusLine
