import StatusLine.Proofs.Color
import StatusLine.Proofs.Format.Reading
import StatusLine.Proofs.Number.Decimal
import StatusLine.Style

/-!
Bodies of style tokens: what colours and attributes are written as holds nothing that the host would
read as an escape or as the end of the token.
-/

namespace StatusLine

namespace Host

/-- Whether nothing in a body can be taken for an escape or for its end, whatever follows it. -/
def isQuiet : List Char → Bool
  | [] => true
  | c :: cs =>
      if c = '#' then !"#,{}[]".toList.contains (cs.headD '#') && isQuiet cs
      else c != ']' && c != '}' && isQuiet cs

theorem isQuiet_hash (c : Char) (cs : List Char) :
    isQuiet ('#' :: c :: cs) = (!"#,{}[]".toList.contains c && isQuiet (c :: cs)) := rfl

theorem isQuiet_append {a b : List Char} (ha : isQuiet a = true) (hb : isQuiet b = true) :
    isQuiet (a ++ b) = true := by
  induction a with
  | nil => exact hb
  | cons c cs ih =>
      by_cases hc : c = '#'
      · simp only [List.cons_append, isQuiet, hc, ↓reduceIte, Bool.and_eq_true] at ha ⊢
        cases cs with
        | nil => cases ha.1
        | cons d cs => exact ⟨ha.1, ih ha.2⟩
      · simp only [List.cons_append, isQuiet, hc, ↓reduceIte, Bool.and_eq_true] at ha ⊢
        exact ⟨ha.1, ih ha.2⟩

theorem isQuiet_of_forall {cs : List Char} (h : ∀ c ∈ cs, c ≠ '#' ∧ c ≠ ']' ∧ c ≠ '}') :
    isQuiet cs = true := by
  induction cs with
  | nil => rfl
  | cons c cs ih =>
      obtain ⟨hhash, hbracket, hbrace⟩ := h c (by simp)
      simp [isQuiet, hhash, hbracket, hbrace, ih fun d hd => h d (by simp [hd])]

theorem isQuiet_intercalate {words : List (List Char)} (h : ∀ w ∈ words, isQuiet w = true) :
    isQuiet ([','].intercalate words) = true := by
  induction words with
  | nil => rfl
  | cons w rest ih =>
      have hw := h w (by simp)
      cases rest with
      | nil => simpa using hw
      | cons x rest =>
          rw [List.intercalate_cons_cons]
          exact isQuiet_append (isQuiet_append hw rfl) (ih fun y hy => h y (by simp [hy]))

def escapedBody (body : List Char) : List Char :=
  body.flatMap fun c => if c = ',' then ['#', ','] else [c]

theorem plainBody_cons {c : Char} (cs : List Char) (h : c ≠ '#' ∨ cs.head? ≠ some ',') :
    plainBody (c :: cs) = c :: plainBody cs := by
  rw [plainBody]
  rintro rest rfl rfl
  simp at h

theorem plainBody_of_quiet {body : List Char} (h : isQuiet body = true) :
    plainBody body = body := by
  induction body with
  | nil => rfl
  | cons c cs ih =>
      simp only [isQuiet] at h
      split at h
      · simp only [Bool.and_eq_true] at h
        rw [plainBody_cons cs (.inr _), ih h.2]
        rintro hcomma
        cases cs <;> simp_all
      · rename_i hc
        simp only [Bool.and_eq_true] at h
        rw [plainBody_cons cs (.inl hc), ih h.2]

theorem head?_escapedBody (cs : List Char) : (escapedBody cs).head? ≠ some ',' := by
  cases cs with
  | nil => simp [escapedBody]
  | cons c cs => by_cases hc : c = ',' <;> simp [escapedBody, hc]

theorem plainBody_escapedBody (body : List Char) : plainBody (escapedBody body) = body := by
  induction body with
  | nil => rfl
  | cons c cs ih =>
      by_cases hc : c = ','
      · subst hc
        simpa [escapedBody, plainBody] using ih
      · have hstep : escapedBody (c :: cs) = c :: escapedBody cs := by simp [escapedBody, hc]
        rw [hstep, plainBody_cons _ (.inr (head?_escapedBody cs)), ih]

theorem token?_append {body : List Char} (rest : List Char) (h : ']' ∉ body) :
    token? (body ++ ']' :: rest) = some (body, rest) := by
  induction body with
  | nil => rfl
  | cons c cs ih =>
      have hc : c ≠ ']' := fun hc => h (by simp [hc])
      simp [token?, hc, ih fun hmem => h (by simp [hmem])]

theorem not_mem_of_quiet {body : List Char} (h : isQuiet body = true) : ']' ∉ body := by
  induction body with
  | nil => simp
  | cons c cs ih =>
      simp only [isQuiet] at h
      split at h
      · rename_i hc
        simp only [Bool.and_eq_true] at h
        simp [hc, ih h.2]
      · simp only [Bool.and_eq_true, bne_iff_ne, ne_eq] at h
        simp [ih h.2, Ne.symm h.1.1]

theorem not_mem_escapedBody {body : List Char} (h : isQuiet body = true) :
    ']' ∉ escapedBody body := by
  simp only [escapedBody, List.mem_flatMap, not_exists, not_and]
  intro c hc
  have hne : c ≠ ']' := fun hne => not_mem_of_quiet h (hne ▸ hc)
  split <;> simp [Ne.symm hne]

theorem ne_of_isDigit {c d : Char} (hc : Integer.isDigit c = true)
    (hd : Integer.isDigit d = false) : c ≠ d := by
  rintro rfl
  simp [hc] at hd

theorem isHexDigit_ne {c d : Char} (hc : Color.IsHexDigit c) (hd : ¬ Color.IsHexDigit d) :
    c ≠ d := by
  rintro rfl
  exact hd hc

theorem isQuiet_hex {cs : List Char} (h : isHexColor cs = true) : isQuiet cs = true := by
  obtain ⟨ds, rfl, hlen, hall⟩ := Color.eq_of_isHexColor h
  have hquiet : isQuiet ds = true := isQuiet_of_forall fun c hc =>
    ⟨isHexDigit_ne (hall c hc) (by decide), isHexDigit_ne (hall c hc) (by decide),
      isHexDigit_ne (hall c hc) (by decide)⟩
  cases ds with
  | nil => cases hlen
  | cons d ds =>
      have hd := hall d (by simp)
      have hmem : "#,{}[]".toList.contains d = false := by
        rw [Bool.eq_false_iff]
        intro hmem
        simp only [List.contains_iff_mem, String.reduceToList, List.mem_cons,
          List.not_mem_nil, or_false] at hmem
        rcases hmem with rfl | rfl | rfl | rfl | rfl | rfl <;> exact absurd hd (by decide)
      rw [isQuiet_hash, hmem, hquiet]
      rfl

theorem isQuiet_wire (c : Color) : isQuiet c.wire.toList = true := by
  cases c with
  | named n => cases n <;> decide
  | indexed i =>
      simp only [Color.wire, String.toList_append, Integer.text, String.toList_ofList]
      refine isQuiet_append (by decide) (isQuiet_of_forall fun c hc => ?_)
      rcases Integer.mem_decimal hc with rfl | hc
      · decide
      · exact ⟨ne_of_isDigit hc rfl, ne_of_isDigit hc rfl, ne_of_isDigit hc rfl⟩
  | hex h => exact isQuiet_hex h.isHex

theorem isQuiet_colorWords (fg bg : Option Color) :
    ∀ w ∈ Expr.colorWords fg bg, isQuiet w.toList = true := by
  intro w hw
  simp only [Expr.colorWords, List.mem_append, Option.mem_toList, Option.map_eq_some_iff] at hw
  rcases hw with ⟨c, -, rfl⟩ | ⟨c, -, rfl⟩
  · rw [String.toList_append]
    exact isQuiet_append (by decide) (isQuiet_wire c)
  · rw [String.toList_append]
    exact isQuiet_append (by decide) (isQuiet_wire c)

theorem isQuiet_attrWords (style : Style) : ∀ w ∈ style.attrWords, isQuiet w.toList = true := by
  intro w hw
  simp only [Style.attrWords, List.mem_append, List.mem_map] at hw
  rcases hw with ⟨a, -, rfl⟩ | ⟨a, -, rfl⟩
  · cases a <;> decide
  · cases a <;> decide

theorem isQuiet_joined {words : List String} (h : ∀ w ∈ words, isQuiet w.toList = true) :
    isQuiet (",".intercalate words).toList = true := by
  rw [String.toList_intercalate]
  refine isQuiet_intercalate fun w hw => ?_
  obtain ⟨x, hx, rfl⟩ := List.mem_map.mp hw
  exact h x hx

end Host

end StatusLine
