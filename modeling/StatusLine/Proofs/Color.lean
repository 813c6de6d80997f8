import StatusLine.Color
import StatusLine.Proofs.Number.Decimal

namespace StatusLine

namespace Text

theorem trimmed_of_forall {cs : List Char} (h : ∀ c ∈ cs, isBlank c = false) : trimmed cs = cs := by
  have hdrop : ∀ ds : List Char, (∀ c ∈ ds, isBlank c = false) → ds.dropWhile isBlank = ds := by
    intro ds hds
    cases ds with
    | nil => rfl
    | cons d ds => exact List.dropWhile_cons_of_neg (by simp [hds d (by simp)])
  have hreverse : ∀ c ∈ cs.reverse, isBlank c = false := fun c hc => h c (List.mem_reverse.mp hc)
  rw [trimmed, trimStart, hdrop cs h, trimEnd, hdrop cs.reverse hreverse, List.reverse_reverse]

theorem trim_of_forall {s : String} (h : ∀ c ∈ s.toList, isBlank c = false) : trim s = s := by
  rw [trim, trimmed_of_forall h, String.ofList_toList]

def isSmall (c : Char) : Bool := Integer.isDigit c || ('a' ≤ c && c ≤ 'z')

theorem toNat_lt_of_le {c : Char} (h : c ≤ 'z') : c.toNat < 128 := by
  have hle : c.toNat ≤ 'z'.toNat := h
  have hz : 'z'.toNat = 122 := rfl
  omega

theorem lowerOf_isSmall_of_lt : ∀ n, n < 128 → isSmall (Char.ofNat n) = true →
    lowerOf (Char.ofNat n) = [Char.ofNat n] ∧ isBlank (Char.ofNat n) = false := by
  decide

theorem lowerOf_isSmall {c : Char} (h : isSmall c = true) :
    lowerOf c = [c] ∧ isBlank c = false := by
  have hle : c ≤ 'z' := by
    simp only [isSmall, Integer.isDigit, Bool.or_eq_true, Bool.and_eq_true, decide_eq_true_eq] at h
    rcases h with h | h
    · exact Char.le_trans h.2 (by decide)
    · exact h.2
  have hlt := toNat_lt_of_le hle
  have hsmall := lowerOf_isSmall_of_lt c.toNat hlt
  rw [Char.ofNat_toNat] at hsmall
  exact hsmall h

theorem lowered_of_forall {cs : List Char} (h : ∀ c ∈ cs, isSmall c = true) :
    lowered cs = cs := by
  induction cs with
  | nil => rfl
  | cons c cs ih =>
      have hc := (lowerOf_isSmall (h c (by simp))).1
      have hcs := ih fun d hd => h d (by simp [hd])
      rw [lowered, List.flatMap_cons, hc]
      exact congrArg (c :: ·) hcs

end Text

namespace Color

theorem wire_indexed (i : Fin 256) :
    (indexed i).wire.toList = "colour".toList ++ Nat.toDigits 10 i.val := by
  simp [wire, Integer.toList_text]

theorem isSmall_wire_indexed (i : Fin 256) :
    ∀ c ∈ (indexed i).wire.toList, Text.isSmall c = true := by
  intro c hc
  rw [wire_indexed, List.mem_append] at hc
  rcases hc with hc | hc
  · exact List.all_eq_true.mp (show "colour".toList.all Text.isSmall = true by decide) c hc
  · simp [Text.isSmall, Integer.isDigit_of_mem_toDigits hc]

def IsHexDigit (c : Char) : Prop := c ∈ "0123456789abcdefABCDEF".toList

instance : DecidablePred IsHexDigit := fun _ => inferInstanceAs (Decidable (_ ∈ _))

theorem isHexDigit_of_lt : ∀ n, n < 128 →
    (Integer.isDigit (Char.ofNat n) || ('a' ≤ Char.ofNat n && Char.ofNat n ≤ 'f') ||
      ('A' ≤ Char.ofNat n && Char.ofNat n ≤ 'F')) = true → IsHexDigit (Char.ofNat n) := by
  decide

theorem isHexDigit_iff {c : Char} :
    IsHexDigit c ↔
      (Integer.isDigit c || ('a' ≤ c && c ≤ 'f') || ('A' ≤ c && c ≤ 'F')) = true := by
  constructor
  · have hall : "0123456789abcdefABCDEF".toList.all (fun c =>
        Integer.isDigit c || ('a' ≤ c && c ≤ 'f') || ('A' ≤ c && c ≤ 'F')) = true := by decide
    exact List.all_eq_true.mp hall c
  · intro h
    have hle : c ≤ 'z' := by
      simp only [Integer.isDigit, Bool.or_eq_true, Bool.and_eq_true, decide_eq_true_eq] at h
      rcases h with (h | h) | h
      all_goals exact Char.le_trans h.2 (by decide)
    have hdigit := isHexDigit_of_lt c.toNat (Text.toNat_lt_of_le hle)
    rw [Char.ofNat_toNat] at hdigit
    exact hdigit h

theorem isHexColor_cons {ds : List Char} :
    isHexColor ('#' :: ds) = true ↔ ds.length = 6 ∧ ∀ d ∈ ds, IsHexDigit d := by
  simp only [isHexColor, Bool.and_eq_true, beq_iff_eq, List.all_eq_true, isHexDigit_iff]

theorem eq_of_isHexColor {cs : List Char} (h : isHexColor cs = true) :
    ∃ ds, cs = '#' :: ds ∧ ds.length = 6 ∧ ∀ d ∈ ds, IsHexDigit d := by
  cases cs with
  | nil => cases h
  | cons c ds =>
      by_cases hhash : c = '#'
      · subst hhash
        exact ⟨ds, rfl, isHexColor_cons.mp h⟩
      · simp [isHexColor, hhash] at h

theorem isBlank_of_isHexDigit {c : Char} (h : IsHexDigit c) : Text.isBlank c = false := by
  have hall : "0123456789abcdefABCDEF".toList.all (fun c => !Text.isBlank c) = true := by decide
  simpa using List.all_eq_true.mp hall c h

theorem isBlank_wire (x : Color) : ∀ c ∈ x.wire.toList, Text.isBlank c = false := by
  cases x with
  | named n =>
      have hall : (named n).wire.toList.all (fun c => !Text.isBlank c) = true := by
        cases n <;> decide
      simpa using hall
  | indexed i => exact fun c hc => (Text.lowerOf_isSmall (isSmall_wire_indexed i c hc)).2
  | hex x =>
      obtain ⟨ds, heq, -, hdigits⟩ := eq_of_isHexColor x.isHex
      simp only [wire, heq, List.forall_mem_cons]
      exact ⟨rfl, fun c hc => isBlank_of_isHexDigit (hdigits c hc)⟩

theorem ofIndex_of_val (i : Fin 256) : ofIndex i.val = .ok (indexed i) := by
  have hrange : 0 ≤ (i.val : Int) ∧ (i.val : Int) < 256 := by omega
  simp [ofIndex, hrange]

theorem parse_indexed (i : Fin 256) : parse (indexed i).wire = .ok (indexed i) := by
  have hsmall := isSmall_wire_indexed i
  have htrim := Text.trim_of_forall (isBlank_wire (indexed i))
  have hlower := Text.lowered_of_forall hsmall
  have hdigits : indexText? (indexed i).wire.toList = some (Nat.toDigits 10 i.val) := by
    rw [wire_indexed, indexText?, Text.after?_append]
    rfl
  have hword : Integer.word? (Nat.toDigits 10 i.val) = some (i.val : Int) := by
    have hrange : Integer.isWord i.val = true := by
      simp only [Integer.isWord, Bool.and_eq_true, decide_eq_true_eq]
      omega
    rw [Integer.word?, Integer.read?_toDigits]
    simp [hrange]
  unfold parse
  simp only [htrim]
  split
  · rename_i heq
    have := hsmall '#' (by rw [heq]; simp)
    cases this
  · simp only [hlower, hdigits, hword, ofIndex_of_val]

theorem parse_hex (x : HexColor) : parse (hex x).wire = .ok (hex x) := by
  obtain ⟨ds, heq, -, -⟩ := eq_of_isHexColor x.isHex
  have htrim : Text.trim (hex x).wire = x.text := Text.trim_of_forall (isBlank_wire (hex x))
  have hof : ofHex x.text = .ok (hex x) := dif_pos x.isHex
  simp only [parse, htrim, heq, hof]

theorem parse_wire (c : Color) : parse c.wire = .ok c := by
  cases c with
  | named n => cases n <;> rfl
  | indexed i => exact parse_indexed i
  | hex x => exact parse_hex x

end Color

end StatusLine
