import Mathlib.Data.List.Basic
import StatusLine.Proofs.Color
import StatusLine.Proofs.Number.Numeral

/-!
The grammar of color texts: what each text means, or why it means nothing, apart from how it is
read. The reader of colors follows it for every text, and no two colors have the same text.
-/

namespace StatusLine

namespace Text

/-- The lower-case forms of a text, letter by letter. Any capital sigma may have its final form,
which it has at the end of a word. -/
inductive IsLower : List Char → List Char → Prop
  | nil : IsLower [] []
  | letter (c : Char) {cs ls : List Char} (h : IsLower cs ls) : IsLower (c :: cs) (lowerOf c ++ ls)
  | sigma {cs ls : List Char} (h : IsLower cs ls) : IsLower ('Σ' :: cs) ('ς' :: ls)

theorem isLower_lowered (cs : List Char) : IsLower cs (lowered cs) := by
  induction cs with
  | nil => exact .nil
  | cons c cs ih => exact .letter c ih

def medial (c : Char) : Char := if c = 'ς' then 'σ' else c

def isPlain (c : Char) : Bool := c != 'σ' && c != 'ς'

theorem eq_of_medial_eq {c d : Char} (hc : isPlain c = true) (h : medial c = medial d) :
    c = d := by
  simp only [isPlain, Bool.and_eq_true, bne_iff_ne] at hc
  simp only [medial, hc.2, if_false] at h
  split at h
  · exact absurd h hc.1
  · exact h

theorem IsLower.medial {cs ls : List Char} (h : IsLower cs ls) :
    ls.map medial = (lowered cs).map medial := by
  induction h with
  | nil => rfl
  | letter c _ ih => rw [lowered, List.flatMap_cons, List.map_append, List.map_append, ih, lowered]
  | sigma _ ih =>
      have hsigma : lowerOf 'Σ' = ['σ'] := by decide
      rw [lowered, List.flatMap_cons, hsigma, List.map_append, List.map_cons, ih, lowered]
      rfl

variable {start ls ms rest : List Char}

theorem starts_of_medial (hstart : start.all isPlain = true) (h : ls.map medial = ms.map medial)
    (hls : ls = start ++ rest) : ∃ qs, ms = start ++ qs ∧ rest.map medial = qs.map medial := by
  induction start generalizing ls ms with
  | nil =>
      subst hls
      exact ⟨ms, rfl, h⟩
  | cons c start ih =>
      rw [List.all_cons, Bool.and_eq_true] at hstart
      obtain ⟨hc, hrest⟩ := hstart
      cases ms with
      | nil =>
          subst hls
          cases h
      | cons d ms =>
          subst hls
          obtain ⟨hhead, htail⟩ := List.cons.inj h
          obtain ⟨qs, rfl, hqs⟩ := ih hrest htail rfl
          exact ⟨qs, by rw [eq_of_medial_eq hc hhead, List.cons_append], hqs⟩

theorem eq_of_medial (hls : ls.all isPlain = true) (h : ls.map medial = ms.map medial) :
    ls = ms := by
  obtain ⟨qs, rfl, hqs⟩ := starts_of_medial hls h (List.append_nil ls).symm
  rw [List.map_eq_nil_iff.mp hqs.symm, List.append_nil]

end Text

namespace Color

open Integer (Signed)

/-- What follows the word for a color of the palette, in either spelling. -/
def IsPalette (ls rest : List Char) : Prop :=
  ls = "colour".toList ++ rest ∨ ls = "color".toList ++ rest

/-- What a text means as a color, given the same text in lower-case. -/
inductive Denotes (t : String) (ls : List Char) : Except ColorError Color → Prop
  | hex {ds : List Char} (h : HexColor) (ht : t.toList = '#' :: ds) (hcount : ds.length = 6)
      (hdigits : ∀ d ∈ ds, IsHexDigit d) (htext : h.text = t) : Denotes t ls (.ok (.hex h))
  | malformed {ds : List Char} (ht : t.toList = '#' :: ds)
      (hds : ¬ (ds.length = 6 ∧ ∀ d ∈ ds, IsHexDigit d)) : Denotes t ls (.error (.malformedHex t))
  | indexed {rest : List Char} (i : Fin 256) (ht : t.toList.head? ≠ some '#')
      (hrest : IsPalette ls rest) (hi : Signed rest i.val) : Denotes t ls (.ok (.indexed i))
  | outOfRange {rest : List Char} {v : Int} (ht : t.toList.head? ≠ some '#')
      (hrest : IsPalette ls rest) (hv : Signed rest v) (hword : -2 ^ 63 ≤ v ∧ v < 2 ^ 63)
      (hrange : ¬ (0 ≤ v ∧ v ≤ 255)) : Denotes t ls (.error (.indexOutOfRange v))
  | noIndex {rest : List Char} (ht : t.toList.head? ≠ some '#') (hrest : IsPalette ls rest)
      (hnone : ∀ v, Signed rest v → ¬ (-2 ^ 63 ≤ v ∧ v < 2 ^ 63)) :
      Denotes t ls (.error (.unknownName t))
  | named (n : NamedColor) (ht : t.toList.head? ≠ some '#') (hls : ∀ rest, ¬ IsPalette ls rest)
      (hn : n.name.toList = ls) : Denotes t ls (.ok (.named n))
  | unknown (ht : t.toList.head? ≠ some '#') (hls : ∀ rest, ¬ IsPalette ls rest)
      (hn : ∀ n : NamedColor, n.name.toList ≠ ls) : Denotes t ls (.error (.unknownName t))

theorem indexText?_eq_some_iff {ls rest : List Char} :
    indexText? ls = some rest ↔ IsPalette ls rest := by
  rw [indexText?, Option.or_eq_some_iff, List.isPrefixOf?_eq_some_iff_append_eq,
    List.isPrefixOf?_eq_some_iff_append_eq, eq_comm, eq_comm (b := ls), IsPalette]
  refine or_congr_right (and_iff_right_of_imp ?_)
  rintro rfl
  simp [List.isPrefixOf?]

theorem indexText?_eq_none_iff {ls : List Char} :
    indexText? ls = none ↔ ∀ rest, ¬ IsPalette ls rest := by
  simp only [← indexText?_eq_some_iff, Option.eq_none_iff_forall_ne_some, ne_eq]

theorem ofName_of_name {ls : List Char} {n : NamedColor} (t : String) (h : n.name.toList = ls) :
    ofName t ls = .ok (.named n) := by
  subst h
  cases n <;> rfl

theorem ofName_of_forall_ne {ls : List Char} (t : String)
    (h : ∀ n : NamedColor, n.name.toList ≠ ls) : ofName t ls = .error (.unknownName t) := by
  have hnone : NamedColor.all.find? (fun n => n.name.toList == ls) = none := by
    simp [List.find?_eq_none, h]
  rw [ofName, hnone]

def ofLower (t : String) (ls : List Char) : Except ColorError Color :=
  match indexText? ls with
  | some ds =>
      match Integer.word? ds with
      | some v => ofIndex v
      | none => .error (.unknownName t)
  | none => ofName t ls

theorem parse_hash {s : String} {ds : List Char} (h : (Text.trim s).toList = '#' :: ds) :
    parse s = ofHex (Text.trim s) := by
  simp only [parse, h]

theorem parse_plain {s : String} (h : (Text.trim s).toList.head? ≠ some '#') :
    parse s = ofLower (Text.trim s) (Text.lowered (Text.trim s).toList) := by
  unfold parse
  dsimp only
  split
  · rename_i heq
    exact absurd (congrArg List.head? heq) h
  · generalize Text.lowered (Text.trim s).toList = ls
    rfl

variable {t : String} {ls : List Char}

theorem denotes_ofHex {ds : List Char} (ht : t.toList = '#' :: ds) : Denotes t ls (ofHex t) := by
  have hiff : isHexColor t.toList = true ↔ ds.length = 6 ∧ ∀ d ∈ ds, IsHexDigit d := by
    rw [ht, isHexColor_cons]
  unfold ofHex
  split
  · rename_i hhex
    exact .hex _ ht (hiff.mp hhex).1 (hiff.mp hhex).2 rfl
  · rename_i hhex
    exact .malformed ht (mt hiff.mpr hhex)

theorem denotes_ofIndex {rest : List Char} {v : Int} (ht : t.toList.head? ≠ some '#')
    (hrest : IsPalette ls rest) (hv : Signed rest v) (hword : -2 ^ 63 ≤ v ∧ v < 2 ^ 63) :
    Denotes t ls (ofIndex v) := by
  unfold ofIndex
  split
  · rename_i hrange
    have hnat : (v.toNat : Int) = v := Int.toNat_of_nonneg hrange.1
    exact .indexed ⟨v.toNat, by omega⟩ ht hrest (hnat.symm ▸ hv)
  · exact .outOfRange ht hrest hv hword (by omega)

theorem denotes_ofName (ht : t.toList.head? ≠ some '#') (hls : ∀ rest, ¬ IsPalette ls rest) :
    Denotes t ls (ofName t ls) := by
  by_cases hname : ∃ n : NamedColor, n.name.toList = ls
  · obtain ⟨n, hn⟩ := hname
    rw [ofName_of_name t hn]
    exact .named n ht hls hn
  · have hnone := not_exists.mp hname
    rw [ofName_of_forall_ne t hnone]
    exact .unknown ht hls hnone

theorem denotes_ofLower (ht : t.toList.head? ≠ some '#') : Denotes t ls (ofLower t ls) := by
  cases hindex : indexText? ls with
  | some rest =>
      have hrest := indexText?_eq_some_iff.mp hindex
      cases hword : Integer.word? rest with
      | some v =>
          obtain ⟨hv, hrange⟩ := Integer.word?_eq_some_iff.mp hword
          simp only [ofLower, hindex, hword]
          exact denotes_ofIndex ht hrest hv hrange
      | none =>
          simp only [ofLower, hindex, hword]
          refine .noIndex ht hrest fun v hv hrange => ?_
          rw [Integer.word?_eq_some_iff.mpr ⟨hv, hrange⟩] at hword
          cases hword
  | none =>
      simp only [ofLower, hindex]
      exact denotes_ofName ht (indexText?_eq_none_iff.mp hindex)

theorem ofLower_of_palette {rest : List Char} {v : Int} (hrest : IsPalette ls rest)
    (hv : Signed rest v) (hword : -2 ^ 63 ≤ v ∧ v < 2 ^ 63) : ofLower t ls = ofIndex v := by
  simp only [ofLower, indexText?_eq_some_iff.mpr hrest, Integer.word?_eq_some_iff.mpr ⟨hv, hword⟩]

theorem parse_of_denotes {s : String} {result : Except ColorError Color}
    (h : Denotes (Text.trim s) (Text.lowered (Text.trim s).toList) result) : parse s = result := by
  cases h with
  | hex h ht hcount hdigits htext =>
      have hhex := isHexColor_cons.mpr ⟨hcount, hdigits⟩
      rw [parse_hash ht, ← htext]
      exact dif_pos h.isHex
  | malformed ht hds =>
      rw [parse_hash ht]
      exact dif_neg (by rw [ht, isHexColor_cons]; exact hds)
  | indexed i ht hrest hi =>
      rw [parse_plain ht, ofLower_of_palette hrest hi (by omega), ofIndex_of_val]
  | outOfRange ht hrest hv hword hrange =>
      rw [parse_plain ht, ofLower_of_palette hrest hv hword]
      exact dif_neg (by omega)
  | noIndex ht hrest hnone =>
      have hword := Option.eq_none_iff_forall_ne_some.mpr fun v hv =>
        hnone v (Integer.word?_eq_some_iff.mp hv).1 (Integer.word?_eq_some_iff.mp hv).2
      simp only [parse_plain ht, ofLower, indexText?_eq_some_iff.mpr hrest, hword]
  | named n ht hls hn =>
      simp only [parse_plain ht, ofLower, indexText?_eq_none_iff.mpr hls]
      exact ofName_of_name _ hn
  | unknown ht hls hn =>
      simp only [parse_plain ht, ofLower, indexText?_eq_none_iff.mpr hls]
      exact ofName_of_forall_ne _ hn

theorem denotes_parse (s : String) :
    Denotes (Text.trim s) (Text.lowered (Text.trim s).toList) (parse s) := by
  by_cases hhash : (Text.trim s).toList.head? = some '#'
  · obtain ⟨ds, hds⟩ := List.head?_eq_some_iff.mp hhash
    rw [parse_hash hds]
    exact denotes_ofHex hds
  · rw [parse_plain hhash]
    exact denotes_ofLower hhash

theorem isPlain_of_isDigit {c : Char} (h : Integer.isDigit c = true) : Text.isPlain c = true := by
  simp only [Text.isPlain, Bool.and_eq_true, bne_iff_ne]
  constructor
  · rintro rfl
    cases h
  · rintro rfl
    cases h

theorem all_isPlain_of_signed {rest : List Char} {v : Int} (h : Signed rest v) :
    rest.all Text.isPlain = true := by
  have hnumeral {ds : List Char} {n : Nat} (h : Integer.Numeral ds n) :
      ds.all Text.isPlain = true :=
    List.all_eq_true.mpr fun c hc => isPlain_of_isDigit (h.isDigit c hc)
  cases h with
  | bare h => exact hnumeral h
  | plus h =>
      rw [List.all_cons, hnumeral h]
      rfl
  | minus h =>
      rw [List.all_cons, hnumeral h]
      rfl

theorem all_isPlain_name (n : NamedColor) : n.name.toList.all Text.isPlain = true := by
  cases n <;> decide

variable {ms rest qs : List Char}

theorem signed_of_medial {v : Int} (h : rest.map Text.medial = qs.map Text.medial)
    (hv : Signed rest v) : Signed qs v :=
  Text.eq_of_medial (all_isPlain_of_signed hv) h ▸ hv

theorem isPalette_of_medial (h : ls.map Text.medial = ms.map Text.medial)
    (hrest : IsPalette ls rest) :
    ∃ qs, IsPalette ms qs ∧ rest.map Text.medial = qs.map Text.medial := by
  rcases hrest with hrest | hrest
  · obtain ⟨qs, hqs, hmedial⟩ := Text.starts_of_medial (by decide) h hrest
    exact ⟨qs, .inl hqs, hmedial⟩
  · obtain ⟨qs, hqs, hmedial⟩ := Text.starts_of_medial (by decide) h hrest
    exact ⟨qs, .inr hqs, hmedial⟩

-- A text with a sigma is no color, so it does not matter which form the sigma has.
theorem Denotes.of_medial {result : Except ColorError Color}
    (h : ls.map Text.medial = ms.map Text.medial) (hresult : Denotes t ls result) :
    Denotes t ms result := by
  have hnone (hls : ∀ rest, ¬ IsPalette ls rest) : ∀ qs, ¬ IsPalette ms qs := fun qs hqs => by
    obtain ⟨rest, hrest, -⟩ := isPalette_of_medial h.symm hqs
    exact hls rest hrest
  cases hresult with
  | hex x ht hcount hdigits htext => exact .hex x ht hcount hdigits htext
  | malformed ht hds => exact .malformed ht hds
  | indexed i ht hrest hi =>
      obtain ⟨qs, hqs, hmedial⟩ := isPalette_of_medial h hrest
      exact .indexed i ht hqs (signed_of_medial hmedial hi)
  | outOfRange ht hrest hv hword hrange =>
      obtain ⟨qs, hqs, hmedial⟩ := isPalette_of_medial h hrest
      exact .outOfRange ht hqs (signed_of_medial hmedial hv) hword hrange
  | noIndex ht hrest hword =>
      obtain ⟨qs, hqs, hmedial⟩ := isPalette_of_medial h hrest
      exact .noIndex ht hqs fun v hv => hword v (signed_of_medial hmedial.symm hv)
  | named n ht hls hn =>
      have hname : n.name.toList = ms :=
        Text.eq_of_medial (all_isPlain_name n) ((congrArg (List.map Text.medial) hn).trans h)
      exact .named n ht (hnone hls) hname
  | unknown ht hls hn =>
      refine .unknown ht (hnone hls) fun n hname => hn n ?_
      exact Text.eq_of_medial (all_isPlain_name n)
        ((congrArg (List.map Text.medial) hname).trans h.symm)

theorem wire_injective {a b : Color} (h : a.wire = b.wire) : a = b := by
  have hparse := parse_wire a
  rw [h, parse_wire b] at hparse
  exact (Except.ok.inj hparse).symm

/-- A text is read as what it denotes, whichever lower-case form of it is taken, and refused for the
reason that the grammar gives. Every color is read back from its own text, which no other has. -/
theorem parse_iff_denotes (s : String) {ls : List Char}
    (hls : Text.IsLower (Text.trim s).toList ls) :
    (∀ result, parse s = result ↔ Denotes (Text.trim s) ls result) ∧
    (∀ c : Color, parse c.wire = .ok c) ∧ ∀ a b : Color, a.same b = true ↔ a = b := by
  refine ⟨fun result => ⟨?_, fun h => ?_⟩, parse_wire, fun a b => ⟨fun h => ?_, ?_⟩⟩
  · rintro rfl
    exact (denotes_parse s).of_medial hls.medial.symm
  · exact parse_of_denotes (h.of_medial hls.medial)
  · exact wire_injective (beq_iff_eq.mp h)
  · rintro rfl
    exact beq_self_eq_true _

theorem parse_iff_denotes_signed :
    (Text.IsLower (Text.trim " ColouR+07\t").toList "colour+07".toList ∧
      parse " ColouR+07\t" = .ok (.indexed 7)) ∧
    (Text.IsLower (Text.trim "COLOR7Σ").toList "color7ς".toList ∧
      parse "COLOR7Σ" = .error (.unknownName "COLOR7Σ")) := by
  have hindex : Text.IsLower (Text.trim " ColouR+07\t").toList "colour+07".toList :=
    Text.isLower_lowered _
  have hsigma : Text.IsLower (Text.trim "COLOR7Σ").toList "color7ς".toList :=
    .letter 'C' (.letter 'O' (.letter 'L' (.letter 'O' (.letter 'R' (.letter '7' (.sigma .nil))))))
  have hseven : Signed ['+', '0', '7'] 7 := Integer.read?_eq_some_iff.mp rfl
  have hnone : ∀ v, ¬ Signed ['7', 'ς'] v := fun v hv => by
    cases Integer.read?_eq_some_iff.mpr hv
  refine ⟨⟨hindex, ((parse_iff_denotes _ hindex).1 _).mpr ?_⟩,
    hsigma, ((parse_iff_denotes _ hsigma).1 _).mpr ?_⟩
  · exact .indexed 7 (by decide) (.inl rfl) hseven
  · exact .noIndex (by decide) (.inr rfl) fun v hv => absurd hv (hnone v)

end Color

end StatusLine
