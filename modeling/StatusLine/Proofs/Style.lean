import Mathlib.Data.List.Basic
import StatusLine.Proofs.Format.Pen

/-!
Style texts: a text is read part by part wherever it is cut, and a style is read back from what it
is written as, but for the attributes that it unsets again.
-/

namespace StatusLine

namespace Attribute

theorem after?_name (a : Attribute) : Text.after? "no".toList a.name.toList = none := by
  cases a <;> decide

theorem name_injective : Function.Injective name := fun a b h => by
  have hname := congrArg ofName? h
  rw [ofName?_name, ofName?_name] at hname
  exact Option.some.inj hname

theorem name_ne_unset (a b : Attribute) : a.name ≠ "no" ++ b.name := by
  intro h
  have hafter := after?_name a
  rw [h, String.toList_append, Text.after?_append] at hafter
  cases hafter

end Attribute

namespace Style

/-- Two styles as one; where both name a color, the second one's holds. -/
def followedBy (x y : Style) : Style :=
  ⟨y.fg.or x.fg, y.bg.or x.bg, x.attrs ++ y.attrs, x.unset ++ y.unset⟩

theorem followedBy_empty (x : Style) : x.followedBy empty = x := by
  simp [followedBy, empty]

theorem followedBy_withAttr (x y : Style) (a : Attribute) :
    x.followedBy (y.withAttr a) = (x.followedBy y).withAttr a := by
  simp [followedBy, withAttr]

theorem followedBy_withUnset (x y : Style) (a : Attribute) :
    x.followedBy (y.withUnset a) = (x.followedBy y).withUnset a := by
  simp [followedBy, withUnset]

-- Whether a word is refused, and what it adds, does not depend on what was read before it.
theorem addWord_followedBy (x y : Style) (w : List Char) :
    addWord (x.followedBy y) w = (addWord y w).map x.followedBy := by
  unfold addWord
  cases Text.after? "fg=".toList w with
  | some cs => cases hcolor : color cs <;> simp [hcolor, Except.map, followedBy, withFg]
  | none =>
    cases Text.after? "bg=".toList w with
    | some cs => cases hcolor : color cs <;> simp [hcolor, Except.map, followedBy, withBg]
    | none =>
      dsimp only
      split
      · rfl
      · cases unset? w with
        | some a => exact congrArg Except.ok (followedBy_withUnset x y a).symm
        | none =>
          cases Attribute.parse (String.ofList w) with
          | error e => rfl
          | ok a => exact congrArg Except.ok (followedBy_withAttr x y a).symm

theorem foldlM_followedBy (x y : Style) (ws : List (List Char)) :
    ws.foldlM addWord (x.followedBy y) = (ws.foldlM addWord y).map x.followedBy := by
  induction ws generalizing y with
  | nil => rfl
  | cons w ws ih =>
      rw [List.foldlM_cons, List.foldlM_cons, addWord_followedBy]
      cases addWord y w with
      | error e => rfl
      | ok z => exact ih z

/-- A text that is cut at a comma or a space is accepted if both its parts are, and has what they
have together; else its error is that of the first part that is refused. -/
theorem parse_append (a b : String) {c : Char} (hc : c = ',' ∨ c = ' ') :
    parse (a ++ String.singleton c ++ b) =
      match parse a, parse b with
      | .ok x, .ok y => .ok (x.followedBy y)
      | .ok _, .error e => .error e
      | .error e, _ => .error e := by
  have hbreak : isBreak c = true := by rcases hc with rfl | rfl <;> rfl
  have hwords : words (a ++ String.singleton c ++ b).toList = words a.toList ++ words b.toList := by
    rw [← words_append_cons hbreak]
    simp
  have hrest (x : Style) : (words b.toList).foldlM addWord x = (parse b).map x.followedBy := by
    rw [parse, ← foldlM_followedBy, followedBy_empty]
  have hparse : parse (a ++ String.singleton c ++ b) =
      (parse a).bind fun x => (parse b).map x.followedBy := by
    rw [parse, hwords, List.foldlM_append]
    exact congrArg (parse a).bind (funext hrest)
  rw [hparse]
  cases parse a with
  | error e => rfl
  | ok x => cases parse b <;> rfl

theorem parse_append_both :
    (',' = ',' ∨ ',' = ' ') ∧
      parse "fg=red bold,fg=blue,, noitalics" =
        .ok ⟨some (.named .blue), none, [.bold], [.italics]⟩ ∧
      parse "sparkle,fg=colour999" = .error (.unknownAttribute "sparkle") :=
  have hcomma : ',' = ',' ∨ ',' = ' ' := .inl rfl
  ⟨hcomma, (parse_append "fg=red bold" "fg=blue,, noitalics" hcomma).trans rfl,
    (parse_append "sparkle" "fg=colour999" hcomma).trans rfl⟩

def uncolored (s : Style) : Style := { s with fg := none, bg := none }

/-- Whether a word stays whole between commas: there is nothing in it to cut or to trim. -/
def isSolid (w : String) : Bool :=
  !w.isEmpty && w.toList.all fun c => c != ',' && !Text.isBlank c

theorem words_solid {w : String} (h : isSolid w = true) : words w.toList = [w.toList] := by
  simp only [isSolid, Bool.and_eq_true, List.all_eq_true, bne_iff_ne, Bool.not_eq_true'] at h
  obtain ⟨hne, hchars⟩ := h
  have hsplit : w.toList.splitOnP isBreak = [w.toList] := List.splitOnP_eq_singleton fun c hc => by
    have hspace : c ≠ ' ' := by
      rintro rfl
      cases (hchars ' ' hc).2
    simp [isBreak, (hchars c hc).1, hspace]
  have htrim := Text.trimmed_of_forall fun c hc => (hchars c hc).2
  rw [words, hsplit, List.map_singleton, htrim]
  simpa using hne

theorem words_intercalate {ws : List String} (h : ∀ w ∈ ws, isSolid w = true) :
    words (",".intercalate ws).toList = ws.map String.toList := by
  have hmark : ",".toList = [','] := rfl
  rw [String.toList_intercalate, hmark]
  induction ws with
  | nil => rfl
  | cons w rest ih =>
      have hw := words_solid (h w (by simp))
      have hrest := ih fun x hx => h x (by simp [hx])
      cases rest with
      | nil => simpa using hw
      | cons x rest =>
          rw [List.map_cons] at hrest
          rw [List.map_cons, List.map_cons, List.intercalate_cons_cons, List.append_assoc,
            List.singleton_append, words_append_cons rfl, hw, hrest]
          rfl

theorem isSolid_append {v w : String} (hv : isSolid v = true) (hw : isSolid w = true) :
    isSolid (v ++ w) = true := by
  simp only [isSolid, Bool.and_eq_true] at hv hw ⊢
  refine ⟨?_, ?_⟩
  · simpa [String.append_eq_empty_iff] using fun h => absurd h (by simpa using hv.1)
  · rw [String.toList_append, List.all_append, hv.2, hw.2]
    rfl

theorem isSolid_wire (c : Color) : isSolid c.wire = true := by
  have hne : c.wire ≠ "" := fun h => by
    have hparse := c.parse_wire
    rw [h] at hparse
    cases hparse
  have hchars : ∀ d ∈ c.wire.toList, (d != ',' && !Text.isBlank d) = true := fun d hd => by
    have hcomma : d ≠ ',' := fun h => Host.Pen.not_mem_wire c (h ▸ hd)
    simp [hcomma, c.isBlank_wire d hd]
  simp [isSolid, hne, List.all_eq_true.mpr hchars]

theorem isSolid_name (a : Attribute) : isSolid a.name = true := by
  cases a <;> decide

theorem isSolid_colorWords (s : Style) : ∀ w ∈ s.colorWords, isSolid w = true := by
  intro w hw
  simp only [colorWords, List.mem_append, Option.mem_toList, Option.map_eq_some_iff] at hw
  rcases hw with ⟨c, -, rfl⟩ | ⟨c, -, rfl⟩
  · exact isSolid_append (by decide) (isSolid_wire c)
  · exact isSolid_append (by decide) (isSolid_wire c)

theorem isSolid_attrWords (s : Style) : ∀ w ∈ s.attrWords, isSolid w = true := by
  intro w hw
  simp only [attrWords, List.mem_append, List.mem_map] at hw
  rcases hw with ⟨a, -, rfl⟩ | ⟨a, -, rfl⟩
  · exact isSolid_name a
  · exact isSolid_append (by decide) (isSolid_name a)

theorem words_text (s : Style) :
    words s.text.toList = (s.colorWords ++ s.attrWords).map String.toList :=
  words_intercalate (List.forall_mem_append.mpr ⟨s.isSolid_colorWords, s.isSolid_attrWords⟩)

theorem words_attrText (s : Style) : words s.attrText.toList = s.attrWords.map String.toList :=
  words_intercalate s.isSolid_attrWords

theorem color_wire (c : Color) : color c.wire.toList = .ok c := by
  rw [color, String.ofList_toList, Color.parse_wire]
  rfl

theorem addWord_fg (s : Style) (c : Color) :
    addWord s ("fg=" ++ c.wire).toList = .ok (s.withFg c) := by
  rw [String.toList_append, addWord, Text.after?_append]
  simp only [color_wire]
  rfl

theorem addWord_bg (s : Style) (c : Color) :
    addWord s ("bg=" ++ c.wire).toList = .ok (s.withBg c) := by
  have hfg : Text.after? "fg=".toList ("bg=".toList ++ c.wire.toList) = none := by
    simp [Text.after?, List.isPrefixOf?]
  rw [String.toList_append, addWord, hfg, Text.after?_append]
  simp only [color_wire]
  rfl

theorem addWord_name (s : Style) (a : Attribute) :
    addWord s a.name.toList = .ok (s.withAttr a) := by
  cases a <;> rfl

theorem addWord_unset (s : Style) (a : Attribute) :
    addWord s ("no" ++ a.name).toList = .ok (s.withUnset a) := by
  cases a <;> rfl

def addWords (s : Style) (ws : List String) : Except StyleError Style :=
  (ws.map String.toList).foldlM addWord s

theorem addWords_append (s : Style) (ws xs : List String) :
    s.addWords (ws ++ xs) = (s.addWords ws).bind fun t => t.addWords xs := by
  rw [addWords, List.map_append, List.foldlM_append]
  rfl

theorem addWords_map {α : Type} {word : α → String} {add : Style → α → Style}
    (h : ∀ s a, addWord s (word a).toList = .ok (add s a)) (s : Style) (as : List α) :
    s.addWords (as.map word) = .ok (as.foldl add s) := by
  induction as generalizing s with
  | nil => rfl
  | cons a as ih =>
      simp only [addWords, List.map_cons, List.foldlM_cons, h]
      exact ih (add s a)

theorem foldl_withAttr (s : Style) (as : List Attribute) :
    as.foldl withAttr s = { s with attrs := s.attrs ++ as } := by
  induction as generalizing s with
  | nil => simp
  | cons a as ih => simp [ih, withAttr]

theorem foldl_withUnset (s : Style) (as : List Attribute) :
    as.foldl withUnset s = { s with unset := s.unset ++ as } := by
  induction as generalizing s with
  | nil => simp
  | cons a as ih => simp [ih, withUnset]

theorem addWords_colorWords (s : Style) :
    empty.addWords s.colorWords = .ok ⟨s.fg, s.bg, [], []⟩ := by
  rw [colorWords, Option.toList_map, Option.toList_map, addWords_append, addWords_map addWord_fg]
  refine (addWords_map addWord_bg _ s.bg.toList).trans ?_
  cases s.fg <;> cases s.bg <;> rfl

theorem addWords_attrWords (s t : Style) :
    t.addWords s.attrWords =
      .ok { t with attrs := t.attrs ++ s.effective, unset := t.unset ++ s.unset } := by
  rw [attrWords, addWords_append, addWords_map addWord_name, foldl_withAttr]
  refine (addWords_map addWord_unset _ s.unset).trans ?_
  rw [foldl_withUnset]

theorem parse_text (s : Style) : parse s.text = .ok { s with attrs := s.effective } := by
  have hread : empty.addWords (s.colorWords ++ s.attrWords) =
      (Style.mk s.fg s.bg [] []).addWords s.attrWords := by
    rw [addWords_append, addWords_colorWords]
    rfl
  rw [parse, words_text]
  exact hread.trans (addWords_attrWords s _)

theorem parse_attrText (s : Style) :
    parse s.attrText = .ok { s.uncolored with attrs := s.effective } := by
  rw [parse, words_attrText]
  exact addWords_attrWords s empty

theorem equals_mem_of_mem_colorWords {s : Style} {w : String} (h : w ∈ s.colorWords) :
    '=' ∈ w.toList := by
  simp only [colorWords, List.mem_append, Option.mem_toList, Option.map_eq_some_iff] at h
  rcases h with ⟨c, -, rfl⟩ | ⟨c, -, rfl⟩ <;> simp

theorem mem_map_toList {w : String} {ws : List String} :
    w.toList ∈ ws.map String.toList ↔ w ∈ ws :=
  List.mem_map_of_injective fun _ _ => String.toList_injective

theorem mem_words_text {s : Style} {w : String} (h : '=' ∉ w.toList) :
    w.toList ∈ words s.text.toList ↔ w ∈ s.attrWords := by
  rw [words_text, mem_map_toList, List.mem_append]
  exact or_iff_right fun hw => h (equals_mem_of_mem_colorWords hw)

theorem mem_words_attrText {s : Style} {w : String} :
    w.toList ∈ words s.attrText.toList ↔ w ∈ s.attrWords := by
  rw [words_attrText, mem_map_toList]

theorem name_mem_attrWords {s : Style} {a : Attribute} :
    a.name ∈ s.attrWords ↔ a ∈ s.attrs ∧ a ∉ s.unset := by
  have hset : a.name ∈ s.effective.map Attribute.name ↔ a ∈ s.effective :=
    List.mem_map_of_injective Attribute.name_injective
  have hunset : a.name ∉ s.unset.map fun b => "no" ++ b.name := by
    simp [(Attribute.name_ne_unset a _).symm]
  rw [attrWords, List.mem_append, hset, or_iff_left hunset]
  simp [effective]

theorem unset_mem_attrWords {s : Style} {a : Attribute} :
    "no" ++ a.name ∈ s.attrWords ↔ a ∈ s.unset := by
  have hset : "no" ++ a.name ∉ s.effective.map Attribute.name := by
    simp [Attribute.name_ne_unset]
  have hinjective : Function.Injective fun b : Attribute => "no" ++ b.name := fun b c h =>
    Attribute.name_injective (String.append_right_inj "no" |>.mp h)
  rw [attrWords, List.mem_append, or_iff_right hset, List.mem_map_of_injective hinjective]

/-- Both texts of a style are read back as the style without what it sets and unsets again, the
attribute text without the colors too, and that style is written the same. An attribute is written
as set if the style sets it and does not unset it, and as unset whenever the style unsets it. -/
theorem parse_written (s : Style) :
    let settled : Style := { s with attrs := s.attrs.filter fun a => !s.unset.contains a }
    parse s.text = .ok settled ∧ parse s.attrText = .ok settled.uncolored ∧
    settled.text = s.text ∧ settled.attrText = s.attrText ∧
    settled.uncolored.text = s.attrText ∧ settled.uncolored.attrText = s.attrText ∧
    ∀ a : Attribute,
      (a.name.toList ∈ words s.text.toList ↔ a ∈ s.attrs ∧ a ∉ s.unset) ∧
      (("no" ++ a.name).toList ∈ words s.text.toList ↔ a ∈ s.unset) ∧
      (a.name.toList ∈ words s.attrText.toList ↔ a ∈ s.attrs ∧ a ∉ s.unset) ∧
      (("no" ++ a.name).toList ∈ words s.attrText.toList ↔ a ∈ s.unset) := by
  intro settled
  have heffective : settled.effective = s.effective := by
    simp [settled, effective, List.filter_filter]
  have hattrWords : settled.attrWords = s.attrWords := by
    rw [attrWords, heffective]
    rfl
  have hattrText : settled.attrText = s.attrText := by
    rw [attrText, hattrWords]
    rfl
  have htext : settled.text = s.text := by
    rw [text, hattrWords]
    rfl
  refine ⟨s.parse_text, s.parse_attrText, htext, hattrText, hattrText, hattrText, fun a => ?_⟩
  have hname : '=' ∉ a.name.toList ∧ '=' ∉ ("no" ++ a.name).toList := by cases a <;> decide
  exact ⟨(mem_words_text hname.1).trans name_mem_attrWords,
    (mem_words_text hname.2).trans unset_mem_attrWords,
    mem_words_attrText.trans name_mem_attrWords, mem_words_attrText.trans unset_mem_attrWords⟩

end Style

end StatusLine
