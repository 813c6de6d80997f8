import Mathlib.Data.List.Basic
import StatusLine.Proofs.Format.StyleBody

/-!
What characters are drawn with: the host carries colours and attributes along from one style token
to the next.
-/

namespace StatusLine

namespace Host

/-- The colours that were named, and the attributes that are on. -/
structure Pen where
  fg : Option Color
  bg : Option Color
  on : Attribute → Bool

namespace Pen

def cleared : Pen := ⟨none, none, fun _ => false⟩

def IsBare (p : Pen) : Prop := ∀ a, p.on a = false

def turn (value : Bool) (p : Pen) (a : Attribute) : Pen :=
  { p with on := fun b => if b = a then value else p.on b }

def color? (cs : List Char) : Option Color := (Color.parse (String.ofList cs)).toOption

def attribute? (cs : List Char) : Option Attribute := Attribute.ofName? (String.ofList cs)

/-- Follows a word of a style token; one that names nothing is passed over. -/
def word (p : Pen) (w : List Char) : Pen :=
  match Text.after? "fg=".toList w with
  | some cs => { p with fg := (color? cs).or p.fg }
  | none =>
    match Text.after? "bg=".toList w with
    | some cs => { p with bg := (color? cs).or p.bg }
    | none =>
      if w = "default".toList then cleared
      else match attribute? w with
        | some a => p.turn true a
        | none =>
          match (Text.after? "no".toList w).bind attribute? with
          | some a => p.turn false a
          | none => p

def style (p : Pen) (body : List Char) : Pen := (body.splitOn ',').foldl word p

def strokes (p : Pen) : List Item → List (Char × Pen)
  | [] => []
  | .char c :: rest => (c, p) :: strokes p rest
  | .style body :: rest => strokes (p.style body) rest

def after (p : Pen) : List Item → Pen
  | [] => p
  | .char _ :: rest => after p rest
  | .style body :: rest => after (p.style body) rest

theorem strokes_append (p : Pen) (xs ys : List Item) :
    p.strokes (xs ++ ys) = p.strokes xs ++ (p.after xs).strokes ys := by
  induction xs generalizing p with
  | nil => rfl
  | cons x xs ih => cases x <;> simp [strokes, after, ih]

theorem after_append (p : Pen) (xs ys : List Item) :
    p.after (xs ++ ys) = (p.after xs).after ys := by
  induction xs generalizing p with
  | nil => rfl
  | cons x xs ih => cases x <;> simp [after, ih]

theorem strokes_chars (p : Pen) (cs : List Char) :
    p.strokes (cs.map .char) = cs.map (·, p) := by
  induction cs with
  | nil => rfl
  | cons c cs ih => simp [strokes, ih]

theorem after_chars (p : Pen) (cs : List Char) : p.after (cs.map .char) = p := by
  induction cs with
  | nil => rfl
  | cons c cs ih => simp [after, ih]

theorem color?_wire (c : Color) : color? c.wire.toList = some c := by
  simp [color?, Color.parse_wire, Except.toOption]

theorem word_fg (p : Pen) (c : Color) : p.word ("fg=" ++ c.wire).toList = { p with fg := c } := by
  rw [String.toList_append, word, Text.after?_append]
  simp [color?_wire]

theorem word_bg (p : Pen) (c : Color) : p.word ("bg=" ++ c.wire).toList = { p with bg := c } := by
  have hfg : Text.after? "fg=".toList ("bg=".toList ++ c.wire.toList) = none := by
    simp [Text.after?, List.isPrefixOf?]
  rw [String.toList_append, word, hfg, Text.after?_append]
  simp [color?_wire]

theorem word_name (p : Pen) (a : Attribute) : p.word a.name.toList = p.turn true a := by
  cases a <;> rfl

theorem word_unset (p : Pen) (a : Attribute) : p.word ("no" ++ a.name).toList = p.turn false a := by
  cases a <;> rfl

theorem style_default (p : Pen) : p.style "default".toList = cleared := rfl

theorem style_joined (p : Pen) {words : List String} (h : ∀ w ∈ words, ',' ∉ w.toList) :
    p.style (",".intercalate words).toList = words.foldl (fun p w => p.word w.toList) p := by
  cases words with
  | nil => rfl
  | cons w rest =>
      have hsplit : List.splitOn ',' ([','].intercalate ((w :: rest).map String.toList)) =
          (w :: rest).map String.toList :=
        List.splitOn_intercalate ',' (by simpa using h) (by simp)
      have hcomma : ",".toList = [','] := rfl
      rw [style, String.toList_intercalate, hcomma, hsplit, List.foldl_map]

theorem not_mem_wire (c : Color) : ',' ∉ c.wire.toList := by
  cases c with
  | named n => cases n <;> decide
  | indexed i =>
      intro hmem
      have hsmall := Color.isSmall_wire_indexed i ',' hmem
      cases hsmall
  | hex x =>
      obtain ⟨ds, heq, -, hdigits⟩ := Color.eq_of_isHexColor x.isHex
      simp only [Color.wire, heq, List.mem_cons, not_or]
      exact ⟨by decide, fun hmem => isHexDigit_ne (hdigits ',' hmem) (by decide) rfl⟩

theorem not_mem_colorWords (fg bg : Option Color) :
    ∀ w ∈ Expr.colorWords fg bg, ',' ∉ w.toList := by
  intro w hw
  simp only [Expr.colorWords, List.mem_append, Option.mem_toList, Option.map_eq_some_iff] at hw
  rcases hw with ⟨c, -, rfl⟩ | ⟨c, -, rfl⟩ <;> simp [not_mem_wire]

theorem not_mem_attrWords (s : Style) : ∀ w ∈ s.attrWords, ',' ∉ w.toList := by
  intro w hw
  simp only [Style.attrWords, List.mem_append, List.mem_map] at hw
  rcases hw with ⟨a, -, rfl⟩ | ⟨a, -, rfl⟩ <;> cases a <;> decide

theorem style_colors (p : Pen) (fg bg : Color) :
    p.style (",".intercalate (Expr.colorWords (some fg) (some bg))).toList =
      { p with fg := fg, bg := bg } := by
  rw [style_joined p (not_mem_colorWords _ _)]
  simp only [Expr.colorWords, Option.map_some, Option.toList_some, List.singleton_append,
    List.foldl_cons, List.foldl_nil, word_fg, word_bg]

theorem foldl_turn (value : Bool) (p : Pen) (as : List Attribute) :
    as.foldl (turn value) p = { p with on := fun b => if b ∈ as then value else p.on b } := by
  induction as generalizing p with
  | nil => simp
  | cons a as ih =>
      rw [List.foldl_cons, ih]
      simp only [turn, List.mem_cons, mk.injEq, true_and]
      funext b
      by_cases hb : b = a <;> by_cases has : b ∈ as <;> simp [hb, has]

theorem style_attrText (p : Pen) (s : Style) :
    p.style s.attrText.toList = { p with on := fun a =>
      (p.on a || s.attrs.contains a) && !s.unset.contains a } := by
  have hfold : s.attrWords.foldl (fun p w => p.word w.toList) p =
      s.unset.foldl (turn false) (s.effective.foldl (turn true) p) := by
    simp only [Style.attrWords, List.foldl_append, List.foldl_map, word_name, word_unset]
  rw [Style.attrText, style_joined p (not_mem_attrWords s), hfold, foldl_turn, foldl_turn]
  simp only [Style.effective, mk.injEq, true_and]
  funext a
  by_cases hset : a ∈ s.attrs <;> by_cases hunset : a ∈ s.unset <;> simp [hset, hunset]

end Pen

end Host

end StatusLine
