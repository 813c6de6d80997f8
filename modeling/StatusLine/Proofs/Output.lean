import StatusLine.Proofs.Color
import StatusLine.Proofs.Host.Command
import StatusLine.Proofs.Line
import StatusLine.Program

/-!
Which output is one line. No piece of the program's own ends a line, so what is drawn and what is
handed to the host are lines just when the texts that they are made of are.
-/

namespace StatusLine

def IsLine (s : String) : Prop := '\n' ∉ s.toList

instance (s : String) : Decidable (IsLine s) := inferInstanceAs (Decidable (¬ _))

theorem isLine_append {a b : String} : IsLine (a ++ b) ↔ IsLine a ∧ IsLine b := by
  simp [IsLine]

theorem isLine_ofList {cs : List Char} : IsLine (String.ofList cs) ↔ '\n' ∉ cs := by
  simp [IsLine]

theorem isLine_intercalate {sep : String} (hsep : IsLine sep) {words : List String}
    (h : ∀ w ∈ words, IsLine w) : IsLine (sep.intercalate words) := by
  unfold IsLine
  rw [String.toList_intercalate]
  induction words with
  | nil => simp
  | cons w rest ih =>
      rw [List.forall_mem_cons] at h
      cases rest with
      | nil => simpa [IsLine] using h.1
      | cons x rest =>
          rw [List.map_cons, List.map_cons, List.intercalate_cons_cons, ← List.map_cons]
          simp only [List.mem_append, not_or]
          exact ⟨⟨h.1, hsep⟩, ih h.2⟩

theorem newline_mem_flatMap {f : Char → List Char} (h : ∀ c, '\n' ∈ f c ↔ c = '\n')
    (cs : List Char) : '\n' ∈ cs.flatMap f ↔ '\n' ∈ cs := by
  simp [List.mem_flatMap, h]

theorem newline_mem_replaced {k : Char} {r : List Char} (hk : k ≠ '\n') (hr : '\n' ∉ r)
    (cs : List Char) : '\n' ∈ cs.flatMap (fun c => if c = k then r else [c]) ↔ '\n' ∈ cs := by
  refine newline_mem_flatMap (fun c => ?_) cs
  split
  · rename_i hc
    simp [hc, hk, hr]
  · simp [eq_comm]

namespace Program

theorem count_newline_lines (ls : List String) :
    (lines ls).toList.count '\n' = ls.length + (ls.flatMap String.toList).count '\n' := by
  induction ls with
  | nil => rfl
  | cons l rest ih =>
      have hlines : (lines (l :: rest)).toList = l.toList ++ '\n' :: (lines rest).toList := by
        simp [lines, String.toList_join]
      rw [hlines, List.count_append, List.count_cons_self, ih, List.length_cons, List.flatMap_cons,
        List.count_append]
      omega

theorem count_newline_lines_iff (ls : List String) :
    (lines ls).toList.count '\n' = ls.length ↔ ∀ l ∈ ls, IsLine l := by
  rw [count_newline_lines]
  simp [List.count_eq_zero, IsLine]

end Program

theorem Color.isLine_wire (c : Color) : IsLine c.wire := fun hmem =>
  absurd (c.isBlank_wire '\n' hmem) (by decide)

namespace Expr

mutual

def texts : Expr → List String
  | .literal s => [s]
  | .text s => [s]
  | .color _ _ => []
  | .attrs s => [s]
  | .reset => []
  | .cond _ yes no => texts yes ++ texts no
  | .concat parts => textsAll parts

def textsAll : List Expr → List String
  | [] => []
  | e :: rest => texts e ++ textsAll rest

end

theorem textsAll_append (a b : List Expr) : textsAll (a ++ b) = textsAll a ++ textsAll b := by
  induction a with
  | nil => rfl
  | cons e rest ih => simp [textsAll, ih]

theorem newline_mem_escape (inBranch : Bool) (cs : List Char) :
    '\n' ∈ escape inBranch cs ↔ '\n' ∈ cs := by
  refine newline_mem_flatMap (fun c => ?_) cs
  unfold escapeChar
  split
  · rename_i hc
    simp [hc]
  · split <;> simp [eq_comm]

theorem newline_mem_token (inBranch : Bool) (body : List Char) :
    '\n' ∈ token inBranch body ↔ '\n' ∈ body := by
  have hescaped : '\n' ∈ body.flatMap (fun c => if c = ',' then ['#', ','] else [c]) ↔
      '\n' ∈ body := newline_mem_replaced (by decide) (by decide) body
  cases inBranch <;> simp [token, hescaped]

theorem isLine_of_mem_colorWords (fg bg : Option Color) : ∀ w ∈ colorWords fg bg, IsLine w := by
  simp only [colorWords, List.mem_append, Option.mem_toList, Option.map_eq_some_iff]
  rintro w (⟨c, -, rfl⟩ | ⟨c, -, rfl⟩)
  · exact isLine_append.mpr ⟨by decide, c.isLine_wire⟩
  · exact isLine_append.mpr ⟨by decide, c.isLine_wire⟩

theorem newline_not_mem_colorToken (inBranch : Bool) (fg bg : Option Color) :
    '\n' ∉ colorToken inBranch fg bg := by
  unfold colorToken
  split
  · exact List.not_mem_nil
  · rw [newline_mem_token]
    exact isLine_intercalate (by decide) (isLine_of_mem_colorWords fg bg)

mutual

theorem newline_not_mem_write (inBranch : Bool) :
    ∀ e : Expr, '\n' ∉ e.write inBranch ↔ ∀ t ∈ e.texts, IsLine t
  | .literal s => by simp [write_literal, texts, IsLine]
  | .text s => by simp [write_text, texts, newline_mem_escape, IsLine]
  | .color fg bg => by simp [write_color, texts, newline_not_mem_colorToken]
  | .attrs s => by
      rw [write_attrs]
      split
      · rename_i hempty
        simp [texts, String.isEmpty_iff.mp hempty, IsLine]
      · simp [texts, newline_mem_token, IsLine]
  | .reset => by simp [write_reset, texts]
  | .cond test yes no => by
      have htoken : '\n' ∉ test.token.toList := by cases test <;> decide
      rw [texts, List.forall_mem_append, ← newline_not_mem_write true yes,
        ← newline_not_mem_write true no]
      simp [write_cond, htoken]
  | .concat parts => by
      rw [write_concat, texts]
      exact newline_not_mem_writeAll inBranch parts

theorem newline_not_mem_writeAll (inBranch : Bool) :
    ∀ es : List Expr, '\n' ∉ writeAll inBranch es ↔ ∀ t ∈ textsAll es, IsLine t
  | [] => by simp [writeAll, textsAll]
  | e :: rest => by
      rw [textsAll, List.forall_mem_append, ← newline_not_mem_write inBranch e,
        ← newline_not_mem_writeAll inBranch rest]
      simp [writeAll]

end

theorem isLine_render (e : Expr) : IsLine e.render ↔ ∀ t ∈ e.texts, IsLine t := by
  rw [render, isLine_ofList, newline_not_mem_write]

end Expr

theorem isLine_escapeText (s : String) : IsLine (escapeText s) ↔ IsLine s := by
  rw [escapeText, isLine_ofList, Expr.newline_mem_escape, IsLine]

namespace Style

theorem isLine_of_mem_attrWords (style : Style) : ∀ w ∈ style.attrWords, IsLine w := by
  have hname : ∀ a : Attribute, IsLine a.name := fun a => by cases a <;> decide
  simp only [attrWords, List.mem_append, List.mem_map]
  rintro w (⟨a, -, rfl⟩ | ⟨a, -, rfl⟩)
  · exact hname a
  · exact isLine_append.mpr ⟨by decide, hname a⟩

theorem isLine_attrText (style : Style) : IsLine style.attrText :=
  isLine_intercalate (by decide) style.isLine_of_mem_attrWords

theorem isLine_text (style : Style) : IsLine style.text :=
  isLine_intercalate (by decide) (List.forall_mem_append.mpr
    ⟨Expr.isLine_of_mem_colorWords style.fg style.bg, style.isLine_of_mem_attrWords⟩)

end Style

def Fragment.source? : Fragment → Option String
  | .text s => some s
  | .variable _ => none
  | .format s => some s

def providedSources (registry : Registry) (args : Keyed Arguments) (name : String) : List String :=
  match registry.lookup name with
  | some provider =>
      match provider ((args.find? name).getD []) with
      | .ok output => output.filterMap Fragment.source?
      | .error e => [e.message]
  | none => if isQualified name then [name] else []

namespace Segment

def sources (s : Segment) (registry : Registry) (args : Keyed Arguments) : List String :=
  match s.content with
  | .literal text => [text]
  | .provider name => providedSources registry args name

end Segment

theorem Variable.isLine_token (v : Variable) : IsLine v.token := by
  have hbyte : String.utf8EncodeChar '\n' = [10] := rfl
  have hname : IsLine v.name := v.not_mem_name hbyte rfl
  exact isLine_append.mpr ⟨isLine_append.mpr ⟨by decide, hname⟩, by decide⟩

theorem Fragment.newline_not_mem_write :
    ∀ f : Fragment, '\n' ∉ f.write ↔ ∀ t ∈ f.source?, IsLine t
  | .text s => by simp [write, source?, Expr.newline_mem_escape, IsLine]
  | .variable v => by simpa [write, source?, IsLine] using v.isLine_token
  | .format s => by simp [write, source?, IsLine]

theorem Output.isLine_format (o : Output) :
    IsLine (Output.format o) ↔ ∀ t ∈ o.filterMap Fragment.source?, IsLine t := by
  have hwrite : '\n' ∉ o.flatMap Fragment.write ↔ ∀ f ∈ o, '\n' ∉ f.write := by simp
  rw [Output.format, isLine_ofList, hwrite]
  simp only [Fragment.newline_not_mem_write, List.mem_filterMap, forall_exists_index, and_imp]
  exact ⟨fun h t f hf ht => h f hf t ht, fun h f hf t ht => h t f hf ht⟩

theorem isLine_provided (registry : Registry) (args : Keyed Arguments) (name : String) :
    IsLine (provided registry args name) ↔ ∀ t ∈ providedSources registry args name, IsLine t := by
  unfold provided providedSources
  cases registry.lookup name with
  | some provider =>
      dsimp only
      cases provider ((args.find? name).getD []) with
      | ok output => exact Output.isLine_format output
      | error e => rw [isLine_escapeText, List.forall_mem_singleton]
  | none =>
      dsimp only
      split
      · have hprefix : IsLine "unknown provider " := by decide
        have hmessage : (ProviderError.unknown name).message = "unknown provider " ++ name := rfl
        rw [isLine_escapeText, hmessage, isLine_append, List.forall_mem_singleton,
          and_iff_right hprefix]
      · exact iff_of_true (by decide) (by simp)

theorem isLine_padded (body : String) : IsLine (padded body) ↔ IsLine body := by
  have hspace : IsLine " " := by decide
  simp [padded, isLine_append, hspace]

namespace Segment

theorem isLine_attrText (s : Segment) : IsLine s.attrText := by
  cases hstyle : s.style with
  | none => simp [attrText, hstyle, IsLine]
  | some style => simpa [attrText, hstyle] using style.isLine_attrText

theorem isLine_attributed (s : Segment) (body : String) :
    IsLine (attributed s.attrText (padded body)) ↔ IsLine body := by
  unfold attributed
  split
  · exact isLine_padded body
  · rw [Expr.isLine_render]
    simp [Expr.texts, Expr.textsAll, s.isLine_attrText, isLine_padded]

theorem isLine_resolve (s : Segment) (registry : Registry) (args : Keyed Arguments) :
    IsLine (s.resolve registry args) ↔ ∀ t ∈ s.sources registry args, IsLine t := by
  unfold resolve body? sources
  cases s.content with
  | literal text => rw [s.isLine_attributed, List.forall_mem_singleton]
  | provider name =>
      rw [← isLine_provided]
      cases hempty : (provided registry args name).isEmpty with
      | true => simp [String.isEmpty_iff.mp hempty]
      | false => simpa [hempty] using s.isLine_attributed (provided registry args name)

end Segment

namespace Layout

def glyph (s : Segment) (next : Option Segment) (set last : SeparatorSet) (d : Direction) :
    String :=
  match s.separator with
  | some own => own
  | none =>
      match next with
      | none => last.thick d
      | some n => if s.bg.same n.bg then set.thin d else set.thick d

theorem texts_separator (s : Segment) (next : Option Segment) (set last : SeparatorSet)
    (d : Direction) : (separator s next set last d).texts = [glyph s next set last d] := by
  unfold separator glyph
  cases s.separator with
  | some own => rfl
  | none =>
      cases next with
      | none => rfl
      | some n =>
          dsimp only
          split <;> rfl

theorem texts_body (s : Segment) (content : String) :
    Expr.textsAll (body s content) = [content] := rfl

/-- The segments that a window of a kind may face. -/
def neighbours (w : WindowList) : WindowKind → List (Option Segment)
  | .active => [none, some w.inactive]
  | .inactive => [none, some w.active, some w.inactive]

theorem texts_windowSeparator (w : WindowList) (kind : WindowKind) (set last : SeparatorSet)
    (side : Side) (edge beside : Predicate) :
    (windowSeparator w kind set last side edge beside).texts =
      (neighbours w kind).map fun next =>
        glyph (w.segment kind) next set last (direction side) := by
  cases kind <;> simp [windowSeparator, Expr.texts, texts_separator, neighbours, WindowList.segment]

theorem forall_texts_flatten {xs : List Stretch} {f : Nat → Stretch → List Expr}
    {g : Nat → Stretch → String} {p : String → Prop}
    (h : ∀ i x, (∀ t ∈ Expr.textsAll (f i x), p t) ↔
      (∀ t ∈ Expr.textsAll x.body, p t) ∧ p (g i x)) :
    (∀ t ∈ Expr.textsAll (xs.mapIdx f).flatten, p t) ↔
      (∀ x ∈ xs, ∀ t ∈ Expr.textsAll x.body, p t) ∧ ∀ t ∈ xs.mapIdx g, p t := by
  induction xs generalizing f g with
  | nil => simp [Expr.textsAll]
  | cons x xs ih =>
      have hrest := ih fun i y => h (i + 1) y
      simp only [List.mapIdx_cons, List.flatten_cons, Expr.textsAll_append, List.forall_mem_append,
        List.forall_mem_cons, h 0 x, hrest]
      exact and_and_and_comm

end Layout

namespace Statusbar

open Layout

variable (b : Statusbar) (registry : Registry)

def sideGlyphs (side : Side) (active : Bool) : List String :=
  let row := (b.shown registry side).map Shown.segment
  let glyph s next := glyph s next b.separator (b.endSeparator side) (direction side)
  match side with
  | .left => row.mapIdx fun i s => glyph s (row[i + 1]?.or (b.boundary side active))
  | .right => row.mapIdx fun i s => glyph s (if i = 0 then b.boundary side active else row[i - 1]?)

def sideSources (side : Side) (active : Bool) : List String :=
  ((b.side side).segments.flatMap fun s => s.sources registry b.arguments) ++
    b.sideGlyphs registry side active

def windowGlyphs (kind : WindowKind) : List String :=
  let glyphs side := (neighbours b.windows kind).map fun next =>
    glyph (b.windows.segment kind) next b.separator (b.endSeparator side) (direction side)
  match b.windows.alignment with
  | .left => glyphs .left
  | .right => glyphs .right
  | _ => []

def windowSources (kind : WindowKind) : List String :=
  (b.windows.segment kind).sources registry b.arguments ++ b.windowGlyphs kind

theorem isLine_shown (side : Side) :
    (∀ x ∈ b.shown registry side, IsLine x.content) ↔
      ∀ t ∈ (b.side side).segments.flatMap fun s => s.sources registry b.arguments, IsLine t := by
  have hsegments : (∀ t ∈ (b.side side).segments.flatMap fun s => s.sources registry b.arguments,
      IsLine t) ↔ ∀ s ∈ (b.side side).segments, IsLine (b.resolve registry s) := by
    simp only [List.mem_flatMap, forall_exists_index, and_imp, resolve, Segment.isLine_resolve]
    exact ⟨fun h s hs t ht => h t s hs ht, fun h t s hs ht => h s hs t ht⟩
  rw [hsegments]
  simp only [shown, List.mem_filterMap, forall_exists_index, and_imp]
  constructor
  · intro h s hs
    by_cases hempty : (b.resolve registry s).isEmpty = true
    · rw [String.isEmpty_iff.mp hempty]
      decide
    · exact h ⟨s, b.resolve registry s⟩ s hs (by simp [hempty])
  · intro h x s hs hx
    split at hx
    · cases hx
    · cases hx
      exact h s hs

theorem isLine_sideText (side : Side) (active : Bool) :
    IsLine (b.sideText registry side active) ↔
      ∀ t ∈ b.sideSources registry side active, IsLine t := by
  have hrow : (b.shown registry side).map Shown.segment =
      ((b.shown registry side).map Shown.stretch).map Stretch.segment := by
    simp [Function.comp_def, Shown.stretch]
  have hbodies : (∀ x ∈ (b.shown registry side).map Shown.stretch,
      ∀ t ∈ Expr.textsAll x.body, IsLine t) ↔ ∀ x ∈ b.shown registry side, IsLine x.content := by
    simp [Shown.stretch, texts_body]
  rw [sideText, Expr.isLine_render, sideExpr, Expr.texts, sideSources, List.forall_mem_append,
    ← isLine_shown, ← hbodies]
  cases side with
  | left =>
      simp only [sideParts, sideGlyphs, leftParts_eq_flatten, hrow, Stretch.mapIdx_map_segment,
        List.getElem?_map]
      refine forall_texts_flatten fun i x => ?_
      rw [Expr.textsAll_append, List.forall_mem_append, Expr.textsAll, Expr.textsAll,
        texts_separator, List.append_nil, List.forall_mem_singleton]
      rfl
  | right =>
      simp only [sideParts, sideGlyphs, rightParts_eq_flatten, hrow, Stretch.mapIdx_map_segment,
        List.getElem?_map]
      refine forall_texts_flatten fun i x => ?_
      rw [Expr.textsAll, texts_separator, List.forall_mem_append, List.forall_mem_singleton]
      exact and_comm

theorem isLine_windowText (kind : WindowKind) :
    IsLine (b.windowText registry kind) ↔ ∀ t ∈ b.windowSources registry kind, IsLine t := by
  rw [windowText, Expr.isLine_render, windowSources, List.forall_mem_append,
    ← Segment.isLine_resolve, ← resolve]
  generalize b.resolve registry (b.windows.segment kind) = content
  cases halign : b.windows.alignment with
  | left =>
      have htexts : (windowExpr b kind content).texts = content :: b.windowGlyphs kind := by
        simp [windowExpr, windowGlyphs, halign, Expr.texts, Expr.textsAll, Expr.colors, texts_body,
          texts_windowSeparator]
      rw [htexts, List.forall_mem_cons]
  | right =>
      have htexts : (windowExpr b kind content).texts = b.windowGlyphs kind ++ [content] := by
        simp [windowExpr, windowGlyphs, halign, Expr.texts, Expr.textsAll, texts_body,
          texts_windowSeparator]
      rw [htexts, List.forall_mem_append, List.forall_mem_singleton]
      exact and_comm
  | center | absoluteCenter =>
      have hspace : IsLine " " := by decide
      have hglyphs : b.windowGlyphs kind = [] := by simp [windowGlyphs, halign]
      have htexts : (windowExpr b kind content).texts =
          content :: Expr.textsAll (spacer b.windows kind) := by
        simp [windowExpr, halign, Expr.texts, Expr.textsAll, texts_body]
      have hspacer : ∀ t ∈ Expr.textsAll (spacer b.windows kind), IsLine t := by
        cases kind <;> simp [spacer, Expr.texts, Expr.textsAll, Expr.empty, Expr.colors, hspace]
      rw [htexts, hglyphs, List.forall_mem_cons]
      exact and_congr_right fun _ => iff_of_true hspacer (by simp)

end Statusbar

namespace Host

theorem newline_mem_quotedChars (cs : List Char) : '\n' ∈ quotedChars cs ↔ '\n' ∈ cs := by
  refine newline_mem_flatMap (fun c => ?_) cs
  split <;> simp [eq_comm]

theorem isLine_quoted (s : String) : IsLine (quoted s) ↔ IsLine s := by
  rw [quoted, isLine_ofList]
  simp [newline_mem_quotedChars, IsLine]

theorem IsBareWord.isLine {s : String} (h : IsBareWord s) : IsLine s := fun hmem =>
  absurd (List.all_eq_true.mp h.2 '\n' hmem) (by decide)

theorem Command.IsSafe.isLine_line {k : Command} (h : k.IsSafe) :
    IsLine k.line ↔ IsLine k.value.content := by
  have hwritten : IsLine k.value.written ↔ IsLine k.value.content := by
    cases k.value with
    | word s => rfl
    | text s => exact isLine_quoted s
  have hbegin : IsLine "tmux set -g " := by decide
  have hspace : IsLine " " := by decide
  simp [Command.line, isLine_append, hbegin, hspace, h.option.isLine, hwritten]

theorem newline_mem_singleQuoted (cs : List Char) : '\n' ∈ singleQuoted cs ↔ '\n' ∈ cs := by
  have hescaped : '\n' ∈ cs.flatMap
      (fun c => if c = '\'' then ['\'', '\\', '\'', '\''] else [c]) ↔ '\n' ∈ cs :=
    newline_mem_replaced (by decide) (by decide) cs
  simp [singleQuoted, hescaped]

theorem isLine_callbackWord (s : String) : IsLine (callbackWord s) ↔ IsLine s := by
  have hdoubled (cs : List Char) : '\n' ∈ doubled cs ↔ '\n' ∈ cs :=
    newline_mem_replaced (by decide) (by decide) cs
  have hword : '\n' ∈ shellWord s.toList ↔ '\n' ∈ s.toList := by
    unfold shellWord
    split
    · rfl
    · exact newline_mem_singleQuoted _
  rw [callbackWord, isLine_ofList, hdoubled, hword, IsLine]

theorem isLine_callback (program : String) (snapshot : Option String) :
    IsLine (callback program snapshot) ↔ ∀ t ∈ program :: snapshot.toList, IsLine t := by
  have hoption : IsLine " --snapshot " := by decide
  cases snapshot with
  | none => simp [callback, isLine_callbackWord]
  | some path => simp [callback, isLine_append, isLine_callbackWord, hoption]

theorem isLine_switch (on : Bool) : IsLine (switch on).content := by
  cases on <;> decide

theorem isLine_number (n : UInt32) : IsLine (number n).content := (isBareWord_number _).isLine

theorem isLine_sideStyle (style : Option Style) : IsLine (sideStyle style).content := by
  cases style with
  | none => decide
  | some s =>
      unfold sideStyle Value.content
      dsimp only
      split
      · decide
      · exact s.isLine_text

theorem isLine_job (program : String) {arguments : String} (h : IsLine arguments) :
    IsLine (job program arguments).content ↔ IsLine program := by
  have hopen : IsLine "#(" := by decide
  have hspace : IsLine " " := by decide
  have hclose : IsLine ")" := by decide
  simp [job, Value.content, isLine_append, hopen, hspace, hclose, h]

theorem isLine_statusbarCommands (b : Statusbar) (program : String) :
    (∀ k ∈ statusbarCommands b program, IsLine k.value.content) ↔ IsLine program := by
  have hword : IsLine b.windows.alignment.word := (isBareWord_alignment _).isLine
  have hstyle : IsLine (Value.text b.statusStyle.text).content := b.statusStyle.isLine_text
  have hempty : IsLine (Value.text "").content := by decide
  simp only [statusbarCommands, List.forall_mem_cons]
  constructor
  · exact fun h => (isLine_job program (by decide)).mp h.2.1
  · intro h
    have hjob {arguments : String} (harguments : IsLine arguments) :=
      (isLine_job program harguments).mpr h
    exact ⟨hword, hjob (by decide), hjob (by decide), hempty, isLine_switch _, isLine_number _,
      hstyle, isLine_number _, isLine_number _, hjob (by decide), isLine_sideStyle _,
      hjob (by decide), isLine_sideStyle _, fun _ hk => absurd hk List.not_mem_nil⟩

theorem isLine_optionCommands (o : Options) :
    (∀ k ∈ optionCommands o, IsLine k.value.content) ↔
      IsLine o.renameFormat ∧ IsLine o.borderContent := by
  have hborder : IsLine o.border.name := by cases o.border <;> decide
  have hborderLine : IsLine o.borderLine.name := by cases o.borderLine <;> decide
  have hcontent : IsLine (" " ++ o.borderContent ++ " ") ↔ IsLine o.borderContent :=
    isLine_padded o.borderContent
  simp only [optionCommands, List.forall_mem_cons]
  constructor
  · rintro ⟨-, -, hformat, -, -, hpadded, -⟩
    exact ⟨hformat, hcontent.mp hpadded⟩
  · rintro ⟨hformat, hpadded⟩
    exact ⟨isLine_switch _, isLine_switch _, hformat, hborder, hborderLine, hcontent.mpr hpadded,
      by decide, fun _ hk => absurd hk List.not_mem_nil⟩

theorem isLine_commands (c : Config) (program : String) :
    (∀ k ∈ commands c program, IsLine k.line) ↔
      ∀ t ∈ [program, c.options.renameFormat, c.options.borderContent], IsLine t := by
  have hlines : (∀ k ∈ commands c program, IsLine k.line) ↔
      ∀ k ∈ commands c program, IsLine k.value.content :=
    forall₂_congr fun k hk => (isSafe_of_mem_commands hk).isLine_line
  rw [hlines, commands, List.forall_mem_append, isLine_statusbarCommands, isLine_optionCommands]
  simp

end Host

namespace Program

/-- A side, a window and a command are lines just when the texts of the configuration, of the
providers and of the command line that they are made of are; and an output has one end of line for
each thing that it prints just when all of them are lines. -/
theorem printed_lines_iff (c : Config) (registry : Registry) (program : String)
    (snapshot : Option String) :
    (∀ side active, IsLine (c.statusbar.sideText registry side active) ↔
      ∀ t ∈ c.statusbar.sideSources registry side active, IsLine t) ∧
    (∀ kind, IsLine (c.statusbar.windowText registry kind) ↔
      ∀ t ∈ c.statusbar.windowSources registry kind, IsLine t) ∧
    ((∀ k ∈ Host.commands c (Host.callback program snapshot), IsLine k.line) ↔
      ∀ t ∈ program :: snapshot.toList ++ [c.options.renameFormat, c.options.borderContent],
        IsLine t) ∧
    ∀ ls, (Outcome.printed ls).output.toList.count '\n' = ls.length ↔ ∀ l ∈ ls, IsLine l := by
  refine ⟨c.statusbar.isLine_sideText registry, c.statusbar.isLine_windowText registry, ?_,
    count_newline_lines_iff⟩
  rw [Host.isLine_commands, List.forall_mem_append, List.forall_mem_cons, Host.isLine_callback]

theorem printed_lines_broken :
    let options := "options.auto_rename_format=\"x\\ny\"\n"
    let windows := "[statusbar.window_list]\nactive.text=\"a\\nb\"\ninactive.text=\"c\""
    ∃ c, Config.decoder.ofToml (options ++ windows) = .ok c ∧
      (Outcome.printed [c.statusbar.windowText [] .active]).output.toList.count '\n' ≠ 1 ∧
      ∃ k ∈ Host.commands c "p", ¬ IsLine k.line := by
  let windows : WindowList := .new (.literal "a\nb") (.literal "c")
  let c : Config := ⟨.new [] [] windows, { Options.default with renameFormat := "x\ny" }⟩
  let k : Host.Command := ⟨"automatic-rename-format", .text "x\ny"⟩
  refine ⟨c, by decide +kernel, fun hcount => ?_, k, List.mem_of_getElem? (i := 15) rfl, by decide⟩
  have hline := (count_newline_lines_iff _).mp hcount _ List.mem_cons_self
  have hsources := (c.statusbar.isLine_windowText [] .active).mp hline
  exact absurd (hsources "a\nb" List.mem_cons_self) (by decide)

end Program

end StatusLine
