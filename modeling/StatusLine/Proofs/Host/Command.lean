import StatusLine.Host.Command
import StatusLine.Proofs.Host.Shell
import StatusLine.Proofs.Number.Decimal

namespace StatusLine.Host

def IsBareWord (s : String) : Prop := s.toList ≠ [] ∧ s.toList.all isPlain = true

instance (s : String) : Decidable (IsBareWord s) := inferInstanceAs (Decidable (_ ∧ _))

def Value.IsSafe : Value → Prop
  | .word s => IsBareWord s
  | .text _ => True

structure Command.IsSafe (k : Command) : Prop where
  option : IsBareWord k.option
  value : k.value.IsSafe

theorem IsBareWord.spells {s : String} (h : IsBareWord s) : Spells s.toList s.toList :=
  spells_plain h.1 h.2

theorem Value.IsSafe.spells {v : Value} (h : v.IsSafe) :
    Spells v.written.toList v.content.toList := by
  cases v with
  | word s => exact IsBareWord.spells h
  | text s => exact spells_quoted s

theorem Command.IsSafe.words {k : Command} (h : k.IsSafe) :
    Shell.words k.line.toList = some ["tmux", "set", "-g", k.option, k.value.content] := by
  let texts := ["tmux".toList, "set".toList, "-g".toList].map fun w => (w, w)
  let spelled := texts ++
    [(k.option.toList, k.option.toList), (k.value.written.toList, k.value.content.toList)]
  have hline : k.line.toList = [' '].intercalate (spelled.map Prod.fst) := by
    simp [spelled, texts, Command.line, List.intercalate_cons_cons]
  have hspelled : ∀ x ∈ spelled, Spells x.1 x.2 := by
    simp only [spelled, texts, List.map_cons, List.map_nil, List.cons_append, List.nil_append,
      List.forall_mem_cons]
    refine ⟨?_, ?_, ?_, h.option.spells, h.value.spells, fun _ hx => absurd hx List.not_mem_nil⟩
    all_goals exact spells_plain (by decide) (by decide)
  rw [hline, words_spelled hspelled]
  simp [spelled, texts]

theorem isPlain_of_isDigit {c : Char} (h : Integer.isDigit c = true) : isPlain c = true := by
  have hdigit : ('0' ≤ c && c ≤ '9') = true := h
  simp [isPlain, hdigit]

theorem isBareWord_number (n : Nat) : IsBareWord (Integer.text n) := by
  rw [IsBareWord, Integer.toList_text]
  refine ⟨?_, ?_⟩
  · obtain ⟨d, ds, heq, -⟩ := Integer.toDigits_eq_cons n
    simp [heq]
  · rw [List.all_eq_true]
    exact fun c hc => isPlain_of_isDigit (Integer.isDigit_of_mem_toDigits hc)

theorem isSafe_switch (on : Bool) : (switch on).IsSafe := by
  cases on <;> exact ⟨by decide, by decide⟩

theorem isBareWord_alignment (a : Alignment) : IsBareWord a.word := by
  cases a <;> exact ⟨by decide, by decide⟩

theorem isSafe_sideStyle (s : Option Style) : (sideStyle s).IsSafe := by
  cases s <;> exact trivial

theorem isSafe_of_mem_commands {c : Config} {program : String} {k : Command}
    (h : k ∈ commands c program) : k.IsSafe := by
  have hstatusbar : ∀ k ∈ statusbarCommands c.statusbar program, k.IsSafe := by
    simp only [statusbarCommands, List.forall_mem_cons]
    refine ⟨⟨?_, isBareWord_alignment _⟩, ⟨?_, trivial⟩, ⟨?_, trivial⟩, ⟨?_, trivial⟩,
      ⟨?_, isSafe_switch _⟩, ⟨?_, isBareWord_number _⟩, ⟨?_, trivial⟩,
      ⟨?_, isBareWord_number _⟩, ⟨?_, isBareWord_number _⟩, ⟨?_, trivial⟩,
      ⟨?_, isSafe_sideStyle _⟩, ⟨?_, trivial⟩, ⟨?_, isSafe_sideStyle _⟩,
      fun _ hk => absurd hk List.not_mem_nil⟩
    all_goals
      dsimp only
      decide
  have hoptions : ∀ k ∈ optionCommands c.options, k.IsSafe := by
    simp only [optionCommands, List.forall_mem_cons]
    refine ⟨⟨?_, isSafe_switch _⟩, ⟨?_, isSafe_switch _⟩, ⟨?_, trivial⟩, ⟨?_, trivial⟩,
      ⟨?_, trivial⟩, ⟨?_, trivial⟩, ⟨?_, trivial⟩, fun _ hk => absurd hk List.not_mem_nil⟩
    all_goals
      dsimp only
      decide
  rw [commands, List.mem_append] at h
  exact h.elim (hstatusbar k) (hoptions k)

/-- The options that a configuration sets, in order, each with its value as plain text. -/
def settings (c : Config) (program : String) : List (String × String) :=
  let b := c.statusbar
  let o := c.options
  let onOff (on : Bool) := if on then "on" else "off"
  let run (arguments : String) := "#(" ++ program ++ " " ++ arguments ++ ")"
  let style (side : SideConfig) :=
    match side.style with
    | some s => if s.isEmpty then "default" else s.text
    | none => "default"
  [("status-justify", b.windows.alignment.word),
    ("window-status-current-format", run "window active"),
    ("window-status-format", run "window inactive"),
    ("window-status-separator", ""),
    ("status", onOff b.visible),
    ("status-interval", Integer.text b.interval.toNat),
    ("status-style", b.statusStyle.text),
    ("status-left-length", Integer.text b.leftLength.toNat),
    ("status-right-length", Integer.text b.rightLength.toNat),
    ("status-left", run "left #\x7bwindow_start_flag\x7d"),
    ("status-left-style", style b.left),
    ("status-right", run "right #\x7bwindow_end_flag\x7d"),
    ("status-right-style", style b.right),
    ("automatic-rename", onOff o.renameWindows),
    ("renumber-windows", onOff o.renumberWindows),
    ("automatic-rename-format", o.renameFormat),
    ("pane-border-status", o.border.name),
    ("pane-border-lines", o.borderLine.name),
    ("pane-border-format", " " ++ o.borderContent ++ " "),
    ("default-terminal", "screen-256color")]

theorem content_sideStyle (s : Option Style) :
    (sideStyle s).content =
      match s with
      | some s => if s.isEmpty then "default" else s.text
      | none => "default" := by
  cases s <;> rfl

theorem contents_commands (c : Config) (program : String) :
    (commands c program).map (fun k => (k.option, k.value.content)) = settings c program := by
  simp only [commands, statusbarCommands, optionCommands, List.cons_append, List.nil_append,
    List.map_cons, List.map_nil, content_sideStyle]
  rfl

/-- The shell splits every line into a program, its three arguments and one value, and hands the
value on as it is meant. -/
theorem words_commands (c : Config) (program : String) :
    (commands c program).map (fun k => Shell.words k.line.toList) =
      (settings c program).map fun s => some ["tmux", "set", "-g", s.1, s.2] := by
  rw [← contents_commands, List.map_map]
  exact List.map_congr_left fun k hk => (isSafe_of_mem_commands hk).words

end StatusLine.Host
