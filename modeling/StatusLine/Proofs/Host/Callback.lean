import Mathlib.Data.List.Basic
import StatusLine.Format.Expr
import StatusLine.Host.Command
import StatusLine.Proofs.Host.Shell
import StatusLine.Text.Trim

/-!
The commands that have the host run the program again: the host expands them as format strings and
hands them to the shell, which calls the program with the words that they were made from.
-/

namespace StatusLine.Host

def flagText (on : Bool) : String := if on then "1" else "0"

def flag? (first last : Bool) (cs : List Char) : Option (List Char × List Char) :=
  match Text.after? Predicate.isFirst.token.toList cs with
  | some rest => some ((flagText first).toList, rest)
  | none => (Text.after? Predicate.isLast.token.toList cs).map fun rest =>
      ((flagText last).toList, rest)

theorem eq_append_of_flag? {first last : Bool} {cs : List Char} {r : List Char × List Char}
    (h : flag? first last cs = some r) : ∃ name, cs = '#' :: '{' :: (name ++ r.2) := by
  unfold flag? at h
  split at h
  · rename_i rest hrest
    cases h
    exact ⟨_, (List.append_eq_of_isPrefixOf?_eq_some hrest).symm⟩
  · obtain ⟨rest, hrest, rfl⟩ := Option.map_eq_some_iff.mp h
    exact ⟨_, (List.append_eq_of_isPrefixOf?_eq_some hrest).symm⟩

def expand (first last : Bool) : List Char → List Char
  | [] => []
  | '#' :: '#' :: cs => '#' :: expand first last cs
  | c :: cs =>
      match _h : flag? first last (c :: cs) with
      | some r => r.1 ++ expand first last r.2
      | none => c :: expand first last cs
termination_by cs => cs.length
decreasing_by
  · simp only [List.length_cons]; omega
  · obtain ⟨name, heq⟩ := eq_append_of_flag? _h
    simp only [heq, List.length_cons, List.length_append]
    omega
  · simp

variable (first last : Bool)

theorem expand_cons {c : Char} (h : c ≠ '#') (cs : List Char) :
    expand first last (c :: cs) = c :: expand first last cs := by
  have hflag : flag? first last (c :: cs) = none := by
    simp [flag?, Predicate.token, Text.after?, List.isPrefixOf?, Ne.symm h]
  rw [expand]
  · split
    · rename_i heq
      cases hflag.symm.trans heq
    · rfl
  · rintro rest rfl
    exact absurd rfl h

theorem expand_doubled (cs rest : List Char) :
    expand first last (doubled cs ++ rest) = cs ++ expand first last rest := by
  induction cs with
  | nil => rfl
  | cons c cs ih =>
      by_cases hc : c = '#'
      · subst hc
        have hstep : doubled ('#' :: cs) = '#' :: '#' :: doubled cs := rfl
        rw [hstep, List.cons_append, List.cons_append, expand, ih]
        rfl
      · have hstep : doubled (c :: cs) = c :: doubled cs := by simp [doubled, hc]
        rw [hstep, List.cons_append, expand_cons first last hc, ih]
        rfl

theorem expand_flag {cs text : List Char} (h : flag? first last cs = some (text, [])) :
    expand first last cs = text := by
  obtain ⟨name, rfl⟩ := eq_append_of_flag? h
  rw [expand]
  · split
    · rename_i heq
      cases h.symm.trans heq
      rw [expand, List.append_nil]
    · rename_i heq
      cases h.symm.trans heq
  · rintro rest - ⟨⟩

theorem expand_of_doubled {cs : List Char} (h : doubled cs = cs) :
    expand first last cs = cs := by
  have hexpand := expand_doubled first last cs []
  rwa [h, expand, List.append_nil] at hexpand

theorem expand_word_flag {word flag text : List Char} (hword : doubled word = word)
    (h : flag? first last flag = some (text, [])) :
    expand first last (word ++ flag) = word ++ text := by
  have hexpand := expand_doubled first last word flag
  rwa [hword, expand_flag first last h] at hexpand

def inner? (cs : List Char) : Option (List Char) :=
  (Text.after? ['#', '('] cs).bind fun cs =>
    if cs.getLast? = some ')' then some cs.dropLast else none

def jobWords (value : String) : Option (List String) :=
  (inner? value.toList).bind fun cs => Shell.words (expand first last cs)

def callbackWords (program : String) (snapshot : Option String) : List String :=
  program :: match snapshot with
    | some path => ["--snapshot", path]
    | none => []

theorem doubled_append (a b : List Char) : doubled (a ++ b) = doubled a ++ doubled b :=
  List.flatMap_append

theorem toList_callback (program : String) (snapshot : Option String) :
    (callback program snapshot).toList =
      doubled (commandLine ((callbackWords program snapshot).map String.toList)) := by
  cases snapshot with
  | none => simp [callback, callbackWords, callbackWord, commandLine]
  | some path =>
      have hoption : " --snapshot ".toList =
          doubled [' '] ++ doubled (shellWord "--snapshot".toList) ++ doubled [' '] := by decide
      simp only [callback, callbackWord, String.toList_append, String.toList_ofList, hoption,
        callbackWords, commandLine, List.map_cons, List.map_nil, List.intercalate_cons_cons,
        List.intercalate_singleton, doubled_append, List.append_assoc]

theorem inner?_job (callback arguments : String) :
    inner? (job callback arguments).content.toList =
      some (callback.toList ++ ' ' :: arguments.toList) := by
  have hopen : (job callback arguments).content.toList =
      ['#', '('] ++ ((callback.toList ++ ' ' :: arguments.toList) ++ [')']) := by
    simp [job, Value.content]
  rw [inner?, hopen, Text.after?_append, Option.bind_some, List.getLast?_concat, if_pos rfl,
    List.dropLast_concat]

theorem jobWords_job (program : String) (snapshot : Option String) {arguments : String}
    {args : List String} (hne : args ≠ [])
    (h : expand first last arguments.toList = commandLine (args.map String.toList)) :
    jobWords first last (job (callback program snapshot) arguments).content =
      some (callbackWords program snapshot ++ args) := by
  have hexpand : expand first last ((callback program snapshot).toList ++ ' ' :: arguments.toList) =
      commandLine ((callbackWords program snapshot ++ args).map String.toList) := by
    rw [toList_callback, expand_doubled, expand_cons first last (by decide), h, List.map_append,
      commandLine_append (by simp [callbackWords]) (by simpa using hne)]
  rw [jobWords, inner?_job, Option.bind_some, hexpand, words_commandLine]
  simp

/-- The four options that run the program: the host and the shell between them leave of each just
the program, the path of the snapshot if one is given, and the command with its flag or kind. -/
theorem jobWords_statusbarCommands (b : Statusbar) (program : String) (snapshot : Option String) :
    let ran (option : String) : Option (List String) :=
      ((statusbarCommands b (callback program snapshot)).find? (·.option == option)).bind
        fun c => jobWords first last c.value.content
    ran "status-left" = some (callbackWords program snapshot ++ ["left", flagText first]) ∧
    ran "status-right" = some (callbackWords program snapshot ++ ["right", flagText last]) ∧
    ran "window-status-current-format" =
      some (callbackWords program snapshot ++ ["window", "active"]) ∧
    ran "window-status-format" =
      some (callbackWords program snapshot ++ ["window", "inactive"]) := by
  intro ran
  have hran {option arguments : String} {args : List String}
      (hfind : (statusbarCommands b (callback program snapshot)).find? (·.option == option) =
        some ⟨option, job (callback program snapshot) arguments⟩) (hne : args ≠ [])
      (h : expand first last arguments.toList = commandLine (args.map String.toList)) :
      ran option = some (callbackWords program snapshot ++ args) := by
    simp only [ran, hfind, Option.bind_some]
    exact jobWords_job first last program snapshot hne h
  refine ⟨?_, ?_, ?_, ?_⟩
  · have hexpand : expand first last ("left ".toList ++ Predicate.isFirst.token.toList) =
        "left ".toList ++ (flagText first).toList :=
      expand_word_flag first last (by decide) rfl
    exact hran rfl (by simp) (by cases first <;> exact hexpand)
  · have hexpand : expand first last ("right ".toList ++ Predicate.isLast.token.toList) =
        "right ".toList ++ (flagText last).toList :=
      expand_word_flag first last (by decide) rfl
    exact hran rfl (by simp) (by cases last <;> exact hexpand)
  · exact hran rfl (by simp) ((expand_of_doubled first last (by decide)).trans (by decide))
  · exact hran rfl (by simp) ((expand_of_doubled first last (by decide)).trans (by decide))

end StatusLine.Host
