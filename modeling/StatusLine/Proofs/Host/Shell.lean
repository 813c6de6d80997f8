import StatusLine.Host.Quoted

namespace StatusLine

namespace Shell

/-- What the shell is inside of. A backslash counts until the character behind it. -/
inductive Quoting where
  | bare
  | single
  | double
  | escaped
  | doubleEscaped
deriving DecidableEq, Repr

/-- The words that are complete, and the word that has begun. -/
structure State where
  words : List (List Char)
  word : Option (List Char)
  quoting : Quoting
deriving DecidableEq, Repr

/-- Characters that are no part of a plain word: operators, expansions, patterns, comments and the
end of the command. -/
def isActive (c : Char) : Bool := "|&;<>()$\x60*?[#~\n".toList.contains c

def isBlank (c : Char) : Bool := c = ' ' || c = '\t'

def isQuotable (c : Char) : Bool := c = '$' || c = '\x60' || c = '"' || c = '\\'

namespace State

def start : State := ⟨[], none, .bare⟩

def push (s : State) (c : Char) (quoting : Quoting) : State :=
  ⟨s.words, some (s.word.getD [] ++ [c]), quoting⟩

/-- Quotes begin a word, even an empty one. -/
def enter (s : State) (quoting : Quoting) : State := ⟨s.words, some (s.word.getD []), quoting⟩

def leave (s : State) : State := { s with quoting := .bare }

def endWord (s : State) : State := ⟨s.words ++ s.word.toList, none, .bare⟩

/-- Reads one character; none where the line is more than a list of words. -/
def step (s : State) (c : Char) : Option State :=
  match s.quoting with
  | .bare =>
      if isBlank c then some s.endWord
      else if c = '\'' then some (s.enter .single)
      else if c = '"' then some (s.enter .double)
      else if c = '\\' then some { s with quoting := .escaped }
      else if isActive c then none
      else some (s.push c .bare)
  | .escaped => if c = '\n' then some s.leave else some (s.push c .bare)
  | .single => if c = '\'' then some s.leave else some (s.push c .single)
  | .double =>
      if c = '"' then some s.leave
      else if c = '\\' then some { s with quoting := .doubleEscaped }
      else if c = '$' ∨ c = '\x60' then none
      else some (s.push c .double)
  | .doubleEscaped =>
      if isQuotable c then some (s.push c .double)
      else if c = '\n' then some { s with quoting := .double }
      else some ((s.push '\\' .double).push c .double)

def run (s : State) (cs : List Char) : Option State := cs.foldlM step s

theorem run_cons (s : State) (c : Char) (cs : List Char) :
    s.run (c :: cs) = (s.step c).bind (run · cs) :=
  List.foldlM_cons

theorem run_append (s : State) (a b : List Char) : s.run (a ++ b) = (s.run a).bind (run · b) :=
  List.foldlM_append

end State

/-- The words of a command line; none where it holds more than words or breaks off in quotes. -/
def words (cs : List Char) : Option (List String) :=
  match State.start.run cs with
  | some ⟨ws, w, .bare⟩ => some ((ws ++ w.toList).map String.ofList)
  | _ => none

end Shell

namespace Host

open Shell (State)

theorem not_mem_of_isPlain {c : Char} {cs : List Char} (h : isPlain c = true)
    (hcs : cs.all (fun d => !isPlain d) = true) : c ∉ cs := by
  intro hmem
  have hc := List.all_eq_true.mp hcs c hmem
  simp [h] at hc

theorem step_plain (s : State) {c : Char} (h : isPlain c = true) (hs : s.quoting = .bare) :
    s.step c = some (s.push c .bare) := by
  have hmarks : c ∉ [' ', '\t', '\'', '"', '\\'] := not_mem_of_isPlain h (by decide)
  have hactive : Shell.isActive c = false := by
    have hmem : c ∉ "|&;<>()$\x60*?[#~\n".toList := not_mem_of_isPlain h (by decide)
    simpa [Shell.isActive] using hmem
  simp only [List.mem_cons, List.not_mem_nil, or_false, not_or] at hmarks
  simp [State.step, hs, Shell.isBlank, hmarks, hactive]

theorem run_plain {cs : List Char} (h : cs.all isPlain = true) (ws : List (List Char))
    (w : List Char) :
    (State.mk ws (some w) .bare).run cs = some ⟨ws, some (w ++ cs), .bare⟩ := by
  induction cs generalizing w with
  | nil => simp [State.run]
  | cons c cs ih =>
      simp only [List.all_cons, Bool.and_eq_true] at h
      rw [State.run_cons, step_plain _ h.1 rfl]
      simpa [State.push] using ih h.2 (w ++ [c])

theorem run_single (cs : List Char) (ws : List (List Char)) (w : List Char) :
    (State.mk ws (some w) .single).run
        (cs.flatMap fun c => if c = '\'' then ['\'', '\\', '\'', '\''] else [c]) =
      some ⟨ws, some (w ++ cs), .single⟩ := by
  induction cs generalizing w with
  | nil => simp [State.run]
  | cons c cs ih =>
      have hc : (State.mk ws (some w) .single).run
          (if c = '\'' then ['\'', '\\', '\'', '\''] else [c]) =
          some ⟨ws, some (w ++ [c]), .single⟩ := by
        by_cases hquote : c = '\''
        · subst hquote
          simp [State.run, State.step, State.leave, State.push, State.enter, Shell.isBlank]
        · simp [State.run, State.step, State.push, hquote]
      rw [List.flatMap_cons, State.run_append, hc]
      simpa using ih (w ++ [c])

theorem run_singleQuoted (cs : List Char) (ws : List (List Char)) :
    (State.mk ws none .bare).run (singleQuoted cs) = some ⟨ws, some cs, .bare⟩ := by
  have hopen : (State.mk ws none .bare).step '\'' = some ⟨ws, some [], .single⟩ := rfl
  have hclose : (State.mk ws (some cs) .single).run ['\''] = some ⟨ws, some cs, .bare⟩ := rfl
  rw [singleQuoted, List.cons_append, State.run_cons, hopen, Option.bind_some, State.run_append,
    run_single, Option.bind_some, List.nil_append, hclose]

/-- A text that the shell reads as a word, whatever words stand before it. -/
def Spells (cs w : List Char) : Prop :=
  ∀ ws, (State.mk ws none .bare).run cs = some ⟨ws, some w, .bare⟩

theorem spells_plain {cs : List Char} (hne : cs ≠ []) (hplain : cs.all isPlain = true) :
    Spells cs cs := by
  intro ws
  obtain ⟨c, cs, rfl⟩ := List.exists_cons_of_ne_nil hne
  simp only [List.all_cons, Bool.and_eq_true] at hplain
  rw [State.run_cons, step_plain _ hplain.1 rfl]
  exact run_plain hplain.2 ws [c]

theorem spells_shellWord (w : List Char) : Spells (shellWord w) w := by
  unfold shellWord
  split
  · rename_i h
    simp only [Bool.and_eq_true, Bool.not_eq_true', List.isEmpty_eq_false_iff] at h
    exact spells_plain h.1 h.2
  · exact run_singleQuoted w

theorem run_double (cs : List Char) (ws : List (List Char)) (w : List Char) :
    (State.mk ws (some w) .double).run (quotedChars cs) = some ⟨ws, some (w ++ cs), .double⟩ := by
  induction cs generalizing w with
  | nil => simp [quotedChars, State.run]
  | cons c cs ih =>
      have hc : (State.mk ws (some w) .double).run (if isSpecial c then ['\\', c] else [c]) =
          some ⟨ws, some (w ++ [c]), .double⟩ := by
        cases hspecial : isSpecial c with
        | true =>
            have hquotable : Shell.isQuotable c = true := by
              simp only [isSpecial, Bool.or_eq_true, decide_eq_true_eq] at hspecial
              rcases hspecial with ((rfl | rfl) | rfl) | rfl <;> decide
            simp [State.run, State.step, State.push, hquotable]
        | false =>
            simp only [isSpecial, Bool.or_eq_false_iff, decide_eq_false_iff_not] at hspecial
            simp [State.run, State.step, State.push, hspecial]
      rw [quotedChars, List.flatMap_cons, State.run_append, hc]
      simpa [quotedChars] using ih (w ++ [c])

theorem spells_quoted (s : String) : Spells (quoted s).toList s.toList := by
  intro ws
  have hopen : (State.mk ws none .bare).step '"' = some ⟨ws, some [], .double⟩ := rfl
  have hclose : (State.mk ws (some s.toList) .double).run ['"'] =
      some ⟨ws, some s.toList, .bare⟩ := rfl
  rw [quoted, String.toList_ofList, List.cons_append, State.run_cons, hopen, Option.bind_some,
    State.run_append, run_double, Option.bind_some, List.nil_append, hclose]

theorem run_blank (ws : List (List Char)) (w : List Char) :
    (State.mk ws (some w) .bare).run [' '] = some ⟨ws ++ [w], none, .bare⟩ := rfl

def commandLine (ws : List (List Char)) : List Char := [' '].intercalate (ws.map shellWord)

theorem commandLine_cons (w : List Char) {rest : List (List Char)} (h : rest ≠ []) :
    commandLine (w :: rest) = shellWord w ++ ' ' :: commandLine rest := by
  have hmap : rest.map shellWord ≠ [] := by simpa using h
  simp [commandLine, List.intercalate_cons_of_ne_nil hmap]

theorem commandLine_append {a b : List (List Char)} (ha : a ≠ []) (hb : b ≠ []) :
    commandLine (a ++ b) = commandLine a ++ ' ' :: commandLine b := by
  induction a with
  | nil => exact absurd rfl ha
  | cons w rest ih =>
      by_cases hrest : rest = []
      · subst hrest
        simpa [commandLine] using commandLine_cons w hb
      · rw [List.cons_append, commandLine_cons w (by simp [hrest]), ih hrest,
          commandLine_cons w hrest, List.append_assoc, List.cons_append]

theorem run_spelled {t w : List Char} (hw : Spells t w) {rest : List (List Char × List Char)}
    (hrest : ∀ x ∈ rest, Spells x.1 x.2) (ws : List (List Char)) :
    ∃ first last, w :: rest.map Prod.snd = first ++ [last] ∧
      (State.mk ws none .bare).run ([' '].intercalate (t :: rest.map Prod.fst)) =
        some ⟨ws ++ first, some last, .bare⟩ := by
  induction rest generalizing t w ws with
  | nil => exact ⟨[], w, rfl, by simpa using hw ws⟩
  | cons x rest ih =>
      rw [List.forall_mem_cons] at hrest
      obtain ⟨first, last, heq, hrun⟩ := ih hrest.1 hrest.2 (ws ++ [w])
      refine ⟨w :: first, last, by rw [List.map_cons, heq]; rfl, ?_⟩
      rw [List.map_cons, List.intercalate_cons_cons, State.run_append, State.run_append, hw,
        Option.bind_some, run_blank, Option.bind_some, hrun]
      simp

theorem words_spelled {xs : List (List Char × List Char)} (h : ∀ x ∈ xs, Spells x.1 x.2) :
    Shell.words ([' '].intercalate (xs.map Prod.fst)) =
      some (xs.map fun x => String.ofList x.2) := by
  cases xs with
  | nil => rfl
  | cons x rest =>
      rw [List.forall_mem_cons] at h
      obtain ⟨first, last, heq, hrun⟩ := run_spelled h.1 h.2 []
      have hstart : State.start.run ([' '].intercalate (x.1 :: rest.map Prod.fst)) =
          some ⟨first, some last, .bare⟩ := hrun
      have hwords : (x :: rest).map (fun x => String.ofList x.2) =
          (first ++ [last]).map String.ofList := by
        rw [← heq]
        simp
      rw [Shell.words, List.map_cons, hstart, hwords]
      rfl

theorem words_commandLine (ws : List (List Char)) :
    Shell.words (commandLine ws) = some (ws.map String.ofList) := by
  have hspelled : ∀ x ∈ ws.map fun w => (shellWord w, w), Spells x.1 x.2 := by
    simp only [List.mem_map]
    rintro x ⟨w, -, rfl⟩
    exact spells_shellWord w
  simpa [commandLine, Function.comp_def] using words_spelled hspelled

end Host

end StatusLine
