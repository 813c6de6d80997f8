import StatusLine.CommandLine

namespace StatusLine.CommandLine

/-- A hyphen with something behind it, which makes a word an option. -/
def isHyphenated (s : String) : Bool :=
  match s.toList with
  | '-' :: _ :: _ => true
  | _ => false

theorem word_eq_plain_iff (s : String) : word s = .plain ↔ isHyphenated s = false := by
  unfold word isHyphenated
  split
  · rename_i heq
    simp [heq]
  · rename_i cs _ heq
    simp only [heq]
    split <;> simp
  · rename_i heq
    simp [heq]
  · rename_i hdashes hoption hshort
    split
    · rename_i c cs heq
      exact absurd heq (hshort c cs)
    · simp

theorem settle_of_waiting (level : Level) {s : Scan} {which : Setting}
    (h : s.pending = .setting which none) : s.settle level = .error .invalidValue := by
  simp [Scan.settle, h]

theorem long_of_waiting (level : Level) {s : Scan} {which : Setting}
    (h : s.pending = .setting which none) (name : String) (value : Option String) :
    ∃ e, long level s name value = .error e := by
  have hsettle := settle_of_waiting level h
  unfold long
  rw [hsettle]
  split
  · exact ⟨_, rfl⟩
  · split
    · split
      · exact ⟨_, rfl⟩
      · exact ⟨_, rfl⟩
    · exact ⟨_, rfl⟩

theorem short_of_waiting (level : Level) {s : Scan} {which : Setting}
    (h : s.pending = .setting which none) (letters : List Char) :
    ∃ e, short level s letters = .error e := by
  unfold short
  rw [settle_of_waiting level h]
  split <;> exact ⟨_, rfl⟩

theorem operand_top (s : Scan) (behindEnd : Bool) (text : String) :
    ∃ e, operand .top s behindEnd text = .error e := by
  unfold operand
  simp only [Level.takesOperand, Bool.false_and, Bool.false_eq_true, if_false, ne_eq,
    not_true_eq_false]
  split <;> exact ⟨_, rfl⟩

def Scan.awaitingSnapshot : Scan := { Scan.start with pending := .setting .snapshot none }

theorem scan_snapshot (rest : List String) :
    scan .top .start false ("--snapshot" :: rest) = scan .top .awaitingSnapshot false rest := by
  have hname : commands.lookup "--snapshot" = none := by decide
  have hword : word "--snapshot" = .long "snapshot" none := by decide
  have hlong : long .top .start "snapshot" none = .ok .awaitingSnapshot := rfl
  rw [scan]
  simp only [hname, hword, hlong, ite_self, String.reduceEq, and_false, if_false]
  rfl

theorem scan_awaiting (path : String) (rest : List String) :
    scan .top .awaitingSnapshot false (path :: rest) =
      match word path with
      | .endOfOptions => scan .top .awaitingSnapshot true rest
      | .long name value => do scan .top (← long .top .awaitingSnapshot name value) false rest
      | .short letters => do scan .top (← short .top .awaitingSnapshot letters) false rest
      | .plain =>
          scan .top { Scan.start with pending := .setting .snapshot (some path) } false rest := by
  have hwaiting : Scan.awaitingSnapshot.waiting = some .snapshot := rfl
  rw [scan]
  simp only [hwaiting, Option.isNone_some, Bool.false_eq_true, and_false, false_and, if_false]
  rfl

theorem parse_hyphenated {path : String} (h : isHyphenated path = true) (rest : List String) :
    ∃ e, parse ("--snapshot" :: path :: rest) = .error e := by
  have hwaits : Scan.awaitingSnapshot.pending = .setting .snapshot none := rfl
  have hscan : (∃ e, scan .top .awaitingSnapshot false (path :: rest) = .error e) ∨
      scan .top .awaitingSnapshot false (path :: rest) = .ok (.awaitingSnapshot, none) := by
    rw [scan_awaiting]
    split
    · -- Behind `--` no word can be the value, nor a command.
      cases rest with
      | nil => exact .inr rfl
      | cons text rest =>
          obtain ⟨e, he⟩ := operand_top .awaitingSnapshot true text
          exact .inl ⟨e, by rw [scan, he]; rfl⟩
    · rename_i name value _
      obtain ⟨e, he⟩ := long_of_waiting .top hwaits name value
      exact .inl ⟨e, by rw [he]; rfl⟩
    · rename_i letters _
      obtain ⟨e, he⟩ := short_of_waiting .top hwaits letters
      exact .inl ⟨e, by rw [he]; rfl⟩
    · rename_i hplain
      rw [word_eq_plain_iff, h] at hplain
      cases hplain
  rw [parse, scan_snapshot]
  rcases hscan with ⟨e, he⟩ | hok
  · exact ⟨e, by rw [he]; rfl⟩
  · exact ⟨.invalidValue, by rw [hok]; rfl⟩

def below (level : Level) (rest : List String) : Except UsageError (Command × Option String) := do
  let (inner, _) ← scan level .start false rest
  let inner ← inner.settle level
  let command ← level.command inner.config inner.operand
  .ok (command, inner.snapshot)

theorem scan_command {s : Scan} (hs : s.waiting = none) {name : String} {level : Level}
    (hname : commands.lookup name = some level) (rest : List String) :
    scan .top s false (name :: rest) = .ok (s, some (level, rest)) := by
  rw [scan]
  simp only [hs, hname, Option.isNone_none, and_self, if_true]

theorem parse_of_scan {words rest : List String} {s done : Scan} {level : Level}
    (hscan : scan .top .start false words = .ok (s, some (level, rest)))
    (hsettle : s.settle .top = .ok done) :
    parse words = (below level rest).map fun r => ⟨r.1, r.2.or done.snapshot⟩ := by
  rw [parse, hscan, below]
  simp only [bind, Except.bind]
  split
  · rfl
  · split
    · rfl
    · split
      · rfl
      · rw [hsettle]
        rfl

theorem parse_snapshot {path name : String} {level : Level} {rest : List String} {command : Command}
    (hpath : isHyphenated path = false) (hne : path.isEmpty = false)
    (hname : commands.lookup name = some level)
    (hparse : parse (name :: rest) = .ok ⟨command, none⟩) :
    parse ("--snapshot" :: path :: name :: rest) = .ok ⟨command, some path⟩ := by
  let given : Scan := { Scan.start with pending := .setting .snapshot (some path) }
  have hscan : scan .top .start false ("--snapshot" :: path :: name :: rest) =
      .ok (given, some (level, rest)) := by
    rw [scan_snapshot, scan_awaiting, (word_eq_plain_iff path).mpr hpath]
    exact scan_command rfl hname rest
  have hsettle : given.settle .top = .ok { Scan.start with snapshot := some path } := by
    simp [given, Scan.settle, Scan.set, Scan.value, Scan.start, Scan.put, hne]
  have hstart : Scan.start.settle .top = .ok .start := rfl
  rw [parse_of_scan (scan_command rfl hname rest) hstart] at hparse
  rw [parse_of_scan hscan hsettle]
  cases hbelow : below level rest with
  | error e =>
      rw [hbelow] at hparse
      cases hparse
  | ok r =>
      rw [hbelow] at hparse
      simp only [Except.map, Except.ok.injEq, Invocation.mk.injEq, Scan.start,
        Option.or_none] at hparse ⊢
      exact ⟨hparse.1, by rw [hparse.2]; rfl⟩

end StatusLine.CommandLine
