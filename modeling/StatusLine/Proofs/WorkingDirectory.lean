import StatusLine.Proofs.Document.Decoder
import StatusLine.Proofs.Format.Expansion
import StatusLine.Provider.Builtin

/-!
The path that the host shows for the provider of the working directory: which lengths can be asked
for, what is shown for each of them, and when it keeps to the length.
-/

namespace StatusLine.Provider

open Decoder (Record)
open Host (ExpandsTo IsBland Operation crossed_token expansion? flag outcome? outcome?_choice
  outcome?_exceeds outcome?_length outcome?_shorten outcome?_value shortened)

/-- The arguments that limit paths to so many characters. -/
inductive Limits : Arguments → Nat → Prop
  | usual : Limits [] 30
  | given {most : Nat} (h : most < 2 ^ 64) : Limits [("max_length", .ofInt most)] most

variable {args : Arguments} {most : Nat}

theorem decode_lengthRecord_iff :
    lengthRecord.decode.ofValue (.object args) = .ok most ↔
      ∃ given, lengthRecord.readEntries ⟨.jsonValue, 1⟩ (Node.ofMembers args) [] 30 =
        .ok (given, most) := by
  have habsent (given : List String) : Record.absent? lengthRecord.fields given = none := by
    simp [Record.absent?, lengthRecord, Decoder.Field.of]
  have hdecode : lengthRecord.decode.ofValue (.object args) =
      (lengthRecord.readEntries ⟨.jsonValue, 1⟩ (Node.ofMembers args) [] 30).bind
        fun r => .ok r.2 := by
    simp only [Decoder.ofValue, Node.ofJson, Record.decode, Decoder.entries?, Record.ofEntries,
      habsent, decide_true, if_true]
    rfl
  rw [hdecode]
  exact Decoder.bind_eq_ok.trans (by simp)

theorem readEntries_lengthRecord_iff {p : Place} {key : String} {node : Node}
    {rest : List (String × Node)} {seen given : List String} {s : Nat} :
    lengthRecord.readEntries p ((key, node) :: rest) seen s = .ok (given, most) ↔
      key = "max_length" ∧ key ∉ seen ∧ ∃ n, Decoder.word64 p node = .ok n ∧
        lengthRecord.readEntries p rest (key :: seen) n = .ok (given, most) := by
  rw [Record.readEntries]
  by_cases hkey : key = "max_length"
  · subst hkey
    have hfield : lengthRecord.field? "max_length" =
        some (.of "max_length" Decoder.word64 fun n _ => n) := rfl
    simp only [hfield]
    by_cases hseen : "max_length" ∈ seen
    · simp [hseen]
    · simp [hseen, Decoder.bind_eq_ok, Decoder.Field.of, Decoder.map_eq_ok]
  · have hfield : lengthRecord.field? key = none := by
      simp [Record.field?, lengthRecord, Decoder.Field.of, Ne.symm hkey]
    have hstrict : lengthRecord.strict = true := rfl
    simp [hfield, hkey, hstrict]

theorem limits_of_decode (h : lengthRecord.decode.ofValue (.object args) = .ok most) :
    Limits args most := by
  obtain ⟨given, h⟩ := decode_lengthRecord_iff.mp h
  cases args with
  | nil =>
      cases h
      exact .usual
  | cons e rest =>
      obtain ⟨key, j⟩ := e
      rw [Node.ofMembers] at h
      obtain ⟨rfl, -, n, hn, h⟩ := readEntries_lengthRecord_iff.mp h
      obtain ⟨hlt, hj⟩ := Decoder.word64_eq_ok_iff.mp hn
      cases rest with
      | nil =>
          cases h
          rw [hj]
          exact .given hlt
      | cons e rest =>
          rw [Node.ofMembers] at h
          obtain ⟨hkey, hseen, -⟩ := readEntries_lengthRecord_iff.mp h
          exact absurd (hkey ▸ List.mem_cons_self) hseen

theorem Limits.decode (h : Limits args most) :
    lengthRecord.decode.ofValue (.object args) = .ok most := by
  refine decode_lengthRecord_iff.mpr ?_
  cases h with
  | usual => exact ⟨[], rfl⟩
  | given hlt =>
      have hread := (Decoder.word64_eq_ok_iff (p := ⟨.jsonValue, 1⟩) (j := .ofInt most)).mpr
        ⟨hlt, rfl⟩
      refine ⟨["max_length"], ?_⟩
      rw [Node.ofMembers, Node.ofMembers]
      exact readEntries_lengthRecord_iff.mpr ⟨rfl, List.not_mem_nil, most, hread, rfl⟩

theorem arguments_eq_ok_iff : arguments "cwd" lengthRecord args = .ok most ↔ Limits args most := by
  refine Iff.trans ?_ ⟨limits_of_decode, Limits.decode⟩
  simp only [arguments]
  split <;> simp_all

theorem workingDirectory_eq_ok_iff {o : Output} :
    workingDirectory args = .ok o ↔ ∃ most, Limits args most ∧ o = [.format (pathFormat most)] := by
  simp only [workingDirectory, Decoder.map_eq_ok, arguments_eq_ok_iff, eq_comm (a := o)]

def pathTest (most : Nat) : Operation :=
  .exceeds (Operation.length .paneCurrentPath).token (Nat.toDigits 10 most)

def pathEnd (most : Nat) : Operation := .shorten (kept most) ellipsis.toList .paneCurrentPath

def pathChoice (most : Nat) : Operation :=
  .choice (pathTest most).token (pathEnd most).token (Operation.value .paneCurrentPath).token

theorem toList_pathFormat (most : Nat) : (pathFormat most).toList = (pathChoice most).token := by
  unfold pathFormat pathChoice pathTest pathEnd
  simp [Operation.token, Operation.write, Variable.token, Integer.toList_text]

theorem isClosed_pathTest (most : Nat) : (pathTest most).IsClosed :=
  ⟨crossed_token (.length .paneCurrentPath) trivial, (IsBland.digits most).crossed 0⟩

theorem isClosed_pathEnd (most : Nat) : (pathEnd most).IsClosed :=
  show IsBland ellipsis.toList by simp [IsBland, ellipsis]

theorem isClosed_pathChoice (most : Nat) : (pathChoice most).IsClosed :=
  ⟨crossed_token (pathTest most) (isClosed_pathTest most),
    crossed_token (pathEnd most) (isClosed_pathEnd most),
    crossed_token (.value .paneCurrentPath) trivial⟩

def shownPath (most : Nat) (path : List Char) : List Char :=
  if most < path.length then shortened (kept most) ellipsis.toList path else path

variable (env : Variable → String)

theorem outcome?_pathTest (most : Nat) :
    outcome? env (pathTest most) = some (flag (most < (env .paneCurrentPath).toList.length)) := by
  have hlength : ExpandsTo env _ _ := .token (.length .paneCurrentPath) trivial
    (outcome?_length .paneCurrentPath)
  have hmost : ExpandsTo env (Nat.toDigits 10 most) (Nat.toDigits 10 most) :=
    .bland (IsBland.digits most)
  simpa [pathTest] using outcome?_exceeds hlength hmost (Integer.read?_toDigits _)
    (Integer.read?_toDigits _)

theorem outcome?_pathChoice (most : Nat) :
    outcome? env (pathChoice most) = some (shownPath most (env .paneCurrentPath).toList) := by
  have htest := ExpandsTo.token (pathTest most) (isClosed_pathTest most)
    (outcome?_pathTest env most)
  have hend : ExpandsTo env _ _ := .token (pathEnd most) (isClosed_pathEnd most)
    (outcome?_shorten (kept most) ellipsis.toList .paneCurrentPath)
  have hpath : ExpandsTo env _ _ := .token (.value .paneCurrentPath) trivial (outcome?_value _)
  simpa only [shownPath, pathChoice, decide_eq_true_eq] using outcome?_choice htest hend hpath

theorem expandsTo_pathFormat (most : Nat) :
    ExpandsTo env (pathFormat most).toList (shownPath most (env .paneCurrentPath).toList) := by
  rw [toList_pathFormat]
  exact .token (pathChoice most) (isClosed_pathChoice most) (outcome?_pathChoice env most)

/-- A path cut from the left to at most `most` characters, the ellipsis in front among them. -/
structure IsTrimmed (most : Nat) (path shown : List Char) : Prop where
  whole : path.length ≤ most → shown = path
  cut : most < path.length →
    shown.length = most ∧ ∃ ending, ending <:+ path ∧ shown = ellipsis.toList ++ ending

variable {path : List Char}

theorem shownPath_of_le (h : path.length ≤ most) : shownPath most path = path :=
  if_neg (Nat.not_lt.mpr h)

theorem shownPath_of_kept_lt (h : most < path.length) (hkept : kept most < path.length) :
    shownPath most path = ellipsis.toList ++ path.rtake (kept most) := by
  rw [shownPath, if_pos h, shortened, if_neg (Nat.not_le.mpr hkept)]

theorem shownPath_of_le_kept (h : path.length ≤ kept most) : shownPath most path = path := by
  rw [shownPath, shortened, if_pos h, ite_self]

theorem length_shownPath_of_kept_lt (h : most < path.length) (hkept : kept most < path.length) :
    (shownPath most path).length = ellipsis.length + kept most := by
  rw [shownPath_of_kept_lt h hkept, List.length_append, List.rtake, List.length_drop,
    String.length_toList]
  omega

theorem isTrimmed_shownPath (h : path.length ≤ most ∨ ellipsis.length < most) :
    IsTrimmed most path (shownPath most path) where
  whole := shownPath_of_le
  cut hlong := by
    have hmost : ellipsis.length < most := h.resolve_left (Nat.not_le.mpr hlong)
    have hkept : ellipsis.length + kept most = most := by
      simp only [kept]
      omega
    have hlt : kept most < path.length := by omega
    exact ⟨(length_shownPath_of_kept_lt hlong hlt).trans hkept, path.rtake (kept most),
      List.drop_suffix _ _, shownPath_of_kept_lt hlong hlt⟩

-- One character is kept even where the ellipsis alone is as long as the path may be.
theorem lt_length_shownPath (h : most < path.length) (hsmall : most ≤ ellipsis.length) :
    most < (shownPath most path).length := by
  have hkept : kept most = 1 := by
    simp only [kept]
    omega
  rcases Nat.lt_or_ge (kept most) path.length with hlt | hle
  · rw [length_shownPath_of_kept_lt h hlt]
    omega
  · rwa [shownPath_of_le_kept hle]

theorem IsTrimmed.length_le {shown : List Char} (h : IsTrimmed most path shown) :
    shown.length ≤ most := by
  rcases Nat.lt_or_ge most path.length with hlt | hle
  · exact (h.cut hlt).1.le
  · rwa [h.whole hle]

theorem length_shownPath_le_iff :
    (shownPath most path).length ≤ most ↔ path.length ≤ most ∨ ellipsis.length < most := by
  refine ⟨fun h => ?_, fun h => (isTrimmed_shownPath h).length_le⟩
  by_contra hneither
  rw [not_or, Nat.not_le, Nat.not_lt] at hneither
  exact Nat.not_lt.mpr h (lt_length_shownPath hneither.1 hneither.2)

theorem isTrimmed_shownPath_iff :
    IsTrimmed most path (shownPath most path) ↔ path.length ≤ most ∨ ellipsis.length < most :=
  ⟨fun h => length_shownPath_le_iff.mp h.length_le, isTrimmed_shownPath⟩

theorem Limits.expansion?_format (env : Variable → String) (h : Limits args most) :
    ∃ o, workingDirectory args = .ok o ∧
      expansion? env o.format.toList = some (shownPath most (env .paneCurrentPath).toList) := by
  refine ⟨_, workingDirectory_eq_ok_iff.mpr ⟨most, h, rfl⟩, ?_⟩
  have hformat : Output.format [.format (pathFormat most)] = pathFormat most := by
    simp [Output.format, Fragment.write]
  rw [hformat]
  exact (expandsTo_pathFormat env most).all

/-- The provider takes a length of 64 bits or none. The path that the host shows for what it gives
is trimmed, and no longer than it may be, unless it is cut where the ellipsis takes up all there
is. -/
theorem workingDirectory_trims_iff (env : Variable → String) (args : Arguments) :
    ((∃ o, workingDirectory args = .ok o) ↔ ∃ most, Limits args most) ∧
    ∀ most, Limits args most →
      let path := (env .paneCurrentPath).toList
      ∃ o shown, workingDirectory args = .ok o ∧ expansion? env o.format.toList = some shown ∧
        shown = shownPath most path ∧
        (IsTrimmed most path shown ↔ path.length ≤ most ∨ ellipsis.length < most) ∧
        (shown.length ≤ most ↔ path.length ≤ most ∨ ellipsis.length < most) := by
  refine ⟨⟨fun ⟨o, ho⟩ => ?_, fun ⟨most, h⟩ => ?_⟩, fun most h => ?_⟩
  · obtain ⟨most, h, -⟩ := workingDirectory_eq_ok_iff.mp ho
    exact ⟨most, h⟩
  · exact ⟨_, workingDirectory_eq_ok_iff.mpr ⟨most, h, rfl⟩⟩
  · obtain ⟨o, ho, hshown⟩ := h.expansion?_format env
    exact ⟨o, _, ho, hshown, rfl, isTrimmed_shownPath_iff, length_shownPath_le_iff⟩

theorem workingDirectory_trims_iff_films :
    let args : Arguments := [("max_length", .ofInt (8 : Nat))]
    let path := "/srv/media/films"
    Limits args 8 ∧ ∃ o, workingDirectory args = .ok o ∧
      expansion? (fun _ => path) o.format.toList = some "...films".toList ∧
      IsTrimmed 8 path.toList "...films".toList := by
  intro args path
  have hlimits : Limits args 8 := .given (by decide)
  obtain ⟨o, shown, ho, hshown, hpath, htrimmed, -⟩ :=
    (workingDirectory_trims_iff (fun _ => path) args).2 8 hlimits
  have hfilms : shownPath 8 path.toList = "...films".toList := by decide
  rw [hpath, hfilms] at hshown
  rw [hpath, hfilms] at htrimmed
  exact ⟨hlimits, o, ho, hshown, htrimmed.mpr (.inr (by decide))⟩

theorem workingDirectory_overlong :
    let args : Arguments := [("max_length", .ofInt (3 : Nat))]
    let path := "/tmp"
    Limits args 3 ∧ ∃ o, workingDirectory args = .ok o ∧
      expansion? (fun _ => path) o.format.toList = some "...p".toList ∧
      3 < "...p".toList.length ∧ ¬ IsTrimmed 3 path.toList "...p".toList := by
  intro args path
  have hlimits : Limits args 3 := .given (by decide)
  obtain ⟨o, ho, hshown⟩ := hlimits.expansion?_format fun _ => path
  have hpath : shownPath 3 path.toList = "...p".toList := by decide
  rw [hpath] at hshown
  exact ⟨hlimits, o, ho, hshown, by decide, fun h => absurd h.length_le (by decide)⟩

end StatusLine.Provider
