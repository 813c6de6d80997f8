import StatusLine.Proofs.Document.Reals
import StatusLine.Proofs.Json.Real
import StatusLine.Proofs.Json.Text

/-!
A value is read back from the text that spreads it over lines, but for numbers with a fraction, in
whose places other numbers of that kind may stand.
-/

namespace StatusLine.Json

open Node (ofJson ofItems ofMembers)

mutual

def isExact : Json → Bool
  | .real _ => false
  | .array items => areExact items
  | .object members => haveExact members
  | _ => true

def areExact : List Json → Bool
  | [] => true
  | x :: rest => isExact x && areExact rest

def haveExact : List (String × Json) → Bool
  | [] => true
  | (_, x) :: rest => isExact x && haveExact rest

end

mutual

theorem reals_of_isExact : ∀ j : Json, j.isExact = true → j.reals = []
  | .null, _ => rfl
  | .bool _, _ => rfl
  | .whole _, _ => rfl
  | .string _, _ => rfl
  | .array items, h => realsItems_of_areExact items h
  | .object members, h => realsMembers_of_haveExact members h

theorem realsItems_of_areExact : ∀ items : List Json, areExact items = true → realsItems items = []
  | [], _ => rfl
  | j :: rest, h => by
      simp only [areExact, Bool.and_eq_true] at h
      rw [realsItems, reals_of_isExact j h.1, realsItems_of_areExact rest h.2, List.append_nil]

theorem realsMembers_of_haveExact :
    ∀ members : List (String × Json), haveExact members = true → realsMembers members = []
  | [], _ => rfl
  | (_, j) :: rest, h => by
      simp only [haveExact, Bool.and_eq_true] at h
      rw [realsMembers, reals_of_isExact j h.1, realsMembers_of_haveExact rest h.2,
        List.append_nil]

end

mutual

def steps : Json → Nat
  | .array items => stepsItems items + 1
  | .object members => stepsMembers members + 1
  | _ => 1

def stepsItems : List Json → Nat
  | [] => 0
  | x :: rest => steps x + stepsItems rest + 1

def stepsMembers : List (String × Json) → Nat
  | [] => 0
  | (_, x) :: rest => steps x + stepsMembers rest + 1

end

theorem length_decimal_pos (i : Int) : 0 < (Integer.decimal i).length := by
  have hdigits : 0 < (Nat.toDigits 10 i.natAbs).length :=
    List.length_pos_iff.mpr Nat.toDigits_ne_nil
  simp only [Integer.decimal]
  split
  · exact Nat.succ_pos _
  · exact hdigits

theorem length_spreadItems_le (level : Nat) (x : Json) (rest : List Json) :
    1 + (spread level x).length + (spreadItems level rest).length ≤
      (spreadItems level (x :: rest)).length := by
  cases rest <;> simp [spreadItems, newLine] <;> omega

theorem length_spreadMembers_le (level : Nat) (k : String) (x : Json)
    (rest : List (String × Json)) :
    1 + (spread level x).length + (spreadMembers level rest).length ≤
      (spreadMembers level ((k, x) :: rest)).length := by
  cases rest <;> simp [spreadMembers, newLine] <;> omega

theorem text_opens {x : FiniteReal} (h : x.val.isInRange = true) :
    ∃ c cs, RealNotation.document.text x.val = c :: cs ∧ (Integer.isDigit c = true ∨ c = '-') := by
  obtain ⟨val, hfinite⟩ := x
  cases val with
  | finite negative m e =>
      simp only [Binary64.isInRange, Bool.and_eq_true, decide_eq_true_eq] at h
      cases negative with
      | true => exact ⟨'-', _, rfl, .inr rfl⟩
      | false =>
          obtain ⟨c, cs, heq, hc⟩ := Number.magnitude_opens h.1 h.2
          exact ⟨c, cs, heq, .inl hc⟩
  | infinity _ => cases hfinite
  | notNumber => cases hfinite

mutual

theorem steps_le_length_spread (level : Nat) :
    ∀ j : Json, j.InRange → steps j ≤ (spread level j).length
  | .null, _ => by simp [steps, spread]
  | .bool true, _ => by simp [steps, spread, bare]
  | .bool false, _ => by simp [steps, spread, bare]
  | .whole n, _ => by
      have h := length_decimal_pos n.val
      simp only [steps, spread]
      omega
  | .real x, h => by
      obtain ⟨c, cs, heq, -⟩ := text_opens (inRange_real.mp h)
      simp [steps, spread, heq]
  | .string s, _ => by simp [steps, spread, quote]
  | .array [], _ => by simp [steps, stepsItems, spread]
  | .array (x :: rest), h => by
      have hitems := stepsItems_le_length_spreadItems (level + 1) (x :: rest) h
      simp only [steps, spread, List.length_cons, List.length_append]
      omega
  | .object [], _ => by simp [steps, stepsMembers, spread]
  | .object (m :: rest), h => by
      have hmembers := stepsMembers_le_length_spreadMembers (level + 1) (m :: rest) h
      simp only [steps, spread, List.length_cons, List.length_append]
      omega

theorem stepsItems_le_length_spreadItems (level : Nat) :
    ∀ xs : List Json, (array xs).InRange → stepsItems xs ≤ (spreadItems level xs).length
  | [], _ => by simp [stepsItems]
  | x :: rest, h => by
      rw [inRange_array_cons] at h
      have hx := steps_le_length_spread level x h.1
      have hrest := stepsItems_le_length_spreadItems level rest h.2
      have hlength := length_spreadItems_le level x rest
      simp only [stepsItems]
      omega

theorem stepsMembers_le_length_spreadMembers (level : Nat) :
    ∀ ms : List (String × Json),
      (object ms).InRange → stepsMembers ms ≤ (spreadMembers level ms).length
  | [], _ => by simp [stepsMembers]
  | (k, x) :: rest, h => by
      rw [inRange_object_cons] at h
      have hx := steps_le_length_spread level x h.1
      have hrest := stepsMembers_le_length_spreadMembers level rest h.2
      have hlength := length_spreadMembers_le level k x rest
      simp only [stepsMembers]
      omega

end

theorem skip_cons {c : Char} (cs : List Char) (h : isSpace c = false) :
    skip (c :: cs) = c :: cs := by
  simp [skip, h]

theorem skip_newLine (level : Nat) (cs : List Char) : skip (newLine level ++ cs) = skip cs := by
  have hspaces : ∀ c ∈ newLine level, isSpace c = true := by
    intro c hc
    simp only [newLine, List.mem_cons, List.mem_replicate] at hc
    rcases hc with rfl | ⟨-, rfl⟩ <;> rfl
  exact List.dropWhile_append_of_pos hspaces

theorem readValue_space (fuel : Nat) (cs : List Char) :
    readValue fuel (' ' :: cs) = readValue fuel cs := by
  cases fuel with
  | zero => rfl
  | succ fuel =>
      have hskip : skip (' ' :: cs) = skip cs := rfl
      rw [readValue, readValue, hskip]

def Opens (c : Char) : Prop := isSpace c = false ∧ c ≠ ']'

theorem opens_of_isDigit {c : Char} (h : Integer.isDigit c = true) : Opens c := by
  constructor
  · cases hspace : isSpace c with
    | false => rfl
    | true =>
        simp only [isSpace, Bool.or_eq_true, decide_eq_true_eq] at hspace
        rcases hspace with ((rfl | rfl) | rfl) | rfl <;> cases h
  · rintro rfl
    cases h

theorem spread_opens (level : Nat) (j : Json) (h : j.InRange) :
    ∃ c cs, spread level j = c :: cs ∧ Opens c := by
  match j with
  | .null => exact ⟨_, _, rfl, by decide, by decide⟩
  | .bool true => exact ⟨_, _, rfl, by decide, by decide⟩
  | .bool false => exact ⟨_, _, rfl, by decide, by decide⟩
  | .whole n =>
      simp only [spread, Integer.decimal]
      split
      · exact ⟨_, _, rfl, by decide, by decide⟩
      · obtain ⟨c, cs, heq, hc⟩ := Integer.toDigits_eq_cons n.val.natAbs
        exact ⟨c, cs, heq, opens_of_isDigit hc⟩
  | .real x =>
      obtain ⟨c, cs, heq, hc⟩ := text_opens (inRange_real.mp h)
      refine ⟨c, cs, heq, ?_⟩
      rcases hc with hc | rfl
      · exact opens_of_isDigit hc
      · exact ⟨by decide, by decide⟩
  | .string s => exact ⟨'"', _, rfl, by decide, by decide⟩
  | .array [] => exact ⟨_, _, rfl, by decide, by decide⟩
  | .array (x :: rest) => exact ⟨'[', _, by rw [spread]; rfl, by decide, by decide⟩
  | .object [] => exact ⟨_, _, rfl, by decide, by decide⟩
  | .object (m :: rest) => exact ⟨'{', _, by rw [spread]; rfl, by decide, by decide⟩

theorem skip_spread (level : Nat) {j : Json} (h : j.InRange) (cs : List Char) :
    skip (spread level j ++ cs) = spread level j ++ cs := by
  obtain ⟨c, ds, heq, hspace, -⟩ := spread_opens level j h
  rw [heq, List.cons_append]
  exact skip_cons _ hspace

open Number (Closes)

theorem closes_comma (cs : List Char) : Closes (',' :: cs) := by
  rintro c h
  cases h
  exact .inl rfl

theorem closes_newLine (level : Nat) (cs : List Char) : Closes (newLine level ++ cs) := by
  rintro c h
  cases h
  exact .inr rfl

theorem readValue_scalar (fuel : Nat) {c : Char} (cs : List Char)
    (h : Integer.isDigit c = true ∨ c = '-') :
    readValue (fuel + 1) (c :: cs) = scalar (c :: cs) := by
  have hskip : skip (c :: cs) = c :: cs := by
    rcases h with h | rfl
    · exact skip_cons cs (opens_of_isDigit h).1
    · rfl
  rw [readValue, hskip]
  split
  · rename_i heq
    cases heq
    simp [Integer.isDigit] at h
  · rename_i heq
    cases heq
    simp [Integer.isDigit] at h
  · rename_i heq
    cases heq
    simp [Integer.isDigit] at h
  · rfl

theorem scalar_digit {c : Char} (cs : List Char) (h : Integer.isDigit c = true) :
    scalar (c :: cs) = Number.read false (c :: cs) := by
  rw [scalar]
  · simp [h]
  all_goals
    rintro rfl
    cases h

theorem readValue_whole (fuel : Nat) (n : Whole) {rest : List Char} (h : Closes rest) :
    readValue (fuel + 1) (Integer.decimal n.val ++ rest) = (.integer n.val, rest) := by
  have hfits := n.fits
  simp only [Integer.isWhole, Bool.and_eq_true, decide_eq_true_eq] at hfits
  simp only [Integer.decimal]
  split
  · rename_i hneg
    have hread := Number.read_digits true h
      (show n.val.natAbs < Number.limit by simp only [Number.limit]; omega)
    have hinteger : Number.integer true n.val.natAbs = .integer n.val := by
      have hzero : ¬ (n.val.natAbs = 0 ∨ 9223372036854775808 < n.val.natAbs) := by omega
      have hval : -(n.val.natAbs : Int) = n.val := by omega
      rw [Number.integer, if_neg (by decide), if_neg hzero, hval]
    rw [List.cons_append, readValue_scalar fuel _ (.inr rfl), scalar, hread, hinteger]
  · rename_i hneg
    have hread := Number.read_digits false h
      (show n.val.natAbs < Number.limit by simp only [Number.limit]; omega)
    have hval : (n.val.natAbs : Int) = n.val := by omega
    obtain ⟨c, ds, heq, hc⟩ := Integer.toDigits_eq_cons n.val.natAbs
    rw [heq, List.cons_append] at hread ⊢
    rw [readValue_scalar fuel _ (.inl hc), scalar_digit _ hc, hread]
    simp [Number.integer, hval]

def reread (x : FiniteReal) : FiniteReal :=
  match (readValue 1 (RealNotation.document.text x.val)).1 with
  | .real y => if h : y.isFinite = true then ⟨y, h⟩ else x
  | _ => x

theorem readValue_text {x : FiniteReal} (h : x.val.isInRange = true) :
    ∃ y : Binary64, y.isFinite = true ∧ ∀ fuel rest, Closes rest →
      readValue (fuel + 1) (RealNotation.document.text x.val ++ rest) = (.real y, rest) := by
  obtain ⟨val, hfinite⟩ := x
  cases val with
  | finite negative m e =>
      simp only [Binary64.isInRange, Bool.and_eq_true, decide_eq_true_eq] at h
      obtain ⟨y, hy, hread⟩ := Number.read_magnitude negative h.1 h.2
      refine ⟨y, hy, fun fuel rest hrest => ?_⟩
      cases negative with
      | true =>
          rw [RealNotation.text, if_pos rfl, List.cons_append,
            readValue_scalar fuel _ (.inr rfl), scalar, hread rest hrest]
      | false =>
          obtain ⟨c, cs, heq, hc⟩ := Number.magnitude_opens h.1 h.2
          have hnumber := hread rest hrest
          rw [RealNotation.text, if_neg Bool.false_ne_true]
          rw [heq, List.cons_append] at hnumber ⊢
          rw [readValue_scalar fuel _ (.inl hc), scalar_digit _ hc, hnumber]
  | infinity _ => cases hfinite
  | notNumber => cases hfinite

theorem readValue_real (fuel : Nat) {x : FiniteReal} (h : x.val.isInRange = true)
    {rest : List Char} (hrest : Closes rest) :
    readValue (fuel + 1) (RealNotation.document.text x.val ++ rest) =
      (.real (reread x).val, rest) := by
  obtain ⟨y, hy, hread⟩ := readValue_text h
  have hreread : reread x = ⟨y, hy⟩ := by
    have hend := hread 0 [] fun _ h => nomatch h
    rw [List.append_nil] at hend
    simp only [reread, hend, hy, dif_pos]
  rw [hread fuel rest hrest, hreread]

theorem readValue_string (fuel : Nat) (s : String) (rest : List Char) :
    readValue (fuel + 1) (quote s ++ rest) = (.text s, rest) := by
  have hskip : skip (quote s ++ rest) = '"' :: (s.toList.flatMap escapedChar ++ '"' :: rest) := by
    simp [quote, skip_cons _ (show isSpace '"' = false from rfl)]
  rw [readValue, hskip]
  exact readString_escaped s rest

theorem skip_spreadItems (level : Nat) {x : Json} (h : x.InRange) (rest : List Json)
    (cs : List Char) :
    skip (spreadItems level (x :: rest) ++ cs) =
      spread level x ++ (if rest.isEmpty then cs else ',' :: (spreadItems level rest ++ cs)) := by
  cases rest with
  | nil => simp [spreadItems, skip_newLine, skip_spread level h]
  | cons y rest => simp [spreadItems, skip_newLine, skip_spread level h]

theorem skip_spreadMembers (level : Nat) (k : String) (x : Json) (rest : List (String × Json))
    (cs : List Char) :
    skip (spreadMembers level ((k, x) :: rest) ++ cs) =
      '"' :: (k.toList.flatMap escapedChar ++ '"' :: ':' :: ' ' :: (spread level x ++
        (if rest.isEmpty then cs else ',' :: (spreadMembers level rest ++ cs)))) := by
  have hquote (cs : List Char) : skip ('"' :: cs) = '"' :: cs := rfl
  cases rest with
  | nil => simp [spreadMembers, skip_newLine, quote, hquote]
  | cons y rest => simp [spreadMembers, skip_newLine, quote, hquote]

theorem readValue_list (fuel : Nat) {cs ds : List Char} {c : Char} (h : skip cs = c :: ds)
    (hc : c ≠ ']') :
    readValue (fuel + 1) ('[' :: cs) =
      (.list (readItems fuel (c :: ds)).1.1 (readItems fuel (c :: ds)).1.2,
        (readItems fuel (c :: ds)).2) := by
  have hskip : skip ('[' :: cs) = '[' :: cs := rfl
  rw [readValue, hskip]
  simp only [h]
  split
  · rename_i heq
    cases heq
    exact absurd rfl hc
  · rfl

theorem readValue_table (fuel : Nat) {cs ds : List Char} (h : skip cs = '"' :: ds) :
    readValue (fuel + 1) ('\x7b' :: cs) =
      (.table (readMembers fuel ds).1.1 (readMembers fuel ds).1.2, (readMembers fuel ds).2) := by
  have hskip : skip ('\x7b' :: cs) = '\x7b' :: cs := rfl
  rw [readValue, hskip]
  simp only [h]

theorem readItems_last (fuel : Nat) {cs rest tail : List Char} {x : Node}
    (hx : readValue fuel cs = (x, rest)) (h : skip rest = ']' :: tail) :
    readItems (fuel + 1) cs = (([x], true), tail) := by
  rw [readItems]
  simp only [hx, h]

theorem readItems_next (fuel : Nat) {cs rest ds : List Char} {x : Node} {c : Char}
    (hx : readValue fuel cs = (x, ',' :: rest)) (h : skip rest = c :: ds) (hc : c ≠ ']') :
    readItems (fuel + 1) cs =
      ((x :: (readItems fuel (c :: ds)).1.1, (readItems fuel (c :: ds)).1.2),
        (readItems fuel (c :: ds)).2) := by
  have hskip : skip (',' :: rest) = ',' :: rest := rfl
  rw [readItems]
  simp only [hx, hskip, h]
  split
  · rename_i heq
    cases heq
    exact absurd rfl hc
  · rfl

theorem readMembers_last (fuel : Nat) {rest tail : List Char} {x : Node} (k : String)
    (cs : List Char) (hx : readValue fuel cs = (x, rest)) (h : skip rest = '\x7d' :: tail) :
    readMembers (fuel + 1) (k.toList.flatMap escapedChar ++ '"' :: ':' :: ' ' :: cs) =
      (([(k, x)], .closed), tail) := by
  have hskip : skip (':' :: ' ' :: cs) = ':' :: ' ' :: cs := rfl
  rw [readMembers]
  simp only [readString_escaped, hskip, readValue_space, hx, h, member]

theorem readMembers_next (fuel : Nat) {rest ds : List Char} {x : Node} (k : String)
    (cs : List Char) (hx : readValue fuel cs = (x, ',' :: rest)) (h : skip rest = '"' :: ds) :
    readMembers (fuel + 1) (k.toList.flatMap escapedChar ++ '"' :: ':' :: ' ' :: cs) =
      (((k, x) :: (readMembers fuel ds).1.1, (readMembers fuel ds).1.2),
        (readMembers fuel ds).2) := by
  have hcolon : skip (':' :: ' ' :: cs) = ':' :: ' ' :: cs := rfl
  have hcomma : skip (',' :: rest) = ',' :: rest := rfl
  rw [readMembers]
  simp only [readString_escaped, hcolon, readValue_space, hx, hcomma, h, member]

-- The recursion is on the fuel: an item or a member is read with less of it, however deep it is.
mutual

theorem readValue_spread (level : Nat) : ∀ (j : Json) (fuel : Nat) (rest : List Char),
    j.InRange → steps j ≤ fuel → Closes rest →
      readValue fuel (spread level j ++ rest) = (ofJson (mapReals reread j), rest)
  | .null, fuel + 1, rest, _, _, _ => rfl
  | .bool true, fuel + 1, rest, _, _, _ => rfl
  | .bool false, fuel + 1, rest, _, _, _ => rfl
  | .whole n, fuel + 1, rest, _, _, hrest => readValue_whole fuel n hrest
  | .real x, fuel + 1, rest, h, _, hrest => readValue_real fuel (inRange_real.mp h) hrest
  | .string s, fuel + 1, rest, _, _, _ => readValue_string fuel s rest
  | .array [], fuel + 1, rest, _, _, _ => rfl
  | .array (x :: xs), fuel + 1, rest, h, hfuel, _ => by
      simp only [steps] at hfuel
      obtain ⟨c, ds, hskip, hc, hread⟩ :=
        readItems_spreadItems (level + 1) level x xs fuel rest h (by omega)
      have hlist := readValue_list fuel hskip hc
      rw [hread] at hlist
      simpa [spread, mapReals, mapItems, ofJson] using hlist
  | .object [], fuel + 1, rest, _, _, _ => rfl
  | .object (m :: ms), fuel + 1, rest, h, hfuel, _ => by
      simp only [steps] at hfuel
      obtain ⟨ds, hskip, hread⟩ :=
        readMembers_spreadMembers (level + 1) level m ms fuel rest h (by omega)
      have htable := readValue_table fuel hskip
      rw [hread] at htable
      simpa [spread, mapReals, mapMembers, ofJson] using htable
  | .null, 0, _, _, hfuel, _ => nomatch hfuel
  | .bool _, 0, _, _, hfuel, _ => nomatch hfuel
  | .whole _, 0, _, _, hfuel, _ => nomatch hfuel
  | .real _, 0, _, _, hfuel, _ => nomatch hfuel
  | .string _, 0, _, _, hfuel, _ => nomatch hfuel
  | .array _, 0, _, _, hfuel, _ => nomatch hfuel
  | .object _, 0, _, _, hfuel, _ => nomatch hfuel
termination_by structural _ fuel => fuel

theorem readItems_spreadItems (level outer : Nat) :
    ∀ (x : Json) (xs : List Json) (fuel : Nat) (rest : List Char),
      (array (x :: xs)).InRange → stepsItems (x :: xs) ≤ fuel →
        ∃ c ds, skip (spreadItems level (x :: xs) ++ (newLine outer ++ ']' :: rest)) = c :: ds ∧
          c ≠ ']' ∧ readItems fuel (c :: ds) = ((ofItems (mapItems reread (x :: xs)), true), rest)
  | x, [], fuel + 1, rest, h, hfuel => by
      rw [inRange_array_cons] at h
      simp only [stepsItems] at hfuel
      obtain ⟨c, ds, heq, -, hc⟩ := spread_opens level x h.1
      have hskip := skip_spreadItems level h.1 [] (newLine outer ++ ']' :: rest)
      have hx := readValue_spread level x fuel _ h.1 (by omega)
        (closes_newLine outer (']' :: rest))
      rw [heq, List.cons_append] at hskip hx
      exact ⟨c, _, hskip, hc, readItems_last fuel hx (skip_newLine outer _)⟩
  | x, y :: ys, fuel + 1, rest, h, hfuel => by
      rw [inRange_array_cons] at h
      rw [stepsItems] at hfuel
      obtain ⟨c, ds, heq, -, hc⟩ := spread_opens level x h.1
      obtain ⟨d, es, htail, hd, hread⟩ :=
        readItems_spreadItems level outer y ys fuel rest h.2 (by omega)
      have hskip := skip_spreadItems level h.1 (y :: ys) (newLine outer ++ ']' :: rest)
      have hx := readValue_spread level x fuel _ h.1 (by omega)
        (closes_comma (spreadItems level (y :: ys) ++ (newLine outer ++ ']' :: rest)))
      rw [heq, List.cons_append] at hskip hx
      have hnext := readItems_next fuel hx htail hd
      rw [hread] at hnext
      exact ⟨c, _, hskip, hc, hnext⟩
  | _, _, 0, _, _, hfuel => nomatch hfuel
termination_by structural _ _ fuel => fuel

theorem readMembers_spreadMembers (level outer : Nat) :
    ∀ (m : String × Json) (ms : List (String × Json)) (fuel : Nat) (rest : List Char),
      (object (m :: ms)).InRange → stepsMembers (m :: ms) ≤ fuel →
        ∃ ds, skip (spreadMembers level (m :: ms) ++ (newLine outer ++ '\x7d' :: rest)) =
          '"' :: ds ∧
            readMembers fuel ds = ((ofMembers (mapMembers reread (m :: ms)), .closed), rest)
  | (k, x), [], fuel + 1, rest, h, hfuel => by
      rw [inRange_object_cons] at h
      simp only [stepsMembers] at hfuel
      have hx := readValue_spread level x fuel _ h.1 (by omega)
        (closes_newLine outer ('\x7d' :: rest))
      exact ⟨_, skip_spreadMembers level k x [] _,
        readMembers_last fuel k _ hx (skip_newLine outer _)⟩
  | (k, x), n :: ms, fuel + 1, rest, h, hfuel => by
      rw [inRange_object_cons] at h
      rw [stepsMembers] at hfuel
      obtain ⟨ds, htail, hread⟩ :=
        readMembers_spreadMembers level outer n ms fuel rest h.2 (by omega)
      have hx := readValue_spread level x fuel _ h.1 (by omega)
        (closes_comma (spreadMembers level (n :: ms) ++ (newLine outer ++ '\x7d' :: rest)))
      have hnext := readMembers_next fuel k _ hx htail
      rw [hread] at hnext
      exact ⟨_, skip_spreadMembers level k x (n :: ms) _, hnext⟩
  | _, _, 0, _, _, hfuel => nomatch hfuel
termination_by structural _ _ fuel => fuel

end

theorem read_spreadText (j : Json) (h : j.InRange) :
    Json.read j.spreadText = (ofJson (mapReals reread j), true) := by
  have hsteps := steps_le_length_spread 0 j h
  have hread := readValue_spread 0 j (2 * (spread 0 j).length + 2) [] h (by omega)
    (fun _ h => nomatch h)
  rw [List.append_nil] at hread
  simp [Json.read, spreadText, hread, skip]

end StatusLine.Json
