import StatusLine.Json.Reader

namespace StatusLine.Json

def letters : List Char := ['\x08', '\x0c', '\n', '\r', '\t']

/-- What a character is read as: controls without a letter of their own come back as numbers. -/
def pieceOf (c : Char) : Piece :=
  if c.toNat < 0x20 ∧ c ∉ letters then .unit c.toNat else .char c

theorem unit?_of_lt : ∀ n, n < 0x20 →
    unit? '0' '0' (hexDigit (n / 16)) (hexDigit (n % 16)) = some n := by
  decide

theorem pieces_plain {c : Char} (rest : List Char) (hquote : c ≠ '"') (hslash : c ≠ '\\')
    (hlow : ¬ c.toNat < 0x20) :
    pieces (c :: rest) = (pieces rest).map fun r => (.char c :: r.1, r.2) := by
  rw [pieces] <;> simp [hquote, hslash, hlow]

theorem pieces_letter {e c : Char} (rest : List Char) (hu : e ≠ 'u') (h : escape? e = some c) :
    pieces ('\\' :: e :: rest) = (pieces rest).map fun r => (.char c :: r.1, r.2) := by
  rw [pieces]
  · simp only [h]
    cases pieces rest <;> rfl
  · simp [hu]

theorem pieces_unit {a b c d : Char} {n : Nat} (rest : List Char) (h : unit? a b c d = some n) :
    pieces ('\\' :: 'u' :: a :: b :: c :: d :: rest) =
      (pieces rest).map fun r => (.unit n :: r.1, r.2) := by
  rw [pieces]
  simp only [h]
  cases pieces rest <;> rfl

theorem pieces_escapedChar (c : Char) (rest : List Char) :
    pieces (escapedChar c ++ rest) = (pieces rest).map fun r => (pieceOf c :: r.1, r.2) := by
  by_cases hspecial : c ∈ '"' :: '\\' :: letters
  · simp only [letters, List.mem_cons, List.not_mem_nil, or_false] at hspecial
    rcases hspecial with rfl | rfl | rfl | rfl | rfl | rfl | rfl
    all_goals exact pieces_letter rest (by decide) rfl
  · simp only [List.mem_cons, not_or] at hspecial
    obtain ⟨hquote, hslash, hletter⟩ := hspecial
    have hnone := hletter
    simp only [letters, List.mem_cons, List.not_mem_nil, or_false, not_or] at hnone
    by_cases hlow : c.toNat < 0x20
    · have hesc : escapedChar c = ['\\', 'u', '0', '0', hexDigit (c.toNat / 16),
          hexDigit (c.toNat % 16)] := by
        simp [escapedChar, hquote, hslash, hnone, hlow]
      have hpiece : pieceOf c = .unit c.toNat := if_pos ⟨hlow, hletter⟩
      rw [hesc, hpiece]
      exact pieces_unit rest (unit?_of_lt c.toNat hlow)
    · have hesc : escapedChar c = [c] := by
        simp [escapedChar, hquote, hslash, hnone, hlow]
      have hpiece : pieceOf c = .char c := if_neg fun h => hlow h.1
      rw [hesc, hpiece]
      exact pieces_plain rest hquote hslash hlow

theorem pieces_escaped (cs rest : List Char) :
    pieces (cs.flatMap escapedChar ++ '"' :: rest) = some (cs.map pieceOf, rest) := by
  induction cs with
  | nil => rw [List.flatMap_nil, List.nil_append, pieces]; rfl
  | cons c cs ih =>
      rw [List.flatMap_cons, List.append_assoc, pieces_escapedChar, ih]
      rfl

theorem characters_unit {n : Nat} (ps : List Piece) (h : n < 0xD800) :
    characters (.unit n :: ps) = (characters ps).map (Char.ofNat n :: ·) := by
  have hhigh : isHigh n = false := by simp [isHigh]; omega
  have hlow : isLow n = false := by simp [isLow]; omega
  match ps with
  | [] => simp [characters, hhigh, hlow]
  | .char c :: ps => simp [characters, hhigh, hlow]
  | .unit m :: ps => rw [characters]; simp [hhigh, hlow]

theorem characters_pieces (cs : List Char) : characters (cs.map pieceOf) = some cs := by
  induction cs with
  | nil => rfl
  | cons c cs ih =>
      rw [List.map_cons, pieceOf]
      split
      · rename_i h
        rw [characters_unit _ (by omega), ih]
        simp [Char.ofNat_toNat]
      · rw [characters, ih]
        rfl

theorem readString_escaped (s : String) (rest : List Char) :
    readString (s.toList.flatMap escapedChar ++ '"' :: rest) = (.text s, rest) := by
  simp [readString, pieces_escaped, characters_pieces]

end StatusLine.Json
