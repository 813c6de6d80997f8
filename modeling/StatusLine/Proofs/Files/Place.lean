import Mathlib.Data.List.DropRight
import StatusLine.Proofs.Files

/-!
Where a path leads from different directories. An absolute one leads to the same place; a relative
one does just when it climbs out of all that the directories differ in, through directories.
-/

namespace StatusLine

namespace Path

def enter (l : Location) (piece : List Char) : Location :=
  if !counts piece then l
  else if piece = ['.', '.'] then l.dropLast
  else l ++ [piece]

/-- How many names of its beginning a way has left behind, and the names it has come through
since. -/
def leave (way : Nat × Location) (piece : List Char) : Nat × Location :=
  if !counts piece then way
  else if piece = ['.', '.'] then
    if way.2.isEmpty then (way.1 + 1, []) else (way.1, way.2.dropLast)
  else (way.1, way.2 ++ [piece])

/-- How many names of the directory that it begins in a path leaves behind. -/
def climbs (p : String) : Nat := ((pieces p).foldl leave (0, [])).1

theorem dropLast_rdrop {α : Type} (l : List α) (k : Nat) :
    (l.rdrop k).dropLast = l.rdrop (k + 1) := by
  simp only [List.rdrop, List.dropLast_eq_take, List.length_take, List.take_take]
  congr 1
  omega

theorem enter_leave (base : Location) (way : Nat × Location) (piece : List Char) :
    enter (base.rdrop way.1 ++ way.2) piece =
      base.rdrop (leave way piece).1 ++ (leave way piece).2 := by
  obtain ⟨k, names⟩ := way
  unfold enter leave
  split
  · rfl
  · split
    · cases names using List.reverseRecOn with
      | nil => simp [dropLast_rdrop]
      | append_singleton names name => simp
    · simp

theorem foldl_enter (base : Location) (ps : List (List Char)) (way : Nat × Location) :
    ps.foldl enter (base.rdrop way.1 ++ way.2) =
      base.rdrop (ps.foldl leave way).1 ++ (ps.foldl leave way).2 := by
  induction ps generalizing way with
  | nil => rfl
  | cons piece ps ih => rw [List.foldl_cons, enter_leave, ih, List.foldl_cons]

theorem foldl_enter_eq_iff (base other : Location) (p : String) :
    (pieces p).foldl enter base = (pieces p).foldl enter other ↔
      base.rdrop (climbs p) = other.rdrop (climbs p) := by
  have hbase := foldl_enter base (pieces p) (0, [])
  have hother := foldl_enter other (pieces p) (0, [])
  simp only [List.rdrop_zero, List.append_nil] at hbase hother
  rw [hbase, hother, List.append_left_inj, climbs]

theorem same_refl (p : String) : same p p = true := by simp [same]

/-- The last piece of a path names something there, rather than a directory on the way. -/
def EndsInName (p : String) : Prop := ∀ piece ∈ (pieces p).getLast?, counts piece = true

theorem pieces_append_slash (d p : String) : pieces (d ++ "/" ++ p) = pieces d ++ pieces p := by
  have hslash : "/".toList = ['/'] := rfl
  rw [pieces, String.toList_append, String.toList_append, hslash, List.append_assoc,
    List.singleton_append, List.splitOn_append_cons_self, pieces, pieces]

theorem endsInName_join (d : String) {p : String} (hne : pieces p ≠ []) (h : EndsInName p) :
    EndsInName (join d p) := by
  have happend (ps : List (List Char)) : (ps ++ pieces p).getLast? = (pieces p).getLast? := by
    rw [List.getLast?_append_of_ne_nil ps hne]
  unfold EndsInName join
  split
  · exact h
  · split
    · rename_i hslash
      obtain ⟨cs, hcs⟩ := List.getLast?_eq_some_iff.mp hslash
      have hpieces : pieces (d ++ p) = cs.splitOn '/' ++ pieces p := by
        rw [pieces, String.toList_append, hcs, List.append_assoc, List.singleton_append,
          List.splitOn_append_cons_self, pieces]
      rwa [hpieces, happend]
    · rwa [pieces_append_slash, happend]

end Path

namespace FileSystem

variable {fs gs : FileSystem}

theorem enter_of_step {l k : Location} {piece : List Char} (h : fs.step l piece = some k) :
    fs.isDirectory l = true ∧ Path.enter l piece = k := by
  unfold step at h
  split at h
  · cases h
  · rename_i hdir
    refine ⟨by simpa using hdir, ?_⟩
    unfold Path.enter
    split at h
    · rename_i hcounts
      rw [if_pos hcounts]
      exact Option.some.inj h
    · rename_i hcounts
      rw [if_neg hcounts]
      split at h
      · rename_i hup
        rw [if_pos hup]
        exact Option.some.inj h
      · rename_i hup
        rw [if_neg hup]
        split at h
        · exact Option.some.inj h
        · cases h

/-- The way leads on through directories; at its end there may be anything, or nothing. -/
def Passes (fs : FileSystem) : Location → List (List Char) → Prop
  | _, [] => True
  | l, piece :: rest => fs.isDirectory l = true ∧ fs.Passes (Path.enter l piece) rest

theorem passes_of_walk {l k : Location} {ps : List (List Char)} (h : fs.walk l ps = some k) :
    fs.Passes l ps ∧ ps.foldl Path.enter l = k := by
  induction ps generalizing l with
  | nil => exact ⟨trivial, Option.some.inj h⟩
  | cons piece ps ih =>
      obtain ⟨m, hstep, hrest⟩ := Option.bind_eq_some_iff.mp h
      obtain ⟨hdir, rfl⟩ := enter_of_step hstep
      obtain ⟨hpasses, hend⟩ := ih hrest
      exact ⟨⟨hdir, hpasses⟩, hend⟩

theorem isSome_node?_of_passes {l : Location} {ps : List (List Char)} (h : fs.Passes l ps)
    (hend : (fs.node? (ps.foldl Path.enter l)).isSome = true) : (fs.node? l).isSome = true := by
  cases ps with
  | nil => exact hend
  | cons piece ps => rw [beq_iff_eq.mp h.1]; rfl

theorem step_enter {l : Location} {piece : List Char} (hdir : fs.isDirectory l = true)
    (hthere : (fs.node? (Path.enter l piece)).isSome = true) :
    fs.step l piece = some (Path.enter l piece) := by
  unfold Path.enter at hthere ⊢
  simp only [step, hdir, Bool.not_true, Bool.false_eq_true, if_false]
  split
  · rfl
  · rename_i hcounts
    rw [if_neg hcounts] at hthere
    split
    · rfl
    · rename_i hup
      rw [if_neg hup] at hthere
      rw [if_pos hthere]

theorem walk_of_passes {l : Location} {ps : List (List Char)} (h : fs.Passes l ps)
    (hend : (fs.node? (ps.foldl Path.enter l)).isSome = true) :
    fs.walk l ps = some (ps.foldl Path.enter l) := by
  induction ps generalizing l with
  | nil => rfl
  | cons piece ps ih =>
      obtain ⟨hdir, hrest⟩ := h
      rw [walk, step_enter hdir (isSome_node?_of_passes hrest hend), Option.bind_some]
      exact ih hrest hend

theorem walk_eq_some_iff {l k : Location} {ps : List (List Char)}
    (hthere : (fs.node? k).isSome = true) :
    fs.walk l ps = some k ↔ fs.Passes l ps ∧ ps.foldl Path.enter l = k := by
  constructor
  · exact passes_of_walk
  · rintro ⟨hpasses, rfl⟩
    exact walk_of_passes hpasses hthere

theorem walk_filter (fs : FileSystem) (l : Location) (ps : List (List Char))
    (h : ∀ piece ∈ ps.getLast?, Path.counts piece = true) :
    fs.walk l (ps.filter Path.counts) = fs.walk l ps := by
  induction ps generalizing l with
  | nil => rfl
  | cons piece rest ih =>
      cases rest with
      | nil =>
          have hcounts : Path.counts piece = true := h piece (by simp)
          simp [hcounts]
      | cons next rest =>
          have hrest (l : Location) := ih l (by simpa using h)
          cases hcounts : Path.counts piece with
          | true => simp only [List.filter_cons_of_pos hcounts, walk, hrest]
          | false =>
              have hskip : ¬ Path.counts piece = true := by simp [hcounts]
              rw [List.filter_cons_of_neg hskip, hrest]
              -- A piece that says nothing asks for a directory, and so does the one behind it.
              cases hdir : fs.isDirectory l with
              | true => simp [walk, step, hdir, hcounts]
              | false => simp [walk, step, hdir]

theorem walk_components (fs : FileSystem) (l : Location) {p : String} (h : Path.EndsInName p) :
    fs.walk l (Path.components p) = fs.walk l (Path.pieces p) := by
  unfold Path.EndsInName at h
  unfold Path.components
  split
  · rename_i rest heq
    rw [heq] at h ⊢
    cases rest with
    | nil => rfl
    | cons next rest =>
        have hrest (l : Location) := fs.walk_filter l (next :: rest) (by simpa using h)
        simp only [walk, hrest]
  · exact fs.walk_filter l _ h

theorem isEmpty_of_endsInName {p : String} (h : Path.EndsInName p) : p.isEmpty = false := by
  by_contra hempty
  rw [Bool.not_eq_false, String.isEmpty_iff] at hempty
  subst hempty
  exact absurd (h [] rfl) (by decide)

theorem locate_of_same {p q : String} (h : Path.same p q = true) (hp : Path.EndsInName p)
    (hq : Path.EndsInName q) : fs.locate p = fs.locate q := by
  simp only [Path.same, Bool.and_eq_true, beq_iff_eq] at h
  simp only [locate, isEmpty_of_endsInName hp, isEmpty_of_endsInName hq, ← walk_components fs _ hp,
    ← walk_components fs _ hq, start, h.1, h.2]

def movedTo (fs : FileSystem) (l : Location) : FileSystem := { fs with working := l }

theorem walk_movedTo (fs : FileSystem) (l k : Location) (ps : List (List Char)) :
    (fs.movedTo l).walk k ps = fs.walk k ps := by
  induction ps generalizing k with
  | nil => rfl
  | cons piece ps ih =>
      simp only [walk, ih]
      rfl

theorem isEmpty_of_locate {p : String} {l : Location} (h : fs.locate p = some l) :
    p.isEmpty = false := by
  unfold locate at h
  split at h
  · cases h
  · rwa [← Bool.not_eq_true]

theorem locate_movedTo_iff (elsewhere : Location) {p : String} {l : Location}
    (h : fs.locate p = some l) (hthere : (fs.node? l).isSome = true) :
    (fs.movedTo elsewhere).locate p = some l ↔
      Path.isAbsolute p = true ∨
        elsewhere.rdrop (Path.climbs p) = fs.working.rdrop (Path.climbs p) ∧
          fs.Passes elsewhere (Path.pieces p) := by
  have hempty := isEmpty_of_locate h
  simp only [locate, hempty, Bool.false_eq_true, if_false, walk_movedTo] at h ⊢
  cases habsolute : Path.isAbsolute p with
  | true =>
      simp only [start, habsolute, if_true] at h
      simp [start, habsolute, h]
  | false =>
      simp only [start, habsolute, Bool.false_eq_true, if_false] at h ⊢
      rw [walk_eq_some_iff hthere, ← (passes_of_walk h).2, Path.foldl_enter_eq_iff]
      simp [movedTo, and_comm]

theorem endsInName_of_write {p text : String} (h : fs.write p text = some gs) :
    Path.EndsInName p := by
  obtain ⟨l, htarget, -, -⟩ := write_eq_some h
  obtain ⟨before, name, d, hpieces, hcounts, -⟩ := target_eq_some htarget
  intro piece hpiece
  rw [hpieces, List.getLast?_concat, Option.mem_some_iff] at hpiece
  rwa [← hpiece]

end FileSystem

end StatusLine
