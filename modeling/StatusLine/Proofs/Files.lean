import StatusLine.Files.System

namespace StatusLine.FileSystem

theorem lookup_others (nodes : List (Location × FileNode)) {l k : Location} (h : k ≠ l) :
    (nodes.filter fun e => e.1 ≠ l).lookup k = nodes.lookup k := by
  induction nodes with
  | nil => rfl
  | cons e rest ih =>
      by_cases he : e.1 = l
      · have hk : (k == e.1) = false := by simpa [he] using h
        rw [List.filter_cons_of_neg (by simpa using he), List.lookup_cons, hk, ih]
      · rw [List.filter_cons_of_pos (by simpa using he), List.lookup_cons, List.lookup_cons, ih]

theorem node?_place_self (fs : FileSystem) {l : Location} (n : FileNode) (h : l ≠ []) :
    (fs.place l n).node? l = some n := by
  simp [node?, place, h]

theorem node?_place_of_ne (fs : FileSystem) {l k : Location} (n : FileNode) (h : k ≠ l) :
    (fs.place l n).node? k = fs.node? k := by
  have hne : (k == l) = false := beq_eq_false_iff_ne.mpr h
  simp only [node?, place, List.lookup_cons, hne, lookup_others fs.nodes h]

/-- Every place of one file system is one of the other, and directories are directories. -/
structure Embeds (fs gs : FileSystem) : Prop where
  working : gs.working = fs.working
  directory : ∀ l, fs.isDirectory l = true → gs.isDirectory l = true
  present : ∀ l, (fs.node? l).isSome = true → (gs.node? l).isSome = true

variable {fs gs : FileSystem}

theorem step_of_embeds (h : Embeds fs gs) {l k : Location} {piece : List Char}
    (hstep : fs.step l piece = some k) : gs.step l piece = some k := by
  unfold step at hstep ⊢
  cases hdir : fs.isDirectory l with
  | false => simp [hdir] at hstep
  | true =>
      simp only [hdir, h.directory l hdir, Bool.not_true, Bool.false_eq_true, if_false] at hstep ⊢
      by_cases hcounts : Path.counts piece = true
      · by_cases hup : piece = ['.', '.']
        · simpa [hcounts, hup] using hstep
        · simp only [hcounts, hup, Bool.not_true, Bool.false_eq_true, if_false] at hstep ⊢
          split at hstep
          · rename_i hthere
            rw [if_pos (h.present _ hthere)]
            exact hstep
          · cases hstep
      · simpa [hcounts] using hstep

theorem walk_of_embeds (h : Embeds fs gs) {l k : Location} {pieces : List (List Char)}
    (hwalk : fs.walk l pieces = some k) : gs.walk l pieces = some k := by
  induction pieces generalizing l with
  | nil => exact hwalk
  | cons piece rest ih =>
      simp only [walk, Option.bind_eq_some_iff] at hwalk ⊢
      obtain ⟨m, hstep, hrest⟩ := hwalk
      exact ⟨m, step_of_embeds h hstep, ih hrest⟩

theorem walk_append (fs : FileSystem) (l : Location) (a b : List (List Char)) :
    fs.walk l (a ++ b) = (fs.walk l a).bind fun k => fs.walk k b := by
  induction a generalizing l with
  | nil => rfl
  | cons piece rest ih => simp [walk, ih, Option.bind_assoc]

theorem start_of_embeds (h : Embeds fs gs) (p : String) : gs.start p = fs.start p := by
  rw [start, start, h.working]

theorem locate_of_embeds (h : Embeds fs gs) {p : String} {l : Location}
    (hlocate : fs.locate p = some l) : gs.locate p = some l := by
  unfold locate at hlocate ⊢
  split at hlocate
  · cases hlocate
  · rename_i hempty
    rw [if_neg hempty, start_of_embeds h]
    exact walk_of_embeds h hlocate

theorem embeds_place_file {l : Location} (text : String) (hfree : fs.isDirectory l = false) :
    Embeds fs (fs.place l (.file text)) where
  working := rfl
  directory k hk := by
    have hne : k ≠ l := by
      rintro rfl
      rw [hfree] at hk
      cases hk
    rw [isDirectory, node?_place_of_ne fs _ hne]
    exact hk
  present k hk := by
    by_cases heq : k = l
    · subst heq
      have hroot : k ≠ [] := by
        rintro rfl
        cases hfree
      rw [node?_place_self fs _ hroot]
      rfl
    · rw [node?_place_of_ne fs _ heq]
      exact hk

theorem target_eq_some {p : String} {l : Location} (h : fs.target p = some l) :
    ∃ before name d, Path.pieces p = before ++ [name] ∧ Path.counts name = true ∧
      name ≠ ['.', '.'] ∧ fs.walk (fs.start p) before = some d ∧ fs.isDirectory d = true ∧
      l = d ++ [name] := by
  unfold target at h
  split at h
  · cases h
  · rename_i name rest hreverse
    split at h
    · cases h
    · rename_i hname
      simp only [Bool.not_eq_true', not_or, Bool.not_eq_false] at hname
      split at h
      · rename_i d hwalk
        split at h
        · rename_i hdir
          refine ⟨rest.reverse, name, d, ?_, hname.1, hname.2, hwalk, hdir,
            (Option.some.inj h).symm⟩
          rw [← List.reverse_reverse (Path.pieces p), hreverse, List.reverse_cons]
        · cases h
      · cases h

theorem locate_of_target (h : Embeds fs gs) {p : String} {l : Location}
    (htarget : fs.target p = some l) (hthere : (gs.node? l).isSome = true) :
    gs.locate p = some l := by
  obtain ⟨before, name, d, hpieces, hcounts, hup, hwalk, hdir, rfl⟩ := target_eq_some htarget
  have hempty : ¬ p.isEmpty = true := by
    intro hp
    rw [String.isEmpty_iff] at hp
    subst hp
    have hnil : [[]] = before ++ [name] := hpieces
    have hlast := congrArg List.getLast? hnil
    simp only [List.getLast?_append, List.getLast?_singleton] at hlast
    cases hlast
    cases hcounts
  have hstep : gs.step d name = some (d ++ [name]) := by
    simp [step, h.directory d hdir, hcounts, hup, hthere]
  rw [locate, if_neg hempty, start_of_embeds h, hpieces, walk_append, walk_of_embeds h hwalk]
  simp [walk, hstep]

theorem write_eq_some {p text : String} (h : fs.write p text = some gs) :
    ∃ l, fs.target p = some l ∧ fs.isDirectory l = false ∧ gs = fs.place l (.file text) := by
  unfold write at h
  split at h
  · rename_i l htarget
    split at h
    · cases h
    · rename_i hfree
      exact ⟨l, htarget, Bool.eq_false_iff.mpr hfree, (Option.some.inj h).symm⟩
  · cases h

theorem locate_write {p text : String} (h : fs.write p text = some gs) :
    gs.working = fs.working ∧
      ∃ l, gs.locate p = some l ∧ gs.node? l = some (.file text) := by
  obtain ⟨l, htarget, hfree, rfl⟩ := write_eq_some h
  have hroot : l ≠ [] := by
    rintro rfl
    cases hfree
  have hnode := node?_place_self fs (.file text) hroot
  -- The way to the file is the same as before the write, which takes no directory away.
  have hlocate := locate_of_target (embeds_place_file text hfree) htarget (by rw [hnode]; rfl)
  exact ⟨rfl, l, hlocate, hnode⟩

theorem read_of_locate {p text : String} {l : Location} (hlocate : fs.locate p = some l)
    (hnode : fs.node? l = some (.file text)) : fs.read p = some text := by
  simp [read, hlocate, hnode]

theorem read_write {p text : String} (h : fs.write p text = some gs) : gs.read p = some text := by
  obtain ⟨-, l, hlocate, hnode⟩ := locate_write h
  exact read_of_locate hlocate hnode

/-- Nothing is taken away or replaced, and no file is added. -/
structure Keeps (fs gs : FileSystem) : Prop where
  working : gs.working = fs.working
  node : ∀ l n, fs.node? l = some n → gs.node? l = some n
  file : ∀ l text, gs.node? l = some (.file text) → fs.node? l = some (.file text)

theorem Keeps.refl (fs : FileSystem) : Keeps fs fs :=
  ⟨rfl, fun _ _ h => h, fun _ _ h => h⟩

theorem Keeps.trans {hs : FileSystem} (h : Keeps fs gs) (h' : Keeps gs hs) : Keeps fs hs :=
  ⟨h'.working.trans h.working, fun l n hl => h'.node l n (h.node l n hl),
    fun l text hl => h.file l text (h'.file l text hl)⟩

def SameFiles (fs gs : FileSystem) : Prop :=
  ∀ l text, gs.node? l = some (.file text) ↔ fs.node? l = some (.file text)

theorem Keeps.sameFiles (h : Keeps fs gs) : fs.SameFiles gs :=
  fun l text => ⟨h.file l text, h.node l (.file text)⟩

theorem Keeps.embeds (h : Keeps fs gs) : Embeds fs gs where
  working := h.working
  directory l hl := by
    rw [isDirectory, beq_iff_eq] at hl ⊢
    exact h.node l .directory hl
  present l hl := by
    obtain ⟨n, hn⟩ := Option.isSome_iff_exists.mp hl
    rw [h.node l n hn]
    rfl

theorem Keeps.read (h : Keeps fs gs) {p text : String} (hread : fs.read p = some text) :
    gs.read p = some text := by
  unfold FileSystem.read at hread
  split at hread
  · rename_i t hnode
    obtain ⟨l, hlocate, hl⟩ := Option.bind_eq_some_iff.mp hnode
    have hgs := locate_of_embeds h.embeds hlocate
    simp only [FileSystem.read, hgs, Option.bind_some, h.node l _ hl]
    exact hread
  · cases hread

theorem keeps_place_directory {l : Location} (h : fs.node? l = none) :
    Keeps fs (fs.place l .directory) where
  working := rfl
  node k n hk := by
    have hne : k ≠ l := by
      rintro rfl
      rw [h] at hk
      cases hk
    rw [node?_place_of_ne fs _ hne]
    exact hk
  file k text hk := by
    by_cases heq : k = l
    · subst heq
      have hroot : k ≠ [] := by
        rintro rfl
        cases h
      rw [node?_place_self fs _ hroot] at hk
      cases hk
    · rwa [node?_place_of_ne fs _ heq] at hk

theorem keeps_makeAlong (fs : FileSystem) (l : Location) (pieces : List (List Char)) :
    Keeps fs (fs.makeAlong l pieces).2 := by
  induction pieces generalizing fs l with
  | nil => exact .refl fs
  | cons piece rest ih =>
      unfold makeAlong
      split
      · exact .refl fs
      · split
        · exact ih fs l
        · split
          · exact ih fs l.dropLast
          · split
            · exact ih fs (l ++ [piece])
            · rename_i hthere
              have hfree : fs.node? (l ++ [piece]) = none := by simpa using hthere
              exact (keeps_place_directory hfree).trans (ih _ (l ++ [piece]))

end StatusLine.FileSystem
