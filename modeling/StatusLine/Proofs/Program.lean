import StatusLine.Program
import StatusLine.Proofs.Files

/-!
What the commands do to files, on a host that may refuse a run some of its file operations.
-/

namespace StatusLine

/-- What is refused to a run: the write of a file, and the making of directories behind the first
pieces of a path. -/
structure Faults where
  write : Bool
  making : Option Nat

def Faults.none : Faults := ⟨false, Option.none⟩

/-- The file operations of a file system on which some are refused: a file write has no effect then,
and directories that were made before a refusal stay. -/
def FileSystem.refusing (f : Faults) : FileAccess (StateM FileSystem) where
  has p := fun fs => (fs.has p, fs)
  read p := fun fs => (fs.read p, fs)
  write p text := fun fs => if f.write then (false, fs) else FileSystem.access.write p text fs
  makeDirectories p := fun fs =>
    match f.making with
    | some most => (false, (fs.makeAlong (fs.start p) ((Path.pieces p).take most)).2)
    | none => fs.makeDirectories p

theorem FileSystem.refusing_none : FileSystem.refusing .none = FileSystem.access := rfl

namespace Program

open FileSystem (refusing access Keeps)

theorem run_bind {α β : Type} (x : StateM FileSystem α) (g : α → StateM FileSystem β)
    (fs : FileSystem) :
    (x >>= g).run fs = (g (x.run fs).1).run (x.run fs).2 := rfl

def Leaves {α : Type} (x : StateM FileSystem α) : Prop := ∀ fs, (x.run fs).2 = fs

theorem Leaves.pure {α : Type} (a : α) : Leaves (Pure.pure a : StateM FileSystem α) := fun _ => rfl

theorem Leaves.bind {α β : Type} {x : StateM FileSystem α} {g : α → StateM FileSystem β}
    (hx : Leaves x) (hg : ∀ a, Leaves (g a)) : Leaves (x >>= g) := by
  intro fs
  rw [run_bind, hg, hx]

variable (f : Faults)

theorem leaves_has (p : String) : Leaves ((refusing f).has p) := fun _ => rfl

theorem leaves_read (p : String) : Leaves ((refusing f).read p) := fun _ => rfl

theorem leaves_firstThere (ps : List String) : Leaves (firstThere (refusing f) ps) := by
  induction ps with
  | nil => exact .pure _
  | cons p rest ih =>
      refine .bind (leaves_has f p) fun there => ?_
      split
      · exact .pure _
      · exact ih

theorem leaves_readConfig (p : String) : Leaves (readConfig (refusing f) p) := by
  refine .bind (leaves_read f p) fun text => ?_
  cases text <;> exact .pure _

theorem leaves_loadConfig (env : Environment) (path : Option String) :
    Leaves (loadConfig (refusing f) env path) := by
  cases path with
  | some p => exact leaves_readConfig f p
  | none =>
      refine .bind (leaves_firstThere f env.configCandidates) fun p => ?_
      cases p with
      | some p => exact leaves_readConfig f p
      | none => exact .pure _

theorem leaves_readSnapshot (p : String) : Leaves (readSnapshot (refusing f) p) := by
  refine .bind (leaves_read f p) fun text => ?_
  cases text <;> exact .pure _

theorem leaves_draw (setup : Setup) (given : Option String)
    (line : Statusbar → Registry → String) : Leaves (draw (refusing f) setup given line) := by
  unfold draw
  split
  · exact .pure _
  · refine .bind (leaves_readSnapshot f _) fun c => ?_
    cases c <;> exact .pure _

theorem keeps_makeDirectories (p : String) (fs : FileSystem) :
    Keeps fs (((refusing f).makeDirectories p).run fs).2 := by
  cases hmaking : f.making with
  | some most =>
      simp only [refusing, StateT.run, hmaking]
      exact FileSystem.keeps_makeAlong fs _ _
  | none =>
      simp only [refusing, StateT.run, hmaking]
      exact FileSystem.keeps_makeAlong fs _ _

theorem write_cases (p text : String) (fs : FileSystem) :
    ((refusing f).write p text).run fs = (false, fs) ∨
      ∃ gs, fs.write p text = some gs ∧ ((refusing f).write p text).run fs = (true, gs) := by
  cases hfault : f.write with
  | true =>
      left
      simp only [refusing, StateT.run, hfault, if_true]
  | false =>
      cases hwrite : fs.write p text with
      | none =>
          left
          simp only [refusing, access, StateT.run, hfault, hwrite, Bool.false_eq_true, if_false]
      | some gs =>
          right
          refine ⟨gs, rfl, ?_⟩
          simp only [refusing, access, StateT.run, hfault, hwrite, Bool.false_eq_true, if_false]

theorem keeps_prepare (path : String) (fs : FileSystem) :
    Keeps fs ((prepare (refusing f) path).run fs).2 := by
  unfold prepare
  split
  · rename_i directory _
    have hkeeps := keeps_makeDirectories f directory fs
    rw [run_bind]
    split
    · exact hkeeps
    · exact hkeeps
  · exact .refl fs

theorem writeSnapshot_cases (c : Config) (path : String) (fs : FileSystem) :
    (∃ e gs, (writeSnapshot (refusing f) c path).run fs = (.error e, gs) ∧ Keeps fs gs) ∨
      ∃ mid gs, (writeSnapshot (refusing f) c path).run fs = (.ok (), gs) ∧ Keeps fs mid ∧
        mid.write path (Snapshot.write c) = some gs := by
  have hkeeps := keeps_prepare f path fs
  unfold writeSnapshot
  rw [run_bind]
  generalize (prepare (refusing f) path).run fs = r at hkeeps ⊢
  obtain ⟨answer, mid⟩ := r
  cases answer with
  | error e => exact .inl ⟨e, mid, rfl, hkeeps⟩
  | ok u =>
      simp only
      rw [run_bind]
      rcases write_cases f path (Snapshot.write c) mid with hrefused | ⟨gs, hwrite, hdone⟩
      · rw [hrefused]
        exact .inl ⟨.file path, mid, rfl, hkeeps⟩
      · rw [hdone]
        exact .inr ⟨mid, gs, rfl, hkeeps, hwrite⟩

theorem lines_singleton (text : String) : lines [text] = text ++ "\n" := by
  simp [lines, String.join]

theorem firstThere_refusing (ps : List String) :
    firstThere (refusing f) ps = firstThere access ps := by
  induction ps with
  | nil => rfl
  | cons p rest ih =>
      rw [firstThere, firstThere, ih]
      rfl

theorem loadConfig_refusing (env : Environment) (path : Option String) :
    loadConfig (refusing f) env path = loadConfig access env path := by
  cases path with
  | some p => rfl
  | none =>
      simp only [loadConfig, userConfigPath, firstThere_refusing]
      rfl

theorem apply_cases (setup : Setup) (given config : Option String) (fs : FileSystem) :
    (∃ e gs, (apply (refusing f) setup given config).run fs = (.error e, gs) ∧ Keeps fs gs) ∨
      ∃ c path mid gs, ((loadConfig access setup.env config).run fs).1 = .ok c ∧
        snapshotPath setup.env given = .ok path ∧ Keeps fs mid ∧
        mid.write path (Snapshot.write c) = some gs ∧
        (apply (refusing f) setup given config).run fs =
          (.ok ((Host.commands c (callback setup path)).map Host.Command.line), gs) := by
  have hleaves := leaves_loadConfig f setup.env config fs
  have hload := congrArg (fun x => (x.run fs).1) (loadConfig_refusing f setup.env config)
  unfold apply
  rw [run_bind, hleaves, hload]
  generalize ((loadConfig access setup.env config).run fs).1 = loaded
  cases loaded with
  | error e => exact .inl ⟨.config e, fs, rfl, .refl fs⟩
  | ok c =>
      cases hpath : snapshotPath setup.env given with
      | error e => exact .inl ⟨.config e, fs, rfl, .refl fs⟩
      | ok path =>
          simp only
          rw [run_bind]
          rcases writeSnapshot_cases f c path fs with
            ⟨e, gs, hrun, hkeeps⟩ | ⟨mid, gs, hrun, hkeeps, hwrite⟩
          · rw [hrun]
            exact .inl ⟨.config e, gs, rfl, hkeeps⟩
          · rw [hrun]
            exact .inr ⟨c, path, mid, gs, rfl, rfl, hkeeps, hwrite, rfl⟩

theorem run_apply (setup : Setup) {given config : Option String} {path : String}
    {fs gs : FileSystem} {c : Config}
    (hload : ((loadConfig access setup.env config).run fs).1 = .ok c)
    (hpath : snapshotPath setup.env given = .ok path)
    (hwrite : (writeSnapshot (refusing f) c path).run fs = (.ok (), gs)) :
    (apply (refusing f) setup given config).run fs =
      (.ok ((Host.commands c (callback setup path)).map Host.Command.line), gs) := by
  have hleaves := leaves_loadConfig f setup.env config fs
  have hsame := congrArg (fun x => (x.run fs).1) (loadConfig_refusing f setup.env config)
  unfold apply
  rw [run_bind, hleaves, hsame, hload]
  simp only [hpath]
  rw [run_bind, hwrite]
  rfl

theorem run_draw (setup : Setup) {given : Option String} {path : String}
    (line : Statusbar → Registry → String) {fs : FileSystem} {text : String} {c : Config}
    (hpath : snapshotPath setup.env given = .ok path) (hread : fs.read path = some text)
    (hconfig : Snapshot.read text = .ok c) :
    (draw (refusing f) setup given line).run fs =
      (.ok [line c.statusbar (Provider.builtins setup.now)], fs) := by
  have hsnapshot : (readSnapshot (refusing f) path).run fs = (.ok c, fs) := by
    have hfile : ((refusing f).read path).run fs = (some text, fs) := congrArg (·, fs) hread
    unfold readSnapshot
    rw [run_bind, hfile]
    simp only [hconfig]
    rfl
  unfold draw
  simp only [hpath]
  rw [run_bind, hsnapshot]
  rfl

theorem leaves_perform (setup : Setup) (i : Invocation) (h : ∀ config, i.command ≠ .apply config) :
    Leaves (perform (refusing f) setup i) := by
  unfold perform
  split
  · exact leaves_draw f setup _ _
  · exact leaves_draw f setup _ _
  · rename_i config heq
    exact absurd heq (h config)
  · exact .bind (leaves_firstThere f setup.env.configCandidates) fun p => .pure _

end Program

end StatusLine
