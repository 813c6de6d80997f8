import StatusLine.Proofs.Snapshot

/-!
Runs of the program one after another on one file system. The snapshot holds the configuration that
the last successful `apply` loaded, and nothing but a successful `apply` changes a file.
-/

namespace StatusLine

open FileSystem (refusing access Keeps)
open Program (Outcome snapshotPath loadConfig)

structure Run where
  self : String
  now : Moment
  words : List String
  faults : Faults

namespace Run

def act (env : Environment) (r : Run) (fs : FileSystem) : Outcome × FileSystem :=
  (Program.run (refusing r.faults) ⟨env, r.self, r.now⟩ r.words).run fs

def loaded? (env : Environment) (r : Run) (fs : FileSystem) : Option Config :=
  match CommandLine.parse r.words with
  | .ok ⟨.apply config, _⟩ => ((loadConfig access env config).run fs).1.toOption
  | _ => none

def isApply (r : Run) : Bool :=
  match CommandLine.parse r.words with
  | .ok ⟨.apply _, _⟩ => true
  | _ => false

def applies (env : Environment) (r : Run) (fs : FileSystem) : Bool :=
  r.isApply && (r.act env fs).1.status == 0

def drawn? (r : Run) (b : Statusbar) : Option String :=
  match CommandLine.parse r.words with
  | .ok ⟨.side side active, _⟩ => some (b.sideText (Provider.builtins r.now) side active)
  | .ok ⟨.window kind, _⟩ => some (b.windowText (Provider.builtins r.now) kind)
  | _ => none

/-- The run keeps its snapshot at a path, if it needs one. -/
def UsesSnapshot (env : Environment) (path : String) (r : Run) : Prop :=
  ∀ i, CommandLine.parse r.words = .ok i → i.command ≠ .configPath →
    snapshotPath env i.snapshot = .ok path

end Run

structure World where
  files : FileSystem
  applied : Option Config

namespace World

def next (env : Environment) (w : World) (r : Run) : World where
  files := (r.act env w.files).2
  applied := if r.applies env w.files then r.loaded? env w.files else w.applied

def after (env : Environment) (fs : FileSystem) (runs : List Run) : World :=
  runs.foldl (next env) ⟨fs, none⟩

end World

namespace Run

variable {env : Environment} {r : Run} {fs : FileSystem}

def ended : Except Failure (List String) → Outcome
  | .ok ls => .printed ls
  | .error e => .failed e

theorem act_of_error {e : UsageError} (h : CommandLine.parse r.words = .error e) :
    r.act env fs = (.usage e, fs) := by
  unfold act Program.run
  rw [h]
  rfl

theorem act_of_ok (env : Environment) (fs : FileSystem) {i : Invocation}
    (h : CommandLine.parse r.words = .ok i) :
    r.act env fs =
      (ended ((Program.perform (refusing r.faults) ⟨env, r.self, r.now⟩ i).run fs).1,
        ((Program.perform (refusing r.faults) ⟨env, r.self, r.now⟩ i).run fs).2) := by
  unfold act Program.run
  rw [h]
  simp only [Program.run_bind]
  generalize (Program.perform (refusing r.faults) ⟨env, r.self, r.now⟩ i).run fs = result
  obtain ⟨answer, gs⟩ := result
  cases answer <;> rfl

theorem isApply_iff :
    r.isApply = true ↔ ∃ config given, CommandLine.parse r.words = .ok ⟨.apply config, given⟩ := by
  unfold isApply
  split
  · rename_i config given h
    simp [h]
  · rename_i h
    simp only [Bool.false_eq_true, false_iff, not_exists]
    exact h

theorem keeps_of_not_isApply (h : r.isApply = false) : Keeps fs (r.act env fs).2 := by
  cases hparse : CommandLine.parse r.words with
  | error e =>
      rw [act_of_error hparse]
      exact .refl fs
  | ok i =>
      rw [act_of_ok env fs hparse]
      have hleaves := Program.leaves_perform r.faults ⟨env, r.self, r.now⟩ i (by
        intro config hcommand
        have happly : r.isApply = true :=
          isApply_iff.mpr ⟨config, i.snapshot, by rw [hparse, ← hcommand]⟩
        rw [h] at happly
        cases happly) fs
      simp only
      rw [hleaves]
      exact .refl fs

theorem act_of_isApply (env : Environment) (fs : FileSystem) {config given : Option String}
    (h : CommandLine.parse r.words = .ok ⟨.apply config, given⟩) :
    ((r.act env fs).1.status = 1 ∧ Keeps fs (r.act env fs).2) ∨
      ((r.act env fs).1.status = 0 ∧ ∃ c path mid,
        ((loadConfig access env config).run fs).1 = .ok c ∧ snapshotPath env given = .ok path ∧
        Keeps fs mid ∧ mid.write path (Snapshot.write c) = some (r.act env fs).2 ∧
        (r.act env fs).1 = .printed
          ((Host.commands c (Program.callback ⟨env, r.self, r.now⟩ path)).map
            Host.Command.line)) := by
  rw [act_of_ok env fs h]
  have happly : Program.perform (refusing r.faults) ⟨env, r.self, r.now⟩ ⟨.apply config, given⟩ =
      Program.apply (refusing r.faults) ⟨env, r.self, r.now⟩ given config := rfl
  rw [happly]
  rcases Program.apply_cases r.faults ⟨env, r.self, r.now⟩ given config fs with
    ⟨e, gs, hrun, hkeeps⟩ | ⟨c, path, mid, gs, hload, hpath, hkeeps, hwrite, hrun⟩
  · rw [hrun]
    exact .inl ⟨rfl, hkeeps⟩
  · rw [hrun]
    exact .inr ⟨rfl, c, path, mid, hload, hpath, hkeeps, hwrite, rfl⟩

theorem act_of_written {config given : Option String} {path : String} {c : Config}
    {gs : FileSystem} (hparse : CommandLine.parse r.words = .ok ⟨.apply config, given⟩)
    (hload : ((loadConfig access env config).run fs).1 = .ok c)
    (hpath : snapshotPath env given = .ok path)
    (hwrite : (Program.writeSnapshot (refusing r.faults) c path).run fs = (.ok (), gs)) :
    r.applies env fs = true ∧ (r.act env fs).2 = gs ∧ r.loaded? env fs = some c := by
  have hrun := Program.run_apply r.faults ⟨env, r.self, r.now⟩ hload hpath hwrite
  have hisApply := isApply_iff.mpr ⟨config, given, hparse⟩
  have hact := act_of_ok env fs hparse
  simp only [Program.perform, hrun] at hact
  refine ⟨?_, by rw [hact], ?_⟩
  · simp only [applies, hact, hisApply, ended, Bool.true_and]
    rfl
  · simp only [loaded?, hparse, hload]
    rfl

theorem keeps_of_not_applies (h : r.applies env fs = false) : Keeps fs (r.act env fs).2 := by
  cases happly : r.isApply with
  | false => exact keeps_of_not_isApply happly
  | true =>
      obtain ⟨config, given, hparse⟩ := isApply_iff.mp happly
      rcases act_of_isApply env fs hparse with ⟨-, hkeeps⟩ | ⟨hstatus, -⟩
      · exact hkeeps
      · simp [applies, happly, hstatus] at h

theorem exists_toml_of_readConfig {path : String} {c : Config}
    (h : ((Program.readConfig access path).run fs).1 = .ok c) :
    ∃ text, Config.decoder.ofToml text = .ok c := by
  unfold Program.readConfig at h
  rw [Program.run_bind] at h
  split at h
  · rename_i text _
    change ((Config.decoder.ofToml text).mapError (.toml path) : Except ConfigError Config) =
      .ok c at h
    cases hdecode : Config.decoder.ofToml text with
    | error e =>
        rw [hdecode] at h
        cases h
    | ok d =>
        rw [hdecode] at h
        cases h
        exact ⟨text, hdecode⟩
  · cases h

theorem exists_toml_of_loadConfig {config : Option String} {c : Config}
    (h : ((loadConfig access env config).run fs).1 = .ok c) :
    ∃ text, Config.decoder.ofToml text = .ok c := by
  unfold loadConfig at h
  split at h
  · exact exists_toml_of_readConfig h
  · rw [Program.run_bind] at h
    split at h
    · exact exists_toml_of_readConfig h
    · cases h

theorem exists_toml_of_loaded? {c : Config} (h : r.loaded? env fs = some c) :
    ∃ text, Config.decoder.ofToml text = .ok c := by
  unfold loaded? at h
  split at h
  · rename_i config given hparse
    cases hload : ((loadConfig access env config).run fs).1 with
    | error e =>
        rw [hload] at h
        cases h
    | ok d =>
        rw [hload] at h
        cases h
        exact exists_toml_of_loadConfig hload
  · cases h

theorem silent_of_status (h : (r.act env fs).1.status ≠ 0) : (r.act env fs).1.output = "" := by
  generalize (r.act env fs).1 = outcome at h ⊢
  match outcome with
  | .printed ls => exact absurd rfl h
  | .failed e => rfl
  | .usage e => cases e <;> first | rfl | exact absurd rfl h

theorem act_of_draw {i : Invocation} {path : String} {c : Config}
    (line : Statusbar → Registry → String) (hparse : CommandLine.parse r.words = .ok i)
    (hline : Program.perform (refusing r.faults) ⟨env, r.self, r.now⟩ i =
      Program.draw (refusing r.faults) ⟨env, r.self, r.now⟩ i.snapshot line)
    (hpath : snapshotPath env i.snapshot = .ok path)
    (hread : fs.read path = some (Snapshot.write c)) (hordered : c.Ordered)
    (hstorable : c.Storable) :
    r.act env fs = (.printed [line c.statusbar (Provider.builtins r.now)], fs) := by
  have hconfig := Snapshot.read_write hordered hstorable
  have hdraw := Program.run_draw r.faults ⟨env, r.self, r.now⟩ line hpath hread hconfig
  rw [act_of_ok env fs hparse, hline, hdraw]
  rfl

theorem act_of_drawn {path text : String} {c : Config} (huses : r.UsesSnapshot env path)
    (hread : fs.read path = some (Snapshot.write c)) (hordered : c.Ordered)
    (hstorable : c.Storable) (h : r.drawn? c.statusbar = some text) :
    r.act env fs = (.printed [text], fs) := by
  unfold drawn? at h
  split at h
  · rename_i side active given hparse
    cases h
    have hpath := huses _ hparse (fun hcommand => nomatch hcommand)
    exact act_of_draw (fun b registry => b.sideText registry side active) hparse rfl hpath hread
      hordered hstorable
  · rename_i kind given hparse
    cases h
    have hpath := huses _ hparse (fun hcommand => nomatch hcommand)
    exact act_of_draw (fun b registry => b.windowText registry kind) hparse rfl hpath hread
      hordered hstorable
  · cases h

end Run

namespace World

variable {env : Environment} {path : String}

structure Faithful (path : String) (w : World) : Prop where
  held : ∀ c, w.applied = some c → w.files.read path = some (Snapshot.write c)
  ordered : ∀ c, w.applied = some c → c.Ordered

theorem faithful_start (path : String) (fs : FileSystem) : Faithful path ⟨fs, none⟩ :=
  ⟨fun _ h => (nomatch h), fun _ h => (nomatch h)⟩

theorem next_of_applies {w : World} {r : Run} (h : r.applies env w.files = true) :
    ∃ c config given path, ∃ mid : FileSystem, (w.next env r).applied = some c ∧ c.Ordered ∧
      CommandLine.parse r.words = .ok ⟨.apply config, given⟩ ∧ snapshotPath env given = .ok path ∧
      mid.write path (Snapshot.write c) = some (w.next env r).files := by
  have hends := h
  simp only [Run.applies, Bool.and_eq_true, beq_iff_eq] at hends
  obtain ⟨config, given, hparse⟩ := Run.isApply_iff.mp hends.1
  rcases Run.act_of_isApply env w.files hparse with
    ⟨hstatus, -⟩ | ⟨-, c, path, mid, hload, hpath, -, hwrite, -⟩
  · rw [hends.2] at hstatus
    cases hstatus
  · obtain ⟨text, htext⟩ := Run.exists_toml_of_loadConfig hload
    refine ⟨c, config, given, path, mid, ?_, Config.ordered_of_ofToml htext, hparse, hpath, hwrite⟩
    simp only [next, h, if_true, Run.loaded?, hparse, hload]
    rfl

theorem next_of_written {w : World} {r : Run} {config given : Option String} {own : String}
    {c : Config} {gs : FileSystem}
    (hparse : CommandLine.parse r.words = .ok ⟨.apply config, given⟩)
    (hload : ((loadConfig access env config).run w.files).1 = .ok c)
    (hpath : snapshotPath env given = .ok own)
    (hwrite : (Program.writeSnapshot (refusing r.faults) c own).run w.files = (.ok (), gs)) :
    r.applies env w.files = true ∧ w.next env r = ⟨gs, some c⟩ := by
  obtain ⟨happlies, hfiles, hloaded⟩ := Run.act_of_written hparse hload hpath hwrite
  exact ⟨happlies, by simp only [next, happlies, if_true, hfiles, hloaded]⟩

theorem faithful_next {w : World} {r : Run} (hw : w.Faithful path) (hr : r.UsesSnapshot env path) :
    (w.next env r).Faithful path := by
  cases happlies : r.applies env w.files with
  | false =>
      -- Directories may have been made on the way, but the snapshot is still read as it was.
      have hkeeps := Run.keeps_of_not_applies happlies
      have hsame : (w.next env r).applied = w.applied := by simp [next, happlies]
      exact ⟨fun c hc => hkeeps.read (hw.held c (hsame ▸ hc)),
        fun c hc => hw.ordered c (hsame ▸ hc)⟩
  | true =>
      obtain ⟨c, config, given, own, mid, happlied, hordered, hparse, hpath, hwrite⟩ :=
        next_of_applies happlies
      have hown := hr _ hparse (fun hcommand => nomatch hcommand)
      simp only [hpath, Except.ok.injEq] at hown
      subst hown
      refine ⟨fun d hd => ?_, fun d hd => ?_⟩
      · cases happlied.symm.trans hd
        exact FileSystem.read_write hwrite
      · cases happlied.symm.trans hd
        exact hordered

theorem after_append (env : Environment) (fs : FileSystem) (a b : List Run) :
    after env fs (a ++ b) = b.foldl (next env) (after env fs a) :=
  List.foldl_append

theorem faithful_foldl {w : World} (hw : w.Faithful path) {runs : List Run}
    (h : ∀ r ∈ runs, r.UsesSnapshot env path) : (runs.foldl (next env) w).Faithful path := by
  induction runs generalizing w with
  | nil => exact hw
  | cons r rest ih =>
      exact ih (faithful_next hw (h r List.mem_cons_self))
        fun s hs => h s (List.mem_cons_of_mem r hs)

theorem faithful_after (env : Environment) (fs : FileSystem) {runs : List Run}
    (h : ∀ r ∈ runs, r.UsesSnapshot env path) : (after env fs runs).Faithful path :=
  faithful_foldl (faithful_start path fs) h

theorem isSome_next {w : World} (h : w.applied.isSome = true) (r : Run) :
    (w.next env r).applied.isSome = true := by
  cases happlies : r.applies env w.files with
  | false => simpa [next, happlies] using h
  | true =>
      obtain ⟨c, -, -, -, -, happlied, -⟩ := next_of_applies happlies
      rw [happlied]
      rfl

theorem isSome_foldl {w : World} (h : w.applied.isSome = true) (runs : List Run) :
    (runs.foldl (next env) w).applied.isSome = true := by
  induction runs generalizing w with
  | nil => exact h
  | cons r rest ih => exact ih (isSome_next h r)

theorem isSome_after_of_applies {fs : FileSystem} {earlier later : List Run} {a : Run}
    (h : a.applies env (after env fs earlier).files = true) :
    (after env fs (earlier ++ a :: later)).applied.isSome = true := by
  rw [after_append, List.foldl_cons]
  obtain ⟨c, -, -, -, -, happlied, -⟩ := next_of_applies h
  exact isSome_foldl (by rw [happlied]; rfl) later

end World

/-- A draw shows what the last successful `apply` before it has loaded; any run but a successful
`apply` leaves all files as they are, and one that fails prints nothing. -/
theorem runs_show_applied (env : Environment) (fs : FileSystem) (path : String)
    (before : List Run) (r : Run) :
    let w := World.after env fs before
    let done := r.act env w.files
    ((∀ s ∈ r :: before, s.UsesSnapshot env path) →
      (∃ earlier a later, before = earlier ++ a :: later ∧
        a.applies env (World.after env fs earlier).files = true) →
      ∃ c, w.applied = some c ∧
        (c.Storable → ∀ text, r.drawn? c.statusbar = some text →
          done.1.status = 0 ∧ done.1.output = text ++ "\n")) ∧
    (r.applies env w.files = false → w.files.SameFiles done.2) ∧
    (done.1.status ≠ 0 → w.files.SameFiles done.2 ∧ done.1.output = "") := by
  intro w done
  have hkept (h : r.applies env w.files = false) : w.files.SameFiles done.2 :=
    (Run.keeps_of_not_applies h).sameFiles
  refine ⟨fun huses happlied => ?_, hkept, fun hstatus => ?_⟩
  · have hfaithful := World.faithful_after env fs
      fun s hs => huses s (List.mem_cons_of_mem r hs)
    have hsome : w.applied.isSome = true := by
      obtain ⟨earlier, a, later, heq, ha⟩ := happlied
      simp only [w, heq]
      exact World.isSome_after_of_applies ha
    obtain ⟨c, hc⟩ := Option.isSome_iff_exists.mp hsome
    refine ⟨c, hc, fun hstorable text htext => ?_⟩
    have hact := Run.act_of_drawn (huses r List.mem_cons_self) (hfaithful.held c hc)
      (hfaithful.ordered c hc) hstorable htext
    have hdone : done = (.printed [text], w.files) := hact
    rw [hdone]
    exact ⟨rfl, Program.lines_singleton text⟩
  · have happlies : r.applies env w.files = false := by
      have hne : ¬ (r.act env w.files).1.status = 0 := hstatus
      simp [Run.applies, hne]
    exact ⟨hkept happlies, Run.silent_of_status hstatus⟩

theorem runs_show_applied_window :
    let env : Environment := ⟨none, none, none⟩
    let text := "[statusbar.window_list]\nactive.text=\"a\"\ninactive.text=\"b\""
    let fs : FileSystem := ⟨[(["c".toList], .file text)], []⟩
    let apply (path : String) : Run :=
      ⟨"p", ⟨0, 0, 0⟩, ["apply", "--config", path, "--snapshot", "s"], .none⟩
    let window : Run := ⟨"p", ⟨0, 0, 0⟩, ["window", "active", "--snapshot", "s"], .none⟩
    let b := Statusbar.new [] [] (.new (.literal "a") (.literal "b"))
    let files := (World.after env fs [apply "c"]).files
    ((window.act env files).1.status = 0 ∧ (window.act env files).1.output =
      b.windowText (Provider.builtins ⟨0, 0, 0⟩) .active ++ "\n") ∧
      files.SameFiles (window.act env files).2 ∧
      (files.SameFiles ((apply "d").act env files).2 ∧
        ((apply "d").act env files).1.output = "") := by
  have happly : CommandLine.parse ["apply", "--config", "c", "--snapshot", "s"] =
      .ok ⟨.apply (some "c"), some "s"⟩ := by decide +kernel
  have hmissing : CommandLine.parse ["apply", "--config", "d", "--snapshot", "s"] =
      .ok ⟨.apply (some "d"), some "s"⟩ := by decide +kernel
  have hwindow : CommandLine.parse ["window", "active", "--snapshot", "s"] =
      .ok ⟨.window .active, some "s"⟩ := by decide +kernel
  have hconfig : Config.decoder.ofToml
      "[statusbar.window_list]\nactive.text=\"a\"\ninactive.text=\"b\"" =
      .ok (.new (.new [] [] (.new (.literal "a") (.literal "b")))) := by decide +kernel
  intro env text fs apply window b files
  have hload : ((loadConfig access env (some "c")).run fs).1 = .ok (.new b) := by
    change (Config.decoder.ofToml text).mapError (ConfigError.toml "c") = .ok (.new b)
    rw [hconfig]
    rfl
  have hwritten (c : Config) : (Program.writeSnapshot (refusing .none) c "s").run fs =
      (.ok (), fs.place ["s".toList] (.file (Snapshot.write c))) := rfl
  obtain ⟨happlies, hnext⟩ :=
    World.next_of_written (w := ⟨fs, none⟩) (r := apply "c") happly hload rfl (hwritten (.new b))
  have huses : ∀ s ∈ [window, apply "c"], s.UsesSnapshot env "s" := by
    simp only [List.forall_mem_cons]
    refine ⟨?_, ?_, fun _ h => absurd h List.not_mem_nil⟩
    · intro i hi _
      cases hwindow.symm.trans hi
      rfl
    · intro i hi _
      cases happly.symm.trans hi
      rfl
  have hstorable : (Config.new b).Storable := ⟨by decide, by decide⟩
  have hdrawn : window.drawn? b = some (b.windowText (Provider.builtins ⟨0, 0, 0⟩) .active) := by
    simp only [Run.drawn?, window, hwindow]
  have hother : window.applies env files = false := by
    have hisApply : window.isApply = false := by simp only [Run.isApply, window, hwindow]
    simp only [Run.applies, hisApply, Bool.false_and]
  have hrefused : ((apply "d").act env files).1.status ≠ 0 := by
    have herror : ((loadConfig access env (some "d")).run files).1 = .error (.file "d") := by
      rw [show files = _ from congrArg World.files hnext]
      rfl
    have hparse : CommandLine.parse (apply "d").words = _ := hmissing
    rcases Run.act_of_isApply env files hparse with ⟨hstatus, -⟩ | ⟨-, c, -, -, hok, -⟩
    · rw [hstatus]
      decide
    · rw [herror] at hok
      cases hok
  obtain ⟨hdraws, hkeeps, -⟩ := runs_show_applied env fs "s" [apply "c"] window
  obtain ⟨-, -, hfails⟩ := runs_show_applied env fs "s" [apply "c"] (apply "d")
  obtain ⟨c, hc, hshows⟩ := hdraws huses ⟨[], apply "c", [], rfl, happlies⟩
  obtain rfl : .new b = c := Option.some.inj ((congrArg World.applied hnext).symm.trans hc)
  exact ⟨hshows hstorable _ hdrawn, hkeeps hother, hfails hrefused⟩

end StatusLine
