import StatusLine.Proofs.CommandLine
import StatusLine.Proofs.Files.Place
import StatusLine.Proofs.Host.Callback
import StatusLine.Proofs.Host.Command
import StatusLine.Proofs.Runs

/-!
The calls that an `apply` has the host make: which words they carry back to the program, and which
file they find there, from whatever directory they are made.
-/

namespace StatusLine

open FileSystem (refusing access)
open Program (snapshotPath loadConfig)

namespace Host

def setting? (line : String) : Option (String × String) :=
  match Shell.words line.toList with
  | some ["tmux", "set", "-g", option, value] => some (option, value)
  | _ => none

/-- The words that the host runs for an option after the lines, of which the last to set it
counts. -/
def ran? (first last : Bool) (lines : List String) (option : String) : Option (List String) :=
  ((lines.filterMap setting?).reverse.lookup option).bind (jobWords first last)

theorem filterMap_setting? (c : Config) (program : String) :
    ((commands c program).map Command.line).filterMap setting? = settings c program := by
  rw [← contents_commands, List.filterMap_map, ← List.filterMap_eq_map]
  refine List.filterMap_congr fun k hk => ?_
  simp only [Function.comp_apply, setting?, (isSafe_of_mem_commands hk).words]

end Host

/-- A command that draws: the option that the host runs it for, and its words. -/
structure Drawing where
  option : String
  command : Command
  words : List String

def drawings (first last : Bool) : List Drawing := [
  ⟨"status-left", .side .left first, ["left", Host.flagText first]⟩,
  ⟨"status-right", .side .right last, ["right", Host.flagText last]⟩,
  ⟨"window-status-current-format", .window .active, ["window", "active"]⟩,
  ⟨"window-status-format", .window .inactive, ["window", "inactive"]⟩]

section

variable {first last : Bool} {d : Drawing}

theorem lookup_settings (c : Config) (program : String) (hd : d ∈ drawings first last) :
    ∃ arguments, (Host.settings c program).reverse.lookup d.option =
        some (Host.job program arguments).content ∧
      Host.expand first last arguments.toList = Host.commandLine (d.words.map String.toList) := by
  simp only [drawings, List.mem_cons, List.not_mem_nil, or_false] at hd
  rcases hd with rfl | rfl | rfl | rfl
  · refine ⟨"left " ++ Predicate.isFirst.token, rfl, ?_⟩
    rw [String.toList_append, Host.expand_word_flag first last (by decide) rfl]
    cases first <;> rfl
  · refine ⟨"right " ++ Predicate.isLast.token, rfl, ?_⟩
    rw [String.toList_append, Host.expand_word_flag first last (by decide) rfl]
    cases last <;> rfl
  · refine ⟨"window active", rfl, ?_⟩
    rw [Host.expand_of_doubled first last (by decide)]
    rfl
  · refine ⟨"window inactive", rfl, ?_⟩
    rw [Host.expand_of_doubled first last (by decide)]
    rfl

theorem words_ne_nil (hd : d ∈ drawings first last) : d.words ≠ [] := by
  simp only [drawings, List.mem_cons, List.not_mem_nil, or_false] at hd
  rcases hd with rfl | rfl | rfl | rfl <;> simp

theorem ran?_commands (c : Config) (program : String) (snapshot : Option String)
    (hd : d ∈ drawings first last) :
    Host.ran? first last
        ((Host.commands c (Host.callback program snapshot)).map Host.Command.line) d.option =
      some (Host.callbackWords program snapshot ++ d.words) := by
  obtain ⟨arguments, hlookup, hexpand⟩ := lookup_settings c (Host.callback program snapshot) hd
  rw [Host.ran?, Host.filterMap_setting?, hlookup, Option.bind_some,
    Host.jobWords_job first last program snapshot (words_ne_nil hd) hexpand]

theorem parse_words (hd : d ∈ drawings first last) :
    CommandLine.parse d.words = .ok ⟨d.command, none⟩ := by
  simp only [drawings, List.mem_cons, List.not_mem_nil, or_false] at hd
  rcases hd with rfl | rfl | rfl | rfl
  · cases first <;> decide +kernel
  · cases last <;> decide +kernel
  · decide +kernel
  · decide +kernel

theorem exists_level (hd : d ∈ drawings first last) :
    ∃ name rest level, d.words = name :: rest ∧ CommandLine.commands.lookup name = some level := by
  simp only [drawings, List.mem_cons, List.not_mem_nil, or_false] at hd
  rcases hd with rfl | rfl | rfl | rfl <;> exact ⟨_, _, _, rfl, rfl⟩

end

namespace Environment

def isUsual (env : Environment) (path : String) : Bool := env.snapshotPath.any (Path.same · path)

def snapshotWords (env : Environment) (path : String) : List String :=
  if env.isUsual path then [] else ["--snapshot", path]

theorem endsInName_snapshotPath {env : Environment} {path : String}
    (h : env.snapshotPath = some path) : Path.EndsInName path := by
  obtain ⟨d, -, rfl⟩ := Option.map_eq_some_iff.mp h
  exact Path.endsInName_join _ (by decide) (by unfold Path.EndsInName; decide)

theorem locate_own {env : Environment} {own path : String} (fs : FileSystem)
    (hown : own = path ∨ env.snapshotPath = some own) (hsame : Path.same own path = true)
    (hends : Path.EndsInName path) : fs.locate own = fs.locate path := by
  rcases hown with rfl | husual
  · rfl
  · exact FileSystem.locate_of_same hsame (endsInName_snapshotPath husual) hends

theorem snapshotPath_of_isUsual {env : Environment} {path : String} (h : env.isUsual path = true) :
    ∃ usual, env.snapshotPath = some usual ∧ Path.same usual path = true := by
  simpa [isUsual, Option.any_eq_true] using h

end Environment

theorem callback_eq (env : Environment) (self : String) (now : Moment) (path : String) :
    Program.callback ⟨env, self, now⟩ path =
      Host.callback self (if env.isUsual path then none else some path) := by
  unfold Program.callback Environment.isUsual
  split
  · rename_i usual heq
    simp only [heq, Option.any_some]
    split <;> rfl
  · rename_i heq
    simp [heq]

theorem callbackWords_eq (env : Environment) (self path : String) :
    Host.callbackWords self (if env.isUsual path then none else some path) =
      self :: env.snapshotWords path := by
  unfold Host.callbackWords Environment.snapshotWords
  cases env.isUsual path <;> rfl

/-- A call is understood, and looks for the snapshot at its path or at the usual one that is the
same; or else it is refused, because the path looks like an option. -/
theorem parse_call (env : Environment) {first last : Bool} {d : Drawing} {path : String}
    (hd : d ∈ drawings first last) (hne : path.isEmpty = false) :
    ((env.isUsual path = true ∨ CommandLine.isHyphenated path = false) ∧
      ∃ given own, CommandLine.parse (env.snapshotWords path ++ d.words) = .ok ⟨d.command, given⟩ ∧
        snapshotPath env given = .ok own ∧ Path.same own path = true ∧
        (own = path ∨ env.snapshotPath = some own)) ∨
    (env.isUsual path = false ∧ CommandLine.isHyphenated path = true) ∧
      ∃ e, CommandLine.parse (env.snapshotWords path ++ d.words) = .error e := by
  cases husual : env.isUsual path with
  | true =>
      obtain ⟨usual, hpath, hsame⟩ := Environment.snapshotPath_of_isUsual husual
      have hwords : env.snapshotWords path ++ d.words = d.words := by
        simp [Environment.snapshotWords, husual]
      rw [hwords, parse_words hd]
      refine .inl ⟨.inl rfl, none, usual, rfl, ?_, hsame, .inr hpath⟩
      simp [snapshotPath, hpath]
  | false =>
      have hwords : env.snapshotWords path ++ d.words = "--snapshot" :: path :: d.words := by
        simp [Environment.snapshotWords, husual]
      rw [hwords]
      cases hhyphen : CommandLine.isHyphenated path with
      | true => exact .inr ⟨⟨rfl, rfl⟩, CommandLine.parse_hyphenated hhyphen d.words⟩
      | false =>
          obtain ⟨name, rest, level, hcons, hlevel⟩ := exists_level hd
          have hparse := parse_words hd
          rw [hcons] at hparse ⊢
          rw [CommandLine.parse_snapshot hhyphen hne hlevel hparse]
          exact .inl ⟨.inr rfl, some path, path, rfl, rfl, Path.same_refl path, .inl rfl⟩

namespace Run

variable {env : Environment} {fs : FileSystem} {a : Run} {path : String}

theorem written_of_applies (happlies : a.applies env fs = true)
    (huses : a.UsesSnapshot env path) :
    ∃ c, ∃ mid : FileSystem, a.loaded? env fs = some c ∧ mid.working = fs.working ∧
      mid.write path (Snapshot.write c) = some (a.act env fs).2 ∧
      (a.act env fs).1 = .printed ((Host.commands c
        (Host.callback a.self (if env.isUsual path then none else some path))).map
          Host.Command.line) := by
  have hends := happlies
  simp only [applies, Bool.and_eq_true, beq_iff_eq] at hends
  obtain ⟨config, given, hparse⟩ := isApply_iff.mp hends.1
  rcases act_of_isApply env fs hparse with
    ⟨hstatus, -⟩ | ⟨-, c, own, mid, hload, hpath, hkeeps, hwrite, hprinted⟩
  · rw [hends.2] at hstatus
    cases hstatus
  · have hown := huses _ hparse (fun hcommand => by cases hcommand)
    simp only [hpath, Except.ok.injEq] at hown
    subst hown
    rw [callback_eq] at hprinted
    refine ⟨c, mid, ?_, hkeeps.working, hwrite, hprinted⟩
    simp only [loaded?, hparse, hload]
    rfl

theorem ran?_of_applies (happlies : a.applies env fs = true) (huses : a.UsesSnapshot env path)
    (first last : Bool) :
    ∃ ls, (a.act env fs).1 = .printed ls ∧ ∀ d ∈ drawings first last,
      Host.ran? first last ls d.option = some (a.self :: (env.snapshotWords path ++ d.words)) := by
  obtain ⟨c, mid, -, -, -, hprinted⟩ := written_of_applies happlies huses
  refine ⟨_, hprinted, fun d hd => ?_⟩
  rw [ran?_commands c a.self _ hd, callbackWords_eq, List.cons_append]

theorem isEmpty_of_applies (happlies : a.applies env fs = true) (huses : a.UsesSnapshot env path) :
    path.isEmpty = false := by
  obtain ⟨c, mid, -, -, hwrite, -⟩ := written_of_applies happlies huses
  exact FileSystem.isEmpty_of_endsInName (FileSystem.endsInName_of_write hwrite)

theorem applies_literals (env : Environment) (fs : FileSystem) {option : String}
    (hparse : CommandLine.parse ["apply", "--config", "c", option] =
      .ok ⟨.apply (some "c"), some path⟩)
    (hread : fs.read "c" =
      some "[statusbar.window_list]\nactive.text=\"a\"\ninactive.text=\"b\"") {gs : FileSystem}
    (hwrite : (Program.writeSnapshot (refusing .none)
      (.new (.new [] [] (.new (.literal "a") (.literal "b")))) path).run fs = (.ok (), gs)) :
    let a : Run := ⟨"p", ⟨0, 0, 0⟩, ["apply", "--config", "c", option], .none⟩
    a.applies env fs = true ∧ a.UsesSnapshot env path ∧ (a.act env fs).2 = gs := by
  intro a
  have hconfig : Config.decoder.ofToml
      "[statusbar.window_list]\nactive.text=\"a\"\ninactive.text=\"b\"" =
      .ok (.new (.new [] [] (.new (.literal "a") (.literal "b")))) := by decide +kernel
  have hload : ((loadConfig access env (some "c")).run fs).1 =
      .ok (.new (.new [] [] (.new (.literal "a") (.literal "b")))) := by
    have hfile : (access.read "c").run fs = (some _, fs) := congrArg (·, fs) hread
    rw [loadConfig, Program.readConfig, Program.run_bind, hfile]
    simp only [hconfig]
    rfl
  obtain ⟨happlies, hfiles, -⟩ := act_of_written (r := a) hparse hload rfl hwrite
  refine ⟨happlies, ?_, hfiles⟩
  intro i hi _
  cases hparse.symm.trans hi
  rfl

end Run

section

variable {env : Environment} {fs : FileSystem} {a : Run} {path : String}

/-- The program takes the calls that an `apply` has the host make for the commands that they stand
for, on the snapshot that was written, just when its path does not look like an option. -/
theorem calls_understood_iff (happlies : a.applies env fs = true)
    (huses : a.UsesSnapshot env path) (first last : Bool) :
    ∃ ls, (a.act env fs).1 = .printed ls ∧ ∀ d ∈ drawings first last,
      let args := env.snapshotWords path ++ d.words
      Host.ran? first last ls d.option = some (a.self :: args) ∧
      ((∃ given own, CommandLine.parse args = .ok ⟨d.command, given⟩ ∧
          snapshotPath env given = .ok own ∧ Path.same own path = true) ↔
        env.isUsual path = true ∨ CommandLine.isHyphenated path = false) := by
  obtain ⟨ls, hprinted, hran⟩ := Run.ran?_of_applies happlies huses first last
  have hne := Run.isEmpty_of_applies happlies huses
  refine ⟨ls, hprinted, fun d hd => ⟨hran d hd, ?_⟩⟩
  rcases parse_call env hd hne with
    ⟨hword, given, own, hparse, hpath, hsame, -⟩ | ⟨⟨husual, hhyphen⟩, e, herror⟩
  · exact iff_of_true ⟨given, own, hparse, hpath, hsame⟩ hword
  · refine iff_of_false ?_ (by simp [husual, hhyphen])
    rintro ⟨given, own, hparse, -⟩
    cases herror.symm.trans hparse

theorem calls_understood_iff_hyphen :
    let env : Environment := ⟨none, none, none⟩
    let text := "[statusbar.window_list]\nactive.text=\"a\"\ninactive.text=\"b\""
    let fs : FileSystem := ⟨[(["c".toList], .file text)], []⟩
    let a : Run := ⟨"p", ⟨0, 0, 0⟩, ["apply", "--config", "c", "--snapshot=-"], .none⟩
    a.applies env fs = true ∧ a.UsesSnapshot env "-" ∧
      ∃ ls, (a.act env fs).1 = .printed ls ∧ ∀ d ∈ drawings true false,
        Host.ran? true false ls d.option = some ("p" :: "--snapshot" :: "-" :: d.words) ∧
        ∃ given own, CommandLine.parse ("--snapshot" :: "-" :: d.words) = .ok ⟨d.command, given⟩ ∧
          snapshotPath env given = .ok own ∧ Path.same own "-" = true := by
  have hparse : CommandLine.parse ["apply", "--config", "c", "--snapshot=-"] =
      .ok ⟨.apply (some "c"), some "-"⟩ := by decide +kernel
  intro env text fs a
  obtain ⟨happlies, huses, -⟩ := Run.applies_literals env fs hparse rfl rfl
  obtain ⟨ls, hprinted, hcalls⟩ := calls_understood_iff happlies huses true false
  refine ⟨happlies, huses, ls, hprinted, fun d hd => ?_⟩
  obtain ⟨hran, hunderstood⟩ := hcalls d hd
  exact ⟨hran, hunderstood.mpr (.inr rfl)⟩

theorem calls_refused_hyphenated :
    let env : Environment := ⟨none, none, none⟩
    let text := "[statusbar.window_list]\nactive.text=\"a\"\ninactive.text=\"b\""
    let fs : FileSystem := ⟨[(["c".toList], .file text)], []⟩
    let a : Run := ⟨"p", ⟨0, 0, 0⟩, ["apply", "--config", "c", "--snapshot=-s"], .none⟩
    a.applies env fs = true ∧ ∃ ls, (a.act env fs).1 = .printed ls ∧ ∀ d ∈ drawings true false,
      Host.ran? true false ls d.option = some ("p" :: "--snapshot" :: "-s" :: d.words) ∧
      ∃ e, CommandLine.parse ("--snapshot" :: "-s" :: d.words) = .error e := by
  have hparse : CommandLine.parse ["apply", "--config", "c", "--snapshot=-s"] =
      .ok ⟨.apply (some "c"), some "-s"⟩ := by decide +kernel
  intro env text fs a
  obtain ⟨happlies, huses, -⟩ := Run.applies_literals env fs hparse rfl rfl
  obtain ⟨ls, hprinted, hran⟩ := Run.ran?_of_applies happlies huses true false
  exact ⟨happlies, ls, hprinted, fun d hd =>
    ⟨hran d hd, CommandLine.parse_hyphenated rfl d.words⟩⟩

/-- A call made in another directory opens the file that the `apply` has written, and reads there
what was written, just when it is understood and its path is absolute, or leaves behind all names
in which the directories differ and passes through directories from there too. -/
theorem calls_find_snapshot_iff (happlies : a.applies env fs = true)
    (huses : a.UsesSnapshot env path) (first last : Bool) :
    let gs := (a.act env fs).2
    ∃ c ls l, a.loaded? env fs = some c ∧ (a.act env fs).1 = .printed ls ∧
      (gs.movedTo fs.working).locate path = some l ∧
      gs.node? l = some (.file (Snapshot.write c)) ∧
      ∀ d ∈ drawings first last,
        let args := env.snapshotWords path ++ d.words
        Host.ran? first last ls d.option = some (a.self :: args) ∧
        ∀ elsewhere : Location, gs.isDirectory elsewhere = true →
          ((∃ given own, CommandLine.parse args = .ok ⟨d.command, given⟩ ∧
              snapshotPath env given = .ok own ∧
              (gs.movedTo elsewhere).locate own = some l ∧
              (gs.movedTo elsewhere).read own = some (Snapshot.write c)) ↔
            (env.isUsual path = true ∨ CommandLine.isHyphenated path = false) ∧
              (Path.isAbsolute path = true ∨
                elsewhere.rdrop (Path.climbs path) = fs.working.rdrop (Path.climbs path) ∧
                  gs.Passes elsewhere (Path.pieces path))) := by
  intro gs
  obtain ⟨c, mid, hloaded, hmid, hwrite, -⟩ := Run.written_of_applies happlies huses
  obtain ⟨ls, hprinted, hran⟩ := Run.ran?_of_applies happlies huses first last
  obtain ⟨hgs, l, hlocate, hnode⟩ := FileSystem.locate_write hwrite
  have hworking : gs.working = fs.working := hgs.trans hmid
  have hstays : gs.movedTo fs.working = gs := by rw [← hworking]; rfl
  refine ⟨c, ls, l, hloaded, hprinted, by rwa [hstays], hnode, fun d hd => ⟨hran d hd, ?_⟩⟩
  intro elsewhere _
  have hreach := FileSystem.locate_movedTo_iff elsewhere hlocate (by rw [hnode]; rfl)
  rw [hworking] at hreach
  rcases parse_call env hd (FileSystem.isEmpty_of_locate hlocate) with
    ⟨hword, given, own, hparse, hpath, hsame, hown⟩ | ⟨⟨husual, hhyphen⟩, e, herror⟩
  · have hfile := Environment.locate_own (gs.movedTo elsewhere) hown hsame
      (FileSystem.endsInName_of_write hwrite)
    constructor
    · rintro ⟨given', own', hparse', hpath', hfound, -⟩
      cases hparse.symm.trans hparse'
      cases hpath.symm.trans hpath'
      exact ⟨hword, hreach.mp (hfile ▸ hfound)⟩
    · rintro ⟨-, hfound⟩
      have hopens := hfile.trans (hreach.mpr hfound)
      exact ⟨given, own, hparse, hpath, hopens, FileSystem.read_of_locate hopens hnode⟩
  · refine iff_of_false ?_ (by simp [husual, hhyphen])
    rintro ⟨given, own, hparse, -⟩
    cases herror.symm.trans hparse

theorem calls_find_snapshot_iff_parent :
    let env : Environment := ⟨none, none, none⟩
    let text := "[statusbar.window_list]\nactive.text=\"a\"\ninactive.text=\"b\""
    let fs : FileSystem :=
      ⟨[(["d".toList], .directory), (["d".toList, "c".toList], .file text),
        (["e".toList], .directory)], ["d".toList]⟩
    let a : Run := ⟨"p", ⟨0, 0, 0⟩, ["apply", "--config", "c", "--snapshot=../s"], .none⟩
    let gs := (a.act env fs).2
    a.applies env fs = true ∧ a.UsesSnapshot env "../s" ∧ gs.isDirectory ["e".toList] = true ∧
      ∃ c ls l, a.loaded? env fs = some c ∧ (a.act env fs).1 = .printed ls ∧
        (gs.movedTo fs.working).locate "../s" = some l ∧ ∀ d ∈ drawings true false,
          Host.ran? true false ls d.option = some ("p" :: "--snapshot" :: "../s" :: d.words) ∧
          ∃ given own, CommandLine.parse ("--snapshot" :: "../s" :: d.words) =
              .ok ⟨d.command, given⟩ ∧
            snapshotPath env given = .ok own ∧
            (gs.movedTo ["e".toList]).locate own = some l ∧
            (gs.movedTo ["e".toList]).read own = some (Snapshot.write c) := by
  have hparse : CommandLine.parse ["apply", "--config", "c", "--snapshot=../s"] =
      .ok ⟨.apply (some "c"), some "../s"⟩ := by decide +kernel
  intro env text fs a gs
  obtain ⟨happlies, huses, hfiles⟩ := Run.applies_literals env fs hparse rfl rfl
  have hdir : gs.isDirectory ["e".toList] = true := by
    rw [show gs = (a.act env fs).2 from rfl, hfiles]
    rfl
  have hpasses : gs.Passes ["e".toList] (Path.pieces "../s") := by
    rw [show gs = (a.act env fs).2 from rfl, hfiles]
    exact ⟨rfl, rfl, trivial⟩
  obtain ⟨c, ls, l, hloaded, hprinted, hlocate, -, hcalls⟩ :=
    calls_find_snapshot_iff happlies huses true false
  refine ⟨happlies, huses, hdir, c, ls, l, hloaded, hprinted, hlocate, fun d hd => ?_⟩
  obtain ⟨hran, hfind⟩ := hcalls d hd
  exact ⟨hran, (hfind _ hdir).mpr ⟨.inr rfl, .inr ⟨rfl, hpasses⟩⟩⟩

theorem calls_miss_relative :
    let env : Environment := ⟨none, none, none⟩
    let text := "[statusbar.window_list]\nactive.text=\"a\"\ninactive.text=\"b\""
    let fs : FileSystem :=
      ⟨[(["d".toList], .directory), (["d".toList, "c".toList], .file text)], ["d".toList]⟩
    let a : Run := ⟨"p", ⟨0, 0, 0⟩, ["apply", "--config", "c", "--snapshot=s"], .none⟩
    a.applies env fs = true ∧ ∃ ls, (a.act env fs).1 = .printed ls ∧ ∀ d ∈ drawings true false,
      Host.ran? true false ls d.option = some ("p" :: "--snapshot" :: "s" :: d.words) ∧
      CommandLine.parse ("--snapshot" :: "s" :: d.words) = .ok ⟨d.command, some "s"⟩ ∧
      ((a.act env fs).2.movedTo []).read "s" = none := by
  have hparse : CommandLine.parse ["apply", "--config", "c", "--snapshot=s"] =
      .ok ⟨.apply (some "c"), some "s"⟩ := by decide +kernel
  intro env text fs a
  obtain ⟨happlies, huses, hfiles⟩ := Run.applies_literals env fs hparse rfl rfl
  obtain ⟨ls, hprinted, hran⟩ := Run.ran?_of_applies happlies huses true false
  refine ⟨happlies, ls, hprinted, fun d hd => ⟨hran d hd, ?_, by rw [hfiles]; rfl⟩⟩
  obtain ⟨name, rest, level, hcons, hlevel⟩ := exists_level hd
  have hwords := parse_words hd
  rw [hcons] at hwords ⊢
  exact CommandLine.parse_snapshot rfl rfl hlevel hwords

end

end StatusLine
