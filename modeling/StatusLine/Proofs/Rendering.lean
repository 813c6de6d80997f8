import StatusLine.Proofs.Document.Depth
import StatusLine.Proofs.Runs

namespace StatusLine

open FileSystem (refusing access)
open Program (snapshotPath)

namespace Snapshot

theorem read_write_iff {c : Config} (hordered : c.Ordered) (hreals : c.InRange) :
    (∃ d, read (write c) = .ok d) ↔ c.json.depth < 128 := by
  constructor
  · rintro ⟨d, hd⟩
    have htext := Json.read_spreadText c.json (c.inRange_json hreals)
    simp only [read, write, Decoder.ofText, htext, Config.mapReals_json] at hd
    split at hd
    · rename_i hdecode
      rw [← Json.depth_mapReals (f := Json.reread), Config.mapReals_json]
      exact Config.depth_lt_of_decoder hdecode
    · cases hd
  · intro hshallow
    exact ⟨c.mapReals Json.reread, read_write_reread hordered hreals hshallow⟩

end Snapshot

namespace Program

theorem run_draw_error (f : Faults) (setup : Setup) {given : Option String} {path : String}
    (line : Statusbar → Registry → String) {fs : FileSystem} {text : String} {e : DocumentError}
    (hpath : snapshotPath setup.env given = .ok path) (hread : fs.read path = some text)
    (hconfig : Snapshot.read text = .error e) :
    (draw (refusing f) setup given line).run fs =
      (.error (.noSnapshot (.snapshot path e)), fs) := by
  have hsnapshot : (readSnapshot (refusing f) path).run fs = (.error (.snapshot path e), fs) := by
    have hfile : ((refusing f).read path).run fs = (some text, fs) := congrArg (·, fs) hread
    unfold readSnapshot
    rw [run_bind, hfile]
    simp only [hconfig]
    rfl
  unfold draw
  simp only [hpath]
  rw [run_bind, hsnapshot]
  rfl

end Program

namespace Run

variable {env : Environment} {r : Run} {fs : FileSystem}

def draws (r : Run) : Bool :=
  match CommandLine.parse r.words with
  | .ok ⟨.side _ _, _⟩ => true
  | .ok ⟨.window _, _⟩ => true
  | _ => false

theorem perform_of_draws (env : Environment) (h : r.draws = true) :
    ∃ i line, CommandLine.parse r.words = .ok i ∧ i.command ≠ .configPath ∧
      Program.perform (refusing r.faults) ⟨env, r.self, r.now⟩ i =
        Program.draw (refusing r.faults) ⟨env, r.self, r.now⟩ i.snapshot line := by
  unfold draws at h
  split at h
  · rename_i side active given hparse
    exact ⟨_, fun b registry => b.sideText registry side active, hparse, by simp, rfl⟩
  · rename_i kind given hparse
    exact ⟨_, fun b registry => b.windowText registry kind, hparse, by simp, rfl⟩
  · cases h

theorem status_of_draws {path text : String} (hdraws : r.draws = true)
    (huses : r.UsesSnapshot env path) (hread : fs.read path = some text) :
    (r.act env fs).1.status = 0 ↔ ∃ c, Snapshot.read text = .ok c := by
  obtain ⟨i, line, hparse, hcommand, hperform⟩ := perform_of_draws env hdraws
  have hpath := huses i hparse hcommand
  rw [act_of_ok env fs hparse, hperform]
  cases hconfig : Snapshot.read text with
  | ok c =>
      rw [Program.run_draw r.faults _ line hpath hread hconfig]
      simp [ended, Program.Outcome.status]
  | error e =>
      rw [Program.run_draw_error r.faults _ line hpath hread hconfig]
      simp [ended, Program.Outcome.status]

theorem held_of_applies {a : Run} {path : String} {c : Config} (ha : a.applies env fs = true)
    (huses : a.UsesSnapshot env path) (hc : a.loaded? env fs = some c) :
    (a.act env fs).2.read path = some (Snapshot.write c) := by
  have hfaithful := World.faithful_next (World.faithful_start path fs) huses
  have happlied : (World.next env ⟨fs, none⟩ a).applied = some c := by
    simp only [World.next, ha, if_true, hc]
  exact hfaithful.held c happlied

end Run

/-- A run that draws right after an `apply` ends well just when the applied configuration nests
fewer than 128 levels. -/
theorem draw_after_apply {env : Environment} {fs : FileSystem} {a r : Run} {path : String}
    {c : Config} (happlies : a.applies env fs = true) (hc : a.loaded? env fs = some c)
    (hdraws : r.draws = true) (huses : ∀ s ∈ [a, r], s.UsesSnapshot env path) :
    (r.act env (a.act env fs).2).1.status = 0 ↔ c.json.depth < 128 := by
  simp only [List.forall_mem_cons] at huses
  obtain ⟨text, htext⟩ := Run.exists_toml_of_loaded? hc
  have hheld := Run.held_of_applies happlies huses.1 hc
  rw [Run.status_of_draws hdraws huses.2.1 hheld,
    Snapshot.read_write_iff (Config.ordered_of_ofToml htext) (Config.inRange_of_ofToml htext)]

theorem draw_after_apply_window :
    let env : Environment := ⟨none, none, none⟩
    let text := "statusbar.provider_args.a.b=[[]]\n" ++
      "[statusbar.window_list]\nactive.text=\"a\"\ninactive.text=\"b\""
    let fs : FileSystem := ⟨[(["c".toList], .file text)], []⟩
    let apply : Run := ⟨"p", ⟨0, 0, 0⟩, ["apply", "--config", "c", "--snapshot", "s"], .none⟩
    let window : Run := ⟨"p", ⟨0, 0, 0⟩, ["window", "active", "--snapshot", "s"], .none⟩
    let c := Config.new { Statusbar.new [] [] (.new (.literal "a") (.literal "b")) with
      arguments := [("a", [("b", .array [.array []])])] }
    apply.applies env fs = true ∧ apply.loaded? env fs = some c ∧ c.json.depth = 6 ∧
      window.draws = true ∧ (window.act env (apply.act env fs).2).1.status = 0 := by
  have happly : CommandLine.parse ["apply", "--config", "c", "--snapshot", "s"] =
      .ok ⟨.apply (some "c"), some "s"⟩ := by decide +kernel
  have hwindow : CommandLine.parse ["window", "active", "--snapshot", "s"] =
      .ok ⟨.window .active, some "s"⟩ := by decide +kernel
  have hconfig : Config.decoder.ofToml
      ("statusbar.provider_args.a.b=[[]]\n" ++
        "[statusbar.window_list]\nactive.text=\"a\"\ninactive.text=\"b\"") =
      .ok (.new { Statusbar.new [] [] (.new (.literal "a") (.literal "b")) with
        arguments := [("a", [("b", .array [.array []])])] }) := by decide +kernel
  intro env text fs apply window c
  have hload : ((Program.loadConfig access env (some "c")).run fs).1 = .ok c := by
    change (Config.decoder.ofToml text).mapError (ConfigError.toml "c") = .ok c
    rw [hconfig]
    rfl
  have hwritten : (Program.writeSnapshot (refusing .none) c "s").run fs =
      (.ok (), fs.place ["s".toList] (.file (Snapshot.write c))) := rfl
  obtain ⟨happlies, -, hloaded⟩ := Run.act_of_written (r := apply) happly hload rfl hwritten
  have hdraws : window.draws = true := by simp only [Run.draws, window, hwindow]
  have huses : ∀ s ∈ [apply, window], s.UsesSnapshot env "s" := by
    simp only [List.forall_mem_cons]
    refine ⟨?_, ?_, fun _ h => absurd h List.not_mem_nil⟩
    · intro i hi _
      cases happly.symm.trans hi
      rfl
    · intro i hi _
      cases hwindow.symm.trans hi
      rfl
  have hdepth : c.json.depth = 6 := by decide
  have hstatus := draw_after_apply happlies hloaded hdraws huses
  exact ⟨happlies, hloaded, hdepth, hdraws, hstatus.mpr (by omega)⟩

end StatusLine
