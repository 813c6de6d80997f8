import StatusLine.Proofs.Arguments
import StatusLine.Proofs.Program
import StatusLine.Proofs.Toml.Reals

namespace StatusLine

namespace Config

/-- The arguments are maps: in each of them, and in each object inside, a key stands once and in its
place. -/
def Ordered (c : Config) : Prop := (Arguments.json c.statusbar.arguments).isOrdered = true

def InRange (c : Config) : Prop := (Arguments.json c.statusbar.arguments).InRange

/-- No argument holds a number with a fraction, and lists and objects stand inside each other fewer
than 128 times. -/
structure Storable (c : Config) : Prop where
  exact : (Arguments.json c.statusbar.arguments).isExact = true
  shallow : c.json.depth < 128

instance (c : Config) : Decidable c.Ordered := inferInstanceAs (Decidable (_ = true))

theorem ordered_of_decoder {p : Place} {node : Node} {c : Config}
    (h : decoder p node = .ok c) : c.Ordered :=
  isOrdered_of_decoder h

theorem ordered_of_ofToml {text : String} {c : Config} (h : decoder.ofToml text = .ok c) :
    c.Ordered := by
  unfold Decoder.ofToml at h
  split at h
  · exact ordered_of_decoder h
  · cases h

theorem inRange_of_ofToml {text : String} {c : Config} (h : decoder.ofToml text = .ok c) :
    c.InRange := by
  unfold Decoder.ofToml at h
  split at h
  · rename_i node hread
    exact inRange_of_decoder (Toml.inRange_read hread) h
  · cases h

end Config

namespace Snapshot

theorem read_write_reread {c : Config} (hordered : c.Ordered) (hreals : c.InRange)
    (hshallow : c.json.depth < 128) :
    read (write c) = .ok (c.mapReals Json.reread) := by
  have htext := Json.read_spreadText c.json (c.inRange_json hreals)
  have hdepth := Json.depth_mapReals (f := Json.reread) c.json
  have hordered' : (c.mapReals Json.reread).Ordered := by
    have hargs := Json.isOrdered_mapReals (f := Json.reread) (Arguments.json c.statusbar.arguments)
    rw [Arguments.mapReals_json] at hargs
    exact hargs.trans hordered
  rw [Config.mapReals_json] at htext hdepth
  have hlevel : (⟨.jsonText, 0⟩ : Place).level + (c.mapReals Json.reread).json.depth ≤ deepest := by
    rw [hdepth]
    simp only [deepest]
    omega
  have hdecode := (c.mapReals Json.reread).reads hordered' ⟨.jsonText, 0⟩ hlevel
  simp only [read, write, Decoder.ofText, htext, hdecode, if_true]

theorem read_write {c : Config} (hordered : c.Ordered) (hstorable : c.Storable) :
    read (write c) = .ok c := by
  have hsame : c.mapReals Json.reread = c := Config.mapReals_eq_self (by
    rw [Json.reals_of_isExact _ hstorable.exact]
    exact fun _ h => absurd h List.not_mem_nil)
  rw [read_write_reread hordered (Json.inRange_of_isExact hstorable.exact) hstorable.shallow, hsame]

end Snapshot

namespace Program

open FileSystem (access)

theorem readSnapshot_of_writeSnapshot (c : Config) (path : String) (fs gs : FileSystem)
    (hordered : c.Ordered) (hstorable : c.Storable)
    (hwrite : (writeSnapshot access c path).run fs = (.ok (), gs)) :
    (readSnapshot access path).run gs = (.ok c, gs) := by
  rcases writeSnapshot_cases .none c path fs with
    ⟨e, hs, hrun, -⟩ | ⟨mid, hs, hrun, -, hplaced⟩
  · rw [FileSystem.refusing_none, hwrite] at hrun
    cases hrun
  · rw [FileSystem.refusing_none, hwrite] at hrun
    cases hrun
    have hfile : (access.read path).run gs = (some (Snapshot.write c), gs) :=
      congrArg (·, gs) (FileSystem.read_write hplaced)
    unfold readSnapshot
    rw [run_bind, hfile]
    simp only [Snapshot.read_write hordered hstorable]
    rfl

theorem readSnapshot_of_writeSnapshot_styled :
    let c : Config := .new { Statusbar.new
      [{ Segment.literal "," with
          ownBg := .hex ⟨"#A0b1C2", rfl⟩, separator := some "",
          style := some ⟨none, some (.indexed 7), [.bold, .bold], [.bold]⟩ }]
      [(Segment.provider "time").withStyle .empty]
      (.new (.literal "#\x7b") (.literal "\n")) with
      arguments := [("cwd", [("max_length", .ofInt (-3))]),
        ("time", [("format", .array [.null, .object [("", .string "\x7f"), ("a", .array [])]])])] }
    let gs := (⟨[], []⟩ : FileSystem).place ["s".toList] (.file (Snapshot.write c))
    c.Ordered ∧ c.Storable ∧ (writeSnapshot access c "s").run ⟨[], []⟩ = (.ok (), gs) ∧
      (readSnapshot access "s").run gs = (.ok c, gs) := by
  intro c gs
  have hordered : c.Ordered := by decide
  have hstorable : c.Storable := ⟨by decide, by decide⟩
  have hwrite : (writeSnapshot access c "s").run ⟨[], []⟩ = (.ok (), gs) := rfl
  exact ⟨hordered, hstorable, hwrite,
    readSnapshot_of_writeSnapshot c "s" ⟨[], []⟩ gs hordered hstorable hwrite⟩

end Program

end StatusLine
