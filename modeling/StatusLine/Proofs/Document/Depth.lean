import Mathlib.Tactic.ByContra
import StatusLine.Proofs.Config

/-!
How deep a configuration is: only its arguments can reach far down, and a text in which they reach
deeper than a reader goes is not read.
-/

namespace StatusLine

namespace Decoder

variable {α σ : Type}

theorem written_mem {f : Field σ} {fs : List (Field σ)} {j : Json} {xs : List (Option Json)}
    (h : (f, some j) ∈ fs.zip xs) : (f.name, j) ∈ written fs xs := by
  induction fs generalizing xs with
  | nil => cases h
  | cons g fs ih =>
      cases xs with
      | nil => cases h
      | cons x xs =>
          rw [List.zip_cons_cons] at h
          rcases List.mem_cons.mp h with heq | h
          · cases heq
            exact List.mem_append_left _ List.mem_cons_self
          · exact List.mem_append_right _ (ih h)

theorem field_of_record {r : Record σ} {xs : List (Option Json)} {p : Place} {s : σ}
    (h : r.decode p (.ofJson (.object (written r.fields xs))) = .ok s) {f : Field σ} {j : Json}
    (hmem : (f, some j) ∈ r.fields.zip xs) (hfield : r.field? f.name = some f) :
    ∃ u v, f.read p.inside (.ofJson j) u = .ok v := by
  simp only [Node.ofJson, Record.decode, entries?, Record.ofEntries] at h
  obtain ⟨⟨given, t⟩, hread, -⟩ := bind_eq_ok.mp h
  have he : (f.name, Node.ofJson j) ∈ Node.ofMembers (written r.fields xs) := by
    rw [Node.ofMembers_eq]
    exact List.mem_map_of_mem (f := fun m : String × Json => (m.1, Node.ofJson m.2))
      (written_mem hmem)
  rcases readEntries_mem hread he with ⟨g, u, v, hg, hread⟩ | ⟨hnone, -⟩
  · cases hfield.symm.trans hg
    exact ⟨u, v, hread⟩
  · cases hfield.symm.trans hnone

theorem entries_of_keyed {decode : Decoder α} {p : Place} {members : List (String × Json)}
    {m : Keyed α} (h : keyed decode p (.ofJson (.object members)) = .ok m) :
    ∀ e ∈ members, ∃ x, decode p.inside (.ofJson e.2) = .ok x := by
  simp only [Node.ofJson, keyed, entries?] at h
  obtain ⟨xs, hxs, -⟩ := bind_eq_ok.mp h
  clear h
  induction members generalizing xs with
  | nil => exact fun e he => absurd he List.not_mem_nil
  | cons d rest ih =>
      rw [Node.ofMembers, entries] at hxs
      obtain ⟨x, hx, hxs⟩ := bind_eq_ok.mp hxs
      obtain ⟨ys, hys, -⟩ := bind_eq_ok.mp hxs
      intro e he
      rcases List.mem_cons.mp he with rfl | he
      · exact ⟨x, hx⟩
      · exact ih ys hys e he

theorem depth_of_json {p : Place} (hp : p.dialect = .jsonText) {j k : Json}
    (h : json p (.ofJson j) = .ok k) : p.level + j.depth ≤ deepest := by
  have hwhole : isWhole p (.ofJson j) = true := by
    by_contra hnot
    simp [json, hnot] at h
  simpa [isWhole, hp, Node.whole_ofJson, Node.depth_ofJson] using hwhole

end Decoder

namespace Json

theorem depthMembers_le_iff {members : List (String × Json)} {n : Nat} :
    depthMembers members ≤ n ↔ ∀ e ∈ members, e.2.depth ≤ n := by
  induction members with
  | nil => simp [depthMembers]
  | cons m rest ih => rw [depthMembers, Nat.max_le, ih, List.forall_mem_cons]

theorem depthItems_le_iff {items : List Json} {n : Nat} :
    depthItems items ≤ n ↔ ∀ x ∈ items, x.depth ≤ n := by
  induction items with
  | nil => simp [depthItems]
  | cons x rest ih => rw [depthItems, Nat.max_le, ih, List.forall_mem_cons]

def Within (n : Nat) (x : Option Json) : Prop := ∀ j, x = some j → j.depth ≤ n

theorem within_some {n : Nat} {j : Json} (h : j.depth ≤ n) : Within n (some j) := by
  rintro k ⟨⟩
  exact h

theorem within_map {α : Type} {n : Nat} {encode : α → Json} (h : ∀ a, (encode a).depth ≤ n)
    (x : Option α) : Within n (x.map encode) := by
  intro j hj
  obtain ⟨a, -, rfl⟩ := Option.map_eq_some_iff.mp hj
  exact h a

theorem depth_array_map {α : Type} {n : Nat} {encode : α → Json} (h : ∀ a, (encode a).depth ≤ n)
    (xs : List α) : (array (xs.map encode)).depth ≤ n + 1 := by
  refine Nat.succ_le_succ (depthItems_le_iff.mpr ?_)
  simp only [List.forall_mem_map]
  exact fun a _ => h a

theorem depth_written {σ : Type} {n : Nat} (fs : List (Decoder.Field σ))
    {xs : List (Option Json)} (h : ∀ x ∈ xs, Within n x) :
    (object (Decoder.written fs xs)).depth ≤ n + 1 := by
  refine Nat.succ_le_succ (depthMembers_le_iff.mpr ?_)
  induction fs generalizing xs with
  | nil => exact fun e he => absurd he List.not_mem_nil
  | cons f fs ih =>
      cases xs with
      | nil => exact fun e he => absurd he List.not_mem_nil
      | cons x xs =>
          simp only [List.forall_mem_cons] at h
          intro e he
          rcases List.mem_append.mp he with he | he
          · obtain ⟨j, hj, rfl⟩ := Option.map_eq_some_iff.mp (Option.mem_toList.mp he)
            exact h.1 j hj
          · exact ih h.2 e he

end Json

open Json (Within within_some within_map depth_array_map depth_written)

theorem Color.depth_json (c : Color) (n : Nat) : c.json.depth ≤ n := Nat.zero_le n

theorem Json.depth_string (s : String) (n : Nat) : (Json.string s).depth ≤ n := Nat.zero_le n

theorem Json.depth_ofInt (i : Int) (n : Nat) : (Json.ofInt i).depth ≤ n := by
  unfold Json.ofInt
  split <;> exact Nat.zero_le n

theorem Attribute.depth_json (a : Attribute) (n : Nat) : a.json.depth ≤ n := Nat.zero_le n

theorem Attribute.within_listJson? (as : List Attribute) : Within 1 (listJson? as) := by
  cases as with
  | nil => exact fun j hj => nomatch hj
  | cons a as => exact within_some (depth_array_map (Attribute.depth_json · 0) (a :: as))

theorem Style.depth_json (s : Style) : s.json.depth ≤ 2 := by
  rw [Style.json_eq]
  refine depth_written _ ?_
  simp only [List.forall_mem_cons]
  exact ⟨within_map (Color.depth_json · 1) s.fg, within_map (Color.depth_json · 1) s.bg,
    Attribute.within_listJson? s.attrs, Attribute.within_listJson? s.unset,
    fun _ h => absurd h List.not_mem_nil⟩

theorem SeparatorSet.depth_json (s : SeparatorSet) : s.json.depth = 1 := rfl

theorem Segment.depth_json (s : Segment) : s.json.depth ≤ 3 := by
  rw [Segment.json_eq]
  refine depth_written _ ?_
  simp only [List.forall_mem_cons]
  exact ⟨within_map (Json.depth_string · 2) _, within_map (Json.depth_string · 2) _,
    within_some (s.ownBg.depth_json 2), within_some (s.ownFg.depth_json 2),
    within_map Style.depth_json s.style, within_map (Json.depth_string · 2) s.separator,
    fun _ h => absurd h List.not_mem_nil⟩

theorem WindowList.depth_json (w : WindowList) : w.json.depth ≤ 4 := by
  rw [WindowList.json_eq]
  refine depth_written _ ?_
  simp only [List.forall_mem_cons]
  exact ⟨within_some w.active.depth_json, within_some w.inactive.depth_json,
    within_some (Json.depth_string _ 3), fun _ h => absurd h List.not_mem_nil⟩

theorem SideConfig.depth_json (s : SideConfig) : s.json.depth ≤ 5 := by
  rw [SideConfig.json_eq]
  refine depth_written _ ?_
  have hstyle (t : Style) : t.json.depth ≤ 4 := Nat.le_trans t.depth_json (by decide)
  simp only [List.forall_mem_cons]
  exact ⟨within_some (depth_array_map Segment.depth_json s.segments), within_map hstyle s.style,
    fun _ h => absurd h List.not_mem_nil⟩

theorem Options.depth_json (o : Options) : o.json.depth ≤ 1 := by
  rw [Options.json_eq]
  refine depth_written _ ?_
  simp only [List.forall_mem_cons]
  exact ⟨within_some (Nat.zero_le 0), within_some (Nat.zero_le 0),
    within_some (Json.depth_string _ 0), within_some (Json.depth_string _ 0),
    within_some (Json.depth_string _ 0), within_some (Json.depth_string _ 0),
    fun _ h => absurd h List.not_mem_nil⟩

theorem Statusbar.depth_json (b : Statusbar) {n : Nat}
    (h : (Arguments.json b.arguments).depth ≤ n + 5) : b.json.depth ≤ n + 6 := by
  rw [Statusbar.json_eq]
  refine depth_written _ ?_
  have hside (s : SideConfig) : s.json.depth ≤ n + 5 := Nat.le_trans s.depth_json (by omega)
  have hset (s : SeparatorSet) : s.json.depth ≤ n + 5 := by
    rw [s.depth_json]
    omega
  have hstyle (s : Style) : s.json.depth ≤ n + 5 := Nat.le_trans s.depth_json (by omega)
  simp only [List.forall_mem_cons]
  exact ⟨within_some (hside b.left), within_some (hside b.right),
    within_some (Nat.le_trans b.windows.depth_json (by omega)), within_some (hset b.separator),
    within_map hset b.leftEnd, within_map hset b.rightEnd, within_some h,
    within_some (Json.depth_ofInt _ _), within_some (Json.depth_ofInt _ _),
    within_some (b.bg.depth_json _), within_some (b.fg.depth_json _), within_map hstyle b.style,
    within_some (Json.depth_ofInt _ _), within_some (Nat.zero_le _),
    fun _ h => absurd h List.not_mem_nil⟩

theorem Config.depth_json (c : Config) {n : Nat}
    (h : (Arguments.json c.statusbar.arguments).depth ≤ n + 5) : c.json.depth ≤ n + 7 := by
  rw [Config.json_eq]
  refine depth_written _ ?_
  simp only [List.forall_mem_cons]
  exact ⟨within_some (c.statusbar.depth_json h),
    within_some (Nat.le_trans c.options.depth_json (by omega)),
    fun _ h => absurd h List.not_mem_nil⟩

open Decoder (field_of_record entries_of_keyed depth_of_json map_eq_ok)

theorem depth_of_keyed {α : Type} {decode : Decoder α} {p : Place} (hp : p.level + 1 ≤ deepest)
    (hmember : ∀ j x, decode p.inside (.ofJson j) = .ok x → p.inside.level + j.depth ≤ deepest)
    {j : Json} {m : Keyed α} (h : Decoder.keyed decode p (.ofJson j) = .ok m) :
    p.level + j.depth ≤ deepest := by
  cases j with
  | object members =>
      have hmembers : Json.depthMembers members ≤ deepest - p.level - 1 := by
        refine Json.depthMembers_le_iff.mpr fun e he => ?_
        obtain ⟨x, hx⟩ := entries_of_keyed h e he
        have := hmember e.2 x hx
        simp only [Place.inside] at this
        omega
      simp only [Json.depth]
      omega
  | _ => cases h

theorem Arguments.depth_of_decoder {p : Place} (hp : p.dialect = .jsonText)
    (hlevel : p.level + 2 ≤ deepest) {j : Json} {args : Keyed Arguments}
    (h : Decoder.keyed Arguments.decoder p (.ofJson j) = .ok args) :
    p.level + j.depth ≤ deepest := by
  refine depth_of_keyed (by omega) (fun k x hx => ?_) h
  refine depth_of_keyed hlevel (fun l y hy => ?_) hx
  exact depth_of_json (show p.inside.inside.dialect = .jsonText from hp) hy

theorem Statusbar.depth_of_decoder {b d : Statusbar}
    (h : Statusbar.record.decode ⟨.jsonText, 1⟩ (.ofJson b.json) = .ok d) :
    (Arguments.json b.arguments).depth ≤ 125 := by
  rw [Statusbar.json_eq] at h
  obtain ⟨u, v, hread⟩ := field_of_record h (List.mem_of_getElem? (i := 6) rfl) rfl
  obtain ⟨args, hargs, -⟩ := map_eq_ok.mp hread
  have hdepth := Arguments.depth_of_decoder rfl (by decide) hargs
  simp only [Place.inside, deepest] at hdepth
  omega

/-- A configuration that is read out of a text nests fewer than 128 levels. -/
theorem Config.depth_lt_of_decoder {c d : Config}
    (h : Config.decoder ⟨.jsonText, 0⟩ (.ofJson c.json) = .ok d) : c.json.depth < 128 := by
  rw [Config.json_eq] at h
  obtain ⟨u, v, hread⟩ := field_of_record h List.mem_cons_self rfl
  obtain ⟨b, hb, -⟩ := map_eq_ok.mp hread
  have hdepth := c.depth_json (n := 120) (Statusbar.depth_of_decoder hb)
  omega

end StatusLine
