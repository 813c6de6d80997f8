import StatusLine.Proofs.Document.Depth
import StatusLine.Proofs.Snapshot

/-!
Snapshots in which fields are left out. A field that may be left out stands at what a new
configuration has there, so leaving it out changes nothing when that is what it was.
-/

namespace StatusLine

open Decoder

inductive Step where
  | key (name : String)
  | item (i : Nat)
deriving DecidableEq

namespace Json

mutual

def without (drop : List Step → Bool) : Json → Json
  | .array items => .array (withoutItems drop 0 items)
  | .object members => .object (withoutMembers drop members)
  | j => j

def withoutItems (drop : List Step → Bool) (i : Nat) : List Json → List Json
  | [] => []
  | x :: rest => without (fun path => drop (.item i :: path)) x :: withoutItems drop (i + 1) rest

def withoutMembers (drop : List Step → Bool) : List (String × Json) → List (String × Json)
  | [] => []
  | (k, x) :: rest =>
      if drop [.key k] then withoutMembers drop rest
      else (k, without (fun path => drop (.key k :: path)) x) :: withoutMembers drop rest

end

mutual

theorem without_eq_self {drop : List Step → Bool} :
    ∀ j : Json, (∀ path, path ≠ [] → drop path = false) → j.without drop = j
  | .null, _ => rfl
  | .bool _, _ => rfl
  | .whole _, _ => rfl
  | .real _, _ => rfl
  | .string _, _ => rfl
  | .array items, h => congrArg array (withoutItems_eq_self 0 items h)
  | .object members, h => congrArg object (withoutMembers_eq_self members h)

theorem withoutItems_eq_self {drop : List Step → Bool} (i : Nat) :
    ∀ items : List Json, (∀ path, path ≠ [] → drop path = false) →
      withoutItems drop i items = items
  | [], _ => rfl
  | x :: rest, h => by
      rw [withoutItems, without_eq_self x fun path _ => h _ (List.cons_ne_nil _ path),
        withoutItems_eq_self (i + 1) rest h]

theorem withoutMembers_eq_self {drop : List Step → Bool} :
    ∀ members : List (String × Json), (∀ path, path ≠ [] → drop path = false) →
      withoutMembers drop members = members
  | [], _ => rfl
  | (k, x) :: rest, h => by
      rw [withoutMembers, if_neg (by simp [h]),
        without_eq_self x fun path _ => h _ (List.cons_ne_nil _ path),
        withoutMembers_eq_self rest h]

end

mutual

theorem depth_without (drop : List Step → Bool) : ∀ j : Json, (j.without drop).depth ≤ j.depth
  | .null => Nat.le_refl _
  | .bool _ => Nat.le_refl _
  | .whole _ => Nat.le_refl _
  | .real _ => Nat.le_refl _
  | .string _ => Nat.le_refl _
  | .array items => Nat.succ_le_succ (depthItems_withoutItems drop 0 items)
  | .object members => Nat.succ_le_succ (depthMembers_withoutMembers drop members)

theorem depthItems_withoutItems (drop : List Step → Bool) (i : Nat) :
    ∀ items : List Json, depthItems (withoutItems drop i items) ≤ depthItems items
  | [] => Nat.le_refl _
  | x :: rest => by
      have hx := depth_without (fun path => drop (.item i :: path)) x
      have hrest := depthItems_withoutItems drop (i + 1) rest
      simp only [withoutItems, depthItems]
      omega

theorem depthMembers_withoutMembers (drop : List Step → Bool) :
    ∀ members : List (String × Json),
      depthMembers (withoutMembers drop members) ≤ depthMembers members
  | [] => Nat.le_refl _
  | (k, x) :: rest => by
      have hx := depth_without (fun path => drop (.key k :: path)) x
      have hrest := depthMembers_withoutMembers drop rest
      rw [withoutMembers]
      split
      · simp only [depthMembers]
        omega
      · simp only [depthMembers]
        omega

end

mutual

theorem isExact_without (drop : List Step → Bool) :
    ∀ j : Json, j.isExact = true → (j.without drop).isExact = true
  | .null, _ => rfl
  | .bool _, _ => rfl
  | .whole _, _ => rfl
  | .real _, h => h
  | .string _, _ => rfl
  | .array items, h => areExact_withoutItems drop 0 items h
  | .object members, h => haveExact_withoutMembers drop members h

theorem areExact_withoutItems (drop : List Step → Bool) (i : Nat) :
    ∀ items : List Json, areExact items = true → areExact (withoutItems drop i items) = true
  | [], _ => rfl
  | x :: rest, h => by
      simp only [areExact, Bool.and_eq_true] at h
      simp [withoutItems, areExact, isExact_without _ x h.1,
        areExact_withoutItems drop (i + 1) rest h.2]

theorem haveExact_withoutMembers (drop : List Step → Bool) :
    ∀ members : List (String × Json),
      haveExact members = true → haveExact (withoutMembers drop members) = true
  | [], _ => rfl
  | (k, x) :: rest, h => by
      simp only [haveExact, Bool.and_eq_true] at h
      rw [withoutMembers]
      split
      · exact haveExact_withoutMembers drop rest h.2
      · simp [haveExact, isExact_without _ x h.1, haveExact_withoutMembers drop rest h.2]

end

end Json

/-- The decoder puts into a field that is left out what the constructor puts there. -/
theorem Statusbar.new_eq_blank (windows : WindowList) :
    Statusbar.new [] [] windows = { Statusbar.record.blank with windows := windows } := rfl

theorem WindowList.new_eq_blank (active inactive : Segment) :
    WindowList.new active inactive =
      { WindowList.record.blank with active := active, inactive := inactive } := rfl

theorem Options.default_eq_blank : Options.default = Options.record.blank := rfl

theorem Config.new_eq_blank (b : Statusbar) :
    Config.new b = { Config.record.blank with statusbar := b } := rfl

def Segment.AtDefault (s : Segment) : List Step → Prop
  | [.key "bg"] => s.ownBg = (Segment.new s.content).ownBg
  | [.key "fg"] => s.ownFg = (Segment.new s.content).ownFg
  | _ => False

def WindowList.AtDefault (w : WindowList) : List Step → Prop
  | [.key "alignment"] => w.alignment = (WindowList.new w.active w.inactive).alignment
  | .key "active" :: path => w.active.AtDefault path
  | .key "inactive" :: path => w.inactive.AtDefault path
  | _ => False

def SideConfig.new (segments : List Segment) : SideConfig := ⟨segments, none⟩

def SideConfig.AtDefault (s : SideConfig) : List Step → Prop
  | [.key "segments"] => s.segments = (SideConfig.new []).segments
  | [.key "style"] => s.style = (SideConfig.new []).style
  | .key "segments" :: .item i :: path => ∃ x, s.segments[i]? = some x ∧ x.AtDefault path
  | _ => False

def Statusbar.AtDefault (b : Statusbar) : List Step → Prop
  | [.key "left"] => b.left = SideConfig.new []
  | [.key "right"] => b.right = SideConfig.new []
  | [.key "separator"] => b.separator = (Statusbar.new [] [] b.windows).separator
  | [.key "left_end_separator"] => b.leftEnd = (Statusbar.new [] [] b.windows).leftEnd
  | [.key "right_end_separator"] => b.rightEnd = (Statusbar.new [] [] b.windows).rightEnd
  | [.key "provider_args"] => b.arguments = (Statusbar.new [] [] b.windows).arguments
  | [.key "left_max_length"] => b.leftLength = (Statusbar.new [] [] b.windows).leftLength
  | [.key "right_max_length"] => b.rightLength = (Statusbar.new [] [] b.windows).rightLength
  | [.key "default_bg"] => b.bg = (Statusbar.new [] [] b.windows).bg
  | [.key "default_fg"] => b.fg = (Statusbar.new [] [] b.windows).fg
  | [.key "default_style"] => b.style = (Statusbar.new [] [] b.windows).style
  | [.key "status_interval"] => b.interval = (Statusbar.new [] [] b.windows).interval
  | [.key "visible"] => b.visible = (Statusbar.new [] [] b.windows).visible
  | .key "left" :: path => b.left.AtDefault path
  | .key "right" :: path => b.right.AtDefault path
  | .key "window_list" :: path => b.windows.AtDefault path
  | _ => False

def Options.AtDefault (o : Options) : List Step → Prop
  | [.key "renumber_windows"] => o.renumberWindows = Options.default.renumberWindows
  | [.key "auto_rename_window"] => o.renameWindows = Options.default.renameWindows
  | [.key "auto_rename_format"] => o.renameFormat = Options.default.renameFormat
  | [.key "pane_border"] => o.border = Options.default.border
  | [.key "pane_border_line"] => o.borderLine = Options.default.borderLine
  | [.key "pane_border_content"] => o.borderContent = Options.default.borderContent
  | _ => False

/-- Whether the field at a path of a configuration may be left out and is what a new configuration
has there. -/
def Config.AtDefault (c : Config) : List Step → Prop
  | [.key "options"] => c.options = (Config.new c.statusbar).options
  | .key "options" :: path => c.options.AtDefault path
  | .key "statusbar" :: path => c.statusbar.AtDefault path
  | _ => False

namespace Decoder

variable {α σ : Type} {drop : List Step → Bool}

def kept (drop : List Step → Bool) (name : String) (x : Option Json) : Option Json :=
  if drop [.key name] then none else x.map (Json.without fun path => drop (.key name :: path))

def keptAll (drop : List Step → Bool) : List (Field σ) → List (Option Json) → List (Option Json)
  | f :: fs, x :: xs => kept drop f.name x :: keptAll drop fs xs
  | _, _ => []

theorem withoutMembers_append (a b : List (String × Json)) :
    Json.withoutMembers drop (a ++ b) =
      Json.withoutMembers drop a ++ Json.withoutMembers drop b := by
  induction a with
  | nil => rfl
  | cons m rest ih =>
      obtain ⟨k, x⟩ := m
      simp only [List.cons_append, Json.withoutMembers, ih]
      split <;> rfl

theorem withoutMembers_member? (name : String) (x : Option Json) :
    Json.withoutMembers drop (Json.member? name x) = Json.member? name (kept drop name x) := by
  cases x with
  | none => simp [Json.member?, kept, Json.withoutMembers]
  | some j =>
      simp only [Json.member?, kept, Option.map_some, Option.toList_some, Json.withoutMembers]
      split <;> rfl

theorem without_written (fs : List (Field σ)) (xs : List (Option Json)) :
    (Json.object (written fs xs)).without drop =
      .object (written fs (keptAll drop fs xs)) := by
  refine congrArg Json.object ?_
  induction fs generalizing xs with
  | nil => rfl
  | cons f fs ih =>
      cases xs with
      | nil => rfl
      | cons x xs =>
          rw [written, withoutMembers_append, withoutMembers_member?, ih, keptAll, written]

namespace Fills

variable {fs : List (Field σ)} {xs : List (Option Json)} {s u : σ} {name : String}
  {decode : Decoder α} {set : α → σ → σ}

-- A field that is left out stands at `d` in the record, which `hblank` says.
theorem kept_of {j : Json} {x : α} (d : α) (hblank : set d s = s)
    (hdrop : drop [.key name] = true → x = d)
    (hread : Reads decode (j.without fun path => drop (.key name :: path)) x)
    (hrest : Fills fs xs (set x s) u) :
    Fills (.of name decode set :: fs) (kept drop name (some j) :: xs) s u := by
  by_cases h : drop [.key name] = true
  · rw [hdrop h, hblank] at hrest
    rw [kept, if_pos h]
    exact absent rfl hrest
  · rw [kept, if_neg h]
    exact of hread hrest

theorem kept_needed {j : Json} {x : α} (hkeep : drop [.key name] = false)
    (hread : Reads decode (j.without fun path => drop (.key name :: path)) x)
    (hrest : Fills fs xs (set x s) u) :
    Fills (.needed name decode set :: fs) (kept drop name (some j) :: xs) s u := by
  rw [kept, if_neg (by simp [hkeep])]
  exact needed hread hrest

theorem kept_optional {set : Option α → σ → σ} {encode : α → Json} (x : Option α)
    (h : ∀ a ∈ x, Reads decode (encode a) a)
    (hwhole : ∀ a, (encode a).without (fun path => drop (.key name :: path)) = encode a)
    (hnull : ∀ a, encode a ≠ .null) (hdrop : drop [.key name] = true → x = none)
    (hblank : set none s = s) (hrest : Fills fs xs (set x s) u) :
    Fills (.of name (Decoder.optional decode) set :: fs) (kept drop name (x.map encode) :: xs)
      s u := by
  have hkept : kept drop name (x.map encode) = x.map encode := by
    by_cases hname : drop [.key name] = true
    · rw [kept, if_pos hname, hdrop hname, Option.map_none]
    · rw [kept, if_neg hname, Option.map_map]
      exact Option.map_congr fun a _ => hwhole a
  rw [hkept]
  exact optional x h hnull hblank hrest

end Fills

end Decoder

theorem Segment.reads_without {drop : List Step → Bool} (s : Segment)
    (h : ∀ path, path ≠ [] → drop path = true → s.AtDefault path) :
    Reads Segment.decoder (s.json.without drop) s := by
  have hkeep (path : List Step) (hpath : path ≠ []) (hnot : ¬ s.AtDefault path) :
      drop path = false :=
    Bool.eq_false_iff.mpr (mt (h path hpath) hnot)
  have hrecord : Reads SegmentDraft.record.decode (s.json.without drop) s.draft := by
    rw [Segment.json_eq, without_written]
    refine reads_record (by decide) ?_
    have hstring : ∀ t : String, Json.string t ≠ .null := fun _ h => nomatch h
    refine .kept_optional s.content.text? (fun t _ => reads_text t) (fun _ => rfl) hstring
      (fun hd => (h _ (by simp) hd).elim) rfl ?_
    refine .kept_optional s.content.provider? (fun t _ => reads_text t) (fun _ => rfl) hstring
      (fun hd => (h _ (by simp) hd).elim) rfl ?_
    refine .kept_of .default rfl (fun hd => h _ (by simp) hd) s.ownBg.reads ?_
    refine .kept_of .default rfl (fun hd => h _ (by simp) hd) s.ownFg.reads ?_
    refine .kept_optional s.style (fun x _ => x.reads)
      (fun x => Json.without_eq_self _ fun path _ => hkeep _ (by simp) id)
      Style.json_ne_null (fun hd => (h _ (by simp) hd).elim) rfl ?_
    exact .kept_optional s.separator (fun t _ => reads_text t) (fun _ => rfl) hstring
      (fun hd => (h _ (by simp) hd).elim) rfl (.done s.draft)
  intro p hp
  simp only [Segment.decoder, hrecord p hp, s.segment_draft]
  rfl

theorem WindowList.reads_without {drop : List Step → Bool} (w : WindowList)
    (h : ∀ path, path ≠ [] → drop path = true → w.AtDefault path) :
    Reads WindowList.decoder (w.json.without drop) w := by
  have hkeep (path : List Step) (hpath : path ≠ []) (hnot : ¬ w.AtDefault path) :
      drop path = false :=
    Bool.eq_false_iff.mpr (mt (h path hpath) hnot)
  rw [WindowList.json_eq, without_written]
  refine reads_record (by decide) ?_
  refine .kept_needed (hkeep _ (by simp) id)
    (w.active.reads_without fun path _ hd => h _ (by simp) hd) ?_
  refine .kept_needed (hkeep _ (by simp) id)
    (w.inactive.reads_without fun path _ hd => h _ (by simp) hd) ?_
  exact .kept_of .left rfl (fun hd => h _ (by simp) hd) w.alignment.reads (.done w)

theorem SideConfig.reads_segments (drop : List Step → Bool) (segments : List Segment) (i : Nat)
    (h : ∀ k path, drop (.item (i + k) :: path) = true →
      ∃ x, segments[k]? = some x ∧ x.AtDefault path) :
    List.Forall₂ (Reads Segment.decoder)
      (Json.withoutItems drop i (segments.map Segment.json)) segments := by
  induction segments generalizing i with
  | nil => exact .nil
  | cons s rest ih =>
      refine .cons (s.reads_without fun path _ hd => ?_) (ih (i + 1) fun k path hd => ?_)
      · obtain ⟨x, hx, hdefault⟩ := h 0 path hd
        cases hx
        exact hdefault
      · rw [Nat.add_right_comm] at hd
        exact h (k + 1) path hd

theorem SideConfig.reads_without {drop : List Step → Bool} (s : SideConfig)
    (h : ∀ path, path ≠ [] → drop path = true → s.AtDefault path) :
    Reads SideConfig.decoder (s.json.without drop) s := by
  have hkeep (path : List Step) (hpath : path ≠ []) (hnot : ¬ s.AtDefault path) :
      drop path = false :=
    Bool.eq_false_iff.mpr (mt (h path hpath) hnot)
  have hsegments := SideConfig.reads_segments (fun path => drop (.key "segments" :: path))
    s.segments 0 fun k path hd => by
      rw [Nat.zero_add] at hd
      exact h _ (by simp) hd
  rw [SideConfig.json_eq, without_written]
  refine reads_record (by decide) ?_
  refine .kept_of [] rfl (fun hd => h _ (by simp) hd) (reads_list_of_forall₂ hsegments) ?_
  refine .kept_optional s.style (fun x _ => x.reads)
    (fun x => Json.without_eq_self _ fun path hpath => hkeep _ (by simp) ?_)
    Style.json_ne_null (fun hd => h _ (by simp) hd) rfl (.done s)
  cases path with
  | nil => exact absurd rfl hpath
  | cons step path => exact id

theorem Statusbar.reads_without {drop : List Step → Bool} (b : Statusbar)
    (hargs : (Arguments.json b.arguments).isOrdered = true)
    (h : ∀ path, path ≠ [] → drop path = true → b.AtDefault path) :
    Reads Statusbar.record.decode (b.json.without drop) b := by
  -- Below a field there is nothing to leave out but in the sides and the window list.
  have hwhole {name : String} (j : Json)
      (hnot : ∀ step path, ¬ b.AtDefault (.key name :: step :: path)) :
      j.without (fun path => drop (.key name :: path)) = j := by
    refine Json.without_eq_self j fun path hpath => ?_
    obtain ⟨step, rest, rfl⟩ := List.exists_cons_of_ne_nil hpath
    exact Bool.eq_false_iff.mpr (mt (h _ (by simp)) (hnot step rest))
  have hreads {α : Type} {decode : Decoder α} {j : Json} {x : α} {name : String}
      (hread : Reads decode j x) (hnot : ∀ step path, ¬ b.AtDefault (.key name :: step :: path)) :
      Reads decode (j.without fun path => drop (.key name :: path)) x := by
    rwa [hwhole j hnot]
  rw [Statusbar.json_eq, without_written]
  refine reads_record (by decide) ?_
  refine .kept_of (.new []) rfl (fun hd => h _ (by simp) hd)
    (b.left.reads_without fun path hpath hd => ?_) ?_
  · obtain ⟨step, rest, rfl⟩ := List.exists_cons_of_ne_nil hpath
    exact h _ (by simp) hd
  refine .kept_of (.new []) rfl (fun hd => h _ (by simp) hd)
    (b.right.reads_without fun path hpath hd => ?_) ?_
  · obtain ⟨step, rest, rfl⟩ := List.exists_cons_of_ne_nil hpath
    exact h _ (by simp) hd
  refine .kept_needed (Bool.eq_false_iff.mpr (mt (h _ (by simp)) id))
    (b.windows.reads_without fun path _ hd => h _ (by simp) hd) ?_
  refine .kept_of .default rfl (fun hd => h _ (by simp) hd)
    (hreads b.separator.reads fun _ _ => id) ?_
  refine .kept_optional b.leftEnd (fun x _ => x.reads) (fun x => hwhole _ fun _ _ => id)
    SeparatorSet.json_ne_null (fun hd => h _ (by simp) hd) rfl ?_
  refine .kept_optional b.rightEnd (fun x _ => x.reads) (fun x => hwhole _ fun _ _ => id)
    SeparatorSet.json_ne_null (fun hd => h _ (by simp) hd) rfl ?_
  refine .kept_of [] rfl (fun hd => h _ (by simp) hd)
    (hreads (Arguments.reads hargs) fun _ _ => id) ?_
  refine .kept_of 60 rfl (fun hd => h _ (by simp) hd)
    (hreads (reads_word32 b.leftLength) fun _ _ => id) ?_
  refine .kept_of 90 rfl (fun hd => h _ (by simp) hd)
    (hreads (reads_word32 b.rightLength) fun _ _ => id) ?_
  refine .kept_of .terminal rfl (fun hd => h _ (by simp) hd) b.bg.reads ?_
  refine .kept_of .terminal rfl (fun hd => h _ (by simp) hd) b.fg.reads ?_
  refine .kept_optional b.style (fun x _ => x.reads) (fun x => hwhole _ fun _ _ => id)
    Style.json_ne_null (fun hd => h _ (by simp) hd) rfl ?_
  refine .kept_of 1 rfl (fun hd => h _ (by simp) hd)
    (hreads (reads_word32 b.interval) fun _ _ => id) ?_
  exact .kept_of true rfl (fun hd => h _ (by simp) hd) (reads_boolean b.visible) (.done b)

theorem Options.reads_without {drop : List Step → Bool} (o : Options)
    (h : ∀ path, path ≠ [] → drop path = true → o.AtDefault path) :
    Reads Options.record.decode (o.json.without drop) o := by
  rw [Options.json_eq, without_written]
  refine reads_record (by decide) ?_
  refine .kept_of true rfl (fun hd => h _ (by simp) hd) (reads_boolean o.renumberWindows) ?_
  refine .kept_of true rfl (fun hd => h _ (by simp) hd) (reads_boolean o.renameWindows) ?_
  refine .kept_of Options.default.renameFormat rfl (fun hd => h _ (by simp) hd)
    (reads_text o.renameFormat) ?_
  refine .kept_of .top rfl (fun hd => h _ (by simp) hd) o.border.reads ?_
  refine .kept_of .single rfl (fun hd => h _ (by simp) hd) o.borderLine.reads ?_
  exact .kept_of Options.default.borderContent rfl (fun hd => h _ (by simp) hd)
    (reads_text o.borderContent) (.done o)

theorem Config.reads_without {drop : List Step → Bool} (c : Config) (hordered : c.Ordered)
    (h : ∀ path, drop path = true → c.AtDefault path) :
    Reads Config.decoder (c.json.without drop) c := by
  rw [Config.json_eq, without_written]
  refine reads_record (by decide) ?_
  refine .kept_needed (Bool.eq_false_iff.mpr (mt (h _) id))
    (c.statusbar.reads_without hordered fun path _ hd => h _ hd) ?_
  refine .kept_of .default rfl (fun hd => h _ hd)
    (c.options.reads_without fun path hpath hd => ?_) (.done c)
  obtain ⟨step, rest, rfl⟩ := List.exists_cons_of_ne_nil hpath
  exact h _ hd

theorem Json.isExact_written {σ : Type} (fs : List (Decoder.Field σ)) {xs : List (Option Json)}
    (h : ∀ x ∈ xs, x.all Json.isExact = true) : (Json.object (written fs xs)).isExact = true := by
  induction fs generalizing xs with
  | nil => rfl
  | cons f fs ih =>
      cases xs with
      | nil => rfl
      | cons x xs =>
          simp only [List.forall_mem_cons] at h
          have hrest : Json.haveExact (written fs xs) = true := ih h.2
          simp [Json.isExact, written, Json.haveExact_append, Json.haveExact_member?, h.1, hrest]

theorem Config.isExact_json {c : Config}
    (h : (Arguments.json c.statusbar.arguments).isExact = true) : c.json.isExact = true := by
  have hstatusbar : c.statusbar.json.isExact = true := by
    rw [Statusbar.json_eq_append]
    refine Json.isExact_written _ ?_
    simp only [List.forall_mem_append, List.forall_mem_cons]
    exact ⟨c.statusbar.before_exact, Json.all_isExact_some h, c.statusbar.after_exact⟩
  rw [Config.json_eq]
  refine Json.isExact_written _ ?_
  simp only [List.forall_mem_cons]
  exact ⟨Json.all_isExact_some hstatusbar, Json.all_isExact_some c.options.isExact_json,
    fun _ h => absurd h List.not_mem_nil⟩

namespace Snapshot

def sparse (left right : List Segment) (active inactive : Segment) : Json :=
  let side (segments : List Segment) : Json :=
    .object [("segments", .array (segments.map Segment.json))]
  .object [("statusbar", .object [("left", side left), ("right", side right),
    ("window_list", .object [("active", active.json), ("inactive", inactive.json)])])]

theorem read_without {c : Config} {drop : List Step → Bool} (hordered : c.Ordered)
    (hstorable : c.Storable) (h : ∀ path, drop path = true → c.AtDefault path) :
    read (c.json.without drop).spreadText = .ok c := by
  have hexact := Json.isExact_without drop c.json (Config.isExact_json hstorable.exact)
  have htext := Json.read_spreadText _ (Json.inRange_of_isExact hexact)
  rw [Json.mapReals_of_isExact hexact] at htext
  have hlevel : (⟨.jsonText, 0⟩ : Place).level + (c.json.without drop).depth ≤ deepest := by
    have hdepth := Json.depth_without drop c.json
    have hshallow := hstorable.shallow
    simp only [deepest]
    omega
  have hdecode := c.reads_without hordered h ⟨.jsonText, 0⟩ hlevel
  simp only [read, Decoder.ofText, htext, hdecode, if_true]

def sparePaths : List (List Step) :=
  [.key "options"] :: [.key "statusbar", .key "window_list", .key "alignment"] ::
    ["separator", "left_end_separator", "right_end_separator", "provider_args", "left_max_length",
      "right_max_length", "default_bg", "default_fg", "default_style", "status_interval",
      "visible"].map fun name => [.key "statusbar", .key name]

theorem sparse_eq_without (left right : List Segment) (active inactive : Segment) :
    sparse left right active inactive =
      (Config.new (.new left right (.new active inactive))).json.without
        fun path => sparePaths.contains path := by
  have hvalue (j : Json) : j.without (fun _ => false) = j := Json.without_eq_self j fun _ _ => rfl
  have hitems (js : List Json) : Json.withoutItems (fun _ => false) 0 js = js :=
    Json.withoutItems_eq_self 0 js fun _ _ => rfl
  simp [sparse, Config.json, Statusbar.json, Config.new, Statusbar.new, Settings.default,
    SideConfig.json, WindowList.new, WindowList.json, Json.member?, Json.without,
    Json.withoutMembers, sparePaths, hvalue, hitems]

theorem atDefault_sparePaths (left right : List Segment) (active inactive : Segment) :
    ∀ path ∈ sparePaths, (Config.new (.new left right (.new active inactive))).AtDefault path := by
  simp only [sparePaths, List.map_cons, List.map_nil, List.forall_mem_cons]
  exact ⟨rfl, rfl, rfl, rfl, rfl, rfl, rfl, rfl, rfl, rfl, rfl, rfl, rfl,
    fun _ h => absurd h List.not_mem_nil⟩

/-- A snapshot is read back as it was when fields are left out of it, at any paths, that stand at
what a new configuration has there. A snapshot of the segments alone is read as the new
configuration of these segments. -/
theorem read_without_defaults :
    (∀ (c : Config) (drop : List Step → Bool), c.Ordered → c.Storable →
      (∀ path, drop path = true → c.AtDefault path) →
        read (c.json.without drop).spreadText = .ok c) ∧
    ∀ left right active inactive, read (sparse left right active inactive).spreadText =
      .ok (.new (.new left right (.new active inactive))) := by
  refine ⟨fun c drop hordered hstorable h => read_without hordered hstorable h, ?_⟩
  intro left right active inactive
  have hargs : (Arguments.json []).depth ≤ 0 + 5 := by decide
  have hdepth := (Config.new (.new left right (.new active inactive))).depth_json hargs
  rw [sparse_eq_without]
  refine read_without rfl ⟨rfl, by omega⟩ fun path hpath => ?_
  exact atDefault_sparePaths left right active inactive path (by simpa using hpath)

theorem read_without_defaults_of_styled :
    let c : Config := .new { Statusbar.new
      [{ Segment.literal "," with ownBg := .hex ⟨"#A0b1C2", rfl⟩, separator := some "" }] []
      (.new ((Segment.provider "time").withStyle .empty) (.literal "\n")) with
      arguments := [("cwd", [("max_length", .ofInt (-3))])], visible := false }
    let spare : List (List Step) :=
      [[.key "statusbar", .key "right"],
        [.key "statusbar", .key "left", .key "segments", .item 0, .key "fg"],
        [.key "statusbar", .key "window_list", .key "active", .key "bg"],
        [.key "statusbar", .key "left_max_length"], [.key "options", .key "pane_border"]]
    c.Ordered ∧ c.Storable ∧
      read (c.json.without fun path => spare.contains path).spreadText = .ok c := by
  intro c spare
  have hordered : c.Ordered := by decide
  have hstorable : c.Storable := ⟨by decide, by decide⟩
  have hdefault : ∀ path ∈ spare, c.AtDefault path := by
    simp only [spare, List.forall_mem_cons]
    exact ⟨rfl, ⟨_, rfl, rfl⟩, rfl, rfl, rfl, fun _ h => absurd h List.not_mem_nil⟩
  refine ⟨hordered, hstorable, read_without_defaults.1 c _ hordered hstorable fun path hpath => ?_⟩
  exact hdefault path (by simpa using hpath)

end Snapshot

end StatusLine
