import StatusLine.Proofs.Document.Decoder

namespace StatusLine.Decoder

variable {α σ : Type}

def written : List (Field σ) → List (Option Json) → List (String × Json)
  | f :: fs, x :: xs => Json.member? f.name x ++ written fs xs
  | _, _ => []

/-- `Fills fs xs s t`: reading the values `xs` into the fields `fs` makes `t` out of `s`. -/
inductive Fills : List (Field σ) → List (Option Json) → σ → σ → Prop where
  | done (s : σ) : Fills [] [] s s
  | given {f : Field σ} {fs : List (Field σ)} {j : Json} {xs : List (Option Json)} {s t u : σ}
      (hread : ∀ p : Place, p.level + j.depth ≤ deepest → f.read p (.ofJson j) s = .ok t)
      (hrest : Fills fs xs t u) : Fills (f :: fs) (some j :: xs) s u
  | absent {f : Field σ} {fs : List (Field σ)} {xs : List (Option Json)} {s u : σ}
      (hrequired : f.required = false) (hrest : Fills fs xs s u) : Fills (f :: fs) (none :: xs) s u

namespace Fills

variable {fs : List (Field σ)} {xs : List (Option Json)} {s u : σ} {name : String}
  {decode : Decoder α} {set : α → σ → σ}

theorem of {j : Json} {x : α} (h : Reads decode j x) (hrest : Fills fs xs (set x s) u) :
    Fills (.of name decode set :: fs) (some j :: xs) s u :=
  given (fun p hp => by simp [Field.of, h p hp, Except.map]) hrest

theorem needed {j : Json} {x : α} (h : Reads decode j x) (hrest : Fills fs xs (set x s) u) :
    Fills (.needed name decode set :: fs) (some j :: xs) s u :=
  given (fun p hp => by simp [Field.needed, h p hp, Except.map]) hrest

-- A field that is left out stands at `none` in the record, which `hblank` says.
theorem optional {set : Option α → σ → σ} {encode : α → Json} (x : Option α)
    (h : ∀ a ∈ x, Reads decode (encode a) a) (hnull : ∀ a, encode a ≠ .null)
    (hblank : set none s = s) (hrest : Fills fs xs (set x s) u) :
    Fills (.of name (Decoder.optional decode) set :: fs) (x.map encode :: xs) s u := by
  cases x with
  | none =>
      rw [hblank] at hrest
      exact absent rfl hrest
  | some a => exact of (reads_optional (h a rfl) (hnull a)) hrest

end Fills

theorem field?_of_mem {r : Record σ} (hnames : r.names.Nodup) {f : Field σ} (hf : f ∈ r.fields) :
    r.field? f.name = some f := by
  rw [Record.field?, List.find?_eq_some_iff_append]
  obtain ⟨before, after, heq⟩ := List.append_of_mem hf
  refine ⟨beq_self_eq_true _, before, after, heq, ?_⟩
  intro g hg
  have hdisjoint := hnames
  rw [Record.names, heq, List.map_append, List.map_cons, List.nodup_append] at hdisjoint
  have hne := hdisjoint.2.2 g.name (List.mem_map_of_mem hg) f.name List.mem_cons_self
  simpa using hne

theorem readEntries_written {r : Record σ} (hnames : r.names.Nodup) {p : Place}
    {fs : List (Field σ)} {xs : List (Option Json)} {s t : σ} (h : Fills fs xs s t)
    (hfields : ∀ f ∈ fs, f ∈ r.fields) (hnodup : (fs.map Field.name).Nodup) (seen : List String)
    (hseen : ∀ f ∈ fs, f.name ∉ seen)
    (hdepth : p.level + Json.depthMembers (written fs xs) ≤ deepest) :
    ∃ given, r.readEntries p (Node.ofMembers (written fs xs)) seen s = .ok (given, t) ∧
      seen ⊆ given ∧ ∀ f ∈ fs, f.required = true → f.name ∈ given := by
  -- `fs` are the fields that are still to come, none of which is among those `seen`.
  induction h generalizing seen with
  | done s => exact ⟨seen, rfl, List.Subset.refl seen, fun _ h => absurd h List.not_mem_nil⟩
  | @given f fs j xs s t u hread hrest ih =>
      obtain ⟨hfresh, htail⟩ := List.nodup_cons.mp hnodup
      simp only [written, Json.member?, Option.map_some, Option.toList_some, List.cons_append,
        List.nil_append, Json.depthMembers] at hdepth ⊢
      have hf := field?_of_mem hnames (hfields f List.mem_cons_self)
      have hcontains : seen.contains f.name = false := by
        simpa using hseen f List.mem_cons_self
      obtain ⟨given, hgiven, hsubset, hrequired⟩ :=
        ih (fun g hg => hfields g (List.mem_cons_of_mem f hg)) htail (f.name :: seen)
          (by
            intro g hg hmem
            rcases List.mem_cons.mp hmem with heq | hmem
            · exact hfresh (heq ▸ List.mem_map_of_mem hg)
            · exact hseen g (List.mem_cons_of_mem f hg) hmem)
          (by omega)
      refine ⟨given, ?_, fun n hn => hsubset (List.mem_cons_of_mem _ hn), ?_⟩
      · rw [Node.ofMembers, Record.readEntries]
        simp only [hf, hcontains, hread p (by omega)]
        exact hgiven
      · intro g hg hreq
        rcases List.mem_cons.mp hg with rfl | hg
        · exact hsubset List.mem_cons_self
        · exact hrequired g hg hreq
  | @absent f fs xs s u hoptional hrest ih =>
      obtain ⟨-, htail⟩ := List.nodup_cons.mp hnodup
      obtain ⟨given, hgiven, hsubset, hrequired⟩ :=
        ih (fun g hg => hfields g (List.mem_cons_of_mem f hg)) htail seen
          (fun g hg => hseen g (List.mem_cons_of_mem f hg)) hdepth
      refine ⟨given, hgiven, hsubset, ?_⟩
      intro g hg hreq
      rcases List.mem_cons.mp hg with rfl | hg
      · rw [hoptional] at hreq
        cases hreq
      · exact hrequired g hg hreq

theorem reads_record {r : Record σ} (hnames : r.names.Nodup) {xs : List (Option Json)} {s : σ}
    (h : Fills r.fields xs r.blank s) : Reads r.decode (.object (written r.fields xs)) s := by
  intro p hp
  simp only [Json.depth] at hp
  obtain ⟨given, hgiven, -, hrequired⟩ :=
    readEntries_written (p := p.inside) hnames h (fun _ hf => hf) hnames [] (by simp)
      (by simp only [Place.inside]; omega)
  have habsent : Record.absent? r.fields given = none := by
    simp only [Record.absent?, Option.map_eq_none_iff, List.find?_eq_none, Bool.and_eq_true,
      Bool.not_eq_true', List.contains_eq_mem, decide_eq_false_iff_not, not_and, Decidable.not_not]
    exact hrequired
  simp only [Node.ofJson, Record.decode, entries?, Record.ofEntries, hgiven]
  simp only [bind, Except.bind, decide_true, if_true, habsent]

theorem readEntries_mem {r : Record σ} {p : Place} {es : List (String × Node)}
    {seen given : List String} {s t : σ} (h : r.readEntries p es seen s = .ok (given, t))
    {key : String} {n : Node} (hn : (key, n) ∈ es) :
    (∃ f u v, r.field? key = some f ∧ f.read p n u = .ok v) ∨
      r.field? key = none ∧ r.strict = false := by
  induction es generalizing seen s with
  | nil => cases hn
  | cons e rest ih =>
      obtain ⟨k, m⟩ := e
      rw [Record.readEntries] at h
      split at h
      · rename_i f hf
        split at h
        · cases h
        · obtain ⟨u, hu, h⟩ := bind_eq_ok.mp h
          rcases List.mem_cons.mp hn with heq | hn
          · cases heq
            exact .inl ⟨f, s, u, hf, hu⟩
          · exact ih h hn
      · rename_i hf
        split at h
        · cases h
        · rename_i hlenient
          split at h
          · cases h
          · rcases List.mem_cons.mp hn with heq | hn
            · cases heq
              exact .inr ⟨hf, Bool.eq_false_iff.mpr hlenient⟩
            · exact ih h hn

variable {P : σ → Prop} {Q : Node → Prop}

/-- Whether a field keeps what holds of the record when it is read off a node that `Q` holds of. -/
def Field.Keeps (Q : Node → Prop) (P : σ → Prop) (f : Field σ) : Prop :=
  ∀ p node s t, Q node → P s → f.read p node s = .ok t → P t

theorem Field.keeps_of {name : String} {decode : Decoder α} {set : α → σ → σ}
    (h : ∀ p node x s, Q node → decode p node = .ok x → P s → P (set x s)) :
    (Field.of name decode set).Keeps Q P := by
  intro p node s t hnode hs ht
  simp only [Field.of] at ht
  cases hx : decode p node with
  | error e => simp [hx, Except.map] at ht
  | ok x =>
      simp only [hx, Except.map, Except.ok.injEq] at ht
      exact ht ▸ h p node x s hnode hx hs

theorem Field.keeps_needed {name : String} {decode : Decoder α} {set : α → σ → σ}
    (h : ∀ p node x s, Q node → decode p node = .ok x → P s → P (set x s)) :
    (Field.needed name decode set).Keeps Q P := by
  have hkeeps : (Field.of name decode set).Keeps Q P := Field.keeps_of h
  exact fun p node s t hnode hs ht => hkeeps p node s t hnode hs ht

theorem readEntries_keeps {r : Record σ} (h : ∀ f ∈ r.fields, f.Keeps Q P) {p : Place}
    {es : List (String × Node)} (hes : ∀ e ∈ es, Q e.2) {seen given : List String} {s t : σ}
    (hs : P s) (ht : r.readEntries p es seen s = .ok (given, t)) : P t := by
  induction es generalizing seen s with
  | nil =>
      cases ht
      exact hs
  | cons e rest ih =>
      obtain ⟨key, node⟩ := e
      simp only [List.forall_mem_cons] at hes
      rw [Record.readEntries] at ht
      split at ht
      · rename_i f hf
        split at ht
        · cases ht
        · obtain ⟨u, hu, ht⟩ := bind_eq_ok.mp ht
          exact ih hes.2 (h f (List.mem_of_find?_eq_some hf) p node s u hes.1 hs hu) ht
      · split at ht
        · cases ht
        · split at ht
          · cases ht
          · exact ih hes.2 hs ht

theorem readItems_keeps {r : Record σ} {p : Place} {closed : Bool} {fs : List (Field σ)}
    (h : ∀ f ∈ fs, f.Keeps Q P) {i : Nat} {nodes surplus : List Node} (hnodes : ∀ n ∈ nodes, Q n)
    {s t : σ} (hs : P s) (ht : r.readItems p closed i fs nodes s = .ok (surplus, t)) : P t := by
  induction fs generalizing i nodes s with
  | nil =>
      rw [Record.readItems] at ht
      cases ht
      exact hs
  | cons f fs ih =>
      have hrest : ∀ g ∈ fs, g.Keeps Q P := fun g hg => h g (List.mem_cons_of_mem f hg)
      cases nodes with
      | nil =>
          rw [Record.readItems] at ht
          split at ht
          · cases ht
          · split at ht
            · cases ht
            · exact ih hrest hnodes hs ht
      | cons node nodes =>
          simp only [List.forall_mem_cons] at hnodes
          rw [Record.readItems] at ht
          obtain ⟨u, hu, ht⟩ := bind_eq_ok.mp ht
          exact ih hrest hnodes.2 (h f List.mem_cons_self p node s u hnodes.1 hs hu) ht

theorem ofEntries_keeps {r : Record σ} (h : ∀ f ∈ r.fields, f.Keeps Q P) (hblank : P r.blank)
    {p : Place} {es : List (String × Node)} (hes : ∀ e ∈ es, Q e.2) {closed : Bool} {t : σ}
    (ht : r.ofEntries p es closed = .ok t) : P t := by
  obtain ⟨⟨given, u⟩, hu, ht⟩ := bind_eq_ok.mp ht
  have hkept := readEntries_keeps h hes hblank hu
  dsimp only at ht
  split at ht
  · split at ht
    · cases ht
    · cases ht
      exact hkept
  · cases ht

theorem ofList_keeps {r : Record σ} (h : ∀ f ∈ r.fields, f.Keeps Q P) (hblank : P r.blank)
    {p : Place} {nodes : List Node} (hnodes : ∀ n ∈ nodes, Q n) {closed : Bool} {t : σ}
    (ht : r.ofList p nodes closed = .ok t) : P t := by
  obtain ⟨⟨surplus, u⟩, hu, ht⟩ := bind_eq_ok.mp ht
  have hkept := readItems_keeps h hnodes hblank hu
  dsimp only at ht
  split at ht
  · cases ht
  · split at ht
    · cases ht
      exact hkept
    · split at ht <;> cases ht

theorem decode_keeps (hQ : Inherited Q) {r : Record σ} (h : ∀ f ∈ r.fields, f.Keeps Q P)
    (hblank : P r.blank) {p : Place} {node : Node} (hnode : Q node) {t : σ}
    (ht : r.decode p node = .ok t) : P t := by
  simp only [Record.decode] at ht
  split at ht
  · rename_i hentries
    exact ofEntries_keeps h hblank (hQ.entries hentries hnode) ht
  · split at ht
    · rename_i hitems
      exact ofList_keeps h hblank (hQ.items hitems hnode) ht
    · cases ht

end StatusLine.Decoder
