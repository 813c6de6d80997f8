import StatusLine.Proofs.Document.Reals
import StatusLine.Toml.Document

namespace StatusLine.Toml

theorem inRange_integer? {i : Int} {node : Node} (h : Number.integer? i = some node) :
    node.InRange := by
  unfold Number.integer? at h
  split at h <;> cases h
  exact Node.inRange_of_reals_nil rfl

theorem inRange_real? {negative : Bool} {ds : List Char} {exponent : Int} {node : Node}
    (h : Number.real? negative ds exponent = some node) : node.InRange := by
  unfold Number.real? at h
  split at h <;> cases h
  rw [Node.inRange_real]
  exact Binary64.isInRange_ofDecimal ..

theorem inRange_decimal? {negative : Bool} {cs rest : List Char} {node : Node}
    (h : Number.decimal? negative cs = some (node, rest)) : node.InRange := by
  simp only [Number.decimal?, Option.bind_eq_bind, Option.bind_eq_some_iff] at h
  obtain ⟨w, -, f, -, e, -, h⟩ := h
  split at h
  · obtain ⟨n, hn, h⟩ := Option.bind_eq_some_iff.mp h
    cases h
    exact inRange_integer? hn
  · obtain ⟨n, hn, h⟩ := Option.bind_eq_some_iff.mp h
    cases h
    exact inRange_real? hn

theorem inRange_based? {base : Nat} {cs rest : List Char} {node : Node}
    (h : Number.based? base cs = some (node, rest)) : node.InRange := by
  simp only [Number.based?, Option.bind_eq_bind, Option.bind_eq_some_iff] at h
  obtain ⟨ds, -, n, hn, h⟩ := h
  cases h
  exact inRange_integer? hn

theorem inRange_special? {negative : Bool} {cs rest : List Char} {node : Node}
    (h : Number.special? negative cs = some (node, rest)) : node.InRange := by
  unfold Number.special? at h
  split at h <;> cases h <;> exact Node.inRange_real.mpr rfl

theorem inRange_number? {cs rest : List Char} {node : Node}
    (h : Number.number? cs = some (node, rest)) : node.InRange := by
  unfold Number.number? at h
  split at h
  · exact inRange_based? h
  · exact inRange_based? h
  · exact inRange_based? h
  · rcases Option.or_eq_some_iff.mp h with h | ⟨-, h⟩
    · exact inRange_special? h
    · exact inRange_decimal? h

theorem inRange_word? {word cs rest : List Char} {node n : Node} (hnode : node.InRange)
    (h : word? word node cs = some (n, rest)) : n.InRange := by
  obtain ⟨_, -, h⟩ := Option.map_eq_some_iff.mp h
  cases h
  exact hnode

theorem inRange_scalar {cs rest : List Char} {node : Node} (h : scalar cs = some (node, rest)) :
    node.InRange := by
  unfold scalar at h
  split at h
  · exact inRange_word? (Node.inRange_of_reals_nil rfl) h
  · exact inRange_word? (Node.inRange_of_reals_nil rfl) h
  · split at h
    · cases h
      exact Node.inRange_of_reals_nil rfl
    · exact inRange_number? h

namespace Item

def InRange (x : Item) : Prop := x.node.InRange

theorem nodes_eq (entries : List (String × Item)) :
    nodes entries = entries.map fun e => (e.1, node e.2) := by
  induction entries with
  | nil => rfl
  | cons e rest ih => rw [nodes, ih, List.map_cons]

theorem rowNodes_eq (rows : List (List (String × Item))) :
    rowNodes rows = rows.map fun row => .table (nodes row) .closed := by
  induction rows with
  | nil => rfl
  | cons row rest ih => rw [rowNodes, ih, List.map_cons]

end Item

namespace Entries

def InRange (es : Entries) : Prop := ∀ e ∈ es, e.2.InRange

theorem inRange_nodes {es : Entries} {ending : Ending} :
    (Node.table (Item.nodes es) ending).InRange ↔ InRange es := by
  rw [Item.nodes_eq]
  exact Node.inRange_entries.trans List.forall_mem_map

theorem inRange_table {origin : Origin} {es : Entries} :
    (Item.table origin es).InRange ↔ InRange es :=
  inRange_nodes

theorem inRange_tables {rows : List Entries} :
    (Item.tables rows).InRange ↔ ∀ row ∈ rows, InRange row := by
  have hrows : (Item.tables rows).InRange ↔ ∀ row ∈ rows,
      (Node.table (Item.nodes row) .closed).InRange := by
    rw [Item.InRange, Item.node, Item.rowNodes_eq]
    exact Node.inRange_items.trans List.forall_mem_map
  simp only [hrows, inRange_nodes]

variable {es es' : Entries} {key : String}

theorem inRange_nil : InRange [] := fun _ h => absurd h List.not_mem_nil

theorem inRange_concat {x : Item} (h : InRange es) (hx : x.InRange) :
    InRange (es ++ [(key, x)]) := by
  intro e he
  rcases List.mem_append.mp he with he | he
  · exact h e he
  · rw [List.mem_singleton.mp he]
    exact hx

theorem inRange_replace {x : Item} (h : InRange es) (hx : x.InRange) :
    InRange (replace key x es) := by
  intro e he
  obtain ⟨d, hd, rfl⟩ := List.mem_map.mp he
  split
  · exact hx
  · exact h d hd

theorem inRange_erase (h : InRange es) : InRange (erase key es) :=
  fun e he => h e (List.mem_filter.mp he).1

theorem inRange_find? {x : Item} (h : InRange es) (hx : es.find? key = some x) : x.InRange := by
  induction es with
  | nil => cases hx
  | cons e rest ih =>
      obtain ⟨k, y⟩ := e
      simp only [InRange, List.forall_mem_cons] at h
      simp only [find?, List.lookup_cons] at hx
      split at hx
      · cases hx
        exact h.1
      · exact ih h.2 hx

theorem inRange_change {byKeys : Bool} {f : Origin → Entries → Option Entries}
    (hf : ∀ origin es es', InRange es → f origin es = some es' → InRange es')
    {path : List String} {origin : Origin} (h : InRange es)
    (hchange : change byKeys f path origin es = some es') : InRange es' := by
  induction path generalizing origin es es' with
  | nil => exact hf origin es es' h hchange
  | cons key path ih =>
      rw [change] at hchange
      split at hchange
      · obtain ⟨inner, hinner, rfl⟩ := Option.map_eq_some_iff.mp hchange
        exact inRange_concat h (inRange_table.mpr (ih inRange_nil hinner))
      · rename_i hfound
        split at hchange
        · cases hchange
        · obtain ⟨inner, hinner, rfl⟩ := Option.map_eq_some_iff.mp hchange
          have hold := inRange_table.mp (inRange_find? h hfound)
          exact inRange_replace h (inRange_table.mpr (ih hold hinner))
      · rename_i hfound
        have hrows := inRange_tables.mp (inRange_find? h hfound)
        split at hchange
        · rename_i row hlast
          obtain ⟨inner, hinner, rfl⟩ := Option.map_eq_some_iff.mp hchange
          refine inRange_replace h (inRange_tables.mpr fun r hr => ?_)
          rcases List.mem_append.mp hr with hr | hr
          · exact hrows r (List.dropLast_subset _ hr)
          · rw [List.mem_singleton.mp hr]
            exact ih (hrows row (List.mem_of_getLast? hlast)) hinner
        · cases hchange
      · cases hchange

theorem inRange_addLast {node : Node} (hnode : node.InRange) {dotted : Bool} {origin : Origin}
    (h : InRange es) (hadd : addLast key node dotted origin es = some es') : InRange es' := by
  unfold addLast at hadd
  split at hadd
  · cases hadd
  · split at hadd <;> cases hadd
    exact inRange_concat h hnode

theorem inRange_add {path : List String} {node : Node} (hnode : node.InRange) {origin : Origin}
    (h : InRange es) (hadd : add path node origin es = some es') : InRange es' := by
  unfold add at hadd
  split at hadd
  · exact inRange_change (fun _ _ _ h hadd => inRange_addLast hnode h hadd) h hadd
  · cases hadd

theorem inRange_define {origin : Origin} (h : InRange es)
    (hdefine : define key origin es = some es') : InRange es' := by
  unfold define at hdefine
  split at hdefine
  · cases hdefine
    exact inRange_concat h (inRange_table.mpr inRange_nil)
  · rename_i hfound
    cases hdefine
    have hinner := inRange_table.mp (inRange_find? h hfound)
    exact inRange_concat (inRange_erase h) (inRange_table.mpr hinner)
  · cases hdefine

theorem inRange_append {origin : Origin} (h : InRange es)
    (happend : append key origin es = some es') : InRange es' := by
  unfold append at happend
  split at happend
  · cases happend
    refine inRange_concat h (inRange_tables.mpr fun row hrow => ?_)
    rw [List.mem_singleton.mp hrow]
    exact inRange_nil
  · rename_i hfound
    cases happend
    refine inRange_replace h (inRange_tables.mpr fun row hrow => ?_)
    rcases List.mem_append.mp hrow with hrow | hrow
    · exact inRange_tables.mp (inRange_find? h hfound) row hrow
    · rw [List.mem_singleton.mp hrow]
      exact inRange_nil
  · cases happend

theorem inRange_start {listed : Bool} {path : List String} (h : InRange es)
    (hstart : start listed path es = some es') : InRange es' := by
  unfold start at hstart
  split at hstart
  · refine inRange_change (fun origin es es' h hstep => ?_) h hstart
    split at hstep
    · exact inRange_append h hstep
    · exact inRange_define h hstep
  · cases hstart

theorem inRange_addUnder {header path : List String} {node : Node} (hnode : node.InRange)
    (h : InRange es) (hadd : addUnder header path node es = some es') : InRange es' :=
  inRange_change (fun _ _ _ h hadd => inRange_add hnode h hadd) h hadd

end Entries

theorem inRange_inlineTable? {members : List (List String × Node)} {node : Node}
    (hmembers : ∀ m ∈ members, m.2.InRange) (h : inlineTable? members = some node) :
    node.InRange := by
  obtain ⟨es, hes, rfl⟩ := Option.map_eq_some_iff.mp h
  refine Entries.inRange_nodes.mpr ?_
  have hfold : ∀ start : Entries, Entries.InRange start →
      members.foldlM (fun es m => Entries.add m.1 m.2 .defined es) start = some es →
        Entries.InRange es := by
    clear hes h
    induction members with
    | nil =>
        rintro start hstart ⟨⟩
        exact hstart
    | cons m rest ih =>
        intro start hstart hfold
        simp only [List.forall_mem_cons] at hmembers
        rw [List.foldlM_cons, Option.bind_eq_bind, Option.bind_eq_some_iff] at hfold
        obtain ⟨next, hnext, hrest⟩ := hfold
        exact ih hmembers.2 next (Entries.inRange_add hmembers.1 hstart hnext) hrest
  exact hfold [] Entries.inRange_nil hes

section Readers

variable {fuel : Nat}
  (hvalue : ∀ levels cs r, value fuel levels cs = some r → r.1.InRange)
  (hitems : ∀ levels cs r, items fuel levels cs = some r → ∀ n ∈ r.1, n.InRange)
  (hmembers : ∀ levels cs r, members fuel levels cs = some r → ∀ m ∈ r.1, m.2.InRange)

include hitems hmembers in
theorem inRange_value_succ {levels : Nat} {cs : List Char} {r : Node × List Char}
    (h : value (fuel + 1) levels cs = some r) : r.1.InRange := by
  unfold value at h
  split at h
  · obtain ⟨s, -, rfl⟩ := Option.map_eq_some_iff.mp h
    exact Node.inRange_of_reals_nil rfl
  · obtain ⟨s, -, rfl⟩ := Option.map_eq_some_iff.mp h
    exact Node.inRange_of_reals_nil rfl
  · split at h
    · cases h
    · obtain ⟨xs, hxs, rfl⟩ := Option.map_eq_some_iff.mp h
      exact Node.inRange_items.mpr (hitems _ _ _ hxs)
  · split at h
    · cases h
    · split at h
      · cases h
        exact Node.inRange_of_reals_nil rfl
      · split at h
        · rename_i hms
          obtain ⟨node, hnode, rfl⟩ := Option.map_eq_some_iff.mp h
          exact inRange_inlineTable? (hmembers _ _ _ hms) hnode
        · cases h
  · exact inRange_scalar h

include hvalue hitems in
theorem inRange_items_succ {levels : Nat} {cs : List Char} {r : List Node × List Char}
    (h : items (fuel + 1) levels cs = some r) : ∀ n ∈ r.1, n.InRange := by
  unfold items at h
  split at h
  · cases h
  · cases h
    exact fun _ hx => absurd hx List.not_mem_nil
  · rename_i hfuel _
    cases hfuel
    split at h
    · cases h
    · rename_i hx
      split at h
      · obtain ⟨xs, hxs, rfl⟩ := Option.map_eq_some_iff.mp h
        exact List.forall_mem_cons.mpr ⟨hvalue _ _ _ hx, hitems _ _ _ hxs⟩
      · cases h
        exact List.forall_mem_singleton.mpr (hvalue _ _ _ hx)
      · cases h

include hvalue hmembers in
theorem inRange_members_succ {levels : Nat} {cs : List Char}
    {r : List (List String × Node) × List Char} (h : members (fuel + 1) levels cs = some r) :
    ∀ m ∈ r.1, m.2.InRange := by
  unfold members at h
  split at h
  · split at h
    · cases h
    · rename_i hx
      split at h
      · obtain ⟨ms, hms, rfl⟩ := Option.map_eq_some_iff.mp h
        exact List.forall_mem_cons.mpr ⟨hvalue _ _ _ hx, hmembers _ _ _ hms⟩
      · cases h
        exact List.forall_mem_singleton.mpr (hvalue _ _ _ hx)
      · cases h
  · cases h

end Readers

-- All three readers go on with less fuel, so the induction is on it and over the three at once.
theorem inRange_readers (fuel : Nat) :
    (∀ levels cs r, value fuel levels cs = some r → r.1.InRange) ∧
    (∀ levels cs r, items fuel levels cs = some r → ∀ n ∈ r.1, n.InRange) ∧
    (∀ levels cs r, members fuel levels cs = some r → ∀ m ∈ r.1, m.2.InRange) := by
  induction fuel with
  | zero => exact ⟨nofun, nofun, nofun⟩
  | succ fuel ih =>
      obtain ⟨hvalue, hitems, hmembers⟩ := ih
      exact ⟨fun _ _ _ => inRange_value_succ hitems hmembers,
        fun _ _ _ => inRange_items_succ hvalue hitems,
        fun _ _ _ => inRange_members_succ hvalue hmembers⟩

theorem inRange_value {fuel levels : Nat} {cs rest : List Char} {node : Node}
    (h : value fuel levels cs = some (node, rest)) : node.InRange :=
  (inRange_readers fuel).1 levels cs _ h

def Line.InRange : Line → Prop
  | .member _ node => node.InRange
  | _ => True

theorem inRange_member? {cs rest : List Char} {m : List String × Node}
    (h : member? cs = some (m, rest)) : m.2.InRange := by
  unfold member? at h
  split at h
  · simp only [Option.bind_eq_bind, Option.bind_eq_some_iff] at h
    obtain ⟨⟨x, cs⟩, hx, cs', -, h⟩ := h
    cases h
    exact inRange_value hx
  · cases h

theorem inRange_line? {cs rest : List Char} {line : Line} (h : line? cs = some (line, rest)) :
    line.InRange := by
  unfold line? at h
  split at h
  · obtain ⟨_, -, h⟩ := Option.map_eq_some_iff.mp h
    cases h
    trivial
  · obtain ⟨_, -, h⟩ := Option.map_eq_some_iff.mp h
    cases h
    trivial
  · split at h
    · cases h
      trivial
    · obtain ⟨_, hm, h⟩ := Option.map_eq_some_iff.mp h
      cases h
      exact inRange_member? hm

theorem inRange_add {s t : State} {line : Line} (h : Entries.InRange s.root)
    (hline : line.InRange) (hadd : s.add line = some t) : Entries.InRange t.root := by
  cases line with
  | blank =>
      cases hadd
      exact h
  | header listed path =>
      obtain ⟨root, hroot, rfl⟩ := Option.map_eq_some_iff.mp hadd
      exact Entries.inRange_start h hroot
  | member key node =>
      obtain ⟨root, hroot, rfl⟩ := Option.map_eq_some_iff.mp hadd
      exact Entries.inRange_addUnder hline h hroot

theorem inRange_lines {fuel : Nat} {s : State} {cs : List Char} {es : Entries}
    (h : Entries.InRange s.root) (hlines : lines fuel s cs = some es) : Entries.InRange es := by
  induction fuel generalizing s cs with
  | zero =>
      cases cs with
      | nil =>
          cases hlines
          exact h
      | cons c cs => cases hlines
  | succ fuel ih =>
      cases cs with
      | nil =>
          cases hlines
          exact h
      | cons c cs =>
          rw [lines] at hlines
          · split at hlines
            · cases hlines
            · rename_i hline
              split at hlines
              · cases hlines
              · rename_i hadd
                exact ih (inRange_add h (inRange_line? hline) hadd) hlines
          · nofun

theorem inRange_read {s : String} {node : Node} (h : read s = some node) : node.InRange := by
  obtain ⟨es, hes, rfl⟩ := Option.map_eq_some_iff.mp h
  exact Entries.inRange_nodes.mpr (inRange_lines Entries.inRange_nil hes)

end StatusLine.Toml
