import SpanSearch.Graph.Refinement
import SpanSearch.Proofs.Determinizing
import SpanSearch.Proofs.Eliminated

/-!
# An edge for every state and cell

* `Total`                 a graph with one edge for every state and cell
* `Total.leads_iff`       its paths, one for every word
* `subsetOf`, `follow`    the set behind a state, and where it leads
* `total_totalize`        what the error state makes of a determinized graph
* `mem_subsetOf_start`    the set that a word leads to
* `Complete`, `Complete.tabulates`   the tables of successors and predecessors, where edges may
                          cover several cells
-/

namespace SpanSearch

variable {g d : Graph} {p : Partition} {δ : Nat → Nat → Nat} {sets : Array (List Nat)}

/-- every state has one edge under each cell, to the state that `δ` gives -/
structure Total (p : Partition) (d : Graph) (δ : Nat → Nat → Nat) : Prop where
  start : d.start < d.size
  closed : ∀ id < d.size, ∀ c < p.size, δ id c < d.size
  edges : ∀ id < d.size, ∀ e, e ∈ d.edges id ↔ ∃ c < p.size, e = cellEdge p c (δ id c)

namespace Total

def run (p : Partition) (δ : Nat → Nat → Nat) (id : Nat) : List Nat → Nat
  | [] => id
  | sym :: w => run p δ (δ id (p.cellOf sym)) w

theorem run_append (id : Nat) (u v : List Nat) :
    run p δ id (u ++ v) = run p δ (run p δ id u) v := by
  induction u generalizing id with
  | nil => rfl
  | cons sym u ih => exact ih _

theorem run_lt_of_closed (hp : p.Proper) {n : Nat} (hclosed : ∀ q < n, ∀ c < p.size, δ q c < n)
    {id : Nat} (hid : id < n) (w : List Nat) : run p δ id w < n := by
  induction w generalizing id with
  | nil => exact hid
  | cons sym w ih => exact ih (hclosed id hid _ (hp.cellOf_lt sym))

variable (ht : Total p d δ) (hp : p.Proper)
include ht

theorem run_lt (hp : p.Proper) {id : Nat} (hid : id < d.size) (w : List Nat) :
    run p δ id w < d.size := run_lt_of_closed hp ht.closed hid w

theorem closed_graph : d.Closed := by
  refine Graph.closed_iff.2 fun id hid e he => ?_
  obtain ⟨c, hc, rfl⟩ := (ht.edges id hid e).1 he
  exact ht.closed id hid c hc

theorem epsilonFree : d.EpsilonFree := by
  intro id e he
  obtain ⟨c, -, rfl⟩ := (ht.edges id (Graph.lt_size_of_mem_edges he) e).1 he
  rfl

include hp

theorem le_max_of_accepts {id sym : Nat} {e : Edge} (he : e ∈ d.edges id)
    (hacc : e.accepts sym = true) : sym ≤ p.max := by
  obtain ⟨c, -, rfl⟩ := (ht.edges id (Graph.lt_size_of_mem_edges he) e).1 he
  have hle : sym ≤ (p.cell c).2 := by
    simp [cellEdge, Edge.symbols, Edge.accepts] at hacc
    exact hacc.2
  exact Nat.le_trans hle (hp.cell_snd_le_max c)

theorem mem_edges_accepts {id sym : Nat} (hid : id < d.size) (hsym : sym ≤ p.max) {e : Edge} :
    e ∈ d.edges id ∧ e.accepts sym = true ↔
      e = cellEdge p (p.cellOf sym) (δ id (p.cellOf sym)) := by
  rw [ht.edges id hid]
  constructor
  · rintro ⟨⟨c, hc, rfl⟩, hacc⟩
    rw [(accepts_cellEdge hp hc hsym).1 hacc]
  · rintro rfl
    have hc := hp.cellOf_lt sym
    exact ⟨⟨_, hc, rfl⟩, (accepts_cellEdge hp hc hsym).2 rfl⟩

/-- every word of symbols leads from a state to just one other -/
theorem leads_iff {id q : Nat} (hid : id < d.size) {w : List Nat} :
    d.Leads id w q ↔ (∀ sym ∈ w, sym ≤ p.max) ∧ q = run p δ id w := by
  induction w generalizing id with
  | nil =>
    constructor
    · intro h
      have hq := Graph.EpsilonFree.eq_of_reads_nil ht.epsilonFree h
      exact ⟨fun sym h => absurd h List.not_mem_nil, hq.symm⟩
    · rintro ⟨-, rfl⟩
      exact .here _
  | cons sym w ih =>
    rw [Graph.EpsilonFree.leads_cons ht.epsilonFree]
    constructor
    · rintro ⟨e, mem, acc, rest⟩
      have hle := ht.le_max_of_accepts hp mem acc
      obtain rfl := (ht.mem_edges_accepts hp hid hle).1 ⟨mem, acc⟩
      obtain ⟨hall, hq⟩ := (ih (ht.closed id hid _ (hp.cellOf_lt sym))).1 rest
      exact ⟨List.forall_mem_cons.2 ⟨hle, hall⟩, hq⟩
    · rintro ⟨hall, rfl⟩
      obtain ⟨hle, hall⟩ := List.forall_mem_cons.1 hall
      obtain ⟨mem, acc⟩ := (ht.mem_edges_accepts hp hid hle).2 rfl
      exact ⟨_, mem, acc, (ih (ht.closed id hid _ (hp.cellOf_lt sym))).2 ⟨hall, rfl⟩⟩

end Total

/-! ## the error state -/

/-- the set behind a state; the error state stands for the empty set -/
def subsetOf (sets : Array (List Nat)) (id : Nat) : List Nat := sets.getD id []

/-- the state of the set that a state leads to; the error state is the one behind all others -/
def follow (g : Graph) (p : Partition) (sets : Array (List Nat)) (id c : Nat) : Nat :=
  sets.toList.idxOf (image g p (subsetOf sets id) c)

theorem subsetOf_of_getElem? {set : List Nat} {id : Nat} (h : sets[id]? = some set) :
    subsetOf sets id = set := by
  rw [subsetOf, Array.getD_eq_getD_getElem?, h]
  rfl

theorem subsetOf_of_size_le {id : Nat} (h : sets.size ≤ id) : subsetOf sets id = [] := by
  rw [subsetOf, Array.getD_eq_getD_getElem?, Array.getElem?_eq_none h]
  rfl

theorem image_nil (hp : p.Proper) (hf : p.FitsAll g) (c : Nat) : image g p [] c = [] :=
  List.eq_nil_iff_forall_not_mem.2 fun x hx => by
    obtain ⟨-, q, hq, -⟩ := (mem_image hp hf).1 hx
    exact absurd hq List.not_mem_nil

namespace Determinizes

variable (hd : Determinizes g p d sets)
include hd

theorem not_mem_nil (id : Nat) : sets[id]? ≠ some [] := fun h => (hd.proper id [] h).ne_nil rfl

theorem follow_of_image {id c q : Nat} (h : sets[q]? = some (image g p (subsetOf sets id) c)) :
    follow g p sets id c = q := by
  have hmem : image g p (subsetOf sets id) c ∈ sets.toList :=
    Array.mem_toList_iff.2 (Array.mem_of_getElem? h)
  have hlt := List.idxOf_lt_length_of_mem hmem
  have hget := List.getElem_idxOf hlt
  rw [Array.getElem_toList] at hget
  rw [Array.length_toList] at hlt
  refine hd.unique _ _ q ?_ h
  rw [follow, Array.getElem?_eq_getElem hlt, hget]

theorem follow_of_image_eq_nil {id c : Nat} (h : image g p (subsetOf sets id) c = []) :
    follow g p sets id c = sets.size := by
  have hnot : image g p (subsetOf sets id) c ∉ sets.toList := by
    rw [h]
    intro hmem
    obtain ⟨i, hi⟩ := Array.getElem?_of_mem (Array.mem_toList_iff.1 hmem)
    exact hd.not_mem_nil i hi
  rw [follow, List.idxOf_eq_length hnot, Array.length_toList]

/-- the state that a state leads to stands for the set that its set leads to -/
theorem subsetOf_follow (hp : p.Proper) (hf : p.FitsAll g) (id c : Nat) :
    subsetOf sets (follow g p sets id c) = image g p (subsetOf sets id) c := by
  by_cases hnil : image g p (subsetOf sets id) c = []
  · rw [hd.follow_of_image_eq_nil hnil, hnil]
    exact subsetOf_of_size_le (Nat.le_refl _)
  · by_cases hid : id < sets.size
    · have hsome : sets[id]? = some (subsetOf sets id) := by
        rw [Array.getElem?_eq_getElem hid, subsetOf, Array.getD_eq_getD_getElem?,
          Array.getElem?_eq_getElem hid]
        rfl
      obtain ⟨q, hq⟩ := hd.known id _ hsome c hnil
      rw [hd.follow_of_image hq]
      exact subsetOf_of_getElem? hq
    · rw [subsetOf_of_size_le (Nat.le_of_not_lt hid)] at hnil
      exact absurd (image_nil hp hf c) hnil

omit hd in
theorem follow_le (id c : Nat) : follow g p sets id c ≤ sets.size := by
  rw [follow, ← Array.length_toList]
  exact List.idxOf_le_length

/-- a state has an edge under the cells that its set leads anywhere under -/
theorem mem_edges (hp : p.Proper) (hf : p.FitsAll g) {id : Nat} {e : Edge} :
    e ∈ d.edges id ↔ ∃ c < p.size, image g p (subsetOf sets id) c ≠ [] ∧
      e = cellEdge p c (follow g p sets id c) := by
  by_cases hlt : id < sets.size
  · have hsome : sets[id]? = some (subsetOf sets id) := by
      rw [Array.getElem?_eq_getElem hlt, subsetOf, Array.getD_eq_getD_getElem?,
        Array.getElem?_eq_getElem hlt]
      rfl
    rw [hd.edges id _ hsome]
    refine exists_congr fun c => and_congr_right fun _ => ?_
    constructor
    · rintro ⟨q, hq, rfl⟩
      rw [hd.follow_of_image hq]
      exact ⟨(hd.proper q _ hq).ne_nil, rfl⟩
    · rintro ⟨hne, rfl⟩
      obtain ⟨q, hq⟩ := hd.known id _ hsome c hne
      rw [hd.follow_of_image hq]
      exact ⟨q, hq, rfl⟩
  · have hge := Nat.le_of_not_lt hlt
    rw [Graph.edges_of_size_le (hd.size ▸ hge), subsetOf_of_size_le hge]
    constructor
    · exact fun h => absurd h List.not_mem_nil
    · rintro ⟨c, -, hne, -⟩
      exact absurd (image_nil hp hf c) hne

end Determinizes

/-! ## missing edges -/

theorem accepts_cellEdge_representative (hp : p.Proper) {c c' target : Nat} (hc : c < p.size)
    (hc' : c' < p.size) : (cellEdge p c target).accepts (p.representative c') = true ↔ c' = c := by
  rw [accepts_cellEdge hp hc (hp.representative_le_max hc'), hp.cellOf_representative hc']

theorem fits_cellEdge (hp : p.Proper) {c target : Nat} (hc : c < p.size) :
    p.FitsEdge (cellEdge p c target) := by
  intro lo hi hr
  obtain ⟨rfl, rfl⟩ := Prod.mk.inj (Option.some.inj hr)
  exact hp.fits_cell hc

/-- an edge is missing under the cells whose first symbol no edge consumes -/
theorem mem_missingEdges (hp : p.Proper) {s : State} {error : Nat} {e : Edge}
    (hs : ∀ e ∈ s.edges, p.FitsEdge e) :
    e ∈ Graph.missingEdges p s error ↔ ∃ c < p.size,
      (∀ e ∈ s.edges, e.accepts (p.representative c) = false) ∧ e = cellEdge p c error := by
  have hcovered {c : Nat} (hc : c < p.size) :
      (p.covered (s.edges.filterMap Edge.range?)).getD c false = true ↔
        ∃ e ∈ s.edges, e.accepts (p.representative c) = true := by
    rw [Partition.getD_covered, and_iff_right hc]
    constructor
    · rintro ⟨lo, hi, hr, hin⟩
      obtain ⟨e, he, hrange⟩ := List.mem_filterMap.1 hr
      exact ⟨e, he, (hp.mem_cellsIn_iff_accepts (hs e he) hrange hc).1 hin⟩
    · rintro ⟨e, he, hacc⟩
      obtain ⟨lo, hi, hrange, -⟩ := Edge.accepts_iff.1 hacc
      refine ⟨lo, hi, List.mem_filterMap.2 ⟨e, he, hrange⟩, ?_⟩
      exact (hp.mem_cellsIn_iff_accepts (hs e he) hrange hc).2 hacc
  simp only [Graph.missingEdges, List.mem_map, List.mem_filter, Partition.indices, List.mem_range]
  constructor
  · rintro ⟨c, ⟨hc, hmark⟩, rfl⟩
    refine ⟨c, hc, fun e he => ?_, rfl⟩
    by_contra hacc
    rw [(hcovered hc).2 ⟨e, he, Bool.not_eq_false _ ▸ hacc⟩] at hmark
    exact absurd hmark (by decide)
  · rintro ⟨c, hc, hnot, rfl⟩
    refine ⟨c, ⟨hc, ?_⟩, rfl⟩
    cases hmark : (p.covered (s.edges.filterMap Edge.range?)).getD c false with
    | false => rfl
    | true =>
      obtain ⟨e, he, hacc⟩ := (hcovered hc).1 hmark
      rw [hnot e he] at hacc
      exact absurd hacc Bool.false_ne_true

theorem size_totalize : (d.totalize p).size = d.size + 1 := by
  rw [Graph.totalize, Graph.size_mapStates, Graph.size_addState]

theorem start_totalize : (d.totalize p).start = d.start := rfl

theorem state_totalize {id : Nat} (hid : id ≤ d.size) :
    (d.totalize p).state id =
      { d.state id with edges := d.edges id ++ Graph.missingEdges p (d.state id) d.size } := by
  have hadd : d.addState.2.state id = d.state id := by
    show Graph.state { d with states := d.states.push {} } id = _
    rw [Graph.state_push]
    by_cases heq : id = d.size
    · rw [if_pos heq, Graph.state_of_size_le (Nat.le_of_eq heq.symm)]
    · rw [if_neg heq]
  have hlt : id < d.addState.2.size := by
    rw [Graph.size_addState]
    exact Nat.lt_add_one_of_le hid
  show (d.addState.2.mapStates _).state id = _
  rw [Graph.state_mapStates _ hlt, hadd]
  rfl

/-- the edges of a state stay, and where none consumes the first symbol of a cell there is one
to the error state -/
theorem mem_edges_totalize (hp : p.Proper) {id : Nat} {e : Edge}
    (hs : ∀ e ∈ d.edges id, p.FitsEdge e) (hid : id ≤ d.size) :
    e ∈ (d.totalize p).edges id ↔ e ∈ d.edges id ∨ ∃ c < p.size,
      (∀ e ∈ d.edges id, e.accepts (p.representative c) = false) ∧ e = cellEdge p c d.size := by
  rw [Graph.edges, state_totalize hid]
  show e ∈ d.edges id ++ Graph.missingEdges p (d.state id) d.size ↔ _
  rw [List.mem_append, mem_missingEdges hp hs]
  rfl

section
variable (hp : p.Proper) (hf : p.FitsAll g) (hd : Determinizes g p d sets)
include hp hf hd

theorem total_totalize : Total p (d.totalize p) (follow g p sets) where
  start := by
    have hlt : d.start < sets.size := (Array.getElem?_eq_some_iff.1 hd.start).1
    rw [size_totalize, start_totalize, hd.size]
    exact Nat.lt_add_one_of_lt hlt
  closed := by
    intro id _ c _
    rw [size_totalize, hd.size]
    exact Nat.lt_add_one_of_le (Determinizes.follow_le id c)
  edges := by
    intro id hid e
    rw [size_totalize] at hid
    have hold (e : Edge) : e ∈ d.edges id ↔
        ∃ c < p.size, image g p (subsetOf sets id) c ≠ [] ∧
          e = cellEdge p c (follow g p sets id c) := hd.mem_edges hp hf
    have hfits : ∀ e ∈ d.edges id, p.FitsEdge e := by
      intro e he
      obtain ⟨c, hc, -, rfl⟩ := (hold e).1 he
      exact fits_cellEdge hp hc
    rw [mem_edges_totalize hp hfits (Nat.le_of_lt_add_one hid), hold]
    constructor
    · rintro (⟨c, hc, -, rfl⟩ | ⟨c, hc, hnot, rfl⟩)
      · exact ⟨c, hc, rfl⟩
      · refine ⟨c, hc, ?_⟩
        have hnil : image g p (subsetOf sets id) c = [] := by
          by_contra hne
          have hnone := hnot _ ((hold _).2 ⟨c, hc, hne, rfl⟩)
          rw [(accepts_cellEdge_representative hp hc hc).2 rfl] at hnone
          exact Bool.false_ne_true hnone.symm
        rw [hd.follow_of_image_eq_nil hnil, hd.size]
    · rintro ⟨c, hc, rfl⟩
      by_cases hnil : image g p (subsetOf sets id) c = []
      · refine .inr ⟨c, hc, fun e he => ?_, ?_⟩
        · obtain ⟨c', hc', hne, rfl⟩ := (hold e).1 he
          rw [← Bool.not_eq_true, accepts_cellEdge_representative hp hc' hc]
          exact fun h => hne (h ▸ hnil)
        · rw [hd.follow_of_image_eq_nil hnil, hd.size]
      · exact .inl ⟨c, hc, hnil, rfl⟩

omit hp hf in
theorem isAccepting_totalize {id : Nat} (hid : id ≤ d.size) :
    (d.totalize p).isAccepting id = (subsetOf sets id).any g.isAccepting := by
  rw [Graph.isAccepting, state_totalize hid]
  show (d.state id).accepting = _
  by_cases hlt : id < sets.size
  · rw [subsetOf, Array.getD_eq_getD_getElem?, Array.getElem?_eq_getElem hlt]
    exact hd.accepting id _ (Array.getElem?_eq_getElem hlt)
  · have hge := Nat.le_of_not_lt hlt
    rw [Graph.state_of_size_le (hd.size ▸ hge), subsetOf_of_size_le hge]
    rfl

omit hp hf in
theorem isSilent_totalize {id : Nat} (hid : id ≤ d.size) :
    (d.totalize p).isSilent id =
      (!(subsetOf sets id).isEmpty && (subsetOf sets id).all g.isSilent) := by
  rw [Graph.isSilent, state_totalize hid]
  show (d.state id).silent = _
  by_cases hlt : id < sets.size
  · have hsome := Array.getElem?_eq_getElem hlt
    rw [subsetOf, Array.getD_eq_getD_getElem?, hsome]
    have hne := (hd.proper id _ hsome).ne_nil
    have hempty : sets[id].isEmpty = false := by rwa [List.isEmpty_eq_false_iff]
    show _ = (!sets[id].isEmpty && sets[id].all g.isSilent)
    rw [hempty]
    exact hd.silent id _ hsome
  · have hge := Nat.le_of_not_lt hlt
    rw [Graph.state_of_size_le (hd.size ▸ hge), subsetOf_of_size_le hge]
    rfl

end

/-! ## words and sets -/

section
variable (hp : p.Proper) (hf : p.FitsAll g) (hg : g.EpsilonFree) (hd : Determinizes g p d sets)
include hp hf hg hd

/-- a word leads from a set to all states that it leads to from some member -/
theorem mem_subsetOf_run {id q : Nat} {w : List Nat} (hw : ∀ sym ∈ w, sym ≤ p.max) :
    q ∈ subsetOf sets (Total.run p (follow g p sets) id w) ↔
      ∃ m ∈ subsetOf sets id, g.Leads m w q := by
  induction w generalizing id with
  | nil =>
    constructor
    · exact fun h => ⟨q, h, .here q⟩
    · rintro ⟨m, hm, h⟩
      exact hg.eq_of_reads_nil h ▸ hm
  | cons sym w ih =>
    obtain ⟨hle, hw⟩ := List.forall_mem_cons.1 hw
    show q ∈ subsetOf sets (Total.run p (follow g p sets) (follow g p sets id (p.cellOf sym)) w) ↔ _
    rw [ih hw, hd.subsetOf_follow hp hf]
    simp only [hg.leads_cons]
    constructor
    · rintro ⟨t, ht, h⟩
      obtain ⟨-, m, hm, e, he, hacc, rfl⟩ := (mem_image hp hf).1 ht
      rw [hp.accepts_representative (hf m e he) hle] at hacc
      exact ⟨m, hm, e, he, hacc, h⟩
    · rintro ⟨m, hm, e, he, hacc, h⟩
      refine ⟨e.target, (mem_image hp hf).2 ⟨hp.cellOf_lt sym, m, hm, e, he, ?_, rfl⟩, h⟩
      rwa [hp.accepts_representative (hf m e he) hle]

theorem mem_subsetOf_start {q : Nat} {w : List Nat} (hw : ∀ sym ∈ w, sym ≤ p.max) :
    q ∈ subsetOf sets (Total.run p (follow g p sets) d.start w) ↔ g.Leads g.start w q := by
  rw [mem_subsetOf_run hp hf hg hd hw, subsetOf_of_getElem? hd.start]
  simp

end

/-! ## successors and predecessors as tables -/

/-- Every state has an edge under each cell, and all that it has lead to the state that `δ`
gives.  An edge may cover several cells. -/
structure Complete (p : Partition) (d : Graph) (δ : Nat → Nat → Nat) : Prop where
  start : d.start < d.size
  closed : ∀ id < d.size, ∀ c < p.size, δ id c < d.size
  fits : p.FitsAll d
  covered : ∀ id < d.size, ∀ c < p.size,
    ∃ e ∈ d.edges id, e.accepts (p.representative c) = true
  target : ∀ id < d.size, ∀ c < p.size, ∀ e ∈ d.edges id,
    e.accepts (p.representative c) = true → e.target = δ id c

theorem Total.complete (ht : Total p d δ) (hp : p.Proper) : Complete p d δ where
  start := ht.start
  closed := ht.closed
  fits := by
    intro id e he
    obtain ⟨c, hc, rfl⟩ := (ht.edges id (Graph.lt_size_of_mem_edges he) e).1 he
    exact fits_cellEdge hp hc
  covered := by
    intro id hid c hc
    exact ⟨_, (ht.edges id hid _).2 ⟨c, hc, rfl⟩,
      (accepts_cellEdge_representative hp hc hc).2 rfl⟩
  target := by
    intro id hid c hc e he hacc
    obtain ⟨c', hc', rfl⟩ := (ht.edges id hid e).1 he
    rw [(accepts_cellEdge_representative hp hc' hc).1 hacc]
    rfl

namespace Transitions

/-- edge by edge, the target of an edge is written under the cells that it leads under -/
theorem getD_foldl_edges (hp : p.Proper) {c target : Nat} (hc : c < p.size) {es : List Edge}
    (hes : ∀ e ∈ es, p.FitsEdge e ∧
      (e.accepts (p.representative c) = true → e.target = target))
    {id : Nat} (r : Array Nat) (hr : r.size = p.size)
    (hin : (∃ e ∈ es, e.accepts (p.representative c) = true) ∨ r.getD c id = target) :
    (es.foldl (fun row e =>
      match e.range? with
      | none => row
      | some (lo, hi) => (p.cellsIn lo hi).foldl (fun r c => r.setIfInBounds c e.target) row)
        r).getD c id = target := by
  induction es generalizing r with
  | nil =>
    rcases hin with ⟨e, he, -⟩ | h
    · exact absurd he List.not_mem_nil
    · exact h
  | cons e es ih =>
    obtain ⟨⟨hfit, htarget⟩, hrest⟩ := List.forall_mem_cons.1 hes
    rw [List.exists_mem_cons_iff, or_assoc] at hin
    rw [List.foldl_cons]
    cases hrange : e.range? with
    | none =>
      refine ih hrest r hr (hin.resolve_left fun hacc => ?_)
      obtain ⟨lo, hi, hsome, -⟩ := Edge.accepts_iff.1 hacc
      rw [hrange] at hsome
      exact Option.some_ne_none _ hsome.symm
    | some range =>
      obtain ⟨lo, hi⟩ := range
      refine ih hrest _ ((size_foldl_setIfInBounds (fun c => c) e.target _ r).trans hr) ?_
      show _ ∨ ((p.cellsIn lo hi).foldl (fun r c => r.setIfInBounds c e.target) r).getD c id = _
      rw [getD_foldl_set _ _ _ (hr ▸ hc)]
      by_cases hmem : c ∈ p.cellsIn lo hi
      · rw [if_pos hmem]
        exact .inr (htarget ((hp.mem_cellsIn_iff_accepts hfit hrange hc).1 hmem))
      · rw [if_neg hmem]
        apply hin.resolve_left
        exact fun hacc => hmem ((hp.mem_cellsIn_iff_accepts hfit hrange hc).2 hacc)

theorem getD_row (hp : p.Proper) {id c target : Nat} {s : State}
    (hs : ∀ e ∈ s.edges, p.FitsEdge e) (hc : c < p.size)
    (hall : ∀ e ∈ s.edges, e.accepts (p.representative c) = true → e.target = target)
    (hsome : ∃ e ∈ s.edges, e.accepts (p.representative c) = true) :
    (row p id s).getD c id = target := by
  rw [row]
  exact getD_foldl_edges hp hc (fun e he => ⟨hs e he, hall e he⟩) _ Array.size_replicate
    (.inl hsome)

theorem successor_ofGraph {q : Nat} (hq : q < d.size) (c : Nat) :
    (ofGraph d p).successor q c = (row p q (d.state q)).getD c q := by
  have hnext : (ofGraph d p).next.getD q #[] = row p q (d.state q) := by
    simp [ofGraph, Array.getD_eq_getD_getElem?, Graph.ids, hq]
  rw [successor, hnext]

theorem predecessors_ofGraph {q c : Nat} (hq : q < d.size) (hc : c < p.size) :
    (ofGraph d p).predecessors q c =
      (List.range d.size).filter fun x => (ofGraph d p).successor x c == q := by
  have hback : (ofGraph d p).back.getD c #[] = column d.size (ofGraph d p).next c := by
    simp [ofGraph, Array.getD_eq_getD_getElem?, Partition.indices, hc]
  rw [predecessors, hback, column, getD_foldl_modify
    (fun id => ((ofGraph d p).next.getD id #[]).getD c id) (fun id => id) _
      (by rwa [Array.size_replicate]), getD_replicate_self, List.append_nil, List.map_id',
    List.filter_reverse, List.reverse_reverse]
  rfl

end Transitions

/-- the tables of a graph that leads from every state under every cell -/
structure Tabulates (n k : Nat) (δ : Nat → Nat → Nat) (t : Transitions) : Prop where
  closed : ∀ q < n, ∀ c < k, δ q c < n
  successor : ∀ q < n, ∀ c < k, t.successor q c = δ q c
  predecessors : ∀ q < n, ∀ c < k,
    t.predecessors q c = (List.range n).filter fun x => δ x c == q

theorem Complete.tabulates (ht : Complete p d δ) (hp : p.Proper) :
    Tabulates d.size p.size δ (Transitions.ofGraph d p) := by
  have hsucc (q : Nat) (hq : q < d.size) (c : Nat) (hc : c < p.size) :
      (Transitions.ofGraph d p).successor q c = δ q c := by
    rw [Transitions.successor_ofGraph hq]
    exact Transitions.getD_row hp (ht.fits q) hc (ht.target q hq c hc) (ht.covered q hq c hc)
  refine ⟨ht.closed, hsucc, fun q hq c hc => ?_⟩
  rw [Transitions.predecessors_ofGraph hq hc]
  exact List.filter_congr fun x hx => by rw [hsucc x (List.mem_range.1 hx) c hc]

end SpanSearch
