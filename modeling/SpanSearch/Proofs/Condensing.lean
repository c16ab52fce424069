import SpanSearch.Proofs.Minimal

/-!
# Minimizing keeps kinds, and no state too many

A deterministic graph is made total and minimized.  Every word leads to a state of the same kind
as before, where a word that leads nowhere counts as neither accepting nor silent, and no two
states are left that all words lead to states of the same kind.

* `Graph.under`           where a state leads under a cell, if anywhere
* `complete_totalize`     the error state takes whatever leads nowhere
* `run_under`             where a word leads then
* `ranges_quotient`       the edges of a minimized graph, one for each cell
* `Graph.Condenses`       what a minimized graph is to the one it comes from
* `minimize_condenses`
-/

namespace SpanSearch

variable {g : Graph} {p : Partition}

namespace Graph

/-- the state that a state leads to under a cell; if there is none, the error state, which is
the one behind all others -/
def under (g : Graph) (p : Partition) (id c : Nat) : Nat :=
  match g.nexts id (p.representative c) with
  | [] => g.size
  | e :: _ => e.target

theorem under_of_mem (hdet : g.Deterministic) {id c : Nat} {e : Edge} (he : e ∈ g.edges id)
    (hacc : e.accepts (p.representative c) = true) : g.under p id c = e.target := by
  have hmem : e ∈ g.nexts id (p.representative c) := List.mem_filter.2 ⟨he, hacc⟩
  unfold under
  split
  · next hnil =>
    rw [hnil] at hmem
    exact absurd hmem List.not_mem_nil
  · next first rest hcons =>
    have hfirst : first ∈ g.nexts id (p.representative c) := hcons ▸ List.mem_cons_self
    obtain ⟨hin, hfacc⟩ := List.mem_filter.1 hfirst
    exact hdet id first hin e he _ hfacc hacc

theorem under_of_none {id c : Nat}
    (hnone : ∀ e ∈ g.edges id, e.accepts (p.representative c) = false) :
    g.under p id c = g.size := by
  have hnil : g.nexts id (p.representative c) = [] := by
    apply List.filter_eq_nil_iff.2
    intro e he
    rw [hnone e he]
    exact Bool.false_ne_true
  rw [under, hnil]

theorem under_size (c : Nat) : g.under p g.size c = g.size := by
  apply under_of_none
  intro e he
  rw [edges_of_size_le (Nat.le_refl _)] at he
  exact absurd he List.not_mem_nil

theorem run_under_size (w : List Nat) : Total.run p (g.under p) g.size w = g.size := by
  induction w with
  | nil => rfl
  | cons sym w ih =>
    show Total.run p _ (g.under p g.size (p.cellOf sym)) w = g.size
    rw [under_size]
    exact ih

end Graph

open SpanSearch.Graph

section
variable (hc : g.Closed) (hdet : g.Deterministic) (hp : p.Proper) (hf : p.FitsAll g)
include hc hdet

theorem under_le (id c : Nat) : g.under p id c ≤ g.size := by
  by_cases h : ∃ e ∈ g.edges id, e.accepts (p.representative c) = true
  · obtain ⟨e, he, hacc⟩ := h
    rw [under_of_mem hdet he hacc]
    exact Nat.le_of_lt (hc id e he)
  · rw [under_of_none fun e he => Bool.eq_false_iff.2 fun hacc => h ⟨e, he, hacc⟩]

include hp hf

/-- with the error state there is an edge under every cell -/
theorem complete_totalize (hs : g.start < g.size) :
    Complete p (g.totalize p) (g.under p) where
  start := by
    rw [size_totalize]
    exact Nat.lt_add_one_of_lt hs
  closed := by
    intro id _ c _
    rw [size_totalize]
    exact Nat.lt_add_one_of_le (under_le hc hdet id c)
  fits := by
    intro id e he
    have hid := lt_size_of_mem_edges he
    rw [size_totalize] at hid
    rcases (mem_edges_totalize hp (hf id) (Nat.le_of_lt_add_one hid)).1 he with hold | hnew
    · exact hf id e hold
    · obtain ⟨c, hcell, -, rfl⟩ := hnew
      exact fits_cellEdge hp hcell
  covered := by
    intro id hid c hcell
    rw [size_totalize] at hid
    have hedges {e : Edge} := mem_edges_totalize hp (hf id) (Nat.le_of_lt_add_one hid) (e := e)
    by_cases h : ∃ e ∈ g.edges id, e.accepts (p.representative c) = true
    · obtain ⟨e, he, hacc⟩ := h
      exact ⟨e, hedges.2 (.inl he), hacc⟩
    · refine ⟨_, hedges.2 (.inr ⟨c, hcell, ?_, rfl⟩),
        (accepts_cellEdge_representative hp hcell hcell).2 rfl⟩
      intro e he
      exact Bool.eq_false_iff.2 fun hacc => h ⟨e, he, hacc⟩
  target := by
    intro id hid c hcell e he hacc
    rw [size_totalize] at hid
    rcases (mem_edges_totalize hp (hf id) (Nat.le_of_lt_add_one hid)).1 he with hold | hnew
    · exact (under_of_mem hdet hold hacc).symm
    · obtain ⟨c', hcell', hnone, rfl⟩ := hnew
      obtain rfl := (accepts_cellEdge_representative hp hcell' hcell).1 hacc
      exact (under_of_none hnone).symm

/-- a word leads to the same state as before, and to the error state if it led nowhere -/
theorem run_under (hfree : g.EpsilonFree) {id : Nat} (hid : id < g.size) {w : List Nat}
    (hw : ∀ sym ∈ w, sym ≤ p.max) :
    (∀ q, g.Leads id w q → Total.run p (g.under p) id w = q) ∧
      ((∀ q, ¬ g.Leads id w q) → Total.run p (g.under p) id w = g.size) := by
  induction w generalizing id with
  | nil =>
    constructor
    · intro q h
      exact hfree.eq_of_reads_nil h
    · intro h
      exact absurd (.here id) (h id)
  | cons sym w ih =>
    obtain ⟨hle, hw⟩ := List.forall_mem_cons.1 hw
    show (∀ q, _ → Total.run p _ (g.under p id (p.cellOf sym)) w = q) ∧
      (_ → Total.run p _ (g.under p id (p.cellOf sym)) w = g.size)
    by_cases h : ∃ e ∈ g.edges id, e.accepts sym = true
    · obtain ⟨e, he, hacc⟩ := h
      have hfirst := hacc
      rw [← hp.accepts_representative (hf id e he) hle] at hfirst
      rw [under_of_mem hdet he hfirst]
      obtain ⟨hto, hnowhere⟩ := ih (hc id e he) hw
      constructor
      · intro q hq
        obtain ⟨e', he', hacc', hrest⟩ := hfree.leads_cons.1 hq
        rw [hdet id e' he' e he sym hacc' hacc] at hrest
        exact hto q hrest
      · intro hnone
        apply hnowhere
        intro q hq
        exact hnone q (hfree.leads_cons.2 ⟨e, he, hacc, hq⟩)
    · have hnone : ∀ e ∈ g.edges id, e.accepts (p.representative (p.cellOf sym)) = false := by
        intro e he
        rw [hp.accepts_representative (hf id e he) hle]
        exact Bool.eq_false_iff.2 fun hacc => h ⟨e, he, hacc⟩
      rw [under_of_none hnone, run_under_size]
      constructor
      · intro q hq
        obtain ⟨e, he, hacc, -⟩ := hfree.leads_cons.1 hq
        exact absurd ⟨e, he, hacc⟩ h
      · intro _
        rfl

end

/-! ## the edges of a minimized graph -/

theorem ranges_quotient {n : Nat} {t : Transitions} {r : Refinement} (hr : r.Sound n) {i : Nat}
    (hi : i < r.blocks.size) :
    ((r.quotient g p t).edges i).map Edge.range? = p.cells.map some := by
  obtain ⟨-, -, rest, hmembers⟩ := Refinement.leader_spec hr hi
  rw [edges, Refinement.state_quotient hi, Refinement.stateOf, hmembers, Partition.cells]
  show (p.indices.map _).map Edge.range? = _
  rw [List.map_map, List.map_map]
  rfl

theorem kind_totalize {id : Nat} (hid : id ≤ g.size) :
    Refinement.kind ((g.totalize p).state id) = Refinement.kind (g.state id) := by
  rw [state_totalize hid]
  rfl

theorem kind_of_size_le {id : Nat} (hid : g.size ≤ id) : Refinement.kind (g.state id) = 2 := by
  rw [state_of_size_le hid]
  rfl

namespace Graph

/-- `m` has one edge for each state and cell, and every word leads in it to a state of the same
kind as in `g`, where leading nowhere counts as the last kind.  Words tell its states apart. -/
structure Condenses (g : Graph) (p : Partition) (m : Graph) : Prop where
  closed : m.Closed
  start : m.start < m.size
  ranges : ∀ id < m.size, (m.edges id).map Edge.range? = p.cells.map some
  leads : ∀ id < m.size, ∀ w : List Nat, (∀ sym ∈ w, sym ≤ p.max) →
    ∃ q, ∀ q', m.Leads id w q' ↔ q' = q
  kind : ∀ w : List Nat, (∀ sym ∈ w, sym ≤ p.max) → ∀ q, m.Leads m.start w q →
    (∀ q', g.Leads g.start w q' →
      Refinement.kind (m.state q) = Refinement.kind (g.state q')) ∧
    ((∀ q', ¬ g.Leads g.start w q') → Refinement.kind (m.state q) = 2)
  apart : ∀ i < m.size, ∀ j < m.size, i ≠ j → ∃ w : List Nat, (∀ sym ∈ w, sym ≤ p.max) ∧
    ∃ q q', m.Leads i w q ∧ m.Leads j w q' ∧
      Refinement.kind (m.state q) ≠ Refinement.kind (m.state q')

/-- Minimizing a deterministic graph that has been made total keeps the kind that each word leads
to, and leaves no two states that words do not tell apart. -/
theorem minimize_condenses (hc : g.Closed) (hs : g.start < g.size) (hdet : g.Deterministic)
    (hfree : g.EpsilonFree) (hp : p.Proper) (hf : p.FitsAll g) :
    Condenses g p ((g.totalize p).minimize p) := by
  have hcomplete := complete_totalize hc hdet hp hf hs
  obtain ⟨hr, -, -⟩ := refinement_spec hcomplete hp
  obtain ⟨δ, f, hquot, hparted⟩ := parted_minimize hcomplete hp
  have hleads {id q : Nat} (hid : id < ((g.totalize p).minimize p).size) {w : List Nat}
      (hw : ∀ sym ∈ w, sym ≤ p.max) :
      ((g.totalize p).minimize p).Leads id w q ↔ q = Total.run p δ id w := by
    rw [hquot.total.leads_iff hp hid, and_iff_right hw]
  refine ⟨hquot.total.closed_graph, hquot.total.start, ?_, ?_, ?_, ?_⟩
  · intro id hid
    rw [minimize_eq hcomplete] at hid ⊢
    rw [Refinement.size_quotient] at hid
    exact ranges_quotient hr hid
  · intro id hid w hw
    exact ⟨_, fun q => hleads hid hw⟩
  · intro w hw q hq
    obtain rfl := (hleads hquot.total.start hw).1 hq
    obtain ⟨hto, hnowhere⟩ := run_under hc hdet hp hf hfree hs hw
    have hstart : (g.totalize p).start < (g.totalize p).size := hcomplete.start
    have hlt := Total.run_lt_of_closed hp hcomplete.closed hstart w
    rw [← hquot.start, ← hquot.run hcomplete hp hstart w, hquot.kind hlt]
    rw [size_totalize] at hlt
    rw [kind_totalize (Nat.le_of_lt_add_one hlt)]
    show (∀ q', _ → Refinement.kind (g.state (Total.run p (g.under p) g.start w)) = _) ∧
      (_ → Refinement.kind (g.state (Total.run p (g.under p) g.start w)) = 2)
    constructor
    · intro q' hq'
      rw [hto q' hq']
    · intro hnone
      rw [hnowhere hnone]
      exact kind_of_size_le (Nat.le_refl _)
  · intro i hi j hj hne
    obtain ⟨w, hw, hkind⟩ := hparted i hi j hj hne
    exact ⟨w, hw, _, _, (hleads hi hw).2 rfl, (hleads hj hw).2 rfl, hkind⟩

/-- edges over several cells, a silent state, a state that nothing leaves -/
theorem minimize_condenses_cells :
    let g : Graph := ⟨#[{ silent := true, edges := [.symbols 97 99 1, .symbols 100 255 0] },
      { edges := [.symbols 97 97 2, .symbols 98 98 3] }, { accepting := true, silent := true },
      { accepting := true, edges := [.symbols 0 255 3] }], 0⟩
    let p := Partition.ofGraph g (.bytes .utf8)
    Condenses g p ((g.totalize p).minimize p) :=
  minimize_condenses (closed_iff.2 (by decide)) (by decide) (deterministic_of_ranges (by decide))
    (epsilonFree_iff.2 (by decide)) (Partition.proper_ofGraph _ _) (Partition.fits_ofGraph _ _)

end Graph
end SpanSearch
