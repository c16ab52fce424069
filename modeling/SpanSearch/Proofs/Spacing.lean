import SpanSearch.Proofs.Coalescing
import SpanSearch.Proofs.Layout

/-!
# Merged edges are as long as they can be

The edges between two states of a minimal graph neither overlap nor touch, so the ranges on its
edges can be read off the rows of its table.

* `Edge.IsRange`            an edge that consumes symbols and fires nothing
* `Edge.Spaced`             between two ranges with one target there is a gap
* `Graph.Spaced`            a graph whose states have such edges; `spaced_minimal`
* `Table.Runs`              the symbols from one to another lead to a row, and their neighbours do
                            not
* `rangesOf_eq_runs`        the ranges of a graph are the runs of its table
-/

namespace SpanSearch

namespace Edge

def first (e : Edge) : Nat := (e.range?.getD (0, 0)).1

def last (e : Edge) : Nat := (e.range?.getD (0, 0)).2

/-- consumes the symbols of a range that is not empty, and fires nothing -/
def IsRange (e : Edge) : Prop := e = symbols e.first e.last e.target ∧ e.first ≤ e.last

/-- between two ranges with one target there is a gap -/
def Spaced (a b : Edge) : Prop := a.target = b.target → a.last + 1 < b.first

theorem isRange_symbols {lo hi : Nat} (h : lo ≤ hi) (t : Nat) : (symbols lo hi t).IsRange :=
  ⟨rfl, h⟩

namespace IsRange

variable {a b c : Edge} (ha : a.IsRange) (hb : b.IsRange)
include ha

theorem range?_eq : a.range? = some (a.first, a.last) := by
  rw [ha.1]
  rfl

theorem accepts_iff {sym : Nat} : a.accepts sym = true ↔ a.first ≤ sym ∧ sym ≤ a.last := by
  rw [Edge.accepts_iff, ha.range?_eq]
  simp

theorem firesAlone : a.FiresAlone := fun _ => by rw [ha.1]; rfl

theorem of_absorb? (h : a.absorb? b = some c) : c.IsRange := by
  rcases absorb?_cases h with ⟨lo, hi, lo', hi', hlabel, -, -, -, -, rfl⟩ | ⟨-, rfl⟩
  · rw [ha.1] at hlabel ⊢
    obtain ⟨rfl, rfl⟩ := Label.symbols.inj hlabel
    exact isRange_symbols (Nat.le_trans ha.2 (Nat.le_max_left _ _)) _
  · exact ha

include hb

theorem spaced_iff : Spaced a b ↔ Gapped a b := by
  rw [Spaced, Gapped, ha.range?_eq, hb.range?_eq]
  exact imp_congr_right fun _ => ⟨fun h r hr r' hr' => by
    obtain rfl := Option.some.inj hr
    obtain rfl := Option.some.inj hr'
    exact h, fun h => h _ rfl _ rfl⟩

end IsRange

theorem isRange_merged {l : List Edge} (hrange : ∀ e ∈ l, e.IsRange) : ∀ e ∈ merged l, e.IsRange :=
  forall_mem_coalesce (P := IsRange) (fun _ _ _ h ha _ => ha.of_absorb? h)
    fun e he => hrange e (List.mem_mergeSort.1 he)

theorem spaced_merged {l : List Edge} (hrange : ∀ e ∈ l, e.IsRange) :
    (merged l).Pairwise Spaced :=
  (gapped_merged fun e he => (hrange e he).firesAlone).imp_of_mem fun ha hb =>
    ((isRange_merged hrange _ ha).spaced_iff (isRange_merged hrange _ hb)).2

theorem IsRange.withTarget {e : Edge} (h : e.IsRange) (t : Nat) : (e.withTarget t).IsRange := by
  rw [h.1]
  exact isRange_symbols h.2 t

end Edge

namespace Graph

variable {g : Graph}

/-- the edges of every state are ranges, with gaps between those to one state -/
structure Spaced (g : Graph) : Prop where
  isRange : ∀ p, ∀ e ∈ g.edges p, e.IsRange
  spaced : ∀ p, (g.edges p).Pairwise Edge.Spaced

theorem spaced_coalesced (h : ∀ p, ∀ e ∈ g.edges p, e.IsRange) : g.coalesced.Spaced := by
  refine ⟨fun p => ?_, fun p => ?_⟩
  · rw [edges_coalesced]
    exact Edge.isRange_merged (h p)
  · rw [edges_coalesced]
    exact Edge.spaced_merged (h p)

theorem Spaced.trim (hc : g.Closed) (hs : g.start < g.size) (hg : g.Spaced) : g.trim.Spaced := by
  refine ⟨fun q e he => ?_, pairwise_trim hc hs (fun e d t u h hinj ht => h (hinj ht)) hg.spaced⟩
  obtain ⟨p, d, hd, heq⟩ := exists_mem_edges_of_trim hc hs he
  rw [heq]
  exact (hg.isRange p d hd).withTarget _

theorem Spaced.gapped (hg : g.Spaced) : g.Gapped := fun p =>
  (hg.spaced p).imp_of_mem fun he hd => ((hg.isRange p _ he).spaced_iff (hg.isRange p _ hd)).1

theorem spaced_minimal (hc : g.Closed) (hs : g.start < g.size) (a : Alphabet) :
    (g.minimal a).Spaced := by
  have hp := Partition.proper_ofGraph g.epsilonFree a
  obtain ⟨d, sets, h, δ, f, -, hquot, -, heq⟩ := exists_quotient hc hs a
  rw [heq, mergeEdges_eq]
  have hcs := closed_coalesced hquot.total.closed_graph
  have hss := start_lt_size_coalesced hquot.total.start
  refine (spaced_coalesced fun p e he => ?_).trim hcs hss
  obtain ⟨c, hc, rfl⟩ := (hquot.total.edges p (lt_size_of_mem_edges he) e).1 he
  exact Edge.isRange_symbols (hp.cell_fst_le_snd hc) _

theorem Spaced.apart (hg : g.Spaced) {p : Nat} {e e' : Edge} (he : e ∈ g.edges p)
    (he' : e' ∈ g.edges p) (ht : e.target = e'.target) :
    e = e' ∨ e.last + 1 < e'.first ∨ e'.last + 1 < e.first := by
  have hgap := hg.spaced p
  exact List.Pairwise.forall_of_forall_of_flip
    (R := fun e e' : Edge => e.target = e'.target →
      e = e' ∨ e.last + 1 < e'.first ∨ e'.last + 1 < e.first) (fun _ _ _ => .inl rfl)
    (hgap.imp fun h ht => .inr (.inl (h ht))) (hgap.imp fun h ht => .inr (.inr (h ht.symm)))
    he he' ht

theorem Live.not_isDeadEnd {p : Nat} (h : g.Live p) : Table.isDeadEnd (g.state p) = false := by
  obtain ⟨q, hr, hacc⟩ := h
  rw [Table.isDeadEnd, Bool.and_eq_false_iff, Bool.not_eq_false', List.isEmpty_eq_false_iff]
  rcases hr.cases_head with rfl | ⟨r, ⟨e, he, -⟩, -⟩
  · exact .inl hacc
  · exact .inr (List.ne_nil_of_mem he)

end Graph

/-! ## runs of a table -/

namespace Table

/-- a state leads to `row` under the symbols from `lo` to `hi`, but not under their neighbours -/
structure Runs (t : Table) (max id row lo hi : Nat) : Prop where
  le : lo ≤ hi
  le_max : hi ≤ max
  inside : ∀ sym, lo ≤ sym → sym ≤ hi → t.next id sym = row
  before : ∀ sym, sym + 1 = lo → t.next id sym ≠ row
  behind : hi < max → t.next id (hi + 1) ≠ row

/-- the runs that lead to states other than the dead one -/
def runs (t : Table) (max : Nat) : Set (Nat × Nat) :=
  {r | ∃ id < t.size, ∃ row, row ≠ dead ∧ t.Runs max id row r.1 r.2}

theorem Runs.isRun {t : Table} {max id row lo hi : Nat} (h : t.Runs max id row lo hi) :
    IsRun {sym | sym ≤ max ∧ t.next id sym = row} lo hi where
  le := h.le
  inside sym h1 h2 := ⟨Nat.le_trans h2 h.le_max, h.inside sym h1 h2⟩
  before sym hsym hmem := h.before sym hsym hmem.2
  behind hmem := h.behind hmem.1 hmem.2

end Table

section
variable {m g : Graph} {a : Alphabet} (t : Thresholds) (hdec : m.Decides g a.maxSymbol)
  (hspaced : m.Spaced)
include hdec

/-- a row leads to another one if there is an edge -/
theorem next_placeIn_iff {q x sym : Nat} (hsym : sym ≤ a.maxSymbol)
    (hx : Table.isDeadEnd (m.state x) = false) :
    (Table.ofGraph m a t).next (Table.placeIn m q) sym = Table.placeIn m x ↔
      ∃ e ∈ m.edges q, e.accepts sym = true ∧ e.target = x := by
  rw [Table.next_placeIn hsym]
  constructor
  · intro heq
    cases hnexts : m.nexts q sym with
    | nil =>
      rw [hnexts, Table.placeIn_of_not_isDeadEnd hx] at heq
      exact absurd heq (Nat.succ_ne_zero _).symm
    | cons e es =>
      rw [hnexts] at heq
      obtain ⟨he, hacc⟩ := List.mem_filter.1 (hnexts ▸ List.mem_cons_self : e ∈ m.nexts q sym)
      exact ⟨e, he, hacc, Table.eq_of_placeIn_eq hx heq⟩
  · rintro ⟨e, he, hacc, rfl⟩
    cases hnexts : m.nexts q sym with
    | nil =>
      have hmem : e ∈ m.nexts q sym := List.mem_filter.2 ⟨he, hacc⟩
      rw [hnexts] at hmem
      exact absurd hmem List.not_mem_nil
    | cons d ds =>
      obtain ⟨hd, hdacc⟩ := List.mem_filter.1 (hnexts ▸ List.mem_cons_self : d ∈ m.nexts q sym)
      show Table.placeIn m d.target = _
      rw [hdec.deterministic q d hd e he sym hdacc hacc]

include hspaced

/-- an edge is a run, as it has a gap to the next one -/
theorem runs_of_mem_edges {q : Nat} {e : Edge} (he : e ∈ m.edges q) :
    (Table.ofGraph m a t).Runs a.maxSymbol (Table.placeIn m q) (Table.placeIn m e.target)
      e.first e.last := by
  have hrange := hspaced.isRange q e he
  have hend := (hdec.live q e he).not_isDeadEnd
  have hle := (hdec.consuming q e he).2
  have hnext {sym : Nat} (hsym : sym ≤ a.maxSymbol) :=
    next_placeIn_iff t hdec (q := q) hsym hend
  have hlast : e.last ≤ a.maxSymbol := hle _ (hrange.accepts_iff.2 ⟨hrange.2, Nat.le_refl _⟩)
  -- an edge that consumes a neighbour would touch this one
  have hgap {sym : Nat} (hsym : sym + 1 = e.first ∨ sym = e.last + 1) :
      ¬ ∃ d ∈ m.edges q, d.accepts sym = true ∧ d.target = e.target := by
    rintro ⟨d, hd, hacc, ht⟩
    rw [(hspaced.isRange q d hd).accepts_iff] at hacc
    have hfirst := hrange.2
    rcases hspaced.apart hd he ht with rfl | hlt | hlt <;> omega
  refine ⟨hrange.2, hlast, fun sym h1 h2 => ?_, fun sym hsym heq => ?_, fun hlt heq => ?_⟩
  · have hacc := hrange.accepts_iff.2 ⟨h1, h2⟩
    exact (hnext (hle sym hacc)).2 ⟨e, he, hacc, rfl⟩
  · have hfirst := hrange.2
    exact hgap (.inl hsym) ((hnext (by omega)).1 heq)
  · exact hgap (.inr rfl) ((hnext hlt).1 heq)

/-- the ranges of a graph are the runs of its table -/
theorem rangesOf_eq_runs :
    {r | r ∈ Partition.rangesOf m} = (Table.ofGraph m a t).runs a.maxSymbol := by
  ext ⟨lo, hi⟩
  rw [Set.mem_ofPred_eq, Partition.mem_rangesOf]
  constructor
  · rintro ⟨q, e, he, hr⟩
    have hend := (hdec.live q e he).not_isDeadEnd
    refine ⟨Table.placeIn m q, Table.placeIn_lt m a t q, Table.placeIn m e.target, ?_, ?_⟩
    · rw [Table.placeIn_of_not_isDeadEnd hend]
      exact Nat.succ_ne_zero _
    · rw [(hspaced.isRange q e he).range?_eq] at hr
      obtain ⟨rfl, rfl⟩ := Prod.mk.inj (Option.some.inj hr)
      exact runs_of_mem_edges t hdec hspaced he
  · rintro ⟨id, hid, row, hrow, hruns⟩
    have hlo : lo ≤ a.maxSymbol := Nat.le_trans hruns.le hruns.le_max
    have hnext := hruns.inside lo (Nat.le_refl _) hruns.le
    obtain ⟨q, -, rfl⟩ := Table.exists_placeIn hid fun heq => hrow <| by
      rw [← hnext, heq, Table.next_dead]
    obtain ⟨x, hx, rfl⟩ := Table.exists_placeIn
      (hnext ▸ Table.next_lt hid lo : row < (Table.ofGraph m a t).size) hrow
    obtain ⟨e, he, hacc, rfl⟩ := (next_placeIn_iff t hdec hlo hx).1 hnext
    have hrange := hspaced.isRange q e he
    obtain ⟨hfirst, hlast⟩ := hruns.isRun.unique (runs_of_mem_edges t hdec hspaced he).isRun
      ⟨Nat.le_refl _, hruns.le⟩ (hrange.accepts_iff.1 hacc)
    exact ⟨q, e, he, by rw [hrange.range?_eq, ← hfirst, ← hlast]⟩

end

/-! ## classes of symbols -/

namespace Partition

variable {g g' : Graph} (h : ∀ r, r ∈ rangesOf g ↔ r ∈ rangesOf g')
include h

theorem ofGraph_congr (a : Alphabet) : ofGraph g a = ofGraph g' a := by
  have hstarts : Ascending.ofList (0 :: (rangesOf g).flatMap (boundsOf a.maxSymbol)) =
      Ascending.ofList (0 :: (rangesOf g').flatMap (boundsOf a.maxSymbol)) := by
    refine Ascending.ofList_eq_of_mem_iff fun s => ?_
    simp only [List.mem_cons, List.mem_flatMap, h]
  rw [ofGraph, ofGraph, hstarts]

theorem liveCells_congr (p : Partition) : p.liveCells g = p.liveCells g' := by
  have hmarks : ∀ c ∈ p.indices, (p.covered (rangesOf g)).getD c false =
      (p.covered (rangesOf g')).getD c false := fun c _ => by
    rw [Bool.eq_iff_iff, getD_covered, getD_covered]
    simp only [h]
  rw [liveCells, liveCells]
  exact congrArg (List.map p.cell) (List.filter_congr hmarks)

end Partition

theorem classes_eq_of_runs_eq {m m' g g' : Graph} {a : Alphabet} (t : Thresholds)
    (hdec : m.Decides g a.maxSymbol) (hspaced : m.Spaced) (hdec' : m'.Decides g' a.maxSymbol)
    (hspaced' : m'.Spaced) (h : (Table.ofGraph m a t).runs a.maxSymbol =
      (Table.ofGraph m' a t).runs a.maxSymbol) :
    (Table.ofGraph m a t).classes = (Table.ofGraph m' a t).classes := by
  rw [← rangesOf_eq_runs t hdec hspaced, ← rangesOf_eq_runs t hdec' hspaced'] at h
  have hmem (r : Nat × Nat) : r ∈ Partition.rangesOf m ↔ r ∈ Partition.rangesOf m' :=
    Set.ext_iff.1 h r
  rw [Table.classes_ofGraph, Table.classes_ofGraph, Partition.ofGraph_congr hmem a,
    Partition.liveCells_congr hmem]

end SpanSearch
