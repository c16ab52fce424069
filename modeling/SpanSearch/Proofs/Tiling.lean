import SpanSearch.Proofs.Layout

/-!
# The cells of a graph are the coarsest tiling that no edge cuts

* `Tiles`                  ascending cells that hold each symbol up to the last
* `Graph.Whole`            an edge that consumes one symbol of a cell consumes them all
* `Refines`                each cell lies in one of the others
* `Partition.Coarsest`     the cells of a graph, and what the look-ups say of them
* `Partition.refines_cells`   a tiling whose cells no edge cuts refines the cells
* `Partition.coarsest_ofGraph`
-/

namespace SpanSearch

/-- cells that follow each other and together hold exactly the symbols up to `max` -/
structure Tiles (max : Nat) (cells : List (Nat × Nat)) : Prop extends Spread max cells where
  covered : ∀ sym ≤ max, ∃ r ∈ cells, Covers r sym

/-- each cell of the one split lies in a cell of the other -/
def Refines (fine coarse : List (Nat × Nat)) : Prop :=
  ∀ r ∈ fine, ∃ s ∈ coarse, ∀ sym, Covers r sym → Covers s sym

/-- no edge cuts a cell: one that consumes a symbol of a cell consumes all its symbols -/
def Graph.Whole (g : Graph) (cells : List (Nat × Nat)) : Prop :=
  ∀ id, ∀ e ∈ g.edges id, ∀ r ∈ cells, ∀ sym, Covers r sym → e.accepts sym = true →
    ∀ sym', Covers r sym' → e.accepts sym' = true

namespace Partition

/-- the coarsest split of the symbols up to `max` that no edge of a graph cuts, with look-ups that
find the cell of a symbol, the cells that a range meets and the cells that an edge consumes -/
structure Coarsest (p : Partition) (g : Graph) (max : Nat) : Prop where
  tiles : Tiles max p.cells
  whole : g.Whole p.cells
  refines : ∀ cells, Tiles max cells → g.Whole cells → Refines cells p.cells
  cellOf : ∀ sym ≤ max, ∃ r, p.cells[p.cellOf sym]? = some r ∧ Covers r sym
  cellsIn : ∀ lo hi, lo ≤ hi → ∀ c, c ∈ p.cellsIn lo hi ↔
    ∃ r, p.cells[c]? = some r ∧ ∃ sym, Covers r sym ∧ Covers (lo, hi) sym
  ordered : (p.liveCells g).Sublist p.cells
  liveCells : ∀ r, r ∈ p.liveCells g ↔
    r ∈ p.cells ∧ ∃ id, ∃ e ∈ g.edges id, ∀ sym, Covers r sym → e.accepts sym = true

variable {p : Partition} {g : Graph} {c lo hi sym : Nat} {r : Nat × Nat}

theorem getElem?_cells : p.cells[c]? = some r ↔ c < p.size ∧ p.cell c = r := by
  rw [cells, indices, List.getElem?_map]
  by_cases hc : c < p.size
  · rw [List.getElem?_range hc, Option.map_some, Option.some.injEq, and_iff_right hc]
  · have hnone : (List.range p.size)[c]? = none := List.getElem?_eq_none (by
      rw [List.length_range]
      exact Nat.le_of_not_lt hc)
    rw [hnone]
    exact iff_of_false (fun h => Option.some_ne_none r h.symm) fun h => hc h.1

namespace Proper

variable (hp : p.Proper)
include hp

theorem covers_cell_iff (hc : c < p.size) :
    Covers (p.cell c) sym ↔ sym ≤ p.max ∧ p.cellOf sym = c := by
  constructor
  · intro hcov
    have hsym := Nat.le_trans hcov.2 (hp.cell_snd_le_max c)
    exact ⟨hsym, (hp.mem_cell_iff hc hsym).1 hcov⟩
  · rintro ⟨hsym, heq⟩
    exact (hp.mem_cell_iff hc hsym).2 heq

theorem cellOf_mono {sym' : Nat} (h : sym ≤ sym') : p.cellOf sym ≤ p.cellOf sym' :=
  (hp.representative_le_iff (hp.cellOf_lt sym)).1 (Nat.le_trans (hp.cellOf_spec sym).2.1 h)

/-! ## a tiling -/

theorem tiles_cells : Tiles p.max p.cells where
  toSpread := hp.spread_cells
  covered := fun sym hsym => by
    have hlt := hp.cellOf_lt sym
    exact ⟨_, mem_cells_iff.2 ⟨_, hlt, rfl⟩, (hp.covers_cell_iff hlt).2 ⟨hsym, rfl⟩⟩

theorem whole_cells (hf : p.FitsAll g) : g.Whole p.cells := by
  intro id e he r hr sym hsym hacc sym' hsym'
  obtain ⟨c, hc, rfl⟩ := mem_cells_iff.1 hr
  obtain ⟨hle, heq⟩ := (hp.covers_cell_iff hc).1 hsym
  obtain ⟨hle', heq'⟩ := (hp.covers_cell_iff hc).1 hsym'
  rw [← hp.accepts_representative (hf id e he) hle, heq] at hacc
  rwa [← hp.accepts_representative (hf id e he) hle', heq']

/-! ## looking up cells -/

/-- the cells between those of two symbols are the ones that the range of the symbols meets -/
theorem mem_cellsIn_iff (hle : lo ≤ hi) : c ∈ p.cellsIn lo hi ↔
    c < p.size ∧ ∃ sym, Covers (p.cell c) sym ∧ Covers (lo, hi) sym := by
  by_cases hmax : p.max < lo
  · have hnil : p.cellsIn lo hi = [] := by
      rw [cellsIn, cellBounds, if_pos hmax]
      rfl
    rw [hnil]
    refine iff_of_false List.not_mem_nil ?_
    rintro ⟨hc, sym, hcov, hlo, -⟩
    exact Nat.not_lt_of_le ((hp.covers_cell_iff hc).1 hcov).1 (Nat.lt_of_lt_of_le hmax hlo)
  · have hlo : lo ≤ p.max := Nat.le_of_not_lt hmax
    have hbounds : c ∈ p.cellsIn lo hi ↔ p.cellOf lo ≤ c ∧ c ≤ p.cellOf (min hi p.max) := by
      rw [cellsIn, cellBounds, if_neg hmax, List.mem_range'_1]
      omega
    rw [hbounds]
    constructor
    · rintro ⟨hfirst, hlast⟩
      have hc : c < p.size := Nat.lt_of_le_of_lt hlast (hp.cellOf_lt _)
      refine ⟨hc, ?_⟩
      rcases Nat.eq_or_lt_of_le hfirst with heq | hlt
      · exact ⟨lo, (hp.covers_cell_iff hc).2 ⟨hlo, heq⟩, Nat.le_refl lo, hle⟩
      · -- a cell behind that of `lo` begins in the range
        have hbehind : ¬ p.representative c ≤ lo := fun h =>
          Nat.not_le_of_lt hlt ((hp.representative_le_iff hc).1 h)
        have hbefore := (hp.representative_le_iff hc).2 hlast
        have hcov : Covers (p.cell c) (p.representative c) :=
          ⟨Nat.le_refl _, hp.cell_fst_le_snd hc⟩
        exact ⟨p.representative c, hcov, Nat.le_of_not_le hbehind,
          Nat.le_trans hbefore (Nat.min_le_left hi p.max)⟩
    · rintro ⟨hc, sym, hcov, hlow, hhigh⟩
      obtain ⟨hsym, rfl⟩ := (hp.covers_cell_iff hc).1 hcov
      exact ⟨hp.cellOf_mono hlow, hp.cellOf_mono (Nat.le_min.2 ⟨hhigh, hsym⟩)⟩

theorem mem_liveCells_iff (hf : p.FitsAll g) (hle : ∀ r ∈ rangesOf g, r.1 ≤ r.2) :
    r ∈ p.liveCells g ↔
      r ∈ p.cells ∧ ∃ id, ∃ e ∈ g.edges id, ∀ sym, Covers r sym → e.accepts sym = true := by
  rw [mem_liveCells, mem_cells_iff]
  constructor
  · rintro ⟨c, hc, rfl, lo, hi, hmem, hin⟩
    obtain ⟨-, sym, hcov, hsym⟩ := (hp.mem_cellsIn_iff (hle _ hmem)).1 hin
    obtain ⟨id, e, he, hr⟩ := mem_rangesOf.1 hmem
    have hacc : e.accepts sym = true := Edge.accepts_iff.2 ⟨lo, hi, hr, hsym⟩
    exact ⟨⟨c, hc, rfl⟩, id, e, he, fun sym' => hp.whole_cells hf id e he _
      (mem_cells_iff.2 ⟨c, hc, rfl⟩) sym hcov hacc sym'⟩
  · rintro ⟨⟨c, hc, rfl⟩, id, e, he, hall⟩
    have hcov : Covers (p.cell c) (p.cell c).1 := ⟨Nat.le_refl _, hp.cell_fst_le_snd hc⟩
    obtain ⟨lo, hi, hr, hsym⟩ := Edge.accepts_iff.1 (hall _ hcov)
    have hmem : (lo, hi) ∈ rangesOf g := mem_rangesOf.2 ⟨id, e, he, hr⟩
    exact ⟨c, hc, rfl, lo, hi, hmem, (hp.mem_cellsIn_iff (hle _ hmem)).2 ⟨hc, _, hcov, hsym⟩⟩

end Proper

/-! ## the coarsest one -/

/-- where a cell begins, one edge tells its first symbol from the symbol before it -/
theorem exists_boundary {a : Alphabet} (hle : ∀ r ∈ rangesOf g, r.1 ≤ r.2) {s : Nat}
    (hs : s + 1 ∈ (ofGraph g a).starts) :
    ∃ id, ∃ e ∈ g.edges id, e.accepts (s + 1) = !e.accepts s := by
  obtain hzero | ⟨⟨lo, hi⟩, hmem, hbound⟩ := (mem_starts_ofGraph g a).1 hs
  · exact absurd hzero (Nat.succ_ne_zero s)
  · obtain ⟨id, e, he, hr⟩ := mem_rangesOf.1 hmem
    have hlohi : lo ≤ hi := hle _ hmem
    have hacc (sym : Nat) : e.accepts sym = true ↔ lo ≤ sym ∧ sym ≤ hi := by
      rw [Edge.accepts_iff, hr]
      simp
    refine ⟨id, e, he, ?_⟩
    rw [Bool.eq_not, ne_eq, Bool.eq_iff_iff, hacc, hacc]
    unfold boundsOf at hbound
    simp only [List.mem_append, List.mem_ite_nil_right, List.mem_singleton] at hbound
    omega

/-- a tiling whose cells no edge cuts has no cell across the place where one of the graph's cells
begins -/
theorem refines_cells {a : Alphabet} (hle : ∀ r ∈ rangesOf g, r.1 ≤ r.2)
    {cells : List (Nat × Nat)} (ht : Tiles a.maxSymbol cells) (hw : g.Whole cells) :
    Refines cells (ofGraph g a).cells := by
  intro r hr
  have hp := proper_ofGraph g a
  have hlt := hp.cellOf_lt r.1
  refine ⟨_, mem_cells_iff.2 ⟨_, hlt, rfl⟩, fun sym hcov => ?_⟩
  refine (hp.covers_cell_iff hlt).2 ⟨Nat.le_trans hcov.2 (ht.le_max r hr), ?_⟩
  by_contra hne
  have hbehind : (ofGraph g a).cellOf r.1 < (ofGraph g a).cellOf sym :=
    Nat.lt_of_le_of_ne (hp.cellOf_mono hcov.1) (Ne.symm hne)
  have hlast := hp.cellOf_lt sym
  -- the cell of `sym` begins inside `r`, behind its first symbol
  have habove : ¬ (ofGraph g a).representative ((ofGraph g a).cellOf sym) ≤ r.1 := fun h =>
    Nat.not_le_of_lt hbehind ((hp.representative_le_iff hlast).1 h)
  have hbelow := (hp.cellOf_spec sym).2.1
  have hstart : (ofGraph g a).representative ((ofGraph g a).cellOf sym) ∈ (ofGraph g a).starts := by
    rw [representative_eq_getElem hlast]
    exact Array.getElem_mem hlast
  obtain ⟨s, hs⟩ := Nat.exists_eq_succ_of_ne_zero (Nat.ne_of_gt (Nat.zero_lt_of_lt
    (Nat.lt_of_not_le habove)))
  rw [hs] at habove hbelow hstart
  obtain ⟨id, e, he, hcut⟩ := exists_boundary hle hstart
  have hfirst : Covers r s := ⟨by omega, Nat.le_trans (by omega) hcov.2⟩
  have hnext : Covers r (s + 1) := ⟨by omega, Nat.le_trans hbelow hcov.2⟩
  cases hacc : e.accepts s with
  | true =>
    rw [hw id e he r hr s hfirst hacc (s + 1) hnext, hacc] at hcut
    exact absurd hcut.symm Bool.false_ne_true
  | false =>
    rw [hacc, Bool.not_false] at hcut
    exact absurd (hw id e he r hr (s + 1) hnext hcut s hfirst) (hacc ▸ Bool.false_ne_true)

/-- When no range is written backwards, the partition of a graph is the coarsest tiling of the
alphabet that no edge cuts, and its look-ups name the cell of a symbol, the cells that a range
meets and the cells that an edge consumes. -/
theorem coarsest_ofGraph (a : Alphabet) (hle : ∀ r ∈ rangesOf g, r.1 ≤ r.2) :
    (ofGraph g a).Coarsest g a.maxSymbol where
  tiles := (proper_ofGraph g a).tiles_cells
  whole := (proper_ofGraph g a).whole_cells (fits_ofGraph g a)
  refines := fun _ ht hw => refines_cells hle ht hw
  cellOf := fun sym hsym => by
    have hp := proper_ofGraph g a
    have hlt := hp.cellOf_lt sym
    exact ⟨_, getElem?_cells.2 ⟨hlt, rfl⟩, (hp.covers_cell_iff hlt).2 ⟨hsym, rfl⟩⟩
  cellsIn := fun lo hi hlohi c => by
    rw [(proper_ofGraph g a).mem_cellsIn_iff hlohi]
    constructor
    · rintro ⟨hc, hmeet⟩
      exact ⟨_, getElem?_cells.2 ⟨hc, rfl⟩, hmeet⟩
    · rintro ⟨r, hr, hmeet⟩
      obtain ⟨hc, rfl⟩ := getElem?_cells.1 hr
      exact ⟨hc, hmeet⟩
  ordered := sublist_liveCells _ g
  liveCells := fun _ => (proper_ofGraph g a).mem_liveCells_iff (fits_ofGraph g a) hle

/-- ranges that begin at the first byte, end at the last one, lie across it and behind it -/
theorem coarsest_ofGraph_bytes :
    let g : Graph := ⟨#[{ edges := [.symbols 0 0x60 0, .symbols 0x61 0x61 1, .epsilon 2] },
      { edges := [.symbols 0x80 0xFF 2, .symbols 0xF0 0x200 0] },
      { accepting := true, edges := [.symbols 0x100 0x10FFFF 2] }], 0⟩
    (ofGraph g (.bytes .utf8)).Coarsest g 0xFF :=
  coarsest_ofGraph (.bytes .utf8) (by decide)

end Partition
end SpanSearch
