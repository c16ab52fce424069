import SpanSearch.Graph.Subsets
import SpanSearch.Proofs.Filling
import SpanSearch.Proofs.Reading
import SpanSearch.Proofs.Sorting

/-!
# Symbols of one cell are told apart by no edge

* `Partition.Proper`              ascending starts from `0` on, none above the last symbol
* `representative_le_iff`         the cell of a symbol is the last that begins no later
* `Partition.Fits`                an edge begins and ends where cells do; `fits_iff`: straddles none
* `accepts_representative`        it consumes a symbol if it does the first of its cell
* `mem_cellsIn`, `mem_cells`      the cells that an edge leads under
* `proper_ofGraph`, `fits_ofGraph`
-/

namespace SpanSearch
namespace Partition

variable {p : Partition} {c d sym : Nat}

/-- the starts are ascending, the first of them is `0` and none is above the last symbol -/
structure Proper (p : Partition) : Prop where
  ascending : p.starts.toList.Pairwise (· < ·)
  zero : p.starts[0]? = some 0
  le_max : ∀ s ∈ p.starts, s ≤ p.max

theorem representative_eq_getElem (hc : c < p.size) :
    p.representative c = p.starts[c] := by
  rw [representative, Array.getD_eq_getD_getElem?, Array.getElem?_eq_getElem hc]
  rfl

/-- between a place that is not above a symbol and one that is the search finds the last that
is not -/
theorem lastNotAbove_spec {lo hi : Nat} (hlt : lo < hi) (hhi : hi ≤ p.size)
    (hlo : p.representative lo ≤ sym) (above : hi < p.size → sym < p.representative hi) :
    lastNotAbove p.starts sym lo hi < p.size ∧
      p.representative (lastNotAbove p.starts sym lo hi) ≤ sym ∧
      (lastNotAbove p.starts sym lo hi + 1 < p.size →
        sym < p.representative (lastNotAbove p.starts sym lo hi + 1)) := by
  fun_induction lastNotAbove p.starts sym lo hi with
  | case1 lo hi h =>
    have hnext : lo + 1 = hi := by omega
    rw [hnext]
    exact ⟨Nat.lt_of_lt_of_le hlt hhi, hlo, above⟩
  | case2 lo hi h mid hmid ih =>
    have hlt' : mid < hi := by omega
    exact ih hlt' hhi hmid above
  | case3 lo hi h mid hmid ih =>
    have hlt' : lo < mid := by omega
    have hle : mid ≤ p.size := by omega
    exact ih hlt' hle hlo fun _ => Nat.lt_of_not_le hmid

theorem exists_representative {s : Nat} (hs : s ∈ p.starts) :
    ∃ d < p.size, p.representative d = s := by
  obtain ⟨d, hd, rfl⟩ := Array.getElem_of_mem hs
  exact ⟨d, hd, representative_eq_getElem hd⟩

namespace Proper

variable (hp : p.Proper)
include hp

theorem size_pos : 0 < p.size := by
  by_contra h
  have hnone : p.starts[0]? = none := Array.getElem?_eq_none (Nat.le_of_not_lt h)
  rw [hp.zero] at hnone
  exact Option.some_ne_none 0 hnone

theorem representative_zero : p.representative 0 = 0 := by
  rw [representative, Array.getD_eq_getD_getElem?, hp.zero]
  rfl

theorem representative_lt (hcd : c < d) (hd : d < p.size) :
    p.representative c < p.representative d := by
  have hc : c < p.size := Nat.lt_trans hcd hd
  rw [representative_eq_getElem hc, representative_eq_getElem hd]
  exact List.pairwise_iff_getElem.1 hp.ascending c d hc hd hcd

theorem representative_mono (hcd : c ≤ d) (hd : d < p.size) :
    p.representative c ≤ p.representative d := by
  rcases Nat.eq_or_lt_of_le hcd with rfl | hlt
  · exact Nat.le_refl _
  · exact Nat.le_of_lt (hp.representative_lt hlt hd)

theorem representative_le_max (hc : c < p.size) : p.representative c ≤ p.max := by
  rw [representative_eq_getElem hc]
  exact hp.le_max _ (Array.getElem_mem hc)

/-! ## the cell of a symbol -/

theorem cellOf_spec (sym : Nat) :
    p.cellOf sym < p.size ∧ p.representative (p.cellOf sym) ≤ sym ∧
      (p.cellOf sym + 1 < p.size → sym < p.representative (p.cellOf sym + 1)) := by
  have hzero : p.representative 0 ≤ sym := by
    rw [hp.representative_zero]
    exact Nat.zero_le sym
  exact lastNotAbove_spec hp.size_pos (Nat.le_refl _) hzero
    fun h => absurd h (Nat.lt_irrefl _)

theorem cellOf_lt (sym : Nat) : p.cellOf sym < p.size := (hp.cellOf_spec sym).1

theorem representative_le_iff (hd : d < p.size) : p.representative d ≤ sym ↔ d ≤ p.cellOf sym := by
  obtain ⟨hlt, hle, hnext⟩ := hp.cellOf_spec sym
  constructor
  · intro h
    by_contra hd'
    have hc : p.cellOf sym + 1 ≤ d := Nat.lt_of_not_le hd'
    have habove := hnext (Nat.lt_of_le_of_lt hc hd)
    have hmono := hp.representative_mono hc hd
    omega
  · intro h
    exact Nat.le_trans (hp.representative_mono h hlt) hle

theorem cellOf_representative (hc : c < p.size) : p.cellOf (p.representative c) = c := by
  have hle : c ≤ p.cellOf (p.representative c) :=
    (hp.representative_le_iff hc).1 (Nat.le_refl _)
  rcases Nat.eq_or_lt_of_le hle with h | h
  · exact h.symm
  · have hlt := hp.representative_lt h (hp.cellOf_lt _)
    have hge := (hp.cellOf_spec (p.representative c)).2.1
    omega

/-- the bounds of a cell hold exactly its symbols -/
theorem mem_cell_iff (hc : c < p.size) (hsym : sym ≤ p.max) :
    (p.cell c).1 ≤ sym ∧ sym ≤ (p.cell c).2 ↔ p.cellOf sym = c := by
  have hfirst : (p.cell c).1 ≤ sym ↔ c ≤ p.cellOf sym := hp.representative_le_iff hc
  have hlast : sym ≤ (p.cell c).2 ↔ p.cellOf sym ≤ c := by
    by_cases hnext : c + 1 < p.size
    · have hpos := hp.representative_lt (Nat.lt_add_one c) hnext
      have hsome : (p.cell c).2 = p.representative (c + 1) - 1 := by
        rw [cell, Array.getElem?_eq_getElem hnext, representative_eq_getElem hnext]
      have hiff : p.representative (c + 1) ≤ sym ↔ c + 1 ≤ p.cellOf sym :=
        hp.representative_le_iff hnext
      rw [hsome]
      omega
    · have hnone : (p.cell c).2 = p.max := by
        rw [cell, Array.getElem?_eq_none (Nat.le_of_not_lt hnext)]
      have hlt := hp.cellOf_lt sym
      rw [hnone]
      omega
  rw [hfirst, hlast]
  omega

theorem cell_snd_le_max (c : Nat) : (p.cell c).2 ≤ p.max := by
  by_cases hnext : c + 1 < p.size
  · have hle := hp.representative_le_max hnext
    rw [cell, Array.getElem?_eq_getElem hnext, ← representative_eq_getElem hnext]
    exact Nat.le_trans (Nat.sub_le _ _) hle
  · rw [cell, Array.getElem?_eq_none (Nat.le_of_not_lt hnext)]

theorem cell_fst_le_snd (hc : c < p.size) : (p.cell c).1 ≤ (p.cell c).2 :=
  ((hp.mem_cell_iff hc (hp.representative_le_max hc)).2 (hp.cellOf_representative hc)).2

/-! ## the cells that a range meets -/

theorem le_representative_iff {s : Nat} (hs : s ∈ p.starts) :
    s ≤ p.representative (p.cellOf sym) ↔ s ≤ sym := by
  obtain ⟨d, hd, rfl⟩ := exists_representative hs
  rw [hp.representative_le_iff hd, hp.representative_le_iff hd,
    hp.cellOf_representative (hp.cellOf_lt sym)]

end Proper

end Partition

namespace Edge

theorem accepts_iff {e : Edge} {sym : Nat} :
    e.accepts sym = true ↔ ∃ lo hi, e.range? = some (lo, hi) ∧ lo ≤ sym ∧ sym ≤ hi := by
  unfold accepts range?
  cases e.label <;> simp

end Edge

namespace Partition

variable {p : Partition} {c sym lo hi : Nat} {e : Edge} {g : Graph}

structure Fits (p : Partition) (lo hi : Nat) : Prop where
  first : lo ≤ p.max → lo ∈ p.starts
  last : hi < p.max → hi + 1 ∈ p.starts

/-- a range straddles a cell: it holds some of its symbols, but not all -/
def Straddles (p : Partition) (lo hi : Nat) : Prop :=
  ∃ a ≤ p.max, ∃ b ≤ p.max, p.cellOf a = p.cellOf b ∧ (lo ≤ a ∧ a ≤ hi) ∧ ¬ (lo ≤ b ∧ b ≤ hi)

def FitsEdge (p : Partition) (e : Edge) : Prop := ∀ lo hi, e.range? = some (lo, hi) → p.Fits lo hi

def FitsAll (p : Partition) (g : Graph) : Prop := ∀ id, ∀ e ∈ g.edges id, p.FitsEdge e

namespace Proper

variable (hp : p.Proper)
include hp

/-- a range holds a symbol exactly when it holds the first symbol of its cell -/
theorem fits_representative (hf : p.Fits lo hi) (hsym : sym ≤ p.max) :
    lo ≤ p.representative (p.cellOf sym) ∧ p.representative (p.cellOf sym) ≤ hi ↔
      lo ≤ sym ∧ sym ≤ hi := by
  have hle : p.representative (p.cellOf sym) ≤ sym := (hp.cellOf_spec sym).2.1
  have hlo : lo ≤ p.representative (p.cellOf sym) ↔ lo ≤ sym := by
    by_cases h : lo ≤ p.max
    · exact hp.le_representative_iff (hf.first h)
    · omega
  have hhi : p.representative (p.cellOf sym) ≤ hi ↔ sym ≤ hi := by
    by_cases h : hi < p.max
    · have hiff : hi + 1 ≤ p.representative (p.cellOf sym) ↔ hi + 1 ≤ sym :=
        hp.le_representative_iff (hf.last h)
      omega
    · omega
  rw [hlo, hhi]

/-- a range with a symbol in it fits exactly when it straddles no cell -/
theorem fits_iff (hle : lo ≤ hi) : p.Fits lo hi ↔ ¬ p.Straddles lo hi := by
  have start (sym : Nat) : p.representative (p.cellOf sym) ∈ p.starts := by
    rw [representative_eq_getElem (hp.cellOf_lt sym)]
    exact Array.getElem_mem _
  constructor
  · rintro hf ⟨a, ha, b, hb, hcell, hin, hout⟩
    apply hout
    rw [← hp.fits_representative hf hb, ← hcell]
    exact (hp.fits_representative hf ha).2 hin
  · intro hnot
    constructor
    · intro hmax
      obtain ⟨hlt, hfirst, -⟩ := hp.cellOf_spec lo
      rcases Nat.eq_or_lt_of_le hfirst with heq | hbelow
      · exact heq ▸ start lo
      · -- the range begins inside the cell of `lo`
        refine absurd ⟨lo, hmax, _, hp.representative_le_max hlt, ?_, ⟨Nat.le_refl lo, hle⟩, ?_⟩
          hnot
        · exact (hp.cellOf_representative hlt).symm
        · omega
    · intro hmax
      obtain ⟨hlt, hfirst, -⟩ := hp.cellOf_spec (hi + 1)
      rcases Nat.eq_or_lt_of_le hfirst with heq | hbelow
      · exact heq ▸ start (hi + 1)
      · -- the symbol behind the range lies in the cell of `hi`
        have hupper := (hp.representative_le_iff hlt).1 (Nat.le_of_lt_succ hbelow)
        have hlower := (hp.representative_le_iff (hp.cellOf_lt hi)).1
          (Nat.le_succ_of_le (hp.cellOf_spec hi).2.1)
        refine absurd ⟨hi, by omega, hi + 1, hmax, ?_, ⟨hle, Nat.le_refl hi⟩, ?_⟩ hnot
        · exact Nat.le_antisymm hlower hupper
        · omega

theorem accepts_representative (hf : p.FitsEdge e) (hsym : sym ≤ p.max) :
    e.accepts (p.representative (p.cellOf sym)) = e.accepts sym := by
  rw [Bool.eq_iff_iff, Edge.accepts_iff, Edge.accepts_iff]
  refine exists_congr fun lo => exists_congr fun hi => and_congr_right fun hr => ?_
  exact hp.fits_representative (hf lo hi hr) hsym

/-- a range that begins at a cell meets the cells whose first symbol it holds -/
theorem mem_cellsIn (hlo : lo ≤ p.max → lo ∈ p.starts) :
    c ∈ p.cellsIn lo hi ↔ c < p.size ∧ lo ≤ p.representative c ∧ p.representative c ≤ hi := by
  by_cases hmax : p.max < lo
  · have hnil : p.cellsIn lo hi = [] := by
      rw [cellsIn, cellBounds, if_pos hmax]
      rfl
    rw [hnil]
    refine ⟨fun h => absurd h List.not_mem_nil, fun ⟨hc, hle, _⟩ => ?_⟩
    have := hp.representative_le_max hc
    omega
  · obtain ⟨d, hd, rfl⟩ := exists_representative (hlo (Nat.le_of_not_lt hmax))
    rw [cellsIn, cellBounds, if_neg hmax, hp.cellOf_representative hd]
    have hlt := hp.cellOf_lt (min hi p.max)
    have hiff (h : c < p.size) : p.representative c ≤ min hi p.max ↔
        c ≤ p.cellOf (min hi p.max) := hp.representative_le_iff h
    have hbelow (h : c < p.size) := hp.representative_le_max h
    have hfirst (h : c < p.size) : p.representative d ≤ p.representative c ↔ d ≤ c := by
      rw [hp.representative_le_iff hd, hp.cellOf_representative h]
    rw [List.mem_range'_1]
    constructor
    · rintro ⟨h1, h2⟩
      have hc : c < p.size := by omega
      have hle := (hiff hc).2 (by omega)
      exact ⟨hc, (hfirst hc).2 h1, Nat.le_trans hle (Nat.min_le_left _ _)⟩
    · rintro ⟨hc, h1, h2⟩
      have hge := (hfirst hc).1 h1
      have hle := (hiff hc).1 (Nat.le_min.2 ⟨h2, hbelow hc⟩)
      omega

/-- an edge leads under the cells whose first symbol it consumes -/
theorem mem_cells (hf : p.FitsEdge e) :
    c ∈ e.cells p ↔ c < p.size ∧ e.accepts (p.representative c) = true := by
  rw [Edge.cells, Edge.accepts_iff]
  cases hr : e.range? with
  | none => simp
  | some r =>
    obtain ⟨lo, hi⟩ := r
    have hmem : c ∈ p.cellsIn lo hi ↔
        c < p.size ∧ lo ≤ p.representative c ∧ p.representative c ≤ hi :=
      hp.mem_cellsIn (hf lo hi hr).first
    have hacc : e.accepts (p.representative c) = true ↔
        lo ≤ p.representative c ∧ p.representative c ≤ hi := by
      rw [Edge.accepts_iff, hr]
      simp
    simp only [List.mem_filter, hmem, hacc]
    simp [and_assoc]

theorem fits_cell (hc : c < p.size) : p.Fits (p.cell c).1 (p.cell c).2 := by
  apply (hp.fits_iff (hp.cell_fst_le_snd hc)).2
  rintro ⟨a, ha, b, hb, hcell, hin, hout⟩
  rw [hp.mem_cell_iff hc ha] at hin
  rw [hp.mem_cell_iff hc hb] at hout
  exact hout (hcell.symm.trans hin)

theorem mem_cellsIn_iff_accepts (hf : p.FitsEdge e) (hr : e.range? = some (lo, hi))
    (hc : c < p.size) : c ∈ p.cellsIn lo hi ↔ e.accepts (p.representative c) = true := by
  rw [hp.mem_cellsIn (hf lo hi hr).first, Edge.accepts_iff, hr, and_iff_right hc]
  simp

end Proper

/-! ## marks for the cells that ranges meet -/

theorem size_covered (ranges : List (Nat × Nat)) : (p.covered ranges).size = p.size :=
  (size_foldl (fun marks _ => size_foldl_setIfInBounds (fun c => c) true _ marks) ranges
    (Array.replicate p.size false)).trans Array.size_replicate

theorem getD_covered (ranges : List (Nat × Nat)) (c : Nat) :
    (p.covered ranges).getD c false = true ↔
      c < p.size ∧ ∃ lo hi, (lo, hi) ∈ ranges ∧ c ∈ p.cellsIn lo hi := by
  by_cases hc : c < p.size
  · have hall : p.covered ranges = (ranges.flatMap fun r => p.cellsIn r.1 r.2).foldl
        (fun m c => m.setIfInBounds c true) (Array.replicate p.size false) :=
      List.foldl_flatMap.symm
    rw [hall, getD_foldl_set _ true false (by rwa [Array.size_replicate]), getD_replicate_self,
      Bool.if_false_right, Bool.and_true, decide_eq_true_eq, List.mem_flatMap, and_iff_right hc]
    exact Prod.exists
  · rw [getD_of_size_le (by rw [size_covered]; exact Nat.le_of_not_lt hc)]
    exact iff_of_false Bool.false_ne_true fun h => hc h.1

/-! ## the partition of a graph -/

variable (g : Graph) (a : Alphabet)

theorem mem_rangesOf {g : Graph} {r : Nat × Nat} :
    r ∈ rangesOf g ↔ ∃ id, ∃ e ∈ g.edges id, e.range? = some r := by
  rw [rangesOf, List.mem_flatMap]
  constructor
  · rintro ⟨s, hs, hr⟩
    obtain ⟨e, he, hrange⟩ := List.mem_filterMap.1 hr
    obtain ⟨id, hid, rfl⟩ := Array.getElem_of_mem (Array.mem_toList_iff.1 hs)
    refine ⟨id, e, ?_, hrange⟩
    rwa [Graph.edges, Graph.state, Array.getD_eq_getD_getElem?, Array.getElem?_eq_getElem hid]
  · rintro ⟨id, e, he, hr⟩
    have hid := Graph.lt_size_of_mem_edges he
    refine ⟨g.state id, ?_, List.mem_filterMap.2 ⟨e, he, hr⟩⟩
    rw [Array.mem_toList_iff, Graph.state, Array.getD_eq_getD_getElem?,
      Array.getElem?_eq_getElem hid]
    exact Array.getElem_mem hid

theorem mem_starts_ofGraph {s : Nat} :
    s ∈ (ofGraph g a).starts ↔ s = 0 ∨ ∃ r ∈ rangesOf g, s ∈ boundsOf a.maxSymbol r := by
  simp [ofGraph, Ascending.mem_ofList]

theorem proper_ofGraph : (ofGraph g a).Proper where
  ascending := Ascending.pairwise_ofList_nat _
  zero := by
    have hzero : 0 ∈ Ascending.ofList (0 :: (rangesOf g).flatMap (boundsOf a.maxSymbol)) :=
      (Ascending.mem_ofList _ _).2 List.mem_cons_self
    have hpair := Ascending.pairwise_ofList_nat
      (0 :: (rangesOf g).flatMap (boundsOf a.maxSymbol))
    show (Ascending.ofList (0 :: (rangesOf g).flatMap (boundsOf a.maxSymbol))).toArray[0]? = some 0
    cases hl : Ascending.ofList (0 :: (rangesOf g).flatMap (boundsOf a.maxSymbol)) with
    | nil =>
      rw [hl] at hzero
      exact absurd hzero List.not_mem_nil
    | cons s l =>
      rw [hl] at hzero hpair
      rcases List.mem_cons.1 hzero with rfl | hmem
      · rfl
      · exact absurd ((List.pairwise_cons.1 hpair).1 0 hmem) (Nat.not_lt_zero s)
  le_max := by
    intro s hs
    rcases (mem_starts_ofGraph g a).1 hs with rfl | ⟨⟨lo, hi⟩, -, hb⟩
    · exact Nat.zero_le _
    · show s ≤ a.maxSymbol
      unfold boundsOf at hb
      simp only [List.mem_append, List.mem_ite_nil_right, List.mem_singleton] at hb
      omega

theorem fits_ofGraph : (ofGraph g a).FitsAll g := by
  intro id e he lo hi hr
  have hmem : (lo, hi) ∈ rangesOf g := mem_rangesOf.2 ⟨id, e, he, hr⟩
  constructor
  · intro hle
    refine (mem_starts_ofGraph g a).2 (.inr ⟨_, hmem, ?_⟩)
    exact List.mem_append_left _ (List.mem_ite_nil_right.2 ⟨hle, List.mem_singleton_self lo⟩)
  · intro hlt
    refine (mem_starts_ofGraph g a).2 (.inr ⟨_, hmem, ?_⟩)
    exact List.mem_append_right _ (List.mem_ite_nil_right.2 ⟨hlt, List.mem_singleton_self _⟩)

theorem mem_liveCells {g : Graph} {r : Nat × Nat} :
    r ∈ p.liveCells g ↔ ∃ c < p.size, p.cell c = r ∧
      ∃ lo hi, (lo, hi) ∈ rangesOf g ∧ c ∈ p.cellsIn lo hi := by
  simp only [liveCells, List.mem_map, List.mem_filter, indices, List.mem_range, getD_covered]
  constructor
  · rintro ⟨c, ⟨hc, -, h⟩, rfl⟩
    exact ⟨c, hc, rfl, h⟩
  · rintro ⟨c, hc, rfl, h⟩
    exact ⟨c, ⟨hc, hc, h⟩, rfl⟩

end Partition
end SpanSearch
