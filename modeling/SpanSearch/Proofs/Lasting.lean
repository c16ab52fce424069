import SpanSearch.Proofs.Coalescing
import SpanSearch.Proofs.Minimal
import SpanSearch.Proofs.Performing

/-!
# Merging keeps what happens

An edge that stands for two shows what either did, so that on the merged paths symbols are
consumed and actions are fired as before.

* `shows_merged`             what happens on the edges to a state
* `performances_mergeEdges`  what happens on the paths to acceptance
* `Gapped.apart`             no symbol on two edges of a state
* `mergeEdges_longest`       the merged graph
-/

namespace SpanSearch

variable {g h : Graph} {p q : Nat} {u : List Happening}

namespace Edge

variable {a b c e : Edge}

theorem shows_iff : e.Shows u ↔ (e.isEpsilon = true ∧ u = e.fired) ∨
    ∃ sym, e.accepts sym = true ∧ u = .consume sym :: e.fired := by
  constructor
  · intro now
    cases now with
    | slide eps => exact .inl ⟨eps, rfl⟩
    | read acc => exact .inr ⟨_, acc, rfl⟩
  · rintro (⟨eps, rfl⟩ | ⟨sym, acc, rfl⟩)
    · exact .slide eps
    · exact .read acc

theorem fired_absorb? (h : a.absorb? b = some c) : c.fired = a.fired ∧ b.fired = a.fired := by
  rcases absorb?_cases h with ⟨lo, hi, lo', hi', -, -, -, haction, -, rfl⟩ | ⟨rfl, rfl⟩
  · exact ⟨rfl, by rw [fired, fired, haction]⟩
  · exact ⟨rfl, rfl⟩

theorem shows_absorb? (hab : Ahead a b) (h : a.absorb? b = some c) :
    c.Shows u ↔ a.Shows u ∨ b.Shows u := by
  obtain ⟨hfired, hfired'⟩ := fired_absorb? h
  obtain ⟨heps, heps'⟩ := isEpsilon_absorb? h
  simp only [shows_iff, hfired, hfired', heps, heps', accepts_absorb? hab h, or_and_right,
    exists_or]
  exact or_or_distrib_left

theorem shows_merged (l : List Edge) (u : List Happening) (t : Nat) :
    (∃ e ∈ merged l, e.Shows u ∧ e.target = t) ↔ ∃ e ∈ l, e.Shows u ∧ e.target = t := by
  refine exists_mem_merged (fun a b c hab hc => ?_) l
  obtain ⟨hct, hbt⟩ := target_of_absorb? hc
  rw [shows_absorb? hab hc, hct, hbt, or_and_right]

end Edge

namespace Graph

/-- two graphs on whose edges the same happens on the way to the same states have the same paths -/
theorem Performs.of_same_steps
    (steps : ∀ p u t, (∃ e ∈ g.edges p, e.Shows u ∧ e.target = t) →
      ∃ e ∈ h.edges p, e.Shows u ∧ e.target = t)
    (hu : g.Performs p u q) : h.Performs p u q := by
  induction hu with
  | here p => exact .here p
  | step mem now rest ih =>
    obtain ⟨d, hd, now', ht⟩ := steps _ _ _ ⟨_, mem, now, rfl⟩
    rw [← ht] at ih
    exact .step hd now' ih

theorem performs_coalesced : g.coalesced.Performs p u q ↔ g.Performs p u q := by
  have hedges (p : Nat) (u : List Happening) (t : Nat) :
      (∃ e ∈ g.coalesced.edges p, e.Shows u ∧ e.target = t) ↔
        ∃ e ∈ g.edges p, e.Shows u ∧ e.target = t := by
    rw [edges_coalesced]
    exact Edge.shows_merged (g.edges p) u t
  exact ⟨.of_same_steps fun p u t => (hedges p u t).1, .of_same_steps fun p u t => (hedges p u t).2⟩

theorem performances_mergeEdges (hc : g.Closed) (hs : g.start < g.size) :
    g.mergeEdges.performances = g.performances := by
  rw [mergeEdges_eq, performances_trim (closed_coalesced hc) (start_lt_size_coalesced hs)]
  ext u
  simp only [performances, start_coalesced, performs_coalesced,
    isAccepting_coalesced]

/-! ## the edges of the merged graph -/

theorem Deterministic.mergeEdges (hc : g.Closed) (hs : g.start < g.size) (hd : g.Deterministic) :
    g.mergeEdges.Deterministic :=
  hd.coalesced.trim (closed_coalesced hc) (start_lt_size_coalesced hs)

theorem nodup_epsilons_mergeEdges (hc : g.Closed) (hs : g.start < g.size) (p : Nat) :
    (g.mergeEdges.epsilons p).Nodup :=
  ((once_mergeEdges hc hs p).filter _).imp_of_mem fun he _ hne =>
    hne (List.mem_filter.1 he).2

/-- where ranges to one state have gaps and ranges to two states share no symbol, no two ranges
share one -/
theorem Gapped.apart (hg : g.Gapped) (hd : g.Deterministic) (p : Nat) :
    (g.edges p).Pairwise fun e d => ∀ sym, ¬ (e.accepts sym = true ∧ d.accepts sym = true) := by
  refine (hg p).imp_of_mem fun he hd' hgap sym h => ?_
  obtain ⟨hacc, hacc'⟩ := h
  obtain ⟨lo, hi, hr, -, hsym⟩ := Edge.accepts_iff.1 hacc
  obtain ⟨lo', hi', hr', hsym', -⟩ := Edge.accepts_iff.1 hacc'
  have hlt := hgap (hd p _ he _ hd' sym hacc hacc') (lo, hi) hr (lo', hi') hr'
  dsimp only at hlt
  omega

/-- On the paths of a graph with merged edges the same symbols are consumed and the same actions
are fired, no epsilon is there twice, and symbols that lead to one state only still do.  Where
whatever consumes a symbol fires nothing, the ranges from one state to another neither overlap nor
touch: they are the longest ranges of the symbols that lead there.  If symbols led to one state
only, then each of them is on one edge. -/
theorem mergeEdges_longest (hc : g.Closed) (hs : g.start < g.size) :
    g.mergeEdges.Closed ∧ g.mergeEdges.start < g.mergeEdges.size ∧
      g.mergeEdges.performances = g.performances ∧
      (∀ p, (g.mergeEdges.epsilons p).Nodup) ∧
      (g.Deterministic → g.mergeEdges.Deterministic) ∧
      ((∀ p, ∀ e ∈ g.edges p, e.FiresAlone) →
        (∀ p q, (g.mergeEdges.rangesBetween p q).Pairwise fun r r' => r.2 + 1 < r'.1) ∧
        (∀ p q lo hi, lo ≤ hi → ((lo, hi) ∈ g.mergeEdges.rangesBetween p q ↔
          IsRun (g.mergeEdges.symbolsTo p q) lo hi)) ∧
        (g.Deterministic → ∀ p, (g.mergeEdges.edges p).Pairwise fun e d =>
          ∀ sym, ¬ (e.accepts sym = true ∧ d.accepts sym = true))) := by
  refine ⟨closed_mergeEdges hc hs, start_lt_size_mergeEdges hs, performances_mergeEdges hc hs,
    nodup_epsilons_mergeEdges hc hs, fun hd => hd.mergeEdges hc hs, fun hfires => ?_⟩
  have hgapped := gapped_mergeEdges hc hs hfires
  exact ⟨hgapped.pairwise_rangesBetween, fun p q lo hi hle => hgapped.mem_rangesBetween hle,
    fun hd => hgapped.apart (hd.mergeEdges hc hs)⟩

/-- ranges that overlap, touch or lie in one another, the last of them up to the largest symbol
of 32 bits, and epsilons that are there twice, with and without an action -/
theorem mergeEdges_longest_ranges :
    let g : Graph := ⟨#[{ edges := [.symbols 5 9 1, .symbols 0 4 1, .epsilon 1,
        .firing (.enter 1) 1, .symbols 7 12 1, .symbols 8 8 1, .symbols 20 0xFFFFFFFE 1,
        .symbols 0xFFFFFFFF 0xFFFFFFFF 1, .symbols 13 19 2, .epsilon 1, .firing (.enter 1) 1,
        .symbols 14 15 2] },
      { accepting := true, edges := [.symbols 97 97 0] }, { edges := [.epsilon 1] },
      { edges := [.epsilon 3] }], 0⟩
    g.mergeEdges.performances = g.performances ∧
      (∀ p, (g.mergeEdges.epsilons p).Nodup) ∧
      (∀ p q, (g.mergeEdges.rangesBetween p q).Pairwise fun r r' => r.2 + 1 < r'.1) ∧
      (∀ p q lo hi, lo ≤ hi → ((lo, hi) ∈ g.mergeEdges.rangesBetween p q ↔
        IsRun (g.mergeEdges.symbolsTo p q) lo hi)) ∧
      ∀ p, (g.mergeEdges.edges p).Pairwise fun e d =>
        ∀ sym, ¬ (e.accepts sym = true ∧ d.accepts sym = true) := by
  intro g
  have hfires : ∀ p, ∀ e ∈ g.edges p, e.FiresAlone := by
    have h : ∀ p < g.size, ∀ e ∈ g.edges p, e.FiresAlone := by decide
    exact fun p e he => h p (lt_size_of_mem_edges he) e he
  have hd : g.Deterministic := deterministic_of_ranges (by decide)
  obtain ⟨-, -, hsame, honce, -, h⟩ :=
    mergeEdges_longest (g := g) (closed_iff.2 (by decide)) (by decide)
  obtain ⟨hgap, hruns, hapart⟩ := h hfires
  exact ⟨hsame, honce, hgap, hruns, hapart hd⟩

end Graph
end SpanSearch
