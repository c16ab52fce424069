import Mathlib.Computability.MyhillNerode
import SpanSearch.Proofs.Reduced
import SpanSearch.Proofs.Spacing

/-!
# The states of a minimal graph are the residuals of its words

A state of a deterministic graph stands for the words that lead from it to acceptance, which are
a left quotient of all words of the graph.  Where no two states stand for the same words, these
decide all edges, so that the words of a graph decide it up to the names of its states.

* `Graph.residual`           the words that lead from a state to acceptance
* `Graph.Canonical`          no state stands for the words of another
* `Canonical.leads_iff`      residuals decide which symbols lead from one state to another
* `Canonical.exists_residual_iff`   a graph for the same words has a state for each residual
* `Graph.between`            the symbols from one state to another; `mem_rangesBetween`: its runs
* `Canonical.exists_renames` two such graphs for the same words are one up to names
* `Canonical.size_le`        no deterministic graph for the same words has fewer states
* `canonical_minimal`        a minimal graph without silent states is such a graph
* `minimal_canonical`
-/

namespace SpanSearch

open Relation

variable {g g' m m' d : Graph} {max : Nat}

namespace Graph

/-! ## residuals -/

/-- the words that lead from a state to acceptance -/
def residual (g : Graph) (p : Nat) : Language Nat := g.shownFrom plainly p

theorem residual_start (g : Graph) : g.residual g.start = g.words := rfl

theorem lt_size_of_mem_residual {p : Nat} {w : List Nat} (h : w ∈ g.residual p) : p < g.size := by
  obtain ⟨q, hr, hacc⟩ := h
  cases hr with
  | here => exact lt_size_of_isAccepting hacc
  | slide mem => exact lt_size_of_mem_edges mem
  | read mem => exact lt_size_of_mem_edges mem

theorem EpsilonFree.nil_mem_residual (hf : g.EpsilonFree) {p : Nat} :
    [] ∈ g.residual p ↔ g.isAccepting p = true := by
  constructor
  · intro h
    obtain ⟨q, hr, hacc⟩ := h
    rw [hf.eq_of_reads_nil hr]
    exact hacc
  · intro h
    exact ⟨p, .here p, h⟩

theorem exists_leads_of_append_mem {p : Nat} {w v : List Nat} (h : w ++ v ∈ g.residual p) :
    ∃ q, g.Leads p w q ∧ v ∈ g.residual q := by
  obtain ⟨r, hr, hacc⟩ := h
  obtain ⟨q, hw, hv⟩ := reads_append.1 hr
  exact ⟨q, hw, r, hv, hacc⟩

theorem Deterministic.residual_eq (hd : g.Deterministic) (hf : g.EpsilonFree) {p q : Nat}
    {w : List Nat} (h : g.Leads p w q) : g.residual q = (g.residual p).leftQuotient w := by
  ext v
  rw [Language.mem_leftQuotient]
  constructor
  · intro hv
    obtain ⟨r, hr, hacc⟩ := hv
    exact ⟨r, h.append hr, hacc⟩
  · intro hv
    obtain ⟨q', hw, hv⟩ := exists_leads_of_append_mem hv
    rw [hd.reads_unique hf h hw]
    exact hv

theorem Consuming.le_of_leads (hm : g.Consuming max) {p q : Nat} {w : List Nat}
    (h : g.Leads p w q) : ∀ sym ∈ w, sym ≤ max := by
  induction h with
  | here => exact List.forall_mem_nil _
  | slide mem eps rest ih => exact ih
  | read mem acc rest ih => exact List.forall_mem_cons.2 ⟨(hm _ _ mem).2 _ acc, ih⟩

theorem Consuming.le_of_mem_residual (hm : g.Consuming max) {p : Nat} {w : List Nat}
    (h : w ∈ g.residual p) : ∀ sym ∈ w, sym ≤ max := by
  obtain ⟨q, hr, -⟩ := h
  exact hm.le_of_leads hr

theorem Consuming.residual_eq (hg : g.Consuming max) (hg' : g'.Consuming max) {p q : Nat}
    (h : ∀ w : List Nat, (∀ sym ∈ w, sym ≤ max) → (w ∈ g.residual p ↔ w ∈ g'.residual q)) :
    g.residual p = g'.residual q := by
  ext w
  constructor
  · intro hw
    exact (h w (hg.le_of_mem_residual hw)).1 hw
  · intro hw
    exact (h w (hg'.le_of_mem_residual hw)).2 hw

theorem Consuming.exists_mem_residual (hm : g.Consuming max) {p : Nat} (hp : g.Live p) :
    ∃ v, v ∈ g.residual p := by
  obtain ⟨q, hr, hacc⟩ := hp
  obtain ⟨v, -, hv⟩ := hm.exists_leads hr
  exact ⟨v, q, hv, hacc⟩

/-! ## graphs without a state too many -/

/-- A deterministic graph that has no state twice: all are reached, all edges lead on to
acceptance, and different states have different residuals.  Its edges are as long as they can
be. -/
structure Canonical (m : Graph) (max : Nat) : Prop where
  closed : m.Closed
  start : m.start < m.size
  epsilonFree : m.EpsilonFree
  deterministic : m.Deterministic
  consuming : m.Consuming max
  live : ∀ p, ∀ e ∈ m.edges p, m.Live e.target
  reached : ∀ q < m.size, ∃ w, m.Leads m.start w q
  apart : ∀ p < m.size, ∀ q < m.size, m.residual p = m.residual q → p = q
  spaced : m.Spaced

namespace Canonical

section
variable (hm : m.Canonical max)
include hm

theorem exists_mem_residual {p q sym : Nat} {w : List Nat} (h : m.Leads p (sym :: w) q) :
    ∃ v, v ∈ m.residual q := by
  obtain ⟨e, he, -, hrest⟩ := hm.epsilonFree.leads_cons.1 h
  exact hm.consuming.exists_mem_residual ((hm.live p e he).of_leads hm.live hrest)

theorem eq_start {q : Nat} (hq : q < m.size) (hnone : ¬ ∃ v, v ∈ m.residual q) :
    q = m.start := by
  obtain ⟨w, hw⟩ := hm.reached q hq
  cases w with
  | nil => exact (hm.epsilonFree.eq_of_reads_nil hw).symm
  | cons sym w => exact absurd (hm.exists_mem_residual hw) hnone

/-- residuals decide which symbols lead from one state to another -/
theorem leads_iff {p q sym : Nat} (hq : q < m.size) : m.Leads p [sym] q ↔
    m.residual q = (m.residual p).leftQuotient [sym] ∧ ∃ v, v ∈ m.residual q := by
  have hresidual {r : Nat} (h : m.Leads p [sym] r) :=
    hm.deterministic.residual_eq hm.epsilonFree h
  constructor
  · intro h
    exact ⟨hresidual h, hm.exists_mem_residual h⟩
  · intro h
    obtain ⟨heq, v, hv⟩ := h
    rw [heq, Language.mem_leftQuotient] at hv
    obtain ⟨r, hr, hv⟩ := exists_leads_of_append_mem hv
    have hsame := heq.trans (hresidual hr).symm
    rw [hm.apart q hq r (lt_size_of_mem_residual hv) hsame]
    exact hr

end

/-! ## states for the same words -/

/-- a deterministic graph for the same words has a state for those of each state -/
theorem exists_residual_iff (hm : m.Canonical max) (hs : d.start < d.size)
    (hd : d.Deterministic) (hf : d.EpsilonFree)
    (hwords : ∀ w : List Nat, (∀ sym ∈ w, sym ≤ max) → (w ∈ d.words ↔ w ∈ m.words))
    {p : Nat} (hp : p < m.size) : ∃ q < d.size,
      ∀ v : List Nat, (∀ sym ∈ v, sym ≤ max) → (v ∈ d.residual q ↔ v ∈ m.residual p) := by
  by_cases hsome : ∃ v, v ∈ m.residual p
  · obtain ⟨w, hw⟩ := hm.reached p hp
    obtain ⟨v, hv⟩ := hsome
    have hmore {v : List Nat} (hle : ∀ sym ∈ v, sym ≤ max) :
        w ++ v ∈ d.words ↔ v ∈ m.residual p := by
      rw [hwords _ (List.forall_mem_append.2 ⟨hm.consuming.le_of_leads hw, hle⟩),
        hm.deterministic.residual_eq hm.epsilonFree hw]
      exact Iff.rfl
    have hmem := (hmore (hm.consuming.le_of_mem_residual hv)).2 hv
    obtain ⟨q, hq, hv⟩ := exists_leads_of_append_mem hmem
    refine ⟨q, lt_size_of_mem_residual hv, ?_⟩
    intro v hle
    rw [← hmore hle, hd.residual_eq hf hq]
    exact Iff.rfl
  · refine ⟨d.start, hs, ?_⟩
    intro v hle
    rw [hm.eq_start hp hsome]
    exact hwords v hle

section
variable (hm : m.Canonical max) (hm' : m'.Canonical max)
include hm hm'

theorem exists_residual_eq (hwords : m.words = m'.words) {p : Nat} (hp : p < m.size) :
    ∃ p' < m'.size, m'.residual p' = m.residual p := by
  obtain ⟨p', hp', hsame⟩ := hm.exists_residual_iff hm'.start hm'.deterministic hm'.epsilonFree
    (fun w _ => by rw [hwords]) hp
  exact ⟨p', hp', hm'.consuming.residual_eq hm.consuming hsame⟩

theorem leads_congr {p p' q q' sym : Nat} (hq : q < m.size) (hq' : q' < m'.size)
    (hp : m'.residual p' = m.residual p) (heq : m'.residual q' = m.residual q) :
    m'.Leads p' [sym] q' ↔ m.Leads p [sym] q := by
  rw [hm'.leads_iff hq', hm.leads_iff hq, hp, heq]

end
end Canonical

/-! ## the ranges between two states -/

/-- the symbols that lead from one state to another -/
def between (g : Graph) (p q : Nat) : Set Nat := {sym | g.Leads p [sym] q}

theorem EpsilonFree.mem_between (hf : g.EpsilonFree) {p q sym : Nat} :
    sym ∈ g.between p q ↔ ∃ e ∈ g.edges p, e.accepts sym = true ∧ e.target = q := by
  show g.Leads p [sym] q ↔ _
  rw [hf.leads_cons]
  constructor
  · intro h
    obtain ⟨e, he, hacc, hrest⟩ := h
    exact ⟨e, he, hacc, hf.eq_of_reads_nil hrest⟩
  · intro h
    obtain ⟨e, he, hacc, rfl⟩ := h
    exact ⟨e, he, hacc, .here _⟩

theorem EpsilonFree.between_eq (hf : g.EpsilonFree) {p q : Nat} :
    g.between p q = g.symbolsTo p q := Set.ext fun _ => hf.mem_between

namespace Spaced

variable (hsp : g.Spaced)
include hsp

theorem mem_rangesBetween (hf : g.EpsilonFree) {p q lo hi : Nat} :
    (lo, hi) ∈ g.rangesBetween p q ↔ IsRun (g.between p q) lo hi := by
  rw [hf.between_eq]
  constructor
  · intro h
    obtain ⟨e, he, -, hr⟩ := mem_rangesBetween_iff.1 h
    have hrange := hsp.isRange p e he
    rw [hrange.range?_eq] at hr
    obtain ⟨rfl, rfl⟩ := Prod.mk.inj (Option.some.inj hr)
    exact (hsp.gapped.mem_rangesBetween hrange.2).1 h
  · intro h
    exact (hsp.gapped.mem_rangesBetween h.le).2 h

/-- the symbols between two states decide the ranges between them -/
theorem rangesBetween_eq (hsp' : g'.Spaced) (hf : g.EpsilonFree) (hf' : g'.EpsilonFree)
    {p q p' q' : Nat} (h : g.between p q = g'.between p' q') :
    g.rangesBetween p q = g'.rangesBetween p' q' := by
  have hirrefl : Std.Irrefl fun r r' : Nat × Nat => r.1 < r'.1 := ⟨fun r => Nat.lt_irrefl r.1⟩
  have hantisymm : Std.Antisymm fun r r' : Nat × Nat => r.1 < r'.1 :=
    ⟨fun r r' hlt hlt' => absurd hlt' (Nat.lt_asymm hlt)⟩
  have hsorted {g : Graph} (hsp : g.Spaced) (hf : g.EpsilonFree) (p q : Nat) :
      (g.rangesBetween p q).Pairwise fun r r' => r.1 < r'.1 := by
    refine (hsp.gapped.pairwise_rangesBetween p q).imp_of_mem ?_
    intro r r' hr _ hgap
    have hle := ((hsp.mem_rangesBetween hf).1 hr).le
    omega
  refine (hsorted hsp hf p q).eq_of_mem_iff (hsorted hsp' hf' p' q') ?_
  intro r
  rw [hsp.mem_rangesBetween hf, hsp'.mem_rangesBetween hf', h]

end Spaced

/-! ## graphs that are one but for the names of their states -/

/-- `m'` is `m` under other names -/
structure Renames (f : Nat → Nat) (m m' : Graph) : Prop where
  bijOn : Set.BijOn f (Set.Iio m.size) (Set.Iio m'.size)
  start : f m.start = m'.start
  accepting : ∀ p < m.size, m'.isAccepting (f p) = m.isAccepting p
  ranges : ∀ p < m.size, ∀ q < m.size,
    m'.rangesBetween (f p) (f q) = m.rangesBetween p q

/-- Two graphs for the same words that have no state too many are one up to names: a state goes
to the one with the same residual. -/
theorem Canonical.exists_renames (hm : m.Canonical max) (hm' : m'.Canonical max)
    (hwords : m.words = m'.words) : ∃ f, Renames f m m' := by
  choose! f hlt hres using fun p (hp : p < m.size) => hm.exists_residual_eq hm' hwords hp
  refine ⟨f, ⟨hlt, ?_, ?_⟩, ?_, ?_, ?_⟩
  · intro p hp q hq heq
    apply hm.apart p hp q hq
    rw [← hres p hp, heq, hres q hq]
  · intro p' hp'
    obtain ⟨p, hp, heq⟩ := hm'.exists_residual_eq hm hwords.symm hp'
    exact ⟨p, hp, hm'.apart _ (hlt p hp) _ hp' ((hres p hp).trans heq)⟩
  · apply hm'.apart _ (hlt _ hm.start) _ hm'.start
    rw [hres _ hm.start]
    exact hwords
  · intro p hp
    rw [Bool.eq_iff_iff, ← hm'.epsilonFree.nil_mem_residual, hres p hp,
      hm.epsilonFree.nil_mem_residual]
  · intro p hp q hq
    apply hm'.spaced.rangesBetween_eq hm.spaced hm'.epsilonFree hm.epsilonFree
    ext sym
    exact hm.leads_congr hm' hq (hlt q hq) (hres p hp) (hres q hq)

/-- no deterministic graph for the same words has fewer states -/
theorem Canonical.size_le (hm : m.Canonical max) (hs : d.start < d.size)
    (hd : d.Deterministic) (hf : d.EpsilonFree)
    (hwords : ∀ w : List Nat, (∀ sym ∈ w, sym ≤ max) → (w ∈ d.words ↔ w ∈ m.words)) :
    m.size ≤ d.size := by
  choose! f hlt hres using fun p (hp : p < m.size) => hm.exists_residual_iff hs hd hf hwords hp
  have hinj : Set.InjOn f (Finset.range m.size) := by
    intro p hp q hq heq
    rw [Finset.coe_range] at hp hq
    apply hm.apart p hp q hq
    apply hm.consuming.residual_eq hm.consuming
    intro v hv
    rw [← hres p hp v hv, heq, hres q hq v hv]
  have hmaps : Set.MapsTo f (Finset.range m.size) (Finset.range d.size) := by
    intro p hp
    rw [Finset.coe_range] at hp ⊢
    exact hlt p hp
  have hcard := Finset.card_le_card_of_injOn f hmaps hinj
  rw [Finset.card_range, Finset.card_range] at hcard
  exact hcard

end Graph

/-! ## minimal graphs -/

/-- words behind which the same words can be finished lead to one block, if no state is silent -/
theorem Blocks.eq_of_words {n h : Graph} {a : Alphabet} {δ : Nat → Nat → Nat}
    (hb : Blocks n a h δ) (hloud : n.Loud) {w w' : List Nat} (hw : ∀ sym ∈ w, sym ≤ a.maxSymbol)
    (hw' : ∀ sym ∈ w', sym ≤ a.maxSymbol) (hmore : ∀ v : List Nat, (∀ sym ∈ v, sym ≤ a.maxSymbol) →
      (w ++ v ∈ n.words ↔ w' ++ v ∈ n.words)) :
    blockAfter n a δ h w = blockAfter n a δ h w' := by
  have hnot {u : List Nat} (hu : ∀ sym ∈ u, sym ≤ a.maxSymbol)
      (hacc : h.isAccepting (blockAfter n a δ h u) = false) :
      h.isSilent (blockAfter n a δ h u) = false := by
    rw [Bool.eq_false_iff, Ne, hb.silent u hu hacc]
    intro hsil
    obtain ⟨⟨s, hs⟩, hall⟩ := hsil
    exact Bool.false_ne_true ((hloud s).symm.trans (hall s hs))
  apply hb.eq_of_kinds
  intro v hv
  have hwv := List.forall_mem_append.2 ⟨hw, hv⟩
  have hwv' := List.forall_mem_append.2 ⟨hw', hv⟩
  have hacc : h.isAccepting (blockAfter n a δ h (w ++ v)) =
      h.isAccepting (blockAfter n a δ h (w' ++ v)) := by
    rw [Bool.eq_iff_iff, hb.accepting _ hwv, hb.accepting _ hwv']
    exact hmore v hv
  apply Refinement.kind_congr hacc
  intro hfalse
  exact (hnot hwv (hacc.trans hfalse)).trans (hnot hwv' hfalse).symm

namespace Graph

/-- a minimal graph without silent states has no state too many -/
theorem canonical_minimal (hc : g.Closed) (hs : g.start < g.size) (a : Alphabet)
    (hloud : g.Loud) : (g.minimal a).Canonical a.maxSymbol := by
  have hdec := decides_minimal hc hs a
  have hreached {q : Nat} (hq : q < (g.minimal a).size) :=
    hdec.consuming.exists_leads (reaches_minimal hc hs a hq)
  refine ⟨hdec.closed, hdec.start, hdec.epsilonFree, hdec.deterministic, hdec.consuming,
    hdec.live, ?_, ?_, spaced_minimal hc hs a⟩
  · intro q hq
    obtain ⟨w, -, hw⟩ := hreached hq
    exact ⟨w, hw⟩
  · intro p hp q hq hres
    obtain ⟨w, hle, hw⟩ := hreached hp
    obtain ⟨w', hle', hw'⟩ := hreached hq
    have hmore (v : List Nat) (hv : ∀ sym ∈ v, sym ≤ a.maxSymbol) :
        w ++ v ∈ g.epsilonFree.words ↔ w' ++ v ∈ g.epsilonFree.words := by
      have hmem {u : List Nat} {r : Nat} (hu : ∀ sym ∈ u, sym ≤ a.maxSymbol)
          (hr : (g.minimal a).Leads (g.minimal a).start u r) :
          u ++ v ∈ g.epsilonFree.words ↔ v ∈ (g.minimal a).residual r := by
        rw [hdec.deterministic.residual_eq hdec.epsilonFree hr, Language.mem_leftQuotient,
          residual_start, hdec.words, and_iff_left (List.forall_mem_append.2 ⟨hu, hv⟩)]
      rw [hmem hle hw, hres, hmem hle' hw']
    obtain ⟨h, δ, hb, heq⟩ := exists_blocks hc hs a
    rw [heq] at hw hw'
    rw [hb.eq_mergedName hw, hb.eq_mergedName hw',
      hb.eq_of_words (hloud.epsilonFree hc hs) hle hle' hmore]

/-- `m` is a deterministic graph for those words of `g` that are over an alphabet, its ranges are
as long as they can be, and no such graph has fewer states -/
structure Fewest (g : Graph) (max : Nat) (m : Graph) : Prop where
  closed : m.Closed
  start : m.start < m.size
  epsilonFree : m.EpsilonFree
  deterministic : m.Deterministic
  words : ∀ w, w ∈ m.words ↔ w ∈ g.words ∧ ∀ sym ∈ w, sym ≤ max
  edges : ∀ p, ∀ e ∈ m.edges p, ∃ lo hi, e = .symbols lo hi e.target
  ranges : ∀ p q lo hi, (lo, hi) ∈ m.rangesBetween p q ↔ IsRun (m.between p q) lo hi
  apart : ∀ p q, (m.rangesBetween p q).Pairwise fun r r' => r.2 + 1 < r'.1
  fewest : ∀ d : Graph, d.start < d.size → d.Deterministic → d.EpsilonFree →
    (∀ w : List Nat, (∀ sym ∈ w, sym ≤ max) → (w ∈ d.words ↔ w ∈ g.words)) → m.size ≤ d.size

theorem fewest_minimal (hc : g.Closed) (hs : g.start < g.size) (a : Alphabet) (hloud : g.Loud) :
    Fewest g a.maxSymbol (g.minimal a) := by
  have hm := canonical_minimal hc hs a hloud
  have hwords := words_minimal hc hs a
  refine ⟨hm.closed, hm.start, hm.epsilonFree, hm.deterministic, hwords, ?_, ?_,
    hm.spaced.gapped.pairwise_rangesBetween, ?_⟩
  · intro p e he
    exact ⟨_, _, (hm.spaced.isRange p e he).1⟩
  · intro p q lo hi
    exact hm.spaced.mem_rangesBetween hm.epsilonFree
  · intro d hds hd hf hsame
    apply hm.size_le hds hd hf
    intro w hw
    rw [hwords, and_iff_left hw]
    exact hsame w hw

/-- Minimal graphs for the same words are one up to the names of their states, and there is no
smaller one. -/
theorem minimal_canonical (a : Alphabet) (hc : g.Closed) (hs : g.start < g.size)
    (hloud : g.Loud) (hc' : g'.Closed) (hs' : g'.start < g'.size) (hloud' : g'.Loud)
    (hwords : ∀ w : List Nat, (∀ sym ∈ w, sym ≤ a.maxSymbol) → (w ∈ g.words ↔ w ∈ g'.words)) :
    g.minimal? a = some (g.minimal a) ∧ g'.minimal? a = some (g'.minimal a) ∧
      (∃ f, Renames f (g.minimal a) (g'.minimal a)) ∧
        Fewest g a.maxSymbol (g.minimal a) ∧ Fewest g' a.maxSymbol (g'.minimal a) := by
  refine ⟨minimal?_of_not_isEmpty (isEmpty_eq_false hs) a,
    minimal?_of_not_isEmpty (isEmpty_eq_false hs') a, ?_,
    fewest_minimal hc hs a hloud, fewest_minimal hc' hs' a hloud'⟩
  apply (canonical_minimal hc hs a hloud).exists_renames (canonical_minimal hc' hs' a hloud')
  ext w
  rw [words_minimal hc hs, words_minimal hc' hs', and_congr_left_iff]
  exact hwords w

/-- epsilons with and without an action, a symbol beyond the alphabet, a state of no use, against
the same graph without epsilons -/
theorem minimal_canonical_epsilonFree :
    let g : Graph := ⟨#[{ edges := [.symbols 97 99 1, .epsilon 2] },
      { edges := [.symbols 98 98 3, .firing (.enter 0) 0] },
      { edges := [.symbols 97 97 1, .symbols 200 300 3] },
      { accepting := true, edges := [.epsilon 4] }, { edges := [.symbols 98 98 4] }], 0⟩
    g.minimal? (.bytes .utf8) = some (g.minimal (.bytes .utf8)) ∧
      g.epsilonFree.minimal? (.bytes .utf8) = some (g.epsilonFree.minimal (.bytes .utf8)) ∧
        (∃ f, Renames f (g.minimal (.bytes .utf8)) (g.epsilonFree.minimal (.bytes .utf8))) ∧
          Fewest g 255 (g.minimal (.bytes .utf8)) ∧
            Fewest g.epsilonFree 255 (g.epsilonFree.minimal (.bytes .utf8)) := by
  intro g
  have hc : g.Closed := closed_iff.2 (by decide)
  have hs : g.start < g.size := by decide
  have hloud : g.Loud := loud_iff.2 (by decide)
  refine minimal_canonical (.bytes .utf8) hc hs hloud (closed_epsilonFree hc hs)
    (start_lt_size_epsilonFree hc hs) (hloud.epsilonFree hc hs) ?_
  intro w _
  rw [words_epsilonFree hc hs]

end Graph
end SpanSearch
