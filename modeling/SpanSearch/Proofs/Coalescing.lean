import SpanSearch.Proofs.Cells
import SpanSearch.Proofs.Merging

/-!
# Merged edges leave gaps

The edges of a state are merged in one scan over the sorted list, in which an edge is compared
with the last one kept and with no other.  Merging leaves the target and the first symbol of that
edge alone, so that the list stays in order as far as the scan relies on it.

* `pairwise_coalesce`      what holds between an edge and all behind one that it does not absorb
* `Edge.Gapped`            between two ranges with one target there is a gap
* `Edge.FiresAlone`        whatever consumes a symbol fires nothing
* `gapped_merged`, `once_merged`   gaps between ranges, and no epsilon twice
* `gapped_mergeEdges`, `once_mergeEdges`   trimming keeps both
* `IsRun`                  a range in a set that cannot be made longer
* `Graph.rangesBetween`    the ranges from one state to another; `Gapped.mem_rangesBetween`: the
                           longest of the symbols that lead there
-/

namespace SpanSearch

open Std

theorem actionRank_injective {a b : Option Action} (h : actionRank a = actionRank b) : a = b := by
  rcases a with _ | (m | m) <;> rcases b with _ | (n | n) <;> simp_all [actionRank]

/-- a range of symbols in a set whose neighbours are not -/
structure IsRun (s : Set Nat) (lo hi : Nat) : Prop where
  le : lo ≤ hi
  inside : ∀ sym, lo ≤ sym → sym ≤ hi → sym ∈ s
  before : ∀ sym, sym + 1 = lo → sym ∉ s
  behind : hi + 1 ∉ s

/-- two such ranges that share a symbol begin and end together -/
theorem IsRun.unique {s : Set Nat} {lo hi lo' hi' sym : Nat} (h : IsRun s lo hi)
    (h' : IsRun s lo' hi') (hsym : lo ≤ sym ∧ sym ≤ hi) (hsym' : lo' ≤ sym ∧ sym ≤ hi') :
    lo = lo' ∧ hi = hi' := by
  have inside {lo hi lo' hi' : Nat} (h : IsRun s lo hi) (h' : IsRun s lo' hi')
      (hsym : lo ≤ sym ∧ sym ≤ hi) (hsym' : lo' ≤ sym ∧ sym ≤ hi') : lo ≤ lo' ∧ hi' ≤ hi := by
    constructor
    · by_contra hlt
      exact h.before (lo - 1) (by omega) (h'.inside (lo - 1) (by omega) (by omega))
    · by_contra hlt
      exact h.behind (h'.inside (hi + 1) (by omega) (by omega))
  have h1 := inside h h' hsym hsym'
  have h2 := inside h' h hsym' hsym
  omega

namespace Edge

variable {a b c x : Edge} {l : List Edge}

/-- between two ranges with one target there is a gap -/
def Gapped (a b : Edge) : Prop :=
  a.target = b.target → ∀ r ∈ a.range?, ∀ r' ∈ b.range?, r.2 + 1 < r'.1

def FiresAlone (e : Edge) : Prop := e.isEpsilon = false → e.action = none

instance (e : Edge) : Decidable e.FiresAlone := inferInstanceAs (Decidable (_ → _))

theorem ahead_coalesce (hl : ∀ e ∈ l, Ahead x e) : ∀ e ∈ coalesce l, Ahead x e :=
  forall_mem_coalesce (P := fun e => Ahead x e)
    (fun _ _ _ h ha _ => by rwa [Ahead, place_absorb? h]) hl

/-- What holds between an edge and all that come no earlier than one that it does not absorb
holds between any two edges of a merged list: the one behind it was not absorbed, and nothing that
follows begins before that one. -/
theorem pairwise_coalesce {P : Edge → Prop} {R : Edge → Edge → Prop}
    (keep : ∀ a b c, a.absorb? b = some c → P a → P b → P c)
    (part : ∀ a b x, a.absorb? b = none → P a → P b → Ahead a b → Ahead b x → R a x)
    (hl : l.Pairwise Ahead) (h : ∀ e ∈ l, P e) : (coalesce l).Pairwise R := by
  fun_induction coalesce l with
  | case1 => exact .nil
  | case2 e => exact List.pairwise_singleton _ _
  | case3 a b es c hc ih =>
    obtain ⟨ha, h⟩ := List.forall_mem_cons.1 h
    obtain ⟨hb, hes⟩ := List.forall_mem_cons.1 h
    obtain ⟨hahead, hsorted⟩ := List.pairwise_cons.1 hl
    refine ih (List.pairwise_cons.2 ⟨fun e he => ?_, (List.pairwise_cons.1 hsorted).2⟩)
      (List.forall_mem_cons.2 ⟨keep a b c hc ha hb, hes⟩)
    exact ahead_absorb? hc (hahead e (List.mem_cons_of_mem b he))
  | case4 a b es hnone ih =>
    obtain ⟨ha, h⟩ := List.forall_mem_cons.1 h
    obtain ⟨hahead, hsorted⟩ := List.pairwise_cons.1 hl
    have hbehind : ∀ x ∈ coalesce (b :: es), Ahead b x :=
      ahead_coalesce (List.forall_mem_cons.2 ⟨.refl b, (List.pairwise_cons.1 hsorted).1⟩)
    refine List.pairwise_cons.2 ⟨fun x hx => ?_, ih hsorted h⟩
    exact part a b x hnone ha (h b List.mem_cons_self) (hahead b List.mem_cons_self) (hbehind x hx)

/-! ## ranges -/

theorem firesAlone_absorb? (h : a.absorb? b = some c) (ha : a.FiresAlone) : c.FiresAlone := by
  rcases absorb?_cases h with ⟨lo, hi, lo', hi', hlabel, -, -, -, -, rfl⟩ | ⟨-, rfl⟩
  · exact fun _ => ha (by rw [isEpsilon, hlabel])
  · exact ha

/-- between a range and the next one to the same state that it does not absorb there is a gap,
also to all that begin no earlier -/
theorem gapped_of_absorb? (hnone : a.absorb? b = none) (ha : a.FiresAlone) (hb : b.FiresAlone)
    (hab : Ahead a b) (hbx : Ahead b x) : Gapped a x := by
  intro ht r hr r' hr'
  obtain ⟨la, ta, aa⟩ := a
  obtain ⟨lb, tb, ab⟩ := b
  obtain ⟨lx, tx, ax⟩ := x
  obtain rfl : ta = tx := ht
  cases la with
  | epsilon => exact absurd hr.symm (Option.some_ne_none r)
  | symbols lo hi =>
    cases lx with
    | epsilon => exact absurd hr'.symm (Option.some_ne_none r')
    | symbols lo' hi' =>
      obtain rfl := Option.some.inj hr
      obtain rfl := Option.some.inj hr'
      cases lb with
      | epsilon =>
        -- an epsilon comes before the ranges to one state
        simp only [Ahead, place, isLE_compare_cons] at hab hbx
        omega
      | symbols l u =>
        obtain rfl : aa = none := ha rfl
        obtain rfl : ab = none := hb rfl
        simp only [Ahead, place, isLE_compare_cons] at hab hbx
        have htarget : ta = tb := by omega
        have hgap := apart_of_absorb? hnone rfl rfl htarget rfl
        show hi + 1 < lo'
        omega

theorem gapped_merged (h : ∀ e ∈ l, e.FiresAlone) : (merged l).Pairwise Gapped :=
  pairwise_coalesce (P := FiresAlone) (fun _ _ _ hc ha _ => firesAlone_absorb? hc ha)
    (fun _ _ _ hnone ha hb => gapped_of_absorb? hnone ha hb) (pairwise_ahead l)
    fun e he => h e (List.mem_mergeSort.1 he)

/-! ## epsilons -/

/-- an epsilon shares its place with its copies only -/
theorem eq_of_ahead (heps : a.isEpsilon = true) (hab : Ahead a b) (hba : Ahead b a) : a = b := by
  obtain ⟨la, ta, aa⟩ := a
  obtain ⟨lb, tb, ab⟩ := b
  cases la with
  | symbols lo hi => exact absurd heps Bool.false_ne_true
  | epsilon =>
    cases lb with
    | symbols lo hi =>
      simp only [Ahead, place, isLE_compare_cons] at hab hba
      omega
    | epsilon =>
      simp only [Ahead, place, isLE_compare_cons] at hab hba
      obtain rfl : ta = tb := by omega
      obtain rfl : aa = ab := actionRank_injective (Prod.ext (by omega) (by omega))
      rfl

theorem once_of_absorb? (hnone : a.absorb? b = none) (hab : Ahead a b) (hbx : Ahead b x) :
    a.isEpsilon = true → a ≠ x := by
  rintro heps rfl
  obtain rfl := eq_of_ahead heps hab hbx
  obtain ⟨label, t, action⟩ := a
  cases label with
  | symbols lo hi => exact absurd heps Bool.false_ne_true
  | epsilon => simp [absorb?] at hnone

theorem once_merged (l : List Edge) :
    (merged l).Pairwise fun a b => a.isEpsilon = true → a ≠ b :=
  pairwise_coalesce (P := fun _ => True) (fun _ _ _ _ _ _ => trivial)
    (fun _ _ _ hnone _ _ => once_of_absorb? hnone) (pairwise_ahead l) fun _ _ => trivial

end Edge

namespace Graph

variable {g : Graph}

/-! ## the merged graph -/

/-- the edges of every state have gaps between those to one state -/
def Gapped (g : Graph) : Prop := ∀ p, (g.edges p).Pairwise Edge.Gapped

/-- what holds between the edges of each state is kept by trimming, if it is kept by new names
for the targets that tell them apart -/
theorem pairwise_trim {R : Edge → Edge → Prop} (hc : g.Closed) (hs : g.start < g.size)
    (rename : ∀ e d t u, R e d → (t = u → e.target = d.target) →
      R (e.withTarget t) (d.withTarget u))
    (h : ∀ p, (g.edges p).Pairwise R) (q : Nat) : (g.trim.edges q).Pairwise R := by
  have hs' := start_lt_size_pruned hs
  by_cases hq : q < g.trim.size
  · obtain ⟨p, hp, rfl⟩ := exists_placeOf (g := g.pruned) (Nat.zero_lt_of_lt hs') hq
    rw [trim_eq, edges_compact (closed_pruned hc) hs' hp, List.pairwise_map]
    have hpruned : (g.pruned.edges p).Pairwise R := by
      rw [edges_pruned]
      exact (h p).filter _
    refine hpruned.imp_of_mem fun {e d} he hd hR => rename e d _ _ hR fun heq => ?_
    exact placeOf_injective (mem_reachable_of_mem_edges (closed_pruned hc) hs' hp he)
      (mem_reachable_of_mem_edges (closed_pruned hc) hs' hp hd) heq
  · rw [edges_of_size_le (Nat.le_of_not_lt hq)]
    exact .nil

theorem gapped_mergeEdges (hc : g.Closed) (hs : g.start < g.size)
    (h : ∀ p, ∀ e ∈ g.edges p, e.FiresAlone) : g.mergeEdges.Gapped := by
  rw [mergeEdges_eq]
  refine pairwise_trim (closed_coalesced hc) (start_lt_size_coalesced hs) ?_ fun p => ?_
  · intro e d t u hgap hinj ht
    exact hgap (hinj ht)
  · rw [edges_coalesced]
    exact Edge.gapped_merged (h p)

theorem once_mergeEdges (hc : g.Closed) (hs : g.start < g.size) (q : Nat) :
    (g.mergeEdges.edges q).Pairwise fun e d => e.isEpsilon = true → e ≠ d := by
  refine pairwise_trim (closed_coalesced hc) (start_lt_size_coalesced hs) ?_ (fun p => ?_) q
  · intro e d t u hne hinj heps heq
    obtain ⟨le, te, ae⟩ := e
    obtain ⟨ld, td, ad⟩ := d
    obtain ⟨rfl, ht, rfl⟩ := Edge.mk.injEq .. ▸ heq
    obtain rfl : te = td := hinj ht
    exact hne heps rfl
  · rw [edges_coalesced]
    exact Edge.once_merged (g.edges p)

/-! ## the ranges between two states -/

/-- the ranges on the edges from one state to another, in order -/
def rangesBetween (g : Graph) (p q : Nat) : List (Nat × Nat) :=
  ((g.edges p).filter fun e => e.target == q).filterMap Edge.range?

/-- the symbols on the edges from one state to another -/
def symbolsTo (g : Graph) (p q : Nat) : Set Nat :=
  {sym | ∃ e ∈ g.edges p, e.accepts sym = true ∧ e.target = q}

theorem mem_rangesBetween_iff {p q lo hi : Nat} : (lo, hi) ∈ g.rangesBetween p q ↔
    ∃ e ∈ g.edges p, e.target = q ∧ e.range? = some (lo, hi) := by
  simp only [rangesBetween, List.mem_filterMap, List.mem_filter, beq_iff_eq, and_assoc]

theorem mem_symbolsTo {p q sym : Nat} :
    sym ∈ g.symbolsTo p q ↔ ∃ r ∈ g.rangesBetween p q, r.1 ≤ sym ∧ sym ≤ r.2 := by
  constructor
  · rintro ⟨e, he, hacc, ht⟩
    obtain ⟨lo, hi, hr, hsym⟩ := Edge.accepts_iff.1 hacc
    exact ⟨(lo, hi), mem_rangesBetween_iff.2 ⟨e, he, ht, hr⟩, hsym⟩
  · rintro ⟨⟨lo, hi⟩, hmem, hsym⟩
    obtain ⟨e, he, ht, hr⟩ := mem_rangesBetween_iff.1 hmem
    exact ⟨e, he, Edge.accepts_iff.2 ⟨lo, hi, hr, hsym⟩, ht⟩

namespace Gapped

variable (hg : g.Gapped)
include hg

theorem pairwise_rangesBetween (p q : Nat) :
    (g.rangesBetween p q).Pairwise fun r r' => r.2 + 1 < r'.1 := by
  rw [rangesBetween, List.pairwise_filterMap]
  refine ((hg p).filter _).imp_of_mem fun {e d} he hd hgap r hr r' hr' => ?_
  have ht := beq_iff_eq.1 (List.mem_filter.1 he).2
  have ht' := beq_iff_eq.1 (List.mem_filter.1 hd).2
  exact hgap (ht.trans ht'.symm) r hr r' hr'

theorem eq_or_gap {p q : Nat} {r r' : Nat × Nat} (hr : r ∈ g.rangesBetween p q)
    (hr' : r' ∈ g.rangesBetween p q) : r = r' ∨ r.2 + 1 < r'.1 ∨ r'.2 + 1 < r.1 := by
  have hgap := hg.pairwise_rangesBetween p q
  exact List.Pairwise.forall_of_forall_of_flip
    (R := fun r r' : Nat × Nat => r = r' ∨ r.2 + 1 < r'.1 ∨ r'.2 + 1 < r.1) (fun _ _ => .inl rfl)
    (hgap.imp fun h => .inr (.inl h)) (hgap.imp fun h => .inr (.inr h)) hr hr'

/-- the ranges between two states are the longest that there are -/
theorem mem_rangesBetween {p q lo hi : Nat} (hle : lo ≤ hi) :
    (lo, hi) ∈ g.rangesBetween p q ↔ IsRun (g.symbolsTo p q) lo hi := by
  have hrun {lo hi : Nat} (hle : lo ≤ hi) (hmem : (lo, hi) ∈ g.rangesBetween p q) :
      IsRun (g.symbolsTo p q) lo hi := by
    -- a range over a neighbour would touch this one
    have hgap {sym : Nat} (hsym : sym + 1 = lo ∨ sym = hi + 1) : sym ∉ g.symbolsTo p q := by
      rw [mem_symbolsTo]
      rintro ⟨⟨lo', hi'⟩, hmem', hlo', hhi'⟩
      have hapart := hg.eq_or_gap hmem hmem'
      rw [Prod.mk.injEq] at hapart
      dsimp only at hapart hlo' hhi'
      omega
    exact ⟨hle, fun sym h1 h2 => mem_symbolsTo.2 ⟨(lo, hi), hmem, h1, h2⟩,
      fun sym hsym => hgap (.inl hsym), hgap (.inr rfl)⟩
  refine ⟨hrun hle, fun h => ?_⟩
  obtain ⟨⟨lo', hi'⟩, hmem, hlo⟩ := mem_symbolsTo.1 (h.inside lo (Nat.le_refl _) hle)
  obtain ⟨rfl, rfl⟩ := h.unique (hrun (Nat.le_trans hlo.1 hlo.2) hmem) ⟨Nat.le_refl _, hle⟩ hlo
  exact hmem

end Gapped

end Graph
end SpanSearch
