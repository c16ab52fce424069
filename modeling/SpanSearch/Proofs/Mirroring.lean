import SpanSearch.Proofs.Reversing

/-!
# A fragment backwards beside the fragment

The copy of a fragment shares no state with what was there, and none of its edges leads back.
So it can be turned round in place, and all other fragments are as they were.

* `AddsBlock.turnEdges`      new states are turned round among themselves
* `Adds.reverse`           a fragment of new states backwards is one of new states
* `reverse_copy_mirrors`   the copy of a fragment backwards
-/

namespace SpanSearch
namespace Fragment

open SpanSearch.Graph Relation

variable {g g' : Graph} {a : Fragment} {ids : List Nat} {W : Set (List Stride)}

/-- turning round new states leaves the others as they were -/
theorem AddsBlock.turnEdges (h : AddsBlock g g') (hc : g'.Closed)
    (hclosed : ∀ p ∈ ids, ∀ e ∈ g'.edges p, e.target ∈ ids) (hsub : ∀ p ∈ ids, p ∈ fresh g g') :
    AddsBlock g (turnEdges g' ids) := by
  have hsize : (Fragment.turnEdges g' ids).size = g'.size := (turnEdges_spec hc ids).1.size
  refine ⟨Nat.le_trans h.size (Nat.le_of_eq hsize.symm), fun p hp => ?_, fun p hp e he => ?_⟩
  · have hids : p ∉ ids := fun hmem => Nat.not_lt_of_le (hsub p hmem).1 hp
    rw [state_turnEdges hclosed hids, h.state p hp]
  · rw [mem_fresh, hsize] at hp ⊢
    by_cases hids : p ∈ ids
    · obtain ⟨s, hs, d, -, -, rfl⟩ := (mem_edges_turnEdges hc hids).1 he
      exact hsub s hs
    · rw [edges, state_turnEdges hclosed hids] at he
      exact h.inside p hp e he

/-- a fragment of new states has its walks backwards, in new states -/
theorem Adds.reverse {b : Fragment} (h : Adds W g (b, g')) (hc : g.Closed)
    (hreached : b.Reached g') : Adds {l | Stride.mirror l ∈ W} g (b.reverse g') := by
  have hc' : g'.Closed := h.addsBlock.closed hc
  have hwalks := walks_reverse hc' h.within hreached
  rw [h.walks] at hwalks
  rcases reverse_cases b g' with ⟨-, heq⟩ | ⟨x, hx, heq⟩ <;> rw [heq] at hwalks ⊢
  · have hnew : g'.size ∈ fresh g g'.addState.2 := by
      rw [mem_fresh, size_addState]
      exact ⟨h.addsBlock.size, Nat.lt_succ_self _⟩
    exact ⟨h.addsBlock.addState, hnew, fun y hy => absurd hy.symm (Option.some_ne_none y), hwalks⟩
  · have hentry : b.entry < g'.size := h.entry.2
    have hsub : ∀ p ∈ (g'.reachable b.entry).toList, p ∈ fresh g g' := fun p hp =>
      mem_of_reaches (S := (· ∈ fresh g g')) h.addsBlock.inside
        ((mem_toList_reachable hc' hentry).1 hp) h.entry
    have hsize := (turnEdges_spec hc' (g'.reachable b.entry).toList).1.size
    have hfresh : fresh g (turnEdges g' (g'.reachable b.entry).toList) = fresh g g' := by
      ext p
      rw [mem_fresh, mem_fresh, hsize]
    refine ⟨AddsBlock.turnEdges h.addsBlock hc' (closed_reachable hc' hentry) hsub, ?_,
      fun y hy => ?_, hwalks⟩
    · rw [hfresh]
      exact h.exit x hx
    · obtain rfl : b.entry = y := Option.some.inj hy
      rw [hfresh]
      exact h.entry

/-- The copy of a fragment read backwards is a fragment of new states.  Its walks are those of the
fragment in the other direction, groups entered where they were left, so its words are the words
backwards: none if the fragment has no exit or does not reach it.  Every state is as it was, and
every other fragment has the walks and words that it had. -/
theorem reverse_copy_mirrors (hc : g.Closed) (ha : a.Within g) :
    let r := (do let c ← a.copy; c.reverse : Build Fragment) g
    r.2.Closed ∧ Adds {l | Stride.mirror l ∈ a.walks g} g r ∧
      r.1.words r.2 = (a.words g).reverse ∧
      ((∀ x, a.exit = some x → ¬ ReflTransGen g.Joins a.entry x) → r.1.words r.2 = 0) ∧
      ∀ b : Fragment, b.Within g →
        b.Within r.2 ∧ b.walks r.2 = b.walks g ∧ b.words r.2 = b.words g := by
  intro r
  have hcopy := adds_copy hc ha
  have hreached := exit_copy hc ha
  have hadds : Adds _ g r := hcopy.reverse hc hreached
  have hwords : r.1.words r.2 = (a.words g).reverse := by
    refine (words_reverse (hcopy.addsBlock.closed hc) hcopy.within hreached).trans ?_
    congr 1
    ext w
    rw [mem_words_iff_walks, mem_words_iff_walks, hcopy.walks]
  refine ⟨hadds.addsBlock.closed hc, hadds, hwords, fun hnone => ?_, fun b hb => ?_⟩
  · have hzero : a.words g = 0 := by
      refine Set.eq_empty_of_forall_notMem ?_
      rintro w ⟨x, hx, hw⟩
      exact hnone x hx hw.reaches
    rw [hwords, hzero, Language.reverse_zero]
  · have hwalks := hb.walks_eq hc hadds.addsBlock
    have hsize := hadds.addsBlock.size
    refine ⟨⟨Nat.lt_of_lt_of_le hb.entry hsize,
      fun x hx => Nat.lt_of_lt_of_le (hb.exit x hx) hsize⟩,
      hwalks, ?_⟩
    ext w
    rw [mem_words_iff_walks, mem_words_iff_walks, hwalks]

/-- edges into the entry and out of the exit, groups that are entered and left on edges with and
without a symbol, and a state that leads into the fragment -/
theorem reverse_copy_mirrors_loops :
    let g : Graph := ⟨#[{ edges := [.firing (.enter 1) 1, .symbols 97 98 0] },
      { edges := [⟨.symbols 99 99, 2, some (.leave 1)⟩, .epsilon 0] },
      { edges := [.symbols 100 100 0, .epsilon 3] }, { silent := true, edges := [.epsilon 2] },
      { accepting := true, edges := [.symbols 97 97 0, .epsilon 4] }], 4⟩
    let r := (do let c ← (⟨0, some 2⟩ : Fragment).copy; c.reverse : Build Fragment) g
    Adds {l | Stride.mirror l ∈ (⟨0, some 2⟩ : Fragment).walks g} g r ∧
      r.1.words r.2 = ((⟨0, some 2⟩ : Fragment).words g).reverse := by
  intro g r
  have hwithin : (⟨0, some 2⟩ : Fragment).Within g :=
    ⟨by decide, fun x hx => Option.some.inj hx ▸ by decide⟩
  have h := reverse_copy_mirrors (g := g) (closed_iff.2 (by decide)) hwithin
  exact ⟨h.2.1, h.2.2.1⟩

end Fragment
end SpanSearch
