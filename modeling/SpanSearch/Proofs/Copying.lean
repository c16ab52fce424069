import SpanSearch.Proofs.Rows
import SpanSearch.Proofs.Walking

/-!
# Copies of fragments

A copy consists of new states only, which lead to new states only, so the fragment can be copied
again or used itself.

* `Graph.AddsBlock`    all states that were there are as they were, and new ones lead to new ones
* `Fragment.Within`    entry and exit are states of the graph
* `Fragment.walks`     the walks from the entry to the exit
* `Fragment.Adds`      a step makes a fragment of new states
* `copy_cases`         what a copy is
* `adds_copy`          a copy has the walks of the fragment
* `makes_copy`         it matches what the fragment matches
* `makesRow_copyTimes` so do several copies
-/

namespace SpanSearch
namespace Graph

variable {g g' : Graph} {S : Set Nat} {p q : Nat} {l : List Stride}

/-- all states that were there are as they were, and new states lead to new states only -/
structure AddsBlock (g g' : Graph) : Prop where
  size : g.size ≤ g'.size
  state : ∀ p < g.size, g'.state p = g.state p
  inside : ∀ p ∈ fresh g g', ∀ e ∈ g'.edges p, e.target ∈ fresh g g'

namespace AddsBlock

theorem closed (h : AddsBlock g g') (hc : g.Closed) : g'.Closed := by
  refine closed_iff.2 fun p hp e he => ?_
  by_cases hlt : p < g.size
  · rw [edges, h.state p hlt] at he
    exact Nat.lt_of_lt_of_le (hc p e he) h.size
  · exact (h.inside p ⟨Nat.le_of_not_lt hlt, hp⟩ e he).2

theorem addState (h : AddsBlock g g') : AddsBlock g g'.addState.2 where
  size := by
    rw [size_addState]
    exact Nat.le_succ_of_le h.size
  state := fun p hp => (state_addState p).trans (h.state p hp)
  inside := fun p hp e he => by
    rw [edges_addState] at he
    have hfresh := h.inside p ⟨hp.1, lt_size_of_mem_edges he⟩ e he
    rw [mem_fresh, size_addState]
    exact ⟨hfresh.1, Nat.lt_succ_of_lt hfresh.2⟩

theorem walks_iff (h : AddsBlock g g') (hc : g.Closed) (hp : p < g.size) :
    g'.Walks p l q ↔ g.Walks p l q :=
  walks_congr (S := fun p => p < g.size) (fun p _ e he => hc p e he)
    (fun p hp => by rw [edges, h.state p hp, edges]) hp

theorem region (h : AddsBlock g g') (hgrow : Grows ∅ g g') : g'.Region (fresh g g') where
  closed := h.inside
  blank := fun _ hp => hgrow.blank_fresh hp
  lt := fun _ hp => hp.2

end AddsBlock

section
variable {root : Nat}

theorem mem_fresh_copyFrom : p ∈ fresh g (g.copyFrom root).2 ↔
    ∃ q ∈ g.reachable root, g.size + g.placeOf root q = p := by
  rw [mem_fresh, size_copyFrom]
  constructor
  · rintro ⟨hge, hlt⟩
    have hi : p - g.size < (g.reachable root).size := by omega
    refine ⟨_, Array.getElem_mem hi, ?_⟩
    rw [placeOf_getElem (Array.getElem?_eq_getElem hi)]
    omega
  · rintro ⟨q, hq, rfl⟩
    have := placeOf_lt hq
    omega

theorem lt_size_copyFrom (hp : p ∈ g.reachable root) :
    g.size + g.placeOf root p < (g.copyFrom root).2.size :=
  (mem_fresh_copyFrom.2 ⟨p, hp, rfl⟩).2

theorem addsBlock_copyFrom (hc : g.Closed) (hroot : root < g.size) :
    AddsBlock g (g.copyFrom root).2 where
  size := by
    rw [size_copyFrom]
    exact Nat.le_add_right _ _
  state := fun p hp => state_copyFrom hp
  inside := by
    intro p hp e he
    obtain ⟨q, hq, rfl⟩ := mem_fresh_copyFrom.1 hp
    rw [edges_copyFrom_new hc hroot hq] at he
    obtain ⟨d, hd, rfl⟩ := List.mem_map.1 he
    exact mem_fresh_copyFrom.2 ⟨d.target, mem_reachable_of_mem_edges hc hroot hq hd, rfl⟩

theorem getD_copyFrom (hp : p < g.size) : (g.copyFrom root).1.getD p none =
    if p ∈ g.reachable root then some (g.size + g.placeOf root p) else none :=
  numbering_getD (nodup_reachable root) hp

theorem getD_copyFrom_root (hc : g.Closed) (hroot : root < g.size) :
    ((g.copyFrom root).1.getD root none).getD root = g.size + g.placeOf root root := by
  rw [getD_copyFrom hroot, if_pos ((mem_reachable hc hroot).2 .refl)]
  rfl

/-- the state that a state of a copy stands for: a copy for its original, any other for itself -/
def original (g : Graph) (root p : Nat) : Nat :=
  if p < g.size then p else (g.reachable root).getD (p - g.size) p

theorem original_of_lt (hp : p < g.size) : g.original root p = p := if_pos hp

theorem original_copy (hp : p ∈ g.reachable root) :
    g.original root (g.size + g.placeOf root p) = p := by
  rw [original, if_neg (Nat.not_lt_of_le (Nat.le_add_right _ _)), Nat.add_sub_cancel_left,
    Array.getD_eq_getD_getElem?, getElem_placeOf hp]
  rfl

end

theorem walks_copyFrom (hc : g.Closed) {root : Nat} (hroot : root < g.size) {x : Nat}
    (hx : x ∈ g.reachable root) :
    (g.copyFrom root).2.Walks g.size l (g.size + g.placeOf root x) ↔ g.Walks root l x := by
  have hentry : root ∈ g.reachable root := (mem_reachable hc hroot).2 .refl
  have hwalks := (repeats_copyFrom hc hroot).walks_iff (l := l)
    (fun q r hq hr heq => placeOf_injective hq hr (Nat.add_left_cancel heq)) hentry hx
  rwa [placeOf_root hroot, add_zero] at hwalks

end Graph

namespace Fragment

open SpanSearch.Graph

variable {g g' : Graph} {a b : Fragment} {as : List Fragment} {S T : Set Nat}
  {L : Language Nat} {Ls : List (Language Nat)} {W : Set (List Stride)}

structure Within (a : Fragment) (g : Graph) : Prop where
  entry : a.entry < g.size
  exit : ∀ x, a.exit = some x → x < g.size

theorem Lives.within (ha : a.Lives g S) : a.Within g :=
  ⟨ha.lt _ ha.entry, fun x hx => ha.lt x (ha.exit x hx)⟩

/-! ## walks -/

/-- the strides of the walks from the entry to the exit -/
def walks (a : Fragment) (g : Graph) : Set (List Stride) :=
  {l | ∃ x, a.exit = some x ∧ g.Walks a.entry l x}

theorem walks_of_exit {x : Nat} (hx : a.exit = some x) {l : List Stride} :
    l ∈ a.walks g ↔ g.Walks a.entry l x := by
  constructor
  · rintro ⟨y, hy, hl⟩
    rw [hx] at hy
    exact Option.some.inj hy ▸ hl
  · exact fun hl => ⟨x, hx, hl⟩

theorem walks_of_no_exit (hx : a.exit = none) : a.walks g = ∅ := by
  refine Set.eq_empty_of_forall_notMem ?_
  rintro l ⟨x, hsome, -⟩
  exact Option.some_ne_none x (hsome.symm.trans hx)

theorem mem_words_iff_walks {w : List Nat} :
    w ∈ a.words g ↔ ∃ l ∈ a.walks g, Stride.word l = w := by
  constructor
  · rintro ⟨x, hx, hw⟩
    obtain ⟨l, hl, rfl⟩ := leads_iff_walks.1 hw
    exact ⟨l, ⟨x, hx, hl⟩, rfl⟩
  · rintro ⟨l, ⟨x, hx, hl⟩, rfl⟩
    exact ⟨x, hx, hl.leads⟩

theorem Within.walks_eq (hb : b.Within g) (hc : g.Closed) (h : AddsBlock g g') :
    b.walks g' = b.walks g := by
  ext l
  exact exists_congr fun x => and_congr_right fun _ => h.walks_iff hc hb.entry

/-- a step makes a fragment of new states, with the walks `W` -/
structure Adds (W : Set (List Stride)) (g : Graph) (r : Fragment × Graph) : Prop where
  addsBlock : AddsBlock g r.2
  entry : r.1.entry ∈ fresh g r.2
  exit : ∀ x, r.1.exit = some x → x ∈ fresh g r.2
  walks : r.1.walks r.2 = W

theorem Adds.within {r : Fragment × Graph} (h : Adds W g r) : r.1.Within r.2 :=
  ⟨h.entry.2, fun x hx => (h.exit x hx).2⟩

theorem Adds.makes {r : Fragment × Graph} (h : Adds W g r) (hgrow : Grows ∅ g r.2)
    (hL : ∀ w, w ∈ L ↔ ∃ l ∈ W, Stride.word l = w) : Makes ∅ L g r where
  grows := hgrow
  lives := by
    rw [Set.empty_union]
    exact ⟨h.addsBlock.region hgrow, h.entry, h.exit⟩
  words := by
    ext w
    rw [mem_words_iff_walks, hL, h.walks]

/-! ## copies -/

theorem copy_of_exit_eq {x : Nat} (hx : a.exit = some x) : a.copy g =
    (match (g.copyFrom a.entry).1.getD x none with
    | some y => return ⟨((g.copyFrom a.entry).1.getD a.entry none).getD a.entry, some y⟩
    | none => do
      let y ← Build.state
      return ⟨((g.copyFrom a.entry).1.getD a.entry none).getD a.entry, some y⟩ :
      Build Fragment) (g.copyFrom a.entry).2 := by
  unfold copy
  simp only [hx]
  rfl

theorem copy_of_exit {x y : Nat} (hx : a.exit = some x)
    (hy : (g.copyFrom a.entry).1.getD x none = some y) : a.copy g =
      (⟨((g.copyFrom a.entry).1.getD a.entry none).getD a.entry, some y⟩,
        (g.copyFrom a.entry).2) := by
  rw [copy_of_exit_eq hx, hy]
  rfl

theorem copy_of_unreachable {x : Nat} (hx : a.exit = some x)
    (hy : (g.copyFrom a.entry).1.getD x none = none) : a.copy g =
      (⟨((g.copyFrom a.entry).1.getD a.entry none).getD a.entry,
        some (g.copyFrom a.entry).2.size⟩, (g.copyFrom a.entry).2.addState.2) := by
  rw [copy_of_exit_eq hx, hy]
  rfl

theorem copy_of_no_exit (hx : a.exit = none) : a.copy g =
    (⟨((g.copyFrom a.entry).1.getD a.entry none).getD a.entry, none⟩,
      (g.copyFrom a.entry).2) := by
  unfold copy
  simp only [hx]
  rfl

/-- what a copy is: the exit is the copy of the exit, or a new state if the entry does not reach
it -/
theorem copy_cases (hc : g.Closed) (ha : a.Within g) :
    (a.exit = none ∧ a.copy g = (⟨g.size, none⟩, (g.copyFrom a.entry).2)) ∨
    (∃ x ∈ g.reachable a.entry, a.exit = some x ∧
      a.copy g = (⟨g.size, some (g.size + g.placeOf a.entry x)⟩, (g.copyFrom a.entry).2)) ∨
    ∃ x, x ∉ g.reachable a.entry ∧ a.exit = some x ∧ a.copy g =
      (⟨g.size, some (g.copyFrom a.entry).2.size⟩, (g.copyFrom a.entry).2.addState.2) := by
  have hfirst : ((g.copyFrom a.entry).1.getD a.entry none).getD a.entry = g.size := by
    rw [getD_copyFrom_root hc ha.entry, placeOf_root ha.entry, add_zero]
  cases hx : a.exit with
  | none => exact .inl ⟨rfl, by rw [copy_of_no_exit hx, hfirst]⟩
  | some x =>
    have hy : (g.copyFrom a.entry).1.getD x none = _ := getD_copyFrom (ha.exit x hx)
    by_cases hmem : x ∈ g.reachable a.entry
    · rw [if_pos hmem] at hy
      exact .inr (.inl ⟨x, hmem, rfl, by rw [copy_of_exit hx hy, hfirst]⟩)
    · rw [if_neg hmem] at hy
      exact .inr (.inr ⟨x, hmem, rfl, by rw [copy_of_unreachable hx hy, hfirst]⟩)

/-- a copy consists of new states and has the walks of the fragment -/
theorem adds_copy (hc : g.Closed) (ha : a.Within g) : Adds (a.walks g) g (a.copy g) := by
  have hadds := addsBlock_copyFrom hc ha.entry
  have hentry : a.entry ∈ g.reachable a.entry := (mem_reachable hc ha.entry).2 .refl
  have hsize : g.size ∈ fresh g (g.copyFrom a.entry).2 := by
    refine mem_fresh_copyFrom.2 ⟨a.entry, hentry, ?_⟩
    rw [placeOf_root ha.entry, add_zero]
  rcases copy_cases hc ha with ⟨hx, heq⟩ | ⟨x, hmem, hx, heq⟩ | ⟨x, hmem, hx, heq⟩
  · rw [heq]
    refine ⟨hadds, hsize, fun y hy => absurd hy.symm (Option.some_ne_none y), ?_⟩
    rw [walks_of_no_exit hx, walks_of_no_exit rfl]
  · rw [heq]
    refine ⟨hadds, hsize, fun y hy => ?_, ?_⟩
    · exact mem_fresh_copyFrom.2 ⟨x, hmem, Option.some.inj hy⟩
    · ext l
      rw [walks_of_exit hx, walks_of_exit (a := ⟨g.size, _⟩) rfl]
      exact walks_copyFrom hc ha.entry hmem
  · rw [heq]
    generalize (g.copyFrom a.entry).2 = g' at *
    have hlt : g'.size < g'.addState.2.size := by
      rw [size_addState]
      exact Nat.lt_succ_self _
    refine ⟨hadds.addState, ⟨hsize.1, Nat.lt_trans hsize.2 hlt⟩, fun y hy => ?_, ?_⟩
    · obtain rfl : g'.size = y := Option.some.inj hy
      exact ⟨hadds.size, hlt⟩
    · ext l
      rw [walks_of_exit hx, walks_of_exit (a := ⟨g.size, _⟩) rfl]
      refine iff_of_false (fun hl => ?_) fun hl => hmem ((mem_reachable hc ha.entry).2 hl.reaches)
      -- no copied state leads out of the copy
      have hstays := hl.stays (S := (· ∈ fresh g g'))
        (fun p hp e he => hadds.inside p hp e (edges_addState p ▸ he)) hsize
      exact Nat.lt_irrefl _ hstays.2

section
variable (hc : g.Closed) (ha : a.Lives g S)
include hc ha

theorem reachable_subset {p : Nat} (hp : p ∈ g.reachable a.entry) : p ∈ S := by
  have hreach := (mem_reachable hc (ha.lt _ ha.entry)).1 hp
  exact mem_of_reaches (S := (· ∈ S)) ha.closed hreach ha.entry

theorem grows_copy : Grows ∅ g (a.copy g).2 := by
  have hcopied : Grows ∅ g (g.copyFrom a.entry).2 := by
    refine grows_append (fun s hs => ?_) ∅ g
    obtain ⟨p, hp, rfl⟩ := Array.mem_map.1 hs
    exact ha.blank p (reachable_subset hc ha hp)
  rcases copy_cases hc ha.within with ⟨-, heq⟩ | ⟨x, -, -, heq⟩ | ⟨x, -, -, heq⟩
  · rw [heq]
    exact hcopied
  · rw [heq]
    exact hcopied
  · rw [heq]
    exact hcopied.trans (grows_addState ∅ _) (Set.empty_subset _)

theorem makes_copy : Makes ∅ (a.words g) g (a.copy g) :=
  (adds_copy hc ha.within).makes (grows_copy hc ha) fun _ => mem_words_iff_walks

end

theorem makesRow_copyTimes (hc : g.Closed) (ha : a.Lives g S) (n : Nat) :
    MakesRow (List.replicate n (a.words g)) g (a.copyTimes n g) := by
  induction n generalizing g with
  | zero => exact makesRow_nil g
  | succ n ih =>
    have hcopy := makes_copy hc ha
    have hrest := ih (hcopy.closed hc) (ha.grows hcopy.grows (Set.empty_disjoint S))
    rw [ha.words_grows hcopy.grows (Set.empty_disjoint S)] at hrest
    exact hcopy.row.append hrest

end Fragment
end SpanSearch
