import SpanSearch.Proofs.Eliminated
import SpanSearch.Proofs.Stepping

/-!
# Sources are exact at every moment of an elimination

An epsilon is replaced by several edges that are added one by one before it goes itself, so there
are moments between any two changes.  In all of them the sources are those of the edges that are
there, whatever the graph was that the elimination set out from.

* `closed_compact_any`    a compacted graph leads nowhere else, also if the graph did
* `Elimination.added`     the edges that are added for an epsilon
* `Elimination.Moment`    the working state, and what is left to do for the epsilon in hand
* `Moment.Step`           an epsilon taken in hand, one edge more, one epsilon less
* `Moment.Kept`           what all moments have in common
* `Elimination.Exact`     sources, edges and what slides to a state agree
* `exact_throughout`      at all moments
-/

namespace SpanSearch

open Relation SpanSearch.Graph

/-! ## what a compacted graph leads to -/

theorem lt_of_numbering {size first x i : Nat} {order : Array Nat} (hn : order.toList.Nodup)
    (h : (numbering size first order).getD x none = some i) : i < first + order.size := by
  by_cases hx : x < size
  · rw [numbering_getD hn hx] at h
    split at h
    · next hmem =>
      have hlt := List.idxOf_lt_length_of_mem (Array.mem_toList_iff.2 hmem)
      rw [Array.length_toList] at hlt
      have := Option.some.inj h
      omega
    · exact absurd h.symm (Option.some_ne_none i)
  · rw [numbering_getD_of_size_le order (Nat.le_of_not_lt hx)] at h
    exact absurd h.symm (Option.some_ne_none i)

/-- edges out of the graph get no new name and are dropped -/
theorem closed_compact_any (g : Graph) : g.compact.Closed := by
  rcases Nat.eq_zero_or_pos g.size with hzero | hpos
  · have hempty : g.compact = Graph.empty := if_pos (beq_iff_eq.2 hzero)
    rw [hempty]
    exact closed_empty
  · refine closed_iff.2 fun q hq e he => ?_
    obtain ⟨p, hp, rfl⟩ := exists_placeOf hpos hq
    rw [edges, state_compact hpos hp] at he
    obtain ⟨d, -, hd⟩ := List.mem_filterMap.1 he
    obtain ⟨i, hi, rfl⟩ := Option.map_eq_some_iff.1 hd
    have hlt := lt_of_numbering (nodup_reachable g.start) hi
    rw [Nat.zero_add] at hlt
    rw [size_compact hpos]
    exact hlt

namespace Elimination

variable {w : Elimination} {g : Graph} {origin target p : Nat} {e : Edge}

/-! ## one epsilon, edge by edge -/

/-- what is added in place of an epsilon -/
def added (w : Elimination) (origin target : Nat) : List (Nat × Edge) :=
  if origin = target then []
  else if origin = w.graph.start ∨
      (w.graph.edges target).length ≤ (w.sourcesInto origin).length then
    w.taken origin target
  else
    let through := w.epsilonSources origin
    if through.any w.graph.isSilent then w.taken origin target
    else w.redirected through target

theorem step_eq_added (w : Elimination) (origin target : Nat) :
    w.step origin target =
      (w.addAll (w.added origin target)).remove origin (Edge.epsilon target) := by
  unfold step added
  split
  · next heq =>
    subst heq
    rfl
  · split
    · exact forward_eq w origin target
    · dsimp only
      split
      · exact forward_eq w origin target
      · exact backward_eq w origin _ target

def InRange (w : Elimination) (l : List (Nat × Edge)) : Prop :=
  ∀ x ∈ l, x.1 < w.graph.size ∧ x.2.target < w.graph.size

theorem inRange_taken (hc : w.graph.Closed) (ho : origin < w.graph.size) :
    InRange w (w.taken origin target) := by
  intro x hx
  obtain ⟨e, he, rfl⟩ := List.mem_map.1 hx
  obtain ⟨m, -, hm⟩ := List.mem_flatMap.1 (List.mem_filter.1 he).1
  exact ⟨ho, hc m e hm⟩

theorem inRange_redirected (through : List Nat) (ht : target < w.graph.size) :
    InRange w (w.redirected through target) := by
  intro x hx
  obtain ⟨id, -, hid⟩ := List.mem_flatMap.1 hx
  obtain ⟨source, -, hsource⟩ := List.mem_flatMap.1 hid
  obtain ⟨d, hd, rfl⟩ := List.mem_map.1 hsource
  exact ⟨lt_size_of_mem_edges (List.mem_filter.1 hd).1, ht⟩

theorem inRange_added (hc : w.graph.Closed) (ho : origin < w.graph.size)
    (ht : target < w.graph.size) : InRange w (w.added origin target) := by
  unfold added
  split
  · exact fun x hx => absurd hx List.not_mem_nil
  · split
    · exact inRange_taken hc ho
    · dsimp only
      split
      · exact inRange_taken hc ho
      · exact inRange_redirected _ ht

/-! ## all moments -/

/-- the working state, the edges still to be added for the epsilon in hand, that epsilon, and
those still to come -/
structure Moment where
  work : Elimination
  adding : List (Nat × Edge)
  removing : Option (Nat × Nat)
  rest : List (Nat × Nat)

namespace Moment

def first (g : Graph) : Moment := ⟨ofGraph g, [], none, pending (ofGraph g).graph⟩

def last (g : Graph) : Moment := ⟨(ofGraph g).run (pending (ofGraph g).graph), [], none, []⟩

inductive Step : Moment → Moment → Prop where
  /-- the next epsilon -/
  | take (w : Elimination) (origin target : Nat) (rest : List (Nat × Nat)) :
      Step ⟨w, [], none, (origin, target) :: rest⟩
        ⟨w, w.added origin target, some (origin, target), rest⟩
  /-- one edge more -/
  | add (w : Elimination) (source : Nat) (e : Edge) (l : List (Nat × Edge))
      (hand : Option (Nat × Nat)) (rest : List (Nat × Nat)) :
      Step ⟨w, (source, e) :: l, hand, rest⟩ ⟨w.add source e, l, hand, rest⟩
  /-- one epsilon less -/
  | remove (w : Elimination) (origin target : Nat) (rest : List (Nat × Nat)) :
      Step ⟨w, [], some (origin, target), rest⟩
        ⟨w.remove origin (Edge.epsilon target), [], none, rest⟩

variable {m : Moment}

theorem Step.unique (a b c : Moment) (hb : Step a b) (hc : Step a c) : b = c := by
  cases hb with
  | take w origin target rest =>
    cases hc
    rfl
  | add w source e l hand rest =>
    cases hc
    rfl
  | remove w origin target rest =>
    cases hc
    rfl

theorem not_step_last (g : Graph) (m : Moment) : ¬ Step (last g) m := by
  intro h
  cases h

theorem reaches_addAll (w : Elimination) (l : List (Nat × Edge)) (hand : Option (Nat × Nat))
    (rest : List (Nat × Nat)) :
    ReflTransGen Step ⟨w, l, hand, rest⟩ ⟨w.addAll l, [], hand, rest⟩ := by
  induction l generalizing w with
  | nil => exact .refl
  | cons x l ih => exact .head (.add w x.1 x.2 l hand rest) (ih _)

theorem reaches_run (w : Elimination) (rest : List (Nat × Nat)) :
    ReflTransGen Step ⟨w, [], none, rest⟩ ⟨w.run rest, [], none, []⟩ := by
  induction rest generalizing w with
  | nil => exact .refl
  | cons x rest ih =>
    obtain ⟨origin, target⟩ := x
    rw [run_cons, step_eq_added]
    refine .head (.take w origin target rest) ((reaches_addAll _ _ _ _).trans ?_)
    exact .head (.remove _ origin target rest) (ih _)

/-- the sources are in step, and what is left to do is about states of the graph -/
structure Kept (m : Moment) : Prop where
  indexed : m.work.Indexed
  adding : InRange m.work m.adding
  rest : ∀ x ∈ m.rest, x.1 < m.work.graph.size ∧ x.2 < m.work.graph.size

theorem kept_first (g : Graph) : Kept (first g) := by
  have hindexed := indexed_ofGraph (closed_compact_any g)
  refine ⟨hindexed, fun x hx => absurd hx List.not_mem_nil, fun x hx => ?_⟩
  obtain ⟨id, hid, hx⟩ := List.mem_flatMap.1 hx
  obtain ⟨e, he, rfl⟩ := List.mem_map.1 hx
  exact ⟨lt_size_of_mem_reachable (Array.mem_toList_iff.1 hid),
    hindexed.closed id e (List.mem_filter.1 he).1⟩

/-- what a step keeps -/
theorem Kept.step (a b : Moment) (ha : Kept a) (h : Step a b) : Kept b := by
  cases h with
  | take w origin target rest =>
    obtain ⟨hx, hrest⟩ := List.forall_mem_cons.1 ha.rest
    exact ⟨ha.indexed, inRange_added ha.indexed.closed hx.1 hx.2, hrest⟩
  | add w source e l hand rest =>
    obtain ⟨hx, hl⟩ := List.forall_mem_cons.1 ha.adding
    refine ⟨ha.indexed.add hx.1 hx.2, fun x hx => ?_, fun x hx => ?_⟩
    · rw [size_add]
      exact hl x hx
    · rw [size_add]
      exact ha.rest x hx
  | remove w origin target rest =>
    refine ⟨ha.indexed.remove _ _, fun x hx => absurd hx List.not_mem_nil, fun x hx => ?_⟩
    rw [size_remove]
    exact ha.rest x hx

end Moment

/-! ## what the sources are good for -/

theorem mem_edges_addAll {l : List (Nat × Edge)} (hl : ∀ x ∈ l, x.1 < w.graph.size) :
    e ∈ (w.addAll l).graph.edges p ↔ e ∈ w.graph.edges p ∨ (p, e) ∈ l := by
  induction l generalizing w with
  | nil => simp [addAll]
  | cons x l ih =>
    obtain ⟨hx, hl⟩ := List.forall_mem_cons.1 hl
    refine (ih (w := w.add x.1 x.2) fun y hy => ?_).trans ?_
    · rw [size_add]
      exact hl y hy
    · rw [mem_edges_add hx, List.mem_cons, or_assoc, Prod.ext_iff]

theorem Indexed.addAll (hw : w.Indexed) {l : List (Nat × Edge)} (hl : InRange w l) :
    (w.addAll l).Indexed := by
  induction l generalizing w with
  | nil => exact hw
  | cons x l ih =>
    obtain ⟨hx, hl⟩ := List.forall_mem_cons.1 hl
    refine ih (hw.add hx.1 hx.2) fun y hy => ?_
    rw [size_add]
    exact hl y hy

/-- The sources of a state are those of the edges into it, one for each, no two edges of a state
are equal, and what slides to a state is found, so that backward elimination misses no edge into
it. -/
structure Exact (w : Elimination) : Prop where
  tracked : w.sources.size = w.graph.size
  sources : ∀ p t, (w.sourcesInto t).count p = (w.graph.targets p).count t
  once : ∀ p, (w.graph.edges p).Nodup
  sliding : ∀ origin < w.graph.size, (w.epsilonSources origin).Nodup ∧
    ∀ x, x ∈ w.epsilonSources origin ↔ ReflTransGen w.graph.Slides x origin
  backward : ∀ origin < w.graph.size, ∀ target < w.graph.size, ∀ p e,
    e ∈ (w.backward origin (w.epsilonSources origin) target).graph.edges p ↔
      (e ∈ w.graph.edges p ∨ ∃ d ∈ w.graph.edges p, d.isEpsilon = false ∧
        ReflTransGen w.graph.Slides d.target origin ∧ e = d.withTarget target) ∧
      ¬ (p = origin ∧ e = Edge.epsilon target)

theorem Indexed.exact (hw : w.Indexed) : w.Exact where
  tracked := hw.tracked
  sources p t := by
    by_cases ht : t < w.graph.size
    · exact hw.count p t ht
    · -- no edge leads out of the graph
      have hnot : ¬ w.graph.Joins p t := fun h => ht (h.lt_size hw.closed)
      rw [List.count_eq_zero.2 (mt hw.mem_sourcesInto.1 hnot),
        List.count_eq_zero.2 (mt mem_targets.1 hnot)]
  once := hw.nodup
  sliding origin ho := ⟨consistent_breadthFirst.nodup, fun _ => hw.mem_epsilonSources ho⟩
  backward origin ho target ht p e := by
    have hrange := inRange_redirected (w := w) (w.epsilonSources origin) ht
    rw [backward_eq, (hw.addAll hrange).mem_edges_remove,
      mem_edges_addAll fun x hx => (hrange x hx).1, hw.mem_redirected ho]
    refine and_congr_left fun _ => or_congr_right ?_
    constructor
    · intro h
      exact h.2.2
    · intro h
      obtain ⟨d, hd, hne, hs, rfl⟩ := h
      exact ⟨hne, rfl, d, hd, hne, hs, rfl⟩

/-- For any graph at all the sources are exact when they have been written down, and at every
moment until no epsilon is left. -/
theorem exact_throughout (g : Graph) :
    Exact ⟨stripped g, sourcesOf (stripped g)⟩ ∧
      (∀ m, ReflTransGen Moment.Step (Moment.first g) m →
        m.work.Exact ∧ ReflTransGen Moment.Step m (Moment.last g)) ∧
      (Moment.last g).work.graph.trim = g.eliminate := by
  have hstripped := closed_stripped (closed_compact_any g)
  refine ⟨(indexed_sourcesOf hstripped nodup_stripped).exact, fun m hm => ⟨?_, ?_⟩, rfl⟩
  · exact (holds_of_reflTransGen Moment.Kept.step (Moment.kept_first g) hm).indexed.exact
  · exact reaches_last Moment.Step.unique hm (Moment.reaches_run _ _) (Moment.not_step_last g)

end Elimination
end SpanSearch
