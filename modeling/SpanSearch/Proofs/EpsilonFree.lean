import SpanSearch.Proofs.Eliminating
import SpanSearch.Proofs.Sorting

/-!
# The working state of an elimination

The sources of the edges into each state are kept in step with the graph, so that the states
that slide to an origin are found by following them back.  The epsilons that are still there are
exactly the pairs that still have to be done, and those of the start come first.

* `Graph.SameFlags`            start, size and flags agree
* `Elimination.Sound`          what holds of the working state all the time
* `Elimination.Indexed`        the part of it that is about the sources
* `Elimination.Remaining`      the epsilons that are still there, in order
* `shown_step`, `shown_run`    one epsilon, all epsilons
-/

namespace SpanSearch

open Relation

namespace Graph

variable {g h k : Graph}

/-- the same start, the same number of states and the same flags -/
structure SameFlags (g h : Graph) : Prop where
  size : h.size = g.size
  start : h.start = g.start
  accepting : ∀ p, h.isAccepting p = g.isAccepting p
  silent : ∀ p, h.isSilent p = g.isSilent p

theorem SameFlags.refl (g : Graph) : SameFlags g g := ⟨rfl, rfl, fun _ => rfl, fun _ => rfl⟩

theorem SameFlags.trans (hgh : SameFlags g h) (hhk : SameFlags h k) : SameFlags g k where
  size := hhk.size.trans hgh.size
  start := hhk.start.trans hgh.start
  accepting p := (hhk.accepting p).trans (hgh.accepting p)
  silent p := (hhk.silent p).trans (hgh.silent p)

theorem sameFlags_modify (g : Graph) (id : Nat) (f : List Edge → List Edge) :
    SameFlags g (g.modify id fun s => { s with edges := f s.edges }) where
  size := size_modify g id _
  start := rfl
  accepting p := by
    by_cases hp : id = p
    · subst hp
      by_cases hid : id < g.size
      · rw [isAccepting, state_modify_self _ hid]
        rfl
      · have hle := Nat.le_of_not_lt hid
        rw [isAccepting, isAccepting, state_of_size_le hle,
          state_of_size_le (by rw [size_modify]; exact hle)]
    · rw [isAccepting, state_modify_ne _ hp]
      rfl
  silent p := by
    by_cases hp : id = p
    · subst hp
      by_cases hid : id < g.size
      · rw [isSilent, state_modify_self _ hid]
        rfl
      · have hle := Nat.le_of_not_lt hid
        rw [isSilent, isSilent, state_of_size_le hle,
          state_of_size_le (by rw [size_modify]; exact hle)]
    · rw [isSilent, state_modify_ne _ hp]
      rfl

theorem edges_removeEdge_self {source : Nat} (e : Edge) (hs : source < g.size) :
    (g.removeEdge source e).edges source = (g.edges source).erase e := by
  rw [edges, removeEdge, state_modify_self _ hs]
  rfl

theorem edges_removeEdge_ne {source p : Nat} (e : Edge) (hp : source ≠ p) :
    (g.removeEdge source e).edges p = g.edges p := by
  rw [edges, removeEdge, state_modify_ne _ hp]
  rfl

theorem nodup_edges_addEdge {source : Nat} {e : Edge} (hg : ∀ p, (g.edges p).Nodup)
    (hs : source < g.size) (hnew : e ∉ g.edges source) (p : Nat) :
    ((g.addEdge source e).edges p).Nodup := by
  by_cases hp : source = p
  · subst hp
    rw [edges_addEdge_self e hs, ← List.concat_eq_append]
    exact List.Nodup.concat hnew (hg source)
  · rw [edges_addEdge_ne e hp]
    exact hg p

theorem nodup_edges_removeEdge {source : Nat} {e : Edge} (hg : ∀ p, (g.edges p).Nodup)
    (he : e ∈ g.edges source) (p : Nat) : ((g.removeEdge source e).edges p).Nodup := by
  by_cases hp : source = p
  · subst hp
    rw [edges_removeEdge_self e (lt_size_of_mem_edges he)]
    exact (hg source).erase e
  · rw [edges_removeEdge_ne e hp]
    exact hg p

theorem count_targets_addEdge {source : Nat} (e : Edge) (hs : source < g.size) (p t : Nat) :
    ((g.addEdge source e).targets p).count t =
      (g.targets p).count t + if e.target = t ∧ source = p then 1 else 0 := by
  by_cases hp : source = p
  · subst hp
    rw [targets, targets, edges_addEdge_self e hs, List.map_append, List.count_append]
    simp [List.count_singleton]
  · rw [targets, targets, edges_addEdge_ne e hp]
    simp [hp]

theorem count_targets_removeEdge {source : Nat} {e : Edge} (he : e ∈ g.edges source) (p t : Nat) :
    ((g.removeEdge source e).targets p).count t +
      (if e.target = t ∧ source = p then 1 else 0) = (g.targets p).count t := by
  by_cases hp : source = p
  · subst hp
    rw [targets, targets, edges_removeEdge_self e (lt_size_of_mem_edges he),
      ((List.perm_cons_erase he).map Edge.target).count_eq, List.map_cons, List.count_cons]
    simp
  · rw [targets, targets, edges_removeEdge_ne e hp]
    simp [hp]

def ActionFree (g : Graph) : Prop := ∀ p, ∀ e ∈ g.edges p, e.action = none

theorem ActionFree.eq_epsilon (hg : g.ActionFree) {p : Nat} {e : Edge} (he : e ∈ g.edges p)
    (heps : e.isEpsilon = true) : e = Edge.epsilon e.target := by
  have hact := hg p e he
  obtain ⟨label, target, action⟩ := e
  cases label with
  | epsilon =>
    obtain rfl : action = none := hact
    rfl
  | symbols lo hi => exact absurd heps (by simp [Edge.isEpsilon])

theorem ActionFree.joinsPlainly (hg : g.ActionFree) : g.JoinsPlainly = g.Slides := by
  funext p t
  refine propext ⟨fun ⟨e, he, hplain, ht⟩ => ?_, fun ⟨e, he, heps, ht⟩ => ?_⟩
  · exact ⟨e, he, (Bool.and_eq_true_iff.1 hplain).1, ht⟩
  · exact ⟨e, he, by rw [Edge.isPlain, heps, hg p e he]; rfl, ht⟩

end Graph

open SpanSearch.Graph

namespace Elimination

variable {w : Elimination}

structure Sound (w : Elimination) : Prop where
  closed : w.graph.Closed
  start : w.graph.start < w.graph.size
  actionFree : w.graph.ActionFree
  nodup : ∀ p, (w.graph.edges p).Nodup
  spread : w.graph.SpreadAcceptance
  tracked : w.sources.size = w.graph.size
  count : ∀ p t, t < w.graph.size → (w.sourcesInto t).count p = (w.graph.targets p).count t

/-- the sources are those of the edges that are there, and no edge is there twice -/
structure Indexed (w : Elimination) : Prop where
  closed : w.graph.Closed
  nodup : ∀ p, (w.graph.edges p).Nodup
  tracked : w.sources.size = w.graph.size
  count : ∀ p t, t < w.graph.size → (w.sourcesInto t).count p = (w.graph.targets p).count t

theorem Sound.indexed (hw : w.Sound) : w.Indexed := ⟨hw.closed, hw.nodup, hw.tracked, hw.count⟩

theorem Indexed.mem_sourcesInto (hw : w.Indexed) {p t : Nat} :
    p ∈ w.sourcesInto t ↔ w.graph.Joins p t := by
  by_cases ht : t < w.graph.size
  · rw [← List.count_pos_iff, hw.count p t ht, List.count_pos_iff, mem_targets]
  · have hnone : w.sourcesInto t = [] := by
      rw [sourcesInto, Array.getD_eq_getD_getElem?,
        Array.getElem?_eq_none (hw.tracked ▸ Nat.le_of_not_lt ht)]
      rfl
    rw [hnone]
    exact ⟨fun h => absurd h List.not_mem_nil, fun h => absurd (h.lt_size hw.closed) ht⟩

theorem Sound.mem_sourcesInto (hw : w.Sound) {p t : Nat} :
    p ∈ w.sourcesInto t ↔ w.graph.Joins p t := hw.indexed.mem_sourcesInto

/-! ## adding edges -/

theorem sameFlags_add (w : Elimination) (source : Nat) (e : Edge) :
    SameFlags w.graph (w.add source e).graph := by
  unfold add
  split
  · exact .refl _
  · exact sameFlags_modify w.graph source fun es => es ++ [e]

theorem mem_edges_add {source p : Nat} {e e' : Edge} (hs : source < w.graph.size) :
    e' ∈ (w.add source e).graph.edges p ↔ e' ∈ w.graph.edges p ∨ p = source ∧ e' = e := by
  unfold add
  split
  · next hhas =>
    refine ⟨.inl, ?_⟩
    rintro (he | ⟨rfl, rfl⟩)
    · exact he
    · exact List.contains_iff_mem.1 hhas
  · by_cases hp : source = p
    · subst hp
      rw [show (Elimination.mk (w.graph.addEdge source e) _).graph.edges source =
        w.graph.edges source ++ [e] from edges_addEdge_self e hs]
      simp
    · rw [show (Elimination.mk (w.graph.addEdge source e) _).graph.edges p = w.graph.edges p from
        edges_addEdge_ne e hp]
      simp [Ne.symm hp]

theorem Indexed.add (hw : w.Indexed) {source : Nat} {e : Edge} (hs : source < w.graph.size)
    (ht : e.target < w.graph.size) : (w.add source e).Indexed where
  closed p e' he' := by
    rw [(sameFlags_add w source e).size]
    rcases (mem_edges_add hs).1 he' with h | ⟨-, rfl⟩
    · exact hw.closed p e' h
    · exact ht
  nodup p := by
    unfold Elimination.add
    split
    · exact hw.nodup p
    · next hnot =>
      exact nodup_edges_addEdge hw.nodup hs (fun h => hnot (List.contains_iff_mem.2 h)) p
  tracked := by
    rw [(sameFlags_add w source e).size]
    unfold Elimination.add
    split
    · exact hw.tracked
    · exact Array.size_modify.trans hw.tracked
  count p t htlt := by
    rw [(sameFlags_add w source e).size] at htlt
    unfold Elimination.add
    split
    · exact hw.count p t htlt
    · show ((w.sources.modify e.target fun l => l ++ [source]).getD t []).count p =
        ((w.graph.addEdge source e).targets p).count t
      rw [getD_modify (hw.tracked.symm ▸ ht), count_targets_addEdge e hs, ← hw.count p t htlt]
      by_cases het : t = e.target
      · subst het
        rw [if_pos rfl, List.count_append, List.count_singleton]
        simp [sourcesInto]
      · rw [if_neg het, if_neg fun h => het h.1.symm]
        rfl

theorem Sound.add (hw : w.Sound) {source : Nat} {e : Edge} (hs : source < w.graph.size)
    (ht : e.target < w.graph.size) (hact : e.action = none) (hne : e.isEpsilon = false) :
    (w.add source e).Sound where
  closed := (hw.indexed.add hs ht).closed
  start := by
    rw [(sameFlags_add w source e).size, (sameFlags_add w source e).start]
    exact hw.start
  actionFree p e' he' := by
    rcases (mem_edges_add hs).1 he' with h | ⟨-, rfl⟩
    · exact hw.actionFree p e' h
    · exact hact
  nodup := (hw.indexed.add hs ht).nodup
  spread p q hslide hq := by
    rw [(sameFlags_add w source e).accepting] at hq ⊢
    obtain ⟨e', he', heps, rfl⟩ := hslide
    rcases (mem_edges_add hs).1 he' with h | ⟨-, rfl⟩
    · exact hw.spread p e'.target ⟨e', h, heps, rfl⟩ hq
    · rw [hne] at heps
      exact absurd heps (by decide)
  tracked := (hw.indexed.add hs ht).tracked
  count := (hw.indexed.add hs ht).count

def addAll (w : Elimination) (l : List (Nat × Edge)) : Elimination :=
  l.foldl (fun w (source, e) => w.add source e) w

theorem addAll_spec (hw : w.Sound) {l : List (Nat × Edge)}
    (hl : ∀ x ∈ l, x.1 < w.graph.size ∧ x.2.target < w.graph.size ∧ x.2.action = none ∧
      x.2.isEpsilon = false) :
    (w.addAll l).Sound ∧ SameFlags w.graph (w.addAll l).graph ∧
      ∀ p e, e ∈ (w.addAll l).graph.edges p ↔ e ∈ w.graph.edges p ∨ (p, e) ∈ l := by
  induction l generalizing w with
  | nil => exact ⟨hw, .refl _, fun p e => by simp [addAll]⟩
  | cons x l ih =>
    obtain ⟨hs, ht, hact, hne⟩ := hl x List.mem_cons_self
    have hflags := sameFlags_add w x.1 x.2
    obtain ⟨hsound, hsame, hmem⟩ := ih (hw.add hs ht hact hne) fun y hy => by
      rw [hflags.size]
      exact hl y (List.mem_cons_of_mem x hy)
    refine ⟨hsound, hflags.trans hsame, fun p e => ?_⟩
    refine (hmem p e).trans ?_
    rw [mem_edges_add hs, List.mem_cons, or_assoc, Prod.ext_iff]

/-! ## removing an edge -/

theorem sameFlags_remove (w : Elimination) (source : Nat) (e : Edge) :
    SameFlags w.graph (w.remove source e).graph := by
  unfold remove
  split
  · exact sameFlags_modify w.graph source fun es => es.erase e
  · exact .refl _

theorem Indexed.mem_edges_remove (hw : w.Indexed) {source p : Nat} {e e' : Edge} :
    e' ∈ (w.remove source e).graph.edges p ↔ e' ∈ w.graph.edges p ∧ ¬ (p = source ∧ e' = e) := by
  unfold remove
  split
  · next hhas =>
    have hmem : e ∈ w.graph.edges source := List.contains_iff_mem.1 hhas
    by_cases hp : source = p
    · subst hp
      show e' ∈ (w.graph.removeEdge source e).edges source ↔ _
      rw [edges_removeEdge_self e (lt_size_of_mem_edges hmem), (hw.nodup source).mem_erase_iff]
      simp only [true_and]
      exact and_comm
    · show e' ∈ (w.graph.removeEdge source e).edges p ↔ _
      rw [edges_removeEdge_ne e hp]
      simp [Ne.symm hp]
  · next hnot =>
    refine ⟨fun he => ⟨he, ?_⟩, And.left⟩
    rintro ⟨rfl, rfl⟩
    exact hnot (List.contains_iff_mem.2 he)

theorem Sound.mem_edges_remove (hw : w.Sound) {source p : Nat} {e e' : Edge} :
    e' ∈ (w.remove source e).graph.edges p ↔ e' ∈ w.graph.edges p ∧ ¬ (p = source ∧ e' = e) :=
  hw.indexed.mem_edges_remove

theorem Indexed.remove (hw : w.Indexed) (source : Nat) (e : Edge) :
    (w.remove source e).Indexed where
  closed p e' he' := by
    rw [(sameFlags_remove w source e).size]
    exact hw.closed p e' (hw.mem_edges_remove.1 he').1
  nodup p := by
    unfold Elimination.remove
    split
    · next hhas => exact nodup_edges_removeEdge hw.nodup (List.contains_iff_mem.1 hhas) p
    · exact hw.nodup p
  tracked := by
    rw [(sameFlags_remove w source e).size]
    unfold Elimination.remove
    split
    · exact Array.size_modify.trans hw.tracked
    · exact hw.tracked
  count p t htlt := by
    rw [(sameFlags_remove w source e).size] at htlt
    unfold Elimination.remove
    split
    · next hhas =>
      have hmem : e ∈ w.graph.edges source := List.contains_iff_mem.1 hhas
      have hin : source ∈ w.sourcesInto e.target := hw.mem_sourcesInto.2 ⟨e, hmem, rfl⟩
      have htargets := count_targets_removeEdge hmem p t
      have hold := hw.count p t htlt
      show ((w.sources.modify e.target (swapErase source)).getD t []).count p =
        ((w.graph.removeEdge source e).targets p).count t
      rw [getD_modify (hw.tracked.symm ▸ hw.closed source e hmem)]
      by_cases het : t = e.target
      · subst het
        have hc := count_swapErase hin p
        simp only [true_and] at htargets
        rw [if_pos rfl]
        change (swapErase source (w.sourcesInto e.target)).count p = _
        omega
      · rw [if_neg fun h => het h.1.symm] at htargets
        rw [if_neg het]
        change (w.sourcesInto t).count p = _
        omega
    · exact hw.count p t htlt

theorem Sound.remove (hw : w.Sound) (source : Nat) (e : Edge) : (w.remove source e).Sound where
  closed := (hw.indexed.remove source e).closed
  start := by
    rw [(sameFlags_remove w source e).size, (sameFlags_remove w source e).start]
    exact hw.start
  actionFree p e' he' := hw.actionFree p e' (hw.mem_edges_remove.1 he').1
  nodup := (hw.indexed.remove source e).nodup
  spread p q hslide hq := by
    rw [(sameFlags_remove w source e).accepting] at hq ⊢
    obtain ⟨e', he', heps, rfl⟩ := hslide
    exact hw.spread p e'.target ⟨e', (hw.mem_edges_remove.1 he').1, heps, rfl⟩ hq
  tracked := (hw.indexed.remove source e).tracked
  count := (hw.indexed.remove source e).count

/-! ## the states that slide to an origin -/

theorem Indexed.mem_epsilonSources (hw : w.Indexed) {origin x : Nat} (ho : origin < w.graph.size) :
    x ∈ w.epsilonSources origin ↔ ReflTransGen w.graph.Slides x origin := by
  have hstep (a b : Nat) : Tour.Step w.graph.size (fun id =>
      (w.sourcesInto id).filter fun p => (w.graph.epsilons p).any fun e => e.target == id) a b ↔
        w.graph.Slides b a := by
    constructor
    · rintro ⟨hmem, -⟩
      obtain ⟨e, he, heq⟩ := List.any_eq_true.1 (List.mem_filter.1 hmem).2
      obtain ⟨he, heps⟩ := List.mem_filter.1 he
      exact ⟨e, he, heps, beq_iff_eq.1 heq⟩
    · rintro ⟨e, he, heps, rfl⟩
      refine ⟨List.mem_filter.2 ⟨hw.mem_sourcesInto.2 ⟨e, he, rfl⟩, ?_⟩, lt_size_of_mem_edges he⟩
      exact List.any_eq_true.2 ⟨e, List.mem_filter.2 ⟨he, heps⟩, beq_self_eq_true _⟩
  rw [epsilonSources, Array.mem_toList_iff, mem_breadthFirst,
    show Tour.Step w.graph.size (fun id => (w.sourcesInto id).filter fun p =>
      (w.graph.epsilons p).any fun e => e.target == id) = Function.swap w.graph.Slides from
      funext fun a => funext fun b => propext (hstep a b)]
  simp only [List.mem_singleton, exists_eq_left, ho, true_and]
  exact reflTransGen_swap

theorem Sound.mem_epsilonSources (hw : w.Sound) {origin x : Nat} (ho : origin < w.graph.size) :
    x ∈ w.epsilonSources origin ↔ ReflTransGen w.graph.Slides x origin :=
  hw.indexed.mem_epsilonSources ho

theorem Sound.mem_plainClosure (hw : w.Sound) {id x : Nat} (hid : id < w.graph.size) :
    x ∈ w.graph.plainClosure id ↔ ReflTransGen w.graph.Slides id x := by
  rw [Graph.mem_plainClosure hw.closed hid, hw.actionFree.joinsPlainly]

/-! ## the two ways to do without an epsilon -/

def taken (w : Elimination) (origin target : Nat) : List (Nat × Edge) :=
  (((w.graph.plainClosure target).flatMap w.graph.edges).filter fun e => !e.isEpsilon).map
    fun e => (origin, e)

/-- what backward elimination adds -/
def redirected (w : Elimination) (through : List Nat) (target : Nat) : List (Nat × Edge) :=
  through.flatMap fun id =>
    (Ascending.ofList (w.sourcesInto id)).flatMap fun source =>
      ((w.graph.edges source).filter fun e => !e.isEpsilon && e.target == id).map fun e =>
        (source, e.withTarget target)

theorem forward_eq (w : Elimination) (origin target : Nat) :
    w.forward origin target =
      (w.addAll (w.taken origin target)).remove origin (Edge.epsilon target) := by
  rw [addAll, taken, List.foldl_map]
  rfl

theorem backward_eq (w : Elimination) (origin : Nat) (through : List Nat) (target : Nat) :
    w.backward origin through target =
      (w.addAll (w.redirected through target)).remove origin (Edge.epsilon target) := rfl

theorem Sound.mem_taken (hw : w.Sound) {origin target p : Nat} {e : Edge}
    (ht : target < w.graph.size) :
    (p, e) ∈ w.taken origin target ↔ p = origin ∧ e.isEpsilon = false ∧
      ∃ m, ReflTransGen w.graph.Slides target m ∧ e ∈ w.graph.edges m := by
  simp only [taken, List.mem_map, List.mem_filter, List.mem_flatMap, hw.mem_plainClosure ht,
    Bool.not_eq_true', Prod.mk.injEq]
  constructor
  · rintro ⟨e', ⟨hm, hne⟩, rfl, rfl⟩
    exact ⟨rfl, hne, hm⟩
  · rintro ⟨rfl, hne, hm⟩
    exact ⟨e, ⟨hm, hne⟩, rfl, rfl⟩

theorem Indexed.mem_redirected (hw : w.Indexed) {origin target p : Nat} {e : Edge}
    (ho : origin < w.graph.size) :
    (p, e) ∈ w.redirected (w.epsilonSources origin) target ↔
      e.isEpsilon = false ∧ e.target = target ∧ ∃ d ∈ w.graph.edges p, d.isEpsilon = false ∧
        ReflTransGen w.graph.Slides d.target origin ∧ e = d.withTarget target := by
  simp only [redirected, List.mem_map, List.mem_filter, List.mem_flatMap,
    hw.mem_epsilonSources ho, Bool.and_eq_true, Bool.not_eq_true', beq_iff_eq, Prod.mk.injEq,
    Ascending.mem_ofList]
  constructor
  · rintro ⟨id, hid, source, -, d, ⟨hd, hne, rfl⟩, rfl, rfl⟩
    exact ⟨hne, rfl, d, hd, hne, hid, rfl⟩
  · rintro ⟨-, -, d, hd, hne, hs, rfl⟩
    exact ⟨d.target, hs, p, hw.mem_sourcesInto.2 ⟨d, hd, rfl⟩, d, ⟨hd, hne, rfl⟩, rfl, rfl⟩

theorem Sound.mem_redirected (hw : w.Sound) {origin target p : Nat} {e : Edge}
    (ho : origin < w.graph.size) :
    (p, e) ∈ w.redirected (w.epsilonSources origin) target ↔
      e.isEpsilon = false ∧ e.target = target ∧ ∃ d ∈ w.graph.edges p, d.isEpsilon = false ∧
        ReflTransGen w.graph.Slides d.target origin ∧ e = d.withTarget target :=
  hw.indexed.mem_redirected ho

/-- what a step leaves: it is sound, keeps the flags, and only its own epsilon is gone -/
structure Steps (w : Elimination) (origin target : Nat) (w' : Elimination) : Prop where
  sound : w'.Sound
  flags : SameFlags w.graph w'.graph
  slides : ∀ p t, w'.graph.Slides p t ↔ w.graph.Slides p t ∧ ¬ (p = origin ∧ t = target)

/-- adding edges that consume a symbol and removing one epsilon is such a step, and the edges
that it leaves are these -/
theorem Sound.steps_addAll (hw : w.Sound) (origin target : Nat) {l : List (Nat × Edge)}
    (hl : ∀ x ∈ l, x.1 < w.graph.size ∧ x.2.target < w.graph.size ∧ x.2.action = none ∧
      x.2.isEpsilon = false) :
    Steps w origin target ((w.addAll l).remove origin (Edge.epsilon target)) ∧
      ∀ p e, e ∈ ((w.addAll l).remove origin (Edge.epsilon target)).graph.edges p ↔
        (e ∈ w.graph.edges p ∨ (p, e) ∈ l) ∧
          ¬ (p = origin ∧ e.isEpsilon = true ∧ e.target = target) := by
  obtain ⟨hsound, hsame, hmem⟩ := addAll_spec hw hl
  have hedges (p : Nat) (e : Edge) :
      e ∈ ((w.addAll l).remove origin (Edge.epsilon target)).graph.edges p ↔
        (e ∈ w.graph.edges p ∨ (p, e) ∈ l) ∧
          ¬ (p = origin ∧ e.isEpsilon = true ∧ e.target = target) := by
    rw [hsound.mem_edges_remove, hmem]
    refine and_congr_right fun he => not_congr (and_congr_right fun _ => ?_)
    constructor
    · rintro rfl
      exact ⟨rfl, rfl⟩
    · rintro ⟨heps, rfl⟩
      rcases he with he | he
      · exact hw.actionFree.eq_epsilon he heps
      · rw [(hl _ he).2.2.2] at heps
        exact absurd heps (by decide)
  refine ⟨⟨hsound.remove _ _, hsame.trans (sameFlags_remove _ _ _), fun p t => ?_⟩, hedges⟩
  constructor
  · rintro ⟨e, he, heps, rfl⟩
    obtain ⟨hmem, hnot⟩ := (hedges p e).1 he
    rcases hmem with he | he
    · exact ⟨⟨e, he, heps, rfl⟩, fun hn => hnot ⟨hn.1, heps, hn.2⟩⟩
    · rw [(hl _ he).2.2.2] at heps
      exact absurd heps (by decide)
  · rintro ⟨⟨e, he, heps, rfl⟩, hnot⟩
    exact ⟨e, (hedges p e).2 ⟨.inl he, fun hn => hnot ⟨hn.1, hn.2.2⟩⟩, heps, rfl⟩

section

variable {β : Type} {see : Nat → Nat → β}

theorem Sound.forward (hw : w.Sound) {origin target : Nat}
    (hslide : w.graph.Slides origin target) :
    Steps w origin target (w.forward origin target) ∧
      (w.forward origin target).graph.shown see = w.graph.shown see := by
  obtain ⟨e₀, he₀, heps₀, rfl⟩ := hslide
  have ho := lt_size_of_mem_edges he₀
  have ht := hw.closed origin e₀ he₀
  have hl : ∀ x ∈ w.taken origin e₀.target, x.1 < w.graph.size ∧ x.2.target < w.graph.size ∧
      x.2.action = none ∧ x.2.isEpsilon = false := by
    rintro ⟨p, e⟩ hx
    obtain ⟨rfl, hne, m, -, he⟩ := (hw.mem_taken ht).1 hx
    exact ⟨ho, hw.closed m e he, hw.actionFree m e he, hne⟩
  obtain ⟨hsteps, hedges⟩ := hw.steps_addAll origin e₀.target hl
  rw [forward_eq]
  refine ⟨hsteps, shown_of_forward hsteps.flags.start hsteps.flags.accepting hw.spread
    ⟨e₀, he₀, heps₀, rfl⟩ fun p e => ?_⟩
  rw [hedges, hw.mem_taken ht]

theorem Sound.backward (hw : w.Sound) {origin target : Nat}
    (hslide : w.graph.Slides origin target)
    (notStart : ¬ ReflTransGen w.graph.Slides w.graph.start origin)
    (same : ∀ sym p, ReflTransGen w.graph.Slides p origin → see sym p = see sym target) :
    Steps w origin target (w.backward origin (w.epsilonSources origin) target) ∧
      (w.backward origin (w.epsilonSources origin) target).graph.shown see =
        w.graph.shown see := by
  obtain ⟨e₀, he₀, heps₀, rfl⟩ := hslide
  have ho := lt_size_of_mem_edges he₀
  have ht := hw.closed origin e₀ he₀
  have hl : ∀ x ∈ w.redirected (w.epsilonSources origin) e₀.target, x.1 < w.graph.size ∧
      x.2.target < w.graph.size ∧ x.2.action = none ∧ x.2.isEpsilon = false := by
    rintro ⟨p, e⟩ hx
    obtain ⟨hne, hte, d, hd, -, -, rfl⟩ := (hw.mem_redirected ho).1 hx
    exact ⟨lt_size_of_mem_edges hd, hte ▸ ht, hw.actionFree p d hd, hne⟩
  obtain ⟨hsteps, hedges⟩ := hw.steps_addAll origin e₀.target hl
  rw [backward_eq]
  refine ⟨hsteps, shown_of_backward hsteps.flags.start hsteps.flags.accepting
    ⟨e₀, he₀, heps₀, rfl⟩ notStart same fun p e => ?_⟩
  rw [hedges, hw.mem_redirected ho]

theorem Sound.selfless (hw : w.Sound) (origin : Nat) :
    Steps w origin origin (w.remove origin (Edge.epsilon origin)) ∧
      (w.remove origin (Edge.epsilon origin)).graph.shown see = w.graph.shown see := by
  obtain ⟨hsteps, hedges⟩ := hw.steps_addAll origin origin (l := [])
    fun x hx => absurd hx List.not_mem_nil
  refine ⟨hsteps, shown_of_selfless origin hsteps.flags.start hsteps.flags.accepting fun p e => ?_⟩
  refine (hedges p e).trans ?_
  simp

/-! ## one step, all steps -/

/-- The epsilons that are still there, each once; those of the start come first. -/
structure Remaining (w : Elimination) (l : List (Nat × Nat)) : Prop where
  slides : ∀ p t, w.graph.Slides p t ↔ (p, t) ∈ l
  nodup : l.Nodup
  order : l.Pairwise fun a b => a.1 ≠ w.graph.start → b.1 ≠ w.graph.start

theorem Remaining.steps {w w' : Elimination} {origin target : Nat} {l : List (Nat × Nat)}
    (hl : Remaining w ((origin, target) :: l)) (h : Steps w origin target w') :
    Remaining w' l where
  slides p t := by
    rw [h.slides, hl.slides, List.mem_cons, Prod.mk.injEq]
    constructor
    · rintro ⟨hmem | hmem, hnot⟩
      · exact absurd hmem hnot
      · exact hmem
    · refine fun hmem => ⟨.inr hmem, ?_⟩
      rintro ⟨rfl, rfl⟩
      exact (List.nodup_cons.1 hl.nodup).1 hmem
  nodup := (List.nodup_cons.1 hl.nodup).2
  order := by
    rw [h.flags.start]
    exact (List.pairwise_cons.1 hl.order).2

theorem Remaining.not_slides_start {origin target : Nat} {l : List (Nat × Nat)}
    (hl : Remaining w ((origin, target) :: l)) (ho : origin ≠ w.graph.start) :
    ¬ ReflTransGen w.graph.Slides w.graph.start origin := by
  intro hs
  rcases ReflTransGen.cases_head hs with heq | ⟨t, ht, -⟩
  · exact ho heq.symm
  · rcases List.mem_cons.1 ((hl.slides _ _).1 ht) with heq | hmem
    · exact ho (Prod.mk.inj heq).1.symm
    · exact (List.pairwise_cons.1 hl.order).1 _ hmem ho rfl

theorem shown_step (hw : w.Sound) {origin target : Nat} {l : List (Nat × Nat)}
    (hl : Remaining w ((origin, target) :: l)) (hignores : IgnoresSilence see w.graph) :
    Steps w origin target (w.step origin target) ∧
      (w.step origin target).graph.shown see = w.graph.shown see := by
  have hslide : w.graph.Slides origin target := (hl.slides _ _).2 List.mem_cons_self
  have ho : origin < w.graph.size := by
    obtain ⟨e, he, -⟩ := hslide
    exact lt_size_of_mem_edges he
  unfold step
  split
  · next heq =>
    subst heq
    exact hw.selfless origin
  · split
    · exact hw.forward hslide
    · next hstart =>
      simp only
      split
      · exact hw.forward hslide
      · next hloud =>
        refine hw.backward hslide (hl.not_slides_start fun h => hstart (.inl h)) ?_
        intro sym p hp
        refine hignores sym p target (hp.tail hslide) ?_
        cases hsil : w.graph.isSilent p with
        | false => rfl
        | true =>
          exact absurd (List.any_eq_true.2 ⟨p, (hw.mem_epsilonSources ho).2 hp, hsil⟩) hloud

theorem Steps.ignoresSilence {w w' : Elimination} {origin target : Nat}
    (h : Steps w origin target w')
    (hignores : IgnoresSilence see w.graph) : IgnoresSilence see w'.graph := by
  intro sym p t hs hp
  refine hignores sym p t (ReflTransGen.mono (fun a b hab => ?_) _ _ hs) (h.flags.silent p ▸ hp)
  exact ((h.slides a b).1 hab).1

/-- after all steps what is shown is the same, and no epsilon is left -/
theorem shown_run (hw : w.Sound) {l : List (Nat × Nat)} (hl : Remaining w l)
    (hignores : IgnoresSilence see w.graph) :
    (w.run l).graph.shown see = w.graph.shown see ∧ (w.run l).Sound ∧
      SameFlags w.graph (w.run l).graph ∧ (w.run l).graph.EpsilonFree := by
  induction l generalizing w with
  | nil =>
    refine ⟨rfl, hw, .refl _, fun p e he => ?_⟩
    cases heps : e.isEpsilon with
    | false => rfl
    | true => exact absurd ((hl.slides p e.target).1 ⟨e, he, heps, rfl⟩) List.not_mem_nil
  | cons x l ih =>
    obtain ⟨hsteps, hshown⟩ := shown_step hw hl hignores
    obtain ⟨hrun, hsound, hsame, hfree⟩ :=
      ih hsteps.sound (hl.steps hsteps) (hsteps.ignoresSilence hignores)
    rw [show w.run (x :: l) = (w.step x.1 x.2).run l from rfl]
    exact ⟨hrun.trans hshown, hsound, hsteps.flags.trans hsame, hfree⟩

end

end Elimination
end SpanSearch
