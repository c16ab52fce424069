import SpanSearch.Graph.Minimal
import SpanSearch.Proofs.EpsilonFree

/-!
# Graphs without epsilons

What an elimination sets out from is the compacted graph, without actions and repeated edges,
its acceptance spread along the epsilons; what it ends with is trimmed.

* `sound_ofGraph`, `remaining_pending`   where an elimination begins
* `words_eliminate`       the words stay
* `trails_eliminate`      the trails stay, if no edge leads back into the silent part
* `epsilonFree_eliminate`   no epsilon is left
* `words_epsilonFree`, `trails_epsilonFree`   the same with parallel edges merged
-/

namespace SpanSearch

open Relation SpanSearch.Graph

variable {β : Type} {g : Graph} {see : Nat → Nat → β}

namespace Elimination

/-! ## without actions and repeated edges -/

theorem edges_stripped (p : Nat) :
    (stripped g).edges p = firsts ((g.compact.edges p).map Edge.silenced) := by
  by_cases hp : p < g.compact.size
  · rw [edges, stripped, state_mapStates _ hp]
    rfl
  · have hle : g.compact.size ≤ p := Nat.le_of_not_lt hp
    rw [edges_of_size_le hle,
      edges_of_size_le (g := stripped g) (by rw [stripped, size_mapStates]; exact hle)]
    rfl

theorem mem_edges_stripped {p : Nat} {e : Edge} :
    e ∈ (stripped g).edges p ↔ ∃ d ∈ g.compact.edges p, d.silenced = e := by
  rw [edges_stripped, mem_firsts, List.mem_map]

theorem sameFlags_stripped (g : Graph) : SameFlags g.compact (stripped g) where
  size := size_mapStates _ _
  start := rfl
  accepting p := by
    by_cases hp : p < g.compact.size
    · rw [isAccepting, stripped, state_mapStates _ hp]
      rfl
    · have hle : g.compact.size ≤ p := Nat.le_of_not_lt hp
      rw [isAccepting, isAccepting, state_of_size_le hle,
        state_of_size_le (by rw [stripped, size_mapStates]; exact hle)]
  silent p := by
    by_cases hp : p < g.compact.size
    · rw [isSilent, stripped, state_mapStates _ hp]
      rfl
    · have hle : g.compact.size ≤ p := Nat.le_of_not_lt hp
      rw [isSilent, isSilent, state_of_size_le hle,
        state_of_size_le (by rw [stripped, size_mapStates]; exact hle)]

theorem reads_stripped {p q : Nat} {u : List β} :
    (stripped g).Reads see p u q ↔ g.compact.Reads see p u q := by
  constructor
  · refine Reads.of_same_steps (fun p t h => ?_) (fun p s t h => ?_)
    all_goals
      obtain ⟨e, he, hrest⟩ := h
      obtain ⟨d, hd, rfl⟩ := mem_edges_stripped.1 he
      exact ⟨d, hd, hrest⟩
  · refine Reads.of_same_steps (fun p t h => ?_) (fun p s t h => ?_)
    all_goals
      obtain ⟨d, hd, hrest⟩ := h
      exact ⟨d.silenced, mem_edges_stripped.2 ⟨d, hd, rfl⟩, hrest⟩

theorem closed_stripped (hc : g.compact.Closed) : (stripped g).Closed := by
  intro p e he
  obtain ⟨d, hd, rfl⟩ := mem_edges_stripped.1 he
  rw [(sameFlags_stripped g).size]
  exact hc p d hd

theorem actionFree_stripped : (stripped g).ActionFree := by
  intro p e he
  obtain ⟨d, -, rfl⟩ := mem_edges_stripped.1 he
  rfl

/-! ## acceptance spread along epsilons -/

theorem state_spread {p : Nat} (hp : p < g.size) :
    (spread g).state p =
      { g.state p with accepting := (g.plainClosure p).any g.isAccepting } := by
  simp [spread, state, Array.getD_eq_getD_getElem?, ids, hp]

theorem size_spread (g : Graph) : (spread g).size = g.size := by
  simp [spread, size, ids]

theorem edges_spread (p : Nat) : (spread g).edges p = g.edges p := by
  by_cases hp : p < g.size
  · rw [edges, state_spread hp]
    rfl
  · have hle := Nat.le_of_not_lt hp
    rw [edges_of_size_le hle, edges_of_size_le (by rw [size_spread]; exact hle)]

theorem isSilent_spread (p : Nat) : (spread g).isSilent p = g.isSilent p := by
  by_cases hp : p < g.size
  · rw [isSilent, state_spread hp]
    rfl
  · have hle := Nat.le_of_not_lt hp
    rw [isSilent, isSilent, state_of_size_le hle, state_of_size_le (by rw [size_spread]; exact hle)]

theorem slides_spread : (spread g).Slides = g.Slides := by
  funext p q
  rw [Slides, Slides, edges_spread]

theorem isAccepting_spread (hc : g.Closed) (ha : g.ActionFree) {p : Nat} :
    (spread g).isAccepting p = true ↔
      ∃ q, ReflTransGen g.Slides p q ∧ g.isAccepting q = true := by
  by_cases hp : p < g.size
  · rw [isAccepting, state_spread hp]
    show (g.plainClosure p).any g.isAccepting = true ↔ _
    simp only [List.any_eq_true, mem_plainClosure hc hp, ha.joinsPlainly]
  · have hle := Nat.le_of_not_lt hp
    rw [isAccepting, state_of_size_le (by rw [size_spread]; exact hle)]
    refine ⟨fun h => absurd h (by decide), ?_⟩
    intro h
    obtain ⟨q, hs, hq⟩ := h
    rcases ReflTransGen.cases_head hs with rfl | ⟨t, ⟨e, he, -⟩, -⟩
    · exact absurd (lt_size_of_isAccepting hq) hp
    · exact absurd (lt_size_of_mem_edges he) hp

theorem reads_spread {p q : Nat} {u : List β} :
    (spread g).Reads see p u q ↔ g.Reads see p u q :=
  reads_congr (S := fun _ => True) (fun _ _ _ _ => trivial) (fun p _ => edges_spread p) trivial

theorem shown_spread (hc : g.Closed) (ha : g.ActionFree) :
    (spread g).shown see = g.shown see := by
  ext u
  constructor
  · rintro ⟨q, hr, hq⟩
    obtain ⟨r, hs, hracc⟩ := (isAccepting_spread hc ha).1 hq
    exact ⟨r, (reads_spread.1 hr).nil_trans (reads_nil_iff.2 hs), hracc⟩
  · rintro ⟨q, hr, hq⟩
    exact ⟨q, reads_spread.2 hr, (isAccepting_spread hc ha).2 ⟨q, .refl, hq⟩⟩

theorem spreadAcceptance_spread (hc : g.Closed) (ha : g.ActionFree) :
    (spread g).SpreadAcceptance := by
  intro p q hs hq
  rw [slides_spread] at hs
  obtain ⟨r, hr, hacc⟩ := (isAccepting_spread hc ha).1 hq
  exact (isAccepting_spread hc ha).2 ⟨r, .head hs hr, hacc⟩

/-! ## the sources of all edges -/

theorem count_foldl_cons (ts : List Nat) (into : Array (List Nat)) (id : Nat) {t : Nat}
    (ht : t < into.size) (p : Nat) :
    ((ts.foldl (fun into t => into.modify t fun l => id :: l) into).getD t []).count p =
      (into.getD t []).count p + if id = p then ts.count t else 0 := by
  rw [getD_foldl_modify (fun t => t) (fun _ => id) ts ht, List.count_append, List.count_reverse,
    List.map_const', List.count_replicate, ← List.countP_eq_length_filter, Nat.add_comm]
  by_cases hip : id = p
  · rw [if_pos hip, if_pos (beq_iff_eq.2 hip)]
    rfl
  · rw [if_neg hip, if_neg fun h => hip (beq_iff_eq.1 h)]

theorem count_sourcesOf {p t : Nat} (ht : t < g.size) :
    ((sourcesOf g).getD t []).count p = (g.targets p).count t := by
  have hfold (ids : List Nat) (into : Array (List Nat)) (hinto : t < into.size) :
      ((ids.foldl (fun into id => (g.targets id).reverse.foldl
        (fun into t => into.modify t fun l => id :: l) into) into).getD t []).count p =
        (into.getD t []).count p + ids.count p * (g.targets p).count t := by
    induction ids generalizing into with
    | nil => simp
    | cons id ids ih =>
      rw [List.foldl_cons, ih _ (by rwa [size_foldl fun _ _ => Array.size_modify]),
        count_foldl_cons _ _ _ hinto, List.count_reverse, List.count_cons]
      by_cases hip : id = p
      · subst hip
        simp only [if_true, beq_self_eq_true]
        rw [Nat.add_mul, Nat.one_mul]
        omega
      · simp [hip]
  rw [sourcesOf, hfold _ _ (by simpa using ht), List.count_reverse, ids]
  rw [getD_replicate_self, List.count_nil, Nat.zero_add]
  by_cases hp : p < g.size
  · rw [List.nodup_range.count, if_pos (List.mem_range.2 hp), Nat.one_mul]
  · rw [targets, edges_of_size_le (Nat.le_of_not_lt hp)]
    simp

theorem size_sourcesOf : (sourcesOf g).size = g.size := by
  rw [sourcesOf, size_foldl fun into id => size_foldl (fun _ _ => Array.size_modify) _ into]
  exact Array.size_replicate

/-! ## where an elimination begins -/

theorem sameFlags_ofGraph_silent (p : Nat) :
    (ofGraph g).graph.isSilent p = g.compact.isSilent p :=
  (isSilent_spread p).trans ((sameFlags_stripped g).silent p)

theorem indexed_sourcesOf (hc : g.Closed) (hn : ∀ p, (g.edges p).Nodup) :
    Indexed ⟨g, sourcesOf g⟩ := ⟨hc, hn, size_sourcesOf, fun _ _ ht => count_sourcesOf ht⟩

theorem Indexed.spread {sources : Array (List Nat)} (h : Indexed ⟨g, sources⟩) :
    Indexed ⟨Elimination.spread g, sources⟩ := by
  refine ⟨fun p e he => ?_, fun p => ?_, h.tracked.trans (size_spread g).symm, fun p t ht => ?_⟩
  · exact (size_spread g).symm ▸ h.closed p e ((edges_spread p) ▸ he)
  · exact (edges_spread (g := g) p).symm ▸ h.nodup p
  · show ((Elimination.mk g sources).sourcesInto t).count p =
      ((Elimination.spread g).targets p).count t
    rw [targets, edges_spread]
    exact h.count p t (size_spread g ▸ ht)

theorem nodup_stripped (p : Nat) : ((stripped g).edges p).Nodup := by
  rw [edges_stripped]
  exact nodup_firsts _

theorem indexed_ofGraph (hc : g.compact.Closed) : (ofGraph g).Indexed :=
  (indexed_sourcesOf (closed_stripped hc) nodup_stripped).spread

theorem sound_ofGraph (hc : g.Closed) (hs : g.start < g.size) : (ofGraph g).Sound := by
  have hindexed := indexed_ofGraph (closed_compact hc hs)
  have hsc : (stripped g).Closed := closed_stripped (closed_compact hc hs)
  have hedges (p : Nat) : (ofGraph g).graph.edges p = (stripped g).edges p := edges_spread p
  have hsize : (ofGraph g).graph.size = (stripped g).size := size_spread _
  refine ⟨hindexed.closed, ?_, fun p e he => ?_, hindexed.nodup, ?_, hindexed.tracked,
    hindexed.count⟩
  · rw [hsize, (sameFlags_stripped g).size]
    exact start_lt_size_compact hs
  · exact actionFree_stripped p e (hedges p ▸ he)
  · exact spreadAcceptance_spread hsc actionFree_stripped

theorem shown_ofGraph (hc : g.Closed) (hs : g.start < g.size) :
    (ofGraph g).graph.shown see = g.compact.shown see := by
  refine (shown_spread (closed_stripped (closed_compact hc hs)) actionFree_stripped).trans ?_
  ext u
  show (∃ q, (stripped g).Reads see (stripped g).start u q ∧ _) ↔ ∃ q, _ ∧ _
  simp only [reads_stripped, (sameFlags_stripped g).accepting, (sameFlags_stripped g).start]

theorem reaches_ofGraph (hc : g.Closed) (hs : g.start < g.size) {p : Nat}
    (hp : p < (ofGraph g).graph.size) :
    ReflTransGen (ofGraph g).graph.Joins (ofGraph g).graph.start p := by
  have hsize : (ofGraph g).graph.size = g.compact.size :=
    (size_spread _).trans (sameFlags_stripped g).size
  refine ReflTransGen.mono (fun a b hab => ?_) _ _ (reaches_compact hc hs (hsize ▸ hp))
  obtain ⟨e, he, rfl⟩ := hab
  refine ⟨e.silenced, ?_, rfl⟩
  rw [show (ofGraph g).graph.edges a = (stripped g).edges a from edges_spread a]
  exact mem_edges_stripped.2 ⟨e, he, rfl⟩

theorem mem_pending {s : Graph} (hreached : ∀ p < s.size, p ∈ s.reachable s.start) {p t : Nat} :
    (p, t) ∈ pending s ↔ s.Slides p t := by
  simp only [pending, List.mem_flatMap, List.mem_map, Prod.mk.injEq, epsilons, List.mem_filter]
  constructor
  · rintro ⟨id, -, e, ⟨he, heps⟩, rfl, rfl⟩
    exact ⟨e, he, heps, rfl⟩
  · rintro ⟨e, he, heps, rfl⟩
    exact ⟨p, Array.mem_toList_iff.2 (hreached p (lt_size_of_mem_edges he)), e, ⟨he, heps⟩, rfl,
      rfl⟩

/-- no epsilon is pending twice, as none is listed twice -/
theorem nodup_pending {s : Graph} (ha : s.ActionFree) (hnodup : ∀ p, (s.edges p).Nodup) :
    (pending s).Nodup := by
  rw [pending, List.nodup_flatMap]
  refine ⟨fun id _ => ?_, (nodup_reachable s.start).imp_of_mem fun {a b} _ _ hab => ?_⟩
  · refine (List.Nodup.filter _ (hnodup id)).map_on fun e he d hd hed => ?_
    obtain ⟨he, heps⟩ := List.mem_filter.1 he
    obtain ⟨hd, hdps⟩ := List.mem_filter.1 hd
    rw [ha.eq_epsilon he heps, ha.eq_epsilon hd hdps, (Prod.mk.inj hed).2]
  · apply List.disjoint_left.2
    intro x hxa hxb
    obtain ⟨e, -, rfl⟩ := List.mem_map.1 hxa
    obtain ⟨d, -, hd⟩ := List.mem_map.1 hxb
    exact hab (Prod.mk.inj hd).1.symm

theorem exists_reachable_cons {s : Graph} (hs : s.start < s.size) :
    ∃ rest, (s.reachable s.start).toList = s.start :: rest ∧ s.start ∉ rest := by
  have hroot := reachable_root hs
  have hnd := nodup_reachable (g := s) s.start
  rw [← Array.getElem?_toList] at hroot
  cases hl : (s.reachable s.start).toList with
  | nil =>
    rw [hl] at hroot
    exact absurd hroot (by simp)
  | cons a rest =>
    rw [hl] at hroot hnd
    obtain rfl := Option.some.inj hroot
    exact ⟨rest, rfl, (List.nodup_cons.1 hnd).1⟩

/-- the epsilons of the start come first, as it is the first state that is reached -/
theorem order_pending {s : Graph} (hs : s.start < s.size) :
    (pending s).Pairwise fun a b => a.1 ≠ s.start → b.1 ≠ s.start := by
  obtain ⟨rest, hrest, hnot⟩ := exists_reachable_cons hs
  have hlater : ∀ x ∈ rest.flatMap fun id => (s.epsilons id).map fun e => (id, e.target),
      x.1 ≠ s.start := by
    intro x hx heq
    obtain ⟨id, hid, hx⟩ := List.mem_flatMap.1 hx
    obtain ⟨e, -, rfl⟩ := List.mem_map.1 hx
    exact hnot (heq ▸ hid)
  rw [pending, hrest, List.flatMap_cons, List.pairwise_append]
  refine ⟨?_, List.pairwise_of_forall_mem_list fun a _ b hb _ => hlater b hb,
    fun a _ b hb _ => hlater b hb⟩
  refine List.pairwise_of_forall_mem_list fun a ha b _ hne => ?_
  obtain ⟨e, -, rfl⟩ := List.mem_map.1 ha
  exact absurd rfl hne

theorem remaining_pending (hc : g.Closed) (hs : g.start < g.size) :
    Remaining (ofGraph g) (pending (ofGraph g).graph) := by
  have hw := sound_ofGraph hc hs
  have hreached : ∀ p < (ofGraph g).graph.size,
      p ∈ (ofGraph g).graph.reachable (ofGraph g).graph.start := fun p hp =>
    (mem_reachable hw.closed hw.start).2 (reaches_ofGraph hc hs hp)
  exact ⟨fun p t => (mem_pending hreached).symm, nodup_pending hw.actionFree hw.nodup,
    order_pending hw.start⟩

end Elimination

open Elimination

namespace Graph

/-- the graph after the last epsilon, before it is trimmed -/
def slideless (g : Graph) : Graph := ((ofGraph g).run (pending (ofGraph g).graph)).graph

theorem eliminate_eq (g : Graph) : g.eliminate = g.slideless.trim := rfl

theorem slideless_spec (hc : g.Closed) (hs : g.start < g.size) :
    g.slideless.Closed ∧ g.slideless.start < g.slideless.size ∧ g.slideless.EpsilonFree ∧
      (∀ p, g.slideless.isSilent p = g.compact.isSilent p) ∧ g.slideless.words = g.words := by
  obtain ⟨hshown, hsound, hsame, hfree⟩ := shown_run (sound_ofGraph hc hs)
    (remaining_pending hc hs) (ignoresSilence_plainly _)
  refine ⟨hsound.closed, hsound.start, hfree, fun p => ?_, ?_⟩
  · exact (hsame.silent p).trans (sameFlags_ofGraph_silent p)
  · exact hshown.trans ((shown_ofGraph hc hs).trans (words_compact hc hs))

theorem start_slideless (hc : g.Closed) (hs : g.start < g.size) :
    g.slideless.start = g.compact.start := by
  obtain ⟨-, -, hsame, -⟩ := shown_run (sound_ofGraph hc hs) (remaining_pending hc hs)
    (ignoresSilence_plainly _)
  exact hsame.start

theorem silentFirst_compact (hc : g.Closed) (hs : g.start < g.size) (hg : g.SilentFirst) :
    g.compact.SilentFirst := by
  intro q e he
  have hpos := Nat.zero_lt_of_lt hs
  obtain ⟨p, hp, rfl⟩ := exists_placeOf hpos (lt_size_of_mem_edges he)
  rw [edges_compact hc hs hp] at he
  obtain ⟨d, hd, rfl⟩ := List.mem_map.1 he
  rw [isSilent_compact hpos hp]
  show g.compact.isSilent (g.placeOf g.start d.target) = true → _
  rw [isSilent_compact hpos (mem_reachable_of_mem_edges hc hs hp hd)]
  exact hg p d hd

theorem trails_slideless (hc : g.Closed) (hs : g.start < g.size) (hg : g.SilentFirst) :
    g.slideless.trails = g.trails := by
  have hsilent (p : Nat) := sameFlags_ofGraph_silent (g := g) p
  have hfirst : (ofGraph g).graph.SilentFirst := by
    intro p e he
    rw [show (ofGraph g).graph.edges p = (stripped g).edges p from edges_spread p] at he
    obtain ⟨d, hd, rfl⟩ := mem_edges_stripped.1 he
    rw [hsilent, hsilent]
    exact silentFirst_compact hc hs hg p d hd
  obtain ⟨hshown, -, hsame, -⟩ := shown_run (sound_ofGraph hc hs)
    (remaining_pending hc hs) (ignoresSilence_marked hfirst)
  have hsee : g.slideless.marked = (ofGraph g).graph.marked := by
    funext sym t
    rw [marked, marked, slideless, hsame.silent]
  have hsee' : (ofGraph g).graph.marked = g.compact.marked := by
    funext sym t
    rw [marked, marked, hsilent]
  have hrun : g.slideless.shown g.slideless.marked = g.compact.shown g.compact.marked := by
    rw [hsee]
    exact hshown.trans ((shown_ofGraph hc hs).trans (by rw [hsee']))
  exact hrun.trans (trails_compact hc hs)

theorem words_eliminate (hc : g.Closed) (hs : g.start < g.size) : g.eliminate.words = g.words := by
  obtain ⟨hclosed, hstart, -, -, hwords⟩ := slideless_spec hc hs
  rw [eliminate_eq, words_trim hclosed hstart, hwords]

theorem trails_eliminate (hc : g.Closed) (hs : g.start < g.size) (hg : g.SilentFirst) :
    g.eliminate.trails = g.trails := by
  obtain ⟨hclosed, hstart, -⟩ := slideless_spec hc hs
  rw [eliminate_eq, trails_trim hclosed hstart, trails_slideless hc hs hg]

theorem closed_eliminate (hc : g.Closed) (hs : g.start < g.size) : g.eliminate.Closed := by
  obtain ⟨hclosed, hstart, -⟩ := slideless_spec hc hs
  exact closed_trim hclosed hstart

theorem start_lt_size_eliminate (hc : g.Closed) (hs : g.start < g.size) :
    g.eliminate.start < g.eliminate.size := by
  obtain ⟨-, hstart, -⟩ := slideless_spec hc hs
  exact start_lt_size_trim hstart

theorem exists_mem_edges_of_trim (hc : g.Closed) (hs : g.start < g.size) {q : Nat} {e : Edge}
    (he : e ∈ g.trim.edges q) : ∃ p, ∃ d ∈ g.edges p, e = d.withTarget e.target := by
  have hs' := start_lt_size_pruned hs
  obtain ⟨p, hp, rfl⟩ := exists_placeOf (Nat.zero_lt_of_lt hs') (lt_size_of_mem_edges he)
  rw [trim_eq, edges_compact (closed_pruned hc) hs' hp] at he
  obtain ⟨d, hd, rfl⟩ := List.mem_map.1 he
  exact ⟨p, d, ((mem_edges_pruned hc).1 hd).1, rfl⟩

theorem EpsilonFree.trim (hc : g.Closed) (hs : g.start < g.size) (hg : g.EpsilonFree) :
    g.trim.EpsilonFree := by
  intro q e he
  obtain ⟨p, d, hd, heq⟩ := exists_mem_edges_of_trim hc hs he
  rw [heq]
  exact hg p d hd

theorem epsilonFree_eliminate (hc : g.Closed) (hs : g.start < g.size) :
    g.eliminate.EpsilonFree := by
  obtain ⟨hclosed, hstart, hfree, -⟩ := slideless_spec hc hs
  exact hfree.trim hclosed hstart

/-! ## with parallel edges merged -/

theorem EpsilonFree.coalesced (hg : g.EpsilonFree) : g.coalesced.EpsilonFree := by
  intro p e he
  cases heps : e.isEpsilon with
  | false => rfl
  | true =>
    rw [edges_coalesced] at he
    obtain ⟨d, hd, hdps, -⟩ := (Edge.isEpsilon_merged (g.edges p) e.target).1 ⟨e, he, heps, rfl⟩
    rw [hg p d hd] at hdps
    exact absurd hdps (by decide)

theorem EpsilonFree.mergeEdges (hc : g.Closed) (hs : g.start < g.size) (hg : g.EpsilonFree) :
    g.mergeEdges.EpsilonFree :=
  hg.coalesced.trim (closed_coalesced hc) (start_lt_size_coalesced hs)

theorem words_epsilonFree (hc : g.Closed) (hs : g.start < g.size) :
    g.epsilonFree.words = g.words := by
  rw [epsilonFree, words_mergeEdges (closed_eliminate hc hs) (start_lt_size_eliminate hc hs),
    words_eliminate hc hs]

theorem trails_epsilonFree (hc : g.Closed) (hs : g.start < g.size) (hg : g.SilentFirst) :
    g.epsilonFree.trails = g.trails := by
  rw [epsilonFree, trails_mergeEdges (closed_eliminate hc hs) (start_lt_size_eliminate hc hs),
    trails_eliminate hc hs hg]

theorem closed_epsilonFree (hc : g.Closed) (hs : g.start < g.size) : g.epsilonFree.Closed :=
  closed_mergeEdges (closed_eliminate hc hs) (start_lt_size_eliminate hc hs)

theorem start_lt_size_epsilonFree (hc : g.Closed) (hs : g.start < g.size) :
    g.epsilonFree.start < g.epsilonFree.size :=
  start_lt_size_mergeEdges (start_lt_size_eliminate hc hs)

theorem epsilonFree_epsilonFree (hc : g.Closed) (hs : g.start < g.size) :
    g.epsilonFree.EpsilonFree :=
  (epsilonFree_eliminate hc hs).mergeEdges (closed_eliminate hc hs) (start_lt_size_eliminate hc hs)

theorem live_epsilonFree (hc : g.Closed) (hs : g.start < g.size) {p : Nat} {e : Edge}
    (he : e ∈ g.epsilonFree.edges p) : g.epsilonFree.Live e.target :=
  live_trim (closed_coalesced (closed_eliminate hc hs))
    (start_lt_size_coalesced (start_lt_size_eliminate hc hs)) he

end Graph
end SpanSearch
