import SpanSearch.Proofs.Marking

/-!
# The groups that are open in the graph of a pattern

An expression compiles to a graph with a chart.  Group `0` around it is entered by the edges of
the start only and left by edges to a state without edges, and this stays so under compacting and
contracting.

* `Expr.groups`          the numbers of the capture groups
* `turning`              edges enter groups that are not open and leave groups that are
* `suits_turning`        around an expression and between its parts the same groups are open
* `Graph.Wraps`          group `0` is entered from the start and left at the end, and nowhere else
* `Wraps.shape`          the events of an accepting path
* `Fragment.enclosed`    group `0` around a part
* `Expr.exists_wraps`    the graph that recovers capture groups has the words of its expression
-/

namespace SpanSearch

open SpanSearch.Graph Relation

variable {N : Set Nat}

/-! ## expressions -/

/-- edges enter groups that are not open in a state, and leave groups that are -/
def turns : Rule (Set Nat) := fun _ => Turns

instance : turns.Composes where
  refl := fun _ => rfl
  comp := fun hAB h => by
    obtain rfl := hAB
    exact h

/-- edges enter groups of `N` that are not open in a state, and leave groups that are -/
def turning (N : Set Nat) : Rule (Set Nat) := fun _ a A B =>
  Turns a A B ∧ ∀ x, a = some x → x.group ∈ N

theorem turning_none (N : Set Nat) (l : Label) (A B : Set Nat) : turning N l none A B ↔ B = A :=
  and_iff_left fun x hx => absurd hx.symm (Option.some_ne_none x)

theorem keepsMarks_turning (N B : Set Nat) : (turning N).KeepsMarks B :=
  fun l => (turning_none N l B B).2 rfl

instance (N : Set Nat) : (turning N).Composes where
  refl := fun B => keepsMarks_turning N B .epsilon
  comp := fun hAB h => by
    obtain rfl := (turning_none N _ _ _).1 hAB
    exact h

theorem Chart.tracks (w : Chart (turning N)) : w.graph.Tracks w.marks :=
  fun p e he => (w.obeys p e he).1

theorem Chart.named (w : Chart (turning N)) {p : Nat} {e : Edge} (he : e ∈ w.graph.edges p)
    {a : Action} (ha : e.action = some a) : a.group ∈ N := (w.obeys p e he).2 a ha

namespace Expr

open Fragment

variable {B : Set Nat}

mutual

/-- the numbers of the capture groups from left to right -/
def groups : Expr → List Nat
  | .group (some n) e => n :: e.groups
  | .group none e => e.groups
  | .loop e _ _ => e.groups
  | .concat es => groupsOf es
  | .alt es => groupsOf es
  | _ => []

def groupsOf : List Expr → List Nat
  | [] => []
  | e :: es => e.groups ++ groupsOf es

end

/-- the groups of an expression all differ, have numbers in `N` and are not open around it -/
structure Free (N B : Set Nat) (ns : List Nat) : Prop where
  named : ∀ n ∈ ns, n ∈ N
  apart : ∀ n ∈ ns, n ∉ B
  nodup : ns.Nodup

theorem Free.left {ns ms : List Nat} (h : Free N B (ns ++ ms)) : Free N B ns where
  named := fun n hn => h.named n (List.mem_append_left ms hn)
  apart := fun n hn => h.apart n (List.mem_append_left ms hn)
  nodup := h.nodup.of_append_left

theorem Free.right {ns ms : List Nat} (h : Free N B (ns ++ ms)) : Free N B ms where
  named := fun n hn => h.named n (List.mem_append_right ns hn)
  apart := fun n hn => h.apart n (List.mem_append_right ns hn)
  nodup := h.nodup.of_append_right

theorem Free.tail {n : Nat} {ns : List Nat} (h : Free N B (n :: ns)) : Free N (insert n B) ns where
  named := fun m hm => h.named m (List.mem_cons_of_mem n hm)
  apart := fun m hm hmem => by
    rcases hmem with rfl | hmem
    · exact (List.nodup_cons.1 h.nodup).1 hm
    · exact h.apart m (List.mem_cons_of_mem n hm) hmem
  nodup := (List.nodup_cons.1 h.nodup).2

/-- an expression without assertions whose groups are free -/
def Allowed (N : Set Nat) (B : Set Nat) (e : Expr) : Prop :=
  e.assertion? = none ∧ Free N B e.groups

theorem allowed_of_mem {es : List Expr} (hnone : assertionIn? es = none)
    (hfree : Free N B (groupsOf es)) : ∀ e ∈ es, Allowed N B e := by
  induction es with
  | nil => exact fun e he => absurd he List.not_mem_nil
  | cons e es ih =>
    obtain ⟨he, hes⟩ := Option.or_eq_none_iff.1 hnone
    exact List.forall_mem_cons.2 ⟨⟨he, hfree.left⟩, ih hes hfree.right⟩

theorem suits_turning (N : Set Nat) (α : Alphabet) : (turning N).SuitsLevel α (Allowed N) where
  text := fun _ w => charts_text (keepsMarks_turning N _) w _
  literal := fun _ w => charts_literal (keepsMarks_turning N _) w _
  charClass := fun _ w => charts_anyCharClass (keepsMarks_turning N _) w _
  byte := fun _ => keepsMarks_turning N _ _
  byteClass := fun _ _ _ => keepsMarks_turning N _ _
  assertion := fun {_ a} h => absurd h.1 (Option.some_ne_none a)
  loop := fun h => h
  plain := fun h => h
  group := fun {B n _} ⟨hnone, hfree⟩ => ⟨insert n B, ⟨hnone, hfree.tail⟩,
    ⟨⟨hfree.apart n List.mem_cons_self, rfl⟩,
      fun _ h => Option.some.inj h ▸ hfree.named n List.mem_cons_self⟩,
    ⟨⟨hfree.apart n List.mem_cons_self, rfl⟩,
      fun _ h => Option.some.inj h ▸ hfree.named n List.mem_cons_self⟩⟩
  concat := fun h => allowed_of_mem h.1 h.2
  alt := fun h => allowed_of_mem h.1 h.2

end Expr

/-! ## group `0` -/

namespace Graph

variable {g : Graph} {O : Nat → Set Nat} {t : Tape} {p q i k : Nat} {u : List Event}

/-- group `0` is entered by the edges of the start and left by edges to states without edges;
acceptance is behind it -/
structure Wraps (g : Graph) (O : Nat → Set Nat) : Prop where
  tracks : g.Tracks O
  start : O g.start = ∅
  opening : ∀ e ∈ g.edges g.start, e.isEpsilon = true ∧ e.action = some (.enter 0)
  closing : ∀ p, ∀ e ∈ g.edges p, e.action = some (.leave 0) → g.edges e.target = []
  accepting : ∀ p, g.isAccepting p = true → p ≠ g.start ∧ O p = ∅

theorem Wraps.obeys (hO : g.Wraps O) : g.Obeys turns O := hO.tracks

/-- how far a path has come: nowhere, into group `0`, or to its end -/
inductive Stage (g : Graph) (O : Nat → Set Nat) (i : Nat) : List Event → Nat → Nat → Prop
  | before : Stage g O i [] g.start i
  | inside {v : List Event} {q k : Nat} (avoids : Avoids 0 v) (mem : 0 ∈ O q) :
      Stage g O i ((.enter 0, i) :: v) q k
  | behind {v : List Event} {q k : Nat} (avoids : Avoids 0 v) (none : g.edges q = []) :
      Stage g O i ((.enter 0, i) :: (v ++ [(.leave 0, k)])) q k

/-- an edge takes a path on, and one that consumes a symbol does not lead away from the start -/
theorem Stage.edge {j : Nat} {e : Edge} (hO : g.Wraps O) (h : Stage g O i u q j)
    (mem : e ∈ g.edges q) (hjk : e.isEpsilon = true → j = k) :
    Stage g O i (u ++ e.events k) e.target k := by
  have hturn := hO.tracks q e mem
  cases h with
  | before =>
    obtain ⟨heps, haction⟩ := hO.opening e mem
    obtain rfl := hjk heps
    rw [haction] at hturn
    rw [Edge.events, haction]
    exact .inside (v := []) (fun x hx => absurd hx List.not_mem_nil)
      (hturn.2 ▸ Set.mem_insert 0 _)
  | inside avoids hmem =>
    rw [Edge.events, List.cons_append]
    cases haction : e.action with
    | none =>
      rw [haction] at hturn
      have hsame : O e.target = O q := hturn
      exact .inside ((List.append_nil _).symm ▸ avoids) (hsame ▸ hmem)
    | some a =>
      rw [haction] at hturn
      cases a with
      | enter n =>
        refine .inside (avoids.concat fun hn => hturn.1 ?_)
          (hturn.2 ▸ Set.mem_insert_of_mem n hmem)
        have hn : n = 0 := hn
        exact hn ▸ hmem
      | leave n =>
        by_cases hn : n = 0
        · subst hn
          exact .behind avoids (hO.closing q e mem haction)
        · refine .inside (avoids.concat hn) ?_
          rw [hturn.2] at hmem
          exact hmem.resolve_left (Ne.symm hn)
  | behind avoids hnone => exact absurd (hnone ▸ mem) List.not_mem_nil

theorem Traces.stage (hO : g.Wraps O) (h : g.Traces t g.start i u q k) : Stage g O i u q k := by
  induction h with
  | here => exact .before
  | slide before mem eps ih => exact ih.edge hO mem fun _ => rfl
  | read before mem holds acc ih =>
    refine ih.edge hO mem fun heps => ?_
    rw [accepts_of_isEpsilon heps] at acc
    exact absurd acc Bool.false_ne_true

theorem Wraps.shape (hO : g.Wraps O) (h : g.Traces t g.start i u q k)
    (hacc : g.isAccepting q = true) :
    ∃ v, u = (.enter 0, i) :: (v ++ [(.leave 0, k)]) ∧ Avoids 0 v := by
  obtain ⟨hne, hnone⟩ := hO.accepting q hacc
  cases h.stage hO with
  | before => exact absurd rfl hne
  | inside avoids mem => exact absurd (hnone ▸ mem) (Set.notMem_empty 0)
  | behind avoids none => exact ⟨_, rfl, avoids⟩

theorem Wraps.opens (hO : g.Wraps O) (h : g.Traces t g.start i u q k)
    (hacc : g.isAccepting q = true) : Opens ∅ u ∅ := by
  have hopens := h.opens hO.tracks
  rwa [hO.start, (hO.accepting q hacc).2] at hopens

/-! ### under new names -/

theorem Wraps.compact (hO : g.Wraps O) (hc : g.Closed) (hs : g.start < g.size) :
    ∃ O', g.compact.Wraps O' := by
  obtain ⟨O', hO'⟩ := exists_placed g O g.start
  have hpos := Nat.zero_lt_of_lt hs
  have hstart : g.compact.start = g.placeOf g.start g.start := by
    rw [start_compact, placeOf_root hs]
  have hroot := start_mem_reachable hs
  refine ⟨O', ⟨hO.obeys.compact hc hs hO', ?_, fun e he => ?_, fun q e he haction => ?_,
    fun q hq => ?_⟩⟩
  · rw [hstart, hO' _ hroot]
    exact hO.start
  · rw [hstart, edges_compact hc hs hroot] at he
    obtain ⟨d, hd, rfl⟩ := List.mem_map.1 he
    exact hO.opening d hd
  · obtain ⟨p, hp, rfl, d, hd, ht, rfl⟩ := exists_edge_compact hc hs he
    rw [Edge.target_withTarget, edges_compact hc hs ht, hO.closing p d hd haction]
    rfl
  · obtain ⟨p, hp, rfl⟩ := exists_placeOf hpos (lt_size_of_isAccepting hq)
    rw [isAccepting_compact hpos hp] at hq
    obtain ⟨hne, hnone⟩ := hO.accepting p hq
    rw [hstart, hO' p hp]
    exact ⟨fun heq => hne (placeOf_injective hp hroot heq), hnone⟩

theorem Wraps.pruned (hO : g.Wraps O) (hc : g.Closed) : g.pruned.Wraps O where
  tracks := hO.obeys.pruned hc
  start := hO.start
  opening := fun e he => hO.opening e ((mem_edges_pruned hc).1 he).1
  closing := fun p e he haction => by
    rw [edges_pruned, hO.closing p e ((mem_edges_pruned hc).1 he).1 haction]
    rfl
  accepting := fun p hp => hO.accepting p (isAccepting_pruned p ▸ hp)

theorem Wraps.eq_start (hO : g.Wraps O) (h : ReflTransGen g.JoinsPlainly g.start q) :
    q = g.start := by
  rcases h.cases_head with rfl | ⟨r, ⟨e, he, hplain, -⟩, -⟩
  · rfl
  · rw [Edge.isPlain, (hO.opening e he).2, Option.isNone_some, Bool.and_false] at hplain
    exact absurd hplain Bool.false_ne_true

theorem Wraps.contracted (hO : g.Wraps O) (hc : g.Closed) : g.contracted.Wraps O where
  tracks := hO.obeys.contracted hc
  start := hO.start
  opening := fun e he => by
    obtain ⟨q, hpq, he, -⟩ := (mem_edges_contracted hc).1 he
    rw [hO.eq_start hpq] at he
    exact hO.opening e he
  closing := fun p e he haction => by
    obtain ⟨q, -, he, -⟩ := (mem_edges_contracted hc).1 he
    have hnone := hO.closing q e he haction
    refine List.eq_nil_iff_forall_not_mem.2 fun d hd => ?_
    obtain ⟨r, hr, hd, -⟩ := (mem_edges_contracted hc).1 hd
    rcases hr.cases_head with rfl | ⟨s, ⟨f, hf, -⟩, -⟩
    · exact absurd (hnone ▸ hd) List.not_mem_nil
    · exact absurd (hnone ▸ hf) List.not_mem_nil
  accepting := fun p hp => by
    obtain ⟨q, hpq, hq⟩ := (isAccepting_contracted hc).1 hp
    obtain ⟨hne, hnone⟩ := hO.accepting q hq
    refine ⟨fun heq => hne (hO.eq_start (heq ▸ hpq)), ?_⟩
    rw [← hO.obeys.plainly hpq]
    exact hnone

theorem Wraps.contract (hO : g.Wraps O) (hc : g.Closed) (hs : g.start < g.size) :
    ∃ O', g.contract.Wraps O' :=
  ((hO.contracted hc).pruned (closed_contracted hc)).compact
    (closed_pruned (closed_contracted hc)) (start_lt_size_pruned (start_lt_size_contracted hs))

end Graph

namespace Fragment

variable {g : Graph} {a : Fragment} {w : Chart (turning N)} {p s : Nat} {d into out : Edge}

theorem mem_edges_join (hs : s < g.size) (hexit : ∀ x, a.exit = some x → x < g.size) :
    d ∈ (join g s into a out).edges p ↔
      d ∈ g.edges p ∨ p = s ∧ d = into ∨ a.exit = some p ∧ d = out := by
  unfold join
  split
  · next hx =>
    rw [mem_edges_addEdge hs, hx]
    refine or_congr_right (or_iff_left fun h => ?_).symm
    exact absurd h.1.symm (Option.some_ne_none p)
  · next x hx =>
    rw [mem_edges_addEdge (by rw [size_addEdge]; exact hexit x hx), mem_edges_addEdge hs, hx,
      Option.some_inj, or_assoc, eq_comm (a := p) (b := x)]

theorem isAccepting_join (p : Nat) : (join g s into a out).isAccepting p = g.isAccepting p := by
  unfold join
  split
  · rw [isAccepting_addEdge]
  · rw [isAccepting_addEdge, isAccepting_addEdge]

theorem group_eq (a : Fragment) (n : Nat) (g : Graph) : a.group n g =
    (⟨g.size, a.exit.map fun _ => second g⟩, join (twoStates g) g.size
      (Edge.firing (.enter n) a.entry) a (Edge.firing (.leave n) (second g))) := by
  cases hx : a.exit with
  | none =>
    simp only [group, join, hx]
    rfl
  | some x =>
    simp only [group, join, hx]
    rfl

/-- group `0` around a part, from its start to its end -/
def enclosed (a : Fragment) (g : Graph) : Graph := sealed (a.group 0 g).1 (a.group 0 g).2

theorem start_enclosed (a : Fragment) (g : Graph) : (enclosed a g).start = g.size := by
  rw [enclosed, start_sealed, group_eq]

theorem mem_edges_enclosed (hexit : ∀ x, a.exit = some x → x < g.size) :
    d ∈ (enclosed a g).edges p ↔ d ∈ g.edges p ∨
      p = g.size ∧ d = Edge.firing (.enter 0) a.entry ∨
        a.exit = some p ∧ d = Edge.firing (.leave 0) (second g) := by
  have hlt : g.size < (twoStates g).size := (endpoints_twoStates g).left
  rw [enclosed, edges_sealed, group_eq,
    mem_edges_join hlt fun x hx => Nat.lt_trans (hexit x hx) hlt, edges_twoStates]

theorem edges_second_enclosed (hexit : ∀ x, a.exit = some x → x < g.size) :
    (enclosed a g).edges (second g) = [] := by
  have hsecond := second_eq g
  refine List.eq_nil_iff_forall_not_mem.2 fun d hd => ?_
  rcases (mem_edges_enclosed hexit).1 hd with hd | ⟨heq, -⟩ | ⟨hx, -⟩
  · have hlt := lt_size_of_mem_edges hd
    omega
  · omega
  · have hlt := hexit _ hx
    omega

theorem isAccepting_enclosed (hp : (enclosed a g).isAccepting p = true) :
    p = second g ∨ g.isAccepting p = true := by
  have hsize : second g < (a.group 0 g).2.size := by
    rw [group_eq]
    unfold join
    split <;> simp only [size_addEdge] <;> exact (endpoints_twoStates g).right
  have hout (x : Nat) (hx : (a.group 0 g).1.exit = some x) : x = second g := by
    rw [group_eq] at hx
    obtain ⟨y, -, rfl⟩ := Option.map_eq_some_iff.1 hx
    rfl
  rw [enclosed, isAccepting_sealed fun x hx => hout x hx ▸ hsize] at hp
  refine hp.imp (hout p) fun hp => ?_
  rwa [group_eq, isAccepting_join, (grows_twoStates ∅ g).accepting] at hp

/-- the groups open in a part that group `0` is put around: none is open in the new states -/
def openIn (w : Chart (turning N)) (p : Nat) : Set Nat :=
  if p < w.graph.size then w.marks p else ∅

theorem openIn_of_lt (hp : p < w.graph.size) : openIn w p = w.marks p := if_pos hp

theorem openIn_of_size_le (hp : w.graph.size ≤ p) : openIn w p = ∅ :=
  if_neg (Nat.not_lt_of_le hp)

theorem marks_of_exit {A B : Set Nat} (ha : a.Spans w A B) {x : Nat} (hx : a.exit = some x) :
    w.marks x = B := by
  obtain ⟨C, hC, hCB⟩ := ha.exit x hx
  rw [hC.2, (turning_none N .epsilon C B).1 hCB]

theorem tracks_enclosed (ha : a.Level w {0}) : (enclosed a w.graph).Tracks (openIn w) := by
  have hexit (x : Nat) (hx : a.exit = some x) : x < w.graph.size := ha.lt_of_exit hx
  intro p e he
  rcases (mem_edges_enclosed hexit).1 he with he | ⟨rfl, rfl⟩ | ⟨hx, rfl⟩
  · rw [openIn_of_lt (lt_size_of_mem_edges he), openIn_of_lt (w.closed p e he)]
    exact w.tracks p e he
  · show Turns (some (.enter 0)) _ (openIn w a.entry)
    rw [openIn_of_size_le (Nat.le_refl _), openIn_of_lt ha.entry.1, ha.entry.2]
    exact ⟨Set.notMem_empty 0, (insert_empty_eq 0).symm⟩
  · have hsecond : w.graph.size ≤ second w.graph := by
      rw [second_eq]
      exact Nat.le_succ _
    show Turns (some (.leave 0)) _ (openIn w (second w.graph))
    rw [openIn_of_lt (hexit p hx), marks_of_exit ha hx,
      openIn_of_size_le hsecond]
    exact ⟨Set.notMem_empty 0, (insert_empty_eq 0).symm⟩

/-- group `0` around a part that has no group `0` of its own -/
theorem wraps_enclosed (hN : 0 ∉ N) (ha : a.Level w {0})
    (hnone : ∀ p, w.graph.isAccepting p = false) : (enclosed a w.graph).Wraps (openIn w) where
  tracks := tracks_enclosed ha
  start := by
    rw [start_enclosed]
    exact openIn_of_size_le (Nat.le_refl _)
  opening := fun e he => by
    rw [start_enclosed] at he
    rcases (mem_edges_enclosed fun x hx => ha.lt_of_exit hx).1 he with he | ⟨-, rfl⟩ | ⟨hx, -⟩
    · exact absurd (lt_size_of_mem_edges he) (Nat.lt_irrefl _)
    · exact ⟨rfl, rfl⟩
    · exact absurd (ha.lt_of_exit hx) (Nat.lt_irrefl _)
  closing := fun p e he haction => by
    have hexit (x : Nat) (hx : a.exit = some x) : x < w.graph.size := ha.lt_of_exit hx
    rcases (mem_edges_enclosed hexit).1 he with he | ⟨-, rfl⟩ | ⟨-, rfl⟩
    · exact absurd (w.named he haction) hN
    · exact absurd haction (by simp [Edge.firing])
    · exact edges_second_enclosed hexit
  accepting := fun p hp => by
    rcases isAccepting_enclosed hp with rfl | hp
    · rw [start_enclosed, second_eq]
      exact ⟨Nat.succ_ne_self _, openIn_of_size_le (Nat.le_succ _)⟩
    · rw [hnone] at hp
      exact absurd hp Bool.false_ne_true

end Fragment

namespace Expr

open Fragment

/-- the graph that recovers capture groups has the words of its expression, with group `0`
around all of them -/
theorem exists_wraps (α : Alphabet) {e : Expr} (hv : e.Valid) (ho : e.InOrder)
    (hnone : e.assertion? = none) (hgroups : e.groups.Nodup) (hpos : ∀ n ∈ e.groups, 1 ≤ n) :
    ∃ tr, e.tracer α = .ok tr ∧ tr.graph.Closed ∧ tr.graph.start < tr.graph.size ∧
      tr.graph.words = e.words α ∧ ∃ O, tr.graph.Wraps O := by
  obtain ⟨⟨a, g⟩, hr, hmakes, -⟩ :=
    compiles_expr { alphabet := α } e hv ho hnone Graph.empty closed_empty
  -- the names of its own groups do not have 0 among them
  have hzero : 0 ∉ {n | n ∈ e.groups} := fun h => Nat.lt_irrefl 0 (hpos 0 h)
  have hfree : Free {n | n ∈ e.groups} {0} e.groups :=
    ⟨fun n hn => hn, fun n hn heq => hzero (Set.mem_singleton_iff.1 heq ▸ hn), hgroups⟩
  obtain ⟨w, b, -, hr', hb⟩ := charts_compile (suits_turning _ α).suits
    (Chart.empty (turning {n | n ∈ e.groups}) ∅) {0} {0} e ⟨rfl, hnone, hfree⟩
  obtain ⟨rfl, rfl⟩ := Prod.mk.inj (Except.ok.inj (hr.symm.trans hr'))
  have hgroup := makes_group hmakes.lives 0
  have hclosed := hgroup.closed (hmakes.closed closed_empty)
  have hO := wraps_enclosed hzero hb fun p => by
    rw [hmakes.grows.accepting, isAccepting, state_empty]
  have hstart := start_lt_size_finish hgroup.lives
  have hc := closed_finish hclosed hgroup.lives
  have hrun : (e.compile { alphabet := α }).run Graph.empty = .ok (a, w.graph) := hr
  refine ⟨⟨((a.group 0 w.graph).1.finish (a.group 0 w.graph).2).contract⟩, ?_,
    closed_contract hc hstart, start_lt_size_contract hstart, ?_, ?_⟩
  · simp only [tracer, construct, StateT.run_bind, hrun]
    rfl
  · show Graph.words (Graph.contract _) = _
    rw [words_contract hc hstart, words_finish hclosed hgroup.lives, hgroup.words, hmakes.words]
  · obtain ⟨O', hO'⟩ := hO.compact (closed_sealed hclosed) (start_lt_size_sealed hgroup.lives)
    exact hO'.contract hc hstart

end Expr
end SpanSearch
