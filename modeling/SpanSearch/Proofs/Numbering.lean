import SpanSearch.Proofs.Firsts
import SpanSearch.Proofs.Performing
import SpanSearch.Proofs.Touring

/-!
# The numbers of compacted states

A breadth first search lists the states that edges lead to, each where an edge of the states
listed before leads to it first.  There is one such list, and in it no state is nearer to the root
than those before it.  A compacted graph has its states in this order, so that it is numbered
already when it is compacted again.

* `Graph.FoundFrom`        the states in the order in which a search finds them
* `foundFrom_reachable`    a tour lists them in this order; `FoundFrom.eq`: there is only one
* `Graph.Near`, `FoundFrom.pairwise_near`   nearer states come first
* `Graph.Renumbers`        a graph has the states of another one, numbered in some order
* `renumbers_compact`, `compact_compact`, `trim_trim`
* `Graph.trims_and_compacts`   what trimming and compacting keep, leave out and number
-/

namespace SpanSearch

open Relation

/-! ## tours -/

namespace Tour

variable {size : Nat} {t : Tour} {next : Nat → List Nat} {l ids roots : List Nat}

theorem order_discover (ht : t.Consistent size) (hl : t.order.toList = firsts l) {x : Nat}
    (hx : x < size) : (t.discover x).order.toList = firsts (l ++ [x]) := by
  have hmem : t.seen.getD x true = true ↔ x ∈ l := by
    rw [ht.seen x hx, ← Array.mem_toList_iff, hl, mem_firsts]
  rw [firsts_concat]
  split
  · next hin => rw [discover_of_seen (hmem.2 hin), hl]
  · next hout =>
    have hseen : t.seen.getD x true = false := Bool.eq_false_iff.2 (mt hmem.1 hout)
    rw [order_discover_of_not_seen hseen, Array.toList_push, hl]

theorem order_discoverAll (ht : t.Consistent size) (hl : t.order.toList = firsts l)
    (hids : ∀ x ∈ ids, x < size) : (t.discoverAll ids).order.toList = firsts (l ++ ids) := by
  induction ids generalizing t l with
  | nil => rw [List.append_nil, discoverAll_nil, hl]
  | cons x ids ih =>
    have hfound := order_discover ht hl (hids x List.mem_cons_self)
    rw [discoverAll_cons, ih (ht.discover x) hfound fun y hy => hids y (List.mem_cons_of_mem x hy),
      List.append_assoc]
    rfl

/-- in all rounds the numbers are listed as the relation leads to them -/
theorem order_run (hnext : ∀ p, ∀ x ∈ next p, x < size) (ht : t.Consistent size) {rounds i : Nat}
    (hrounds : size ≤ rounds + i)
    (hl : t.order.toList = firsts (roots ++ (t.order.toList.take i).flatMap next)) :
    (run next rounds i t).order.toList =
      firsts (roots ++ (run next rounds i t).order.toList.flatMap next) := by
  have hall {t : Tour} {i : Nat} (hi : t.order.size ≤ i)
      (hl : t.order.toList = firsts (roots ++ (t.order.toList.take i).flatMap next)) :
      t.order.toList = firsts (roots ++ t.order.toList.flatMap next) := by
    rwa [List.take_of_length_le (by rwa [Array.length_toList])] at hl
  induction rounds generalizing i t with
  | zero => exact hall (Nat.le_trans ht.size_order_le (by omega)) hl
  | succ rounds ih =>
    rw [run]
    split
    · next hnone => exact hall (Array.getElem?_eq_none_iff.1 hnone) hl
    · next q hq =>
      refine ih (ht.discoverAll _) (by omega) ?_
      rw [take_discoverAll hq, List.flatMap_append, List.flatMap_singleton, ← List.append_assoc]
      exact order_discoverAll ht hl (hnext q)

end Tour

namespace Graph

variable {g h h' : Graph} {root p q n : Nat} {l m order : List Nat}

/-! ## the order of a search -/

/-- the states that edges lead to from a root, each where an edge of the states before it leads to
it first -/
structure FoundFrom (g : Graph) (root : Nat) (order : List Nat) : Prop where
  mem : ∀ p, p ∈ order ↔ ReflTransGen g.Joins root p
  found : order = firsts (root :: order.flatMap g.targets)

theorem foundFrom_reachable (hc : g.Closed) (hroot : root < g.size) :
    g.FoundFrom root (g.reachable root).toList where
  mem p := by rw [Array.mem_toList_iff, mem_reachable hc hroot]
  found := by
    have hnext : ∀ p, ∀ x ∈ g.targets p, x < g.size := fun p x hx =>
      (mem_targets.1 hx).lt_size hc
    have hempty := Tour.consistent_empty g.size
    have hfirst : ((Tour.empty g.size).discoverAll [root]).order.toList = firsts [root] := by
      refine Tour.order_discoverAll (l := []) hempty rfl fun x hx => ?_
      rwa [List.mem_singleton.1 hx]
    show (Tour.run g.targets g.size 0 _).order.toList = firsts ([root] ++ _)
    apply Tour.order_run hnext (hempty.discoverAll [root]) (Nat.le_refl g.size)
    rw [List.take_zero, List.flatMap_nil, List.append_nil]
    exact hfirst

namespace FoundFrom

theorem nodup (h : g.FoundFrom root l) : l.Nodup := by
  rw [h.found]
  exact nodup_firsts _

theorem firsts_prefix (h : g.FoundFrom root l) (n : Nat) :
    firsts (root :: (l.take n).flatMap g.targets) <+: l := by
  have hl := h.found
  rw [← List.take_append_drop n l, List.flatMap_append, ← List.cons_append, firsts_append,
    List.take_append_drop] at hl
  exact ⟨_, hl.symm⟩

/-- the first states lead to the next one: otherwise no other state could be reached -/
theorem lt_length_firsts (h : g.FoundFrom root l) (hn : n < l.length) :
    n < (firsts (root :: (l.take n).flatMap g.targets)).length := by
  have hprefix := h.firsts_prefix n
  generalize hk : firsts (root :: (l.take n).flatMap g.targets) = k at hprefix
  have hmem (x : Nat) : x ∈ k ↔ x = root ∨ ∃ p ∈ l.take n, g.Joins p x := by
    rw [← hk, mem_firsts, List.mem_cons, List.mem_flatMap]
    simp only [mem_targets]
  by_contra hle
  have hsub : k ⊆ l.take n := by
    rw [List.prefix_iff_eq_take.1 hprefix]
    exact List.take_subset_take_left l (Nat.le_of_not_lt hle)
  have hclosed : ∀ p, p ∈ k → ∀ e ∈ g.edges p, e.target ∈ k := fun p hp e he =>
    (hmem _).2 (.inr ⟨p, hsub hp, e, he, rfl⟩)
  have hall : l ⊆ k := fun x hx =>
    mem_of_reaches (S := (· ∈ k)) hclosed ((h.mem x).1 hx) ((hmem root).2 (.inl rfl))
  have hlength := (List.subperm_of_subset h.nodup hall).length_le
  omega

/-- there is one order in which the states are found -/
theorem eq (h : g.FoundFrom root l) (h' : g.FoundFrom root m) : l = m := by
  have hperm : l.Perm m := (List.perm_ext_iff_of_nodup h.nodup h'.nodup).2 fun x => by
    rw [h.mem, h'.mem]
  have hnext {l : List Nat} (h : g.FoundFrom root l) {n : Nat} (hn : n < l.length) :
      l[n]? = (firsts (root :: (l.take n).flatMap g.targets))[n]? := by
    obtain ⟨k, hk⟩ := h.firsts_prefix n
    conv_lhs => rw [← hk]
    exact List.getElem?_append_left (h.lt_length_firsts hn)
  have htake (n : Nat) : l.take n = m.take n := by
    induction n with
    | zero => rfl
    | succ n ih =>
      rw [List.take_add_one, List.take_add_one, ih]
      congr 2
      rcases Nat.lt_or_ge n l.length with hn | hn
      · rw [hnext h hn, hnext h' (hperm.length_eq ▸ hn), ih]
      · rw [List.getElem?_eq_none hn, List.getElem?_eq_none (hperm.length_eq ▸ hn)]
  have hl := htake l.length
  rwa [List.take_length, hperm.length_eq, List.take_length] at hl

end FoundFrom

/-- a path of at most so many edges leads from one state to another -/
inductive Near (g : Graph) (p : Nat) : Nat → Nat → Prop where
  | here (n : Nat) : Near g p n p
  | step {n q r : Nat} (before : Near g p n q) (joins : g.Joins q r) : Near g p (n + 1) r

theorem Near.reaches (h : g.Near p n q) : ReflTransGen g.Joins p q := by
  induction h with
  | here => exact .refl
  | step _ joins ih => exact ih.tail joins

/-- a state that comes before another one is led to by the same state or by one before it -/
theorem FoundFrom.exists_joins (h : g.FoundFrom root l) {i j k : Nat} (hij : i < j)
    (hp : l[i]? = some p) (hq : l[j]? = some q) {r : Nat} (hr : l[k]? = some r)
    (hjoins : g.Joins r q) :
    p = root ∨ ∃ k' r', k' ≤ k ∧ l[k']? = some r' ∧ g.Joins r' p := by
  obtain ⟨rest, hrest⟩ := h.firsts_prefix (k + 1)
  have hmem (x : Nat) : x ∈ firsts (root :: (l.take (k + 1)).flatMap g.targets) ↔
      x = root ∨ ∃ p ∈ l.take (k + 1), g.Joins p x := by
    rw [mem_firsts, List.mem_cons, List.mem_flatMap]
    simp only [mem_targets]
  generalize firsts (root :: (l.take (k + 1)).flatMap g.targets) = front at hrest hmem
  have hrk : r ∈ l.take (k + 1) :=
    List.mem_of_getElem? (i := k) (by rwa [List.getElem?_take_of_lt (Nat.lt_succ_self k)])
  have hqfront : q ∈ front := (hmem q).2 (.inr ⟨r, hrk, hjoins⟩)
  obtain ⟨j', hj', hj'q⟩ := List.getElem_of_mem hqfront
  have hlj' : l[j']? = some q := by
    rw [← hrest, List.getElem?_append_left hj', List.getElem?_eq_getElem hj', hj'q]
  have hjj' : j = j' := by
    have hlt := (List.getElem?_eq_some_iff.1 hq).1
    exact (List.getElem?_inj hlt h.nodup).1 (hq.trans hlj'.symm)
  have hpfront : p ∈ front := by
    refine List.mem_of_getElem? (i := i) ?_
    rwa [← hrest, List.getElem?_append_left (by omega)] at hp
  rcases (hmem p).1 hpfront with hroot | ⟨r', hr', hjoins'⟩
  · exact .inl hroot
  · obtain ⟨k', hk', hget⟩ := List.getElem_of_mem hr'
    rw [List.length_take] at hk'
    rw [List.getElem_take] at hget
    exact .inr ⟨k', r', by omega, List.getElem?_eq_some_iff.2 ⟨by omega, hget⟩, hjoins'⟩

/-- no state is nearer to the root than those before it -/
theorem FoundFrom.pairwise_near (h : g.FoundFrom root l) :
    l.Pairwise fun p q => ∀ n, g.Near root n q → g.Near root n p := by
  have hfirst : l[0]? = some root := by
    obtain ⟨rest, hrest⟩ := h.firsts_prefix 0
    rw [← hrest]
    rfl
  have hnear (n : Nat) : ∀ i j p q : Nat, i < j → l[i]? = some p → l[j]? = some q →
      g.Near root n q → g.Near root n p := by
    induction n with
    | zero =>
      intro i j p q hij hp hq hnear
      cases hnear
      have hlt := (List.getElem?_eq_some_iff.1 hfirst).1
      have hzero := (List.getElem?_inj hlt h.nodup).1 (hfirst.trans hq.symm)
      omega
    | succ n ih =>
      intro i j p q hij hp hq hnear
      cases hnear with
      | here =>
        have hlt := (List.getElem?_eq_some_iff.1 hfirst).1
        have hzero := (List.getElem?_inj hlt h.nodup).1 (hfirst.trans hq.symm)
        omega
      | @step _ r _ before joins =>
        obtain ⟨k, hk, rfl⟩ := List.getElem_of_mem ((h.mem r).2 before.reaches)
        have hr := List.getElem?_eq_getElem hk
        rcases h.exists_joins hij hp hq hr joins with rfl | ⟨k', r', hle, hr', hjoins'⟩
        · exact .here _
        · rcases Nat.eq_or_lt_of_le hle with rfl | hlt
          · obtain rfl := Option.some.inj (hr.symm.trans hr')
            exact .step before hjoins'
          · exact .step (ih k' k r' _ hlt hr' hr before) hjoins'
  rw [List.pairwise_iff_getElem]
  intro i j hi hj hij n
  exact hnear n i j _ _ hij (List.getElem?_eq_getElem hi) (List.getElem?_eq_getElem hj)

/-! ## new numbers -/

/-- the states of a graph in some order are those of another one, with the same flags and the same
edges in the same order, led to the new numbers of their targets -/
structure Renumbers (g h : Graph) (order : List Nat) : Prop where
  start : h.start = 0
  size : h.size = order.length
  state : ∀ i p, order[i]? = some p → h.state i =
    { accepting := g.isAccepting p, silent := g.isSilent p,
      edges := (g.edges p).map fun e => e.withTarget (order.idxOf e.target) }

theorem ext_state (hsize : g.size = h.size) (hstart : g.start = h.start)
    (hstate : ∀ i < g.size, g.state i = h.state i) : g = h := by
  obtain ⟨a, s⟩ := g
  obtain ⟨b, t⟩ := h
  obtain rfl : s = t := hstart
  congr 1
  apply Array.ext hsize
  intro i hi hi'
  have h := hstate i hi
  simp only [state, Array.getD_eq_getD_getElem?] at h
  rwa [Array.getElem?_eq_getElem hi, Array.getElem?_eq_getElem hi'] at h

theorem Renumbers.eq (hh : g.Renumbers h order) (hh' : g.Renumbers h' order) : h = h' := by
  refine ext_state (hh.size.trans hh'.size.symm) (hh.start.trans hh'.start.symm) fun i hi => ?_
  rw [hh.size] at hi
  have hp := List.getElem?_eq_getElem hi
  rw [hh.state i _ hp, hh'.state i _ hp]

theorem renumbers_compact (hc : g.Closed) (hs : g.start < g.size) :
    g.Renumbers g.compact (g.reachable g.start).toList where
  start := start_compact g
  size := size_compact (Nat.zero_lt_of_lt hs)
  state i p hp := by
    rw [Array.getElem?_toList] at hp
    have hmem := Array.mem_of_getElem? hp
    rw [← placeOf_getElem hp, state_compact (Nat.zero_lt_of_lt hs) hmem]
    have hedges := edges_renumber hc hs 0 hmem
    simp only [Nat.zero_add] at hedges
    exact congrArg (State.mk _ _) hedges

/-- a graph whose states are numbered in their order is renumbered as it is -/
theorem renumbers_self (hc : g.Closed) (hs : g.start = 0) :
    g.Renumbers g (List.range g.size) where
  start := hs
  size := List.length_range.symm
  state i p hp := by
    obtain ⟨hi, rfl⟩ := List.getElem?_eq_some_iff.1 hp
    rw [List.getElem_range]
    have hedges : ((g.edges i).map fun e =>
        e.withTarget ((List.range g.size).idxOf e.target)) = g.edges i := by
      refine (List.map_congr_left fun e he => ?_).trans (List.map_id _)
      have ht : e.target < (List.range g.size).length := by
        rw [List.length_range]
        exact hc i e he
      have hidx := List.nodup_range.idxOf_getElem e.target ht
      rw [List.getElem_range] at hidx
      rw [hidx]
      rfl
    rw [hedges]
    rfl

/-- the states of a compacted graph are found in the order of their numbers -/
theorem foundFrom_compact (hc : g.Closed) (hs : g.start < g.size) :
    g.compact.FoundFrom g.compact.start (List.range g.compact.size) where
  mem q := by
    rw [List.mem_range]
    refine ⟨reaches_compact hc hs, fun hq => ?_⟩
    refine mem_of_reaches (S := (· < g.compact.size)) (fun p _ e he => ?_) hq
      (start_lt_size_compact hs)
    exact closed_compact hc hs p e he
  found := by
    have hfound := foundFrom_reachable hc hs
    have hplaces : (g.reachable g.start).toList.map (g.placeOf g.start) =
        List.range g.compact.size := by
      refine List.ext_getElem ?_ fun i hi hi' => ?_
      · rw [List.length_map, List.length_range, size_compact (Nat.zero_lt_of_lt hs),
          Array.length_toList]
      · rw [List.getElem_map, List.getElem_range, Array.getElem_toList]
        exact placeOf_getElem (Array.getElem?_eq_getElem _)
    have htargets : ∀ p ∈ (g.reachable g.start).toList,
        g.compact.targets (g.placeOf g.start p) = (g.targets p).map (g.placeOf g.start) := by
      intro p hp
      rw [targets, edges_compact hc hs (Array.mem_toList_iff.1 hp), targets, List.map_map,
        List.map_map]
      rfl
    have hmem : ∀ p ∈ g.start :: (g.reachable g.start).toList.flatMap g.targets,
        p ∈ g.reachable g.start := by
      intro p hp
      rw [← mem_firsts, ← hfound.found] at hp
      exact Array.mem_toList_iff.1 hp
    calc List.range g.compact.size
        = (firsts (g.start :: (g.reachable g.start).toList.flatMap g.targets)).map
            (g.placeOf g.start) := by rw [← hfound.found, hplaces]
      _ = firsts ((g.start :: (g.reachable g.start).toList.flatMap g.targets).map
            (g.placeOf g.start)) :=
          (firsts_map _ _ fun p hp q hq => placeOf_injective (hmem p hp) (hmem q hq)).symm
      _ = firsts (g.compact.start :: (List.range g.compact.size).flatMap g.compact.targets) := by
          rw [List.map_cons, placeOf_root hs, start_compact, List.map_flatMap, ← hplaces,
            List.flatMap_map]
          congr 2
          exact List.flatMap_congr fun p hp => (htargets p hp).symm

/-- a compacted graph stays as it is when it is compacted again -/
theorem compact_compact (hc : g.Closed) (hs : g.start < g.size) :
    g.compact.compact = g.compact := by
  have hclosed := closed_compact hc hs
  have hstart := start_lt_size_compact hs
  have horder := (foundFrom_reachable hclosed hstart).eq (foundFrom_compact hc hs)
  have hagain := renumbers_compact hclosed hstart
  rw [horder] at hagain
  exact hagain.eq (renumbers_self hclosed (start_compact g))

/-! ## trimmed graphs -/

theorem pruned_eq_self (hc : g.Closed) (hlive : ∀ p, ∀ e ∈ g.edges p, g.Live e.target) :
    g.pruned = g := by
  refine ext_state (size_pruned g) rfl fun i hi => ?_
  rw [size_pruned] at hi
  have hedges : ((g.edges i).filter fun e => g.live.getD e.target false) = g.edges i :=
    List.filter_eq_self.2 fun e he => (live_iff hc).2 (hlive i e he)
  rw [pruned, state_mapStates _ hi]
  exact congrArg (State.mk (g.isAccepting i) (g.isSilent i)) hedges

/-- a trimmed graph stays as it is when it is trimmed again -/
theorem trim_trim (hc : g.Closed) (hs : g.start < g.size) : g.trim.trim = g.trim := by
  rw [trim_eq g.trim, pruned_eq_self (closed_trim hc hs) fun p e he => live_trim hc hs he, trim_eq,
    compact_compact (closed_pruned hc) (start_lt_size_pruned hs)]

/-- every state of a trimmed graph but the start can reach acceptance -/
theorem live_of_lt_size_trim (hc : g.Closed) (hs : g.start < g.size) (hq : q < g.trim.size)
    (hne : q ≠ g.trim.start) : g.trim.Live q := by
  rcases ReflTransGen.cases_tail (reaches_trim hc hs hq) with heq | ⟨p, -, e, he, rfl⟩
  · exact absurd heq hne
  · exact live_trim hc hs he

/-- On the accepting paths of a trimmed graph the same symbols are consumed and the same actions
are fired as before; its start is `0`, all of its states are reached from there, and all but the
start can reach acceptance.  On the accepting paths of a compacted graph the same happens too; its
states are those that the start reaches, numbered in breadth first order.  When the result of
either is trimmed or compacted again it stays as it is. -/
theorem trims_and_compacts (hc : g.Closed) (hs : g.start < g.size) :
    (g.trim.performances = g.performances ∧ g.trim.Closed ∧ g.trim.start = 0 ∧
      0 < g.trim.size ∧
      (∀ q < g.trim.size, ReflTransGen g.trim.Joins 0 q ∧ (q ≠ 0 → g.trim.Live q)) ∧
      g.trim.trim = g.trim) ∧
    (g.compact.performances = g.performances ∧ g.compact.Closed ∧
      (∃ order, g.FoundFrom g.start order ∧
        (order.Pairwise fun p q => ∀ n, g.Near g.start n q → g.Near g.start n p) ∧
        g.Renumbers g.compact order) ∧
      g.compact.compact = g.compact) := by
  have hpositive := start_lt_size_trim hs
  rw [start_trim] at hpositive
  have hfound := foundFrom_reachable hc hs
  refine ⟨⟨performances_trim hc hs, closed_trim hc hs, start_trim g, hpositive, fun q hq => ?_,
    trim_trim hc hs⟩, performances_compact hc hs, closed_compact hc hs,
    ⟨_, hfound, hfound.pairwise_near, renumbers_compact hc hs⟩, compact_compact hc hs⟩
  have hreach := reaches_trim hc hs hq
  have hlive := live_of_lt_size_trim hc hs hq
  rw [start_trim] at hreach hlive
  exact ⟨hreach, hlive⟩

/-- a start that is not the first state, a dead loop beside the accepting one, and a state that
nothing leads to -/
theorem trims_and_compacts_loops :
    let g : Graph := ⟨#[{ accepting := true, edges := [.symbols 97 97 0] },
      { edges := [.symbols 98 98 1, .symbols 99 99 0, .firing (.enter 1) 2] },
      { edges := [.firing (.leave 1) 0, .epsilon 2, .symbols 97 98 3] },
      { edges := [.symbols 0 255 3] }, { edges := [.epsilon 1] }], 1⟩
    g.Closed ∧ g.start < g.size ∧ g.trim.performances = g.performances ∧ g.trim.trim = g.trim ∧
      g.compact.performances = g.performances ∧ g.compact.compact = g.compact := by
  intro g
  have hc : g.Closed := closed_iff.2 (by decide)
  have hs : g.start < g.size := by decide
  obtain ⟨⟨htrim, -, -, -, -, htwice⟩, hcompact, -, -, hagain⟩ := trims_and_compacts hc hs
  exact ⟨hc, hs, htrim, htwice, hcompact, hagain⟩

end Graph
end SpanSearch
