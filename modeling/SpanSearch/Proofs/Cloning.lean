import SpanSearch.Proofs.Copying
import SpanSearch.Proofs.Numbering
import SpanSearch.Proofs.Stepping

/-!
# Copying state by state

The copy of what a root reaches can be made in one walk, which adds states to the graph that it
reads: a state gets a blank copy when an edge first leads to it, and in its round the flags and the
edges of the original.  The states are met in breadth first order, so that the walk ends with the
copy that is made at once.

* `Cloning`             what the walk knows, `Cloning.round` one round of it
* `Cloning.moment`      the walk after so many rounds
* `round_moment`        one round leads from one moment to the next
* `Graph.Clones`        what the copy is, and that it and the originals have nothing in common
* `clones_copyFrom`     the copy that is made at once
* `clones_by_rounds`    the walk ends with it
-/

namespace SpanSearch

open Relation (ReflTransGen)

structure Cloning where
  graph : Graph
  /-- the copies of the states that have been met -/
  places : Array (Option Nat)
  /-- the states that have been met and whose copies are still blank -/
  queue : List Nat

namespace Cloning

/-- the copy of a state, and the walk with it: a state that is met for the first time gets one -/
def meet (c : Cloning) (id : Nat) : Nat × Cloning :=
  match c.places.getD id none with
  | some copy => (copy, c)
  | none =>
    (c.graph.size,
      ⟨c.graph.addState.2, c.places.setIfInBounds id (some c.graph.size), c.queue ++ [id]⟩)

def copyEdge (copy : Nat) (c : Cloning) (e : Edge) : Cloning :=
  let met := c.meet e.target
  { met.2 with graph := met.2.graph.addEdge copy (e.withTarget met.1) }

def begin (g : Graph) (root : Nat) : Cloning :=
  ⟨g.addState.2, (Array.replicate g.size none).setIfInBounds root (some g.size), [root]⟩

/-- the first state of the queue is copied, its flags and then its edges -/
def round (c : Cloning) : Option Cloning :=
  match c.queue with
  | [] => none
  | id :: queue =>
    (c.places.getD id none).map fun copy =>
      let s := c.graph.state id
      let flagged := c.graph.modify copy fun t =>
        { t with accepting := s.accepting, silent := s.silent }
      s.edges.foldl (copyEdge copy) { c with graph := flagged, queue := queue }

/-- one round leads from one moment to the next -/
def Next (c c' : Cloning) : Prop := c.round = some c'

end Cloning

/-! ## states behind those of a graph -/

namespace Graph

variable {g : Graph} {root p : Nat}

def followedBy (g : Graph) (new : List State) : Graph :=
  { g with states := g.states ++ new.toArray }

theorem size_followedBy (new : List State) : (g.followedBy new).size = g.size + new.length := by
  simp [followedBy, size]

theorem state_followedBy (new : List State) (hp : p < g.size) :
    (g.followedBy new).state p = g.state p := by
  simp only [followedBy, state, Array.getD_eq_getD_getElem?]
  rw [Array.getElem?_append_left hp]

theorem addState_followedBy (new : List State) :
    (g.followedBy new).addState.2 = g.followedBy (new ++ [({} : State)]) := by
  simp [followedBy, addState]

theorem modify_followedBy (a b : List State) (s : State) (f : State → State) :
    (g.followedBy (a ++ s :: b)).modify (g.size + a.length) f =
      g.followedBy (a ++ f s :: b) := by
  have hmodify (a : List State) : (a ++ s :: b).modify a.length f = a ++ f s :: b := by
    induction a with
    | nil => rfl
    | cons t a ih => exact congrArg (t :: ·) ih
  have hstates : (g.states ++ (a ++ s :: b).toArray).modify (g.size + a.length) f =
      g.states ++ (a ++ f s :: b).toArray := by
    apply Array.toList_inj.1
    rw [Array.toList_modify, Array.toList_append, Array.toList_append, ← List.append_assoc,
      ← List.append_assoc, ← hmodify, List.length_append, Array.length_toList]
    rfl
  rw [modify, followedBy, hstates, followedBy]

theorem addEdge_followedBy (a b : List State) (s : State) (e : Edge) :
    (g.followedBy (a ++ s :: b)).addEdge (g.size + a.length) e =
      g.followedBy (a ++ { s with edges := s.edges ++ [e] } :: b) := modify_followedBy a b s _

def cloneOf (g : Graph) (root p : Nat) : Nat := g.size + g.placeOf root p

/-- the copy of a state as far as some of its edges -/
def halfClone (g : Graph) (root p : Nat) (es : List Edge) : State :=
  { g.state p with edges := es.map fun e => e.withTarget (g.cloneOf root e.target) }

def clone (g : Graph) (root p : Nat) : State := g.halfClone root p (g.edges p)

theorem cloneOf_eq {l : List Nat} (hl : l <+: (g.reachable root).toList) (hp : p ∈ l) :
    g.size + l.idxOf p = g.cloneOf root p := by
  obtain ⟨rest, hrest⟩ := hl
  rw [cloneOf, placeOf, ← hrest, List.idxOf_append_of_mem hp]

theorem renumber_eq_clone (hc : g.Closed) (hroot : root < g.size) (hp : p ∈ g.reachable root) :
    (g.state p).renumber (numbering g.size g.size (g.reachable root)) = g.clone root p := by
  rw [clone, halfClone]
  simp only [cloneOf]
  rw [← edges_renumber hc hroot g.size hp]
  rfl

theorem numbering_concat (size first : Nat) (l : List Nat) (x : Nat) :
    numbering size first (l ++ [x]).toArray =
      (numbering size first l.toArray).setIfInBounds x (some (first + l.length)) := by
  simp only [numbering, List.zipIdx_append, List.foldl_append]
  rfl

end Graph

namespace Cloning

open SpanSearch.Graph

variable {g : Graph} {root id : Nat} {done queue : List Nat} {es : List Edge} {e : Edge}

/-- the walk when the states `done` have been copied and the states `queue` are still blank -/
def moment (g : Graph) (root : Nat) (done queue : List Nat) : Cloning where
  graph := g.followedBy (done.map (g.clone root) ++ queue.map fun _ => {})
  places := numbering g.size g.size (done ++ queue).toArray
  queue := queue

/-- the walk when of the next state only the edges `es` have been copied -/
def midway (g : Graph) (root : Nat) (done : List Nat) (id : Nat) (es : List Edge)
    (queue : List Nat) : Cloning where
  graph := g.followedBy (done.map (g.clone root) ++ g.halfClone root id es :: queue.map fun _ => {})
  places := numbering g.size g.size (done ++ id :: queue).toArray
  queue := queue

theorem begin_eq (g : Graph) (root : Nat) : begin g root = moment g root [] [root] := by
  have hgraph : g.addState.2 = g.followedBy [{}] := by
    simp [followedBy, addState]
  rw [begin, hgraph]
  rfl

theorem getD_places {l : List Nat} (hl : l <+: (g.reachable root).toList) {p : Nat}
    (hp : p < g.size) : (numbering g.size g.size l.toArray).getD p none =
      if p ∈ l then some (g.cloneOf root p) else none := by
  have hnodup : l.Nodup := hl.sublist.nodup (nodup_reachable root)
  rw [numbering_getD hnodup hp]
  simp only [List.mem_toArray]
  split
  · next hmem => rw [cloneOf_eq hl hmem]
  · rfl

theorem addEdge_halfClone (blanks : List State) : (g.followedBy (done.map (g.clone root) ++
    g.halfClone root id es :: blanks)).addEdge (g.size + done.length)
      (e.withTarget (g.cloneOf root e.target)) = g.followedBy (done.map (g.clone root) ++
        g.halfClone root id (es ++ [e]) :: blanks) := by
  have hlength : (done.map (g.clone root)).length = done.length := List.length_map _
  rw [← hlength, addEdge_followedBy]
  simp only [halfClone, List.map_append, List.map_singleton]

theorem copyEdge_of_mem (hmet : done ++ id :: queue <+: (g.reachable root).toList)
    (hin : e.target ∈ done ++ id :: queue) :
    copyEdge (g.size + done.length) (midway g root done id es queue) e =
      midway g root done id (es ++ [e]) queue := by
  have hlt := lt_size_of_mem_reachable (Array.mem_toList_iff.1 (hmet.subset hin))
  have hplace := getD_places hmet hlt
  rw [if_pos hin] at hplace
  simp only [copyEdge, meet, midway, hplace, addEdge_halfClone]

/-- a state that is met for the first time gets a blank copy behind all others -/
theorem copyEdge_of_notMem (hmet : done ++ id :: queue ++ [e.target] <+: (g.reachable root).toList)
    (hnot : e.target ∉ done ++ id :: queue) :
    copyEdge (g.size + done.length) (midway g root done id es queue) e =
      midway g root done id (es ++ [e]) (queue ++ [e.target]) := by
  have hmem : e.target ∈ done ++ id :: queue ++ [e.target] :=
    List.mem_append_right _ (List.mem_singleton_self _)
  have hlt := lt_size_of_mem_reachable (Array.mem_toList_iff.1 (hmet.subset hmem))
  have hplace := getD_places ((List.prefix_append _ _).trans hmet) hlt
  rw [if_neg hnot] at hplace
  have hname : g.cloneOf root e.target = g.size + (done ++ id :: queue).length := by
    rw [← cloneOf_eq hmet hmem, List.idxOf_append_of_notMem hnot, List.idxOf_cons_self,
      Nat.add_zero]
  have hsize : (g.followedBy (done.map (g.clone root) ++ g.halfClone root id es ::
      queue.map fun _ => {})).size = g.cloneOf root e.target := by
    rw [size_followedBy, hname]
    simp
  have hblank : done.map (g.clone root) ++ g.halfClone root id es :: (queue.map fun _ => {}) ++
      [({} : State)] = done.map (g.clone root) ++ g.halfClone root id es ::
        (queue ++ [e.target]).map fun _ => {} := by
    simp
  have hplaces : numbering g.size g.size (done ++ id :: (queue ++ [e.target])).toArray =
      (numbering g.size g.size (done ++ id :: queue).toArray).setIfInBounds e.target
        (some (g.cloneOf root e.target)) := by
    rw [hname, ← numbering_concat, List.append_assoc, List.cons_append]
  simp only [copyEdge, meet, midway, hplace, hsize, addState_followedBy, hblank,
    addEdge_halfClone, hplaces]

theorem copyEdge_midway (es : List Edge) (hn : (done ++ id :: queue).Nodup)
    (hmet : firsts (done ++ id :: queue ++ [e.target]) <+: (g.reachable root).toList) :
    ∃ queue', done ++ id :: queue' = firsts (done ++ id :: queue ++ [e.target]) ∧
      copyEdge (g.size + done.length) (midway g root done id es queue) e =
        midway g root done id (es ++ [e]) queue' := by
  rw [firsts_concat, firsts_of_nodup hn] at hmet ⊢
  by_cases hin : e.target ∈ done ++ id :: queue
  · rw [if_pos hin] at hmet ⊢
    exact ⟨queue, rfl, copyEdge_of_mem hmet hin⟩
  · rw [if_neg hin] at hmet ⊢
    refine ⟨queue ++ [e.target], ?_, copyEdge_of_notMem hmet hin⟩
    rw [List.append_assoc, List.cons_append]

/-- the edges of the state whose turn it is, one after another -/
theorem copyEdges_midway (es rest : List Edge) (hn : (done ++ id :: queue).Nodup)
    (hmet : firsts (done ++ id :: queue ++ rest.map Edge.target) <+:
      (g.reachable root).toList) :
    ∃ queue', done ++ id :: queue' = firsts (done ++ id :: queue ++ rest.map Edge.target) ∧
      rest.foldl (copyEdge (g.size + done.length)) (midway g root done id es queue) =
        midway g root done id (es ++ rest) queue' := by
  induction rest generalizing es queue with
  | nil =>
    rw [List.map_nil, List.append_nil, List.append_nil, firsts_of_nodup hn]
    exact ⟨queue, rfl, rfl⟩
  | cons e rest ih =>
    have hsplit : done ++ id :: queue ++ (e :: rest).map Edge.target =
        done ++ id :: queue ++ [e.target] ++ rest.map Edge.target := by
      rw [List.map_cons, List.append_assoc (done ++ id :: queue), List.singleton_append]
    rw [hsplit] at hmet ⊢
    have hfirst : firsts (done ++ id :: queue ++ [e.target]) <+: (g.reachable root).toList := by
      rw [firsts_append] at hmet
      exact (List.prefix_append _ _).trans hmet
    obtain ⟨queue₁, hqueue₁, hstep⟩ := copyEdge_midway es hn hfirst
    have hn₁ : (done ++ id :: queue₁).Nodup := by
      rw [hqueue₁]
      exact nodup_firsts _
    have hagain : firsts (done ++ id :: queue₁ ++ rest.map Edge.target) =
        firsts (done ++ id :: queue ++ [e.target] ++ rest.map Edge.target) := by
      apply firsts_append_congr _ rfl
      rw [firsts_of_nodup hn₁, hqueue₁]
    obtain ⟨queue₂, hqueue₂, hrest⟩ := ih (es ++ [e]) hn₁ (hagain ▸ hmet)
    refine ⟨queue₂, hqueue₂.trans hagain, ?_⟩
    rw [List.foldl_cons, hstep, hrest, List.append_assoc, List.singleton_append]

/-- one round copies the first state of the queue -/
theorem round_moment (hmet : firsts (done ++ id :: queue ++ g.targets id) <+:
      (g.reachable root).toList) (hn : (done ++ id :: queue).Nodup) :
    ∃ queue', done ++ [id] ++ queue' = firsts (done ++ id :: queue ++ g.targets id) ∧
      (moment g root done (id :: queue)).round = some (moment g root (done ++ [id]) queue') := by
  have hfront : done ++ id :: queue <+: (g.reachable root).toList := by
    rw [firsts_append, firsts_of_nodup hn] at hmet
    exact (List.prefix_append _ _).trans hmet
  have hid : id ∈ done ++ id :: queue := List.mem_append_right _ List.mem_cons_self
  have hlt : id < g.size := lt_size_of_mem_reachable (Array.mem_toList_iff.1 (hfront.subset hid))
  have hname : g.cloneOf root id = g.size + done.length := by
    have hnot : id ∉ done := fun h => by
      have := (List.nodup_append.1 hn).2.2 id h id List.mem_cons_self
      exact this rfl
    rw [← cloneOf_eq hfront hid, List.idxOf_append_of_notMem hnot, List.idxOf_cons_self,
      Nat.add_zero]
  have hplace := getD_places hfront hlt
  rw [if_pos hid, hname] at hplace
  obtain ⟨queue', hqueue', hedges⟩ := copyEdges_midway [] (g.edges id) hn hmet
  have hdone : done ++ [id] ++ queue' = done ++ id :: queue' := by
    rw [List.append_assoc, List.singleton_append]
  refine ⟨queue', hdone.trans hqueue', ?_⟩
  have hblank : (id :: queue).map (fun _ => ({} : State)) = {} :: queue.map fun _ => {} := rfl
  have hlength : (done.map (g.clone root)).length = done.length := List.length_map _
  have hflags : (g.followedBy (done.map (g.clone root) ++ ({} : State) ::
      queue.map fun _ => {})).modify (g.size + done.length) (fun t =>
        { t with accepting := (g.state id).accepting, silent := (g.state id).silent }) =
      (midway g root done id [] queue).graph := by
    rw [← hlength, modify_followedBy]
    rfl
  have hlast : midway g root done id (g.edges id) queue' = moment g root (done ++ [id]) queue' := by
    simp only [midway, moment, List.map_append, List.append_assoc, List.singleton_append]
    rfl
  rw [← hlast]
  simp only [round, moment, hplace, Option.map_some, state_followedBy _ hlt, hblank, hflags]
  exact congrArg some hedges

theorem take_succ_of_prefix {l rest : List Nat} {k x : Nat} (hk : k ≤ l.length)
    (hl : l.take k ++ x :: rest <+: l) : l.take (k + 1) = l.take k ++ [x] := by
  obtain ⟨behind, hbehind⟩ := hl
  have hlength := List.length_take_of_le hk
  have hget : (l.take k ++ x :: rest ++ behind)[k]? = some x := by
    rw [List.append_assoc, List.getElem?_append_right (Nat.le_of_eq hlength), hlength,
      Nat.sub_self]
    rfl
  rw [hbehind] at hget
  rw [List.take_add_one, hget]
  rfl

/-- the walk comes to each of its moments, and then it has met what edges of the states that have
been copied lead to -/
theorem reaches_moment (hc : g.Closed) (hroot : root < g.size) (k : Nat)
    (hk : k ≤ (g.reachable root).toList.length) : ∃ queue,
    (g.reachable root).toList.take k ++ queue =
      firsts (root :: ((g.reachable root).toList.take k).flatMap g.targets) ∧
    ReflTransGen Next (begin g root) (moment g root ((g.reachable root).toList.take k) queue) := by
  have hfound := foundFrom_reachable hc hroot
  induction k with
  | zero =>
    refine ⟨[root], rfl, ?_⟩
    rw [begin_eq]
    exact .refl
  | succ k ih =>
    obtain ⟨queue, hmet, hreach⟩ := ih (Nat.le_of_succ_le hk)
    have hfront := hfound.firsts_prefix k
    have hlt := hfound.lt_length_firsts hk
    rw [← hmet] at hfront hlt
    cases queue with
    | nil =>
      rw [List.append_nil, List.length_take] at hlt
      omega
    | cons id queue =>
      have hn : ((g.reachable root).toList.take k ++ id :: queue).Nodup := by
        rw [hmet]
        exact nodup_firsts _
      have htake := take_succ_of_prefix (Nat.le_of_succ_le hk) hfront
      have hnext : firsts ((g.reachable root).toList.take k ++ id :: queue ++ g.targets id) =
          firsts (root :: ((g.reachable root).toList.take (k + 1)).flatMap g.targets) := by
        rw [htake, List.flatMap_append, List.flatMap_singleton, ← List.cons_append]
        apply firsts_append_congr _ rfl
        rw [firsts_of_nodup hn, hmet]
      obtain ⟨queue', hqueue', hround⟩ := round_moment (hnext ▸ hfound.firsts_prefix (k + 1)) hn
      rw [← htake] at hqueue' hround
      exact ⟨queue', hqueue'.trans hnext, hreach.tail hround⟩

theorem moment_last (hc : g.Closed) (hroot : root < g.size) :
    moment g root (g.reachable root).toList [] =
      ⟨(g.copyFrom root).2, (g.copyFrom root).1, []⟩ := by
  have hclone : (g.reachable root).map (fun id => (g.state id).renumber
      (numbering g.size g.size (g.reachable root))) =
        ((g.reachable root).toList.map (g.clone root)).toArray := by
    apply Array.toList_inj.1
    rw [Array.toList_map]
    apply List.map_congr_left
    intro p hp
    exact renumber_eq_clone hc hroot (Array.mem_toList_iff.1 hp)
  rw [moment, copyFrom, hclone, followedBy, List.append_nil, List.map_nil, List.append_nil]

theorem next_unique (c c₁ c₂ : Cloning) (h₁ : Next c c₁) (h₂ : Next c c₂) : c₁ = c₂ :=
  Option.some.inj (h₁.symm.trans h₂)

end Cloning

namespace Graph

variable {g g' h : Graph} {root p : Nat}

/-- the name that a numbering has for a state, or the state itself if it has none -/
def newName (places : Array (Option Nat)) (p : Nat) : Nat := (places.getD p none).getD p

/-- `g'` has behind the states of `g` a copy of each state that `root` reaches, and `places` says
which.  What edges lead to from a copy is there the copy of what edges lead to from its original,
whatever becomes of the other states, and what edges lead to from any state that was there is the
same, whatever becomes of the copies. -/
structure Clones (g : Graph) (root : Nat) (places : Array (Option Nat)) (g' : Graph) : Prop where
  start : g'.start = g.start
  old : ∀ p < g.size, g'.state p = g.state p
  named : ∀ p, (places.getD p none).isSome = true ↔ ReflTransGen g.Joins root p
  bijective : Set.BijOn (newName places) {p | ReflTransGen g.Joins root p} (fresh g g')
  copied : ∀ p, ReflTransGen g.Joins root p → g'.state (newName places p) =
    { g.state p with edges := (g.edges p).map fun e => e.withTarget (newName places e.target) }
  copies_keep : ∀ h : Graph, (∀ x ∈ fresh g g', h.state x = g'.state x) →
    ∀ p, ReflTransGen g.Joins root p → ∀ l x, h.Walks (newName places p) l x ↔
      ∃ q, ReflTransGen g.Joins root q ∧ newName places q = x ∧ g.Walks p l q
  old_keep : ∀ h : Graph, (∀ x < g.size, h.state x = g'.state x) →
    ∀ p < g.size, ∀ l q, h.Walks p l q ↔ g.Walks p l q

section
variable (hc : g.Closed) (hroot : root < g.size)
include hc hroot

theorem newName_copyFrom (hp : ReflTransGen g.Joins root p) :
    newName (g.copyFrom root).1 p = g.cloneOf root p := by
  have hmem := (mem_reachable hc hroot).2 hp
  rw [newName, getD_copyFrom (lt_size_of_mem_reachable hmem), if_pos hmem]
  rfl

theorem state_newName (hp : ReflTransGen g.Joins root p) :
    (g.copyFrom root).2.state (newName (g.copyFrom root).1 p) = { g.state p with
      edges := (g.edges p).map fun e =>
        e.withTarget (newName (g.copyFrom root).1 e.target) } := by
  have hmem := (mem_reachable hc hroot).2 hp
  have hedges : (g.edges p).map (fun e => e.withTarget (g.cloneOf root e.target)) =
      (g.edges p).map fun e => e.withTarget (newName (g.copyFrom root).1 e.target) := by
    apply List.map_congr_left
    intro e he
    rw [newName_copyFrom hc hroot (hp.tail ⟨e, he, rfl⟩)]
  rw [newName_copyFrom hc hroot hp, ← hedges]
  exact (state_copyFrom_new hmem).trans (renumber_eq_clone hc hroot hmem)

theorem isSome_copyFrom :
    ((g.copyFrom root).1.getD p none).isSome = true ↔ ReflTransGen g.Joins root p := by
  rw [← mem_reachable hc hroot]
  rcases Nat.lt_or_ge p g.size with hp | hp
  · rw [getD_copyFrom hp]
    split
    · next hmem => exact iff_of_true rfl hmem
    · next hmem => exact iff_of_false Bool.false_ne_true hmem
  · have hnone : (g.copyFrom root).1.getD p none = none := numbering_getD_of_size_le _ hp
    have hnot : p ∉ g.reachable root := fun hmem =>
      Nat.not_lt_of_le hp (lt_size_of_mem_reachable hmem)
    rw [hnone]
    exact iff_of_false Bool.false_ne_true hnot

theorem newName_mem_fresh (hp : ReflTransGen g.Joins root p) :
    newName (g.copyFrom root).1 p ∈ fresh g (g.copyFrom root).2 := by
  rw [newName_copyFrom hc hroot hp]
  exact mem_fresh_copyFrom.2 ⟨p, (mem_reachable hc hroot).2 hp, rfl⟩

theorem bijOn_newName : Set.BijOn (newName (g.copyFrom root).1)
    {p | ReflTransGen g.Joins root p} (fresh g (g.copyFrom root).2) := by
  refine ⟨fun p hp => newName_mem_fresh hc hroot hp, fun p hp q hq heq => ?_, fun x hx => ?_⟩
  · rw [newName_copyFrom hc hroot hp, newName_copyFrom hc hroot hq] at heq
    exact placeOf_injective ((mem_reachable hc hroot).2 hp) ((mem_reachable hc hroot).2 hq)
      (Nat.add_left_cancel heq)
  · obtain ⟨q, hq, rfl⟩ := mem_fresh_copyFrom.1 hx
    have hreach := (mem_reachable hc hroot).1 hq
    exact ⟨q, hreach, newName_copyFrom hc hroot hreach⟩

theorem repeats_newName
    (hkeep : ∀ x ∈ fresh g (g.copyFrom root).2, h.state x = (g.copyFrom root).2.state x) :
    Repeats g h (ReflTransGen g.Joins root) (newName (g.copyFrom root).1) where
  closed := fun p hp e he => hp.tail ⟨e, he, rfl⟩
  edges := fun p hp => by
    rw [edges, hkeep _ (newName_mem_fresh hc hroot hp), state_newName hc hroot hp]

/-- the copy that is made at once -/
theorem clones_copyFrom : g.Clones root (g.copyFrom root).1 (g.copyFrom root).2 where
  start := rfl
  old := fun p hp => state_copyFrom hp
  named := fun p => isSome_copyFrom hc hroot
  bijective := bijOn_newName hc hroot
  copied := fun p hp => state_newName hc hroot hp
  copies_keep := by
    intro h hkeep p hp l x
    have hrepeats := repeats_newName hc hroot hkeep
    constructor
    · exact fun hl => hrepeats.exists_walks hl hp
    · rintro ⟨q, -, rfl, hl⟩
      exact hrepeats.walks hl hp
  old_keep := by
    intro h hkeep p hp l q
    apply walks_congr (S := (· < g.size)) _ _ hp
    · exact fun p _ e he => hc p e he
    · intro p hp
      rw [edges, hkeep p hp, state_copyFrom hp, edges]

/-- The walk ends, whatever it comes through, with the copy that is made at once: with a copy of
each state that the root reaches and of no other, with its flags and with its edges in order. -/
theorem clones_by_rounds : g.Clones root (g.copyFrom root).1 (g.copyFrom root).2 ∧
    Acc (fun c' c => Cloning.Next c c') (Cloning.begin g root) ∧
    ∃ last, ReflTransGen Cloning.Next (Cloning.begin g root) last ∧ last.queue = [] ∧
      (last.places, last.graph) = g.copyFrom root ∧
      ∀ c, ReflTransGen Cloning.Next (Cloning.begin g root) c →
        ReflTransGen Cloning.Next c last := by
  obtain ⟨queue, hmet, hreach⟩ := Cloning.reaches_moment hc hroot _ (Nat.le_refl _)
  rw [List.take_length] at hmet hreach
  rw [← (foundFrom_reachable hc hroot).found, List.append_right_eq_self] at hmet
  rw [hmet, Cloning.moment_last hc hroot] at hreach
  have hlast (c : Cloning) : ¬ Cloning.Next ⟨(g.copyFrom root).2, (g.copyFrom root).1, []⟩ c :=
    fun h => Option.some_ne_none c h.symm
  exact ⟨clones_copyFrom hc hroot, acc_of_last Cloning.next_unique hreach hlast, _, hreach, rfl,
    rfl, fun c hc => reaches_last Cloning.next_unique hc hreach hlast⟩

end

/-- a cycle, a loop, a state that two others lead to, and one that the others do not reach -/
def cyclic : Graph where
  states := #[
    { edges := [Edge.symbols 97 97 1] },
    { edges := [Edge.symbols 98 98 2, Edge.epsilon 3] },
    { silent := true, edges := [Edge.symbols 99 99 3, Edge.epsilon 0, Edge.epsilon 2] },
    { accepting := true },
    { edges := [Edge.epsilon 1] }]
  start := 0

theorem clones_by_rounds_cyclic :
    (cyclic.copyFrom 1).1 = #[some 8, some 5, some 6, some 7, none] ∧
    cyclic.Clones 1 (cyclic.copyFrom 1).1 (cyclic.copyFrom 1).2 ∧
    Acc (fun c' c => Cloning.Next c c') (Cloning.begin cyclic 1) ∧
    ∃ last, ReflTransGen Cloning.Next (Cloning.begin cyclic 1) last ∧ last.queue = [] ∧
      (last.places, last.graph) = cyclic.copyFrom 1 ∧
      ∀ c, ReflTransGen Cloning.Next (Cloning.begin cyclic 1) c →
        ReflTransGen Cloning.Next c last :=
  ⟨rfl, clones_by_rounds (closed_iff.2 (by decide)) (by decide)⟩

end Graph
end SpanSearch
