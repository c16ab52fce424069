import Mathlib.Data.List.ReduceOption
import SpanSearch.Proofs.Contracting
import SpanSearch.Proofs.Merging
import SpanSearch.Proofs.Strict.Access

/-!
# Strict passes over an arena

* `Graph.WellFormed`         every edge leads to a state, and so does the start if there is one
* `discover`, `run`, `breadthFirst`   tours
* `reachable`, `plainClosure`, `incoming`, `live`
* `compact`, `trim`, `contract`, `mergeEdges`
* `compact_eq`, `trim_eq`, `contract_eq`, `mergeEdges_eq`   on well formed graphs all of these
  keep to the arena, the marks, the places and the lists of predecessors
-/

namespace SpanSearch

/-- every edge leads to a state, and if there are states the start is one of them -/
structure Graph.WellFormed (g : Graph) : Prop where
  closed : g.Closed
  start : 0 < g.size → g.start < g.size

theorem Graph.WellFormed.start_lt {g : Graph} (hg : g.WellFormed) (h : g.isEmpty = false) :
    g.start < g.size :=
  hg.start (Nat.pos_of_ne_zero fun hsize => beq_eq_false_iff_ne.1 h hsize)

namespace Strict

/-! ## tours -/

def discover (t : Tour) (id : Nat) : Option Tour := do
  if ← t.seen[id]? then return t
  else return ⟨t.order.push id, ← write t.seen id true⟩

/-- the states found from place `i` on; there have to be rounds for all of them -/
def run (next : Nat → Option (List Nat)) : (rounds i : Nat) → Tour → Option Tour
  | 0, i, t => if t.order.size ≤ i then some t else none
  | rounds + 1, i, t =>
    match t.order[i]? with
    | none => some t
    | some id => do run next rounds (i + 1) (← (← next id).foldlM discover t)

def breadthFirst (size : Nat) (next : Nat → Option (List Nat)) (roots : List Nat) : Option Tour :=
    do
  run next size 0 (← roots.foldlM discover (Tour.empty size))

section

variable {size : Nat} {t : Tour} {next : Nat → List Nat} {next' : Nat → Option (List Nat)}
  {ids roots : List Nat} {id : Nat}

theorem discover_eq (ht : t.Consistent size) (hid : id < size) :
    discover t id = some (t.discover id) := by
  have hlt : id < t.seen.size := ht.marks.symm ▸ hid
  rw [discover, Tour.discover, read_eq hlt true, write_eq hlt]
  cases t.seen.getD id true <;> rfl

theorem discoverAll_eq (ht : t.Consistent size) (hids : ∀ x ∈ ids, x < size) :
    ids.foldlM discover t = some (t.discoverAll ids) :=
  (foldlM_eq (P := fun t => t.Consistent size)
    (fun _ ht x hx => ⟨discover_eq ht (hids x hx), ht.discover x⟩) ht).1

theorem run_eq (hnext : ∀ id < size, next' id = some (next id) ∧ ∀ x ∈ next id, x < size)
    (ht : t.Consistent size) {rounds i : Nat} (hrounds : size ≤ rounds + i) :
    run next' rounds i t = some (Tour.run next rounds i t) := by
  induction rounds generalizing i t with
  | zero =>
    rw [Nat.zero_add] at hrounds
    exact if_pos (Nat.le_trans ht.size_order_le hrounds)
  | succ rounds ih =>
    unfold run Tour.run
    cases hget : t.order[i]? with
    | none => rfl
    | some id =>
      obtain ⟨hsome, hlt⟩ := hnext id (ht.bound id (Array.mem_of_getElem? hget))
      simp only [Option.bind_eq_bind, hsome, Option.bind_some, discoverAll_eq ht hlt]
      exact ih (ht.discoverAll _) (by omega)

theorem breadthFirst_eq (hnext : ∀ id < size, next' id = some (next id) ∧ ∀ x ∈ next id, x < size)
    (hroots : ∀ x ∈ roots, x < size) :
    breadthFirst size next' roots = some (SpanSearch.breadthFirst size next roots) := by
  have hempty := Tour.consistent_empty size
  rw [breadthFirst, discoverAll_eq hempty hroots]
  exact run_eq hnext (hempty.discoverAll roots) (Nat.le_refl _)

end

/-! ## what the states of a graph reach -/

def targets (g : Graph) (id : Nat) : Option (List Nat) := do
  return (← g.states[id]?).edges.map Edge.target

def plainTargets (g : Graph) (id : Nat) : Option (List Nat) := do
  return ((← g.states[id]?).edges.filter Edge.isPlain).map Edge.target

def reachable (g : Graph) (root : Nat) : Option (Array Nat) := do
  return (← breadthFirst g.size (targets g) [root]).order

def plainClosure (g : Graph) (id : Nat) : Option (List Nat) := do
  return (← breadthFirst g.size (plainTargets g) [id]).order.toList

def incoming (g : Graph) : Option (Array (Array Nat)) :=
  g.ids.foldlM
    (fun into id => do
      (← targets g id).foldlM
        (fun into t =>
          update into t fun preds => if preds.back? == some id then preds else preds.push id)
        into)
    (Array.replicate g.size #[])

def live (g : Graph) : Option (Array Bool) := do
  let into ← incoming g
  let tour ← breadthFirst g.size (fun id => do return (← into[id]?).toList) g.accepting
  return tour.seen

/-! ## passes -/

def numbering (size first : Nat) (order : Array Nat) : Option (Array (Option Nat)) :=
  (order.toList.zipIdx first).foldlM (fun places s => write places s.1 (some s.2))
    (Array.replicate size none)

def renumber (places : Array (Option Nat)) (s : State) : Option State := do
  let edges ← s.edges.mapM fun e => do return (← places[e.target]?).map e.withTarget
  return { s with edges := edges.reduceOption }

def compact (g : Graph) : Option Graph :=
  if g.isEmpty then some Graph.empty
  else do
    let order ← reachable g g.start
    let places ← numbering g.size 0 order
    let states ← order.toList.mapM fun id => do renumber places (← g.states[id]?)
    return ⟨states.toArray, 0⟩

/-- the edges of a state that lead to marked states -/
def keepEdges (marks : Array Bool) (s : State) : Option State := do
  let kept ← s.edges.mapM fun e => do return if ← marks[e.target]? then some e else none
  return { s with edges := kept.reduceOption }

def trim (g : Graph) : Option Graph := do
  let live ← live g
  let states ← each g.states fun _ s => keepEdges live s
  compact ⟨states, g.start⟩

def closure (g : Graph) (id : Nat) : Option (List State) := do
  (← plainClosure g id).mapM fun m => g.states[m]?

def contractState (g : Graph) (id : Nat) : Option State := do
  let closure ← closure g id
  return {
    accepting := closure.any State.accepting
    silent := closure.all State.silent
    edges := firsts ((closure.flatMap State.edges).filter fun e => !e.isPlain) }

def contract (g : Graph) : Option Graph := do
  let states ← each (Array.replicate g.size {}) fun id _ => contractState g id
  trim ⟨states, g.start⟩

def mergeEdges (g : Graph) : Option Graph := do
  let states ← each g.states fun _ s =>
    some { s with edges := Edge.coalesce (s.edges.mergeSort Edge.notAfter) }
  trim ⟨states, g.start⟩

/-! ## well formed graphs -/

section

variable {g : Graph} {id : Nat}

theorem state_eq (hid : id < g.size) : g.states[id]? = some (g.state id) := read_eq hid {}

theorem targets_eq (hid : id < g.size) : targets g id = some (g.targets id) := by
  rw [targets, state_eq hid]
  rfl

theorem plainTargets_eq (hid : id < g.size) :
    plainTargets g id = some (((g.edges id).filter Edge.isPlain).map Edge.target) := by
  rw [plainTargets, state_eq hid]
  rfl

theorem mapM_state_eq {ids : List Nat} (hids : ∀ id ∈ ids, id < g.size) :
    (ids.mapM fun id => g.states[id]?) = some (ids.map g.state) :=
  mapM_eq fun id hid => state_eq (hids id hid)

variable (hc : g.Closed)
include hc

theorem lt_size_of_mem_targets {x : Nat} (hx : x ∈ g.targets id) : x < g.size := by
  obtain ⟨e, he, rfl⟩ := List.mem_map.1 hx
  exact hc id e he

theorem reachable_eq {root : Nat} (hroot : root < g.size) :
    reachable g root = some (g.reachable root) := by
  have hnext : ∀ id < g.size, targets g id = some (g.targets id) ∧ ∀ x ∈ g.targets id, x < g.size :=
    fun id hid => ⟨targets_eq hid, fun x => lt_size_of_mem_targets hc⟩
  rw [reachable, bind_eq (breadthFirst_eq hnext (List.forall_mem_singleton.2 hroot))]
  rfl

theorem plainClosure_eq (hid : id < g.size) : plainClosure g id = some (g.plainClosure id) := by
  have hnext : ∀ s < g.size,
      plainTargets g s = some (((g.edges s).filter Edge.isPlain).map Edge.target) ∧
        ∀ x ∈ ((g.edges s).filter Edge.isPlain).map Edge.target, x < g.size := by
    refine fun s hs => ⟨plainTargets_eq hs, fun x hx => ?_⟩
    obtain ⟨e, he, rfl⟩ := List.mem_map.1 hx
    exact hc s e (List.mem_filter.1 he).1
  rw [plainClosure, bind_eq (breadthFirst_eq hnext (List.forall_mem_singleton.2 hid))]
  rfl

theorem incoming_eq : incoming g = some g.incoming := by
  apply foldlM_array_eq (n := g.size)
    (fun into id => size_foldl (fun _ _ => Array.size_modify ..) _ _)
  · intro into hinto id hid
    rw [targets_eq (Graph.mem_ids.1 hid)]
    apply foldlM_array_eq (n := g.size) (fun _ _ => Array.size_modify ..) _ hinto
    intro into hinto t ht
    exact update_eq (hinto.symm ▸ lt_size_of_mem_targets hc ht) _
  · exact Array.size_replicate

theorem live_eq : live g = some g.live := by
  have hnext : ∀ id < g.size,
      (do return (← g.incoming[id]?).toList) = some (g.incoming.getD id #[]).toList ∧
        ∀ x ∈ (g.incoming.getD id #[]).toList, x < g.size := by
    refine fun id hid => ⟨?_, fun x hx => ?_⟩
    · rw [read_eq (Graph.size_incoming.symm ▸ hid) #[]]
      rfl
    · obtain ⟨e, he, -⟩ := (Graph.mem_incoming hc).1 (Array.mem_toList_iff.1 hx)
      exact Graph.lt_size_of_mem_edges he
  have haccepting : ∀ x ∈ g.accepting, x < g.size := fun x hx =>
    Graph.mem_ids.1 (List.mem_filter.1 hx).1
  rw [live, bind_eq (incoming_eq hc), bind_eq (breadthFirst_eq hnext haccepting)]
  rfl

end

theorem numbering_eq {size first : Nat} {order : Array Nat} (h : ∀ id ∈ order, id < size) :
    numbering size first order = some (SpanSearch.numbering size first order) := by
  apply foldlM_array_eq (n := size) (fun _ _ => Array.size_setIfInBounds ..)
  · intro places hplaces s hs
    have hmem : s.1 ∈ order.toList := List.fst_mem_of_mem_zipIdx hs
    exact write_eq (hplaces.symm ▸ h s.1 (Array.mem_toList_iff.1 hmem)) _
  · exact Array.size_replicate

theorem reduceOption_map_eq {α β : Type} (f : α → Option β) (l : List α) :
    (l.map f).reduceOption = l.filterMap f := by
  rw [List.reduceOption, List.filterMap_map]
  rfl

theorem renumber_eq {places : Array (Option Nat)} {s : State}
    (h : ∀ e ∈ s.edges, e.target < places.size) : renumber places s = some (s.renumber places) := by
  have hedges : (s.edges.mapM fun e => do return (← places[e.target]?).map e.withTarget) =
      some (s.edges.map fun e => (places.getD e.target none).map e.withTarget) :=
    mapM_eq fun e he => by
      rw [read_eq (h e he) none]
      rfl
  rw [renumber, hedges, State.renumber, ← reduceOption_map_eq]
  rfl

theorem keepEdges_eq {marks : Array Bool} {s : State} (h : ∀ e ∈ s.edges, e.target < marks.size) :
    keepEdges marks s =
      some { s with edges := s.edges.filter fun e => marks.getD e.target false } := by
  have hedges : (s.edges.mapM fun e => do return if ← marks[e.target]? then some e else none) =
      some (s.edges.map fun e => if marks.getD e.target false then some e else none) :=
    mapM_eq fun e he => by
      rw [read_eq (h e he) false]
      rfl
  rw [keepEdges, hedges, ← List.filterMap_eq_filter, ← reduceOption_map_eq]
  rfl

/-! ## passes over well formed graphs -/

variable {g : Graph}

theorem compact_eq (hg : g.WellFormed) : compact g = some g.compact := by
  by_cases hempty : g.isEmpty = true
  · rw [compact, Graph.compact, hempty]
    rfl
  · have hs := hg.start_lt (Bool.eq_false_iff.2 hempty)
    have hlt {id : Nat} (hid : id ∈ g.reachable g.start) := Graph.lt_size_of_mem_reachable hid
    have hstates : ((g.reachable g.start).toList.mapM fun id => do
        renumber (SpanSearch.numbering g.size 0 (g.reachable g.start)) (← g.states[id]?)) =
          some ((g.reachable g.start).toList.map fun id =>
            (g.state id).renumber (SpanSearch.numbering g.size 0 (g.reachable g.start))) :=
      mapM_eq fun id hid => by
        rw [state_eq (hlt (Array.mem_toList_iff.1 hid))]
        refine renumber_eq fun e he => ?_
        rw [size_numbering]
        exact hg.closed id e he
    rw [compact, Graph.compact, if_neg hempty, if_neg hempty,
      bind_eq (reachable_eq hg.closed hs), bind_eq (numbering_eq fun id => hlt), hstates,
      ← Array.toList_map]
    rfl

theorem wellFormed_compact (hg : g.WellFormed) : g.compact.WellFormed := by
  by_cases hsize : g.size = 0
  · have hcompact : g.compact = Graph.empty := if_pos (beq_iff_eq.2 hsize)
    rw [hcompact]
    exact ⟨fun p e he => absurd he (by simp [Graph.edges, Graph.state_empty]),
      fun h => absurd h (Nat.lt_irrefl 0)⟩
  · have hs := hg.start (Nat.pos_of_ne_zero hsize)
    exact ⟨Graph.closed_compact hg.closed hs, fun _ => Graph.start_lt_size_compact hs⟩

theorem wellFormed_pruned (hg : g.WellFormed) : g.pruned.WellFormed where
  closed := Graph.closed_pruned hg.closed
  start h := Graph.start_lt_size_pruned (hg.start (Graph.size_pruned g ▸ h))

theorem wellFormed_trim (hg : g.WellFormed) : g.trim.WellFormed :=
  wellFormed_compact (wellFormed_pruned hg)

theorem trim_eq (hg : g.WellFormed) : trim g = some g.trim := by
  have hstates : (each g.states fun _ s => keepEdges g.live s) = some g.pruned.states :=
    each_eq_map fun id s hs => keepEdges_eq fun e he => by
      have hstate : g.state id = s := by
        rw [Graph.state, Array.getD_eq_getD_getElem?, hs]
        rfl
      rw [Graph.size_live]
      exact hg.closed id e (show e ∈ (g.state id).edges from hstate.symm ▸ he)
  rw [trim, bind_eq (live_eq hg.closed), bind_eq hstates]
  exact compact_eq (wellFormed_pruned hg)

theorem closure_eq (hc : g.Closed) {id : Nat} (hid : id < g.size) :
    closure g id = some ((g.plainClosure id).map g.state) := by
  rw [closure, bind_eq (plainClosure_eq hc hid)]
  exact mapM_state_eq fun m hm => consistent_breadthFirst.bound m (Array.mem_toList_iff.1 hm)

theorem contractState_eq (hc : g.Closed) {id : Nat} (hid : id < g.size) :
    contractState g id = some (g.contractState id) := by
  rw [contractState, bind_eq (closure_eq hc hid), List.any_map, List.all_map, List.flatMap_map]
  rfl

theorem wellFormed_contracted (hg : g.WellFormed) : g.contracted.WellFormed where
  closed := Graph.closed_contracted hg.closed
  start h := Graph.start_lt_size_contracted (hg.start (Graph.size_contracted g ▸ h))

theorem contract_eq (hg : g.WellFormed) : contract g = some g.contract := by
  rw [contract, bind_eq (each_replicate fun id hid => contractState_eq hg.closed hid)]
  exact trim_eq (wellFormed_contracted hg)

theorem wellFormed_coalesced (hg : g.WellFormed) : g.coalesced.WellFormed where
  closed := Graph.closed_coalesced hg.closed
  start h := Graph.start_lt_size_coalesced (hg.start (Graph.size_coalesced g ▸ h))

theorem wellFormed_mergeEdges (hg : g.WellFormed) : g.mergeEdges.WellFormed :=
  wellFormed_trim (wellFormed_coalesced hg)

theorem mergeEdges_eq (hg : g.WellFormed) : mergeEdges g = some g.mergeEdges := by
  rw [mergeEdges, bind_eq (each_eq_map fun _ _ _ => rfl)]
  exact trim_eq (wellFormed_coalesced hg)

end Strict
end SpanSearch
