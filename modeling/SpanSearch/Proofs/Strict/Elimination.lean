import SpanSearch.Proofs.Freeing
import SpanSearch.Proofs.Strict.Arena

/-!
# Strict elimination

An elimination writes to a graph and to the lists of sources next to it, and follows these lists
back with a sparse set that has been made for as many states as there were in the beginning.

* `search`, `Mirrors`         a tour whose marks are a sparse set; it finds what other tours find
* `addEdge`, `removeEdge`     one edge more or less
* `forward`, `backward`, `step`   one epsilon less
* `eliminate`                 all epsilons
* `eliminate_eq`              on well formed graphs all of this keeps to its arrays, if there is a
                              start to set out from, and otherwise it does not
-/

namespace SpanSearch.Strict

open Elimination (Sound addAll_spec)

/-! ## tours with a sparse set -/

/-- the numbers found from place `i` on; there have to be rounds for all of them -/
def search (next : Nat → Option (List Nat)) : (rounds i : Nat) → SparseSet → Option SparseSet
  | 0, i, s => if s.size ≤ i then some s else none
  | rounds + 1, i, s =>
    if i < s.size then do
      let ids ← next (← s.dense[i]?)
      search next rounds (i + 1) (← ids.foldlM insert s)
    else some s

/-- the members of a set are what a tour has found -/
structure Mirrors (size : Nat) (s : SparseSet) (t : Tour) : Prop where
  agrees : s.Agrees size
  consistent : t.Consistent size
  members : s.toList = t.order.toList

section

variable {size : Nat} {s : SparseSet} {t : Tour} {next : Nat → List Nat}
  {next' : Nat → Option (List Nat)} {ids : List Nat} {id i : Nat}

theorem mirrors_empty (size : Nat) : Mirrors size (SparseSet.empty size) (Tour.empty size) :=
  ⟨SparseSet.agrees_empty size, Tour.consistent_empty size, rfl⟩

namespace Mirrors

variable (h : Mirrors size s t)
include h

theorem size_eq : s.size = t.order.size := by
  rw [← Array.length_toList, ← h.members, SparseSet.length_toList h.agrees]

theorem dense_eq (hi : i < s.size) : s.dense[i]? = t.order[i]? := by
  have hget : t.order[i]? = s.toList[i]? := by rw [h.members, Array.getElem?_toList]
  rw [hget, SparseSet.toList, List.getElem?_take_of_lt hi, Array.getElem?_toList]

theorem insert (hid : id < size) : Mirrors size (s.insert id).2 (t.discover id) := by
  have hmem : s.contains id = true ↔ t.seen.getD id true = true := by
    rw [← SparseSet.mem_toList h.agrees, h.members, Array.mem_toList_iff, h.consistent.seen id hid]
  refine ⟨h.agrees.insert hid, h.consistent.discover id, ?_⟩
  cases hin : s.contains id with
  | true =>
    rw [SparseSet.insert_of_contains hin, Tour.discover_of_seen (hmem.1 hin), h.members]
  | false =>
    have hroom : s.size < s.dense.size := h.agrees.dense.symm ▸ SparseSet.size_lt h.agrees hid hin
    have hnot : t.seen.getD id true = false := by
      rw [← Bool.not_eq_true, ← hmem, hin]
      exact Bool.false_ne_true
    rw [SparseSet.toList_insert_of_not_contains hin hroom, Tour.order_discover_of_not_seen hnot,
      Array.toList_push, h.members]

theorem insertAll (hids : ∀ x ∈ ids, x < size) :
    ∃ s', ids.foldlM Strict.insert s = some s' ∧ Mirrors size s' (t.discoverAll ids) := by
  induction ids generalizing s t with
  | nil => exact ⟨s, rfl, h⟩
  | cons x ids ih =>
    have hx := hids x List.mem_cons_self
    rw [List.foldlM_cons, bind_eq (insert_eq h.agrees hx)]
    exact ih (h.insert hx) fun y hy => hids y (List.mem_cons_of_mem x hy)

theorem search (hnext : ∀ id < size, next' id = some (next id) ∧ ∀ x ∈ next id, x < size)
    {rounds : Nat} (hrounds : size ≤ rounds + i) :
    ∃ s', search next' rounds i s = some s' ∧ Mirrors size s' (Tour.run next rounds i t) := by
  induction rounds generalizing i s t with
  | zero =>
    rw [Nat.zero_add] at hrounds
    exact ⟨s, if_pos (Nat.le_trans h.agrees.size_le hrounds), h⟩
  | succ rounds ih =>
    unfold Strict.search Tour.run
    by_cases hi : i < s.size
    · obtain ⟨id, hget⟩ : ∃ id, t.order[i]? = some id :=
        ⟨_, Array.getElem?_eq_getElem (h.size_eq ▸ hi)⟩
      obtain ⟨hsome, hlt⟩ := hnext id (h.consistent.bound id (Array.mem_of_getElem? hget))
      obtain ⟨s', hfold, hs'⟩ := h.insertAll hlt
      rw [if_pos hi, bind_eq ((h.dense_eq hi).trans hget), bind_eq hsome, bind_eq hfold, hget]
      exact ih hs' (by omega)
    · have hnone : t.order[i]? = none :=
        Array.getElem?_eq_none (h.size_eq ▸ Nat.le_of_not_lt hi)
      rw [if_neg hi, hnone]
      exact ⟨s, rfl, h⟩

end Mirrors

theorem search_eq (hnext : ∀ id < size, next' id = some (next id) ∧ ∀ x ∈ next id, x < size)
    (hid : id < size) :
    ∃ s, (do search next' size 0 (← insert (SparseSet.empty size) id)) = some s ∧
      s.toList = (SpanSearch.breadthFirst size next [id]).order.toList := by
  have hempty := mirrors_empty size
  rw [bind_eq (insert_eq hempty.agrees hid)]
  obtain ⟨s, hs, hmirrors⟩ := (hempty.insert hid).search hnext (i := 0) (Nat.le_refl _)
  exact ⟨s, hs, hmirrors.members⟩

end

/-! ## the working state -/

def stripped (g : Graph) : Option Graph := do
  let g ← compact g
  let states ← each g.states fun _ s => some { s with edges := firsts (s.edges.map Edge.silenced) }
  return ⟨states, g.start⟩

def sourcesOf (g : Graph) : Option (Array (List Nat)) :=
  g.ids.reverse.foldlM
    (fun into id => do
      (← targets g id).reverse.foldlM (fun into t => update into t fun l => id :: l) into)
    (Array.replicate g.size [])

def spread (g : Graph) : Option Graph := do
  let states ← each g.states fun id s => do
    let closure ← closure g id
    return { s with accepting := closure.any State.accepting }
  return ⟨states, g.start⟩

def ofGraph (g : Graph) : Option Elimination := do
  let s ← stripped g
  return ⟨← spread s, ← sourcesOf s⟩

def addEdge (w : Elimination) (source : Nat) (e : Edge) : Option Elimination := do
  let s ← w.graph.states[source]?
  if s.edges.contains e then return w
  else
    let states ← update w.graph.states source fun s => { s with edges := s.edges ++ [e] }
    let sources ← update w.sources e.target fun l => l ++ [source]
    return ⟨⟨states, w.graph.start⟩, sources⟩

def removeEdge (w : Elimination) (source : Nat) (e : Edge) : Option Elimination := do
  let s ← w.graph.states[source]?
  if s.edges.contains e then
    let states ← update w.graph.states source fun s => { s with edges := s.edges.erase e }
    let sources ← update w.sources e.target (swapErase source)
    return ⟨⟨states, w.graph.start⟩, sources⟩
  else return w

def addAll (w : Elimination) (l : List (Nat × Edge)) : Option Elimination :=
  l.foldlM (fun w s => addEdge w s.1 s.2) w

def epsilonsInto (w : Elimination) (id : Nat) : Option (List Nat) := do
  let sources ← (← w.sources[id]?).mapM fun p => do return (p, ← w.graph.states[p]?)
  return (sources.filter fun s =>
    (s.2.edges.filter Edge.isEpsilon).any fun e => e.target == id).map Prod.fst

def epsilonSources (w : Elimination) (origin : Nat) : Option (List Nat) := do
  let size := w.graph.size
  let found ← search (epsilonsInto w) size 0 (← insert (SparseSet.empty size) origin)
  return found.toList

def forward (w : Elimination) (origin target : Nat) : Option Elimination := do
  let closure ← closure w.graph target
  let copied := (closure.flatMap State.edges).filter fun e => !e.isEpsilon
  removeEdge (← addAll w (copied.map fun e => (origin, e))) origin (Edge.epsilon target)

/-- what leads from one state into another, led to the target instead -/
def redirect (w : Elimination) (id target source : Nat) : Option (List (Nat × Edge)) := do
  let s ← w.graph.states[source]?
  return (s.edges.filter fun e => !e.isEpsilon && e.target == id).map fun e =>
    (source, e.withTarget target)

def backward (w : Elimination) (origin : Nat) (through : List Nat) (target : Nat) :
    Option Elimination := do
  let copied ← through.mapM fun id => do
    return (← (Ascending.ofList (← w.sources[id]?)).mapM (redirect w id target)).flatten
  removeEdge (← addAll w copied.flatten) origin (Edge.epsilon target)

def step (w : Elimination) (origin target : Nat) : Option Elimination :=
  if origin = target then removeEdge w origin (Edge.epsilon target)
  else do
    let sources ← w.sources[origin]?
    let s ← w.graph.states[target]?
    if origin = w.graph.start ∨ s.edges.length ≤ sources.length then forward w origin target
    else
      let through ← epsilonSources w origin
      let states ← through.mapM fun p => w.graph.states[p]?
      if states.any State.silent then forward w origin target
      else backward w origin through target

def pending (g : Graph) : Option (List (Nat × Nat)) := do
  let found ← (← reachable g g.start).toList.mapM fun id => do
    return ((← g.states[id]?).edges.filter Edge.isEpsilon).map fun e => (id, e.target)
  return found.flatten

def eliminate (g : Graph) : Option Graph := do
  let w ← ofGraph g
  let w ← (← pending w.graph).foldlM (fun w s => step w s.1 s.2) w
  trim w.graph

/-! ## where an elimination begins -/

section

variable {g : Graph} {id : Nat}

theorem stripped_eq (hg : g.WellFormed) : stripped g = some (Elimination.stripped g) := by
  rw [stripped, bind_eq (compact_eq hg), bind_eq (each_eq_map fun _ _ _ => rfl)]
  rfl

theorem sourcesOf_eq (hc : g.Closed) : sourcesOf g = some (Elimination.sourcesOf g) := by
  apply foldlM_array_eq (n := g.size)
    (fun into id => size_foldl (fun _ _ => Array.size_modify ..) _ _)
  · intro into hinto id hid
    rw [bind_eq (targets_eq (Graph.mem_ids.1 (List.mem_reverse.1 hid)))]
    apply foldlM_array_eq (n := g.size) (fun _ _ => Array.size_modify ..) _ hinto
    intro into hinto t ht
    exact update_eq (hinto.symm ▸ lt_size_of_mem_targets hc (List.mem_reverse.1 ht)) _
  · exact Array.size_replicate

theorem spread_eq (hc : g.Closed) : spread g = some (Elimination.spread g) := by
  have hstates : (each g.states fun id s => do
      let closure ← closure g id
      return { s with accepting := closure.any State.accepting }) =
        some (g.states.mapIdx fun id s =>
          { s with accepting := (g.plainClosure id).any g.isAccepting }) :=
    each_eq fun id s hs => by
      rw [bind_eq (closure_eq hc (Array.getElem?_eq_some_iff.1 hs).1), List.any_map]
      rfl
  rw [spread, bind_eq hstates, mapIdx_eq _ _ {}]
  rfl

theorem wellFormed_stripped (hg : g.WellFormed) : (Elimination.stripped g).WellFormed where
  closed := Elimination.closed_stripped (wellFormed_compact hg).closed
  start h := by
    have hflags := Elimination.sameFlags_stripped g
    rw [hflags.size] at h ⊢
    rw [hflags.start]
    exact (wellFormed_compact hg).start h

theorem ofGraph_eq (hg : g.WellFormed) : ofGraph g = some (Elimination.ofGraph g) := by
  have hclosed := (wellFormed_stripped hg).closed
  rw [ofGraph, bind_eq (stripped_eq hg), bind_eq (spread_eq hclosed),
    bind_eq (sourcesOf_eq hclosed)]
  rfl

theorem pending_eq (hg : g.WellFormed) (hne : 0 < g.size) :
    pending g = some (Elimination.pending g) := by
  have hfound : ((g.reachable g.start).toList.mapM fun id => do
      return ((← g.states[id]?).edges.filter Edge.isEpsilon).map fun e => (id, e.target)) =
        some ((g.reachable g.start).toList.map fun id =>
          (g.epsilons id).map fun e => (id, e.target)) :=
    mapM_eq fun id hid => by
      rw [state_eq (Graph.lt_size_of_mem_reachable (Array.mem_toList_iff.1 hid))]
      rfl
  rw [pending, bind_eq (reachable_eq hg.closed (hg.start hne)), bind_eq hfound, Elimination.pending,
    List.flatMap_def]
  rfl

end

/-! ## edges -/

section

variable {w : Elimination} {source origin target id n : Nat} {e : Edge}

theorem addEdge_eq (hw : w.Sound) (hs : source < w.graph.size) (ht : e.target < w.graph.size) :
    addEdge w source e = some (w.add source e) := by
  have ht' : e.target < w.sources.size := hw.tracked.symm ▸ ht
  rw [addEdge, bind_eq (state_eq hs), Elimination.add, bind_eq (update_eq hs _),
    bind_eq (update_eq ht' _)]
  show (if w.graph.hasEdge source e = true then some w else some _) = some (if _ then _ else _)
  split <;> rfl

theorem removeEdge_eq (hw : w.Sound) (hs : source < w.graph.size) (ht : e.target < w.graph.size) :
    removeEdge w source e = some (w.remove source e) := by
  have ht' : e.target < w.sources.size := hw.tracked.symm ▸ ht
  rw [removeEdge, bind_eq (state_eq hs), Elimination.remove, bind_eq (update_eq hs _),
    bind_eq (update_eq ht' _)]
  show (if w.graph.hasEdge source e = true then some _ else some w) = some (if _ then _ else _)
  split <;> rfl

/-- edges that elimination may add: within the arena, without actions, consuming a symbol -/
def Fits (w : Elimination) (l : List (Nat × Edge)) : Prop :=
  ∀ x ∈ l, x.1 < w.graph.size ∧ x.2.target < w.graph.size ∧ x.2.action = none ∧
    x.2.isEpsilon = false

theorem addAll_eq (hw : w.Sound) {l : List (Nat × Edge)} (hl : Fits w l) :
    addAll w l = some (w.addAll l) := by
  refine (foldlM_eq (P := fun v => v.Sound ∧ v.graph.size = w.graph.size)
    (fun v hv x hx => ?_) ⟨hw, rfl⟩).1
  obtain ⟨hs, ht, hact, hne⟩ := hl x hx
  rw [← hv.2] at hs ht
  exact ⟨addEdge_eq hv.1 hs ht, hv.1.add hs ht hact hne, (Elimination.size_add ..).trans hv.2⟩

theorem replace_eq (hw : w.Sound) {l : List (Nat × Edge)} (hl : Fits w l)
    (ho : origin < w.graph.size) (ht : target < w.graph.size) :
    (do removeEdge (← addAll w l) origin (Edge.epsilon target)) =
      some ((w.addAll l).remove origin (Edge.epsilon target)) := by
  obtain ⟨hsound, hsame, -⟩ := addAll_spec hw hl
  rw [bind_eq (addAll_eq hw hl)]
  exact removeEdge_eq hsound (hsame.size.symm ▸ ho) (hsame.size.symm ▸ ht)

theorem fits_taken (hw : w.Sound) (ho : origin < w.graph.size) (ht : target < w.graph.size) :
    Fits w (w.taken origin target) := by
  rintro ⟨p, e⟩ hx
  obtain ⟨rfl, hne, m, -, he⟩ := (hw.mem_taken ht).1 hx
  exact ⟨ho, hw.closed m e he, hw.actionFree m e he, hne⟩

theorem fits_redirected (hw : w.Sound) (ho : origin < w.graph.size) (ht : target < w.graph.size) :
    Fits w (w.redirected (w.epsilonSources origin) target) := by
  rintro ⟨p, e⟩ hx
  obtain ⟨hne, htarget, d, hd, -, -, heq⟩ := (hw.mem_redirected ho).1 hx
  refine ⟨Graph.lt_size_of_mem_edges hd, htarget.symm ▸ ht, ?_, hne⟩
  show e.action = none
  rw [heq]
  exact hw.actionFree p d hd

theorem forward_eq (hw : w.Sound) (ho : origin < w.graph.size) (ht : target < w.graph.size) :
    forward w origin target = some (w.forward origin target) := by
  have hedges : ((w.graph.plainClosure target).map w.graph.state).flatMap State.edges =
      (w.graph.plainClosure target).flatMap w.graph.edges := List.flatMap_map ..
  rw [forward, bind_eq (closure_eq hw.closed ht), Elimination.forward_eq]
  dsimp only
  rw [hedges]
  exact replace_eq hw (fits_taken hw ho ht) ho ht

theorem lt_size_of_mem_sourcesInto (hw : w.Sound) {p : Nat} (hp : p ∈ w.sourcesInto id) :
    p < w.graph.size := by
  obtain ⟨e, he, -⟩ := hw.mem_sourcesInto.1 hp
  exact Graph.lt_size_of_mem_edges he

theorem sources_eq (hw : w.Sound) (hid : id < w.graph.size) :
    w.sources[id]? = some (w.sourcesInto id) := read_eq (hw.tracked.symm ▸ hid) []

theorem epsilonsInto_eq (hw : w.Sound) (hid : id < w.graph.size) :
    epsilonsInto w id = some ((w.sourcesInto id).filter fun p =>
      (w.graph.epsilons p).any fun e => e.target == id) := by
  have hstates : ((w.sourcesInto id).mapM fun p => do return (p, ← w.graph.states[p]?)) =
      some ((w.sourcesInto id).map fun p => (p, w.graph.state p)) :=
    mapM_eq fun p hp => by
      rw [bind_eq (state_eq (lt_size_of_mem_sourcesInto hw hp))]
      rfl
  rw [epsilonsInto, bind_eq (sources_eq hw hid), bind_eq hstates, List.filter_map, List.map_map]
  exact congrArg some (List.map_id _)

theorem epsilonSources_eq (hw : w.Sound) (ho : origin < w.graph.size) :
    epsilonSources w origin = some (w.epsilonSources origin) := by
  have hnext : ∀ id < w.graph.size,
      epsilonsInto w id = some ((w.sourcesInto id).filter fun p =>
        (w.graph.epsilons p).any fun e => e.target == id) ∧
      ∀ x ∈ (w.sourcesInto id).filter fun p => (w.graph.epsilons p).any fun e => e.target == id,
        x < w.graph.size :=
    fun id hid => ⟨epsilonsInto_eq hw hid, fun x hx =>
      lt_size_of_mem_sourcesInto hw (List.mem_filter.1 hx).1⟩
  obtain ⟨s, hs, hlist⟩ := search_eq hnext ho
  rw [epsilonSources, ← bind_assoc, bind_eq hs, hlist]
  rfl

theorem lt_size_of_mem_epsilonSources {p : Nat} (hp : p ∈ w.epsilonSources origin) :
    p < w.graph.size := consistent_breadthFirst.bound p (Array.mem_toList_iff.1 hp)

theorem redirected_eq (hw : w.Sound) {through : List Nat}
    (hthrough : ∀ p ∈ through, p < w.graph.size) :
    (through.mapM fun id => do
      return (← (Ascending.ofList (← w.sources[id]?)).mapM (redirect w id target)).flatten) =
        some (through.map fun id => (Ascending.ofList (w.sourcesInto id)).flatMap fun source =>
          ((w.graph.edges source).filter fun e => !e.isEpsilon && e.target == id).map fun e =>
            (source, e.withTarget target)) :=
  mapM_eq fun id hid => by
    have hedges : (Ascending.ofList (w.sourcesInto id)).mapM (redirect w id target) =
        some ((Ascending.ofList (w.sourcesInto id)).map fun source =>
          ((w.graph.edges source).filter fun e => !e.isEpsilon && e.target == id).map fun e =>
            (source, e.withTarget target)) :=
      mapM_eq fun source hsource => by
        have hmem := (Ascending.mem_ofList source _).1 hsource
        rw [redirect, bind_eq (state_eq (lt_size_of_mem_sourcesInto hw hmem))]
        rfl
    rw [bind_eq (sources_eq hw (hthrough id hid)), bind_eq hedges, List.flatMap_def]
    rfl

theorem backward_eq (hw : w.Sound) (ho : origin < w.graph.size) (ht : target < w.graph.size) :
    backward w origin (w.epsilonSources origin) target =
      some (w.backward origin (w.epsilonSources origin) target) := by
  rw [backward, bind_eq (redirected_eq hw fun p => lt_size_of_mem_epsilonSources),
    ← List.flatMap_def, Elimination.backward_eq]
  exact replace_eq hw (fits_redirected hw ho ht) ho ht

/-- one epsilon less -/
theorem step_eq (hw : w.Sound) (ho : origin < w.graph.size) (ht : target < w.graph.size) :
    step w origin target = some (w.step origin target) := by
  unfold step Elimination.step
  split
  · exact removeEdge_eq hw ho ht
  · rw [bind_eq (sources_eq hw ho), bind_eq (state_eq ht)]
    by_cases hfew : origin = w.graph.start ∨
        (w.graph.edges target).length ≤ (w.sourcesInto origin).length
    · rw [if_pos hfew]
      exact (if_pos hfew).trans (forward_eq hw ho ht)
    · rw [if_neg hfew]
      refine (if_neg hfew).trans ?_
      rw [bind_eq (epsilonSources_eq hw ho),
        bind_eq (mapM_state_eq fun p => lt_size_of_mem_epsilonSources), List.any_map]
      by_cases hsilent : (w.epsilonSources origin).any w.graph.isSilent = true
      · exact (if_pos hsilent).trans
          ((forward_eq hw ho ht).trans (congrArg some (if_pos hsilent).symm))
      · exact (if_neg hsilent).trans
          ((backward_eq hw ho ht).trans (congrArg some (if_neg hsilent).symm))

/-- the working state stays sound, and the graph as large as it was -/
theorem sound_step (hw : w.Sound) (ho : origin < w.graph.size) (ht : target < w.graph.size) :
    (w.step origin target).Sound ∧ (w.step origin target).graph.size = w.graph.size := by
  have hreplace {l : List (Nat × Edge)} (hl : Fits w l) :
      ((w.addAll l).remove origin (Edge.epsilon target)).Sound ∧
        ((w.addAll l).remove origin (Edge.epsilon target)).graph.size = w.graph.size :=
    have hsteps := (hw.steps_addAll origin target hl).1
    ⟨hsteps.sound, hsteps.flags.size⟩
  have hdrops := Elimination.drops_step w origin target
  generalize w.step origin target = v at hdrops ⊢
  cases hdrops with
  | loop => exact ⟨hw.remove _ _, Elimination.size_remove ..⟩
  | forward =>
    rw [Elimination.forward_eq]
    exact hreplace (fits_taken hw ho ht)
  | backward =>
    rw [Elimination.backward_eq]
    exact hreplace (fits_redirected hw ho ht)

theorem steps_eq (hw : w.Sound) {l : List (Nat × Nat)}
    (hl : ∀ x ∈ l, x.1 < w.graph.size ∧ x.2 < w.graph.size) :
    l.foldlM (fun w s => step w s.1 s.2) w = some (w.run l) ∧
      (w.run l).Sound ∧ (w.run l).graph.size = w.graph.size :=
  foldlM_eq (P := fun v : Elimination => v.Sound ∧ v.graph.size = w.graph.size)
    (fun v hv x hx => by
      obtain ⟨ho, ht⟩ := hl x hx
      rw [← hv.2] at ho ht
      obtain ⟨hsound, hsize⟩ := sound_step hv.1 ho ht
      exact ⟨step_eq hv.1 ho ht, hsound, hsize.trans hv.2⟩) ⟨hw, rfl⟩

end

/-! ## all epsilons -/

variable {g : Graph}

theorem wellFormed_of_sound {w : Elimination} (hw : w.Sound) : w.graph.WellFormed :=
  ⟨hw.closed, fun _ => hw.start⟩

theorem eliminate_of_isEmpty (hg : g.WellFormed) (hempty : g.isEmpty = true) :
    eliminate g = none := by
  have hcompact : g.compact = Graph.empty := if_pos hempty
  have hstripped : Elimination.stripped g = Graph.empty := by
    rw [Elimination.stripped, hcompact, Graph.mapStates, Graph.empty, Array.map_empty]
  rw [eliminate, bind_eq (ofGraph_eq hg), Elimination.ofGraph, hstripped]
  rfl

theorem eliminate_eq (hg : g.WellFormed) : eliminate g = g.eliminate? := by
  cases hempty : g.isEmpty with
  | true => rw [eliminate_of_isEmpty hg hempty, Graph.eliminate?, if_pos hempty]
  | false =>
    have hw := Elimination.sound_ofGraph hg.closed (hg.start_lt hempty)
    have hpending : ∀ x ∈ Elimination.pending (Elimination.ofGraph g).graph,
        x.1 < (Elimination.ofGraph g).graph.size ∧ x.2 < (Elimination.ofGraph g).graph.size := by
      intro x hx
      obtain ⟨id, -, hx⟩ := List.mem_flatMap.1 hx
      obtain ⟨e, he, rfl⟩ := List.mem_map.1 hx
      have he := (List.mem_filter.1 he).1
      exact ⟨Graph.lt_size_of_mem_edges he, hw.closed id e he⟩
    obtain ⟨hsteps, hsound, -⟩ := steps_eq hw hpending
    rw [eliminate, bind_eq (ofGraph_eq hg),
      bind_eq (pending_eq (wellFormed_of_sound hw) (Nat.zero_lt_of_lt hw.start)), bind_eq hsteps,
      trim_eq (wellFormed_of_sound hsound), Graph.eliminate?_of_not_isEmpty hempty]
    rfl

end SpanSearch.Strict
