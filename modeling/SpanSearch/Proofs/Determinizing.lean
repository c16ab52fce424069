import Mathlib.Data.Finset.Powerset
import SpanSearch.Proofs.Cells

/-!
# The subset construction follows all paths at once

* `image`                      where a set of states leads under a cell
* `Subsets.Sound`              sets and names agree, and the edges made so far are right
* `Subsets.Agenda`             which states still wait for their edges
* `Sound.link`, `sound_expand` one edge, and all edges of one state
* `size_sets_le`               there are no more sets than rounds
* `Determinizes`               what the finished construction is
* `determinizes_finished`, `determinizes_determinize`
-/

namespace SpanSearch

variable {g : Graph} {p : Partition}

/-! ## where a set leads under a cell -/

theorem size_landings (p : Partition) (es : List Edge) : (landings p es).size = p.size := by
  rw [landings, size_foldl fun into e => size_foldl (fun _ _ => Array.size_modify) _ into]
  exact Array.size_replicate

theorem landings_eq (p : Partition) (es : List Edge) : landings p es =
    (es.flatMap fun e => (e.cells p).map fun c => (c, e.target)).foldl
      (fun into s => into.modify s.1 fun l => s.2 :: l) (Array.replicate p.size []) := by
  rw [landings, List.foldl_flatMap]
  simp only [List.foldl_map]

theorem mem_landings {es : List Edge} {c x : Nat} :
    x ∈ (landings p es).getD c [] ↔ c < p.size ∧ ∃ e ∈ es, c ∈ e.cells p ∧ e.target = x := by
  by_cases hc : c < p.size
  · rw [landings_eq, mem_foldl_modify Prod.fst Prod.snd _ (by rwa [Array.size_replicate]),
      getD_replicate_self, or_iff_left List.not_mem_nil, and_iff_right hc]
    constructor
    · rintro ⟨⟨d, t⟩, hs, rfl, rfl⟩
      obtain ⟨e, he, hs⟩ := List.mem_flatMap.1 hs
      obtain ⟨d', hd, heq⟩ := List.mem_map.1 hs
      obtain ⟨rfl, rfl⟩ := Prod.mk.inj heq
      exact ⟨e, he, hd, rfl⟩
    · rintro ⟨e, he, hcell, rfl⟩
      exact ⟨(c, e.target), List.mem_flatMap.2 ⟨e, he, List.mem_map_of_mem hcell⟩, rfl, rfl⟩
  · rw [getD_of_size_le (by rw [size_landings]; exact Nat.le_of_not_lt hc)]
    exact iff_of_false List.not_mem_nil fun h => hc h.1

/-- the states that a set leads to under a cell, ascending -/
def image (g : Graph) (p : Partition) (set : List Nat) (c : Nat) : List Nat :=
  Ascending.ofList ((landings p (g.edgesFrom set)).getD c [])

theorem mem_image (hp : p.Proper) (hf : p.FitsAll g) {set : List Nat} {c x : Nat} :
    x ∈ image g p set c ↔ c < p.size ∧ ∃ q ∈ set, ∃ e ∈ g.edges q,
      e.accepts (p.representative c) = true ∧ e.target = x := by
  rw [image, Ascending.mem_ofList, mem_landings]
  refine and_congr_right fun hc => ?_
  constructor
  · rintro ⟨e, he, hcells, hx⟩
    obtain ⟨q, hq, he⟩ := List.mem_flatMap.1 he
    exact ⟨q, hq, e, he, ((hp.mem_cells (hf q e he)).1 hcells).2, hx⟩
  · rintro ⟨q, hq, e, he, hacc, hx⟩
    exact ⟨e, List.mem_flatMap.2 ⟨q, hq, he⟩, (hp.mem_cells (hf q e he)).2 ⟨hc, hacc⟩, hx⟩

theorem image_eq_nil (hp : p.Proper) (hf : p.FitsAll g) {set : List Nat} {c : Nat}
    (hc : p.size ≤ c) : image g p set c = [] :=
  List.eq_nil_iff_forall_not_mem.2 fun _ hx =>
    Nat.not_lt_of_le hc ((mem_image hp hf).1 hx).1

def cellEdge (p : Partition) (c target : Nat) : Edge :=
  Edge.symbols (p.cell c).1 (p.cell c).2 target

theorem accepts_cellEdge (hp : p.Proper) {c target sym : Nat} (hc : c < p.size)
    (hsym : sym ≤ p.max) : (cellEdge p c target).accepts sym = true ↔ p.cellOf sym = c := by
  rw [← hp.mem_cell_iff hc hsym]
  simp [cellEdge, Edge.symbols, Edge.accepts]

structure IsSubset (g : Graph) (set : List Nat) : Prop where
  ne_nil : set ≠ []
  ascending : set.Pairwise (· < ·)
  lt_size : ∀ q ∈ set, q < g.size

theorem isSubset_image (hc : g.Closed) (hp : p.Proper) (hf : p.FitsAll g) {set : List Nat}
    {c : Nat} (hne : image g p set c ≠ []) : IsSubset g (image g p set c) where
  ne_nil := hne
  ascending := Ascending.pairwise_ofList_nat _
  lt_size := by
    intro x hx
    obtain ⟨-, q, -, e, he, -, rfl⟩ := (mem_image hp hf).1 hx
    exact hc q e he

namespace Subsets

variable {t : Subsets} {cells : Nat → List Nat}

/-- sets and names agree, and each state has the edges of the cells looked at so far -/
structure Sound (g : Graph) (p : Partition) (t : Subsets) (cells : Nat → List Nat) : Prop where
  size : t.graph.size = t.sets.size
  names : ∀ (set : List Nat) (id : Nat), t.names[set]? = some id ↔ t.sets[id]? = some set
  proper : ∀ (id : Nat) (set : List Nat), t.sets[id]? = some set → IsSubset g set
  accepting : ∀ (id : Nat) (set : List Nat), t.sets[id]? = some set →
    t.graph.isAccepting id = set.any g.isAccepting
  silent : ∀ (id : Nat) (set : List Nat), t.sets[id]? = some set → t.graph.isSilent id =
      set.all g.isSilent
  edges : ∀ (id : Nat) (set : List Nat), t.sets[id]? = some set → ∀ e, e ∈ t.graph.edges id ↔
    ∃ c ∈ cells id, ∃ id' : Nat, t.sets[id']? = some (image g p set c) ∧
      e = cellEdge p c id'
  known : ∀ (id : Nat) (set : List Nat), t.sets[id]? = some set → ∀ c ∈ cells id,
      image g p set c ≠ [] →
    ∃ id' : Nat, t.sets[id']? = some (image g p set c)
  fresh : ∀ id, t.sets.size ≤ id → cells id = []

/-- the waiting states have no edges yet; all others, besides those being worked on, have all.
`used` states have been taken from the agenda. -/
structure Agenda (p : Partition) (t : Subsets) (cells : Nat → List Nat) (busy : Nat → Prop)
    (used : Nat) : Prop where
  nodup : t.waiting.Nodup
  waits : ∀ id ∈ t.waiting, id < t.sets.size ∧ cells id = [] ∧ ¬ busy id
  finished : ∀ id < t.sets.size, id ∈ t.waiting ∨ busy id ∨ cells id = p.indices
  count : used + t.waiting.length = t.sets.size

/-- the sets of one value are those of another, and maybe more follow -/
def Extends (t t' : Subsets) : Prop :=
  ∀ (id : Nat) (set : List Nat), t.sets[id]? = some set → t'.sets[id]? = some set

theorem Extends.refl (t : Subsets) : Extends t t := fun _ _ h => h

theorem Extends.trans {t' t'' : Subsets} (h : Extends t t') (h' : Extends t' t'') :
    Extends t t'' := fun id set hs => h' id set (h id set hs)

/-! ## one more set -/

/-- the value with one more set -/
def added (g : Graph) (t : Subsets) (set : List Nat) : Subsets where
  sets := t.sets.push set
  names := t.names.insert set t.sets.size
  graph := { t.graph with states := t.graph.states.push (stateOf g set) }
  waiting := t.sets.size :: t.waiting

theorem intern_eq_added {set : List Nat} (h : t.names[set]? = none) :
    intern g t set = (t.sets.size, added g t set) := by
  simp [intern, h, added]

theorem getElem?_sets_added {set set' : List Nat} {id : Nat} :
    (added g t set).sets[id]? = some set' ↔
      t.sets[id]? = some set' ∨ id = t.sets.size ∧ set = set' := by
  show (t.sets.push set)[id]? = _ ↔ _
  rw [Array.getElem?_push]
  by_cases hid : id = t.sets.size
  · subst hid
    simp
  · simp [hid]

theorem extends_added (set : List Nat) : Extends t (added g t set) :=
  fun _ _ h => getElem?_sets_added.2 (.inl h)

theorem Sound.not_mem_sets (ht : Sound g p t cells) {set : List Nat} (h : t.names[set]? = none)
    (id : Nat) : t.sets[id]? ≠ some set := by
  intro hid
  rw [(ht.names set id).2 hid] at h
  exact Option.some_ne_none id h

theorem Sound.state_added (ht : Sound g p t cells) {set set' : List Nat} {id : Nat}
    (hid : t.sets[id]? = some set') : (added g t set).graph.state id = t.graph.state id := by
  obtain ⟨hlt, -⟩ := Array.getElem?_eq_some_iff.1 hid
  show Graph.state { t.graph with states := t.graph.states.push (stateOf g set) } id = _
  rw [Graph.state_push, ht.size, if_neg (Nat.ne_of_lt hlt)]

theorem Sound.state_added_last (ht : Sound g p t cells) {set : List Nat} :
    (added g t set).graph.state t.sets.size = stateOf g set := by
  show Graph.state { t.graph with states := t.graph.states.push (stateOf g set) } _ = _
  rw [Graph.state_push, ht.size, if_pos rfl]

theorem Sound.added (ht : Sound g p t cells) {set : List Nat} (hset : IsSubset g set)
    (h : t.names[set]? = none) : Sound g p (added g t set) cells where
  size := by
    show (t.graph.states.push _).size = (t.sets.push set).size
    rw [Array.size_push, Array.size_push]
    exact congrArg (· + 1) ht.size
  names := by
    intro set' id
    rw [getElem?_sets_added]
    show (t.names.insert set t.sets.size)[set']? = _ ↔ _
    rw [Std.HashMap.getElem?_insert]
    by_cases hs : set = set'
    · subst hs
      have hnot := ht.not_mem_sets h id
      simp [hnot, eq_comm]
    · simp [hs, ht.names]
  proper := by
    intro id set' hid
    rcases getElem?_sets_added.1 hid with hid | ⟨-, rfl⟩
    · exact ht.proper id set' hid
    · exact hset
  accepting := by
    intro id set' hid
    rcases getElem?_sets_added.1 hid with hid | ⟨rfl, rfl⟩
    · exact (congrArg State.accepting (ht.state_added hid)).trans (ht.accepting id set' hid)
    · exact congrArg State.accepting ht.state_added_last
  silent := by
    intro id set' hid
    rcases getElem?_sets_added.1 hid with hid | ⟨rfl, rfl⟩
    · exact (congrArg State.silent (ht.state_added hid)).trans (ht.silent id set' hid)
    · exact congrArg State.silent ht.state_added_last
  edges := by
    intro id set' hid e
    show e ∈ Graph.edges { t.graph with states := t.graph.states.push (stateOf g set) } id ↔ _
    rw [Graph.edges_push _ _ rfl]
    rcases getElem?_sets_added.1 hid with hid | ⟨rfl, rfl⟩
    · rw [ht.edges id set' hid]
      refine exists_congr fun c => and_congr_right fun hc => exists_congr fun id' =>
        and_congr_left fun _ => ?_
      rw [getElem?_sets_added]
      refine ⟨.inl, ?_⟩
      rintro (h' | ⟨-, himage⟩)
      · exact h'
      · -- the image of a cell looked at is not new
        have hne : image g p set' c ≠ [] := himage ▸ hset.ne_nil
        obtain ⟨id'', hknown⟩ := ht.known id set' hid c hc hne
        exact absurd (himage ▸ hknown) (ht.not_mem_sets h id'')
    · rw [ht.fresh _ (Nat.le_refl _), Graph.edges_of_size_le (Nat.le_of_eq ht.size)]
      simp
  known := by
    intro id set' hid c hc hne
    rcases getElem?_sets_added.1 hid with hid | ⟨rfl, rfl⟩
    · obtain ⟨id', hid'⟩ := ht.known id set' hid c hc hne
      exact ⟨id', extends_added set _ _ hid'⟩
    · rw [ht.fresh _ (Nat.le_refl _)] at hc
      exact absurd hc List.not_mem_nil
  fresh := by
    intro id hid
    have hsize : (Subsets.added g t set).sets.size = t.sets.size + 1 := Array.size_push set
    exact ht.fresh id (by omega)

theorem Agenda.added {busy : Nat → Prop} {used : Nat} (ha : Agenda p t cells busy used)
    (fresh : ∀ id, t.sets.size ≤ id → cells id = [] ∧ ¬ busy id) (set : List Nat) :
    Agenda p (added g t set) cells busy used where
  nodup := List.nodup_cons.2
    ⟨fun hmem => Nat.lt_irrefl _ (ha.waits _ hmem).1, ha.nodup⟩
  waits := by
    intro id hid
    have hsize : (Subsets.added g t set).sets.size = t.sets.size + 1 := Array.size_push set
    rw [hsize]
    rcases List.mem_cons.1 hid with rfl | hid
    · exact ⟨Nat.lt_add_one _, fresh _ (Nat.le_refl _)⟩
    · obtain ⟨hlt, hrest⟩ := ha.waits id hid
      exact ⟨Nat.lt_add_one_of_lt hlt, hrest⟩
  finished := by
    intro id hid
    have hsize : (Subsets.added g t set).sets.size = t.sets.size + 1 := Array.size_push set
    rw [hsize] at hid
    rcases Nat.lt_or_eq_of_le (Nat.le_of_lt_add_one hid) with hlt | rfl
    · rcases ha.finished id hlt with h | h
      · exact .inl (List.mem_cons_of_mem _ h)
      · exact .inr h
    · exact .inl List.mem_cons_self
  count := by
    have hsize : (Subsets.added g t set).sets.size = t.sets.size + 1 := Array.size_push set
    have hlen : (Subsets.added g t set).waiting.length = t.waiting.length + 1 := rfl
    have := ha.count
    omega

/-- what looking up the name of a set preserves -/
theorem Sound.intern (ht : Sound g p t cells) {set : List Nat} (hset : IsSubset g set)
    {busy : Nat → Prop} {used : Nat} (ha : Agenda p t cells busy used)
    (hbusy : ∀ id, busy id → id < t.sets.size) :
    Sound g p (intern g t set).2 cells ∧ Agenda p (intern g t set).2 cells busy used ∧
      Extends t (intern g t set).2 ∧
      (intern g t set).2.sets[(intern g t set).1]? = some set := by
  cases h : t.names[set]? with
  | some id =>
    rw [intern_of_known h]
    exact ⟨ht, ha, Extends.refl t, (ht.names set id).1 h⟩
  | none =>
    rw [intern_eq_added h]
    have fresh (id : Nat) (hid : t.sets.size ≤ id) : cells id = [] ∧ ¬ busy id :=
      ⟨ht.fresh id hid, fun hb => Nat.not_lt_of_le hid (hbusy id hb)⟩
    exact ⟨ht.added hset h, ha.added fresh set, extends_added set,
      getElem?_sets_added.2 (.inr ⟨rfl, rfl⟩)⟩

/-! ## one more edge -/

def joined (p : Partition) (t : Subsets) (id c target : Nat) : Subsets :=
  { t with graph := t.graph.addEdge id (cellEdge p c target) }

theorem link_of_nil {set : List Nat} {id c : Nat} (h : image g p set c = []) :
    link g p id (landings p (g.edgesFrom set)) t c = t := by
  rw [image] at h
  rw [link, h]

theorem link_of_ne_nil {set : List Nat} {id c : Nat} (h : image g p set c ≠ []) :
    link g p id (landings p (g.edgesFrom set)) t c =
      joined p (intern g t (image g p set c)).2 id c (intern g t (image g p set c)).1 := by
  unfold link
  split
  · next hnil => exact absurd hnil h
  · rfl

theorem Sound.unique (ht : Sound g p t cells) {set : List Nat} {id id' : Nat}
    (h : t.sets[id]? = some set) (h' : t.sets[id']? = some set) : id = id' :=
  Option.some.inj (((ht.names set id).2 h).symm.trans ((ht.names set id').2 h'))

theorem mem_looked {id c id' c' : Nat} :
    c' ∈ Function.update cells id (cells id ++ [c]) id' ↔ c' ∈ cells id' ∨ id' = id ∧ c' = c := by
  by_cases h : id' = id
  · subst h
    rw [Function.update_self, List.mem_append, List.mem_singleton, and_iff_right rfl]
  · rw [Function.update_of_ne h]
    exact (or_iff_left fun hid => h hid.1).symm

/-- a cell that the set leads nowhere under needs no edge -/
theorem Sound.skip (ht : Sound g p t cells) {set : List Nat} {id c : Nat}
    (hid : t.sets[id]? = some set) (hnil : image g p set c = []) :
    Sound g p t (Function.update cells id (cells id ++ [c])) where
  size := ht.size
  names := ht.names
  proper := ht.proper
  accepting := ht.accepting
  silent := ht.silent
  edges := by
    intro id' set' hid' e
    rw [ht.edges id' set' hid']
    constructor
    · rintro ⟨c', hc', h⟩
      exact ⟨c', mem_looked.2 (.inl hc'), h⟩
    · rintro ⟨c', hc', target, htarget, he⟩
      rcases mem_looked.1 hc' with hc' | ⟨rfl, rfl⟩
      · exact ⟨c', hc', target, htarget, he⟩
      · obtain rfl := Option.some.inj (hid.symm.trans hid')
        exact absurd hnil (ht.proper _ _ htarget).ne_nil
  known := by
    intro id' set' hid' c' hc' hne
    rcases mem_looked.1 hc' with hc' | ⟨rfl, rfl⟩
    · exact ht.known _ _ hid' _ hc' hne
    · obtain rfl := Option.some.inj (hid.symm.trans hid')
      exact absurd hnil hne
  fresh := by
    intro id' hid'
    obtain ⟨hlt, -⟩ := Array.getElem?_eq_some_iff.1 hid
    rw [Function.update_of_ne (Nat.ne_of_gt (Nat.lt_of_lt_of_le hlt hid'))]
    exact ht.fresh id' hid'

theorem Sound.lt_size (ht : Sound g p t cells) {set : List Nat} {id : Nat}
    (hid : t.sets[id]? = some set) : id < t.graph.size :=
  ht.size ▸ (Array.getElem?_eq_some_iff.1 hid).1

/-- one more edge leaves acceptance and silence as they are -/
theorem state_joined {id : Nat} (hid : id < t.graph.size) (c target q : Nat) :
    ((joined p t id c target).graph.state q).accepting = (t.graph.state q).accepting ∧
      ((joined p t id c target).graph.state q).silent = (t.graph.state q).silent := by
  show ((t.graph.addEdge id _).state q).accepting = _ ∧
    ((t.graph.addEdge id _).state q).silent = _
  by_cases hq : id = q
  · subst hq
    rw [Graph.addEdge, Graph.state_modify_self _ hid]
    exact ⟨rfl, rfl⟩
  · rw [Graph.addEdge, Graph.state_modify_ne _ hq]
    exact ⟨rfl, rfl⟩

theorem Sound.joined (ht : Sound g p t cells) {set : List Nat} {id c target : Nat}
    (hid : t.sets[id]? = some set) (htarget : t.sets[target]? = some (image g p set c)) :
    Sound g p (joined p t id c target) (Function.update cells id (cells id ++ [c])) where
  size := (Graph.size_addEdge _ _ _).trans ht.size
  names := ht.names
  proper := ht.proper
  accepting := fun q set' hq =>
    (state_joined (ht.lt_size hid) c target q).1.trans (ht.accepting q set' hq)
  silent := fun q set' hq =>
    (state_joined (ht.lt_size hid) c target q).2.trans (ht.silent q set' hq)
  edges := by
    intro q set' hq e
    show e ∈ (t.graph.addEdge id (cellEdge p c target)).edges q ↔ ∃ c' ∈ _, ∃ id' : Nat,
      t.sets[id']? = _ ∧ _
    by_cases heq : q = id
    · subst heq
      obtain rfl := Option.some.inj (hid.symm.trans hq)
      rw [Graph.edges_addEdge_self _ (ht.lt_size hid), Function.update_self, List.mem_append,
        ht.edges q set hid, List.mem_singleton]
      constructor
      · rintro (⟨c', hc', h⟩ | rfl)
        · exact ⟨c', List.mem_append_left _ hc', h⟩
        · exact ⟨c, List.mem_append_right _ (List.mem_singleton_self c), target, htarget, rfl⟩
      · rintro ⟨c', hc', target', htarget', he⟩
        rcases List.mem_append.1 hc' with hc' | hc'
        · exact .inl ⟨c', hc', target', htarget', he⟩
        · obtain rfl := List.mem_singleton.1 hc'
          rw [ht.unique htarget htarget']
          exact .inr he
    · rw [Graph.edges_addEdge_ne _ (fun h => heq h.symm), Function.update_of_ne heq,
        ht.edges q set' hq]
  known := by
    intro q set' hq c' hc' hne
    rcases mem_looked.1 hc' with hc' | ⟨rfl, rfl⟩
    · exact ht.known _ _ hq _ hc' hne
    · obtain rfl := Option.some.inj (hid.symm.trans hq)
      exact ⟨target, htarget⟩
  fresh := by
    intro q hq
    have hlt := ht.size ▸ ht.lt_size hid
    rw [Function.update_of_ne (Nat.ne_of_gt (Nat.lt_of_lt_of_le hlt hq))]
    exact ht.fresh q hq

theorem Agenda.update {id : Nat} {used : Nat} (ha : Agenda p t cells (· = id) used)
    (cs : List Nat) : Agenda p t (Function.update cells id cs) (· = id) used where
  nodup := ha.nodup
  waits := by
    intro q hq
    obtain ⟨hlt, hnil, hne⟩ := ha.waits q hq
    rw [Function.update_of_ne hne]
    exact ⟨hlt, hnil, hne⟩
  finished := by
    intro q hq
    by_cases heq : q = id
    · exact .inr (.inl heq)
    · rw [Function.update_of_ne heq]
      exact ha.finished q hq
  count := ha.count

section
variable (hc : g.Closed) (hp : p.Proper) (hf : p.FitsAll g)
include hc hp hf

/-- what looking at one cell preserves -/
theorem Sound.link (ht : Sound g p t cells) {set : List Nat} {id used : Nat}
    (hid : t.sets[id]? = some set) (ha : Agenda p t cells (· = id) used) (c : Nat) :
    Sound g p (link g p id (landings p (g.edgesFrom set)) t c)
        (Function.update cells id (cells id ++ [c])) ∧
      Agenda p (link g p id (landings p (g.edgesFrom set)) t c)
        (Function.update cells id (cells id ++ [c])) (· = id) used ∧
      Extends t (link g p id (landings p (g.edgesFrom set)) t c) := by
  by_cases hnil : image g p set c = []
  · rw [link_of_nil hnil]
    exact ⟨ht.skip hid hnil, ha.update _, Extends.refl t⟩
  · rw [link_of_ne_nil hnil]
    have hbusy : ∀ q, q = id → q < t.sets.size := fun q hq =>
      hq ▸ (Array.getElem?_eq_some_iff.1 hid).1
    obtain ⟨ht', ha', hext, htarget⟩ := ht.intern (isSubset_image hc hp hf hnil) ha hbusy
    have ha'' := ha'.update (cells id ++ [c])
    exact ⟨ht'.joined (hext id set hid) htarget,
      ⟨ha''.nodup, ha''.waits, ha''.finished, ha''.count⟩, hext⟩

theorem Sound.links (ht : Sound g p t cells) {set : List Nat} {id used : Nat}
    (hid : t.sets[id]? = some set) (ha : Agenda p t cells (· = id) used) (cs : List Nat) :
    Sound g p (cs.foldl (Subsets.link g p id (landings p (g.edgesFrom set))) t)
        (Function.update cells id (cells id ++ cs)) ∧
      Agenda p (cs.foldl (Subsets.link g p id (landings p (g.edgesFrom set))) t)
        (Function.update cells id (cells id ++ cs)) (· = id) used ∧
      Extends t (cs.foldl (Subsets.link g p id (landings p (g.edgesFrom set))) t) := by
  induction cs generalizing t cells with
  | nil =>
    rw [List.append_nil, Function.update_eq_self]
    exact ⟨ht, ha, Extends.refl t⟩
  | cons c cs ih =>
    obtain ⟨ht', ha', hext⟩ := ht.link hc hp hf hid ha c
    obtain ⟨ht'', ha'', hext'⟩ := ih ht' (hext id set hid) ha'
    rw [Function.update_self, Function.update_idem, List.append_assoc] at ht'' ha''
    exact ⟨ht'', ha'', hext.trans hext'⟩

omit hc hp hf in
theorem Sound.taken (ht : Sound g p t cells) (rest : List Nat) :
    Sound g p { t with waiting := rest } cells :=
  ⟨ht.size, ht.names, ht.proper, ht.accepting, ht.silent, ht.edges, ht.known, ht.fresh⟩

omit hc hp hf in
/-- a state taken from the agenda is the one being worked on -/
theorem Agenda.taken {rest : List Nat} {id used : Nat}
    (ha : Agenda p t cells (fun _ => False) used) (hwait : t.waiting = id :: rest) :
    Agenda p { t with waiting := rest } cells (· = id) (used + 1) := by
  obtain ⟨hnot, hrest⟩ := List.nodup_cons.1 (hwait ▸ ha.nodup : (id :: rest).Nodup)
  refine ⟨hrest, ?_, ?_, ?_⟩
  · intro q hq
    obtain ⟨hqlt, hqnil, -⟩ := ha.waits q (hwait ▸ List.mem_cons_of_mem id hq)
    exact ⟨hqlt, hqnil, fun h => hnot (h ▸ hq)⟩
  · intro q hq
    rcases ha.finished q hq with h | h | h
    · rw [hwait] at h
      rcases List.mem_cons.1 h with rfl | h
      · exact .inr (.inl rfl)
      · exact .inl h
    · exact h.elim
    · exact .inr (.inr h)
  · have hcount := ha.count
    rw [hwait, List.length_cons] at hcount
    show used + 1 + rest.length = t.sets.size
    omega

omit hc hp hf in
theorem expand_eq {set rest : List Nat} {id : Nat} (hid : t.sets[id]? = some set) :
    expand g p { t with waiting := rest } id =
      p.indices.foldl (Subsets.link g p id (landings p (g.edgesFrom set)))
        { t with waiting := rest } := by
  have hset : t.sets.getD id [] = set := by
    rw [Array.getD_eq_getD_getElem?, hid]
    rfl
  rw [expand]
  show p.indices.foldl (Subsets.link g p id (landings p (g.edgesFrom (t.sets.getD id [])))) _ = _
  rw [hset]

/-- the state taken from the agenda has all its edges afterwards -/
theorem sound_expand (ht : Sound g p t cells) {set rest : List Nat} {id used : Nat}
    (hid : t.sets[id]? = some set) (hwait : t.waiting = id :: rest)
    (ha : Agenda p t cells (fun _ => False) used) :
    ∃ cells', Sound g p (expand g p { t with waiting := rest } id) cells' ∧
      Agenda p (expand g p { t with waiting := rest } id) cells' (fun _ => False) (used + 1) ∧
      Extends t (expand g p { t with waiting := rest } id) := by
  obtain ⟨-, hnil, -⟩ := ha.waits id (hwait ▸ List.mem_cons_self)
  obtain ⟨ht', ha', hext⟩ := (ht.taken rest).links hc hp hf hid (ha.taken hwait) p.indices
  rw [expand_eq hid]
  refine ⟨_, ht', ⟨ha'.nodup, ?_, ?_, ha'.count⟩, hext⟩
  · intro q hq
    obtain ⟨hqlt, hqnil, -⟩ := ha'.waits q hq
    exact ⟨hqlt, hqnil, fun h => h⟩
  · intro q hq
    rcases ha'.finished q hq with h | rfl | h
    · exact .inl h
    · refine .inr (.inr ?_)
      rw [Function.update_self, hnil, List.nil_append]
    · exact .inr (.inr h)

end

/-! ## all rounds -/

/-- different sets of states, as ascending lists, are no more than there are subsets -/
theorem Sound.size_sets_le (ht : Sound g p t cells) : t.sets.size ≤ 2 ^ g.size := by
  have hnodup : t.sets.toList.Nodup := by
    rw [List.nodup_iff_getElem?_ne_getElem?]
    intro i j hij hj heq
    rw [Array.getElem?_toList, Array.getElem?_toList] at heq
    rw [Array.length_toList] at hj
    have hsome : t.sets[j]? = some t.sets[j] := Array.getElem?_eq_getElem hj
    exact Nat.ne_of_lt hij (ht.unique (heq.trans hsome) hsome)
  have hset (l : List Nat) (hl : l ∈ t.sets.toList) : IsSubset g l := by
    obtain ⟨i, hi, rfl⟩ := Array.getElem_of_mem (Array.mem_toList_iff.1 hl)
    exact ht.proper i _ (Array.getElem?_eq_getElem hi)
  have hinj : ∀ l ∈ t.sets.toList, ∀ m ∈ t.sets.toList, l.toFinset = m.toFinset → l = m := by
    intro l hl m hm heq
    refine (hset l hl).ascending.eq_of_mem_iff (hset m hm).ascending fun x => ?_
    rw [← List.mem_toFinset, heq, List.mem_toFinset]
  have hsub : (t.sets.toList.map List.toFinset).toFinset ⊆ (Finset.range g.size).powerset := by
    intro s hs
    obtain ⟨l, hl, rfl⟩ := List.mem_map.1 (List.mem_toFinset.1 hs)
    refine Finset.mem_powerset.2 fun q hq => Finset.mem_range.2 ?_
    exact (hset l hl).lt_size q (List.mem_toFinset.1 hq)
  have hcard := Finset.card_le_card hsub
  rw [List.toFinset_card_of_nodup (hnodup.map_on hinj), Finset.card_powerset, Finset.card_range,
    List.length_map, Array.length_toList] at hcard
  exact hcard

theorem Agenda.finished_of_nil {used : Nat} (ha : Agenda p t cells (fun _ => False) used)
    (hnil : t.waiting = []) : ∀ id < t.sets.size, cells id = p.indices := by
  intro id hid
  rcases ha.finished id hid with h | h | h
  · exact absurd (hnil ▸ h) List.not_mem_nil
  · exact h.elim
  · exact h

section
variable (hc : g.Closed) (hp : p.Proper) (hf : p.FitsAll g)
include hc hp hf

theorem sound_run (rounds used : Nat) (hrounds : 2 ^ g.size ≤ used + rounds)
    (ht : Sound g p t cells) (ha : Agenda p t cells (fun _ => False) used) :
    ∃ cells', Sound g p (run g p rounds t) cells' ∧
      (∀ id < (run g p rounds t).sets.size, cells' id = p.indices) ∧
      Extends t (run g p rounds t) ∧ (run g p rounds t).waiting = [] := by
  induction rounds generalizing t cells used with
  | zero =>
    have hle := ht.size_sets_le
    have hcount := ha.count
    have hnil : t.waiting = [] := List.eq_nil_of_length_eq_zero (by omega)
    exact ⟨cells, ht, ha.finished_of_nil hnil, Extends.refl t, hnil⟩
  | succ rounds ih =>
    unfold run
    split
    · next hnil => exact ⟨cells, ht, ha.finished_of_nil hnil, Extends.refl t, hnil⟩
    · next id rest hwait =>
      obtain ⟨hlt, -, -⟩ := ha.waits id (hwait ▸ List.mem_cons_self)
      obtain ⟨cells', ht', ha', hext⟩ :=
        sound_expand hc hp hf ht (Array.getElem?_eq_getElem hlt) hwait ha
      obtain ⟨cells'', ht'', hall, hext', hdone⟩ := ih (used + 1) (by omega) ht' ha'
      exact ⟨cells'', ht'', hall, hext.trans hext', hdone⟩

end

end Subsets

/-! ## the finished construction -/

/-- the states of `d` stand for the sets of states of `g` in `sets`, each for another, and under
each cell a state leads to the set that its own set leads to, if there is any -/
structure Determinizes (g : Graph) (p : Partition) (d : Graph) (sets : Array (List Nat)) :
    Prop where
  size : d.size = sets.size
  start : sets[d.start]? = some [g.start]
  unique : ∀ (set : List Nat) (id id' : Nat), sets[id]? = some set → sets[id']? = some set →
    id = id'
  proper : ∀ (id : Nat) (set : List Nat), sets[id]? = some set → IsSubset g set
  accepting : ∀ (id : Nat) (set : List Nat), sets[id]? = some set →
    d.isAccepting id = set.any g.isAccepting
  silent : ∀ (id : Nat) (set : List Nat), sets[id]? = some set →
    d.isSilent id = set.all g.isSilent
  edges : ∀ (id : Nat) (set : List Nat), sets[id]? = some set → ∀ e, e ∈ d.edges id ↔
    ∃ c < p.size, ∃ id' : Nat, sets[id']? = some (image g p set c) ∧ e = cellEdge p c id'
  known : ∀ (id : Nat) (set : List Nat), sets[id]? = some set → ∀ c,
    image g p set c ≠ [] → ∃ id' : Nat, sets[id']? = some (image g p set c)

namespace Subsets

theorem sound_empty (g : Graph) (p : Partition) : Sound g p empty fun _ => [] where
  size := rfl
  names := by
    intro set id
    show (∅ : Std.HashMap (List Nat) Nat)[set]? = _ ↔ (#[] : Array (List Nat))[id]? = _
    simp
  proper := fun id set h => absurd h (by simp [empty])
  accepting := fun id set h => absurd h (by simp [empty])
  silent := fun id set h => absurd h (by simp [empty])
  edges := fun id set h => absurd h (by simp [empty])
  known := fun id set h => absurd h (by simp [empty])
  fresh := fun _ _ => rfl

theorem agenda_empty (p : Partition) : Agenda p empty (fun _ => []) (fun _ => False) 0 where
  nodup := List.nodup_nil
  waits := fun _ h => absurd h List.not_mem_nil
  finished := fun id h => absurd h (Nat.not_lt_zero id)
  count := rfl

end Subsets

/-- the sets found from the start on, with all their edges -/
def Subsets.finished (g : Graph) (p : Partition) : Subsets :=
  Subsets.run g p (2 ^ g.size) (Subsets.intern g Subsets.empty [g.start]).2

theorem determinize_eq (hs : g.start < g.size) :
    g.determinize p = (Subsets.finished g p).graph.withStart
      (Subsets.intern g Subsets.empty [g.start]).1 := by
  have hempty : g.isEmpty = false := by
    rw [Graph.isEmpty, beq_eq_false_iff_ne]
    omega
  rw [Graph.determinize, hempty]
  rfl

section
variable (hc : g.Closed) (hs : g.start < g.size) (hp : p.Proper) (hf : p.FitsAll g)
include hc hs hp hf

/-- all sets are found, and none is left to wait -/
theorem determinizes_finished :
    Determinizes g p (g.determinize p) (Subsets.finished g p).sets ∧
      (Subsets.finished g p).waiting = [] := by
  have hset : IsSubset g [g.start] :=
    ⟨List.cons_ne_nil _ _, List.pairwise_singleton _ _, fun q hq => List.mem_singleton.1 hq ▸ hs⟩
  obtain ⟨ht, ha, -, hstart⟩ := (Subsets.sound_empty g p).intern hset (Subsets.agenda_empty p)
    fun _ h => h.elim
  obtain ⟨cells, ht', hall, hext, hdone⟩ :=
    Subsets.sound_run hc hp hf (2 ^ g.size) 0 (by omega) ht ha
  refine ⟨?_, hdone⟩
  rw [determinize_eq hs]
  refine ⟨ht'.size, hext _ _ hstart, fun _ _ _ => ht'.unique, ht'.proper, ht'.accepting,
    ht'.silent, ?_, ?_⟩
  · intro id set hid e
    have hcells := hall id (Array.getElem?_eq_some_iff.1 hid).1
    show e ∈ (Subsets.run g p _ _).graph.edges id ↔ _
    rw [ht'.edges id set hid, hcells, Partition.indices]
    simp only [List.mem_range]
    rfl
  · intro id set hid c hne
    have hcells := hall id (Array.getElem?_eq_some_iff.1 hid).1
    refine ht'.known id set hid c ?_ hne
    rw [hcells, Partition.indices, List.mem_range]
    by_contra hc'
    exact hne (image_eq_nil hp hf (Nat.le_of_not_lt hc'))

theorem determinizes_determinize : ∃ sets, Determinizes g p (g.determinize p) sets :=
  ⟨_, (determinizes_finished hc hs hp hf).1⟩

end

end SpanSearch
