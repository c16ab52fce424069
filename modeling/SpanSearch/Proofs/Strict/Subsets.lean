import SpanSearch.Proofs.Determinizing
import SpanSearch.Proofs.Strict.Cells

/-!
# A strict subset construction

The states that a set leads to are collected in one sparse set, which is cleared for every cell.

* `collect`, `collect_eq`       the states that a set leads to under a symbol
* `intern`, `link`, `expand`    one set, one edge, all edges of a state
* `determinize`
* `determinize_eq`              all of this keeps to its arrays
-/

namespace SpanSearch.Strict

open Subsets (Sound Agenda Extends)

/-! ## the construction -/

/-- the states that a set leads to under a symbol -/
def collect (g : Graph) (set : List Nat) (sym : Nat) (s : SparseSet) : Option SparseSet := do
  let states ← set.mapM fun q => g.states[q]?
  let taken := (states.flatMap State.edges).filter fun e => e.accepts sym
  (taken.map Edge.target).foldlM insert s.clear

/-- the name of a set; a new state is added first, and gets its flags then -/
def intern (g : Graph) (t : Subsets) (set : List Nat) : Option (Nat × Subsets) :=
  match t.names[set]? with
  | some id => some (id, t)
  | none => do
    let members ← set.mapM fun q => g.states[q]?
    let id := t.graph.size
    let states ← write (t.graph.states.push {}) id
      { accepting := members.any State.accepting, silent := members.all State.silent }
    return (id,
      { sets := t.sets.push set
        names := t.names.insert set id
        graph := { t.graph with states := states }
        waiting := id :: t.waiting })

def link (g : Graph) (p : Partition) (id : Nat) (now : SparseSet × Subsets) (c : Nat) :
    Option (SparseSet × Subsets) := do
  let set ← now.2.sets[id]?
  let s ← collect g set (← p.starts[c]?) now.1
  if s.isEmpty then return (s, now.2)
  else
    let target ← intern g now.2 (Ascending.ofList s.toList)
    let bounds ← cell p c
    let states ← update target.2.graph.states id fun q =>
      { q with edges := q.edges ++ [Edge.symbols bounds.1 bounds.2 target.1] }
    return (s, { target.2 with graph := { target.2.graph with states := states } })

def expand (g : Graph) (p : Partition) (now : SparseSet × Subsets) (id : Nat) :
    Option (SparseSet × Subsets) := p.indices.foldlM (link g p id) now

/-- the edges of the waiting states; there have to be rounds for all of them -/
def develop (g : Graph) (p : Partition) : (rounds : Nat) → SparseSet × Subsets →
    Option (SparseSet × Subsets)
  | 0, now => if now.2.waiting.isEmpty then some now else none
  | rounds + 1, now =>
    match now.2.waiting with
    | [] => some now
    | id :: rest => do develop g p rounds (← expand g p (now.1, { now.2 with waiting := rest }) id)

def determinize (g : Graph) (p : Partition) : Option Graph :=
  if g.isEmpty then some Graph.empty
  else do
    let s ← insert (SparseSet.empty g.size) g.start
    let start ← intern g Subsets.empty (Ascending.ofList s.toList)
    let done ← develop g p (Nat.pow 2 g.size) (s, start.2)
    return done.2.graph.withStart start.1

/-! ## one set -/

section

variable {g : Graph} {p : Partition} {s : SparseSet} {t : Subsets} {set : List Nat}
  {capacity sym id c used : Nat} {cells : Nat → List Nat}

theorem agrees_clear (hs : s.Agrees capacity) : s.clear.Agrees capacity where
  dense := hs.dense
  sparse := hs.sparse
  size_le := Nat.zero_le _
  back i hi := absurd hi (Nat.not_lt_zero i)

theorem insertAll_eq (hs : s.Agrees capacity) {ids : List Nat} (hids : ∀ x ∈ ids, x < capacity) :
    ∃ s', ids.foldlM insert s = some s' ∧ s'.Agrees capacity ∧
      ∀ x, s'.contains x = true ↔ x ∈ ids ∨ s.contains x = true := by
  induction ids generalizing s with
  | nil => exact ⟨s, rfl, hs, fun x => by simp⟩
  | cons y ids ih =>
    have hy := hids y List.mem_cons_self
    obtain ⟨s', hfold, hs', hmem⟩ :=
      ih (hs.insert hy) fun x hx => hids x (List.mem_cons_of_mem y hx)
    refine ⟨s', ?_, hs', fun x => ?_⟩
    · rw [List.foldlM_cons, bind_eq (insert_eq hs hy), hfold]
    · rw [hmem, SparseSet.contains_insert hs hy, List.mem_cons, or_left_comm, or_assoc]

/-- what has been collected is what the set leads to, in any order -/
theorem collect_eq (hc : g.Closed) (hp : p.Proper) (hf : p.FitsAll g) (hs : s.Agrees g.size)
    (hset : ∀ q ∈ set, q < g.size) (hcell : c < p.size) :
    ∃ s', collect g set (p.representative c) s = some s' ∧ s'.Agrees g.size ∧
      Ascending.ofList s'.toList = image g p set c := by
  have htargets : ∀ x ∈ (((set.map g.state).flatMap State.edges).filter fun e =>
      e.accepts (p.representative c)).map Edge.target, x < g.size := by
    intro x hx
    obtain ⟨e, he, rfl⟩ := List.mem_map.1 hx
    obtain ⟨q, hq, he⟩ := List.mem_flatMap.1 (List.mem_filter.1 he).1
    obtain ⟨id, -, rfl⟩ := List.mem_map.1 hq
    exact hc id e he
  obtain ⟨s', hfold, hs', hmem⟩ := insertAll_eq (agrees_clear hs) htargets
  refine ⟨s', ?_, hs', Ascending.ofList_eq_of_mem_iff fun x => ?_⟩
  · rw [collect, bind_eq (mapM_state_eq hset)]
    exact hfold
  · rw [SparseSet.mem_toList hs', hmem, SparseSet.contains_clear, or_iff_left Bool.false_ne_true]
    refine Iff.trans ?_ ((mem_image hp hf).symm.trans (Ascending.mem_ofList x _))
    simp only [List.mem_map, List.mem_filter, List.mem_flatMap, hcell, true_and]
    constructor
    · rintro ⟨e, ⟨⟨q, ⟨id, hid, rfl⟩, he⟩, hacc⟩, rfl⟩
      exact ⟨id, hid, e, he, hacc, rfl⟩
    · rintro ⟨id, hid, e, he, hacc, rfl⟩
      exact ⟨e, ⟨⟨g.state id, ⟨id, hid, rfl⟩, he⟩, hacc⟩, rfl⟩

theorem isEmpty_iff (hs : s.Agrees capacity) :
    s.isEmpty = true ↔ Ascending.ofList s.toList = [] := by
  have hnil : s.toList = [] ↔ Ascending.ofList s.toList = [] := by
    simp only [List.eq_nil_iff_forall_not_mem, Ascending.mem_ofList]
  rw [← hnil, ← List.length_eq_zero_iff, SparseSet.length_toList hs, SparseSet.isEmpty, beq_iff_eq]

theorem intern_eq (ht : Sound g p t cells) (hset : IsSubset g set) :
    intern g t set = some (Subsets.intern g t set) := by
  unfold intern Subsets.intern
  cases h : t.names[set]? with
  | some id => rfl
  | none =>
    have hpush (x : State) :
        write (t.graph.states.push {}) t.graph.size x = some (t.graph.states.push x) := by
      rw [write_eq (by simp [Graph.size]), Graph.size]
      refine congrArg some (Array.ext_getElem? fun i => ?_)
      rw [Array.getElem?_setIfInBounds, Array.getElem?_push, Array.getElem?_push]
      split <;> split <;> simp_all
    rw [bind_eq (mapM_state_eq hset.lt_size), List.any_map, List.all_map, bind_eq (hpush _),
      ht.size]
    rfl

/-! ## the edges of one state -/

section

variable (hc : g.Closed) (hp : p.Proper) (hf : p.FitsAll g)
include hc hp hf

theorem link_eq (hs : s.Agrees g.size) (ht : Sound g p t cells) (hid : t.sets[id]? = some set)
    (ha : Agenda p t cells (· = id) used) (hcell : c < p.size) :
    ∃ s', link g p id (s, t) c =
        some (s', Subsets.link g p id (landings p (g.edgesFrom set)) t c) ∧
      s'.Agrees g.size := by
  obtain ⟨s', hcollect, hs', himage⟩ :=
    collect_eq hc hp hf hs (ht.proper id set hid).lt_size hcell
  refine ⟨s', ?_, hs'⟩
  have hempty := isEmpty_iff hs'
  rw [himage] at hempty
  rw [link, bind_eq hid, bind_eq (representative_eq hcell), bind_eq hcollect]
  by_cases hnil : image g p set c = []
  · rw [if_pos (hempty.2 hnil), Subsets.link_of_nil hnil]
    rfl
  · have hset := isSubset_image hc hp hf hnil
    have hbusy : ∀ q, q = id → q < t.sets.size := fun q hq =>
      hq ▸ (Array.getElem?_eq_some_iff.1 hid).1
    obtain ⟨ht', -, hext, -⟩ := ht.intern hset ha hbusy
    have hlt : id < (Subsets.intern g t (image g p set c)).2.graph.size :=
      ht'.size.symm ▸ (Array.getElem?_eq_some_iff.1 (hext id set hid)).1
    rw [if_neg (mt hempty.1 hnil), himage, Subsets.link_of_ne_nil hnil,
      bind_eq (intern_eq ht hset), bind_eq (cell_eq hcell), bind_eq (update_eq hlt _)]
    rfl

theorem links_eq (hs : s.Agrees g.size) (ht : Sound g p t cells) (hid : t.sets[id]? = some set)
    (ha : Agenda p t cells (· = id) used) {cs : List Nat} (hcs : ∀ c ∈ cs, c < p.size) :
    ∃ s', cs.foldlM (link g p id) (s, t) =
        some (s', cs.foldl (Subsets.link g p id (landings p (g.edgesFrom set))) t) ∧
      s'.Agrees g.size := by
  induction cs generalizing s t cells with
  | nil => exact ⟨s, rfl, hs⟩
  | cons c cs ih =>
    obtain ⟨s', hlink, hs'⟩ := link_eq hc hp hf hs ht hid ha (hcs c List.mem_cons_self)
    obtain ⟨ht', ha', hext⟩ := ht.link hc hp hf hid ha c
    rw [List.foldlM_cons, bind_eq hlink]
    exact ih hs' ht' (hext id set hid) ha' fun d hd => hcs d (List.mem_cons_of_mem c hd)

/-! ## all rounds -/

theorem develop_eq {rounds : Nat} (hrounds : 2 ^ g.size ≤ used + rounds) (hs : s.Agrees g.size)
    (ht : Sound g p t cells) (ha : Agenda p t cells (fun _ => False) used) :
    ∃ s', develop g p rounds (s, t) = some (s', Subsets.run g p rounds t) := by
  induction rounds generalizing s t cells used with
  | zero =>
    have hle := ht.size_sets_le
    have hcount := ha.count
    have hnil : t.waiting = [] := List.eq_nil_of_length_eq_zero (by omega)
    refine ⟨s, ?_⟩
    rw [develop, hnil]
    rfl
  | succ rounds ih =>
    unfold develop Subsets.run
    cases hwait : t.waiting with
    | nil => exact ⟨s, rfl⟩
    | cons id rest =>
      obtain ⟨hlt, -, -⟩ := ha.waits id (hwait ▸ List.mem_cons_self)
      have hid := Array.getElem?_eq_getElem hlt
      have hcells : ∀ c ∈ p.indices, c < p.size := fun c hc => List.mem_range.1 hc
      obtain ⟨s', hlinks, hs'⟩ :=
        links_eq hc hp hf hs (ht.taken rest) hid (ha.taken hwait) hcells
      rw [← Subsets.expand_eq hid] at hlinks
      obtain ⟨cells', ht', ha', -⟩ := Subsets.sound_expand hc hp hf ht hid hwait ha
      dsimp only
      rw [expand, bind_eq hlinks]
      exact ih (by omega) hs' ht' ha'

end

/-- the subset construction of a graph for cells that no range straddles -/
theorem determinize_eq (hg : g.WellFormed) (hp : p.Proper) (hf : p.FitsAll g) :
    determinize g p = some (g.determinize p) := by
  by_cases hempty : g.isEmpty = true
  · rw [determinize, Graph.determinize, if_pos hempty, if_pos hempty]
  · have hs := hg.start_lt (Bool.eq_false_iff.2 hempty)
    have hset : IsSubset g [g.start] :=
      ⟨List.cons_ne_nil _ _, List.pairwise_singleton _ _, fun q hq => List.mem_singleton.1 hq ▸ hs⟩
    have hagrees := SparseSet.agrees_empty g.size
    have hlist :
    Ascending.ofList ((SparseSet.empty g.size).insert g.start).2.toList = [g.start] := by
      have hroom : (SparseSet.empty g.size).size < (SparseSet.empty g.size).dense.size :=
        hagrees.dense.symm ▸ Nat.zero_lt_of_lt hs
      rw [SparseSet.toList_insert_of_not_contains (SparseSet.contains_empty _ _) hroom,
        SparseSet.toList_empty, List.nil_append, Ascending.ofList, List.mergeSort_singleton,
        Ascending.spread_singleton]
    have hempty' := Subsets.sound_empty g p
    obtain ⟨ht, ha, -⟩ := hempty'.intern hset (Subsets.agenda_empty p) fun _ h => h.elim
    obtain ⟨s', hdevelop⟩ :=
      develop_eq hg.closed hp hf (Nat.le_add_left _ 0) (hagrees.insert hs) ht ha
    rw [determinize, if_neg hempty, bind_eq (insert_eq hagrees hs), hlist,
      bind_eq (intern_eq hempty' hset), SpanSearch.determinize_eq hs]
    exact bind_eq hdevelop _

end

end SpanSearch.Strict
