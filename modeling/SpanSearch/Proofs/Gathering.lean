import Mathlib.Data.Set.Function
import SpanSearch.Proofs.Totalizing

/-!
# The states of a subset construction are the sets that words lead to

The sets come from the start one image after another, so each of them is what some word leads
to.  A state gets its edges when it is taken from those that wait, cell by cell, so that it has
at most one under each.

* `Subsets.EdgesInOrder`   the edges so far lie under different cells, the sets are of one kind
* `EdgesInOrder.link`, `EdgesInOrder.expand`   one edge, all edges of one state
* `EdgesInOrder.run`       the edges of all states
* `Determinizes.leads_iff` where a word leads: to the set of its states, unless that is empty
* `Graph.Gathers`          what the states of the result stand for
* `determinize_gathers`
-/

namespace SpanSearch

variable {g d : Graph} {p : Partition} {sets : Array (List Nat)}

namespace Subsets

variable {P : List Nat → Prop} {t : Subsets} {cells : Nat → List Nat}

/-- The edges of a state lie, in order, under some of the cells looked at so far, and a state
that waits has none.  Every set found satisfies `P`. -/
structure EdgesInOrder (p : Partition) (P : List Nat → Prop) (t : Subsets)
    (cells : Nat → List Nat) : Prop where
  size : t.graph.size = t.sets.size
  nodup : t.waiting.Nodup
  waits : ∀ id ∈ t.waiting, id < t.sets.size ∧ t.graph.edges id = []
  ranges : ∀ id, ((t.graph.edges id).map Edge.range?).Sublist
    ((cells id).map fun c => some (p.cell c))
  found : ∀ set ∈ t.sets, P set

theorem edgesInOrder_empty (p : Partition) (P : List Nat → Prop) (cells : Nat → List Nat) :
    EdgesInOrder p P empty cells where
  size := rfl
  nodup := List.nodup_nil
  waits := fun _ h => absurd h List.not_mem_nil
  ranges := by
    intro id
    have hnone : empty.graph.edges id = [] := Graph.edges_of_size_le (Nat.zero_le id)
    rw [hnone]
    exact List.nil_sublist _
  found := by
    intro set hset
    simp [empty] at hset

/-! ## one more set -/

theorem edges_added (t : Subsets) (set : List Nat) (id : Nat) :
    (added g t set).graph.edges id = t.graph.edges id :=
  Graph.edges_push t.graph (stateOf g set) rfl id

theorem EdgesInOrder.added (ht : EdgesInOrder p P t cells) {set : List Nat} (hset : P set) :
    EdgesInOrder p P (added g t set) cells where
  size := by
    show (t.graph.states.push _).size = (t.sets.push set).size
    rw [Array.size_push, Array.size_push]
    exact congrArg (· + 1) ht.size
  nodup := by
    apply List.nodup_cons.2
    exact ⟨fun hmem => Nat.lt_irrefl _ (ht.waits _ hmem).1, ht.nodup⟩
  waits := by
    intro id hid
    show id < (t.sets.push set).size ∧ _
    rw [Array.size_push, edges_added]
    rcases List.mem_cons.1 hid with rfl | hid
    · exact ⟨Nat.lt_add_one _, Graph.edges_of_size_le (Nat.le_of_eq ht.size)⟩
    · obtain ⟨hlt, hnil⟩ := ht.waits id hid
      exact ⟨Nat.lt_add_one_of_lt hlt, hnil⟩
  ranges := by
    intro id
    rw [edges_added]
    exact ht.ranges id
  found := by
    intro set' hset'
    rcases Array.mem_push.1 hset' with hold | rfl
    · exact ht.found set' hold
    · exact hset

theorem EdgesInOrder.intern (ht : EdgesInOrder p P t cells) {set : List Nat} (hset : P set) :
    EdgesInOrder p P (intern g t set).2 cells ∧ t.sets.size ≤ (intern g t set).2.sets.size ∧
      ∀ id < t.sets.size, id ∉ t.waiting → id ∉ (intern g t set).2.waiting := by
  cases h : t.names[set]? with
  | some id =>
    rw [intern_of_known h]
    exact ⟨ht, Nat.le_refl _, fun _ _ hnot => hnot⟩
  | none =>
    rw [intern_eq_added h]
    have hsize : (Subsets.added g t set).sets.size = t.sets.size + 1 := Array.size_push set
    refine ⟨ht.added hset, Nat.le_of_lt (hsize ▸ Nat.lt_add_one _), fun id hid hnot hmem => ?_⟩
    rcases List.mem_cons.1 hmem with rfl | hmem
    · exact Nat.lt_irrefl _ hid
    · exact hnot hmem

/-! ## one more edge -/

/-- the state whose edges are being made, by the cells looked at for it -/
theorem EdgesInOrder.joined {id c target : Nat} {cs : List Nat}
    (ht : EdgesInOrder p P t (Function.update cells id cs)) (hid : id < t.sets.size)
    (hnot : id ∉ t.waiting) :
    EdgesInOrder p P (joined p t id c target) (Function.update cells id (cs ++ [c])) where
  size := (Graph.size_addEdge _ _ _).trans ht.size
  nodup := ht.nodup
  waits := by
    intro q hq
    have hne : id ≠ q := fun h => hnot (h ▸ hq)
    show q < t.sets.size ∧ (t.graph.addEdge id _).edges q = []
    rw [Graph.edges_addEdge_ne _ hne]
    exact ht.waits q hq
  ranges := by
    intro q
    show (((t.graph.addEdge id (cellEdge p c target)).edges q).map Edge.range?).Sublist _
    have hold := ht.ranges q
    by_cases heq : id = q
    · subst heq
      rw [Function.update_self] at hold ⊢
      rw [Graph.edges_addEdge_self _ (ht.size ▸ hid), List.map_append, List.map_append]
      apply hold.append
      exact List.Sublist.refl _
    · rw [Function.update_of_ne fun h => heq h.symm] at hold ⊢
      rw [Graph.edges_addEdge_ne _ heq]
      exact hold
  found := ht.found

/-- a cell that the set leads nowhere under needs no edge -/
theorem EdgesInOrder.skip {id : Nat} {cs : List Nat}
    (ht : EdgesInOrder p P t (Function.update cells id cs))
    (c : Nat) : EdgesInOrder p P t (Function.update cells id (cs ++ [c])) where
  size := ht.size
  nodup := ht.nodup
  waits := ht.waits
  ranges := by
    intro q
    have hold := ht.ranges q
    by_cases heq : q = id
    · subst heq
      rw [Function.update_self] at hold ⊢
      rw [List.map_append]
      exact hold.trans (List.sublist_append_left _ _)
    · rw [Function.update_of_ne heq] at hold ⊢
      exact hold
  found := ht.found

section
variable (hP : ∀ set c, P set → image g p set c ≠ [] → P (image g p set c))
include hP

theorem EdgesInOrder.link {id : Nat} {cs set : List Nat} (hset : P set)
    (ht : EdgesInOrder p P t (Function.update cells id cs)) (hid : id < t.sets.size)
    (hnot : id ∉ t.waiting) (c : Nat) :
    let t' := link g p id (landings p (g.edgesFrom set)) t c
    EdgesInOrder p P t' (Function.update cells id (cs ++ [c])) ∧ id < t'.sets.size ∧
        id ∉ t'.waiting := by
  intro t'
  show EdgesInOrder p P (Subsets.link g p id _ t c) _ ∧ id < (Subsets.link g p id _ t c).sets.size ∧
    id ∉ (Subsets.link g p id _ t c).waiting
  by_cases hnil : image g p set c = []
  · rw [link_of_nil hnil]
    exact ⟨ht.skip c, hid, hnot⟩
  · rw [link_of_ne_nil hnil]
    obtain ⟨hnew, hle, hwaits⟩ := ht.intern (g := g) (hP set c hset hnil)
    have hid' := Nat.lt_of_lt_of_le hid hle
    exact ⟨hnew.joined hid' (hwaits id hid hnot), hid', hwaits id hid hnot⟩

theorem EdgesInOrder.links {id : Nat} {cs set : List Nat} (hset : P set)
    (ht : EdgesInOrder p P t (Function.update cells id cs)) (hid : id < t.sets.size)
    (hnot : id ∉ t.waiting) (rest : List Nat) :
    EdgesInOrder p P (rest.foldl (Subsets.link g p id (landings p (g.edgesFrom set))) t)
      (Function.update cells id (cs ++ rest)) := by
  induction rest generalizing t cs with
  | nil =>
    rw [List.append_nil]
    exact ht
  | cons c rest ih =>
    obtain ⟨ht', hid', hnot'⟩ := ht.link hP hset hid hnot c
    have hall := ih ht' hid' hnot'
    rw [List.append_assoc] at hall
    exact hall

/-- a state taken from those that wait has its edges under different cells afterwards -/
theorem EdgesInOrder.expand {id : Nat} {rest : List Nat}
    (ht : EdgesInOrder p P t fun _ => p.indices)
    (hwait : t.waiting = id :: rest) :
    EdgesInOrder p P (expand g p { t with waiting := rest } id) fun _ => p.indices := by
  obtain ⟨hnot, hrest⟩ := List.nodup_cons.1 (hwait ▸ ht.nodup)
  obtain ⟨hid, hnil⟩ := ht.waits id (hwait ▸ List.mem_cons_self)
  have hset : P (t.sets.getD id []) := by
    rw [Array.getD_eq_getD_getElem?, Array.getElem?_eq_getElem hid]
    exact ht.found _ (Array.getElem_mem hid)
  have hbegin : EdgesInOrder p P { t with waiting := rest }
      (Function.update (fun _ => p.indices) id []) := by
    refine ⟨ht.size, hrest, ?_, ?_, ht.found⟩
    · intro q hq
      exact ht.waits q (hwait ▸ List.mem_cons_of_mem id hq)
    · intro q
      by_cases heq : q = id
      · subst heq
        rw [Function.update_self]
        show ((t.graph.edges q).map Edge.range?).Sublist _
        rw [hnil]
        exact List.Sublist.refl _
      · rw [Function.update_of_ne heq]
        exact ht.ranges q
  have hend := hbegin.links hP hset hid hnot p.indices
  rw [List.nil_append, Function.update_eq_self] at hend
  exact hend

theorem EdgesInOrder.run (rounds : Nat) (ht : EdgesInOrder p P t fun _ => p.indices) :
    EdgesInOrder p P (run g p rounds t) fun _ => p.indices := by
  induction rounds generalizing t with
  | zero => exact ht
  | succ rounds ih =>
    unfold Subsets.run
    split
    · exact ht
    · next id rest hwait => exact ih (ht.expand hP hwait)

theorem edgesInOrder_finished (hstart : P [g.start]) :
    EdgesInOrder p P (Subsets.finished g p) fun _ => p.indices :=
  ((edgesInOrder_empty p P _).intern hstart).1.run hP _

end

end Subsets

/-! ## where a word leads -/

namespace Determinizes

section
variable (hd : Determinizes g p d sets) (hp : p.Proper) (hf : p.FitsAll g)
include hd hp hf

theorem run_of_size (w : List Nat) :
    Total.run p (follow g p sets) sets.size w = sets.size := by
  induction w with
  | nil => rfl
  | cons sym w ih =>
    have hstay : follow g p sets sets.size (p.cellOf sym) = sets.size := by
      apply hd.follow_of_image_eq_nil
      rw [subsetOf_of_size_le (Nat.le_refl _)]
      exact image_nil hp hf _
    show Total.run p _ (follow g p sets sets.size (p.cellOf sym)) w = sets.size
    rw [hstay]
    exact ih

theorem closed : d.Closed := by
  intro id e he
  obtain ⟨c, -, hne, rfl⟩ := (hd.mem_edges hp hf).1 he
  have hset := hd.subsetOf_follow hp hf id c
  show follow g p sets id c < d.size
  rw [hd.size]
  by_contra hge
  rw [subsetOf_of_size_le (Nat.le_of_not_lt hge)] at hset
  exact hne hset.symm

theorem mem_edges_accepts {id sym : Nat} {e : Edge} :
    e ∈ d.edges id ∧ e.accepts sym = true ↔ sym ≤ p.max ∧
      follow g p sets id (p.cellOf sym) < d.size ∧
      e = cellEdge p (p.cellOf sym) (follow g p sets id (p.cellOf sym)) := by
  constructor
  · intro h
    obtain ⟨he, hacc⟩ := h
    obtain ⟨c, hc, -, rfl⟩ := (hd.mem_edges hp hf).1 he
    have hle : sym ≤ p.max := by
      simp [cellEdge, Edge.symbols, Edge.accepts] at hacc
      exact Nat.le_trans hacc.2 (hp.cell_snd_le_max c)
    obtain rfl := (accepts_cellEdge hp hc hle).1 hacc
    exact ⟨hle, hd.closed hp hf id _ he, rfl⟩
  · intro h
    obtain ⟨hle, hlt, rfl⟩ := h
    have hcell := hp.cellOf_lt sym
    refine ⟨(hd.mem_edges hp hf).2 ⟨_, hcell, ?_, rfl⟩, (accepts_cellEdge hp hcell hle).2 rfl⟩
    intro hnil
    rw [hd.follow_of_image_eq_nil hnil, hd.size] at hlt
    exact Nat.lt_irrefl _ hlt

theorem epsilonFree : d.EpsilonFree := by
  intro id e he
  obtain ⟨c, -, -, rfl⟩ := (hd.mem_edges hp hf).1 he
  rfl

/-- a word leads to the state of its set, and nowhere if that is empty -/
theorem leads_iff {id q : Nat} (hid : id < d.size) {w : List Nat} :
    d.Leads id w q ↔ (∀ sym ∈ w, sym ≤ p.max) ∧ q < d.size ∧
      Total.run p (follow g p sets) id w = q := by
  induction w generalizing id with
  | nil =>
    constructor
    · intro h
      obtain rfl := Graph.EpsilonFree.eq_of_reads_nil (hd.epsilonFree hp hf) h
      exact ⟨fun sym hsym => absurd hsym List.not_mem_nil, hid, rfl⟩
    · intro h
      obtain ⟨-, -, rfl⟩ := h
      exact .here _
  | cons sym w ih =>
    show _ ↔ _ ∧ _ ∧ Total.run p _ (follow g p sets id (p.cellOf sym)) w = q
    constructor
    · intro h
      obtain ⟨e, he, hacc, hrest⟩ := (Graph.EpsilonFree.leads_cons (hd.epsilonFree hp hf)).1 h
      obtain ⟨hle, hlt, rfl⟩ := (hd.mem_edges_accepts hp hf).1 ⟨he, hacc⟩
      obtain ⟨hall, hq⟩ := (ih hlt).1 hrest
      exact ⟨List.forall_mem_cons.2 ⟨hle, hall⟩, hq⟩
    · intro h
      obtain ⟨hall, hq, hrun⟩ := h
      obtain ⟨hle, hall⟩ := List.forall_mem_cons.1 hall
      have hlt : follow g p sets id (p.cellOf sym) < d.size := by
        have hbound : follow g p sets id (p.cellOf sym) ≤ sets.size := follow_le _ _
        rw [hd.size]
        rcases Nat.lt_or_eq_of_le hbound with hlt | heq
        · exact hlt
        · rw [heq, hd.run_of_size hp hf] at hrun
          rw [hd.size] at hq
          omega
      obtain ⟨he, hacc⟩ := (hd.mem_edges_accepts hp hf).2 ⟨hle, hlt, rfl⟩
      exact Graph.Leads.read he hacc ((ih hlt).2 ⟨hall, hq, hrun⟩)

end

end Determinizes

/-! ## what the states stand for -/

namespace Graph

/-- the states that a word leads to from the start -/
def statesAfter (g : Graph) (w : List Nat) : Set Nat := {q | g.Leads g.start w q}

/-- The states of `d` stand for the sets of states of `g` that words over the symbols of `p` lead
to, one for each set that is not empty, and `f` tells which.  The edges of a state lie, in order,
under some of the cells. -/
structure Gathers (g : Graph) (p : Partition) (d : Graph) (f : Nat → Set Nat) : Prop where
  closed : d.Closed
  start : d.start < d.size
  ranges : ∀ id, ((d.edges id).map Edge.range?).Sublist (p.cells.map some)
  bijOn : Set.BijOn f (Set.Iio d.size)
    {S | S.Nonempty ∧ ∃ w, (∀ sym ∈ w, sym ≤ p.max) ∧ g.statesAfter w = S}
  leads : ∀ w, (∀ sym ∈ w, sym ≤ p.max) → ∀ id,
    d.Leads d.start w id ↔ id < d.size ∧ f id = g.statesAfter w
  accepting : ∀ id < d.size, (d.isAccepting id = true ↔ ∃ q ∈ f id, g.isAccepting q = true)
  silent : ∀ id < d.size, (d.isSilent id = true ↔ ∀ q ∈ f id, g.isSilent q = true)
  words : ∀ w, w ∈ d.words ↔ (∀ sym ∈ w, sym ≤ p.max) ∧ w ∈ g.words

end Graph

open SpanSearch.Graph

def setOf (sets : Array (List Nat)) (id : Nat) : Set Nat := {q | q ∈ subsetOf sets id}

namespace Determinizes

variable (hd : Determinizes g p d sets)
include hd

theorem getElem?_subsetOf {id : Nat} (hid : id < d.size) :
    sets[id]? = some (subsetOf sets id) := by
  rw [subsetOf, Array.getD_eq_getD_getElem?, Array.getElem?_eq_getElem (hd.size ▸ hid)]
  rfl

theorem nonempty_setOf {id : Nat} : (setOf sets id).Nonempty ↔ id < d.size := by
  constructor
  · intro h
    obtain ⟨q, hq⟩ := h
    by_contra hid
    have hnil := subsetOf_of_size_le (hd.size ▸ Nat.le_of_not_lt hid)
    exact absurd (hnil ▸ hq : q ∈ []) List.not_mem_nil
  · intro hid
    have hne := (hd.proper id _ (hd.getElem?_subsetOf hid)).ne_nil
    exact List.exists_mem_of_ne_nil _ hne

/-- ascending lists with the same members are equal, so different states have different sets -/
theorem injOn_setOf : Set.InjOn (setOf sets) (Set.Iio d.size) := by
  intro id hid id' hid' heq
  have hsome := hd.getElem?_subsetOf hid
  have hsome' := hd.getElem?_subsetOf hid'
  have hlists : subsetOf sets id = subsetOf sets id' := by
    refine (hd.proper id _ hsome).ascending.eq_of_mem_iff (hd.proper id' _ hsome').ascending ?_
    intro q
    exact Set.ext_iff.1 heq q
  exact hd.unique _ id id' hsome (hlists ▸ hsome')

theorem start_lt_size : d.start < d.size := by
  rw [hd.size]
  exact (Array.getElem?_eq_some_iff.1 hd.start).1

variable (hp : p.Proper) (hf : p.FitsAll g)
include hp hf

theorem setOf_run (hg : g.EpsilonFree) {w : List Nat} (hw : ∀ sym ∈ w, sym ≤ p.max) :
    setOf sets (Total.run p (follow g p sets) d.start w) = g.statesAfter w :=
  Set.ext fun _ => mem_subsetOf_start hp hf hg hd hw

theorem leads_start_iff (hg : g.EpsilonFree) {w : List Nat} (hw : ∀ sym ∈ w, sym ≤ p.max)
    {id : Nat} : d.Leads d.start w id ↔ id < d.size ∧ setOf sets id = g.statesAfter w := by
  rw [hd.leads_iff hp hf hd.start_lt_size, ← hd.setOf_run hp hf hg hw]
  constructor
  · intro h
    obtain ⟨-, hid, rfl⟩ := h
    exact ⟨hid, rfl⟩
  · intro h
    obtain ⟨hid, heq⟩ := h
    have hrun := hd.nonempty_setOf.1 (heq ▸ hd.nonempty_setOf.2 hid)
    exact ⟨hw, hid, hd.injOn_setOf hrun hid heq.symm⟩

theorem bijOn_setOf (hg : g.EpsilonFree) (found : ∀ set ∈ sets, ∃ w : List Nat,
    (∀ sym ∈ w, sym ≤ p.max) ∧ ∀ q, q ∈ set ↔ q ∈ g.statesAfter w) :
    Set.BijOn (setOf sets) (Set.Iio d.size)
      {S | S.Nonempty ∧ ∃ w, (∀ sym ∈ w, sym ≤ p.max) ∧ g.statesAfter w = S} := by
  refine ⟨?_, hd.injOn_setOf, ?_⟩
  · intro id hid
    obtain ⟨w, hw, hset⟩ := found _ (Array.mem_of_getElem? (hd.getElem?_subsetOf hid))
    exact ⟨hd.nonempty_setOf.2 hid, w, hw, Set.ext fun q => (hset q).symm⟩
  · rintro S ⟨hne, w, hw, rfl⟩
    have hset := hd.setOf_run hp hf hg hw
    exact ⟨_, hd.nonempty_setOf.1 (hset ▸ hne), hset⟩

end Determinizes

section
variable (hp : p.Proper) (hf : p.FitsAll g) (hg : g.EpsilonFree)
include hp hf hg

theorem mem_image_statesAfter {w set : List Nat} {c q : Nat} (hc : c < p.size)
    (hset : ∀ q, q ∈ set ↔ q ∈ g.statesAfter w) :
    q ∈ image g p set c ↔ q ∈ g.statesAfter (w ++ [p.representative c]) := by
  rw [mem_image hp hf]
  show _ ↔ g.Reads plainly g.start (w ++ [p.representative c]) q
  rw [reads_append]
  constructor
  · rintro ⟨-, m, hm, e, he, hacc, rfl⟩
    exact ⟨m, (hset m).1 hm, hg.leads_cons.2 ⟨e, he, hacc, .here _⟩⟩
  · rintro ⟨m, hm, hlast⟩
    obtain ⟨e, he, hacc, hend⟩ := hg.leads_cons.1 hlast
    exact ⟨hc, m, (hset m).2 hm, e, he, hacc, hg.eq_of_reads_nil hend⟩

/-- all sets found are what words lead to, and all edges lie under different cells -/
theorem edgesInOrder_words :
    Subsets.EdgesInOrder p (fun set => ∃ w : List Nat, (∀ sym ∈ w, sym ≤ p.max) ∧
    ∀ q, q ∈ set ↔ q ∈ g.statesAfter w) (Subsets.finished g p) fun _ => p.indices := by
  apply Subsets.edgesInOrder_finished
  · rintro set c ⟨w, hw, hset⟩ hne
    have hc : c < p.size := by
      by_contra hc
      exact hne (image_eq_nil hp hf (Nat.le_of_not_lt hc))
    refine ⟨w ++ [p.representative c], ?_, fun q => mem_image_statesAfter hp hf hg hc hset⟩
    intro sym hsym
    rcases List.mem_append.1 hsym with hold | hlast
    · exact hw sym hold
    · exact List.mem_singleton.1 hlast ▸ hp.representative_le_max hc
  · refine ⟨[], fun sym h => absurd h List.not_mem_nil, fun q => ?_⟩
    rw [List.mem_singleton]
    constructor
    · intro h
      exact h ▸ .here _
    · intro h
      exact (hg.eq_of_reads_nil h).symm

end

namespace Graph

/-- The subset construction comes to an end with nothing left to wait, and its states stand for
the sets of states that words lead to. -/
theorem determinize_gathers (hc : g.Closed) (hs : g.start < g.size) (hg : g.EpsilonFree)
    (hp : p.Proper) (hf : p.FitsAll g) :
    (Subsets.finished g p).waiting = [] ∧ ∃ f, Gathers g p (g.determinize p) f := by
  obtain ⟨hd, hdone⟩ := determinizes_finished hc hs hp hf
  have hinorder := edgesInOrder_words hp hf hg
  refine ⟨hdone, setOf (Subsets.finished g p).sets, ?_⟩
  have haccepting : ∀ id < (g.determinize p).size, ((g.determinize p).isAccepting id = true ↔
      ∃ q ∈ setOf (Subsets.finished g p).sets id, g.isAccepting q = true) := by
    intro id hid
    rw [hd.accepting id _ (hd.getElem?_subsetOf hid), List.any_eq_true]
    rfl
  refine ⟨hd.closed hp hf, hd.start_lt_size, ?_, hd.bijOn_setOf hp hf hg hinorder.found,
    fun w hw id => hd.leads_start_iff hp hf hg hw, haccepting, ?_, ?_⟩
  · intro id
    have hranges := hinorder.ranges id
    rw [determinize_eq hs, Partition.cells, List.map_map]
    exact hranges
  · intro id hid
    rw [hd.silent id _ (hd.getElem?_subsetOf hid), List.all_eq_true]
    rfl
  · intro w
    have hover (id : Nat) (h : (g.determinize p).Leads (g.determinize p).start w id) :
        ∀ sym ∈ w, sym ≤ p.max := ((hd.leads_iff hp hf hd.start_lt_size).1 h).1
    constructor
    · rintro ⟨id, hlead, hacc⟩
      have hw := hover id hlead
      obtain ⟨hid, heq⟩ := (hd.leads_start_iff hp hf hg hw).1 hlead
      obtain ⟨q, hq, hqacc⟩ := (haccepting id hid).1 hacc
      rw [heq] at hq
      exact ⟨hw, q, hq, hqacc⟩
    · rintro ⟨hw, q, hq, hqacc⟩
      have hset := hd.setOf_run hp hf hg hw
      have hafter : q ∈ g.statesAfter w := hq
      have hmem := hset ▸ hafter
      have hid := hd.nonempty_setOf.1 ⟨q, hmem⟩
      exact ⟨_, (hd.leads_start_iff hp hf hg hw).2 ⟨hid, hset⟩,
        (haccepting _ hid).2 ⟨q, hmem, hqacc⟩⟩

/-- words that end in `ab` or `ac`, after a state that is silent -/
theorem determinize_gathers_suffix :
    let g : Graph := ⟨#[{ silent := true, edges := [.symbols 0 255 0, .symbols 97 97 1] },
      { edges := [.symbols 98 99 2] }, { accepting := true }], 0⟩
    let p := Partition.ofGraph g (.bytes .utf8)
    (Subsets.finished g p).waiting = [] ∧ ∃ f, Gathers g p (g.determinize p) f :=
  determinize_gathers (closed_iff.2 (by decide)) (by decide)
    (epsilonFree_iff.2 (by decide)) (Partition.proper_ofGraph _ _) (Partition.fits_ofGraph _ _)

end Graph
end SpanSearch
