import SpanSearch.Proofs.Refining

/-!
# The graph of the blocks

* `Refinement.Apart`          blocks that share no state
* `Refinement.sound_initial`  one block for each kind of state
* `Refinement.place`          the state that a state becomes in the quotient
* `Quotient`                  a total graph is another with states of a kind made one
* `Graph.refinement`          the blocks of a graph when no splitter waits any more
* `Graph.refinement_spec`     blocks lead to blocks, and each is of one kind
* `Quotient.run`              words lead to the same states in both
-/

namespace SpanSearch
namespace Refinement

variable {g : Graph} {p : Partition} {δ : Nat → Nat → Nat} {t : Transitions} {r : Refinement}

/-! ## the first blocks -/

def Apart (blocks : List (List Nat)) : Prop := blocks.Pairwise fun a b => ∀ q ∈ a, q ∉ b

theorem mem_kinds {block : List Nat} :
    block ∈ kinds g ↔ block ≠ [] ∧
      ∃ k ∈ [0, 1, 2], (g.ids.filter fun id => kind (g.state id) == k) = block := by
  simp only [kinds, List.mem_mergeSort, List.mem_filter, List.mem_map, Bool.not_eq_true',
    List.isEmpty_eq_false_iff, ne_eq]
  exact and_comm

theorem kind_le (s : State) : kind s ∈ [0, 1, 2] := by
  unfold kind
  split
  · simp
  · split <;> simp

theorem kind_eq_zero (s : State) : kind s = 0 ↔ s.accepting = true := by
  unfold kind
  split
  · next h => exact iff_of_true rfl h
  · next h => split <;> simp [h]

theorem kind_eq_one {s : State} (h : s.accepting = false) : kind s = 1 ↔ s.silent = true := by
  unfold kind
  rw [h]
  split <;> simp_all

theorem apart_kinds (g : Graph) : Apart (kinds g) := by
  have hsymm {a b : List Nat} (h : ∀ q ∈ a, q ∉ b) : ∀ q ∈ b, q ∉ a :=
    fun q hb ha => h q ha hb
  refine (List.mergeSort_perm _ _).symm.pairwise ?_ hsymm
  refine List.Pairwise.sublist List.filter_sublist ?_
  rw [List.pairwise_map]
  have hkinds : [0, 1, 2].Pairwise fun a b : Nat => a ≠ b := by decide
  refine hkinds.imp fun {a b} hne q ha hb => ?_
  rw [List.mem_filter, beq_iff_eq] at ha hb
  exact hne (ha.2.symm.trans hb.2)

theorem exists_mem_kinds {q : Nat} (hq : q < g.size) : ∃ block ∈ kinds g, q ∈ block := by
  have hmem : q ∈ g.ids.filter fun id => kind (g.state id) == kind (g.state q) :=
    List.mem_filter.2 ⟨Graph.mem_ids.2 hq, beq_self_eq_true _⟩
  exact ⟨_, mem_kinds.2 ⟨List.ne_nil_of_mem hmem, _, kind_le _, rfl⟩, hmem⟩

theorem getD_foldl_assign_of_not_mem {blocks : List (List Nat)} (k : Nat) (a : Array Nat) {q : Nat}
    (hq : q < a.size) (hnot : ∀ block ∈ blocks, q ∉ block) :
    ((blocks.zipIdx k).foldl (fun of (members, b) =>
      members.foldl (fun of id => of.setIfInBounds id b) of) a).getD q 0 = a.getD q 0 := by
  induction blocks generalizing k a with
  | nil => rfl
  | cons block blocks ih =>
    obtain ⟨hhead, hrest⟩ := List.forall_mem_cons.1 hnot
    rw [List.zipIdx_cons, List.foldl_cons,
      ih _ _ (by rwa [size_foldl_setIfInBounds fun q => q]) hrest,
      getD_foldl_set _ _ _ hq, if_neg hhead]

theorem getD_foldl_assign {blocks : List (List Nat)} (h : Apart blocks) (k : Nat) (a : Array Nat)
    {i q : Nat} {block : List Nat} (hi : blocks[i]? = some block) (hq : q ∈ block)
    (hlt : q < a.size) :
    ((blocks.zipIdx k).foldl (fun of (members, b) =>
      members.foldl (fun of id => of.setIfInBounds id b) of) a).getD q 0 = k + i := by
  induction blocks generalizing k a i with
  | nil => simp at hi
  | cons head blocks ih =>
    obtain ⟨hhead, hrest⟩ := List.pairwise_cons.1 h
    rw [List.zipIdx_cons, List.foldl_cons]
    cases i with
    | zero =>
      obtain rfl : head = block := by simpa using hi
      rw [getD_foldl_assign_of_not_mem _ _ (by rwa [size_foldl_setIfInBounds fun q => q])
        (fun other hother => hhead other hother q hq), getD_foldl_set _ _ _ hlt, if_pos hq]
      rfl
    | succ i =>
      rw [ih hrest (k + 1) _ (by simpa using hi) (by rwa [size_foldl_setIfInBounds fun q => q])]
      omega

theorem blockFor_initial {i q : Nat} {block : List Nat} (hi : (kinds g)[i]? = some block)
    (hq : q ∈ block) (hlt : q < g.size) : (initial g).blockFor q = i := by
  have h := getD_foldl_assign (apart_kinds g) 0 (Array.replicate g.size 0) hi hq
    (by rwa [Array.size_replicate])
  rw [Nat.zero_add] at h
  exact h

theorem members_initial (b : Nat) : (initial g).members b = (kinds g).getD b [] := by
  show (kinds g).toArray.getD b [] = _
  rw [Array.getD_eq_getD_getElem?, List.getElem?_toArray, List.getD_eq_getElem?_getD]

theorem lt_of_mem_kinds {block : List Nat} (hb : block ∈ kinds g) {q : Nat} (hq : q ∈ block) :
    q < g.size := by
  obtain ⟨-, k, -, rfl⟩ := mem_kinds.1 hb
  exact Graph.mem_ids.1 (List.mem_filter.1 hq).1

theorem queued_initial {b : Nat} (hb : b < (kinds g).length) :
    (initial g).queued.getD b false = decide (b < (kinds g).length - 1) := by
  simp [initial, Array.getD_eq_getD_getElem?, hb]

theorem members_initial_of_lt {b : Nat} (hb : b < (kinds g).length) :
    (initial g).members b = (kinds g)[b] := by
  rw [members_initial, List.getD_eq_getElem?_getD, List.getElem?_eq_getElem hb]
  rfl

theorem exists_blockFor_initial {q : Nat} (hq : q < g.size) :
    ∃ i, ∃ hi : i < (kinds g).length, q ∈ (kinds g)[i] ∧ (initial g).blockFor q = i := by
  obtain ⟨block, hmem, hin⟩ := exists_mem_kinds hq
  obtain ⟨i, hi, rfl⟩ := List.getElem_of_mem hmem
  exact ⟨i, hi, hin, blockFor_initial (List.getElem?_eq_getElem hi) hin hq⟩

theorem sound_initial (g : Graph) : (initial g).Sound g.size where
  size_blockOf := (size_foldl (fun of _ => size_foldl_setIfInBounds (fun q => q) _ _ of) _ _).trans
    Array.size_replicate
  size_queued := by simp [initial]
  mem_iff := by
    intro b hb q
    replace hb : b < (kinds g).length := hb
    rw [members_initial_of_lt hb]
    constructor
    · intro hq
      have hlt := lt_of_mem_kinds (List.getElem_mem hb) hq
      exact ⟨hlt, blockFor_initial (List.getElem?_eq_getElem hb) hq hlt⟩
    · rintro ⟨hlt, hfor⟩
      obtain ⟨i, hi, hin, hfor'⟩ := exists_blockFor_initial hlt
      obtain rfl : i = b := hfor'.symm.trans hfor
      exact hin
  blockFor_lt := by
    intro q hq
    obtain ⟨i, hi, -, hfor⟩ := exists_blockFor_initial hq
    rw [hfor]
    exact hi
  nodup := by
    intro b
    by_cases hb : b < (kinds g).length
    · rw [members_initial_of_lt hb]
      obtain ⟨-, k, -, hk⟩ := mem_kinds.1 (List.getElem_mem hb)
      rw [← hk]
      exact List.nodup_range.filter _
    · rw [members_initial, List.getD_eq_getElem?_getD,
        List.getElem?_eq_none (Nat.le_of_not_lt hb)]
      exact List.nodup_nil
  nonempty := by
    intro b hb
    replace hb : b < (kinds g).length := hb
    rw [members_initial_of_lt hb]
    exact (mem_kinds.1 (List.getElem_mem hb)).1
  waits := by
    intro b
    show b ∈ (List.range ((kinds g).length - 1)).reverse ↔ _
    rw [List.mem_reverse, List.mem_range]
    by_cases hb : b < (kinds g).length
    · rw [queued_initial hb, decide_eq_true_eq]
    · have hnone : ¬ (initial g).queued.getD b false = true := by
        simp [initial, Array.getD_eq_getD_getElem?, hb]
      exact iff_of_false (by omega) hnone
  once := List.nodup_reverse.2 List.nodup_range

/-- all blocks but one wait -/
theorem count_initial (hg : 0 < g.size) :
    (initial g).waiting.length + 1 = (initial g).blocks.size := by
  have hpos : 0 < (initial g).blocks.size :=
    Nat.zero_lt_of_lt ((sound_initial g).blockFor_lt _ hg)
  have hlen : (initial g).waiting.length = (initial g).blocks.size - 1 := by
    show (List.range _).reverse.length = _
    rw [List.length_reverse, List.length_range]
    rfl
  omega

theorem pending_initial (k : Nat) {δ : Nat → Nat → Nat}
    (hclosed : ∀ q < g.size, ∀ c < k, δ q c < g.size) :
    Pending g.size k δ (initial g) (fun _ => False) [] := by
  intro q hq q' hq' _ c hc hne
  have hlt := (sound_initial g).blockFor_lt _ (hclosed q hq c hc)
  have hlt' := (sound_initial g).blockFor_lt _ (hclosed q' hq' c hc)
  have hsize : (initial g).blocks.size = (kinds g).length := rfl
  rw [hsize] at hlt hlt'
  rw [queued_initial hlt, queued_initial hlt', decide_eq_true_eq, decide_eq_true_eq]
  -- only the last block does not wait
  omega

theorem kind_eq_of_blockFor_initial {q q' : Nat} (hq : q < g.size) (hq' : q' < g.size)
    (h : (initial g).blockFor q = (initial g).blockFor q') :
    kind (g.state q) = kind (g.state q') := by
  have hr := sound_initial g
  have hlt : (initial g).blockFor q < (kinds g).length := hr.blockFor_lt q hq
  have hmem := (hr.mem_iff _ hlt q).2 ⟨hq, rfl⟩
  have hmem' := (hr.mem_iff _ hlt q').2 ⟨hq', h.symm⟩
  rw [members_initial, List.getD_eq_getElem?_getD, List.getElem?_eq_getElem hlt] at hmem hmem'
  obtain ⟨-, k, -, hk⟩ := mem_kinds.1 (List.getElem_mem hlt)
  have hin : q ∈ (kinds g)[(initial g).blockFor q] := hmem
  have hin' : q' ∈ (kinds g)[(initial g).blockFor q] := hmem'
  rw [← hk, List.mem_filter, beq_iff_eq] at hin hin'
  rw [hin.2, hin'.2]

end Refinement

/-! ## states of a block made one -/

/-- `f` maps the states of `g`, which leads from each under every cell, onto those of the total
graph `h`; they lead to the same states and are of the same kind -/
structure Quotient (p : Partition) (g h : Graph) (δ δ' : Nat → Nat → Nat) (f : Nat → Nat) :
    Prop where
  total : Total p h δ'
  start : f g.start = h.start
  lt : ∀ q < g.size, f q < h.size
  step : ∀ q < g.size, ∀ c < p.size, f (δ q c) = δ' (f q) c
  accepting : ∀ q < g.size, h.isAccepting (f q) = g.isAccepting q
  silent : ∀ q < g.size, g.isAccepting q = false → h.isSilent (f q) = g.isSilent q
  loud : g.Loud → h.Loud

theorem Quotient.run {p : Partition} {g h : Graph} {δ δ' : Nat → Nat → Nat} {f : Nat → Nat}
    (hquot : Quotient p g h δ δ' f) (hg : Complete p g δ) (hp : p.Proper) {q : Nat}
    (hq : q < g.size) (w : List Nat) : f (Total.run p δ q w) = Total.run p δ' (f q) w := by
  induction w generalizing q with
  | nil => rfl
  | cons sym w ih =>
    have hc := hp.cellOf_lt sym
    show f (Total.run p δ (δ q (p.cellOf sym)) w) = Total.run p δ' (δ' (f q) (p.cellOf sym)) w
    rw [ih (hg.closed q hq _ hc), hquot.step q hq _ hc]

namespace Refinement

variable {g : Graph} {p : Partition} {δ : Nat → Nat → Nat} {t : Transitions} {r : Refinement}
  {n : Nat}

def place (r : Refinement) (q : Nat) : Nat := r.inOrder.idxOf (r.blockFor q)

/-- a member of the block behind a state of the quotient -/
def leader (r : Refinement) (i : Nat) : Nat := (r.members (r.inOrder.getD i 0)).headD 0

theorem perm_inOrder (r : Refinement) : r.inOrder.Perm (List.range r.blocks.size) :=
  List.mergeSort_perm _ _

theorem length_inOrder (r : Refinement) : r.inOrder.length = r.blocks.size :=
  r.perm_inOrder.length_eq.trans List.length_range

theorem mem_inOrder {b : Nat} : b ∈ r.inOrder ↔ b < r.blocks.size := by
  rw [r.perm_inOrder.mem_iff, List.mem_range]

theorem nodup_inOrder (r : Refinement) : r.inOrder.Nodup :=
  r.perm_inOrder.nodup_iff.2 List.nodup_range

theorem getD_places {b : Nat} (hb : b < r.blocks.size) :
    (r.inOrder.zipIdx.foldl (fun a (b, i) => a.setIfInBounds b i)
      (Array.replicate r.blocks.size 0)).getD b 0 = r.inOrder.idxOf b := by
  have h := getD_foldl_zipIdx (fun i => i) 0 r.nodup_inOrder 0 (Array.replicate r.blocks.size 0)
    (x := b) (by rwa [Array.size_replicate])
  rw [if_pos (mem_inOrder.2 hb), Nat.zero_add] at h
  exact h

theorem place_lt (hr : r.Sound n) {q : Nat} (hq : q < n) : r.place q < r.blocks.size := by
  rw [← r.length_inOrder]
  exact List.idxOf_lt_length_of_mem (mem_inOrder.2 (hr.blockFor_lt q hq))

theorem getD_inOrder_place (hr : r.Sound n) {q : Nat} (hq : q < n) :
    r.inOrder.getD (r.place q) 0 = r.blockFor q := by
  have hlt : r.place q < r.inOrder.length := r.length_inOrder ▸ place_lt hr hq
  rw [List.getD_eq_getElem?_getD, List.getElem?_eq_getElem hlt]
  exact List.getElem_idxOf hlt

theorem leader_spec (hr : r.Sound n) {i : Nat} (hi : i < r.blocks.size) :
    r.leader i < n ∧ r.blockFor (r.leader i) = r.inOrder.getD i 0 ∧
      ∃ rest, r.members (r.inOrder.getD i 0) = r.leader i :: rest := by
  have hi' : i < r.inOrder.length := r.length_inOrder.symm ▸ hi
  have hb : r.inOrder.getD i 0 < r.blocks.size := by
    rw [List.getD_eq_getElem?_getD, List.getElem?_eq_getElem hi']
    exact mem_inOrder.1 (List.getElem_mem hi')
  obtain ⟨x, rest, hmembers⟩ := List.exists_cons_of_ne_nil (hr.nonempty _ hb)
  have hleader : r.leader i = x := by rw [leader, hmembers, List.headD_cons]
  have hmem : x ∈ r.members (r.inOrder.getD i 0) := hmembers ▸ List.mem_cons_self
  obtain ⟨hlt, hblock⟩ := (hr.mem_iff _ hb x).1 hmem
  rw [hleader]
  exact ⟨hlt, hblock, rest, hmembers⟩

theorem size_quotient : (r.quotient g p t).size = r.blocks.size := by
  show ((r.inOrder.map _).toArray).size = _
  rw [List.size_toArray, List.length_map, length_inOrder]

theorem state_quotient {i : Nat} (hi : i < r.blocks.size) :
    (r.quotient g p t).state i = stateOf g p t
      (r.inOrder.zipIdx.foldl (fun a (b, i) => a.setIfInBounds b i)
        (Array.replicate r.blocks.size 0)) r (r.inOrder.getD i 0) := by
  have hi' : i < r.inOrder.length := r.length_inOrder.symm ▸ hi
  show ((r.inOrder.map _).toArray).getD i ({} : State) = _
  rw [Array.getD_eq_getD_getElem?, List.getElem?_toArray, List.getElem?_map,
    List.getD_eq_getElem?_getD, List.getElem?_eq_getElem hi']
  rfl

section
variable (ht : Tabulates g.size p.size δ t) (hr : r.Sound g.size)
include ht hr

theorem mem_edges_quotient {i : Nat} (hi : i < r.blocks.size) {e : Edge} :
    e ∈ (r.quotient g p t).edges i ↔
      ∃ c < p.size, e = cellEdge p c (r.place (δ (r.leader i) c)) := by
  obtain ⟨hlt, -, rest, hmembers⟩ := leader_spec hr hi
  rw [Graph.edges, state_quotient hi, stateOf, hmembers]
  show e ∈ p.indices.map _ ↔ _
  rw [List.mem_map]
  have htarget {c : Nat} (hc : c < p.size) :
      (r.inOrder.zipIdx.foldl (fun a (b, i) => a.setIfInBounds b i)
        (Array.replicate r.blocks.size 0)).getD (r.blockFor (t.successor (r.leader i) c)) 0 =
          r.place (δ (r.leader i) c) := by
    rw [ht.successor _ hlt c hc, getD_places (hr.blockFor_lt _ (ht.closed _ hlt c hc))]
    rfl
  constructor
  · rintro ⟨c, hc, rfl⟩
    have hc := List.mem_range.1 hc
    exact ⟨c, hc, by rw [← htarget hc]; rfl⟩
  · rintro ⟨c, hc, rfl⟩
    exact ⟨c, List.mem_range.2 hc, by rw [← htarget hc]; rfl⟩

omit ht in
/-- states of a kind accept together, and are silent together unless they accept -/
theorem kind_quotient (hkind : ∀ q < g.size, ∀ q' < g.size, r.blockFor q = r.blockFor q' →
    kind (g.state q) = kind (g.state q')) {q : Nat} (hq : q < g.size) :
    (r.quotient g p t).isAccepting (r.place q) = g.isAccepting q ∧
      (g.isAccepting q = false → (r.quotient g p t).isSilent (r.place q) = g.isSilent q) := by
  have hb := hr.blockFor_lt q hq
  have hmem : q ∈ r.members (r.blockFor q) := (hr.mem_iff _ hb q).2 ⟨hq, rfl⟩
  have hsame : ∀ x ∈ r.members (r.blockFor q), kind (g.state x) = kind (g.state q) := by
    intro x hx
    obtain ⟨hlt, hblock⟩ := (hr.mem_iff _ hb x).1 hx
    exact hkind x hlt q hq hblock
  have hacc {x : Nat} (h : kind (g.state x) = kind (g.state q)) :
      g.isAccepting x = g.isAccepting q := by
    have hx := kind_eq_zero (g.state x)
    rw [h, kind_eq_zero] at hx
    exact (Bool.eq_iff_iff.2 hx).symm
  have hsil {x : Nat} (h : kind (g.state x) = kind (g.state q)) (hq : g.isAccepting q = false) :
      g.isSilent x = g.isSilent q := by
    have hx := kind_eq_one ((hacc h).trans hq)
    rw [h, kind_eq_one hq] at hx
    exact (Bool.eq_iff_iff.2 hx).symm
  constructor
  · rw [Graph.isAccepting, state_quotient (place_lt hr hq), getD_inOrder_place hr hq]
    show (r.members (r.blockFor q)).any g.isAccepting = _
    rw [Bool.eq_iff_iff, List.any_eq_true]
    constructor
    · rintro ⟨x, hx, hxacc⟩
      rwa [← hacc (hsame x hx)]
    · exact fun h => ⟨q, hmem, h⟩
  · intro hnot
    rw [Graph.isSilent, state_quotient (place_lt hr hq), getD_inOrder_place hr hq]
    show (r.members (r.blockFor q)).all g.isSilent = _
    rw [Bool.eq_iff_iff, List.all_eq_true]
    constructor
    · exact fun h => h q hmem
    · intro h x hx
      rwa [hsil (hsame x hx) hnot]

theorem quotient_quotient (hg : Complete p g δ) (hstable : Stable g.size p.size δ r)
    (hkind : ∀ q < g.size, ∀ q' < g.size, r.blockFor q = r.blockFor q' →
      kind (g.state q) = kind (g.state q')) :
    Quotient p g (r.quotient g p t) δ (fun i c => r.place (δ (r.leader i) c)) r.place where
  total := by
    have hstart : (r.quotient g p t).start = r.place g.start :=
      getD_places (hr.blockFor_lt _ hg.start)
    refine ⟨?_, fun i hi c hc => ?_, fun i hi e => ?_⟩
    · rw [hstart, size_quotient]
      exact place_lt hr hg.start
    · rw [size_quotient] at hi ⊢
      exact place_lt hr (ht.closed _ (leader_spec hr hi).1 c hc)
    · rw [size_quotient] at hi
      exact mem_edges_quotient ht hr hi
  start := (getD_places (hr.blockFor_lt _ hg.start)).symm
  lt := fun q hq => by
    rw [size_quotient]
    exact place_lt hr hq
  step := by
    intro q hq c hc
    obtain ⟨hlt, hblock, -⟩ := leader_spec hr (place_lt hr hq)
    rw [getD_inOrder_place hr hq] at hblock
    show r.inOrder.idxOf (r.blockFor (δ q c)) = r.inOrder.idxOf (r.blockFor (δ _ c))
    rw [hstable q hq _ hlt hblock.symm c hc]
  accepting := fun q hq => (kind_quotient hr hkind hq).1
  silent := fun q hq => (kind_quotient hr hkind hq).2
  loud := fun hloud i => by
    by_cases hi : i < r.blocks.size
    · obtain ⟨-, -, rest, hmembers⟩ := leader_spec hr hi
      rw [Graph.isSilent, state_quotient hi]
      show (r.members (r.inOrder.getD i 0)).all g.isSilent = false
      rw [hmembers, List.all_cons, hloud]
      rfl
    · rw [Graph.isSilent, Graph.state_of_size_le]
      rw [size_quotient]
      exact Nat.le_of_not_lt hi

end

end Refinement

/-- the blocks of a graph when no splitter waits any more -/
def Graph.refinement (g : Graph) (p : Partition) : Refinement :=
  Refinement.run (Transitions.ofGraph g p) p.indices g.size (Refinement.initial g)

section
variable {p : Partition} {g : Graph} {δ : Nat → Nat → Nat} (hg : Complete p g δ)
include hg

theorem Graph.minimize_eq : g.minimize p =
    (g.refinement p).quotient g p (Transitions.ofGraph g p) := by
  have hempty : g.isEmpty = false := by
    have := hg.start
    rw [Graph.isEmpty, beq_eq_false_iff_ne]
    omega
  rw [Graph.minimize, hempty]
  rfl

theorem Graph.refinement_spec (hp : p.Proper) : (g.refinement p).Sound g.size ∧
    Refinement.Stable g.size p.size δ (g.refinement p) ∧
      ∀ q < g.size, ∀ q' < g.size, (g.refinement p).blockFor q = (g.refinement p).blockFor q' →
        Refinement.kind (g.state q) = Refinement.kind (g.state q') := by
  have ht := hg.tabulates hp
  have hcount := Refinement.count_initial (Nat.zero_lt_of_lt hg.start)
  obtain ⟨hr, hstable, hsame⟩ := Refinement.stable_run ht g.size 0 (by omega) (by omega)
    (Refinement.sound_initial g) (Refinement.pending_initial p.size hg.closed)
  refine ⟨hr, hstable, fun q hq q' hq' h => ?_⟩
  exact Refinement.kind_eq_of_blockFor_initial hq hq' (hsame q hq q' hq' h)

end

end SpanSearch
