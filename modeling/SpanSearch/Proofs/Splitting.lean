import SpanSearch.Proofs.Quotient

/-!
# Blocks are split for a reason

States end up in different blocks only if some cells lead them to states of different kinds, so
no two states of the minimized graph behave alike under all words.

* `Refinement.Told`        some cells lead two states to states of different kinds
* `Refinement.Justified`   states of different blocks are told apart
* `Refinement.Respects`    a step splits a block only along a set
* `justified_run`          what refining keeps
* `Graph.Parted`           words tell the states of a total graph apart
* `parted_minimize`        so they do after minimizing
-/

namespace SpanSearch
namespace Refinement

variable {n k : Nat} {δ : Nat → Nat → Nat} {κ : Nat → Nat} {t : Transitions} {r r' : Refinement}

/-- some cells lead two states to states of different kinds -/
def Told (k : Nat) (δ : Nat → Nat → Nat) (κ : Nat → Nat) (q q' : Nat) : Prop :=
  ∃ cs : List Nat, (∀ c ∈ cs, c < k) ∧ κ (cs.foldl δ q) ≠ κ (cs.foldl δ q')

theorem Told.symm {q q' : Nat} (h : Told k δ κ q q') : Told k δ κ q' q := by
  obtain ⟨cs, hcs, hne⟩ := h
  exact ⟨cs, hcs, hne.symm⟩

theorem Told.cons {q q' c : Nat} (hc : c < k) (h : Told k δ κ (δ q c) (δ q' c)) :
    Told k δ κ q q' := by
  obtain ⟨cs, hcs, hne⟩ := h
  exact ⟨c :: cs, List.forall_mem_cons.2 ⟨hc, hcs⟩, hne⟩

def Justified (n k : Nat) (δ : Nat → Nat → Nat) (κ : Nat → Nat) (r : Refinement) : Prop :=
  ∀ q < n, ∀ q' < n, r.blockFor q ≠ r.blockFor q' → Told k δ κ q q'

/-! ## one splitter under one cell -/

/-- states of one block that are both in a set or both outside it stay in one block -/
def Respects (n : Nat) (r r' : Refinement) (S : Nat → Prop) : Prop :=
  ∀ q < n, ∀ q' < n, r.blockFor q = r.blockFor q' → (S q ↔ S q') → r'.blockFor q = r'.blockFor q'

theorem respects_separate (hr : r.Sound n) (group : List Nat) :
    Respects n r (r.separate group) (· ∈ group) := by
  intro q hq q' hq' heq hiff
  unfold separate
  split
  · exact heq
  · next x rest =>
    dsimp only
    split
    · rw [blockFor_split hr hq, blockFor_split hr hq']
      by_cases hmem : q ∈ x :: rest
      · rw [if_pos hmem, if_pos (hiff.1 hmem)]
      · rw [if_neg hmem, if_neg (mt hiff.2 hmem), heq]
    · exact heq

theorem respects_separateAll (hr : r.Sound n) {groups : List (List Nat)}
    (hg : AreGroups n r groups) :
    Respects n r (groups.foldl separate r) fun q => ∃ group ∈ groups, q ∈ group := by
  induction groups generalizing r with
  | nil => exact fun q _ q' _ heq _ => heq
  | cons group groups ih =>
    intro q hq q' hq' heq hiff
    obtain ⟨hnext, -⟩ := List.pairwise_cons.1 hg.apart
    -- the other groups are of other blocks
    have hother {x x' : Nat} (hblock : r.blockFor x = r.blockFor x') (hx : x ∈ group) :
        ¬ ∃ other ∈ groups, x' ∈ other :=
      fun ⟨other, hmem, hx'⟩ => hnext other hmem x hx x' hx' hblock
    beta_reduce at hiff
    rw [List.exists_mem_cons_iff, List.exists_mem_cons_iff] at hiff
    have hhead : q ∈ group ↔ q' ∈ group :=
      ⟨fun h => (hiff.1 (.inl h)).resolve_right (hother heq h),
        fun h => (hiff.2 (.inl h)).resolve_right (hother heq.symm h)⟩
    have htail : (∃ other ∈ groups, q ∈ other) ↔ ∃ other ∈ groups, q' ∈ other := by
      by_cases hmem : q ∈ group
      · exact iff_of_false (hother rfl hmem) (hother heq hmem)
      · rwa [or_iff_right hmem, or_iff_right (mt hhead.2 hmem)] at hiff
    exact ih (separate_spec hr (hg.each group List.mem_cons_self)).1 (hg.separate hr) q hq q' hq'
      (respects_separate hr group q hq q' hq' heq hhead) htail

section
variable (ht : Tabulates n k δ t)
include ht

theorem respects_refineBy (hr : r.Sound n) {S : List Nat} (hnodup : S.Nodup) (hS : ∀ q ∈ S, q < n)
    {c : Nat} (hc : c < k) : Respects n r (refineBy t S r c) fun x => δ x c ∈ S := by
  have hmem {x : Nat} := mem_flatMap_predecessors ht hS hc (x := x)
  have h := respects_separateAll hr (areGroups_byBlock (r := r)
    (nodup_flatMap_predecessors ht hnodup hS hc) fun q hq => (hmem.1 hq).1)
  intro q hq q' hq' heq hiff
  refine h q hq q' hq' heq ?_
  beta_reduce
  rw [mem_byBlock, mem_byBlock, hmem, hmem, and_iff_right hq, and_iff_right hq']
  exact hiff

variable {S : List Nat} (hnodup : S.Nodup) (hS : ∀ q ∈ S, q < n)
  (hout : ∀ q ∈ S, ∀ q' < n, q' ∉ S → Told k δ κ q q')
include hnodup hS hout

/-- a splitter that is told apart from all other states splits for a reason -/
theorem justified_refineBy (hr : r.Sound n) {c : Nat} (hc : c < k)
    (h : Justified n k δ κ r) : Justified n k δ κ (refineBy t S r c) := by
  intro q hq q' hq' hne
  by_cases heq : r.blockFor q = r.blockFor q'
  · have hnot := mt (respects_refineBy ht hr hnodup hS hc q hq q' hq' heq) hne
    refine Told.cons hc ?_
    by_cases hmem : δ q c ∈ S
    · exact hout _ hmem _ (ht.closed q' hq' c hc) fun hmem' => hnot (iff_of_true hmem hmem')
    · have hmem' : δ q' c ∈ S := by
        by_contra hmem'
        exact hnot (iff_of_false hmem hmem')
      exact (hout _ hmem' _ (ht.closed q hq c hc) hmem).symm
  · exact h q hq q' hq' heq

theorem justified_refineAll (hr : r.Sound n) {cs : List Nat} (hcs : ∀ c ∈ cs, c < k)
    (h : Justified n k δ κ r) : (cs.foldl (refineBy t S) r).Sound n ∧
      Justified n k δ κ (cs.foldl (refineBy t S) r) := by
  induction cs generalizing r with
  | nil => exact ⟨hr, h⟩
  | cons c cs ih =>
    obtain ⟨hc, hcs⟩ := List.forall_mem_cons.1 hcs
    exact ih (refineBy_spec ht hr hnodup hS hc).1 hcs
      (justified_refineBy ht hnodup hS hout hr hc h)

end

/-! ## all rounds -/

/-- the splitters are blocks, so they are told apart from all other states -/
theorem justified_run (ht : Tabulates n k δ t) (rounds : Nat) (hr : r.Sound n)
    (h : Justified n k δ κ r) : Justified n k δ κ (run t (List.range k) rounds r) := by
  induction rounds generalizing r with
  | zero => exact h
  | succ rounds ih =>
    unfold run
    split
    · exact h
    · next b rest hw =>
      have hlt : ∀ q ∈ r.members b, q < n :=
        fun q hq => ((hr.mem_iff b (lt_of_mem_members hq) q).1 hq).1
      have hout : ∀ q ∈ r.members b, ∀ q' < n, q' ∉ r.members b → Told k δ κ q q' := by
        intro q hq q' hq' hnot
        have hb := lt_of_mem_members hq
        obtain ⟨hqlt, hblock⟩ := (hr.mem_iff b hb q).1 hq
        exact h q hqlt q' hq' fun heq => hnot ((hr.mem_iff b hb q').2 ⟨hq', heq ▸ hblock⟩)
      obtain ⟨hr', h'⟩ := justified_refineAll ht (hr.nodup b) hlt hout (sound_popped hr hw)
        (fun c hc => List.mem_range.1 hc) h
      exact ih hr' h'

/-- states of one kind start out in one block -/
theorem justified_initial (g : Graph) (k : Nat) (δ : Nat → Nat → Nat) :
    Justified g.size k δ (fun q => kind (g.state q)) (initial g) := by
  intro q hq q' hq' hne
  refine ⟨[], List.forall_mem_nil _, fun heq => hne ?_⟩
  obtain ⟨block, hmem, hin⟩ := exists_mem_kinds hq
  obtain ⟨-, kd, -, rfl⟩ := mem_kinds.1 hmem
  obtain ⟨i, hi, hget⟩ := List.getElem_of_mem hmem
  have hsome := List.getElem?_eq_getElem hi
  rw [hget] at hsome
  have hin' : q' ∈ g.ids.filter fun id => kind (g.state id) == kd := by
    obtain ⟨-, hkind⟩ := List.mem_filter.1 hin
    exact List.mem_filter.2 ⟨Graph.mem_ids.2 hq', (congrArg (· == kd) heq).symm.trans hkind⟩
  rw [blockFor_initial hsome hin hq, blockFor_initial hsome hin' hq']

end Refinement

/-! ## the minimized graph -/

/-- words tell the states of a total graph apart -/
def Graph.Parted (p : Partition) (h : Graph) (δ : Nat → Nat → Nat) : Prop :=
  ∀ i < h.size, ∀ j < h.size, i ≠ j → ∃ w : List Nat, (∀ sym ∈ w, sym ≤ p.max) ∧
    Refinement.kind (h.state (Total.run p δ i w)) ≠ Refinement.kind (h.state (Total.run p δ j w))

namespace Refinement

variable {p : Partition} {δ : Nat → Nat → Nat} {r : Refinement} {n : Nat}

theorem kind_congr {s s' : State} (hacc : s.accepting = s'.accepting)
    (hsil : s'.accepting = false → s.silent = s'.silent) : kind s = kind s' := by
  unfold kind
  rw [hacc]
  cases h : s'.accepting with
  | true => rfl
  | false => rw [hsil h]

theorem run_representatives (hp : p.Proper) (q : Nat) {cs : List Nat} (hcs : ∀ c ∈ cs, c < p.size) :
    Total.run p δ q (cs.map p.representative) = cs.foldl δ q := by
  induction cs generalizing q with
  | nil => rfl
  | cons c cs ih =>
    obtain ⟨hc, hcs⟩ := List.forall_mem_cons.1 hcs
    show Total.run p δ (δ q (p.cellOf (p.representative c))) _ = _
    rw [hp.cellOf_representative hc, ih _ hcs]
    rfl

theorem place_leader (hr : r.Sound n) {i : Nat} (hi : i < r.blocks.size) :
    r.place (r.leader i) = i := by
  have hi' : i < r.inOrder.length := r.length_inOrder.symm ▸ hi
  rw [place, (leader_spec hr hi).2.1, List.getD_eq_getElem?_getD, List.getElem?_eq_getElem hi']
  exact r.nodup_inOrder.idxOf_getElem i hi'

end Refinement

variable {p : Partition} {g h : Graph} {δ δ' : Nat → Nat → Nat} {f : Nat → Nat}

theorem Quotient.kind (hquot : Quotient p g h δ δ' f) {q : Nat} (hq : q < g.size) :
    Refinement.kind (h.state (f q)) = Refinement.kind (g.state q) :=
  Refinement.kind_congr (hquot.accepting q hq) (hquot.silent q hq)

/-- the minimized graph makes states one, and no two of its states are alike under all words -/
theorem parted_minimize (hg : Complete p g δ) (hp : p.Proper) :
    ∃ δ' f, Quotient p g (g.minimize p) δ δ' f ∧ (g.minimize p).Parted p δ' := by
  obtain ⟨hr, hstable, hkind⟩ := Graph.refinement_spec hg hp
  have ht := hg.tabulates hp
  have hjust : Refinement.Justified g.size p.size δ (fun q => Refinement.kind (g.state q))
      (g.refinement p) := Refinement.justified_run ht g.size (Refinement.sound_initial g)
    (Refinement.justified_initial g p.size δ)
  rw [Graph.minimize_eq hg]
  obtain ⟨δ', hquot⟩ : ∃ δ', Quotient p g ((g.refinement p).quotient g p _) δ δ'
      (g.refinement p).place := ⟨_, Refinement.quotient_quotient ht hr hg hstable hkind⟩
  -- a state of the quotient behaves as the first member of its block
  have hleader {i : Nat} (hi : i < (g.refinement p).blocks.size) :=
    (Refinement.leader_spec hr hi).1
  have hlike {i : Nat} (hi : i < (g.refinement p).blocks.size) (w : List Nat) :
      Refinement.kind (((g.refinement p).quotient g p (Transitions.ofGraph g p)).state
        (Total.run p δ' i w)) =
          Refinement.kind (g.state (Total.run p δ ((g.refinement p).leader i) w)) := by
    have hrun := hquot.run hg hp (hleader hi) w
    rw [Refinement.place_leader hr hi] at hrun
    rw [← hrun, hquot.kind (Total.run_lt_of_closed hp hg.closed (hleader hi) w)]
  refine ⟨δ', _, hquot, fun i hi j hj hne => ?_⟩
  rw [Refinement.size_quotient] at hi hj
  have hblock : (g.refinement p).blockFor ((g.refinement p).leader i) ≠
      (g.refinement p).blockFor ((g.refinement p).leader j) := fun heq => hne <| by
    rw [← Refinement.place_leader hr hi, ← Refinement.place_leader hr hj, Refinement.place, heq]
    rfl
  obtain ⟨cs, hcs, htold⟩ := hjust _ (hleader hi) _ (hleader hj) hblock
  refine ⟨cs.map p.representative, fun sym hsym => ?_, ?_⟩
  · obtain ⟨c, hc, rfl⟩ := List.mem_map.1 hsym
    exact hp.representative_le_max (hcs c hc)
  · rw [hlike hi, hlike hj, Refinement.run_representatives hp _ hcs,
      Refinement.run_representatives hp _ hcs]
    exact htold

end SpanSearch
