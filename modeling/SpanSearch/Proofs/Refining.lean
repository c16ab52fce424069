import Mathlib.Data.List.SplitBy
import SpanSearch.Proofs.Totalizing

/-!
# Refinement stops at blocks that no word tells apart

* `Refinement.Sound`      blocks, the block of each state and the agenda agree
* `Refinement.Refines`    one value splits blocks of another and keeps what waits
* `refines_split`         what one split does
* `Refinement.Pending`    states of one block whose successors are told apart have a waiting
                          splitter
* `pending_refineBy`      using a splitter for one cell
* `stable_run`            no splitter waits in the end, so successors of a block are a block
-/

namespace SpanSearch
namespace Refinement

variable {n k : Nat} {δ : Nat → Nat → Nat} {t : Transitions} {r r' r'' : Refinement}

/-- the states below `n` are divided into blocks, and the marks say which blocks wait -/
structure Sound (n : Nat) (r : Refinement) : Prop where
  size_blockOf : r.blockOf.size = n
  size_queued : r.queued.size = r.blocks.size
  mem_iff : ∀ b < r.blocks.size, ∀ q, q ∈ r.members b ↔ q < n ∧ r.blockFor q = b
  blockFor_lt : ∀ q < n, r.blockFor q < r.blocks.size
  nodup : ∀ b, (r.members b).Nodup
  nonempty : ∀ b < r.blocks.size, r.members b ≠ []
  waits : ∀ b, b ∈ r.waiting ↔ r.queued.getD b false = true
  once : r.waiting.Nodup

theorem lt_of_mem_members {b q : Nat} (hq : q ∈ r.members b) :
    b < r.blocks.size := by
  by_contra hb
  rw [members, getD_of_size_le (Nat.le_of_not_lt hb)] at hq
  exact absurd hq List.not_mem_nil

theorem Sound.lt_of_mem_waiting (hr : r.Sound n) {b : Nat} (hb : b ∈ r.waiting) :
    b < r.blocks.size := by
  have hqueued := (hr.waits b).1 hb
  by_contra hle
  rw [getD_of_size_le (hr.size_queued ▸ Nat.le_of_not_lt hle)] at hqueued
  exact Bool.false_ne_true hqueued

theorem Sound.size_blocks_le (hr : r.Sound n) : r.blocks.size ≤ n := by
  have hsub : List.range r.blocks.size ⊆ (List.range n).map r.blockFor := by
    intro b hb
    have hb := List.mem_range.1 hb
    obtain ⟨q, hq⟩ := List.exists_mem_of_ne_nil _ (hr.nonempty b hb)
    obtain ⟨hlt, hblock⟩ := (hr.mem_iff b hb q).1 hq
    exact List.mem_map.2 ⟨q, List.mem_range.2 hlt, hblock⟩
  have hlen := (List.nodup_range.subperm hsub).length_le
  rwa [List.length_range, List.length_map, List.length_range] at hlen

/-- blocks of `r` are split on the way to `r'`; what waited still waits, in all its parts, and
of a block that is split one part waits -/
structure Refines (n : Nat) (r r' : Refinement) : Prop where
  same : ∀ q < n, ∀ q' < n, r'.blockFor q = r'.blockFor q' → r.blockFor q = r.blockFor q'
  queued : ∀ q < n, r.queued.getD (r.blockFor q) false = true →
    r'.queued.getD (r'.blockFor q) false = true
  parts : ∀ q < n, ∀ q' < n, r.blockFor q = r.blockFor q' → r'.blockFor q ≠ r'.blockFor q' →
    r'.queued.getD (r'.blockFor q) false = true ∨ r'.queued.getD (r'.blockFor q') false = true
  count : r'.waiting.length + r.blocks.size = r.waiting.length + r'.blocks.size

theorem Refines.refl (n : Nat) (r : Refinement) : Refines n r r where
  same := fun _ _ _ _ h => h
  queued := fun _ _ h => h
  parts := fun _ _ _ _ h hne => absurd h hne
  count := rfl

theorem Refines.trans (h : Refines n r r') (h' : Refines n r' r'') : Refines n r r'' where
  same := fun q hq q' hq' heq => h.same q hq q' hq' (h'.same q hq q' hq' heq)
  queued := fun q hq hqueued => h'.queued q hq (h.queued q hq hqueued)
  parts := by
    intro q hq q' hq' heq hne
    by_cases hmid : r'.blockFor q = r'.blockFor q'
    · exact h'.parts q hq q' hq' hmid hne
    · rcases h.parts q hq q' hq' heq hmid with hqueued | hqueued
      · exact .inl (h'.queued q hq hqueued)
      · exact .inr (h'.queued q' hq' hqueued)
  count := by
    have h1 := h.count
    have h2 := h'.count
    omega

/-! ## one split -/

/-- the part of a block that moves out: some of its states, but not all -/
structure Moves (r : Refinement) (b : Nat) (moved : List Nat) : Prop where
  nonempty : moved ≠ []
  nodup : moved.Nodup
  subset : ∀ q ∈ moved, q ∈ r.members b
  fewer : moved.length < (r.members b).length

def splitter (r : Refinement) (b : Nat) (moved : List Nat) : Nat :=
  let stay := (r.members b).filter fun id => (r.split b moved).blockFor id == b
  if r.queued.getD b false || moved.length ≤ stay.length then r.blocks.size else b

theorem waiting_split (b : Nat) (moved : List Nat) :
    (r.split b moved).waiting = r.splitter b moved :: r.waiting := rfl

theorem queued_split_eq (b : Nat) (moved : List Nat) :
    (r.split b moved).queued =
      (r.queued.push false).setIfInBounds (r.splitter b moved) true := rfl

theorem splitter_spec (b : Nat) (moved : List Nat) :
    r.splitter b moved = r.blocks.size ∨
      r.splitter b moved = b ∧ ¬ r.queued.getD b false = true := by
  unfold splitter
  by_cases hw : r.queued.getD b false = true
  · rw [hw]
    exact .inl rfl
  · have hw' := Bool.eq_false_iff.2 hw
    rw [hw']
    dsimp only
    split
    · exact .inl rfl
    · exact .inr ⟨rfl, Bool.false_ne_true⟩

section
variable (hr : r.Sound n) {b : Nat} {moved : List Nat} (hm : Moves r b moved)
include hr hm

omit hr in
theorem Moves.lt_size : b < r.blocks.size := by
  obtain ⟨q, hq⟩ := List.exists_mem_of_ne_nil _ hm.nonempty
  exact lt_of_mem_members (hm.subset q hq)

theorem Moves.mem_block {q : Nat} (hq : q ∈ moved) : q < n ∧ r.blockFor q = b :=
  (hr.mem_iff b (hm.lt_size) q).1 (hm.subset q hq)

omit hm in
theorem blockFor_split {q : Nat} (hq : q < n) :
    (r.split b moved).blockFor q = if q ∈ moved then r.blocks.size else r.blockFor q :=
  getD_foldl_set moved r.blocks.size 0 (hr.size_blockOf ▸ hq)

theorem queued_split {b' : Nat} :
    (r.split b moved).queued.getD b' false = true ↔
      r.queued.getD b' false = true ∨ b' = r.splitter b moved := by
  have hlt : r.splitter b moved < r.queued.size + 1 := by
    have hb := hm.lt_size
    rw [hr.size_queued]
    rcases splitter_spec (r := r) b moved with h | ⟨h, -⟩ <;> omega
  rw [queued_split_eq, getD_setIfInBounds (by rwa [Array.size_push]), getD_push]
  by_cases heq : b' = r.splitter b moved
  · rw [if_pos heq]
    exact iff_of_true rfl (.inr heq)
  · rw [if_neg heq, or_iff_left heq]
    split
    · next hsize =>
      rw [getD_of_size_le (Nat.le_of_eq hsize.symm)]
    · rfl

omit hr in
theorem members_split_eq (b' : Nat) : (r.split b moved).members b' =
    if b' = r.blocks.size then moved
    else if b' = b then (r.members b).filter fun id => (r.split b moved).blockFor id == b
    else r.members b' := by
  show ((r.blocks.setIfInBounds b _).push moved).getD b' [] = _
  rw [getD_push, Array.size_setIfInBounds, getD_setIfInBounds hm.lt_size]
  rfl

theorem members_split {b' : Nat} (hb' : b' < r.blocks.size + 1) (q : Nat) :
    q ∈ (r.split b moved).members b' ↔ q < n ∧ (r.split b moved).blockFor q = b' := by
  have hb := hm.lt_size
  rw [members_split_eq hm]
  by_cases hfresh : b' = r.blocks.size
  · rw [if_pos hfresh]
    constructor
    · intro hq
      have hlt := (hm.mem_block hr hq).1
      exact ⟨hlt, by rw [blockFor_split hr hlt, if_pos hq, hfresh]⟩
    · rintro ⟨hlt, hblock⟩
      by_contra hq
      rw [blockFor_split hr hlt, if_neg hq] at hblock
      have := hr.blockFor_lt q hlt
      omega
  · rw [if_neg hfresh]
    have hb'lt : b' < r.blocks.size := by omega
    by_cases heq : b' = b
    · subst heq
      rw [if_pos rfl, List.mem_filter, hr.mem_iff b' hb, beq_iff_eq]
      constructor
      · rintro ⟨⟨hlt, -⟩, hblock⟩
        exact ⟨hlt, hblock⟩
      · rintro ⟨hlt, hblock⟩
        refine ⟨⟨hlt, ?_⟩, hblock⟩
        rw [blockFor_split hr hlt] at hblock
        split at hblock
        · omega
        · exact hblock
    · rw [if_neg heq, hr.mem_iff b' hb'lt]
      refine and_congr_right fun hlt => ?_
      rw [blockFor_split hr hlt]
      split
      · next hq =>
        have hblock := (hm.mem_block hr hq).2
        omega
      · rfl

/-- some state moves, and some state of each block does not -/
theorem exists_blockFor_split {b' : Nat} (hb' : b' < r.blocks.size + 1) :
    ∃ q < n, (r.split b moved).blockFor q = b' := by
  by_cases hfresh : b' = r.blocks.size
  · obtain ⟨q, hq⟩ := List.exists_mem_of_ne_nil _ hm.nonempty
    have hlt := (hm.mem_block hr hq).1
    exact ⟨q, hlt, by rw [blockFor_split hr hlt, if_pos hq, hfresh]⟩
  · have hb'lt : b' < r.blocks.size := by omega
    have hstay : ∃ q ∈ r.members b', q ∉ moved := by
      by_cases heq : b' = b
      · subst heq
        by_contra hall
        have hsub : r.members b' ⊆ moved := fun q hq => by
          by_contra hnot
          exact hall ⟨q, hq, hnot⟩
        have hlen := ((hr.nodup b').subperm hsub).length_le
        have := hm.fewer
        omega
      · obtain ⟨q, hq⟩ := List.exists_mem_of_ne_nil _ (hr.nonempty b' hb'lt)
        refine ⟨q, hq, fun hmoved => heq ?_⟩
        rw [← ((hr.mem_iff b' hb'lt q).1 hq).2, (hm.mem_block hr hmoved).2]
    obtain ⟨q, hq, hnot⟩ := hstay
    obtain ⟨hlt, hblock⟩ := (hr.mem_iff b' hb'lt q).1 hq
    exact ⟨q, hlt, by rw [blockFor_split hr hlt, if_neg hnot, hblock]⟩

theorem blockFor_split_lt {q : Nat} (hq : q < n) :
    (r.split b moved).blockFor q < (r.split b moved).blocks.size := by
  have hlt := hr.blockFor_lt q hq
  have hb := hm.lt_size
  rw [size_blocks_split, blockFor_split hr hq]
  split <;> omega

/-- a split leaves blocks and agenda in agreement -/
theorem sound_split : (r.split b moved).Sound n where
  size_blockOf := (size_foldl_setIfInBounds (fun q => q) _ moved _).trans hr.size_blockOf
  size_queued := by
    rw [queued_split_eq, Array.size_setIfInBounds, Array.size_push, size_blocks_split,
      hr.size_queued]
  mem_iff := fun _ hb' q => members_split hr hm (size_blocks_split r b moved ▸ hb') q
  blockFor_lt := fun _ hq => blockFor_split_lt hr hm hq
  nodup := by
    intro b'
    rw [members_split_eq hm]
    split
    · exact hm.nodup
    · split
      · exact (hr.nodup b).filter _
      · exact hr.nodup b'
  nonempty := by
    intro b' hb'
    rw [size_blocks_split] at hb'
    obtain ⟨q, hq, hblock⟩ := exists_blockFor_split hr hm hb'
    exact List.ne_nil_of_mem ((members_split hr hm hb' q).2 ⟨hq, hblock⟩)
  waits := by
    intro b'
    rw [waiting_split, List.mem_cons, queued_split hr hm, hr.waits, or_comm]
  once := by
    rw [waiting_split, List.nodup_cons]
    refine ⟨fun hmem => ?_, hr.once⟩
    rcases splitter_spec (r := r) b moved with h | ⟨h, hnot⟩
    · rw [h, hr.waits, getD_of_size_le (Nat.le_of_eq hr.size_queued)] at hmem
      exact Bool.false_ne_true hmem
    · rw [h, hr.waits] at hmem
      exact hnot hmem

theorem refines_split : Refines n r (r.split b moved) where
  same := by
    intro q hq q' hq' heq
    rw [blockFor_split hr hq, blockFor_split hr hq'] at heq
    have hlt := hr.blockFor_lt q hq
    have hlt' := hr.blockFor_lt q' hq'
    split at heq
    · next hmem =>
      split at heq
      · next hmem' => rw [(hm.mem_block hr hmem).2, (hm.mem_block hr hmem').2]
      · omega
    · split at heq
      · omega
      · exact heq
  queued := by
    intro q hq hqueued
    rw [queued_split hr hm, blockFor_split hr hq]
    split
    · next hmem =>
      -- a part of a block that waits
      rw [(hm.mem_block hr hmem).2] at hqueued
      rcases splitter_spec (r := r) b moved with h | ⟨-, hnot⟩
      · exact .inr h.symm
      · exact absurd hqueued hnot
    · exact .inl hqueued
  parts := by
    intro q hq q' hq' heq hne
    have hlt := hr.blockFor_lt q hq
    have hlt' := hr.blockFor_lt q' hq'
    rw [blockFor_split hr hq, blockFor_split hr hq'] at hne
    rw [queued_split hr hm, queued_split hr hm, blockFor_split hr hq, blockFor_split hr hq']
    -- one of the two moves, the other stays, and one of these parts is the new splitter
    by_cases hmem : q ∈ moved
    · by_cases hmem' : q' ∈ moved
      · rw [if_pos hmem, if_pos hmem'] at hne
        exact absurd rfl hne
      · rw [if_pos hmem, if_neg hmem', ← heq, (hm.mem_block hr hmem).2]
        rcases splitter_spec (r := r) b moved with h | ⟨h, -⟩
        · exact .inl (.inr h.symm)
        · exact .inr (.inr h.symm)
    · by_cases hmem' : q' ∈ moved
      · rw [if_neg hmem, if_pos hmem', heq, (hm.mem_block hr hmem').2]
        rcases splitter_spec (r := r) b moved with h | ⟨h, -⟩
        · exact .inr (.inr h.symm)
        · exact .inl (.inr h.symm)
      · rw [if_neg hmem, if_neg hmem'] at hne
        exact absurd heq hne
  count := by
    rw [size_blocks_split, length_waiting_split]
    omega

end

/-! ## one splitter under one cell -/

structure IsGroup (n : Nat) (r : Refinement) (group : List Nat) : Prop where
  nodup : group.Nodup
  lt : ∀ q ∈ group, q < n
  same : ∀ q ∈ group, ∀ q' ∈ group, r.blockFor q = r.blockFor q'

/-- states of one block are both in a set or both outside it -/
def Tells (n : Nat) (r : Refinement) (S : Nat → Prop) : Prop :=
  ∀ q < n, ∀ q' < n, r.blockFor q = r.blockFor q' → (S q ↔ S q')

theorem Tells.mono {S : Nat → Prop} (h : Tells n r S) (href : Refines n r r') : Tells n r' S :=
  fun q hq q' hq' heq => h q hq q' hq' (href.same q hq q' hq' heq)

/-- separating a group tells it from the rest of its block, and touches no other block -/
theorem separate_spec (hr : r.Sound n) {group : List Nat} (hg : IsGroup n r group) :
    (r.separate group).Sound n ∧ Refines n r (r.separate group) ∧
      Tells n (r.separate group) (· ∈ group) ∧
      ∀ q < n, q ∉ group → (r.separate group).blockFor q = r.blockFor q := by
  unfold separate
  split
  · refine ⟨hr, Refines.refl n r, fun q _ q' _ _ => ?_, fun _ _ _ => rfl⟩
    exact ⟨fun h => absurd h List.not_mem_nil, fun h => absurd h List.not_mem_nil⟩
  · next x rest =>
    have hx : x ∈ x :: rest := List.mem_cons_self
    have hblock (q : Nat) (hq : q ∈ x :: rest) : q ∈ r.members (r.blockFor x) :=
      (hr.mem_iff _ (hr.blockFor_lt x (hg.lt x hx)) q).2 ⟨hg.lt q hq, hg.same q hq x hx⟩
    dsimp only
    split
    · next hfewer =>
      have hm : Moves r (r.blockFor x) (x :: rest) :=
        ⟨List.cons_ne_nil x rest, hg.nodup, hblock, hfewer⟩
      refine ⟨sound_split hr hm, refines_split hr hm, fun q hq q' hq' heq => ?_,
        fun q hq hnot => by rw [blockFor_split hr hq, if_neg hnot]⟩
      rw [blockFor_split hr hq, blockFor_split hr hq'] at heq
      have hlt := hr.blockFor_lt q hq
      have hlt' := hr.blockFor_lt q' hq'
      by_cases hmem : q ∈ x :: rest
      · by_cases hmem' : q' ∈ x :: rest
        · exact iff_of_true hmem hmem'
        · rw [if_pos hmem, if_neg hmem'] at heq
          omega
      · by_cases hmem' : q' ∈ x :: rest
        · rw [if_neg hmem, if_pos hmem'] at heq
          omega
        · exact iff_of_false hmem hmem'
    · next hall =>
      -- the group is its whole block
      have hperm : (x :: rest).Perm (r.members (r.blockFor x)) :=
        (hg.nodup.subperm hblock).perm_of_length_le (Nat.le_of_not_lt hall)
      have hmem (q : Nat) (hq : q < n) : q ∈ x :: rest ↔ r.blockFor q = r.blockFor x := by
        rw [hperm.mem_iff, hr.mem_iff _ (hr.blockFor_lt x (hg.lt x hx))]
        exact and_iff_right hq
      refine ⟨hr, Refines.refl n r, fun q hq q' hq' heq => ?_, fun _ _ _ => rfl⟩
      show q ∈ x :: rest ↔ q' ∈ x :: rest
      rw [hmem q hq, hmem q' hq', heq]

structure AreGroups (n : Nat) (r : Refinement) (groups : List (List Nat)) : Prop where
  each : ∀ group ∈ groups, IsGroup n r group
  apart : groups.Pairwise fun a b => ∀ q ∈ a, ∀ q' ∈ b, r.blockFor q ≠ r.blockFor q'

/-- separating one group leaves the states of the others where they are -/
theorem AreGroups.separate (hr : r.Sound n) {group : List Nat} {groups : List (List Nat)}
    (hg : AreGroups n r (group :: groups)) : AreGroups n (r.separate group) groups := by
  obtain ⟨hgroup, hrest⟩ := List.forall_mem_cons.1 hg.each
  obtain ⟨hnext, hapart⟩ := List.pairwise_cons.1 hg.apart
  obtain ⟨-, -, -, hkeep⟩ := separate_spec hr hgroup
  have hstay : ∀ other ∈ groups, ∀ q ∈ other, (r.separate group).blockFor q = r.blockFor q := by
    intro other hother q hq
    exact hkeep q ((hrest other hother).lt q hq)
      fun hmem => hnext other hother q hmem q hq rfl
  refine ⟨fun other hother => ⟨(hrest other hother).nodup, (hrest other hother).lt, ?_⟩, ?_⟩
  · intro q hq q' hq'
    rw [hstay other hother q hq, hstay other hother q' hq']
    exact (hrest other hother).same q hq q' hq'
  · refine hapart.imp_of_mem fun {a b} ha hb h q hq q' hq' => ?_
    rw [hstay a ha q hq, hstay b hb q' hq']
    exact h q hq q' hq'

theorem separateAll_spec (hr : r.Sound n) {groups : List (List Nat)}
    (hg : AreGroups n r groups) :
    (groups.foldl separate r).Sound n ∧ Refines n r (groups.foldl separate r) ∧
      Tells n (groups.foldl separate r) fun q => ∃ group ∈ groups, q ∈ group := by
  induction groups generalizing r with
  | nil =>
    refine ⟨hr, Refines.refl n r, fun q _ q' _ _ => ?_⟩
    simp
  | cons group groups ih =>
    obtain ⟨hr', href, htells, -⟩ := separate_spec hr (hg.each group List.mem_cons_self)
    obtain ⟨hr'', href', htells'⟩ := ih hr' (hg.separate hr)
    refine ⟨hr'', href.trans href', fun q hq q' hq' heq => ?_⟩
    have hhead : q ∈ group ↔ q' ∈ group := htells.mono href' q hq q' hq' heq
    have htail : (∃ other ∈ groups, q ∈ other) ↔ ∃ other ∈ groups, q' ∈ other :=
      htells' q hq q' hq' heq
    show (∃ other ∈ group :: groups, q ∈ other) ↔ ∃ other ∈ group :: groups, q' ∈ other
    rw [List.exists_mem_cons_iff, List.exists_mem_cons_iff, hhead, htail]

theorem byBlock_le_trans (f : Nat → Nat) (a b c : Nat)
    (hab : (decide (f a < f b) || (f a == f b && decide (a ≤ b))) = true)
    (hbc : (decide (f b < f c) || (f b == f c && decide (b ≤ c))) = true) :
    (decide (f a < f c) || (f a == f c && decide (a ≤ c))) = true := by
  simp only [Bool.or_eq_true, Bool.and_eq_true, decide_eq_true_eq, beq_iff_eq] at *
  omega

theorem byBlock_le_total (f : Nat → Nat) (a b : Nat) :
    ((decide (f a < f b) || (f a == f b && decide (a ≤ b))) ||
      (decide (f b < f a) || (f b == f a && decide (b ≤ a)))) = true := by
  simp only [Bool.or_eq_true, Bool.and_eq_true, decide_eq_true_eq, beq_iff_eq]
  omega

theorem mem_byBlock {ids : List Nat} {q : Nat} :
    (∃ group ∈ r.byBlock ids, q ∈ group) ↔ q ∈ ids := by
  rw [← List.mem_flatten, byBlock, List.flatten_splitBy, List.mem_mergeSort]

/-- all blocks of one group come before all blocks of another -/
def Below (r : Refinement) (a b : List Nat) : Prop :=
  a ≠ [] ∧ b ≠ [] ∧ ∀ q ∈ a, ∀ q' ∈ b, r.blockFor q < r.blockFor q'

theorem Below.trans {a b c : List Nat} (hab : Below r a b) (hbc : Below r b c) :
    Below r a c := by
  obtain ⟨m, hm⟩ := List.exists_mem_of_ne_nil b hab.2.1
  refine ⟨hab.1, hbc.2.1, fun q hq q' hq' => ?_⟩
  exact Nat.lt_trans (hab.2.2 q hq m hm) (hbc.2.2 m hm q' hq')

theorem isChain_below {groups : List (List Nat)}
    (hle : groups.IsChain fun a b => ∀ q ∈ a, ∀ q' ∈ b, r.blockFor q ≤ r.blockFor q')
    (hne : groups.IsChain fun a b => ∀ q ∈ a, ∀ q' ∈ b, r.blockFor q ≠ r.blockFor q')
    (hnil : ∀ group ∈ groups, group ≠ []) : groups.IsChain (Below r) := by
  induction hle with
  | nil => exact .nil
  | singleton a => exact .singleton a
  | @cons_cons a b groups hab _ ih =>
    obtain ⟨hab', hrest⟩ := List.isChain_cons_cons.1 hne
    obtain ⟨ha, hnil⟩ := List.forall_mem_cons.1 hnil
    refine .cons_cons ⟨ha, hnil b List.mem_cons_self, fun q hq q' hq' => ?_⟩ (ih hrest hnil)
    exact Nat.lt_of_le_of_ne (hab q hq q' hq') (hab' q hq q' hq')

/-- a group lies within one block -/
theorem same_of_mem_byBlock {ids group : List Nat} (hgroup : group ∈ r.byBlock ids) :
    ∀ q ∈ group, ∀ q' ∈ group, r.blockFor q = r.blockFor q' := by
  have hchain := List.isChain_of_mem_splitBy hgroup
  have hpair : group.Pairwise fun a b => r.blockFor a = r.blockFor b := by
    have htrans : Trans (fun a b => r.blockFor a = r.blockFor b)
        (fun a b => r.blockFor a = r.blockFor b) (fun a b => r.blockFor a = r.blockFor b) :=
      ⟨fun hab hbc => hab.trans hbc⟩
    refine List.IsChain.pairwise (hchain.imp fun a b h => ?_)
    exact beq_iff_eq.1 h
  have hsymm : Std.Symm fun a b => r.blockFor a = r.blockFor b := ⟨fun _ _ h => h.symm⟩
  intro q hq q' hq'
  exact List.Pairwise.forall_of_forall (R := fun a b => r.blockFor a = r.blockFor b)
    (fun _ _ => rfl) hpair hq hq'

/-- the blocks of two groups in a row are different, so they ascend from group to group -/
theorem pairwise_below_byBlock {ids : List Nat}
    (hsorted : (r.byBlock ids).flatten.Pairwise fun a b => r.blockFor a ≤ r.blockFor b) :
    (r.byBlock ids).Pairwise (Below r) := by
  obtain ⟨-, hle⟩ := List.pairwise_flatten.1 hsorted
  have hadjacent : (r.byBlock ids).IsChain (Below r) := by
    refine isChain_below hle.isChain ?_ fun group hgroup => List.ne_nil_of_mem_splitBy hgroup
    refine (List.isChain_getLast_head_splitBy _ _).imp_of_mem_imp fun a b hamem hbmem h => ?_
    obtain ⟨ha, hb, hne⟩ := h
    have hne := beq_eq_false_iff_ne.1 hne
    intro q hq q' hq' heq
    refine hne ?_
    rw [same_of_mem_byBlock hamem _ (List.getLast_mem ha) q hq, heq,
      same_of_mem_byBlock hbmem _ hq' _ (List.head_mem hb)]
  have htrans : Trans (Below r) (Below r) (Below r) := ⟨Below.trans⟩
  exact hadjacent.pairwise

theorem areGroups_byBlock {ids : List Nat} (hnodup : ids.Nodup) (hlt : ∀ q ∈ ids, q < n) :
    AreGroups n r (r.byBlock ids) := by
  have hflat : (r.byBlock ids).flatten = ids.mergeSort fun a b =>
      decide (r.blockFor a < r.blockFor b) || (r.blockFor a == r.blockFor b && decide (a ≤ b)) :=
    List.flatten_splitBy _ _
  have hsorted : (r.byBlock ids).flatten.Pairwise fun a b => r.blockFor a ≤ r.blockFor b := by
    rw [hflat]
    refine (List.pairwise_mergeSort (byBlock_le_trans r.blockFor)
      (byBlock_le_total r.blockFor) ids).imp fun {a b} h => ?_
    simp only [Bool.or_eq_true, Bool.and_eq_true, decide_eq_true_eq, beq_iff_eq] at h
    omega
  have hnodup' : (r.byBlock ids).flatten.Nodup := by
    rw [hflat]
    exact (List.mergeSort_perm ids _).nodup_iff.2 hnodup
  refine ⟨fun group hgroup => ⟨?_, ?_, same_of_mem_byBlock hgroup⟩, ?_⟩
  · exact (List.nodup_flatten.1 hnodup').1 group hgroup
  · intro q hq
    exact hlt q (mem_byBlock.1 ⟨group, hgroup, hq⟩)
  · exact (pairwise_below_byBlock hsorted).imp fun h q hq q' hq' => Nat.ne_of_lt (h.2.2 q hq q' hq')

/-! ## the invariant of the loop -/

/-- if successors of two states of one block lie in two blocks, one of these waits, or the states
are still to be told apart by the splitter `S` under one of the cells `cs` -/
def Pending (n k : Nat) (δ : Nat → Nat → Nat) (r : Refinement) (S : Nat → Prop)
    (cs : List Nat) : Prop :=
  ∀ q < n, ∀ q' < n, r.blockFor q = r.blockFor q' → ∀ c < k,
    r.blockFor (δ q c) ≠ r.blockFor (δ q' c) →
      r.queued.getD (r.blockFor (δ q c)) false = true ∨
        r.queued.getD (r.blockFor (δ q' c)) false = true ∨ c ∈ cs ∧ ¬ (S (δ q c) ↔ S (δ q' c))

section
variable (ht : Tabulates n k δ t)
include ht

theorem Pending.mono {S : Nat → Prop} {cs : List Nat} (h : Pending n k δ r S cs)
    (href : Refines n r r') : Pending n k δ r' S cs := by
  intro q hq q' hq' heq c hc hne
  have hlt := ht.closed q hq c hc
  have hlt' := ht.closed q' hq' c hc
  by_cases hold : r.blockFor (δ q c) = r.blockFor (δ q' c)
  · rcases href.parts _ hlt _ hlt' hold hne with hqueued | hqueued
    · exact .inl hqueued
    · exact .inr (.inl hqueued)
  · rcases h q hq q' hq' (href.same q hq q' hq' heq) c hc hold with hqueued | hqueued | htold
    · exact .inl (href.queued _ hlt hqueued)
    · exact .inr (.inl (href.queued _ hlt' hqueued))
    · exact .inr (.inr htold)

theorem mem_flatMap_predecessors {S : List Nat} (hS : ∀ q ∈ S, q < n) {c : Nat} (hc : c < k)
    {x : Nat} : x ∈ S.flatMap (fun id => t.predecessors id c) ↔ x < n ∧ δ x c ∈ S := by
  rw [List.mem_flatMap]
  constructor
  · rintro ⟨q, hq, hx⟩
    rw [ht.predecessors q (hS q hq) c hc, List.mem_filter, List.mem_range, beq_iff_eq] at hx
    obtain ⟨hlt, rfl⟩ := hx
    exact ⟨hlt, hq⟩
  · rintro ⟨hlt, hmem⟩
    refine ⟨_, hmem, ?_⟩
    rw [ht.predecessors _ (hS _ hmem) c hc, List.mem_filter, List.mem_range, beq_iff_eq]
    exact ⟨hlt, rfl⟩

theorem nodup_flatMap_predecessors {S : List Nat} (hnodup : S.Nodup) (hS : ∀ q ∈ S, q < n)
    {c : Nat} (hc : c < k) : (S.flatMap fun id => t.predecessors id c).Nodup := by
  rw [List.nodup_flatMap]
  constructor
  · intro q hq
    rw [ht.predecessors q (hS q hq) c hc]
    exact List.nodup_range.filter _
  · refine hnodup.imp_of_mem fun {q q'} hq hq' hne x hx hx' => ?_
    beta_reduce at hx hx'
    rw [ht.predecessors q (hS q hq) c hc, List.mem_filter, beq_iff_eq] at hx
    rw [ht.predecessors q' (hS q' hq') c hc, List.mem_filter, beq_iff_eq] at hx'
    exact hne (hx.2.symm.trans hx'.2)

theorem refineBy_spec (hr : r.Sound n) {S : List Nat} (hnodup : S.Nodup) (hS : ∀ q ∈ S, q < n)
    {c : Nat} (hc : c < k) : (refineBy t S r c).Sound n ∧ Refines n r (refineBy t S r c) ∧
      Tells n (refineBy t S r c) fun x => δ x c ∈ S := by
  have hmem {x : Nat} := mem_flatMap_predecessors ht hS hc (x := x)
  obtain ⟨hr', href, htells⟩ := separateAll_spec hr (areGroups_byBlock (r := r)
    (nodup_flatMap_predecessors ht hnodup hS hc) fun q hq => (hmem.1 hq).1)
  refine ⟨hr', href, fun q hq q' hq' heq => ?_⟩
  have h := htells q hq q' hq' heq
  beta_reduce at h
  rw [mem_byBlock, mem_byBlock, hmem, hmem] at h
  exact ⟨fun hin => (h.1 ⟨hq, hin⟩).2, fun hin => (h.2 ⟨hq', hin⟩).2⟩

theorem pending_refineBy (hr : r.Sound n) {S : List Nat} (hnodup : S.Nodup)
    (hS : ∀ q ∈ S, q < n) {c : Nat} (hc : c < k) {cs : List Nat}
    (h : Pending n k δ r (· ∈ S) (c :: cs)) :
    Pending n k δ (refineBy t S r c) (· ∈ S) cs := by
  obtain ⟨-, href, htells⟩ := refineBy_spec ht hr hnodup hS hc
  intro q hq q' hq' heq c' hc' hne
  rcases h.mono ht href q hq q' hq' heq c' hc' hne with hqueued | hqueued | ⟨hmem, htold⟩
  · exact .inl hqueued
  · exact .inr (.inl hqueued)
  · refine .inr (.inr ⟨?_, htold⟩)
    rcases List.mem_cons.1 hmem with rfl | hmem
    · exact absurd (htells q hq q' hq' heq) htold
    · exact hmem

theorem pending_refineAll (hr : r.Sound n) {S : List Nat} (hnodup : S.Nodup)
    (hS : ∀ q ∈ S, q < n) {cs : List Nat} (hcs : ∀ c ∈ cs, c < k)
    (h : Pending n k δ r (· ∈ S) cs) :
    (cs.foldl (refineBy t S) r).Sound n ∧ Refines n r (cs.foldl (refineBy t S) r) ∧
      Pending n k δ (cs.foldl (refineBy t S) r) (· ∈ S) [] := by
  induction cs generalizing r with
  | nil => exact ⟨hr, Refines.refl n r, h⟩
  | cons c cs ih =>
    obtain ⟨hc, hcs⟩ := List.forall_mem_cons.1 hcs
    obtain ⟨hr', href, -⟩ := refineBy_spec ht hr hnodup hS hc
    obtain ⟨hr'', href', h'⟩ := ih hr' hcs (pending_refineBy ht hr hnodup hS hc h)
    exact ⟨hr'', href.trans href', h'⟩

end

/-! ## all rounds -/

/-- the value with the next splitter taken from the agenda -/
def popped (r : Refinement) (b : Nat) (rest : List Nat) : Refinement :=
  { r with waiting := rest, queued := r.queued.setIfInBounds b false }

theorem queued_popped {b b' : Nat} {rest : List Nat} :
    (r.popped b rest).queued.getD b' false = true ↔
      r.queued.getD b' false = true ∧ b' ≠ b := by
  show (r.queued.setIfInBounds b false).getD b' false = true ↔ _
  rw [Array.getD_eq_getD_getElem?, Array.getElem?_setIfInBounds, Array.getD_eq_getD_getElem?]
  by_cases heq : b = b'
  · subst heq
    rw [if_pos rfl]
    split <;> simp
  · rw [if_neg heq]
    exact (and_iff_left fun h => heq h.symm).symm

theorem sound_popped (hr : r.Sound n) {b : Nat} {rest : List Nat} (hw : r.waiting = b :: rest) :
    (r.popped b rest).Sound n where
  size_blockOf := hr.size_blockOf
  size_queued := (Array.size_setIfInBounds).trans hr.size_queued
  mem_iff := hr.mem_iff
  blockFor_lt := hr.blockFor_lt
  nodup := hr.nodup
  nonempty := hr.nonempty
  waits := by
    intro b'
    have hnot : b ∉ rest := (List.nodup_cons.1 (hw ▸ hr.once)).1
    rw [queued_popped, ← hr.waits, hw, List.mem_cons]
    show b' ∈ rest ↔ _
    constructor
    · exact fun h => ⟨.inr h, fun heq => hnot (heq ▸ h)⟩
    · rintro ⟨h | h, hne⟩
      · exact absurd h hne
      · exact h
  once := (List.nodup_cons.1 (hw ▸ hr.once)).2

/-- the states of a block that is taken from the agenda are to be told from all others -/
theorem pending_popped (ht : Tabulates n k δ t) (hr : r.Sound n) {b : Nat} (hb : b < r.blocks.size)
    {rest : List Nat} {S : Nat → Prop} (h : Pending n k δ r S []) :
    Pending n k δ (r.popped b rest) (· ∈ r.members b) (List.range k) := by
  intro q hq q' hq' heq c hc hne
  rw [queued_popped, queued_popped]
  have hmem (x : Nat) (hx : x < n) : x ∈ r.members b ↔ r.blockFor x = b := by
    rw [hr.mem_iff b hb]
    exact and_iff_right hx
  show _ ∨ _ ∨ c ∈ List.range k ∧ ¬ (δ q c ∈ r.members b ↔ δ q' c ∈ r.members b)
  rw [hmem _ (ht.closed q hq c hc), hmem _ (ht.closed q' hq' c hc)]
  have hne' : r.blockFor (δ q c) ≠ r.blockFor (δ q' c) := hne
  have hrange : c ∈ List.range k := List.mem_range.2 hc
  rcases h q hq q' hq' heq c hc hne' with hqueued | hqueued | ⟨hnil, -⟩
  · by_cases hblock : r.blockFor (δ q c) = b
    · refine .inr (.inr ⟨hrange, fun hiff => hne' ?_⟩)
      rw [hblock, hiff.1 hblock]
    · exact .inl ⟨hqueued, hblock⟩
  · by_cases hblock : r.blockFor (δ q' c) = b
    · refine .inr (.inr ⟨hrange, fun hiff => hne' ?_⟩)
      rw [hblock, hiff.2 hblock]
    · exact .inr (.inl ⟨hqueued, hblock⟩)
  · exact absurd hnil List.not_mem_nil

/-- successors of states of one block are in one block -/
def Stable (n k : Nat) (δ : Nat → Nat → Nat) (r : Refinement) : Prop :=
  ∀ q < n, ∀ q' < n, r.blockFor q = r.blockFor q' → ∀ c < k,
    r.blockFor (δ q c) = r.blockFor (δ q' c)

theorem stable_of_pending (hr : r.Sound n) {S : Nat → Prop} (h : Pending n k δ r S [])
    (hnil : r.waiting = []) : Stable n k δ r := by
  intro q hq q' hq' heq c hc
  by_contra hne
  have hnone (b : Nat) : ¬ r.queued.getD b false = true := by
    rw [← hr.waits, hnil]
    exact List.not_mem_nil
  rcases h q hq q' hq' heq c hc hne with hqueued | hqueued | ⟨hmem, -⟩
  · exact hnone _ hqueued
  · exact hnone _ hqueued
  · exact absurd hmem List.not_mem_nil

/-- in as many rounds as there are states every splitter is used -/
theorem stable_run (ht : Tabulates n k δ t) {S : Nat → Prop} (rounds used : Nat)
    (hcount : used + r.waiting.length + 1 = r.blocks.size) (hrounds : n ≤ used + rounds)
    (hr : r.Sound n) (h : Pending n k δ r S []) :
    (run t (List.range k) rounds r).Sound n ∧ Stable n k δ (run t (List.range k) rounds r) ∧
      ∀ q < n, ∀ q' < n, (run t (List.range k) rounds r).blockFor q =
        (run t (List.range k) rounds r).blockFor q' → r.blockFor q = r.blockFor q' := by
  induction rounds generalizing r S used with
  | zero =>
    have hle := hr.size_blocks_le
    omega
  | succ rounds ih =>
    unfold run
    split
    · next hnil => exact ⟨hr, stable_of_pending hr h hnil, fun _ _ _ _ h => h⟩
    · next b rest hw =>
      have hb := hr.lt_of_mem_waiting (hw ▸ List.mem_cons_self)
      have hlt : ∀ q ∈ r.members b, q < n := fun q hq => ((hr.mem_iff b hb q).1 hq).1
      have htold : Pending n k δ (r.popped b rest) (· ∈ r.members b) (List.range k) :=
        pending_popped ht hr hb h
      obtain ⟨hr', href, h'⟩ := pending_refineAll ht (sound_popped hr hw) (hr.nodup b) hlt
        (fun c hc => List.mem_range.1 hc) htold
      have hcount' := href.count
      have hpop : (r.popped b rest).waiting.length + 1 = r.waiting.length := by
        rw [hw]
        rfl
      have hblocks : (r.popped b rest).blocks.size = r.blocks.size := rfl
      obtain ⟨hr'', hstable, hsame⟩ := ih (used + 1) (by omega) (by omega) hr' h'
      refine ⟨hr'', hstable, fun q hq q' hq' heq => ?_⟩
      exact href.same q hq q' hq' (hsame q hq q' hq' heq)

end Refinement
end SpanSearch
