import Mathlib.Data.List.Nodup
import Mathlib.Data.List.Perm.Subperm
import SpanSearch.Tracer

/-!
# The threads that are alive

* `SparseSet.Agrees`     the two arrays of a set agree on its members
* `Agrees.insert`        so they do with one more member
* `Threads.Ready`        every live state has captures
* `Threads.at?`          the captures of a live state
* `put_spec`, `offer_eq`   what offering captures to a state does
-/

namespace SpanSearch

/-! ## sparse sets -/

namespace SparseSet

variable {s : SparseSet} {capacity id x : Nat}

/-- the two arrays agree on the members, and there is room for all numbers below a capacity -/
structure Agrees (s : SparseSet) (capacity : Nat) : Prop where
  dense : s.dense.size = capacity
  sparse : s.sparse.size = capacity
  size_le : s.size ≤ capacity
  back : ∀ i, i < s.size → ∃ id, s.dense[i]? = some id ∧ s.sparse[id]? = some i

theorem agrees_empty (capacity : Nat) : (empty capacity).Agrees capacity where
  dense := Array.size_replicate
  sparse := Array.size_replicate
  size_le := Nat.zero_le _
  back := fun i hi => absurd hi (Nat.not_lt_zero i)

theorem Agrees.clear (hs : s.Agrees capacity) : s.clear.Agrees capacity where
  dense := hs.dense
  sparse := hs.sparse
  size_le := Nat.zero_le _
  back := fun i hi => absurd hi (Nat.not_lt_zero i)

theorem contains_iff : s.contains id = true ↔
    ∃ i, i < s.size ∧ s.sparse[id]? = some i ∧ s.dense[i]? = some id := by
  rw [contains]
  cases s.sparse[id]? with
  | none =>
    exact iff_of_false Bool.false_ne_true fun ⟨i, _, h, _⟩ => absurd h (Option.some_ne_none i).symm
  | some i =>
    dsimp only
    rw [Bool.and_eq_true, decide_eq_true_eq, beq_iff_eq]
    refine ⟨fun ⟨hi, hd⟩ => ⟨i, hi, rfl, hd⟩, fun ⟨j, hj, hs, hd⟩ => ?_⟩
    obtain rfl := Option.some.inj hs
    exact ⟨hj, hd⟩

variable (hs : s.Agrees capacity)
include hs

/-- the list of the members has those that the set contains -/
theorem mem_toList : id ∈ s.toList ↔ s.contains id = true := by
  rw [contains_iff, toList]
  constructor
  · intro h
    obtain ⟨i, hi, hget⟩ := List.getElem_of_mem h
    rw [List.length_take] at hi
    rw [List.getElem_take] at hget
    have hlt : i < s.size := by omega
    obtain ⟨x, hdense, hsparse⟩ := hs.back i hlt
    have hx : s.dense[i]? = some id := by
      rw [← Array.getElem?_toList, List.getElem?_eq_getElem (by omega), hget]
    obtain rfl := Option.some.inj (hdense.symm.trans hx)
    exact ⟨i, hlt, hsparse, hx⟩
  · rintro ⟨i, hi, -, hdense⟩
    rw [← Array.getElem?_toList] at hdense
    refine List.mem_of_getElem? (i := i) ?_
    rwa [List.getElem?_take_of_lt hi]

theorem lt_of_contains (h : s.contains id = true) : id < capacity := by
  obtain ⟨i, -, hsparse, -⟩ := contains_iff.1 h
  rw [← hs.sparse]
  exact (Array.getElem?_eq_some_iff.1 hsparse).1

theorem length_toList : s.toList.length = s.size := by
  rw [toList, List.length_take, Array.length_toList, hs.dense, Nat.min_eq_left hs.size_le]

theorem nodup_toList : s.toList.Nodup := by
  rw [List.nodup_iff_getElem?_ne_getElem?]
  intro i j hij hj heq
  rw [length_toList hs] at hj
  rw [toList, List.getElem?_take_of_lt (Nat.lt_trans hij hj), List.getElem?_take_of_lt hj,
    Array.getElem?_toList, Array.getElem?_toList] at heq
  obtain ⟨x, hx, hxs⟩ := hs.back i (Nat.lt_trans hij hj)
  obtain ⟨y, hy, hys⟩ := hs.back j hj
  obtain rfl : x = y := Option.some.inj (hx.symm.trans (heq.trans hy))
  exact absurd (Option.some.inj (hxs.symm.trans hys)) (Nat.ne_of_lt hij)

/-- there is room for a number that is no member yet -/
theorem size_lt (hid : id < capacity) (hnot : s.contains id = false) : s.size < capacity := by
  have hnodup : (id :: s.toList).Nodup := by
    refine List.nodup_cons.2 ⟨fun h => ?_, nodup_toList hs⟩
    rw [(mem_toList hs).1 h] at hnot
    exact Bool.false_ne_true hnot.symm
  have hsub : id :: s.toList ⊆ List.range capacity := by
    intro x hx
    rcases List.mem_cons.1 hx with rfl | hx
    · exact List.mem_range.2 hid
    · exact List.mem_range.2 (lt_of_contains hs ((mem_toList hs).1 hx))
  have hle := (List.subperm_of_subset hnodup hsub).length_le
  rw [List.length_range, List.length_cons, length_toList hs] at hle
  exact hle

theorem Agrees.insert (hid : id < capacity) : (s.insert id).2.Agrees capacity := by
  by_cases hin : s.contains id = true
  · rw [insert_of_contains hin]
    exact hs
  · have hnot := Bool.eq_false_iff.2 hin
    have hlt := size_lt hs hid hnot
    rw [SparseSet.insert, hnot, if_neg Bool.false_ne_true]
    refine ⟨?_, ?_, hlt, fun i hi => ?_⟩
    · rw [Array.size_setIfInBounds, hs.dense]
    · rw [Array.size_setIfInBounds, hs.sparse]
    · rcases Nat.lt_succ_iff_lt_or_eq.1 hi with hi | rfl
      · obtain ⟨x, hdense, hsparse⟩ := hs.back i hi
        have hx : x ≠ id := fun heq => hin (contains_iff.2 ⟨i, hi, heq ▸ hsparse, heq ▸ hdense⟩)
        refine ⟨x, ?_, ?_⟩
        · rwa [Array.getElem?_setIfInBounds_ne (Nat.ne_of_gt hi)]
        · rwa [Array.getElem?_setIfInBounds_ne (Ne.symm hx)]
      · refine ⟨id, ?_, ?_⟩
        · exact Array.getElem?_setIfInBounds_self_of_lt (hs.dense.symm ▸ hlt)
        · exact Array.getElem?_setIfInBounds_self_of_lt (hs.sparse.symm ▸ hid)

theorem contains_insert (hid : id < capacity) :
    (s.insert id).2.contains x = true ↔ x = id ∨ s.contains x = true := by
  by_cases hin : s.contains id = true
  · rw [insert_of_contains hin]
    exact (or_iff_right_of_imp fun h => h ▸ hin).symm
  · have hnot := Bool.eq_false_iff.2 hin
    have hroom : s.size < s.dense.size := hs.dense.symm ▸ size_lt hs hid hnot
    rw [← mem_toList (hs.insert hid), toList_insert_of_not_contains hnot hroom, List.mem_append,
      List.mem_singleton, mem_toList hs]
    exact or_comm

end SparseSet

/-! ## threads -/

namespace Threads

variable {t t' : Threads} {n id x : Nat} {c d : Captures}

structure Ready (t : Threads) (n : Nat) : Prop where
  live : t.live.Agrees n
  slots : t.slots.size = n
  captured : ∀ id, t.live.contains id = true → ∃ c, t.captures? id = some c

def at? (t : Threads) (id : Nat) : Option Captures :=
  if t.live.contains id then t.captures? id else none

/-- the threads with captures recorded for a state -/
def put (t : Threads) (id : Nat) (c : Captures) : Threads :=
  ⟨(t.live.insert id).2, t.slots.setIfInBounds id (some c)⟩

theorem ready_empty (n : Nat) : (empty n).Ready n where
  live := SparseSet.agrees_empty n
  slots := Array.size_replicate
  captured := fun id h => absurd ((SparseSet.contains_empty n id).symm.trans h) Bool.false_ne_true

theorem at?_empty (n id : Nat) : (empty n).at? id = none := by
  rw [at?, empty, SparseSet.contains_empty]
  rfl

theorem Ready.clear (ht : t.Ready n) : t.clear.Ready n where
  live := ht.live.clear
  slots := ht.slots
  captured := fun id h =>
    absurd ((SparseSet.contains_clear t.live id).symm.trans h) Bool.false_ne_true

theorem at?_clear (t : Threads) (id : Nat) : t.clear.at? id = none := by
  rw [at?, Threads.clear, SparseSet.contains_clear]
  rfl

section
variable (ht : t.Ready n)
include ht

theorem at?_isSome : (t.at? id).isSome = true ↔ t.live.contains id = true := by
  rw [at?]
  by_cases h : t.live.contains id = true
  · obtain ⟨c, hc⟩ := ht.captured id h
    rw [if_pos h, hc]
    exact iff_of_true rfl h
  · rw [if_neg h]
    exact iff_of_false Bool.false_ne_true h

theorem mem_toList : (id, c) ∈ t.toList ↔ t.at? id = some c := by
  rw [toList, List.mem_filterMap]
  constructor
  · rintro ⟨x, hx, heq⟩
    obtain ⟨d, hd, heq⟩ := Option.map_eq_some_iff.1 heq
    obtain ⟨rfl, rfl⟩ := Prod.mk.inj heq
    rw [at?, if_pos ((SparseSet.mem_toList ht.live).1 hx), hd]
  · intro h
    have hin := (at?_isSome ht).1 (h ▸ rfl : (t.at? id).isSome = true)
    rw [at?, if_pos hin] at h
    exact ⟨id, (SparseSet.mem_toList ht.live).2 hin, by rw [h]; rfl⟩

theorem isEmpty_iff : t.live.isEmpty = true ↔ ∀ id, t.at? id = none := by
  have hsize : t.live.isEmpty = true ↔ t.live.toList = [] := by
    have hle := ht.live.size_le
    have hdense := ht.live.dense
    rw [SparseSet.isEmpty, beq_iff_eq, SparseSet.toList, List.take_eq_nil_iff]
    refine (or_iff_left_of_imp fun h => ?_).symm
    rw [Array.toList_eq_nil_iff] at h
    have hsize : t.live.dense.size = 0 := by rw [h]; rfl
    omega
  rw [hsize, List.eq_nil_iff_forall_not_mem]
  refine forall_congr' fun id => ?_
  rw [SparseSet.mem_toList ht.live, ← at?_isSome ht, Option.isSome_iff_ne_none, not_not]

/-- with captures recorded for a state nothing else changes -/
theorem put_spec (hid : id < n) (c : Captures) :
    (t.put id c).Ready n ∧ ∀ x, (t.put id c).at? x = if x = id then some c else t.at? x := by
  have hslot (x : Nat) : (t.put id c).captures? x = if x = id then some c else t.captures? x := by
    rw [captures?, captures?, put, Array.getD_eq_getD_getElem?, Array.getD_eq_getD_getElem?]
    split
    · next h =>
      rw [h, Array.getElem?_setIfInBounds_self_of_lt (ht.slots.symm ▸ hid)]
      rfl
    · next h => rw [Array.getElem?_setIfInBounds_ne (Ne.symm h)]
  have hcontains (x : Nat) : (t.put id c).live.contains x = true ↔
      x = id ∨ t.live.contains x = true := SparseSet.contains_insert ht.live hid
  refine ⟨⟨ht.live.insert hid, ?_, fun x hx => ?_⟩, fun x => ?_⟩
  · exact Array.size_setIfInBounds.trans ht.slots
  · rw [hslot]
    split
    · exact ⟨c, rfl⟩
    · next hne => exact ht.captured x (((hcontains x).1 hx).resolve_left hne)
  · rw [at?, hslot, at?]
    by_cases hx : x = id
    · rw [if_pos ((hcontains x).2 (.inl hx)), if_pos hx, if_pos hx]
    · have hsame := (hcontains x).trans (or_iff_right hx)
      rw [if_neg hx, if_neg hx]
      by_cases hin : t.live.contains x = true
      · rw [if_pos hin, if_pos (hsame.2 hin)]
      · rw [if_neg hin, if_neg (mt hsame.1 hin)]

omit ht in
theorem offer_eq (id : Nat) (c : Captures) : t.offer id c =
    if (t.at? id).any (fun old => (compare old c).isLE) then none else some (t.put id c) := by
  have hfresh := SparseSet.insert_fst t.live id
  unfold Threads.offer at?
  dsimp only
  rw [hfresh]
  by_cases hin : t.live.contains id = true
  · rw [if_pos hin, hin]
    cases t.captures? id <;> rfl
  · rw [if_neg hin, Bool.eq_false_iff.2 hin]
    cases t.captures? id <;> rfl

end
end Threads
end SpanSearch
