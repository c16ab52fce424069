import Mathlib.Data.List.DropRight
import SpanSearch.Proofs.Firsts
import SpanSearch.Proofs.Strict.Access

/-!
# Sparse sets as lists of their members

Whatever is asked of a sparse set, it answers as a list of its members would.  The set never looks
outside of its arrays, and what it leaves in them when it is cleared makes no difference.

* `SparseSet.Operation`, `SparseSet.Answer`, `SparseSet.perform`   what can be asked of a set
* `SparseSet.Members`    a list without repetitions, asked the same things
* `Operation.sinceCleared`   the numbers that have been put in and not been cleared away
* `Strict.perform`       one operation that gives nothing where it looks outside of the arrays
* `SparseSet.Lists`      a set that has the members of a list, in the same order
* `Lists.perform`, `Lists.answers`   one operation, and operations in a row
* `SparseSet.answers_as_members`   a set and the list answer alike, whatever has been cleared away
-/

namespace SpanSearch

namespace SparseSet

/-! ## what can be asked of a set -/

inductive Operation where
  | insert (id : Nat)
  | contains (id : Nat)
  | clear
  | size
  | isEmpty
  | members
  deriving DecidableEq, Repr

inductive Answer where
  | flag (yes : Bool)
  | count (n : Nat)
  | members (ids : List Nat)
  | done
  deriving DecidableEq, Repr

namespace Operation

/-- whether the number that an operation is about stays below a capacity -/
def Fits (capacity : Nat) : Operation → Prop
  | insert id | contains id => id < capacity
  | clear | size | isEmpty | members => True

instance (capacity : Nat) : DecidablePred (Fits capacity)
  | insert _ | contains _ => inferInstanceAs (Decidable (_ < _))
  | clear | size | isEmpty | members => .isTrue trivial

/-- the number that an operation puts into a set -/
def inserted? : Operation → Option Nat
  | insert id => some id
  | contains _ | clear | size | isEmpty | members => none

/-- the numbers put into a set behind the last time that it was cleared -/
def sinceCleared (ops : List Operation) : List Nat :=
  (ops.rtakeWhile fun op => op != clear).filterMap inserted?

theorem sinceCleared_concat_clear (ops : List Operation) : sinceCleared (ops ++ [clear]) = [] := by
  rw [sinceCleared, List.rtakeWhile_concat_neg _ ops clear (by decide)]
  rfl

theorem sinceCleared_concat (ops : List Operation) {op : Operation} (h : op ≠ clear) :
    sinceCleared (ops ++ [op]) = sinceCleared ops ++ (inserted? op).toList := by
  rw [sinceCleared, List.rtakeWhile_concat_pos (fun op => op != clear) ops op (bne_iff_ne.2 h),
    List.filterMap_append, sinceCleared]
  cases op <;> rfl

end Operation

/-- the answer to one operation, and the set behind it -/
def perform (s : SparseSet) : Operation → Answer × SparseSet
  | .insert id => (.flag (s.insert id).1, (s.insert id).2)
  | .contains id => (.flag (s.contains id), s)
  | .clear => (.done, s.clear)
  | .size => (.count s.size, s)
  | .isEmpty => (.flag s.isEmpty, s)
  | .members => (.members s.toList, s)

def answers (s : SparseSet) : List Operation → List Answer
  | [] => []
  | op :: ops => (s.perform op).1 :: (s.perform op).2.answers ops

def after (s : SparseSet) (ops : List Operation) : SparseSet :=
  ops.foldl (fun s op => (s.perform op).2) s

/-! ## lists of members -/

/-- numbers in the order in which they came, none of them twice -/
structure Members where
  toList : List Nat
  nodup : toList.Nodup

namespace Members

def empty : Members := ⟨[], .nil⟩

/-- one more member in the last place, unless it is one already -/
def insert (m : Members) (id : Nat) : Members :=
  if h : id ∈ m.toList then m
  else ⟨m.toList ++ [id], List.concat_eq_append ▸ List.Nodup.concat h m.nodup⟩

def perform (m : Members) : Operation → Answer × Members
  | .insert id => (.flag (decide (id ∉ m.toList)), m.insert id)
  | .contains id => (.flag (decide (id ∈ m.toList)), m)
  | .clear => (.done, empty)
  | .size => (.count m.toList.length, m)
  | .isEmpty => (.flag m.toList.isEmpty, m)
  | .members => (.members m.toList, m)

def answers (m : Members) : List Operation → List Answer
  | [] => []
  | op :: ops => (m.perform op).1 :: (m.perform op).2.answers ops

def after (m : Members) (ops : List Operation) : Members :=
  ops.foldl (fun m op => (m.perform op).2) m

theorem toList_insert (m : Members) (id : Nat) :
    (m.insert id).toList = if id ∈ m.toList then m.toList else m.toList ++ [id] := by
  rw [insert]
  split <;> rfl

theorem after_concat (m : Members) (ops : List Operation) (op : Operation) :
    m.after (ops ++ [op]) = ((m.after ops).perform op).2 := by
  rw [after, List.foldl_append]
  rfl

/-- the members are the numbers that have been put in and not been cleared away, in the order in
which each of them came first -/
theorem toList_after_empty (ops : List Operation) :
    (empty.after ops).toList = firsts (Operation.sinceCleared ops) := by
  induction ops using List.reverseRecOn with
  | nil => rfl
  | append_singleton ops op ih =>
    rw [after_concat]
    cases op with
    | insert id =>
      rw [Operation.sinceCleared_concat ops (by simp), perform, toList_insert, ih]
      simp only [mem_firsts]
      exact (firsts_concat _ id).symm
    | clear =>
      rw [Operation.sinceCleared_concat_clear]
      rfl
    | contains | size | isEmpty | members =>
      rw [Operation.sinceCleared_concat ops (by simp)]
      exact ih.trans (congrArg firsts (List.append_nil _).symm)

end Members
end SparseSet

/-! ## operations that keep to the arrays -/

namespace Strict

open SparseSet (Operation Answer)

/-- the members, where there is room for as many as the set counts -/
def members (s : SparseSet) : Option (List Nat) :=
  if s.size ≤ s.dense.size then some s.toList else none

def perform (s : SparseSet) : Operation → Option (Answer × SparseSet)
  | .insert id => do return (.flag !(← contains s id), ← insert s id)
  | .contains id => do return (.flag (← contains s id), s)
  | .clear => some (.done, s.clear)
  | .size => some (.count s.size, s)
  | .isEmpty => some (.flag s.isEmpty, s)
  | .members => do return (.members (← members s), s)

def answers (s : SparseSet) : List Operation → Option (List Answer)
  | [] => some []
  | op :: ops => do
    let r ← perform s op
    return r.1 :: (← answers r.2 ops)

/-- an operation on a set whose arrays agree finds everything in them -/
theorem perform_eq {s : SparseSet} {capacity : Nat} {op : Operation} (hs : s.Agrees capacity)
    (hop : op.Fits capacity) : perform s op = some (s.perform op) := by
  cases op with
  | insert id =>
    rw [perform, bind_eq (contains_eq hs hop), bind_eq (insert_eq hs hop), ← SparseSet.insert_fst]
    rfl
  | contains id =>
    rw [perform, bind_eq (contains_eq hs hop)]
    rfl
  | members =>
    have hroom : s.size ≤ s.dense.size := hs.dense.symm ▸ hs.size_le
    rw [perform, members, if_pos hroom]
    rfl
  | clear | size | isEmpty => rfl

end Strict

/-! ## sets and lists -/

namespace SparseSet

/-- the arrays of a set agree, and its members are those of a list, in the same order -/
structure Lists (capacity : Nat) (s : SparseSet) (m : Members) : Prop where
  agrees : s.Agrees capacity
  toList_eq : s.toList = m.toList

variable {s : SparseSet} {m : Members} {capacity id : Nat} {op : Operation} {ops : List Operation}

theorem lists_of_size_eq_zero (hdense : s.dense.size = capacity)
    (hsparse : s.sparse.size = capacity)
    (hsize : s.size = 0) : Lists capacity s .empty where
  agrees :=
    { dense := hdense
      sparse := hsparse
      size_le := hsize ▸ Nat.zero_le _
      back := fun i hi => absurd hi (hsize ▸ Nat.not_lt_zero i) }
  toList_eq := by
    rw [toList, hsize]
    rfl

theorem lists_empty (capacity : Nat) : Lists capacity (empty capacity) .empty :=
  lists_of_size_eq_zero Array.size_replicate Array.size_replicate rfl

namespace Lists

theorem clear (h : Lists capacity s m) : Lists capacity s.clear .empty :=
  lists_of_size_eq_zero h.agrees.dense h.agrees.sparse rfl

theorem contains_eq (h : Lists capacity s m) : s.contains id = decide (id ∈ m.toList) := by
  rw [Bool.eq_iff_iff, decide_eq_true_eq, ← h.toList_eq, mem_toList h.agrees]

theorem size_eq (h : Lists capacity s m) : s.size = m.toList.length := by
  rw [← length_toList h.agrees, h.toList_eq]

theorem isEmpty_eq (h : Lists capacity s m) : s.isEmpty = m.toList.isEmpty := by
  rw [SparseSet.isEmpty, h.size_eq, Bool.eq_iff_iff, beq_iff_eq, List.isEmpty_iff_length_eq_zero]

theorem insert (h : Lists capacity s m) (hid : id < capacity) :
    Lists capacity (s.insert id).2 (m.insert id) := by
  refine ⟨h.agrees.insert hid, ?_⟩
  rw [Members.toList_insert]
  by_cases hmem : id ∈ m.toList
  · rw [insert_of_contains (h.contains_eq.trans (decide_eq_true hmem)), if_pos hmem, h.toList_eq]
  · have hnot : s.contains id = false := h.contains_eq.trans (decide_eq_false hmem)
    have hroom : s.size < s.dense.size := h.agrees.dense.symm ▸ size_lt h.agrees hid hnot
    rw [toList_insert_of_not_contains hnot hroom, if_neg hmem, h.toList_eq]

theorem perform (h : Lists capacity s m) (hop : op.Fits capacity) :
    (s.perform op).1 = (m.perform op).1 ∧
      Lists capacity (s.perform op).2 (m.perform op).2 := by
  cases op with
  | insert id =>
    refine ⟨congrArg Answer.flag ?_, h.insert hop⟩
    rw [insert_fst, h.contains_eq, decide_not]
  | contains id => exact ⟨congrArg Answer.flag h.contains_eq, h⟩
  | clear => exact ⟨rfl, h.clear⟩
  | size => exact ⟨congrArg Answer.count h.size_eq, h⟩
  | isEmpty => exact ⟨congrArg Answer.flag h.isEmpty_eq, h⟩
  | members => exact ⟨congrArg Answer.members h.toList_eq, h⟩

/-- operations in a row: the arrays are kept to, and the answers are those of the list -/
theorem answers (h : Lists capacity s m) (hops : ∀ op ∈ ops, op.Fits capacity) :
    Strict.answers s ops = some (s.answers ops) ∧ s.answers ops = m.answers ops ∧
      Lists capacity (s.after ops) (m.after ops) := by
  induction ops generalizing s m with
  | nil => exact ⟨rfl, rfl, h⟩
  | cons op ops ih =>
    obtain ⟨hop, hops⟩ := List.forall_mem_cons.1 hops
    obtain ⟨hanswer, hnext⟩ := h.perform hop
    obtain ⟨hstrict, hanswers, hafter⟩ := ih hnext hops
    refine ⟨?_, ?_, hafter⟩
    · rw [Strict.answers, Strict.bind_eq (Strict.perform_eq h.agrees hop), Strict.bind_eq hstrict]
      rfl
    · rw [SparseSet.answers, Members.answers, hanswer, hanswers]

end Lists

/-- A set with room for the numbers below a capacity never looks outside of its arrays as long as
it is asked about such numbers only.  It answers as a list without repetitions that is asked the
same things, and its members are the numbers put in since it was cleared last, in the order in
which each of them came first. -/
theorem answers_as_members (hops : ∀ op ∈ ops, op.Fits capacity) :
    Strict.answers (empty capacity) ops = some ((empty capacity).answers ops) ∧
      (empty capacity).answers ops = Members.empty.answers ops ∧
      ((empty capacity).after ops).toList = firsts (Operation.sinceCleared ops) := by
  obtain ⟨hstrict, hanswers, hafter⟩ := (lists_empty capacity).answers hops
  exact ⟨hstrict, hanswers, hafter.toList_eq.trans (Members.toList_after_empty ops)⟩

/-- when 2 has come into the first place, 7 still points there from before the set was cleared -/
theorem answers_as_members_reused :
    let ops : List Operation := [.insert 7, .insert 2, .insert 7, .members, .clear, .contains 7,
      .insert 2, .contains 7, .insert 7, .size]
    (∀ op ∈ ops, op.Fits 10) ∧
      Strict.answers (empty 10) ops = some [.flag true, .flag true, .flag false, .members [7, 2],
        .done, .flag false, .flag true, .flag false, .flag true, .count 2] ∧
      ((empty 10).after ops).toList = [2, 7] := by
  intro ops
  have hops : ∀ op ∈ ops, op.Fits 10 := by decide
  obtain ⟨hstrict, hanswers, hafter⟩ := answers_as_members hops
  exact ⟨hops, hstrict.trans (congrArg some (hanswers.trans (by decide))), hafter.trans (by decide)⟩

end SparseSet
end SpanSearch
