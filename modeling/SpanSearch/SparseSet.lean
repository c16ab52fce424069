/-!
# Sets of small numbers with constant time clearing

Two arrays that point into each other.  Neither is wiped when the set is cleared, so a number is
a member only if the two arrays agree on it below the current size.

* `SparseSet.empty`      the empty set of a capacity
* `SparseSet.contains`   membership
* `SparseSet.insert`     the set with a member added, and whether it was absent
* `SparseSet.clear`      forget all members, keeping the arrays
* `SparseSet.toList`     the members in insertion order
* `toList_insert_of_not_contains`   a new member comes last
-/

namespace SpanSearch

structure SparseSet where
  /-- the members in insertion order, in the first `size` places -/
  dense : Array Nat
  /-- the place of a member in `dense` -/
  sparse : Array Nat
  size : Nat
  deriving Repr

namespace SparseSet

/-- no members, room for the numbers below `capacity` -/
def empty (capacity : Nat) : SparseSet :=
  ⟨Array.replicate capacity 0, Array.replicate capacity 0, 0⟩

def isEmpty (s : SparseSet) : Bool := s.size == 0

def contains (s : SparseSet) (id : Nat) : Bool :=
  match s.sparse[id]? with
  | none => false
  | some i => decide (i < s.size) && s.dense[i]? == some id

/-- the set with `id` in it, and whether `id` was absent before -/
def insert (s : SparseSet) (id : Nat) : Bool × SparseSet :=
  if s.contains id then (false, s)
  else (true, ⟨s.dense.setIfInBounds s.size id, s.sparse.setIfInBounds id s.size, s.size + 1⟩)

def clear (s : SparseSet) : SparseSet := { s with size := 0 }

def toList (s : SparseSet) : List Nat := s.dense.toList.take s.size

def toText (s : SparseSet) : String :=
  "\x7b" ++ ", ".intercalate (s.toList.map toString) ++ "\x7d"

/-! ## the members after each operation -/

theorem toList_empty (capacity : Nat) : (empty capacity).toList = [] := rfl

theorem toList_clear (s : SparseSet) : s.clear.toList = [] := rfl

theorem contains_clear (s : SparseSet) (id : Nat) : s.clear.contains id = false := by
  unfold contains clear
  split <;> simp

theorem contains_empty (capacity id : Nat) : (empty capacity).contains id = false := by
  unfold contains empty
  split <;> simp

theorem insert_of_contains {s : SparseSet} {id : Nat} (h : s.contains id = true) :
    s.insert id = (false, s) := by
  simp [insert, h]

theorem insert_fst (s : SparseSet) (id : Nat) : (s.insert id).1 = !s.contains id := by
  unfold insert
  split <;> simp_all

theorem toList_insert_of_not_contains {s : SparseSet} {id : Nat} (h : s.contains id = false)
    (room : s.size < s.dense.size) : (s.insert id).2.toList = s.toList ++ [id] := by
  simp only [insert, h, toList, Bool.false_eq_true, if_false, Array.toList_setIfInBounds]
  rw [List.take_succ_eq_append_getElem (by simpa using room)]
  simp [List.take_set_of_le]

end SparseSet
end SpanSearch
