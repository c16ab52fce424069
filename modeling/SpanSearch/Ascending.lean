/-!
# Ascending lists

A finite set kept as the list of its members in ascending order.

* `Ascending.insert`    the list with one more member
* `Ascending.ofList`    the members of any list, in order, each once
* `Ascending.spread`    drop neighbours that are equal
* `mem_insert`, `mem_ofList`   no other members, and none lost
-/

namespace SpanSearch.Ascending

variable {α : Type} [Ord α]

def notAfter (a b : α) : Bool := (compare a b).isLE

/-- add a member in its place; a member that is there already stays alone -/
def insert (a : α) : List α → List α
  | [] => [a]
  | b :: bs =>
    match compare a b with
    | .lt => a :: b :: bs
    | .eq => b :: bs
    | .gt => b :: insert a bs

/-- drop a member that is equal to the one before it -/
def spread : List α → List α
  | [] => []
  | [a] => [a]
  | a :: b :: bs => if compare a b == .eq then spread (a :: bs) else a :: spread (b :: bs)
termination_by l => l.length

/-- the members of a list in ascending order, each once -/
def ofList (l : List α) : List α := spread (l.mergeSort notAfter)

theorem insert_nil (a : α) : insert a [] = [a] := rfl

theorem spread_nil : spread ([] : List α) = [] := by
  unfold spread
  rfl

theorem spread_singleton (a : α) : spread [a] = [a] := by
  unfold spread
  rfl

/-! ## the same members -/

theorem mem_insert [Std.LawfulEqOrd α] (a x : α) (l : List α) :
    x ∈ insert a l ↔ x = a ∨ x ∈ l := by
  induction l with
  | nil => simp [insert]
  | cons b bs ih =>
    unfold insert
    split
    · simp
    · next h =>
      have hab : a = b := Std.LawfulEqOrd.eq_of_compare h
      simp [hab]
    · simp only [List.mem_cons, ih]
      exact or_left_comm

theorem mem_spread [Std.LawfulEqOrd α] (x : α) (l : List α) : x ∈ spread l ↔ x ∈ l := by
  fun_induction spread l with
  | case1 => rfl
  | case2 a => rfl
  | case3 a b bs h ih =>
    have hab : a = b := Std.LawfulEqOrd.eq_of_compare (beq_iff_eq.1 h)
    rw [ih, hab]
    simp
  | case4 a b bs h ih => rw [List.mem_cons, ih, List.mem_cons (a := x) (b := a)]

theorem mem_ofList [Std.LawfulEqOrd α] (x : α) (l : List α) : x ∈ ofList l ↔ x ∈ l := by
  rw [ofList, mem_spread, List.mem_mergeSort]

end SpanSearch.Ascending
