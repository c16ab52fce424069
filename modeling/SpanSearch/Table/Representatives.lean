/-!
# Which classes a list of cells gives

Every cell is a class.  If some symbol lies outside all cells, all such symbols are one more
class, which comes first.

* `firstGap`          the first symbol outside all cells
* `representatives`   one symbol of each class
* `classOffset`       the class of the first cell
-/

namespace SpanSearch

/-- the first symbol from `next` on that no cell covers, if there is one up to `max` -/
def firstGap (max : Nat) : Option Nat → List (Nat × Nat) → Option Nat
  | none, _ => none
  | some next, [] => some next
  | some next, (lo, hi) :: cells =>
    if next < lo then some next
    else firstGap max (if hi + 1 ≤ max then some (hi + 1) else none) cells

/-- the first symbol outside the cells, if there is one, and then the first of each cell -/
def representatives (max : Nat) (cells : List (Nat × Nat)) : List Nat :=
  (firstGap max (some 0) cells).toList ++ cells.map Prod.fst

/-- `1` if some symbol lies outside the cells, `0` if none does -/
def classOffset (max : Nat) (cells : List (Nat × Nat)) : Nat :=
  (firstGap max (some 0) cells).toList.length

theorem length_representatives (max : Nat) (cells : List (Nat × Nat)) :
    (representatives max cells).length = classOffset max cells + cells.length := by
  simp [representatives, classOffset]

def between (lo hi : Nat) : List Nat := List.range' lo (hi + 1 - lo)

end SpanSearch
