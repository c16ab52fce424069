import SpanSearch.Unicode.Folding

/-!
# Sets of numbers as ascending ranges

Members of a class are code points or bytes.  A set is kept as ranges in ascending order that
neither overlap nor touch.

* `Units`                        code points without the surrogates, or bytes
* `RangeSet.ofRanges`            any ranges in canonical form
* `RangeSet.union`, `RangeSet.inter`, `RangeSet.diff`, `RangeSet.symmDiff`
* `RangeSet.complement`          all units outside a set
* `RangeSet.foldCase`            a set with every case variant of its members
-/

namespace SpanSearch

inductive Units where
  | codePoints
  | bytes
  deriving DecidableEq, Repr

namespace Units

def max : Units → Nat
  | .codePoints => 0x10FFFF
  | .bytes => 0xFF

def succ (u : Units) (n : Nat) : Nat := if u = .codePoints ∧ n = 0xD7FF then 0xE000 else n + 1

def pred (u : Units) (n : Nat) : Nat := if u = .codePoints ∧ n = 0xE000 then 0xD7FF else n - 1

end Units

abbrev RangeSet := List (Nat × Nat)

namespace RangeSet

/-- the range between two bounds in either order -/
def range (a b : Nat) : Nat × Nat := (min a b, Max.max a b)

def contains (s : RangeSet) (n : Nat) : Bool :=
  s.any fun (lo, hi) => decide (lo ≤ n) && decide (n ≤ hi)

def notAfter (a b : Nat × Nat) : Bool :=
  decide (a.1 < b.1) || (a.1 == b.1 && decide (a.2 ≤ b.2))

/-- a range that overlaps or touches the one before it goes into that one -/
def join : RangeSet → RangeSet
  | [] => []
  | [r] => [r]
  | (lo, hi) :: (lo', hi') :: rs =>
    if lo' ≤ hi + 1 then join ((lo, Max.max hi hi') :: rs)
    else (lo, hi) :: join ((lo', hi') :: rs)
termination_by s => s.length

def ofRanges (rs : List (Nat × Nat)) : RangeSet := join (rs.mergeSort notAfter)

def union (a b : RangeSet) : RangeSet := ofRanges (a ++ b)

def meet? (r s : Nat × Nat) : Option (Nat × Nat) :=
  let lo := Max.max r.1 s.1
  let hi := min r.2 s.2
  if lo ≤ hi then some (lo, hi) else none

def inter (a b : RangeSet) : RangeSet := a.flatMap fun r => b.filterMap (meet? r)

/-- one range without another: what is below it and what is above it -/
def cut (u : Units) (r s : Nat × Nat) : RangeSet :=
  if r.2 < s.1 ∨ s.2 < r.1 then [r]
  else
    (if r.1 < s.1 then [(r.1, u.pred s.1)] else []) ++
      if s.2 < r.2 then [(u.succ s.2, r.2)] else []

def diff (u : Units) (a b : RangeSet) : RangeSet :=
  b.foldl (fun kept s => kept.flatMap fun r => cut u r s) a

def symmDiff (u : Units) (a b : RangeSet) : RangeSet := diff u (union a b) (inter a b)

/-- the gaps between ranges, from the one after `lo` on -/
def gapsAfter (u : Units) (hi : Nat) : RangeSet → RangeSet
  | [] => if hi < u.max then [(u.succ hi, u.max)] else []
  | (lo', hi') :: rs => range (u.succ hi) (u.pred lo') :: gapsAfter u hi' rs

def complement (u : Units) : RangeSet → RangeSet
  | [] => [(0, u.max)]
  | (lo, hi) :: rs => (if 0 < lo then [(0, u.pred lo)] else []) ++ gapsAfter u hi rs

/-- the code points that a set or one of its case variants folds to -/
def foldTargets (s : RangeSet) : List Nat :=
  (Unicode.folds.filter fun (a, b) => s.contains a || s.contains b).map Prod.snd

/-- a set of code points with every character that folds like a member -/
def foldCodePoints (s : RangeSet) : RangeSet :=
  let targets := foldTargets s
  let variants := (Unicode.folds.filter fun (_, b) => targets.contains b).flatMap fun (a, b) =>
    [(a, a), (b, b)]
  ofRanges (s ++ variants)

/-- a set of bytes with every ASCII letter in both cases -/
def foldBytes (s : RangeSet) : RangeSet :=
  let upper := (inter s [(0x61, 0x7A)]).map fun (lo, hi) => (lo - 0x20, hi - 0x20)
  let lower := (inter s [(0x41, 0x5A)]).map fun (lo, hi) => (lo + 0x20, hi + 0x20)
  ofRanges (s ++ upper ++ lower)

def foldCase : Units → RangeSet → RangeSet
  | .codePoints => foldCodePoints
  | .bytes => foldBytes

def isAscii (s : RangeSet) : Bool := s.all fun (_, hi) => decide (hi ≤ 0x7F)

end RangeSet
end SpanSearch
