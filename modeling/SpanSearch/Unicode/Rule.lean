import SpanSearch.Expr.RangeSet

/-!
# How sets of characters are made up

A property of characters is a list of ranges, or is put together from other properties.

* `Unicode.Rule`            ranges, and sums, differences and the like of other rules
* `Unicode.Rule.members`    the set that a rule describes
* `membersOf_append`, `contains_membersOf`   rules side by side
-/

namespace SpanSearch.Unicode

inductive Rule where
  /-- listed ranges, in ascending order; inside a union any order will do -/
  | ranges (rs : List (Nat × Nat))
  /-- the first, third, fifth character of each range and so on -/
  | everySecond (rs : List (Nat × Nat))
  | union (rules : List Rule)
  | inter (a b : Rule)
  | diff (a b : Rule)
  /-- all characters outside -/
  | complement (a : Rule)
  deriving Repr

/-- the first, third, fifth number of a range and so on, each as a range -/
def everySecondOf (r : Nat × Nat) : RangeSet :=
  (List.range ((r.2 - r.1) / 2 + 1)).map fun i => (r.1 + 2 * i, r.1 + 2 * i)

namespace Rule

mutual

/-- the code points that a rule describes -/
def members : Rule → RangeSet
  | .ranges rs => rs
  | .everySecond rs => rs.flatMap everySecondOf
  | .union rules => RangeSet.ofRanges (membersOf rules)
  | .inter a b => a.members.inter b.members
  | .diff a b => a.members.diff .codePoints b.members
  | .complement a => a.members.complement .codePoints

/-- the ranges of several rules one after the other -/
def membersOf : List Rule → RangeSet
  | [] => []
  | r :: rs => r.members ++ membersOf rs

end

theorem membersOf_append (a b : List Rule) : membersOf (a ++ b) = membersOf a ++ membersOf b := by
  induction a with
  | nil => simp [membersOf]
  | cons r a ih => simp [membersOf, ih]

theorem contains_membersOf (rules : List Rule) (n : Nat) :
    RangeSet.contains (membersOf rules) n = rules.any fun r => r.members.contains n := by
  induction rules with
  | nil => simp [membersOf, RangeSet.contains]
  | cons r rules ih => simp_all [membersOf, RangeSet.contains]

end Rule
end SpanSearch.Unicode
