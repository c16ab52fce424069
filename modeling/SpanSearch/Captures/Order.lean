import SpanSearch.Captures.Basic

/-!
# The order of captures

Of two ways to match one span, the one whose completed groups lie later comes first.

* `Captures.laterFirst`   the first difference of two lists of spans decides, in reverse
* `Captures.compare`      start, stop, completed spans, their number, open slots
* `Captures.minimum?`     the least of several values
-/

namespace SpanSearch

/-- by start; a slot that is still open comes before one that is closed -/
instance : Ord Slot := ⟨compareLex (compareOn Slot.start) (compareOn Slot.stop)⟩

namespace Captures

/-- the first place where the lists differ decides, and the later span comes first there -/
def laterFirst : List Span → List Span → Ordering
  | a :: as, b :: bs => (compare b a).then (laterFirst as bs)
  | _, _ => .eq

/-- the order in which captures are preferred -/
protected def compare (c d : Captures) : Ordering :=
  (compare c.start d.start).then <|
    (compare c.stop d.stop).then <|
      (laterFirst c.completed d.completed).then <|
        (compare c.completed.length d.completed.length).then <|
          compare c.slots d.slots

instance : Ord Captures := ⟨Captures.compare⟩

/-- the least of several values, the first of them if several are least -/
def minimum? : List Captures → Option Captures
  | [] => none
  | c :: cs => some (cs.foldl (fun best d => if (compare d best).isLT then d else best) c)

theorem laterFirst_nil (l : List Span) : laterFirst [] l = .eq := by
  cases l <;> rfl

end Captures
end SpanSearch
