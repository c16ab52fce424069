/-!
# Spans of positions

* `Span`            from a start up to, but not including, a stop
* `Span.subsumes`   starts no later and stops no earlier
* `Span.overlaps`   shares a position; spans that only touch do not
-/

namespace SpanSearch

structure Span where
  start : Nat
  stop : Nat
  deriving DecidableEq, Repr, Inhabited

namespace Span

/-- by start, then by stop -/
instance : Ord Span := ⟨compareLex (compareOn start) (compareOn stop)⟩

def subsumes (a b : Span) : Bool := decide (a.start ≤ b.start) && decide (b.stop ≤ a.stop)

def overlaps (a b : Span) : Bool := decide (b.start < a.stop) && decide (a.start < b.stop)

def toText (s : Span) : String := s!"{s.start}:{s.stop}"

theorem compare_def (a b : Span) :
    compare a b = (compare a.start b.start).then (compare a.stop b.stop) := rfl

end Span
end SpanSearch
