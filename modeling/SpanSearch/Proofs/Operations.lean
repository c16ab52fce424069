import SpanSearch.Proofs.Counts
import SpanSearch.Proofs.Reporting

/-!
# Operations on searches

* `Operation`, `Answer`, `Search.perform`   what can be asked of a search, one thing at a time
* `Search.answers`        the answers to operations in a row
* `Pattern.exists_built_ordered`   patterns are built whatever the order of the bounds of counts
-/

namespace SpanSearch

/-- what can be asked of a search -/
inductive Operation where
  | find
  /-- the spans of the next matches, all of them or up to a number -/
  | spans (count : Option Nat)
  | matchWhole
  | matchLeading
  | start
  | stop
  | span
  | text
  | startOf (group : Nat)
  | stopOf (group : Nat)
  | textOf (group : Nat)
  | captures
  | reset
  deriving DecidableEq, Repr

inductive Answer where
  | flag (yes : Bool)
  | spans (spans : List Span)
  | position (pos : Option Nat)
  | span (span : Option Span)
  | text (text : Option String)
  | captures (captures : Option Captures)
  | done
  deriving Repr

namespace Search

/-- the answer to one operation, and the search behind it -/
def perform (m : Search) : Operation → Answer × Search
  | .find => let (yes, m) := m.find; (.flag yes, m)
  | .spans none => let (spans, m) := m.spans; (.spans spans, m)
  | .spans (some count) => let (spans, m) := m.spansUpTo count; (.spans spans, m)
  | .matchWhole => let (yes, m) := m.matchWhole; (.flag yes, m)
  | .matchLeading => let (yes, m) := m.matchLeading; (.flag yes, m)
  | .start => (.position (m.startOf? 0), m)
  | .stop => (.position (m.stopOf? 0), m)
  | .span => (.span m.found, m)
  | .text => (.text m.text?, m)
  | .startOf n => (.position (m.startOf? n), m)
  | .stopOf n => (.position (m.stopOf? n), m)
  | .textOf n => (.text (m.textOf? n), m)
  | .captures => (.captures m.captures?, m)
  | .reset => (.done, m.reset)

/-- the answers to operations in a row -/
def answers (m : Search) : List Operation → List Answer
  | [] => []
  | op :: ops =>
    let (answer, m) := m.perform op
    answer :: m.answers ops

end Search

namespace Pattern

theorem exists_built_ordered (o : Options) {e : Expr} (hv : e.Valid) (hnone : e.assertion? = none) :
    ∃ p, Pattern.ofExpr o e = .ok p ∧ Built o e.ordered p := by
  obtain ⟨p, hp, hbuilt⟩ := exists_built o ((Expr.valid_ordered e).2 hv) (Expr.inOrder_ordered e)
    ((Expr.assertion?_ordered e).trans hnone)
  exact ⟨p, (ofExpr_ordered o e).symm.trans hp, hbuilt⟩

end Pattern
end SpanSearch
