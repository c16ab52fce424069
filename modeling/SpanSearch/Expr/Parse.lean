import SpanSearch.Expr.Lowering
import SpanSearch.Expr.Reader.Pattern

/-!
# Pattern texts

* `ParseOptions`    the flags that hold at the beginning, and how deep a pattern may nest
* `Expr.parse`      the expression of a pattern text
-/

namespace SpanSearch

structure ParseOptions where
  flags : Flags := {}
  /-- blanks and comments are skipped -/
  verbose : Bool := false
  nestLimit : Nat := 250
  deriving Repr

/-- read a pattern, check how deep it nests and resolve its flags -/
def Expr.parse (o : ParseOptions) (text : List Char) : Except SyntaxFault Expr := do
  let s ← Reader.pattern o.verbose text
  if o.nestLimit < s.depth then .error .nestedTooDeep
  else
    let (e, _) ← s.lower o.flags
    return e

end SpanSearch
