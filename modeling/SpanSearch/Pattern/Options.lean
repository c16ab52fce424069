import SpanSearch.Alphabet
import SpanSearch.Expr.Parse
import SpanSearch.Table.CharClasses

/-!
# How patterns are built and searched for

* `Mode`      which spans a search reports
* `Target`    what a pattern is compiled for
* `Options`   everything that can be chosen before a pattern is built
-/

namespace SpanSearch

/-- Spans are always reported by their start, then by their stop. -/
inductive Mode where
  /-- every match -/
  | all
  /-- the shortest match at each start, past the one reported before -/
  | shortest
  /-- the longest match at each start, past the one reported before -/
  | longest
  /-- the longest match at each start, unless the one reported before contains it -/
  | overlapping
  deriving DecidableEq, Repr

/-- whether the longest of several matches with one start is reported -/
def Mode.prefersLongest : Mode → Bool
  | .all => false
  | .shortest => false
  | .longest => true
  | .overlapping => true

/-- Every target allows every operation.  It decides which of them are fast. -/
inductive Target where
  /-- matching whole texts -/
  | whole
  /-- matching at the beginning of a text -/
  | leading
  /-- finding matches anywhere -/
  | search
  deriving DecidableEq, Repr

structure Options where
  alphabet : Alphabet := .bytes .utf8
  mode : Mode := .longest
  target : Target := .search
  thresholds : Thresholds := {}
  /-- every composite part is minimized before it is composed further -/
  minimizeFragments : Bool := false
  caseInsensitive : Bool := false
  verbose : Bool := false
  dotMatchesNewLine : Bool := false
  unicode : Bool := true
  nestLimit : Nat := 250
  deriving Repr

/-- a pattern over bytes may match bytes that are no text -/
def Options.parseOptions (o : Options) : ParseOptions where
  flags :=
    { caseInsensitive := o.caseInsensitive
      dotMatchesNewLine := o.dotMatchesNewLine
      unicode := o.unicode
      anyBytes := o.alphabet.isBytes }
  verbose := o.verbose
  nestLimit := o.nestLimit

end SpanSearch
