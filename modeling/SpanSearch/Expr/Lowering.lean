import SpanSearch.Expr.Classes

/-!
# From written patterns to expressions

Flags are resolved, letters become classes where case does not matter, and parts that match
nothing but the empty word drop out of a row of parts.

* `Surface.literalExpr`   a single character
* `Surface.dotExpr`       any character, or any but a line feed
* `Surface.lower`         a whole pattern, and the flags that hold behind it
-/

namespace SpanSearch

def Units.classExpr : Units → RangeSet → Expr
  | .codePoints, s => .charClass s
  | .bytes, s => .byteClass s

namespace Surface

def hasVariants (f : Flags) (c : Char) : Bool :=
  if f.unicode then Unicode.hasVariants c.toNat else c.isAlpha

/-- a character, as a class of its case variants where case does not matter -/
def charExpr (f : Flags) (c : Char) : Except SyntaxFault Expr :=
  if !f.unicode && decide (0x7F < c.toNat) then .error .unicodeOff
  else if f.caseInsensitive && hasVariants f c then
    .ok (f.units.classExpr (RangeSet.foldCase f.units [(c.toNat, c.toNat)]))
  else .ok (.char c)

/-- a character as written; where Unicode is off two hexadecimal digits name a byte -/
def literalExpr (f : Flags) (l : Literal) : Except SyntaxFault Expr :=
  if !f.unicode && l.isHexPair && decide (0x7F < l.char.toNat) then
    if f.anyBytes then .ok (.byte l.char.toNat) else .error .notText
  else charExpr f l.char

def lineFeed : Nat := '\n'.toNat

def dotExpr (f : Flags) : Except SyntaxFault Expr :=
  if !f.unicode && !f.anyBytes then .error .notText
  else if f.dotMatchesNewLine then .ok (f.units.classExpr [(0, f.units.max)])
  else .ok (f.units.classExpr (RangeSet.complement f.units [(lineFeed, lineFeed)]))

/-- what a pattern demands of a position.  Where Unicode is off the inside of a character could
count as no edge of a word, so that demand needs leave to match any bytes. -/
def placeExpr (f : Flags) : Place → Except SyntaxFault Expr
  | .wordEdge => .ok (.assertion .wordBoundary)
  | .noWordEdge =>
    if f.unicode || f.anyBytes then .ok (.assertion .wordBoundary) else .error .notText
  | _ => .ok (.assertion .anchor)

/-- the expression of a pattern, and the flags that hold behind it -/
abbrev Lowered := Except SyntaxFault (Expr × Flags)

mutual

def lower (f : Flags) : Surface → Lowered
  | .empty => .ok (.empty, f)
  | .flags change => .ok (.empty, f.apply change)
  | .literal l => (literalExpr f l).map fun e => (e, f)
  | .dot => (dotExpr f).map fun e => (e, f)
  | .place p => (placeExpr f p).map fun e => (e, f)
  | .named name negated => .ok (f.units.classExpr (namedMembers f name negated), f)
  | .property query negated =>
    (propertyMembers f query negated).map fun s => (f.units.classExpr s, f)
  | .bracketed negated body =>
    (bracketedMembers f negated body).map fun s => (f.units.classExpr s, f)
  | .loop body count greedy => do
    let (e, f) ← body.lower f
    return (.loop e count (greedy != f.swapGreed), f)
  | .group (.capture n) body => do
    let (e, _) ← body.lower f
    return (.group (some n) e, f)
  | .group (.plain change) body => do
    let (e, _) ← body.lower (f.apply change)
    return (.group none e, f)
  | .concat parts => do
    let (es, f) ← lowerAll f parts
    return (.ofParts (es.filter fun e => !e.isEmpty), f)
  | .alt parts => do
    let (es, f) ← lowerAll f parts
    return (.ofChoices es, f)

/-- one pattern after another, each with the flags that hold behind the one before it -/
def lowerAll (f : Flags) : List Surface → Except SyntaxFault (List Expr × Flags)
  | [] => .ok ([], f)
  | s :: ss => do
    let (e, f) ← s.lower f
    let (es, f) ← lowerAll f ss
    return (e :: es, f)

end

end Surface
end SpanSearch
