import SpanSearch.Expr.Basic
import SpanSearch.Fragment.Loops
import SpanSearch.Fragment.Ranges
import SpanSearch.Fragment.Whole
import SpanSearch.Graph.Minimal

/-!
# Expressions as fragments

* `Assertion.message`   why an assertion is refused
* `Compile`             a step of a construction that an assertion may end
* `Fragment.shrink`     a fragment replaced by the minimal graph of what it matches
* `Expr.compile`        the fragment of an expression
-/

namespace SpanSearch

/-- automata do not look at what is around a match -/
def Assertion.message : Assertion → String
  | .anchor => "unsupported pattern: anchors such as ^, $, \\A and \\z are not supported"
  | .wordBoundary =>
    "unsupported pattern: word boundary assertions (\\b and \\B) are not supported"

structure CompileOptions where
  alphabet : Alphabet
  /-- every composite fragment is minimized; actions are dropped -/
  minimal : Bool := false
  deriving Repr

/-- a step of a construction that an assertion may end -/
abbrev Compile := StateT Graph (Except Assertion)

def Compile.ofBuild {α : Type} (b : Build α) : Compile α := fun g => .ok (b g)

namespace Fragment

/-- the minimal graph of what a fragment matches, in its place -/
def shrink (o : CompileOptions) (a : Fragment) : Build Fragment :=
  if o.minimal then do
    let g ← get
    ofGraph ((a.finish g).minimal o.alphabet)
  else return a

/-- a part as often as a count says -/
def repeated (a : Fragment) : Count → Build Fragment
  | .zeroOrOne => a.optional
  | .zeroOrMore => a.star
  | .oneOrMore => a.atLeast 1
  | .exactly n => a.exactly n
  | .atLeast n => a.atLeast n
  | .between least most => a.between least most

/-- the fragment of the characters collected so far, which are in reverse, if there are any -/
def ofRun (α : Alphabet) (run : List Char) : Build (List Fragment) :=
  if run.isEmpty then return []
  else do
    let a ← text α run.reverse
    return [a]

end Fragment

namespace Expr

mutual

/-- the fragment of an expression, part by part from left to right.  Automata know no greed, so
it makes no difference. -/
def compile (o : CompileOptions) : Expr → Compile Fragment
  | .empty => Compile.ofBuild Fragment.empty
  | .char c => Compile.ofBuild (Fragment.literal o.alphabet c)
  | .byte b => Compile.ofBuild (Fragment.symbols b b)
  | .charClass s => Compile.ofBuild (Fragment.charClass o.alphabet s)
  | .byteClass s => Compile.ofBuild (Fragment.symbolClass s)
  | .assertion a => throw a
  | .loop e count _ => do
    let a ← e.compile o
    let b ← Compile.ofBuild (a.repeated count)
    Compile.ofBuild (b.shrink o)
  | .group none e => e.compile o
  | .group (some n) e => do
    let a ← e.compile o
    Compile.ofBuild (a.group n)
  | .concat es => do
    let parts ← compileParts o [] es
    let a ← Compile.ofBuild (Fragment.concatenation parts)
    Compile.ofBuild (a.shrink o)
  | .alt es => do
    let choices ← compileAll o es
    let a ← Compile.ofBuild (Fragment.alternatives choices)
    Compile.ofBuild (a.shrink o)

/-- the fragments of several expressions -/
def compileAll (o : CompileOptions) : List Expr → Compile (List Fragment)
  | [] => return []
  | e :: es => do
    let a ← e.compile o
    let as ← compileAll o es
    return a :: as

/-- the fragments of expressions in a row; characters side by side become one chain.  `run`
holds in reverse the characters that have no fragment yet. -/
def compileParts (o : CompileOptions) (run : List Char) : List Expr → Compile (List Fragment)
  | [] => Compile.ofBuild (Fragment.ofRun o.alphabet run)
  | .char c :: es => compileParts o (c :: run) es
  | e :: es => do
    let chain ← Compile.ofBuild (Fragment.ofRun o.alphabet run)
    let a ← e.compile o
    let as ← compileParts o [] es
    return chain ++ a :: as

end

end Expr
end SpanSearch
