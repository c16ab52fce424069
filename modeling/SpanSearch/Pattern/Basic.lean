import SpanSearch.Compile
import SpanSearch.Pattern.Options
import SpanSearch.Table.Basic
import SpanSearch.Tracer

/-!
# Patterns

* `PatternError`        why a text does not build
* `Engine`              the automata that a pattern is searched with
* `Expr.tracer`         the graph that recovers capture groups
* `Expr.baseGraph`, `Expr.searchGraphs`   what the tables are made of
* `Pattern.buildWith`   the pattern of a text, whatever parser reads it
* `Pattern.build`       the pattern of a text
-/

namespace SpanSearch

inductive PatternError where
  | malformed (fault : SyntaxFault)
  | unsupported (assertion : Assertion)
  deriving DecidableEq, Repr

inductive Engine where
  /-- a finder that reads ahead to the ends of matches, and an automaton that reads back from
  an end to the starts -/
  | scanning (finder back : Table)
  /-- the automaton of the pattern itself, run from every start -/
  | direct (base : Table)
  deriving Repr

structure Pattern where
  engine : Engine
  tracer : Tracer
  mode : Mode
  alphabet : Alphabet
  target : Target
  groupCount : Nat
  deriving Repr

namespace Expr

def construct {α : Type} (c : Compile α) : Except PatternError (α × Graph) :=
  (c.run Graph.empty).mapError PatternError.unsupported

/-- the pattern as group `0`, without plain edges.  Fragments keep their actions, so they are
never minimized here. -/
def tracer (a : Alphabet) (e : Expr) : Except PatternError Tracer := do
  let (whole, g) ← construct do
    let base ← e.compile { alphabet := a }
    Compile.ofBuild (base.group 0)
  return ⟨(whole.finish g).contract⟩

def baseGraph (o : CompileOptions) (e : Expr) : Except PatternError Graph := do
  let (base, g) ← construct (e.compile o)
  return base.finish g

def silentScan (a : Alphabet) : Build Fragment := do
  let any ← Fragment.symbols 0 a.maxSymbol
  let scan ← any.star
  scan.silence

/-- the pattern behind a silent scan, and the pattern reversed -/
def searchFragments (o : CompileOptions) (e : Expr) : Compile (Fragment × Fragment) := do
  let base ← e.compile o
  Compile.ofBuild do
    let copy ← base.copy
    let reversed ← copy.reverse
    let scan ← silentScan o.alphabet
    let finder ← Fragment.concatenation [scan, base]
    return (finder, reversed)

/-- the graphs behind the finder and the automaton that reads back -/
def searchGraphs (o : CompileOptions) (e : Expr) : Except PatternError (Graph × Graph) := do
  let ((finder, reversed), g) ← construct (e.searchFragments o)
  return (finder.finish g, reversed.finish g)

end Expr

namespace Options

/-- the table of the minimal graph for the words of a graph -/
def table (o : Options) (g : Graph) : Table :=
  Table.ofGraph (g.minimal o.alphabet) o.alphabet o.thresholds

def compileOptions (o : Options) : CompileOptions := ⟨o.alphabet, o.minimizeFragments⟩

/-- the automata that suit the target -/
def engine (o : Options) (e : Expr) : Except PatternError Engine :=
  match o.target with
  | .search => do
    let (finder, back) ← e.searchGraphs o.compileOptions
    return .scanning (o.table finder) (o.table back)
  | _ => do
    let base ← e.baseGraph o.compileOptions
    return .direct (o.table base)

end Options

namespace Pattern

def ofExpr (o : Options) (e : Expr) : Except PatternError Pattern := do
  let tracer ← e.tracer o.alphabet
  let engine ← o.engine e
  return ⟨engine, tracer, o.mode, o.alphabet, o.target, e.groupCount⟩

/-- the pattern of the expression that a parser reads in a text -/
def buildWith (parse : ParseOptions → List Char → Except SyntaxFault Expr) (o : Options)
    (text : List Char) : Except PatternError Pattern := do
  let e ← (parse o.parseOptions text).mapError PatternError.malformed
  ofExpr o e

def build : Options → List Char → Except PatternError Pattern := buildWith Expr.parse

end Pattern
end SpanSearch
