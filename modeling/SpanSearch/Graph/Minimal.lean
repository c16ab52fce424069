import SpanSearch.Graph.Elimination
import SpanSearch.Graph.Merge
import SpanSearch.Graph.Subsets
import SpanSearch.Graph.Refinement

/-!
# The minimal deterministic graph of a language

* `Graph.epsilonFree`   epsilons eliminated and parallel edges merged
* `Graph.minimal`       determinized, made total, minimized, merged and trimmed; `minimal?`
                        refuses a graph that has no start
-/

namespace SpanSearch.Graph

def epsilonFree (g : Graph) : Graph := g.eliminate.mergeEdges

/-- the minimal deterministic graph for the words of a graph, without actions and without dead
states besides possibly the start, its edges merged into maximal ranges -/
def minimal (g : Graph) (a : Alphabet) : Graph :=
  let nfa := g.epsilonFree
  let p := Partition.ofGraph nfa a
  (((nfa.determinize p).totalize p).minimize p).mergeEdges

/-- the minimal graph, provided that there is a start to set out from -/
def minimal? (g : Graph) (a : Alphabet) : Option Graph :=
  if g.isEmpty then none else some (g.minimal a)

theorem minimal?_of_not_isEmpty {g : Graph} (h : g.isEmpty = false) (a : Alphabet) :
    g.minimal? a = some (g.minimal a) := by
  simp [minimal?, h]

end SpanSearch.Graph
