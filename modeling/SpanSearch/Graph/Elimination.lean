import SpanSearch.Ascending
import SpanSearch.Graph.Contraction

/-!
# Eliminating every edge that consumes nothing

Acceptance is first spread backwards along plain closures.  Then the epsilon edges go one at a
time, in breadth first order from the start: either the origin takes over what the closure of
the target consumes (forward), or whatever leads into the origin leads into the target as well
(backward).  Backward elimination would lead silent states out of their scan, so it is not used
where a silent state can reach the origin by epsilons.

* `Elimination`            the graph and, for every edge into a state, its source
* `Elimination.add`, `Elimination.remove`          one edge more or less, both parts in step
* `Elimination.forward`, `Elimination.backward`    the two ways to do without an epsilon
* `Graph.eliminate`        all of it; `eliminate?` refuses a graph that has no start
-/

namespace SpanSearch

/-- the first `a` taken out and its place filled with the last member -/
def swapErase (a : Nat) (l : List Nat) : List Nat :=
  match l.idxOf? a with
  | none => l
  | some i => (l.set i (l.getLastD a)).dropLast

structure Elimination where
  graph : Graph
  /-- one entry for each edge, so the length is the number of edges into the state -/
  sources : Array (List Nat)

namespace Elimination

/-- the compacted graph without actions and without repeated edges -/
def stripped (g : Graph) : Graph :=
  g.compact.mapStates fun s => { s with edges := firsts (s.edges.map Edge.silenced) }

/-- the source of every edge, state by state -/
def sourcesOf (g : Graph) : Array (List Nat) :=
  (g.ids.reverse.foldl
    (fun into id =>
      (g.targets id).reverse.foldl (fun into t => into.modify t fun l => id :: l) into)
    (Array.replicate g.size []))

/-- a state accepts if anything in its plain closure does -/
def spread (g : Graph) : Graph :=
  { g with
    states := (g.ids.map fun id =>
      { g.state id with accepting := (g.plainClosure id).any g.isAccepting }).toArray }

def ofGraph (g : Graph) : Elimination :=
  let s := stripped g
  ⟨spread s, sourcesOf s⟩

def sourcesInto (w : Elimination) (id : Nat) : List Nat := w.sources.getD id []

def add (w : Elimination) (source : Nat) (e : Edge) : Elimination :=
  if w.graph.hasEdge source e then w
  else ⟨w.graph.addEdge source e, w.sources.modify e.target fun l => l ++ [source]⟩

def remove (w : Elimination) (source : Nat) (e : Edge) : Elimination :=
  if w.graph.hasEdge source e then
    ⟨w.graph.removeEdge source e, w.sources.modify e.target (swapErase source)⟩
  else w

/-- the states that reach `origin` by epsilons alone, the first of them `origin` -/
def epsilonSources (w : Elimination) (origin : Nat) : List Nat :=
  (breadthFirst w.graph.size
    (fun id =>
      (w.sourcesInto id).filter fun p => (w.graph.epsilons p).any fun e => e.target == id)
    [origin]).order.toList

/-- the origin takes over what the closure of the target consumes -/
def forward (w : Elimination) (origin target : Nat) : Elimination :=
  let copied := ((w.graph.plainClosure target).flatMap w.graph.edges).filter fun e => !e.isEpsilon
  (copied.foldl (fun w e => w.add origin e) w).remove origin (Edge.epsilon target)

/-- what leads into one of `through` leads into the target as well -/
def backward (w : Elimination) (origin : Nat) (through : List Nat) (target : Nat) : Elimination :=
  let copied := through.flatMap fun id =>
    (Ascending.ofList (w.sourcesInto id)).flatMap fun source =>
      ((w.graph.edges source).filter fun e => !e.isEpsilon && e.target == id).map fun e =>
        (source, e.withTarget target)
  (copied.foldl (fun w (source, e) => w.add source e) w).remove origin (Edge.epsilon target)

/-- one epsilon less.  Forward where that adds no more edges than there are already, and
wherever a silent state can reach the origin by epsilons. -/
def step (w : Elimination) (origin target : Nat) : Elimination :=
  if origin = target then w.remove origin (Edge.epsilon target)
  else if origin = w.graph.start ∨
      (w.graph.edges target).length ≤ (w.sourcesInto origin).length then
    w.forward origin target
  else
    let through := w.epsilonSources origin
    if through.any w.graph.isSilent then w.forward origin target
    else w.backward origin through target

/-- the epsilons in breadth first order from the start, as pairs of origin and target -/
def pending (g : Graph) : List (Nat × Nat) :=
  (g.reachable g.start).toList.flatMap fun id => (g.epsilons id).map fun e => (id, e.target)

def run (w : Elimination) (epsilons : List (Nat × Nat)) : Elimination :=
  epsilons.foldl (fun w (origin, target) => w.step origin target) w

theorem size_add (w : Elimination) (source : Nat) (e : Edge) :
    (w.add source e).graph.size = w.graph.size := by
  unfold add
  split
  · rfl
  · exact Graph.size_addEdge _ _ _

theorem size_remove (w : Elimination) (source : Nat) (e : Edge) :
    (w.remove source e).graph.size = w.graph.size := by
  unfold remove
  split
  · exact Graph.size_modify _ _ _
  · rfl

theorem run_cons (w : Elimination) (origin target : Nat) (l : List (Nat × Nat)) :
    w.run ((origin, target) :: l) = (w.step origin target).run l := rfl

end Elimination

namespace Graph

/-- the same words without epsilons; actions are dropped -/
def eliminate (g : Graph) : Graph :=
  let w := Elimination.ofGraph g
  (w.run (Elimination.pending w.graph)).graph.trim

/-- the same words without epsilons, provided that there is a start to set out from -/
def eliminate? (g : Graph) : Option Graph := if g.isEmpty then none else some g.eliminate

theorem eliminate?_of_not_isEmpty {g : Graph} (h : g.isEmpty = false) :
    g.eliminate? = some g.eliminate := by
  simp [eliminate?, h]

end Graph
end SpanSearch
