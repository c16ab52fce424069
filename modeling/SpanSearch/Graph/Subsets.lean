import Std.Data.HashMap
import SpanSearch.Partition

/-!
# The subset construction

Each state of the result stands for a set of states of an epsilon free graph.  The set found
last is looked at first.  The empty set is never made a state.

* `Graph.edgesFrom`        the edges that leave a set of states
* `landings`               for each cell, the states that edges lead to under it
* `Subsets`                the sets found so far, their names and the graph over them
* `Subsets.intern`         the name of a set, which is new if the set is
* `Subsets.expand`         all edges of one set
* `Graph.determinize`      the whole construction
-/

namespace SpanSearch

def Graph.edgesFrom (g : Graph) (members : List Nat) : List Edge := members.flatMap g.edges

/-- the cells that an edge leads under: those whose first symbol it consumes -/
def Edge.cells (p : Partition) (e : Edge) : List Nat :=
  match e.range? with
  | none => []
  | some (lo, hi) => (p.cellsIn lo hi).filter fun c => e.accepts (p.representative c)

/-- for each cell, the states that edges lead to under it -/
def landings (p : Partition) (edges : List Edge) : Array (List Nat) :=
  edges.foldl
    (fun into e => (e.cells p).foldl (fun into c => into.modify c fun l => e.target :: l) into)
    (Array.replicate p.size [])

structure Subsets where
  /-- the set behind each state of `graph` -/
  sets : Array (List Nat)
  /-- the state of each set -/
  names : Std.HashMap (List Nat) Nat
  graph : Graph
  /-- the states whose edges are still to be made, the last found first -/
  waiting : List Nat

namespace Subsets

def empty : Subsets := ⟨#[], ∅, Graph.empty, []⟩

/-- the state of a set: it accepts if a member does, and is silent if all members are -/
def stateOf (g : Graph) (set : List Nat) : State :=
  { accepting := set.any g.isAccepting, silent := set.all g.isSilent }

/-- the name of a set; a set that has none gets the next one and has to wait for its edges -/
def intern (g : Graph) (t : Subsets) (set : List Nat) : Nat × Subsets :=
  match t.names[set]? with
  | some id => (id, t)
  | none =>
    let id := t.sets.size
    (id,
      { sets := t.sets.push set
        names := t.names.insert set id
        graph := { t.graph with states := t.graph.states.push (stateOf g set) }
        waiting := id :: t.waiting })

theorem intern_of_known {g : Graph} {t : Subsets} {set : List Nat} {id : Nat}
    (h : t.names[set]? = some id) : intern g t set = (id, t) := by
  simp [intern, h]

/-- the edge of state `id` for one cell, if its set leads anywhere under it -/
def link (g : Graph) (p : Partition) (id : Nat) (into : Array (List Nat)) (t : Subsets)
    (c : Nat) : Subsets :=
  match Ascending.ofList (into.getD c []) with
  | [] => t
  | next =>
    let (target, t) := intern g t next
    let (lo, hi) := p.cell c
    { t with graph := t.graph.addEdge id (Edge.symbols lo hi target) }

def expand (g : Graph) (p : Partition) (t : Subsets) (id : Nat) : Subsets :=
  p.indices.foldl (link g p id (landings p (g.edgesFrom (t.sets.getD id [])))) t

/-- the edges of the waiting states, in at most `rounds` rounds -/
def run (g : Graph) (p : Partition) : (rounds : Nat) → Subsets → Subsets
  | 0, t => t
  | rounds + 1, t =>
    match t.waiting with
    | [] => t
    | id :: rest => run g p rounds (expand g p { t with waiting := rest } id)

end Subsets

/-- the deterministic graph of the sets of states that words lead to.  A graph of `n` states has
no more than `2 ^ n` sets, and each is looked at once. -/
def Graph.determinize (g : Graph) (p : Partition) : Graph :=
  if g.isEmpty then Graph.empty
  else
    let (start, t) := Subsets.intern g Subsets.empty [g.start]
    ((Subsets.run g p (Nat.pow 2 g.size) t).graph).withStart start

end SpanSearch
