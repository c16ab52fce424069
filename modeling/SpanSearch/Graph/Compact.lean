import SpanSearch.Graph.Tour

/-!
# Renumbering and copying

* `numbering`            the place of every number in a list
* `Graph.compact`        the part reachable from the start, in breadth first order
* `Graph.trim`           only the states from which acceptance can be reached, and the start
* `Graph.copyFrom`       a second copy of what a state can reach, in the same arena
* `state_copyFrom`       copying leaves every state as it is
-/

namespace SpanSearch

/-- for each number below `size`, its place in `order`, counted from `first` -/
def numbering (size first : Nat) (order : Array Nat) : Array (Option Nat) :=
  (order.toList.zipIdx first).foldl (fun places (id, i) => places.setIfInBounds id (some i))
    (Array.replicate size none)

namespace State

/-- the same state, its edges leading to the new names of their targets; an edge to a state
without a new name is dropped -/
def renumber (places : Array (Option Nat)) (s : State) : State :=
  { s with
    edges := s.edges.filterMap fun e => (places.getD e.target none).map e.withTarget }

end State

namespace Graph

/-- the part reachable from the start, renumbered in breadth first order; the start is `0` -/
def compact (g : Graph) : Graph :=
  if g.isEmpty then empty
  else
    let order := g.reachable g.start
    let places := numbering g.size 0 order
    ⟨order.map fun id => (g.state id).renumber places, 0⟩

/-- without the edges into states that cannot reach acceptance, compacted; the start stays -/
def trim (g : Graph) : Graph :=
  let live := g.live
  (g.mapStates fun s =>
    { s with edges := s.edges.filter fun e => live.getD e.target false }).compact

/-- the states reachable from `root` copied to the end of the arena, in the order in which a
tour finds them, and the new name of each -/
def copyFrom (g : Graph) (root : Nat) : Array (Option Nat) × Graph :=
  let order := g.reachable root
  let places := numbering g.size g.size order
  (places, { g with states := g.states ++ order.map fun id => (g.state id).renumber places })

theorem start_compact (g : Graph) : g.compact.start = 0 := by
  unfold compact
  split <;> rfl

theorem start_trim (g : Graph) : g.trim.start = 0 := start_compact _

theorem size_copyFrom (g : Graph) (root : Nat) :
    (g.copyFrom root).2.size = g.size + (g.reachable root).size := by
  simp [copyFrom, size]

/-- copying leaves every state as it is -/
theorem state_copyFrom {g : Graph} {root id : Nat} (h : id < g.size) :
    (g.copyFrom root).2.state id = g.state id := by
  simp only [copyFrom, state, Array.getD_eq_getD_getElem?]
  rw [Array.getElem?_append_left h]

end Graph
end SpanSearch
