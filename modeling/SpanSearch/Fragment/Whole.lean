import SpanSearch.Fragment.Basic

/-!
# Fragments and whole graphs

* `Fragment.reverse`   every edge turned round
* `Fragment.silence`   every state marked as part of the scan before a match
* `Fragment.finish`    a fragment as a graph of its own
* `Fragment.ofGraph`   a graph as a fragment
-/

namespace SpanSearch.Fragment

/-- the edges of some states, each with its source -/
def edgesOf (g : Graph) (ids : List Nat) : List (Nat × Edge) :=
  ids.flatMap fun id => (g.edges id).map fun e => (id, e)

/-- the edges of some states taken out and put back in the other direction -/
def turnEdges (g : Graph) (ids : List Nat) : Graph :=
  let cleared := ids.foldl (fun g id => g.modify id fun s => { s with edges := [] }) g
  (edgesOf g ids).foldl
    (fun g (source, e) => g.addEdge e.target ⟨e.label, source, e.action.map Action.reversed⟩)
    cleared

/-- every edge that the entry of `a` can reach turned round, and entry and exit exchanged -/
def reverse (a : Fragment) : Build Fragment :=
  match a.exit with
  | none => nothing
  | some exit => do
    modify fun g => turnEdges g (g.reachable a.entry).toList
    return ⟨exit, some a.entry⟩

/-- every state that the entry of `a` can reach marked as silent -/
def silence (a : Fragment) : Build Fragment := do
  modify fun g => (g.reachable a.entry).foldl (fun g id => g.setSilent id true) g
  return a

/-- what `a` matches as a graph of its own; the exit is the only accepting state -/
def finish (a : Fragment) (g : Graph) : Graph :=
  let g := match a.exit with
    | none => g
    | some x => g.setAccepting x true
  (g.withStart a.entry).compact

/-- a state in its new place, `offset` further on; whether it accepts is not kept -/
def shifted (offset : Nat) (s : State) : State :=
  { s with
    accepting := false
    edges := s.edges.map fun e => e.withTarget (e.target + offset) }

/-- a graph as a fragment.  If it has several accepting states they are joined in a new one. -/
def ofGraph (h : Graph) : Build Fragment := do
  let offset ← modifyGet fun g =>
    (g.size, { g with states := g.states ++ h.states.map (shifted g.size) })
  let entry := h.start + offset
  match h.accepting with
  | [] => return ⟨entry, none⟩
  | [x] => return ⟨entry, some (x + offset)⟩
  | xs =>
    let join ← Build.state
    xs.forM fun x => Build.epsilon (x + offset) join
    return ⟨entry, some join⟩

end SpanSearch.Fragment
