/-!
# Graphs of states and labelled edges

An arena of states that are named by their place.  Every automaton is a graph until it is laid
out as a table.

* `Action`, `Label`, `Edge`, `State`, `Graph`   the parts
* `Graph.addState`, `Graph.addEdge`             growing a graph
* `Graph.edges`, `Graph.nexts`, `Graph.epsilons`, `Graph.targets`   what leaves a state
* `Graph.incoming`                              what enters each state
* `state_modify_self`, `state_modify_ne`        a change to one state changes no other
-/

namespace SpanSearch

/-- what happens when an edge is taken, to follow the bounds of the capture groups -/
inductive Action where
  | enter (group : Nat)
  | leave (group : Nat)
  deriving DecidableEq, Repr

def Action.reversed : Action → Action
  | .enter n => .leave n
  | .leave n => .enter n

theorem Action.reversed_reversed (a : Action) : a.reversed.reversed = a := by
  cases a <;> rfl

/-- what an edge consumes -/
inductive Label where
  /-- nothing -/
  | epsilon
  /-- one symbol between two bounds, both included -/
  | symbols (lo hi : Nat)
  deriving DecidableEq, Repr

structure Edge where
  label : Label
  target : Nat
  action : Option Action
  deriving DecidableEq, Repr

namespace Edge

def epsilon (target : Nat) : Edge := ⟨.epsilon, target, none⟩

def symbols (lo hi target : Nat) : Edge := ⟨.symbols lo hi, target, none⟩

/-- an edge that consumes nothing and fires an action -/
def firing (a : Action) (target : Nat) : Edge := ⟨.epsilon, target, some a⟩

def isEpsilon (e : Edge) : Bool :=
  match e.label with
  | .epsilon => true
  | .symbols _ _ => false

def isPlain (e : Edge) : Bool := e.isEpsilon && e.action.isNone

/-- the bounds of an edge that consumes a symbol -/
def range? (e : Edge) : Option (Nat × Nat) :=
  match e.label with
  | .epsilon => none
  | .symbols lo hi => some (lo, hi)

def accepts (e : Edge) (sym : Nat) : Bool :=
  match e.label with
  | .epsilon => false
  | .symbols lo hi => decide (lo ≤ sym) && decide (sym ≤ hi)

def withTarget (e : Edge) (target : Nat) : Edge := { e with target := target }

def silenced (e : Edge) : Edge := { e with action := none }

theorem target_withTarget (e : Edge) (t : Nat) : (e.withTarget t).target = t := rfl

end Edge

structure State where
  accepting : Bool := false
  /-- part of the scan that precedes every match -/
  silent : Bool := false
  edges : List Edge := []
  deriving DecidableEq, Repr, Inhabited

structure Graph where
  states : Array State
  start : Nat
  deriving Repr

namespace Graph

/-- no states; the start is `0`, which the first state added will be -/
def empty : Graph := ⟨#[], 0⟩

def size (g : Graph) : Nat := g.states.size

def isEmpty (g : Graph) : Bool := g.size == 0

def state (g : Graph) (id : Nat) : State := g.states.getD id {}

def hasState (g : Graph) (id : Nat) : Bool := decide (id < g.size)

def edges (g : Graph) (id : Nat) : List Edge := (g.state id).edges

def isAccepting (g : Graph) (id : Nat) : Bool := (g.state id).accepting

def isSilent (g : Graph) (id : Nat) : Bool := (g.state id).silent

def modify (g : Graph) (id : Nat) (f : State → State) : Graph :=
  { g with states := g.states.modify id f }

def mapStates (g : Graph) (f : State → State) : Graph := { g with states := g.states.map f }

def withStart (g : Graph) (id : Nat) : Graph := { g with start := id }

def setAccepting (g : Graph) (id : Nat) (yes : Bool) : Graph :=
  g.modify id fun s => { s with accepting := yes }

def setSilent (g : Graph) (id : Nat) (yes : Bool) : Graph :=
  g.modify id fun s => { s with silent := yes }

/-- the name of the next state to be added, and the graph with that state -/
def addState (g : Graph) : Nat × Graph := (g.size, { g with states := g.states.push {} })

/-- an edge behind those that already leave `source` -/
def addEdge (g : Graph) (source : Nat) (e : Edge) : Graph :=
  g.modify source fun s => { s with edges := s.edges ++ [e] }

/-- the first edge of `source` equal to `e` taken out -/
def removeEdge (g : Graph) (source : Nat) (e : Edge) : Graph :=
  g.modify source fun s => { s with edges := s.edges.erase e }

def hasEdge (g : Graph) (source : Nat) (e : Edge) : Bool := (g.edges source).contains e

def nexts (g : Graph) (id sym : Nat) : List Edge := (g.edges id).filter fun e => e.accepts sym

def epsilons (g : Graph) (id : Nat) : List Edge := (g.edges id).filter Edge.isEpsilon

/-- the states that edges of `id` lead to, one for each edge -/
def targets (g : Graph) (id : Nat) : List Nat := (g.edges id).map Edge.target

/-- the states of the arena, the unreachable ones included -/
def ids (g : Graph) : List Nat := List.range g.size

def accepting (g : Graph) : List Nat := g.ids.filter g.isAccepting

/-- the states with an edge into each state, in ascending order and each once -/
def incoming (g : Graph) : Array (Array Nat) :=
  g.ids.foldl
    (fun into id =>
      (g.targets id).foldl
        (fun into t =>
          into.modify t fun preds => if preds.back? == some id then preds else preds.push id)
        into)
    (Array.replicate g.size #[])

/-- every edge that leaves or enters `id` taken out -/
def disconnect (g : Graph) (id : Nat) : Graph :=
  (g.modify id fun s => { s with edges := [] }).mapStates fun s =>
    { s with edges := s.edges.filter fun e => e.target != id }

theorem mem_ids {g : Graph} {id : Nat} : id ∈ g.ids ↔ id < g.size := List.mem_range

theorem state_empty (id : Nat) : empty.state id = {} := by
  simp [state, empty]

theorem size_addState (g : Graph) : g.addState.2.size = g.size + 1 := by
  simp [addState, size]

theorem size_modify (g : Graph) (id : Nat) (f : State → State) :
    (g.modify id f).size = g.size := by
  simp [modify, size]

theorem size_addEdge (g : Graph) (source : Nat) (e : Edge) :
    (g.addEdge source e).size = g.size := size_modify g source _

theorem size_mapStates (g : Graph) (f : State → State) : (g.mapStates f).size = g.size := by
  simp [mapStates, size]

theorem state_modify_self {g : Graph} {id : Nat} (f : State → State) (h : id < g.size) :
    (g.modify id f).state id = f (g.state id) := by
  simp only [modify, state, Array.getD_eq_getD_getElem?, Array.getElem?_modify, if_true]
  rw [Array.getElem?_eq_getElem h]
  rfl

theorem state_modify_ne {g : Graph} {id other : Nat} (f : State → State) (h : id ≠ other) :
    (g.modify id f).state other = g.state other := by
  simp [modify, state, Array.getD_eq_getD_getElem?, Array.getElem?_modify, h]

theorem edges_addEdge_self {g : Graph} {source : Nat} (e : Edge) (h : source < g.size) :
    (g.addEdge source e).edges source = g.edges source ++ [e] := by
  rw [edges, addEdge, state_modify_self _ h]
  rfl

theorem edges_addEdge_ne {g : Graph} {source other : Nat} (e : Edge) (h : source ≠ other) :
    (g.addEdge source e).edges other = g.edges other := by
  rw [edges, addEdge, state_modify_ne _ h]
  rfl

theorem isAccepting_setAccepting {g : Graph} {id : Nat} (yes : Bool) (h : id < g.size) :
    (g.setAccepting id yes).isAccepting id = yes := by
  rw [isAccepting, setAccepting, state_modify_self _ h]

theorem isSilent_setSilent {g : Graph} {id : Nat} (yes : Bool) (h : id < g.size) :
    (g.setSilent id yes).isSilent id = yes := by
  rw [isSilent, setSilent, state_modify_self _ h]

end Graph
end SpanSearch
