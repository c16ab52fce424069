import SpanSearch.Partition

/-!
# Minimal deterministic graphs by refinement of blocks

States start out in one block for each kind: accepting, silent, other.  A block is split when
some of its members lead into a splitter and some do not.  Of a block that waits as a splitter
both halves wait after a split, of any other the smaller half.

* `Graph.totalize`          an edge for every state and cell, by way of an error state
* `Transitions`             successors and predecessors as tables over states and cells
* `Refinement`              the blocks, the block of each state, the splitters that wait
* `Refinement.split`        one block into two, which makes one more splitter wait
* `Refinement.run`          splitters until none waits
* `Graph.minimize`          the graph of the blocks
-/

namespace SpanSearch

namespace Graph

/-- the missing edges of a state, all to `error` -/
def missingEdges (p : Partition) (s : State) (error : Nat) : List Edge :=
  let marks := p.covered (s.edges.filterMap Edge.range?)
  (p.indices.filter fun c => !marks.getD c false).map fun c =>
    let (lo, hi) := p.cell c
    Edge.symbols lo hi error

/-- an edge for every state and cell.  The cells that a state has no edge for lead to a new
error state, which leads to itself. -/
def totalize (g : Graph) (p : Partition) : Graph :=
  let (error, g) := g.addState
  g.mapStates fun s => { s with edges := s.edges ++ missingEdges p s error }

end Graph

structure Transitions where
  /-- the successor of a state under a cell -/
  next : Array (Array Nat)
  /-- for each cell and state, the states that lead there, ascending -/
  back : Array (Array (List Nat))

namespace Transitions

/-- the successors of a state, cell by cell; a later edge overrides an earlier one -/
def row (p : Partition) (id : Nat) (s : State) : Array Nat :=
  s.edges.foldl
    (fun row e =>
      match e.range? with
      | none => row
      | some (lo, hi) => (p.cellsIn lo hi).foldl (fun r c => r.setIfInBounds c e.target) row)
    (Array.replicate p.size id)

def column (size : Nat) (next : Array (Array Nat)) (c : Nat) : Array (List Nat) :=
  (List.range size).reverse.foldl
    (fun col id => col.modify ((next.getD id #[]).getD c id) fun l => id :: l)
    (Array.replicate size [])

def ofGraph (g : Graph) (p : Partition) : Transitions :=
  let next := (g.ids.map fun id => row p id (g.state id)).toArray
  ⟨next, (p.indices.map (column g.size next)).toArray⟩

def successor (t : Transitions) (id c : Nat) : Nat := (t.next.getD id #[]).getD c id

def predecessors (t : Transitions) (id c : Nat) : List Nat := (t.back.getD c #[]).getD id []

end Transitions

structure Refinement where
  blocks : Array (List Nat)
  /-- the block of each state -/
  blockOf : Array Nat
  /-- the splitters that have not been used, the next one first -/
  waiting : List Nat
  /-- whether a block waits -/
  queued : Array Bool

namespace Refinement

def kind (s : State) : Nat := if s.accepting then 0 else if s.silent then 1 else 2

/-- the states of each kind, without the kinds that do not occur, the smallest first -/
def kinds (g : Graph) : List (List Nat) :=
  let members := [0, 1, 2].map fun k => g.ids.filter fun id => kind (g.state id) == k
  (members.filter fun l => !l.isEmpty).mergeSort fun a b => a.length ≤ b.length

/-- the block of every state, for blocks numbered by their place -/
def assign (size : Nat) (blocks : List (List Nat)) : Array Nat :=
  blocks.zipIdx.foldl
    (fun of (members, b) => members.foldl (fun of id => of.setIfInBounds id b) of)
    (Array.replicate size 0)

/-- one block for each kind of state; all but the last, which is the largest, wait -/
def initial (g : Graph) : Refinement :=
  let blocks := kinds g
  let others := List.range (blocks.length - 1)
  { blocks := blocks.toArray
    blockOf := assign g.size blocks
    waiting := others.reverse
    queued := (List.range blocks.length).toArray.map fun b => decide (b < blocks.length - 1) }

def members (r : Refinement) (b : Nat) : List Nat := r.blocks.getD b []

def blockFor (r : Refinement) (id : Nat) : Nat := r.blockOf.getD id 0

/-- the members `moved` of block `b` put into a block of their own.  If `b` waits, the new block
waits as well, and otherwise the smaller of the two. -/
def split (r : Refinement) (b : Nat) (moved : List Nat) : Refinement :=
  let fresh := r.blocks.size
  let blockOf := moved.foldl (fun of id => of.setIfInBounds id fresh) r.blockOf
  let stay := (r.members b).filter fun id => blockOf.getD id 0 == b
  let waits := r.queued.getD b false
  let splitter := if waits || moved.length ≤ stay.length then fresh else b
  { blocks := (r.blocks.setIfInBounds b stay).push moved
    blockOf := blockOf
    waiting := splitter :: r.waiting
    queued := (r.queued.push false).setIfInBounds splitter true }

theorem size_blocks_split (r : Refinement) (b : Nat) (moved : List Nat) :
    (r.split b moved).blocks.size = r.blocks.size + 1 := by
  simp [split]

theorem length_waiting_split (r : Refinement) (b : Nat) (moved : List Nat) :
    (r.split b moved).waiting.length = r.waiting.length + 1 := by
  simp [split]

/-- states in order of their block, and in ascending order within a block, block by block -/
def byBlock (r : Refinement) (ids : List Nat) : List (List Nat) :=
  let le (a b : Nat) : Bool :=
    decide (r.blockFor a < r.blockFor b) || (r.blockFor a == r.blockFor b && decide (a ≤ b))
  (ids.mergeSort le).splitBy fun a b => r.blockFor a == r.blockFor b

/-- split the block that all of `moved` belong to, unless it has no other members -/
def separate (r : Refinement) (moved : List Nat) : Refinement :=
  match moved with
  | [] => r
  | id :: _ =>
    let b := r.blockFor id
    if moved.length < (r.members b).length then r.split b moved else r

/-- tell apart what leads into `splitter` under a cell from what does not -/
def refineBy (t : Transitions) (splitter : List Nat) (r : Refinement) (c : Nat) : Refinement :=
  (r.byBlock (splitter.flatMap fun id => t.predecessors id c)).foldl separate r

/-- the waiting splitters, for every cell, in at most `rounds` rounds -/
def run (t : Transitions) (cells : List Nat) : (rounds : Nat) → Refinement → Refinement
  | 0, r => r
  | rounds + 1, r =>
    match r.waiting with
    | [] => r
    | b :: rest =>
      let r := { r with waiting := rest, queued := r.queued.setIfInBounds b false }
      run t cells rounds (cells.foldl (refineBy t (r.members b)) r)

def inOrder (r : Refinement) : List Nat :=
  (List.range r.blocks.size).mergeSort fun a b =>
    (compare (r.members a).min? (r.members b).min?).isLE

/-- the state of a block, its edges read off its first member -/
def stateOf (g : Graph) (p : Partition) (t : Transitions) (places : Array Nat) (r : Refinement)
    (b : Nat) : State :=
  let ids := r.members b
  { accepting := ids.any g.isAccepting
    silent := ids.all g.isSilent
    edges := match ids with
      | [] => []
      | id :: _ => p.indices.map fun c =>
        let (lo, hi) := p.cell c
        Edge.symbols lo hi (places.getD (r.blockFor (t.successor id c)) 0) }

/-- the graph of the blocks, numbered in order of their least member -/
def quotient (g : Graph) (p : Partition) (t : Transitions) (r : Refinement) : Graph :=
  let order := r.inOrder
  let places := order.zipIdx.foldl (fun a (b, i) => a.setIfInBounds b i)
    (Array.replicate r.blocks.size 0)
  ⟨(order.map (stateOf g p t places r)).toArray, places.getD (r.blockFor g.start) 0⟩

end Refinement

/-- the quotient of a total deterministic graph by what its states lead to.  Every split adds a
block and one waiting splitter, so as many rounds as states are enough. -/
def Graph.minimize (g : Graph) (p : Partition) : Graph :=
  if g.isEmpty then Graph.empty
  else
    let t := Transitions.ofGraph g p
    Refinement.quotient g p t (Refinement.run t p.indices g.size (Refinement.initial g))

end SpanSearch
