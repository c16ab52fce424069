import SpanSearch.Partition
import SpanSearch.Graph.Printed
import SpanSearch.Table.ByteClasses
import SpanSearch.Table.CharClasses

/-!
# Deterministic automata as tables

The dead state comes first, then the silent states, the other states that do not accept, and
those that do.  What a state is can be read off its number.

* `SymbolClasses`      classes of bytes or of characters
* `Table.ofGraph`      the table of a deterministic graph
* `Table.next`         the successor of a state under a symbol
* `Table.accelerator`  the bytes that leave a state, if there are few
* `Table.accepts`      whether a word leads from the start to an accepting state
-/

namespace SpanSearch

inductive SymbolClasses where
  | bytes (classes : ByteClasses)
  | chars (classes : CharClasses)
  deriving Repr

namespace SymbolClasses

def size : SymbolClasses → Nat
  | .bytes c => c.size
  | .chars c => c.size

def classOf : SymbolClasses → Nat → Nat
  | .bytes c => c.classOf
  | .chars c => c.classOf

def representative : SymbolClasses → Nat → Nat
  | .bytes c => c.representative
  | .chars c => c.representative

/-- the classes of the live cells of an automaton -/
def ofCells (a : Alphabet) (t : Thresholds) (cells : List (Nat × Nat)) : SymbolClasses :=
  match a with
  | .bytes _ => .bytes (ByteClasses.ofCells cells)
  | .chars => .chars (CharClasses.ofCells t cells)

end SymbolClasses

structure Table where
  start : Nat
  /-- the first state that is neither dead nor silent -/
  silentEnd : Nat
  /-- the first accepting state -/
  acceptStart : Nat
  classes : SymbolClasses
  /-- the successors of every state, class by class -/
  rows : Array (Array Nat)
  /-- the bytes that leave a state; empty where there are too many or the state is not skipped -/
  accels : Array (List Nat)
  deriving Repr

namespace Table

/-- the state that is never left and never accepts -/
def dead : Nat := 0

def size (t : Table) : Nat := t.rows.size

def next (t : Table) (id sym : Nat) : Nat :=
  (t.rows.getD id #[]).getD (t.classes.classOf sym) dead

def isDead (_ : Table) (id : Nat) : Bool := id == dead

/-- whether a state belongs only to the scan that precedes every match -/
def isSilent (t : Table) (id : Nat) : Bool := id != dead && decide (id < t.silentEnd)

def isAccepting (t : Table) (id : Nat) : Bool := decide (t.acceptStart ≤ id)

/-- the bytes that leave a state, if it has few of them -/
def accelerator (t : Table) (id : Nat) : List Nat := t.accels.getD id []

/-! ## the layout -/

def isDeadEnd (s : State) : Bool := !s.accepting && s.edges.isEmpty

/-- the silent states that do not accept and lead somewhere -/
def isQuiet (s : State) : Bool := !s.accepting && !isDeadEnd s && s.silent

/-- the states that are not silent, do not accept and lead somewhere -/
def isLoud (s : State) : Bool := !s.accepting && !isDeadEnd s && !s.silent

/-- the states that are kept, in the order of the layout -/
def layout (g : Graph) : List Nat :=
  (g.ids.filter fun id => isQuiet (g.state id)) ++
    (g.ids.filter fun id => isLoud (g.state id)) ++
      g.ids.filter fun id => (g.state id).accepting

/-- the row of every state; the first is the dead one -/
def placesOf (size : Nat) (order : List Nat) : Array Nat :=
  (order.zipIdx 1).foldl (fun a (id, i) => a.setIfInBounds id i) (Array.replicate size dead)

/-- the successors of a state, read off one member of each class -/
def rowOf (g : Graph) (classes : SymbolClasses) (places : Array Nat) (id : Nat) : Array Nat :=
  ((List.range classes.size).map fun c =>
    match g.nexts id (classes.representative c) with
    | [] => dead
    | e :: _ => places.getD e.target dead).toArray

/-- the most bytes that an accelerator looks out for -/
def maxNeedles : Nat := 3

/-- the bytes that lead a row somewhere else than to `id` -/
def leaving (classes : ByteClasses) (row : Array Nat) (id : Nat) : List Nat :=
  (List.range 256).filter fun b => row.getD (classes.classOf b) dead != id

/-- accelerators for the states before `acceptStart`, except the dead one -/
def accelsOf (classes : SymbolClasses) (rows : Array (Array Nat)) (acceptStart : Nat) :
    Array (List Nat) :=
  match classes with
  | .chars _ => #[]
  | .bytes c =>
    ((List.range rows.size).map fun id =>
      if id = dead ∨ acceptStart ≤ id then []
      else
        let bs := leaving c (rows.getD id #[]) id
        if bs.length ≤ maxNeedles then bs else []).toArray

/-- the table of a deterministic graph -/
def ofGraph (g : Graph) (a : Alphabet) (t : Thresholds) : Table :=
  let order := layout g
  let places := placesOf g.size order
  let classes := SymbolClasses.ofCells a t ((Partition.ofGraph g a).liveCells g)
  let rows := (Array.replicate classes.size dead :: order.map (rowOf g classes places)).toArray
  let silentEnd := 1 + g.ids.countP fun id => isQuiet (g.state id)
  let acceptStart := silentEnd + g.ids.countP fun id => isLoud (g.state id)
  { start := if g.isEmpty then dead else places.getD g.start dead
    silentEnd := silentEnd
    acceptStart := acceptStart
    classes := classes
    rows := rows
    accels := accelsOf classes rows acceptStart }

/-! ## reading words -/

/-- whether a word leads from `id` to an accepting state -/
def acceptsFrom (t : Table) (id : Nat) : List Nat → Bool
  | [] => t.isAccepting id
  | sym :: word =>
    let id := t.next id sym
    if t.isDead id then false else t.acceptsFrom id word

/-- whether a word leads from the start to an accepting state -/
def accepts (t : Table) (word : List Nat) : Bool := t.acceptsFrom t.start word

/-- the start and the state after each symbol of a word -/
def walk (t : Table) (word : List Nat) : List Nat :=
  let rec go (id : Nat) : List Nat → List Nat
    | [] => [id]
    | sym :: word => id :: go (t.next id sym) word
  go t.start word

theorem isSilent_dead (t : Table) : t.isSilent dead = false := rfl

/-! ## the printed form -/

/-- the successors of a state that are not dead, each behind a member of its class -/
def rowText (t : Table) (id : Nat) : List String :=
  ((t.rows.getD id #[]).toList.zipIdx.filter fun (next, _) => next != dead).map fun (next, c) =>
    Text.escape (t.classes.representative c) ++ s!" => {next}"

def stateText (t : Table) (id : Nat) : String :=
  let first := if t.isDead id then 'D' else Text.mark (id == t.start) '>'
  Text.stateLine [first, Text.mark (t.isAccepting id) '*', Text.mark (t.isSilent id) '~'] id
    (t.rowText id)

def toText (t : Table) : String := String.join ((List.range t.size).map t.stateText)

end Table
end SpanSearch
