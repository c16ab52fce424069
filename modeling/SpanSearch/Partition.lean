import SpanSearch.Ascending
import SpanSearch.Alphabet
import SpanSearch.Text.Escape
import SpanSearch.Graph.Basic

/-!
# Cells of a symbol space

A split of all symbols into contiguous cells, kept as the ascending list of their first symbols.

* `Partition.ofGraph`     the coarsest split that no range of a graph straddles
* `Partition.cell`        the bounds of a cell
* `Partition.cellOf`      the cell of a symbol
* `Partition.cellsIn`     the cells that a range meets
* `Partition.liveCells`   the cells that an edge of a graph covers
-/

namespace SpanSearch

structure Partition where
  /-- the first symbol of every cell, ascending, the first of them `0` -/
  starts : Array Nat
  /-- the last symbol of the last cell -/
  max : Nat
  deriving Repr

namespace Partition

/-- the ranges of all edges that consume a symbol -/
def rangesOf (g : Graph) : List (Nat × Nat) :=
  g.states.toList.flatMap fun s => s.edges.filterMap Edge.range?

/-- where cells have to begin for a range to be made of whole cells -/
def boundsOf (max : Nat) : Nat × Nat → List Nat
  | (lo, hi) => (if lo ≤ max then [lo] else []) ++ (if hi < max then [hi + 1] else [])

def ofGraph (g : Graph) (a : Alphabet) : Partition :=
  let bounds := (rangesOf g).flatMap (boundsOf a.maxSymbol)
  ⟨(Ascending.ofList (0 :: bounds)).toArray, a.maxSymbol⟩

def size (p : Partition) : Nat := p.starts.size

def representative (p : Partition) (c : Nat) : Nat := p.starts.getD c 0

/-- the bounds of a cell, both included -/
def cell (p : Partition) (c : Nat) : Nat × Nat :=
  (p.representative c,
    match p.starts[c + 1]? with
    | none => p.max
    | some next => next - 1)

def indices (p : Partition) : List Nat := List.range p.size

def cells (p : Partition) : List (Nat × Nat) := p.indices.map p.cell

/-- the last place from `lo` on, but before `hi`, whose start is not above `sym` -/
def lastNotAbove (starts : Array Nat) (sym lo hi : Nat) : Nat :=
  if hi - lo ≤ 1 then lo
  else
    let mid := (lo + hi) / 2
    if starts.getD mid 0 ≤ sym then lastNotAbove starts sym mid hi
    else lastNotAbove starts sym lo mid
termination_by hi - lo

def cellOf (p : Partition) (sym : Nat) : Nat := lastNotAbove p.starts sym 0 p.size

/-- the cells that a range meets, as a first place and the place after the last -/
def cellBounds (p : Partition) (lo hi : Nat) : Nat × Nat :=
  if p.max < lo then (0, 0) else (p.cellOf lo, p.cellOf (min hi p.max) + 1)

def cellsIn (p : Partition) (lo hi : Nat) : List Nat :=
  let (first, stop) := p.cellBounds lo hi
  List.range' first (stop - first)

/-- for each cell, whether one of the ranges meets it -/
def covered (p : Partition) (ranges : List (Nat × Nat)) : Array Bool :=
  ranges.foldl
    (fun marks (lo, hi) => (p.cellsIn lo hi).foldl (fun m c => m.setIfInBounds c true) marks)
    (Array.replicate p.size false)

/-- the cells that some edge of a graph covers, in order -/
def liveCells (p : Partition) (g : Graph) : List (Nat × Nat) :=
  let marks := p.covered (rangesOf g)
  (p.indices.filter fun c => marks.getD c false).map p.cell

def toText (p : Partition) : String :=
  "Partition(" ++ ", ".intercalate (p.cells.map fun (lo, hi) => Text.interval lo hi) ++ ")"

end Partition
end SpanSearch
