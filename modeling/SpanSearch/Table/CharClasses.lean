import SpanSearch.Alphabet
import SpanSearch.Table.Representatives

/-!
# Classes of characters

Three ways to look up a class, chosen by how far the live cells reach.

* `Thresholds`, `Lookup.Kind`   the limits and the three ways
* `Lookup.ofCells`              a flat table, a table of low bytes, or tables of pages
* `Lookup.classOf`              the class of a symbol in each of them
* `CharClasses`                 a lookup and a member of every class
-/

namespace SpanSearch

/-- a flat table is used for cells that span no more than `smallSpan` code points, or no more
than `lowByteSpan` if they lie on one page of 256 -/
structure Thresholds where
  lowByteSpan : Nat := 64
  smallSpan : Nat := 256
  deriving Repr

/-- where a code point is looked up: its page and its place on it -/
def pageOf (sym : Nat) : Nat := sym / 256

def placeOf (sym : Nat) : Nat := sym % 256

inductive Lookup where
  /-- a table over all code points from `min` on -/
  | flat (min : Nat) (map : Array Nat)
  /-- a table over one page -/
  | single (page : Nat) (map : Array Nat)
  /-- a block for each page, and the class of each place in each block -/
  | paged (pages : Array Nat) (blocks : Array (Array Nat))
  deriving Repr

namespace Lookup

inductive Kind where
  | flat
  | single
  | paged
  deriving DecidableEq, Repr

/-- the name under which a way to look up is shown -/
def Kind.toText : Kind → String
  | .flat => "SmallRange"
  | .single => "LowByte"
  | .paged => "BitMask"

def kind : Lookup → Kind
  | .flat _ _ => .flat
  | .single _ _ => .single
  | .paged _ _ => .paged

def choose (t : Thresholds) (lo hi : Nat) : Kind :=
  let onePage := pageOf lo == pageOf hi
  let limit := if onePage then t.lowByteSpan else t.smallSpan
  if hi - lo ≤ limit then .flat else if onePage then .single else .paged

/-- the table over the code points from `lo` to `hi` -/
def flatOf (cells : List ((Nat × Nat) × Nat)) (lo hi : Nat) : Lookup :=
  .flat lo <| cells.foldl
    (fun m ((a, b), cls) => (between a b).foldl (fun m s => m.setIfInBounds (s - lo) cls) m)
    (Array.replicate (hi + 1 - lo) 0)

def singleOf (cells : List ((Nat × Nat) × Nat)) (lo : Nat) : Lookup :=
  .single (pageOf lo) <| cells.foldl
    (fun m ((a, b), cls) => (between a b).foldl (fun m s => m.setIfInBounds (placeOf s) cls) m)
    (Array.replicate 256 0)

/-- pages on their way to a lookup; `uniform` is the block that has the current class in every
place, once there is one -/
structure Pages where
  pages : Array Nat
  blocks : Array (Array Nat)
  uniform : Option Nat

/-- give the code points from `lo` to `hi` on one page their class.  A whole page shares the
uniform block of the class; a page that is still empty gets a block of its own. -/
def Pages.paint (cls lo hi : Nat) (p : Pages) (page : Nat) : Pages :=
  let first := max lo (page * 256)
  let last := min hi (page * 256 + 255)
  if placeOf first = 0 ∧ placeOf last = 255 then
    match p.uniform with
    | some b => { p with pages := p.pages.setIfInBounds page b }
    | none =>
      let b := p.blocks.size
      { pages := p.pages.setIfInBounds page b
        blocks := p.blocks.push (Array.replicate 256 cls)
        uniform := some b }
  else
    let p :=
      if p.pages.getD page 0 = 0 then
        { p with
          pages := p.pages.setIfInBounds page p.blocks.size
          blocks := p.blocks.push (Array.replicate 256 0) }
      else p
    { p with
      blocks := p.blocks.modify (p.pages.getD page 0) fun block =>
        (between first last).foldl (fun m s => m.setIfInBounds (placeOf s) cls) block }

def Pages.paintCell (p : Pages) : (Nat × Nat) × Nat → Pages
  | ((lo, hi), cls) =>
    (between (pageOf lo) (pageOf hi)).foldl (paint cls lo hi) { p with uniform := none }

/-- all pages up to the one of `max`; block `0` has class `0` in every place -/
def pagedOf (cells : List ((Nat × Nat) × Nat)) (max : Nat) : Lookup :=
  let p := cells.foldl Pages.paintCell
    ⟨Array.replicate (pageOf max + 1) 0, #[Array.replicate 256 0], none⟩
  .paged p.pages p.blocks

/-- the lookup for ascending cells, each a class of its own -/
def ofCells (t : Thresholds) (cells : List (Nat × Nat)) : Lookup :=
  let max := Alphabet.chars.maxSymbol
  let numbered := cells.zipIdx (classOffset max cells)
  match cells.head?, cells.getLast? with
  | some (lo, _), some (_, hi) =>
    match choose t lo hi with
    | .flat => flatOf numbered lo hi
    | .single => singleOf numbered lo
    | .paged => pagedOf numbered max
  | _, _ => .flat 0 #[]

/-- the class of a symbol; `0` wherever no cell was painted -/
def classOf (l : Lookup) (sym : Nat) : Nat :=
  match l with
  | .flat min map => if sym < min then 0 else map.getD (sym - min) 0
  | .single page map => if pageOf sym = page then map.getD (placeOf sym) 0 else 0
  | .paged pages blocks =>
    match pages[pageOf sym]? with
    | none => 0
    | some b => (blocks.getD b #[]).getD (placeOf sym) 0

end Lookup

structure CharClasses where
  lookup : Lookup
  /-- a member of every class -/
  reps : Array Nat
  deriving Repr

namespace CharClasses

def ofCells (t : Thresholds) (cells : List (Nat × Nat)) : CharClasses :=
  ⟨Lookup.ofCells t cells, (representatives Alphabet.chars.maxSymbol cells).toArray⟩

def size (c : CharClasses) : Nat := c.reps.size

def kind (c : CharClasses) : Lookup.Kind := c.lookup.kind

def classOf (c : CharClasses) (sym : Nat) : Nat := c.lookup.classOf sym

def representative (c : CharClasses) (cls : Nat) : Nat := c.reps.getD cls 0

theorem size_ofCells (t : Thresholds) (cells : List (Nat × Nat)) :
    (ofCells t cells).size = classOffset Alphabet.chars.maxSymbol cells + cells.length := by
  simp [ofCells, size, length_representatives]

def toText (c : CharClasses) : String :=
  "CharClasses \x7b kind: " ++ c.kind.toText ++ ", representatives: [" ++
    ", ".intercalate (c.reps.toList.map toString) ++ "] \x7d"

end CharClasses
end SpanSearch
