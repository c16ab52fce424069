import SpanSearch.Table.Representatives
import SpanSearch.Text.Escape

/-!
# Classes of bytes

* `ByteClasses.ofCells`   the classes of the live cells of an automaton, as a map of 256 bytes
* `ByteClasses.classOf`   the class of a symbol
* `ByteClasses.toText`    the members of every class
-/

namespace SpanSearch

structure ByteClasses where
  /-- the class of every byte -/
  map : Array UInt8
  /-- a member of every class -/
  reps : Array UInt8
  deriving Repr

namespace ByteClasses

/-- the map after the bytes of one cell have been given its class -/
def paint (map : Array UInt8) (lo hi cls : Nat) : Array UInt8 :=
  (between lo (min hi 0xFF)).foldl (fun m b => m.setIfInBounds b cls.toUInt8) map

/-- each cell a class of its own, after the class of the bytes outside all cells -/
def ofCells (cells : List (Nat × Nat)) : ByteClasses where
  map := (cells.zipIdx (classOffset 0xFF cells)).foldl (fun m ((lo, hi), k) => paint m lo hi k)
    (Array.replicate 256 0)
  reps := ((representatives 0xFF cells).map Nat.toUInt8).toArray

def size (c : ByteClasses) : Nat := c.reps.size

/-- the class of a symbol; what is no byte is in class `0` -/
def classOf (c : ByteClasses) (sym : Nat) : Nat :=
  if 0xFF < sym then 0 else (c.map.getD sym 0).toNat

def representative (c : ByteClasses) (cls : Nat) : Nat := (c.reps.getD cls 0).toNat

/-- ascending numbers as ranges without gaps -/
def runs : List Nat → List (Nat × Nat)
  | [] => []
  | n :: ns =>
    match runs ns with
    | [] => [(n, n)]
    | (lo, hi) :: rest => if lo = n + 1 then (n, hi) :: rest else (n, n) :: (lo, hi) :: rest

theorem classOf_of_not_byte (c : ByteClasses) {sym : Nat} (h : 0xFF < sym) : c.classOf sym = 0 := by
  simp [classOf, h]

theorem size_ofCells (cells : List (Nat × Nat)) :
    (ofCells cells).size = classOffset 0xFF cells + cells.length := by
  simp [ofCells, size, length_representatives]

def memberText (c : ByteClasses) (cls : Nat) : String :=
  String.join ((runs ((List.range 256).filter fun b => c.classOf b == cls)).map fun (lo, hi) =>
    Text.interval lo hi)

def toText (c : ByteClasses) : String :=
  "ByteClasses(" ++
    ", ".intercalate ((List.range c.size).map fun cls => s!"{cls} => [" ++ c.memberText cls ++ "]")
    ++ ")"

end ByteClasses
end SpanSearch
