import SpanSearch.Alphabet

/-!
# Tapes of symbols

A tape is a row of cells, one for each byte of the text in storage.  A symbol sits in its first
cell; the other cells that it covers are blank.  Positions count cells.

* `Tape.ofText`, `Tape.ofBytes`   the tape of a text or of bytes, for an alphabet
* `Tape.symbolAt?`                the symbol in a cell
* `Tape.symbolBefore?`            the last symbol before a position, and its cell
* `Tape.slice`                    the text between two positions
* `Tape.findAny`                  the next of some bytes
-/

namespace SpanSearch

structure Tape where
  alphabet : Alphabet
  cells : Array (Option Nat)
  deriving Repr

namespace Tape

def charCells (c : Char) : List (Option Nat) :=
  some c.toNat :: List.replicate (Text.Utf8.width c.toNat - 1) none

def ofChars (cs : List Char) : Tape := ⟨.chars, (cs.flatMap charCells).toArray⟩

def ofEncoded (enc : Encoding) (bs : List Nat) : Tape := ⟨.bytes enc, (bs.map some).toArray⟩

/-- the tape of a text; characters that cannot be encoded become `?` -/
def ofText (a : Alphabet) (cs : List Char) : Tape :=
  match a with
  | .bytes enc => ofEncoded enc (enc.encodeLossy cs)
  | .chars => ofChars cs

/-- the tape of bytes; for characters they are read as UTF-8 -/
def ofBytes (a : Alphabet) (bs : List Nat) : Tape :=
  match a with
  | .bytes enc => ofEncoded enc bs
  | .chars => ofChars (Text.Utf8.decode bs)

def length (t : Tape) : Nat := t.cells.size

def widthOf (t : Tape) (sym : Nat) : Nat :=
  match t.alphabet with
  | .bytes _ => 1
  | .chars => Text.Utf8.width sym

def symbolAt? (t : Tape) (pos : Nat) : Option Nat := t.cells.getD pos none

/-- the last symbol that begins before a position, and where it begins -/
def symbolBefore? (t : Tape) : Nat → Option (Nat × Nat)
  | 0 => none
  | pos + 1 =>
    match t.symbolAt? pos with
    | some sym => some (pos, sym)
    | none => t.symbolBefore? pos

/-- the symbols that begin between two positions -/
def symbolsIn (t : Tape) (start stop : Nat) : List Nat :=
  (t.cells.extract start stop).toList.filterMap id

/-- the text between two positions -/
def slice (t : Tape) (start stop : Nat) : String :=
  let syms := t.symbolsIn start stop
  String.ofList <| match t.alphabet with
    | .bytes enc => enc.decode syms
    | .chars => syms.map Char.ofNat

/-- the first place from `pos` on with one of the symbols, or the end -/
def findAny (t : Tape) (syms : List Nat) (pos : Nat) : Nat :=
  if pos < t.length then
    match t.symbolAt? pos with
    | some sym => if syms.contains sym then pos else t.findAny syms (pos + 1)
    | none => t.findAny syms (pos + 1)
  else t.length
termination_by t.length - pos

theorem length_ofEncoded (enc : Encoding) (bs : List Nat) :
    (ofEncoded enc bs).length = bs.length := by
  simp [ofEncoded, length]

theorem symbolAt?_ofEncoded (enc : Encoding) (bs : List Nat) (pos : Nat) :
    (ofEncoded enc bs).symbolAt? pos = bs[pos]? := by
  simp [symbolAt?, ofEncoded, Array.getD_eq_getD_getElem?]
  cases bs[pos]? <;> rfl

theorem symbolsIn_ofEncoded (enc : Encoding) (bs : List Nat) (i j : Nat) :
    (ofEncoded enc bs).symbolsIn i j = (bs.drop i).take (j - i) := by
  rw [symbolsIn, Array.toList_extract]
  show (((bs.map some).drop i).take (j - i)).filterMap id = _
  rw [← List.map_drop, ← List.map_take, List.filterMap_map]
  exact List.filterMap_some

/-- on a tape of bytes this is where any of them comes first in what is left -/
theorem findAny_ofEncoded (enc : Encoding) (bs syms : List Nat) (pos : Nat) :
    (ofEncoded enc bs).findAny syms pos =
      ((bs.drop pos).findIdx? syms.contains).elim bs.length (pos + ·) := by
  fun_induction (ofEncoded enc bs).findAny syms pos with
  | case1 pos hlt sym hsym hmem =>
    rw [symbolAt?_ofEncoded] at hsym
    obtain ⟨hlt, rfl⟩ := List.getElem?_eq_some_iff.1 hsym
    rw [List.drop_eq_getElem_cons hlt, List.findIdx?_cons, if_pos hmem]
    rfl
  | case2 pos hlt sym hsym hmem ih =>
    rw [symbolAt?_ofEncoded] at hsym
    obtain ⟨hlt, rfl⟩ := List.getElem?_eq_some_iff.1 hsym
    rw [List.drop_eq_getElem_cons hlt, List.findIdx?_cons, if_neg hmem, ih]
    cases List.findIdx? _ _ with
    | none => rfl
    | some i => exact Nat.add_right_comm pos 1 i
  | case3 pos hlt hnone ih =>
    rw [length_ofEncoded] at hlt
    rw [symbolAt?_ofEncoded, List.getElem?_eq_getElem hlt] at hnone
    exact absurd hnone (Option.some_ne_none _)
  | case4 pos hge =>
    rw [length_ofEncoded] at hge
    rw [length_ofEncoded, List.drop_eq_nil_of_le (Nat.le_of_not_lt hge)]
    rfl

theorem symbolAt?_of_length_le {t : Tape} {pos : Nat} (h : t.length ≤ pos) :
    t.symbolAt? pos = none := by
  simp [symbolAt?, Array.getD_eq_getD_getElem?, Array.getElem?_eq_none h]

/-- a symbol read backwards is the one that begins where the reading ends -/
theorem symbolBefore?_eq_some {t : Tape} {pos before sym : Nat}
    (h : t.symbolBefore? pos = some (before, sym)) :
    before < pos ∧ t.symbolAt? before = some sym := by
  induction pos with
  | zero => simp [symbolBefore?] at h
  | succ pos ih =>
    unfold symbolBefore? at h
    split at h
    · next s hs =>
      obtain ⟨rfl, rfl⟩ := Prod.mk.inj (Option.some.inj h)
      exact ⟨Nat.lt_succ_self _, hs⟩
    · obtain ⟨hlt, hat⟩ := ih h
      exact ⟨Nat.lt_succ_of_lt hlt, hat⟩

end Tape
end SpanSearch
