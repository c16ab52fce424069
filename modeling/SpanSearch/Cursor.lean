import SpanSearch.Tape

/-!
# Cursors

A cursor reads one symbol at a time, in either direction, and can be moved to any position.

* `Cursor.onTape`     a position on a tape
* `Cursor.reversed`   a view that reads backwards and is finished at position `0`
* `Cursor.lent`       a view that passes on what moves the cursor and answers whether it is
                      empty or finished, and how to finish, from its position and length
* `Cursor.next`, `Cursor.prev`      the symbol read, and the cursor behind it
* `Cursor.skipToAny`                forward to the next of some bytes
* `Cursor.skipBy`                   the same with searches for bytes as a parameter; `skipBy_eq`
* `tape_read`, `position_moveTo`    reading leaves the tape alone; where a move ends
* `next_reversed`, `next_lent`      what the views pass on
-/

namespace SpanSearch

inductive Cursor where
  | onTape (tape : Tape) (pos : Nat)
  | reversed (inner : Cursor)
  | lent (inner : Cursor)
  deriving Repr

namespace Cursor

def ofTape (t : Tape) : Cursor := .onTape t 0

def tape : Cursor → Tape
  | .onTape t _ => t
  | .reversed c => c.tape
  | .lent c => c.tape

def position : Cursor → Nat
  | .onTape _ pos => pos
  | .reversed c => c.position
  | .lent c => c.position

def length : Cursor → Nat
  | .onTape t _ => t.length
  | .reversed c => c.length
  | .lent c => c.length

/-- read a symbol, forwards or backwards in terms of the tape -/
def read (forward : Bool) : Cursor → Option Nat × Cursor
  | .onTape t pos =>
    if forward then
      match t.symbolAt? pos with
      | none => (none, .onTape t pos)
      | some sym => (some sym, .onTape t (pos + t.widthOf sym))
    else
      match t.symbolBefore? pos with
      | none => (none, .onTape t pos)
      | some (before, sym) => (some sym, .onTape t before)
  | .reversed c =>
    let (sym, c) := c.read (!forward)
    (sym, .reversed c)
  | .lent c =>
    let (sym, c) := c.read forward
    (sym, .lent c)

/-- the symbol at the cursor, and the cursor behind it -/
def next (c : Cursor) : Option Nat × Cursor := c.read true

/-- the symbol before the cursor, and the cursor in front of it -/
def prev (c : Cursor) : Option Nat × Cursor := c.read false

/-- the cursor at another position, or at the end if that is nearer -/
def moveTo (pos : Nat) : Cursor → Cursor
  | .onTape t _ => .onTape t (min pos t.length)
  | .reversed c => .reversed (c.moveTo pos)
  | .lent c => .lent (c.moveTo pos)

def isEmpty (c : Cursor) : Bool := c.length == 0

/-- nothing is left to read; a view that reads backwards looks at the beginning instead -/
def finished : Cursor → Bool
  | .reversed c => c.position == 0
  | c => decide (c.length ≤ c.position)

def finish : Cursor → Cursor
  | .reversed c => .reversed (c.moveTo 0)
  | c => c.moveTo c.length

def slice (c : Cursor) (start stop : Nat) : String := c.tape.slice start stop

def maxNeedles : Nat := 3

/-- forward to the next of the first three bytes, or to the end.  Without bytes to look for, on
a tape of characters and in a view that reads backwards the cursor stays. -/
def skipToAny (needles : List Nat) : Cursor → Cursor
  | .onTape t pos =>
    if needles.isEmpty || !t.alphabet.isBytes then .onTape t pos
    else .onTape t (t.findAny (needles.take maxNeedles) pos)
  | .reversed c => .reversed c
  | .lent c => .lent (c.skipToAny needles)

/-- searches for the first of one byte, of two and of three -/
structure Searches where
  one : Nat → List Nat → Option Nat
  two : Nat → Nat → List Nat → Option Nat
  three : Nat → Nat → Nat → List Nat → Option Nat

/-- a search finds the first place with any of its bytes -/
structure Searches.First (s : Searches) : Prop where
  one : ∀ a bytes, s.one a bytes = bytes.findIdx? [a].contains
  two : ∀ a a' bytes, s.two a a' bytes = bytes.findIdx? [a, a'].contains
  three : ∀ a a' a'' bytes, s.three a a' a'' bytes = bytes.findIdx? [a, a', a''].contains

/-- the search for as many bytes as there are; from the third on the others are left out -/
def Searches.find (s : Searches) : List Nat → List Nat → Option Nat
  | [], _ => some 0
  | [a], bytes => s.one a bytes
  | [a, a'], bytes => s.two a a' bytes
  | a :: a' :: a'' :: _, bytes => s.three a a' a'' bytes

/-- forward to what a search finds, or to the end -/
def skipBy (s : Searches) (needles : List Nat) : Cursor → Cursor
  | .onTape t pos =>
    if t.alphabet.isBytes then
      .onTape t ((s.find needles (t.symbolsIn pos t.length)).elim t.length (pos + ·))
    else .onTape t pos
  | .reversed c => .reversed c
  | .lent c => .lent (c.skipBy s needles)

theorem Searches.First.find_eq {s : Searches} (hs : s.First) {needles : List Nat}
    (hne : needles ≠ []) (bytes : List Nat) :
    s.find needles bytes = bytes.findIdx? (needles.take maxNeedles).contains := by
  rcases needles with _ | ⟨a, _ | ⟨a', _ | ⟨a'', rest⟩⟩⟩
  · exact absurd rfl hne
  · exact hs.one a bytes
  · exact hs.two a a' bytes
  · exact hs.three a a' a'' bytes

/-- over bytes the searches may be any that find the first place -/
theorem skipBy_eq {s : Searches} (hs : s.First) {enc : Encoding} {bs : List Nat} {c : Cursor}
    (h : c.tape = .ofEncoded enc bs) (needles : List Nat) :
    c.skipBy s needles = c.skipToAny needles := by
  induction c with
  | onTape t pos =>
    obtain rfl : t = .ofEncoded enc bs := h
    have hbytes : (Tape.ofEncoded enc bs).alphabet.isBytes = true := rfl
    have hrest : (Tape.ofEncoded enc bs).symbolsIn pos (Tape.ofEncoded enc bs).length =
        bs.drop pos := by
      rw [Tape.length_ofEncoded, Tape.symbolsIn_ofEncoded]
      exact List.take_of_length_le (Nat.le_of_eq List.length_drop)
    rw [skipBy, skipToAny, if_pos hbytes, hbytes, Bool.not_true, Bool.or_false, hrest]
    by_cases hne : needles = []
    · subst hne
      rfl
    · rw [if_neg (mt List.isEmpty_iff.1 hne), hs.find_eq hne, Tape.findAny_ofEncoded,
        Tape.length_ofEncoded]
  | reversed c => rfl
  | lent c ih => exact congrArg lent (ih h)

theorem length_eq (c : Cursor) : c.length = c.tape.length := by
  induction c with
  | onTape t p => rfl
  | reversed c ih => exact ih
  | lent c ih => exact ih

theorem tape_moveTo (pos : Nat) (c : Cursor) : (c.moveTo pos).tape = c.tape := by
  induction c with
  | onTape t p => rfl
  | reversed c ih => exact ih
  | lent c ih => exact ih

theorem position_moveTo (pos : Nat) (c : Cursor) :
    (c.moveTo pos).position = min pos c.length := by
  induction c with
  | onTape t p => rfl
  | reversed c ih => exact ih
  | lent c ih => exact ih

theorem tape_read (forward : Bool) (c : Cursor) : (c.read forward).2.tape = c.tape := by
  induction c generalizing forward with
  | onTape t p =>
    unfold read
    cases forward
    · cases t.symbolBefore? p <;> simp [tape]
    · cases t.symbolAt? p <;> simp [tape]
  | reversed c ih => exact ih !forward
  | lent c ih => exact ih forward

theorem next_reversed (c : Cursor) :
    (reversed c).next = (c.prev.1, reversed c.prev.2) := rfl

theorem next_lent (c : Cursor) : (lent c).next = (c.next.1, lent c.next.2) := rfl

theorem prev_lent (c : Cursor) : (lent c).prev = (c.prev.1, lent c.prev.2) := rfl

end Cursor
end SpanSearch
