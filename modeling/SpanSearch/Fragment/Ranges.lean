import SpanSearch.Fragment.Basic

/-!
# Ranges of characters as fragments

A range of encoded characters is a few intervals of byte sequences of one length.  An interval
is laid out byte by byte: as long as both bounds agree there is one state; from the byte on
where they differ there is a state that still agrees with the lower bound, one that still agrees
with the upper bound, and one strictly between them wherever something lies between.

* `Frontier`                 the states reached by the bytes laid out so far
* `Fragment.layOut`          the rest of an interval
* `Fragment.charClass`       one character in any of several ranges
-/

namespace SpanSearch

inductive Frontier where
  /-- both bounds agree so far -/
  | tied (s : Nat)
  /-- the bounds have parted -/
  | parted (low : Nat) (mid : Option Nat) (high : Nat)

namespace Frontier

/-- both bounds agree up to here and have the bytes `f` and `t` next -/
def advanceTied (s f t : Nat) : Build Frontier :=
  if f = t then do
    let next ← Build.state
    Build.range s f f next
    return .tied next
  else do
    let low ← Build.state
    let high ← Build.state
    Build.range s f f low
    Build.range s t t high
    if 2 ≤ t - f then
      let mid ← Build.state
      Build.range s (f + 1) (t - 1) mid
      return .parted low (some mid) high
    else return .parted low none high

/-- the bounds have parted and have the bytes `f` and `t` next; `lo` and `hi` bound any byte -/
def advanceParted (lo hi low : Nat) (mid : Option Nat) (high f t : Nat) : Build Frontier := do
  let nextLow ← Build.state
  let nextHigh ← Build.state
  Build.range low f f nextLow
  Build.range high t t nextHigh
  if f < hi ∨ mid.isSome ∨ lo < t then
    let nextMid ← Build.state
    if f < hi then Build.range low (f + 1) hi nextMid
    match mid with
    | none => pure ()
    | some m => Build.range m lo hi nextMid
    if lo < t then Build.range high lo (t - 1) nextMid
    return .parted nextLow (some nextMid) nextHigh
  else return .parted nextLow none nextHigh

def advance (lo hi : Nat) (front : Frontier) (f t : Nat) : Build Frontier :=
  match front with
  | .tied s => advanceTied s f t
  | .parted low mid high => advanceParted lo hi low mid high f t

/-- the last bytes of the bounds are `f` and `t`: everything leads to `e` -/
def close (lo hi : Nat) (front : Frontier) (f t e : Nat) : Build Unit :=
  match front with
  | .tied s => Build.range s f t e
  | .parted low mid high => do
    Build.range low f hi e
    match mid with
    | none => pure ()
    | some m => Build.range m lo hi e
    Build.range high lo t e

end Frontier

namespace Fragment

/-- the rest of an interval, given as the pairs of bytes of its two bounds -/
def layOut (lo hi e : Nat) : Frontier → List (Nat × Nat) → Build Unit
  | _, [] => return ()
  | front, [(f, t)] => front.close lo hi f t e
  | front, (f, t) :: rest => do
    let front ← front.advance lo hi f t
    layOut lo hi e front rest

/-- an interval of byte sequences of one length, from `s` to `e` -/
def interval (enc : Encoding) (s e : Nat) (bounds : List Nat × List Nat) : Build Unit :=
  let (lo, hi) := enc.tailRange?.getD (0x00, 0xFF)
  layOut lo hi e (.tied s) (bounds.1.zip bounds.2)

/-- the code points between two bounds, in either order, from `s` to `e` -/
def charRange (α : Alphabet) (s e a b : Nat) : Build Unit :=
  match α with
  | .chars => Build.range s (min a b) (max a b) e
  | .bytes enc => (enc.sequences a b).forM (interval enc s e)

/-- one character in any of the ranges of code points -/
def charClass (α : Alphabet) (ranges : List (Nat × Nat)) : Build Fragment := do
  let s ← Build.state
  let e ← Build.state
  ranges.forM fun (a, b) => charRange α s e a b
  return ⟨s, some e⟩

end Fragment
end SpanSearch
