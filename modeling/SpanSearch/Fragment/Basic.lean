import SpanSearch.Alphabet
import SpanSearch.Graph.Compact

/-!
# Fragments of a graph under construction

A fragment is an entry state and at most one exit state of a shared graph.  A fragment without
an exit matches nothing.  Composing fragments adds states and edges to the graph and leaves all
others as they are.

* `Build`                  a step of the construction
* `Fragment.chain`         one symbol after another
* `Fragment.literal`, `Fragment.text`       a character, a text
* `Fragment.symbols`, `Fragment.symbolClass`   raw symbols
* `Fragment.group`         a fragment as a capture group
* `Fragment.alternatives`, `Fragment.concatenation`
* `Fragment.empty`, `Fragment.nothing`
-/

namespace SpanSearch

/-- a step of a construction: it reads and extends the graph -/
abbrev Build := StateM Graph

namespace Build

def state : Build Nat := fun g => g.addState

def edge (source : Nat) (e : Edge) : Build Unit := modify fun g => g.addEdge source e

def epsilon (source target : Nat) : Build Unit := edge source (Edge.epsilon target)

def range (source lo hi target : Nat) : Build Unit := edge source (Edge.symbols lo hi target)

end Build

structure Fragment where
  entry : Nat
  exit : Option Nat
  deriving DecidableEq, Repr

namespace Fragment

def empty : Build Fragment := do
  let s ← Build.state
  return ⟨s, some s⟩

def nothing : Build Fragment := do
  let s ← Build.state
  return ⟨s, none⟩

/-- the states and edges of a word, from state `current` on; the result is the last state -/
def chainFrom (current : Nat) : List Nat → Build Nat
  | [] => return current
  | sym :: word => do
    let next ← Build.state
    Build.range current sym sym next
    chainFrom next word

def chain (word : List Nat) : Build Fragment := do
  let entry ← Build.state
  let exit ← chainFrom entry word
  return ⟨entry, some exit⟩

/-- one raw symbol in any of the ranges; the bounds of a range may come in either order -/
def symbolClass (ranges : List (Nat × Nat)) : Build Fragment := do
  let s ← Build.state
  let e ← Build.state
  ranges.forM fun (a, b) => Build.range s (min a b) (max a b) e
  return ⟨s, some e⟩

def symbols (a b : Nat) : Build Fragment := symbolClass [(a, b)]

/-- one character; nothing if the alphabet has no form for it -/
def literal (α : Alphabet) (c : Char) : Build Fragment :=
  match α with
  | .chars => symbols c.toNat c.toNat
  | .bytes enc =>
    match enc.encode? c with
    | none => nothing
    | some bs => chain bs

/-- a text, one symbol after another; nothing if the alphabet has no form for one of its
characters -/
def text (α : Alphabet) (cs : List Char) : Build Fragment :=
  match α with
  | .chars => chain (cs.map Char.toNat)
  | .bytes enc =>
    match enc.encodeText? cs with
    | none => nothing
    | some bs => chain bs

/-- what `a` matches, as capture group `n` -/
def group (a : Fragment) (n : Nat) : Build Fragment := do
  let s ← Build.state
  let e ← Build.state
  Build.edge s (Edge.firing (.enter n) a.entry)
  match a.exit with
  | none => return ⟨s, none⟩
  | some x =>
    Build.edge x (Edge.firing (.leave n) e)
    return ⟨s, some e⟩

/-- an edge from `s` to the entry of each fragment and from each exit to `e` -/
def fan (s e : Nat) : List Fragment → Build Unit
  | [] => return ()
  | a :: as => do
    Build.epsilon s a.entry
    match a.exit with
    | none => pure ()
    | some x => Build.epsilon x e
    fan s e as

/-- what one of the fragments matches; a single fragment stays as it is -/
def alternatives : List Fragment → Build Fragment
  | [] => nothing
  | [a] => return a
  | as => do
    let s ← Build.state
    let e ← Build.state
    fan s e as
    return ⟨s, if as.any fun a => a.exit.isSome then some e else none⟩

/-- an edge from each exit to the entry of the fragment after it -/
def linkAll : List Fragment → Build Unit
  | a :: b :: as => do
    match a.exit with
    | none => pure ()
    | some x => Build.epsilon x b.entry
    linkAll (b :: as)
  | _ => return ()

/-- what the fragments match one after another; a single fragment stays as it is -/
def concatenation : List Fragment → Build Fragment
  | [] => empty
  | [a] => return a
  | a :: as => do
    linkAll (a :: as)
    let broken := (a :: as).any fun b => b.exit.isNone
    return ⟨a.entry, if broken then none else (as.getLast?.bind Fragment.exit)⟩

end Fragment
end SpanSearch
