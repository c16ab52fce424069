import SpanSearch.Captures.Order
import SpanSearch.Cursor
import SpanSearch.Graph.Basic
import SpanSearch.SparseSet

/-!
# Recovering the capture groups of a span

All paths of a graph over the symbols of a span are followed at once.  A thread is a state along
with the captures recorded on the way.  Where two paths meet in a state, the smaller captures
survive.

* `Threads`            the threads at one position
* `Threads.offer`      record captures for a state, unless smaller ones are there
* `Threads.clear`      no thread left, though its captures are still there
* `Tracer.spread`      a thread and all that epsilons lead it to
* `Tracer.step`        all threads over one symbol
* `Tracer.trace`       the captures of a span
-/

namespace SpanSearch

structure Threads where
  live : SparseSet
  /-- the captures of the live states -/
  slots : Array (Option Captures)

namespace Threads

def empty (size : Nat) : Threads := ⟨SparseSet.empty size, Array.replicate size none⟩

def captures? (t : Threads) (id : Nat) : Option Captures := t.slots.getD id none

/-- the threads with `c` recorded for a state, or none if nothing greater is there -/
def offer (t : Threads) (id : Nat) (c : Captures) : Option Threads :=
  let (fresh, live) := t.live.insert id
  let kept := match t.captures? id with
    | some old => !fresh && (compare old c).isLE
    | none => false
  if kept then none else some ⟨live, t.slots.setIfInBounds id (some c)⟩

/-- the live states in the order in which they came to life, with their captures -/
def toList (t : Threads) : List (Nat × Captures) :=
  t.live.toList.filterMap fun id => (t.captures? id).map fun c => (id, c)

/-- no thread is left; the slots stay as they are -/
def clear (t : Threads) : Threads := { t with live := t.live.clear }

theorem toList_empty (size : Nat) : (empty size).toList = [] := rfl

theorem toList_clear (t : Threads) : t.clear.toList = [] := rfl

end Threads

/-- what an edge records at a position -/
def Captures.follow (c : Captures) (e : Edge) (pos : Nat) : Captures :=
  match e.action with
  | none => c
  | some (.enter n) => c.enter n pos
  | some (.leave n) => c.leave n pos

structure Tracer where
  /-- a graph that enters and leaves group `0` around the whole pattern -/
  graph : Graph
  deriving Repr

namespace Tracer

/-- record the threads on the stack, the top first, and everything that epsilons lead them to,
in at most `rounds` rounds.  A state is looked at again only when smaller captures reach it. -/
def spread (g : Graph) (pos : Nat) : (rounds : Nat) → List (Nat × Captures) → Threads → Threads
  | 0, _, t => t
  | _ + 1, [], t => t
  | rounds + 1, (id, c) :: stack, t =>
    match t.offer id c with
    | none => spread g pos rounds stack t
    | some t =>
      let more := (g.epsilons id).map fun e => (e.target, c.follow e pos)
      spread g pos rounds (more.reverse ++ stack) t

/-- the numbers of the groups that edges of a graph enter or leave, once for each such edge -/
def groupsOf (g : Graph) : List Nat :=
  g.states.toList.flatMap fun s => s.edges.filterMap fun e =>
    e.action.map fun a => match a with
      | .enter n => n
      | .leave n => n

/-- more rounds than `spread` can take.  At one position a group is in one of four conditions
and adds up to two spans to the completed ones, both ends of the match are set or not, and the
row of slots has one of so many lengths; a state is looked at once for each smaller value. -/
def rounds (g : Graph) : Nat :=
  let groups := groupsOf g
  let values := 4 * Nat.pow 16 groups.length * (groups.foldl max 0 + 3)
  let edges := g.states.foldl (fun n s => n + s.edges.length) 0
  (g.size + 1) * (edges + 1) * values + 1

/-- one more thread and everything that epsilons lead it to -/
def add (g : Graph) (rounds pos : Nat) (t : Threads) (id : Nat) (c : Captures) : Threads :=
  spread g pos rounds [(id, c)] t

/-- all threads over one symbol, in the place of older ones -/
def step (g : Graph) (rounds sym pos : Nat) (t old : Threads) : Threads :=
  t.toList.foldl
    (fun next (id, c) =>
      (g.nexts id sym).foldl (fun next e => add g rounds pos next e.target (c.follow e pos)) next)
    old.clear

/-- all threads over the symbols up to `stop`, or until no thread is left.  None if the text
ends before.  The threads of two positions take turns in two places. -/
def run (g : Graph) (rounds stop : Nat) :
    (steps : Nat) → Cursor → (t old : Threads) → Option Threads
  | 0, _, t, _ => some t
  | steps + 1, c, t, old =>
    if c.position < stop ∧ t.live.isEmpty = false then
      match c.next with
      | (none, _) => none
      | (some sym, c) => run g rounds stop steps c (step g rounds sym c.position t old) t
    else some t

/-- the captures of the threads that have come to the end of the match -/
def finished (g : Graph) (stop : Nat) (t : Threads) : List Captures :=
  (t.toList.filter fun (id, c) => g.isAccepting id && c.isValid && c.stop == some stop).map Prod.snd

/-- the captures of a span, or none if the graph does not match it -/
def trace (tr : Tracer) (c : Cursor) (s : Span) : Option Captures :=
  let g := tr.graph
  if g.isEmpty then none
  else
    let r := rounds g
    let c := c.moveTo s.start
    let t := add g r s.start (Threads.empty g.size) g.start Captures.blank
    (run g r s.stop (c.length + 1) c t (Threads.empty g.size)).bind fun t =>
      Captures.minimum? (finished g s.stop t)

theorem spread_nil (g : Graph) (pos rounds : Nat) (t : Threads) :
    spread g pos rounds [] t = t := by
  cases rounds <;> rfl

end Tracer
end SpanSearch
