import SpanSearch.Graph.Basic

/-!
# Breadth first tours

A tour lists the states found from some roots, in the order in which they are found.  The list
is also the queue: the state at place `i` is looked at in round `i`.

* `Tour`                  what has been found so far
* `Tour.discover`         one more state, unless it is known
* `Tour.run`              look at the states found, one after another, until none is left
* `breadthFirst`          the tour from some roots along any relation
* `Graph.reachable`       all states reachable from a root
* `Graph.plainClosure`    those reachable through edges that consume and fire nothing
* `Graph.live`            the states from which an accepting state can be reached
-/

namespace SpanSearch

structure Tour where
  /-- the states found, in order -/
  order : Array Nat
  /-- whether a state has been found -/
  seen : Array Bool

namespace Tour

def empty (size : Nat) : Tour := ⟨#[], Array.replicate size false⟩

/-- one more state, unless it has been found or does not exist -/
def discover (t : Tour) (id : Nat) : Tour :=
  if t.seen.getD id true then t else ⟨t.order.push id, t.seen.setIfInBounds id true⟩

def discoverAll (t : Tour) (ids : List Nat) : Tour := ids.foldl discover t

/-- look at the states found from place `i` on, in at most `rounds` rounds -/
def run (next : Nat → List Nat) : (rounds i : Nat) → Tour → Tour
  | 0, _, t => t
  | rounds + 1, i, t =>
    match t.order[i]? with
    | none => t
    | some id => run next rounds (i + 1) (t.discoverAll (next id))

theorem discover_of_seen {t : Tour} {id : Nat} (h : t.seen.getD id true = true) :
    t.discover id = t := by
  simp [discover, h]

theorem order_discover_of_not_seen {t : Tour} {id : Nat} (h : t.seen.getD id true = false) :
    (t.discover id).order = t.order.push id := by
  simp [discover, h]

theorem size_seen_discover (t : Tour) (id : Nat) : (t.discover id).seen.size = t.seen.size := by
  unfold discover
  split <;> simp

theorem size_seen_discoverAll (t : Tour) (ids : List Nat) :
    (t.discoverAll ids).seen.size = t.seen.size := by
  induction ids generalizing t with
  | nil => rfl
  | cons id ids ih => exact (ih (t.discover id)).trans (size_seen_discover t id)

theorem discoverAll_nil (t : Tour) : t.discoverAll [] = t := rfl

theorem discoverAll_cons (t : Tour) (id : Nat) (ids : List Nat) :
    t.discoverAll (id :: ids) = (t.discover id).discoverAll ids := rfl

theorem size_seen_run (next : Nat → List Nat) (rounds i : Nat) (t : Tour) :
    (run next rounds i t).seen.size = t.seen.size := by
  induction rounds generalizing i t with
  | zero => rfl
  | succ rounds ih =>
    unfold run
    split
    · rfl
    · rw [ih, size_seen_discoverAll]

end Tour

/-- the tour of the numbers below `size` from the roots along `next`.  No number is found twice,
so `size` rounds are enough. -/
def breadthFirst (size : Nat) (next : Nat → List Nat) (roots : List Nat) : Tour :=
  Tour.run next size 0 ((Tour.empty size).discoverAll roots)

namespace Graph

/-- the states reachable from a root, in breadth first order -/
def reachable (g : Graph) (root : Nat) : Array Nat :=
  (breadthFirst g.size g.targets [root]).order

/-- the states reachable through edges that consume and fire nothing, the first of them `id` -/
def plainClosure (g : Graph) (id : Nat) : List Nat :=
  (breadthFirst g.size (fun s => ((g.edges s).filter Edge.isPlain).map Edge.target)
      [id]).order.toList

/-- for each state, whether it accepts or an accepting state can be reached from it -/
def live (g : Graph) : Array Bool :=
  let into := g.incoming
  (breadthFirst g.size (fun s => (into.getD s #[]).toList) g.accepting).seen

theorem size_live (g : Graph) : g.live.size = g.size := by
  show (Tour.run _ _ _ _).seen.size = _
  rw [Tour.size_seen_run, Tour.size_seen_discoverAll]
  exact Array.size_replicate

end Graph
end SpanSearch
