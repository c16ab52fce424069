import SpanSearch.Graph.Compact

/-!
# Merging parallel edges

* `Edge.notAfter`     by target, epsilons first, then by range and action
* `Edge.absorb?`      one edge for two, if their ranges overlap or touch; `absorb?_cases`
* `Graph.mergeEdges`  every list of edges merged in one scan, then trimmed
-/

namespace SpanSearch

/-- no action first, then entering a group, then leaving one -/
def actionRank : Option Action → Nat × Nat
  | none => (0, 0)
  | some (.enter n) => (1, n)
  | some (.leave n) => (2, n)

namespace Edge

/-- target, kind, bounds and action as numbers, the most significant first -/
def rank (e : Edge) : List Nat :=
  let (kind, n) := actionRank e.action
  match e.label with
  | .epsilon => [e.target, 0, 0, 0, kind, n]
  | .symbols lo hi => [e.target, 1, lo, hi, kind, n]

def notAfter (a b : Edge) : Bool := (compare a.rank b.rank).isLE

/-- one edge that does for both: ranges that overlap or touch, or the same edge twice -/
def absorb? (a b : Edge) : Option Edge :=
  let same := if a = b then some a else none
  match a.label, b.label with
  | .symbols lo hi, .symbols lo' hi' =>
    if a.target = b.target ∧ a.action = b.action ∧ lo' ≤ hi + 1 then
      some { a with label := .symbols lo (max hi hi') }
    else same
  | _, _ => same

/-- each edge in a list that may go into the one before it does -/
def coalesce : List Edge → List Edge
  | [] => []
  | [e] => [e]
  | a :: b :: es =>
    match a.absorb? b with
    | some c => coalesce (c :: es)
    | none => a :: coalesce (b :: es)
termination_by l => l.length

theorem coalesce_nil : coalesce [] = [] := by
  unfold coalesce
  rfl

/-- an edge that does for two is the range over both, or either of two that are equal -/
theorem absorb?_cases {a b c : Edge} (h : a.absorb? b = some c) :
    (∃ lo hi lo' hi', a.label = .symbols lo hi ∧ b.label = .symbols lo' hi' ∧
      b.target = a.target ∧ b.action = a.action ∧ lo' ≤ hi + 1 ∧
      c = { a with label := .symbols lo (max hi hi') }) ∨
    b = a ∧ c = a := by
  have hsame (hc : (if a = b then some a else none) = some c) : b = a ∧ c = a := by
    obtain ⟨hab, hc⟩ := Option.ite_none_right_eq_some.1 hc
    exact ⟨hab.symm, (Option.some.inj hc).symm⟩
  unfold absorb? at h
  dsimp only at h
  split at h
  · next lo hi lo' hi' ha hb =>
    split at h
    · next hboth =>
      exact .inl ⟨lo, hi, lo', hi', ha, hb, hboth.1.symm, hboth.2.1.symm, hboth.2.2,
        (Option.some.inj h).symm⟩
    · exact .inr (hsame h)
  · exact .inr (hsame h)

theorem apart_of_absorb? {a b : Edge} {lo hi lo' hi' : Nat} (h : a.absorb? b = none)
    (ha : a.label = .symbols lo hi) (hb : b.label = .symbols lo' hi') (ht : a.target = b.target)
    (haction : a.action = b.action) : hi + 1 < lo' := by
  rw [absorb?, ha, hb] at h
  dsimp only at h
  split at h
  · exact absurd h (Option.some_ne_none _)
  · next hnot => exact Nat.lt_of_not_le fun hle => hnot ⟨ht, haction, hle⟩

theorem target_of_absorb? {a b c : Edge} (h : a.absorb? b = some c) :
    c.target = a.target ∧ b.target = a.target := by
  rcases absorb?_cases h with ⟨lo, hi, lo', hi', -, -, ht, -, -, rfl⟩ | ⟨rfl, rfl⟩
  · exact ⟨rfl, ht⟩
  · exact ⟨rfl, rfl⟩

end Edge

/-- the same traces with maximal ranges between two states -/
def Graph.mergeEdges (g : Graph) : Graph :=
  (g.mapStates fun s => { s with edges := Edge.coalesce (s.edges.mergeSort Edge.notAfter) }).trim

end SpanSearch
