import SpanSearch.Proofs.Renumbering
import SpanSearch.Proofs.Tracing

/-!
# What happens on the paths of a graph

A path consumes symbols and fires actions, one after another.  Taken together with the places of
a tape this gives the events of a path over the tape.

* `Edge.Shows`           what happens on an edge
* `Graph.Performs`       a path along with what happens on it
* `Graph.performances`   what happens on the paths from the start to acceptance
* `performances_compact`, `performances_trim`   neither new names nor trimming changes it
* `Happens`                what happens on a stretch of a tape, and the events that it has there
* `traces_iff`           the paths over a tape are the paths that play on it
-/

namespace SpanSearch

open SpanSearch.Graph

/-- a symbol is consumed, or an action is fired -/
inductive Happening where
  | consume (sym : Nat)
  | fire (a : Action)
  deriving DecidableEq, Repr

namespace Edge

variable {e : Edge} {u : List Happening}

/-- the action of an edge as something that happens -/
def fired (e : Edge) : List Happening := (e.action.map .fire).toList

/-- what happens on an edge: it consumes a symbol unless it is an epsilon, and then fires its
action -/
inductive Shows (e : Edge) : List Happening → Prop where
  | slide (eps : e.isEpsilon = true) : Shows e e.fired
  | read {sym : Nat} (acc : e.accepts sym = true) : Shows e (.consume sym :: e.fired)

theorem Shows.withTarget (h : e.Shows u) (t : Nat) : (e.withTarget t).Shows u := by
  cases h with
  | slide eps => exact .slide (e := e.withTarget t) eps
  | read acc => exact .read (e := e.withTarget t) acc

theorem shows_withTarget {t : Nat} : (e.withTarget t).Shows u ↔ e.Shows u :=
  ⟨fun h => h.withTarget e.target, fun h => h.withTarget t⟩

end Edge

namespace Graph

variable {g h : Graph} {p q r : Nat} {e : Edge} {u v : List Happening}

/-- a path from one state to another along with what happens on it -/
inductive Performs (g : Graph) : Nat → List Happening → Nat → Prop where
  | here (p : Nat) : Performs g p [] p
  | step {p q : Nat} {e : Edge} {u v : List Happening} (mem : e ∈ g.edges p) (now : e.Shows u)
      (rest : Performs g e.target v q) : Performs g p (u ++ v) q

/-- what happens on the paths from the start to an accepting state -/
def performances (g : Graph) : Language Happening :=
  {u | ∃ q, g.Performs g.start u q ∧ g.isAccepting q = true}

namespace Performs

theorem append (hu : g.Performs p u q) (hv : g.Performs q v r) : g.Performs p (u ++ v) r := by
  induction hu with
  | here p => exact hv
  | step mem now rest ih =>
    rw [List.append_assoc]
    exact .step mem now (ih hv)

theorem single (he : e ∈ g.edges p) (now : e.Shows u) : g.Performs p u e.target := by
  have hstep := Performs.step he now (.here _)
  rwa [List.append_nil] at hstep

theorem reaches (hu : g.Performs p u q) : Relation.ReflTransGen g.Joins p q := by
  induction hu with
  | here p => exact .refl
  | step mem now rest ih => exact .head ⟨_, mem, rfl⟩ ih

theorem stays {S : Nat → Prop} (closed : ∀ p, S p → ∀ e ∈ g.edges p, S e.target)
    (hu : g.Performs p u q) (hp : S p) : S q :=
  mem_of_reaches closed hu.reaches hp

end Performs

/-! ## new names -/

namespace Repeats

variable {S : Nat → Prop} {f : Nat → Nat} (rep : Repeats g h S f)
include rep

theorem performs (hu : g.Performs p u q) (hp : S p) : h.Performs (f p) u (f q) := by
  induction hu with
  | here p => exact .here (f p)
  | @step p q e u v mem now rest ih =>
    have hmem : e.withTarget (f e.target) ∈ h.edges (f p) := by
      rw [rep.edges p hp]
      exact List.mem_map_of_mem mem
    exact .step hmem (now.withTarget _) (ih (rep.closed p hp e mem))

theorem exists_performs {q' : Nat} (hu : h.Performs (f p) u q') (hp : S p) :
    ∃ q, S q ∧ f q = q' ∧ g.Performs p u q := by
  generalize hp' : f p = p' at hu
  induction hu generalizing p with
  | here p' => exact ⟨p, hp, hp', .here p⟩
  | @step p' q' e' u v mem now rest ih =>
    rw [← hp', rep.edges p hp] at mem
    obtain ⟨e, he, rfl⟩ := List.mem_map.1 mem
    obtain ⟨q, hq, hf, hv⟩ := ih (rep.closed p hp e he) rfl
    exact ⟨q, hq, hf, .step he (Edge.shows_withTarget.1 now) hv⟩

theorem performances_eq (start : S g.start) (hstart : f g.start = h.start)
    (accepting : ∀ p, S p → h.isAccepting (f p) = g.isAccepting p) :
    h.performances = g.performances := by
  ext u
  constructor
  · rintro ⟨q', hu', hacc⟩
    rw [← hstart] at hu'
    obtain ⟨q, hq, rfl, hu⟩ := rep.exists_performs hu' start
    exact ⟨q, hu, accepting q hq ▸ hacc⟩
  · rintro ⟨q, hu, hacc⟩
    have hq : S q := hu.stays rep.closed start
    exact ⟨f q, hstart ▸ rep.performs hu start, (accepting q hq).trans hacc⟩

end Repeats

theorem performances_compact (hc : g.Closed) (hs : g.start < g.size) :
    g.compact.performances = g.performances := by
  refine (repeats_compact hc hs).performances_eq (start_mem_reachable hs) ?_ fun p hp =>
    isAccepting_compact (Nat.zero_lt_of_lt hs) hp
  rw [placeOf_root hs, start_compact]

/-! ## trimming -/

theorem Performs.of_pruned (hc : g.Closed) (hu : g.pruned.Performs p u q) : g.Performs p u q := by
  induction hu with
  | here p => exact .here p
  | step mem now rest ih => exact .step ((mem_edges_pruned hc).1 mem).1 now ih

theorem Performs.pruned (hc : g.Closed) (hu : g.Performs p u q) (hq : g.Live q) :
    g.pruned.Performs p u q := by
  induction hu with
  | here p => exact .here p
  | step mem now rest ih =>
    obtain ⟨r, hr, hacc⟩ := hq
    have hlive : g.Live _ := ⟨r, rest.reaches.trans hr, hacc⟩
    exact .step ((mem_edges_pruned hc).2 ⟨mem, hlive⟩) now (ih ⟨r, hr, hacc⟩)

theorem performances_pruned (hc : g.Closed) : g.pruned.performances = g.performances := by
  ext u
  constructor
  · rintro ⟨q, hu, hacc⟩
    exact ⟨q, hu.of_pruned hc, isAccepting_pruned q ▸ hacc⟩
  · rintro ⟨q, hu, hacc⟩
    exact ⟨q, hu.pruned hc (live_of_isAccepting hacc), (isAccepting_pruned q).trans hacc⟩

theorem performances_trim (hc : g.Closed) (hs : g.start < g.size) :
    g.trim.performances = g.performances := by
  rw [trim_eq, performances_compact (closed_pruned hc) (start_lt_size_pruned hs),
    performances_pruned hc]

end Graph

/-! ## on a tape -/

/-- what happens between two places of a tape, along with the events that it has there: symbols
are those of the tape, and an action takes place where the reading has come to -/
inductive Happens (t : Tape) : Nat → List Happening → List Event → Nat → Prop where
  | nil (i : Nat) : Happens t i [] [] i
  | consume {i j k sym : Nat} {u : List Happening} {x : List Event} (holds : t.Holds i sym j)
      (rest : Happens t j u x k) : Happens t i (.consume sym :: u) x k
  | fire {i k : Nat} {a : Action} {u : List Happening} {x : List Event}
      (rest : Happens t i u x k) : Happens t i (.fire a :: u) ((a, i) :: x) k

section
variable {t : Tape} {i j k p q : Nat} {u v : List Happening} {x y z : List Event} {e : Edge}
  {g : Graph}

theorem Happens.append (hu : Happens t i u x j) (hv : Happens t j v y k) :
    Happens t i (u ++ v) (x ++ y) k := by
  induction hu with
  | nil i => exact hv
  | consume holds rest ih => exact .consume holds (ih hv)
  | fire rest ih => exact .fire (ih hv)

theorem Happens.split (h : Happens t i (u ++ v) z k) :
    ∃ x j y, z = x ++ y ∧ Happens t i u x j ∧ Happens t j v y k := by
  induction u generalizing i z with
  | nil => exact ⟨[], i, z, rfl, .nil i, h⟩
  | cons a u ih =>
    cases h with
    | consume holds rest =>
      obtain ⟨x, j, y, rfl, hu, hv⟩ := ih rest
      exact ⟨x, j, y, rfl, .consume holds hu, hv⟩
    | fire rest =>
      obtain ⟨x, j, y, rfl, hu, hv⟩ := ih rest
      exact ⟨_ :: x, j, y, rfl, .fire hu, hv⟩

theorem happens_fired (t : Tape) (e : Edge) (k : Nat) : Happens t k e.fired (e.events k) k := by
  rw [Edge.fired, Edge.events]
  cases e.action with
  | none => exact .nil k
  | some a => exact .fire (.nil k)

theorem Happens.eq_of_fired (h : Happens t i e.fired x k) : k = i ∧ x = e.events i := by
  rw [Edge.fired] at h
  rw [Edge.events]
  cases haction : e.action with
  | none =>
    rw [haction] at h
    cases h
    exact ⟨rfl, rfl⟩
  | some a =>
    rw [haction] at h
    cases h with
    | fire rest =>
      cases rest
      exact ⟨rfl, rfl⟩

theorem Happens.traces (h : Happens t i u x k) (he : e ∈ g.edges p) (now : e.Shows u) :
    g.Traces t p i x e.target k := by
  cases now with
  | slide eps =>
    obtain ⟨rfl, rfl⟩ := h.eq_of_fired
    exact .slide .here he eps
  | read acc =>
    cases h with
    | consume holds rest =>
      obtain ⟨rfl, rfl⟩ := rest.eq_of_fired
      exact .read .here he holds acc

/-- the paths over a tape are the paths on which what is shown happens on the tape -/
theorem traces_iff : g.Traces t p i x q k ↔ ∃ u, g.Performs p u q ∧ Happens t i u x k := by
  constructor
  · intro h
    induction h with
    | here => exact ⟨[], .here p, .nil i⟩
    | @slide q k e x before mem eps ih =>
      obtain ⟨u, hu, hhappens⟩ := ih
      exact ⟨_, hu.append (.single mem (.slide eps)), hhappens.append (happens_fired t e k)⟩
    | @read q j k sym e x before mem holds acc ih =>
      obtain ⟨u, hu, hhappens⟩ := ih
      exact ⟨_, hu.append (.single mem (.read acc)),
        hhappens.append (.consume holds (happens_fired t e k))⟩
  · rintro ⟨u, hu, hhappens⟩
    induction hu generalizing i x with
    | here p =>
      cases hhappens
      exact .here
    | step mem now rest ih =>
      obtain ⟨y, j, z, rfl, hnow, hrest⟩ := hhappens.split
      exact (hnow.traces mem now).append (ih hrest)

end
end SpanSearch
