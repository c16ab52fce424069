import SpanSearch.Proofs.Reach

/-!
# Walking edge by edge

A walk keeps apart what the single edges of a path consume and fire, so that it can be taken in
the other direction: the edges come in the opposite order, and on each of them a group is entered
where it was left.

* `Stride`                 what one edge of a walk consumes and fires
* `Stride.mirror`          the strides of a walk in the other direction
* `Graph.Walks`            a path along with its strides
* `leads_iff_walks`        the word of a walk
* `Repeats.walks_iff`      walks under new names
* `Walks.mirror`           a graph with all edges turned round has the walks of the other direction
-/

namespace SpanSearch

open Relation

structure Stride where
  symbol : Option Nat
  action : Option Action
  deriving DecidableEq, Repr

namespace Stride

def mirrored (s : Stride) : Stride := ⟨s.symbol, s.action.map Action.reversed⟩

/-- the strides of a walk in the other direction -/
def mirror (l : List Stride) : List Stride := (l.map mirrored).reverse

def word (l : List Stride) : List Nat := l.filterMap symbol

theorem mirrored_mirrored (s : Stride) : s.mirrored.mirrored = s := by
  obtain ⟨symbol, action⟩ := s
  cases action with
  | none => rfl
  | some a => rw [mirrored, mirrored, Option.map_some, Option.map_some, Action.reversed_reversed]

theorem mirror_cons (s : Stride) (l : List Stride) :
    mirror (s :: l) = mirror l ++ [s.mirrored] := by
  rw [mirror, List.map_cons, List.reverse_cons, mirror]

theorem mirror_mirror (l : List Stride) : mirror (mirror l) = l := by
  have hid : mirrored ∘ mirrored = id := funext mirrored_mirrored
  rw [mirror, mirror, List.map_reverse, List.reverse_reverse, List.map_map, hid, List.map_id]

theorem word_mirror (l : List Stride) : word (mirror l) = (word l).reverse := by
  have hsymbol : symbol ∘ mirrored = symbol := rfl
  rw [word, mirror, List.filterMap_reverse, List.filterMap_map, hsymbol, word]

end Stride

/-- the strides that can be taken on an edge: it consumes a symbol unless it is an epsilon, and
fires its action -/
inductive Edge.Takes (e : Edge) : Stride → Prop where
  | slide (eps : e.isEpsilon = true) : Takes e ⟨none, e.action⟩
  | read {sym : Nat} (acc : e.accepts sym = true) : Takes e ⟨some sym, e.action⟩

theorem Edge.takes_withTarget {e : Edge} {s : Stride} (t : Nat) :
    (e.withTarget t).Takes s ↔ e.Takes s := by
  constructor <;> intro h
  · cases h with
    | slide eps => exact .slide (e := e) eps
    | read acc => exact .read (e := e) acc
  · cases h with
    | slide eps => exact .slide (e := e.withTarget t) eps
    | read acc => exact .read (e := e.withTarget t) acc

namespace Graph

variable {g h : Graph} {p q r : Nat} {l m : List Stride} {s : Stride} {e : Edge} {w : List Nat}

/-- a path from one state to another along with its strides -/
inductive Walks (g : Graph) : Nat → List Stride → Nat → Prop where
  | here (p : Nat) : Walks g p [] p
  | step {p q : Nat} {e : Edge} {s : Stride} {l : List Stride} (mem : e ∈ g.edges p)
      (now : e.Takes s) (rest : Walks g e.target l q) : Walks g p (s :: l) q

namespace Walks

theorem append (hl : g.Walks p l q) (hm : g.Walks q m r) : g.Walks p (l ++ m) r := by
  induction hl with
  | here p => exact hm
  | step mem now rest ih => exact .step mem now (ih hm)

theorem single (he : e ∈ g.edges p) (now : e.Takes s) : g.Walks p [s] e.target :=
  .step he now (.here _)

theorem reaches (hl : g.Walks p l q) : ReflTransGen g.Joins p q := by
  induction hl with
  | here p => exact .refl
  | step mem now rest ih => exact .head ⟨_, mem, rfl⟩ ih

theorem stays {S : Nat → Prop} (closed : ∀ p, S p → ∀ e ∈ g.edges p, S e.target)
    (hl : g.Walks p l q) (hp : S p) : S q :=
  mem_of_reaches closed hl.reaches hp

theorem eq_of_edges_eq_nil (hl : g.Walks p l q) (hp : g.edges p = []) : q = p := by
  cases hl with
  | here p => rfl
  | step mem now rest => exact absurd (hp ▸ mem) List.not_mem_nil

/-! ## words -/

theorem leads (hl : g.Walks p l q) : g.Leads p (Stride.word l) q := by
  induction hl with
  | here p => exact .here p
  | step mem now rest ih =>
    cases now with
    | slide eps => exact .slide mem eps ih
    | read acc => exact Leads.read mem acc ih

end Walks

/-- a path shows the word of a walk -/
theorem leads_iff_walks : g.Leads p w q ↔ ∃ l, g.Walks p l q ∧ Stride.word l = w := by
  constructor
  · intro h
    induction h with
    | here p => exact ⟨[], .here p, rfl⟩
    | slide mem eps rest ih =>
      obtain ⟨l, hl, rfl⟩ := ih
      exact ⟨_, .step mem (.slide eps) hl, rfl⟩
    | read mem acc rest ih =>
      obtain ⟨l, hl, rfl⟩ := ih
      exact ⟨_, .step mem (.read acc) hl, rfl⟩
  · rintro ⟨l, hl, rfl⟩
    exact hl.leads

/-! ## new names -/

namespace Repeats

variable {S : Nat → Prop} {f : Nat → Nat} (rep : Repeats g h S f)
include rep

theorem walks (hl : g.Walks p l q) (hp : S p) : h.Walks (f p) l (f q) := by
  induction hl with
  | here p => exact .here (f p)
  | @step p q e s l mem now rest ih =>
    have hmem : e.withTarget (f e.target) ∈ h.edges (f p) := by
      rw [rep.edges p hp]
      exact List.mem_map_of_mem mem
    exact .step hmem ((Edge.takes_withTarget _).2 now) (ih (rep.closed p hp e mem))

theorem exists_walks {q' : Nat} (hl : h.Walks (f p) l q') (hp : S p) :
    ∃ q, S q ∧ f q = q' ∧ g.Walks p l q := by
  generalize hp' : f p = p' at hl
  induction hl generalizing p with
  | here p' => exact ⟨p, hp, hp', .here p⟩
  | @step p' q' e' s l mem now rest ih =>
    rw [← hp', rep.edges p hp] at mem
    obtain ⟨e, he, rfl⟩ := List.mem_map.1 mem
    obtain ⟨q, hq, hf, hrest⟩ := ih (rep.closed p hp e he) rfl
    exact ⟨q, hq, hf, .step he ((Edge.takes_withTarget _).1 now) hrest⟩

theorem walks_iff (hf : ∀ q r, S q → S r → f q = f r → q = r) (hp : S p) (hq : S q) :
    h.Walks (f p) l (f q) ↔ g.Walks p l q := by
  refine ⟨fun hl => ?_, fun hl => rep.walks hl hp⟩
  obtain ⟨r, hr, heq, hwalk⟩ := rep.exists_walks hl hp
  rwa [hf r q hr hq heq] at hwalk

end Repeats

theorem walks_congr {S : Nat → Prop} (closed : ∀ p, S p → ∀ e ∈ g.edges p, S e.target)
    (agree : ∀ p, S p → h.edges p = g.edges p) (hp : S p) : h.Walks p l q ↔ g.Walks p l q := by
  have rep : Repeats g h S id := ⟨closed, fun p hp => (agree p hp).trans (List.map_id _).symm⟩
  refine ⟨fun hl => ?_, fun hl => rep.walks hl hp⟩
  obtain ⟨r, -, rfl, hwalk⟩ := rep.exists_walks hl hp
  exact hwalk

/-! ## the other direction -/

/-- where each edge of a set of states has its counterpart in the other direction, each walk has -/
theorem Walks.mirror {S : Nat → Prop} (turn : ∀ p, S p → ∀ e ∈ g.edges p, S e.target ∧
    ∃ d ∈ h.edges e.target, d.target = p ∧ ∀ s, e.Takes s → d.Takes s.mirrored)
    (hl : g.Walks p l q) (hp : S p) : h.Walks q (Stride.mirror l) p := by
  induction hl with
  | here p => exact .here p
  | @step p q e s l mem now rest ih =>
    obtain ⟨ht, d, hd, rfl, htakes⟩ := turn p hp e mem
    rw [Stride.mirror_cons]
    exact (ih ht).append (.single hd (htakes s now))

end Graph
end SpanSearch
