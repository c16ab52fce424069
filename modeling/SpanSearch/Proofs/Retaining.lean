import SpanSearch.Proofs.Contracting
import SpanSearch.Proofs.Eliminated
import SpanSearch.Proofs.Performing

/-!
# Contraction keeps what happens

A state takes over the edges of its plain closure, so that between two edges that consume or
fire something nothing is skipped and nothing changes places.  Which group is entered or left
where stays the same for every stretch of every tape.

* `Graph.parses`          the events of the paths over a stretch of a tape, one list for each path
* `Graph.Plainless`       no edge consumes and fires nothing
* `performances_contracted`, `plainless_contracted`   every state contracted
* `contract_performs`     what the contracted graph is
-/

namespace SpanSearch

open Relation SpanSearch.Graph

variable {g : Graph} {p q r i k : Nat} {e : Edge} {u : List Happening} {x : List Event} {t : Tape}

theorem Edge.Shows.eq_nil (now : e.Shows u) (hplain : e.isPlain = true) : u = [] := by
  obtain ⟨heps, hnone⟩ := Bool.and_eq_true_iff.1 hplain
  cases now with
  | slide eps => rw [fired, Option.isNone_iff_eq_none.1 hnone]; rfl
  | read acc =>
    rw [accepts_of_isEpsilon heps] at acc
    exact absurd acc Bool.false_ne_true

namespace Graph

def Plainless (g : Graph) : Prop := ∀ p, ∀ e ∈ g.edges p, e.isPlain = false

/-- the events of the paths from the start to acceptance over a stretch of a tape -/
def parses (g : Graph) (t : Tape) (i k : Nat) : Set (List Event) :=
  {x | ∃ q, g.Traces t g.start i x q k ∧ g.isAccepting q = true}

theorem mem_parses : x ∈ g.parses t i k ↔ ∃ u ∈ g.performances, Happens t i u x k := by
  constructor
  · rintro ⟨q, hx, hacc⟩
    obtain ⟨u, hu, hhappens⟩ := traces_iff.1 hx
    exact ⟨u, ⟨q, hu, hacc⟩, hhappens⟩
  · rintro ⟨u, ⟨q, hu, hacc⟩, hhappens⟩
    exact ⟨q, traces_iff.2 ⟨u, hu, hhappens⟩, hacc⟩

/-! ## contracted states -/

theorem performs_of_joinsPlainly (h : ReflTransGen g.JoinsPlainly p q) : g.Performs p [] q := by
  induction h with
  | refl => exact .here p
  | tail _ hjoin ih =>
    obtain ⟨e, he, hplain, rfl⟩ := hjoin
    have hnow : e.Shows e.fired := .slide (Bool.and_eq_true_iff.1 hplain).1
    have hstep := Performs.single he hnow
    rw [hnow.eq_nil hplain] at hstep
    exact ih.append hstep

theorem Performs.of_contracted (hc : g.Closed) (h : g.contracted.Performs p u q) :
    g.Performs p u q := by
  induction h with
  | here p => exact .here p
  | step mem now rest ih =>
    obtain ⟨r, hr, he, -⟩ := (mem_edges_contracted hc).1 mem
    exact (performs_of_joinsPlainly hr).append (.step he now ih)

/-- on a path to acceptance the same happens without its plain slides, also from further back -/
theorem Performs.contracted (hc : g.Closed) (h : g.Performs p u q) (hacc : g.isAccepting q = true)
    (hr : ReflTransGen g.JoinsPlainly r p) :
    ∃ s, g.contracted.Performs r u s ∧ g.contracted.isAccepting s = true := by
  induction h generalizing r with
  | here p => exact ⟨r, .here r, (isAccepting_contracted hc).2 ⟨p, hr, hacc⟩⟩
  | @step p q e u v mem now rest ih =>
    cases hplain : e.isPlain with
    | true =>
      rw [now.eq_nil hplain]
      exact ih hacc (hr.tail ⟨e, mem, hplain, rfl⟩)
    | false =>
      obtain ⟨s, hs, hsacc⟩ := ih hacc .refl
      exact ⟨s, .step ((mem_edges_contracted hc).2 ⟨p, hr, mem, hplain⟩) now hs, hsacc⟩

theorem performances_contracted (hc : g.Closed) : g.contracted.performances = g.performances := by
  ext u
  constructor
  · rintro ⟨q, hu, hacc⟩
    obtain ⟨r, hr, hacc⟩ := (isAccepting_contracted hc).1 hacc
    have hstay := (hu.of_contracted hc).append (performs_of_joinsPlainly hr)
    rw [List.append_nil] at hstay
    exact ⟨r, hstay, hacc⟩
  · rintro ⟨q, hu, hacc⟩
    exact hu.contracted hc hacc .refl

theorem plainless_contracted (hc : g.Closed) : g.contracted.Plainless := by
  intro p e he
  obtain ⟨q, -, -, hplain⟩ := (mem_edges_contracted hc).1 he
  exact hplain

theorem Plainless.trim (hc : g.Closed) (hs : g.start < g.size) (hg : g.Plainless) :
    g.trim.Plainless := by
  intro q e he
  obtain ⟨p, d, hd, heq⟩ := exists_mem_edges_of_trim hc hs he
  rw [heq]
  exact hg p d hd

/-! ## the contracted graph -/

/-- A contracted graph is a graph without plain edges on whose paths the same happens: symbols
are consumed and actions are fired in the same order and as often.  Over every stretch of a tape
the same groups are entered and left in the same places. -/
theorem contract_performs (hc : g.Closed) (hs : g.start < g.size) :
    g.contract.Closed ∧ g.contract.start < g.contract.size ∧ g.contract.Plainless ∧
      g.contract.performances = g.performances ∧
      ∀ t i k, g.contract.parses t i k = g.parses t i k := by
  have hclosed := closed_contracted hc
  have hstart := start_lt_size_contracted hs
  have hsame : g.contract.performances = g.performances := by
    rw [contract_eq, performances_trim hclosed hstart, performances_contracted hc]
  refine ⟨closed_contract hc hs, start_lt_size_contract hs,
    (plainless_contracted hc).trim hclosed hstart, hsame, fun t i k => ?_⟩
  ext x
  rw [mem_parses, mem_parses, hsame]

/-- epsilons with and without actions on two cycles that share a state -/
theorem contract_performs_cycles :
    let g : Graph := ⟨#[{ edges := [.epsilon 1, .firing (.enter 1) 2] },
      { edges := [.epsilon 0, .firing (.leave 1) 3, .symbols 97 98 2] },
      { edges := [.epsilon 1, ⟨.symbols 97 97, 0, some (.leave 2)⟩] },
      { accepting := true, edges := [.epsilon 2] }, { edges := [.epsilon 4] }], 0⟩
    g.contract.Closed ∧ g.contract.start < g.contract.size ∧ g.contract.Plainless ∧
      g.contract.performances = g.performances ∧
      ∀ t i k, g.contract.parses t i k = g.parses t i k :=
  contract_performs (closed_iff.2 (by decide)) (by decide)

end Graph
end SpanSearch
