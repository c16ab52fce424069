import SpanSearch.Graph.Contraction
import SpanSearch.Proofs.Eliminating

/-!
# Contraction keeps words

A contracted state offers what its plain closure offers, so a path without plain edges stands for
every path that slides plainly between its other edges.

* `Graph.contracted`       every state contracted, none left out
* `mem_edges_contracted`, `isAccepting_contracted`   what a contracted state offers
* `words_contract`         the words stay
-/

namespace SpanSearch.Graph

open Relation

variable {g : Graph} {p q : Nat} {e : Edge} {w : List Nat}

def contracted (g : Graph) : Graph := ⟨(g.ids.map g.contractState).toArray, g.start⟩

theorem contract_eq (g : Graph) : g.contract = g.contracted.trim := rfl

theorem size_contracted (g : Graph) : g.contracted.size = g.size := by
  simp [contracted, size, ids]

theorem start_lt_size_contracted (hs : g.start < g.size) :
    g.contracted.start < g.contracted.size := by
  rw [size_contracted]
  exact hs

theorem state_contracted (hp : p < g.size) : g.contracted.state p = g.contractState p := by
  simp [contracted, state, ids, Array.getD_eq_getD_getElem?, hp]

/-- a contracted state has the edges of its plain closure that consume or fire something -/
theorem mem_edges_contracted (hc : g.Closed) : e ∈ g.contracted.edges p ↔
    ∃ q, ReflTransGen g.JoinsPlainly p q ∧ e ∈ g.edges q ∧ e.isPlain = false := by
  by_cases hp : p < g.size
  · rw [edges, state_contracted hp]
    show e ∈ firsts _ ↔ _
    rw [mem_firsts, List.mem_filter, List.mem_flatMap, Bool.not_eq_true']
    simp only [mem_plainClosure hc hp, ← and_assoc, exists_and_right]
  · have hle := Nat.le_of_not_lt hp
    rw [edges_of_size_le (by rwa [size_contracted])]
    refine iff_of_false List.not_mem_nil ?_
    rintro ⟨q, hpq, he, -⟩
    rcases hpq.cases_head with rfl | ⟨r, ⟨d, hd, -⟩, -⟩
    · exact hp (lt_size_of_mem_edges he)
    · exact hp (lt_size_of_mem_edges hd)

/-- a contracted state accepts if anything in its plain closure does -/
theorem isAccepting_contracted (hc : g.Closed) : g.contracted.isAccepting p = true ↔
    ∃ q, ReflTransGen g.JoinsPlainly p q ∧ g.isAccepting q = true := by
  by_cases hp : p < g.size
  · rw [isAccepting, state_contracted hp]
    show (g.plainClosure p).any g.isAccepting = true ↔ _
    rw [List.any_eq_true]
    simp only [mem_plainClosure hc hp]
  · have hle := Nat.le_of_not_lt hp
    rw [isAccepting, state_of_size_le (by rwa [size_contracted])]
    refine iff_of_false Bool.false_ne_true ?_
    rintro ⟨q, hpq, hacc⟩
    rcases hpq.cases_head with rfl | ⟨r, ⟨d, hd, -⟩, -⟩
    · exact hp (lt_size_of_isAccepting hacc)
    · exact hp (lt_size_of_mem_edges hd)

theorem closed_contracted (hc : g.Closed) : g.contracted.Closed := by
  intro p e he
  obtain ⟨q, -, he, -⟩ := (mem_edges_contracted hc).1 he
  rw [size_contracted]
  exact hc q e he

theorem leads_of_joinsPlainly (h : ReflTransGen g.JoinsPlainly p q) : g.Leads p [] q := by
  induction h with
  | refl => exact .here p
  | tail _ hjoin ih =>
    obtain ⟨e, he, hplain, rfl⟩ := hjoin
    exact ih.trans_nil (.slide he (Bool.and_eq_true_iff.1 hplain).1 (.here _))

theorem Reads.of_contracted (hc : g.Closed) (h : g.contracted.Leads p w q) : g.Leads p w q := by
  induction h with
  | here p => exact .here p
  | slide mem eps rest ih =>
    obtain ⟨r, hr, he, -⟩ := (mem_edges_contracted hc).1 mem
    exact (leads_of_joinsPlainly hr).trans_nil (.slide he eps ih)
  | read mem acc rest ih =>
    obtain ⟨r, hr, he, -⟩ := (mem_edges_contracted hc).1 mem
    exact (leads_of_joinsPlainly hr).trans_nil (Leads.read he acc ih)

/-- a path to acceptance is there without its plain slides, also from further back -/
theorem Reads.contracted (hc : g.Closed) (h : g.Leads p w q) (hacc : g.isAccepting q = true)
    {r : Nat} (hr : ReflTransGen g.JoinsPlainly r p) :
    ∃ x, g.contracted.Leads r w x ∧ g.contracted.isAccepting x = true := by
  induction h generalizing r with
  | here p => exact ⟨r, .here r, (isAccepting_contracted hc).2 ⟨p, hr, hacc⟩⟩
  | @slide p q e w mem eps rest ih =>
    cases hplain : e.isPlain with
    | true => exact ih hacc (hr.tail ⟨e, mem, hplain, rfl⟩)
    | false =>
      obtain ⟨x, hx, hxacc⟩ := ih hacc .refl
      exact ⟨x, .slide ((mem_edges_contracted hc).2 ⟨p, hr, mem, hplain⟩) eps hx, hxacc⟩
  | @read p q sym e w mem acc rest ih =>
    obtain ⟨x, hx, hxacc⟩ := ih hacc .refl
    have hplain : e.isPlain = false := by
      rw [Edge.isPlain, Bool.and_eq_false_iff]
      refine .inl (Bool.not_eq_true _ ▸ fun heps => ?_)
      rw [accepts_of_isEpsilon heps] at acc
      exact Bool.false_ne_true acc
    exact ⟨x, Leads.read ((mem_edges_contracted hc).2 ⟨p, hr, mem, hplain⟩) acc hx, hxacc⟩

theorem words_contracted (hc : g.Closed) : g.contracted.words = g.words := by
  ext w
  constructor
  · rintro ⟨q, hq, hacc⟩
    obtain ⟨r, hr, hacc⟩ := (isAccepting_contracted hc).1 hacc
    exact ⟨r, Reads.nil_trans (Reads.of_contracted hc hq) (leads_of_joinsPlainly hr), hacc⟩
  · rintro ⟨q, hq, hacc⟩
    exact Reads.contracted hc hq hacc .refl

theorem words_contract (hc : g.Closed) (hs : g.start < g.size) : g.contract.words = g.words := by
  rw [contract_eq, words_trim (closed_contracted hc) (start_lt_size_contracted hs),
    words_contracted hc]

theorem closed_contract (hc : g.Closed) (hs : g.start < g.size) : g.contract.Closed :=
  closed_trim (closed_contracted hc) (start_lt_size_contracted hs)

theorem start_lt_size_contract (hs : g.start < g.size) : g.contract.start < g.contract.size :=
  start_lt_size_trim (start_lt_size_contracted hs)

end SpanSearch.Graph
