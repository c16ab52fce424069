import SpanSearch.Proofs.Verdicts

/-!
# Tables without a state too many

Every state of a table but the dead one is reached by a word, and two states that show the same
after all words are one.

* `Table.Resembles`     two states show the same
* `Table.Reduced`       every state is reached, and words tell all states apart
* `Graph.exists_leads_iff`   what is begun can be finished
* `Blocks`              a total graph whose states words tell apart, and what it decides
* `kind_eq_of_resembles`     states that show the same stand for blocks of one kind
* `reduced_table`       the table of a graph is reduced
-/

namespace SpanSearch

open SpanSearch.Graph Relation

namespace Table

structure Resembles (t : Table) (id : Nat) (u : Table) (id' : Nat) : Prop where
  accepting : t.isAccepting id = u.isAccepting id'
  silent : t.isSilent id = u.isSilent id'
  dead : t.isDead id = u.isDead id'

theorem Resembles.symm {t u : Table} {id id' : Nat} (h : t.Resembles id u id') :
    u.Resembles id' t id := ⟨h.accepting.symm, h.silent.symm, h.dead.symm⟩

theorem Resembles.trans {t u v : Table} {id id' id'' : Nat} (h : t.Resembles id u id')
    (h' : u.Resembles id' v id'') : t.Resembles id v id'' :=
  ⟨h.accepting.trans h'.accepting, h.silent.trans h'.silent, h.dead.trans h'.dead⟩

/-- every state but the dead one is reached by a word over the alphabet, and two states that show
the same after all words are one -/
structure Reduced (t : Table) (max : Nat) : Prop where
  start : t.start < t.size
  closed : ∀ id < t.size, ∀ sym ≤ max, t.next id sym < t.size
  rejects : t.isAccepting dead = false
  stays : ∀ sym, t.next dead sym = dead
  reached : ∀ id < t.size, id ≠ dead → ∃ w : List Nat, (∀ sym ∈ w, sym ≤ max) ∧ t.after w = id
  apart : ∀ w w' : List Nat, (∀ sym ∈ w, sym ≤ max) → (∀ sym ∈ w', sym ≤ max) →
    (∀ v : List Nat, (∀ sym ∈ v, sym ≤ max) →
      t.Resembles (t.after (w ++ v)) t (t.after (w' ++ v))) → t.after w = t.after w'

end Table

namespace Graph

variable {m g : Graph} {max : Nat}

/-! ## every state is reached -/

theorem Consuming.exists_leads (hm : m.Consuming max) {p q : Nat}
    (hr : ReflTransGen m.Joins p q) :
    ∃ w : List Nat, (∀ sym ∈ w, sym ≤ max) ∧ m.Leads p w q := by
  induction hr using ReflTransGen.head_induction_on with
  | refl => exact ⟨[], List.forall_mem_nil _, .here q⟩
  | head hjoin _ ih =>
    obtain ⟨w, hw, hleads⟩ := ih
    obtain ⟨e, he, rfl⟩ := hjoin
    obtain ⟨⟨sym, hacc⟩, hle⟩ := hm _ e he
    exact ⟨sym :: w, List.forall_mem_cons.2 ⟨hle sym hacc, hw⟩, .read he hacc hleads⟩

theorem reaches_minimal (hc : g.Closed) (hs : g.start < g.size) (a : Alphabet) {q : Nat}
    (hq : q < (g.minimal a).size) :
    ReflTransGen (g.minimal a).Joins (g.minimal a).start q := by
  obtain ⟨d, sets, h, δ, f, -, hquot, -, heq⟩ := exists_quotient hc hs a
  rw [heq] at hq ⊢
  exact reaches_trim (closed_coalesced hquot.total.closed_graph)
    (start_lt_size_coalesced hquot.total.start) hq

theorem Decides.after_eq {a : Alphabet} (h : Decides m g a.maxSymbol) (t : Thresholds)
    {w : List Nat} (hw : ∀ sym ∈ w, sym ≤ a.maxSymbol) {q : Nat} (hq : m.Leads m.start w q) :
    (Table.ofGraph m a t).after w = Table.placeIn m q := by
  rcases Table.after_ofGraph (t := t) h.epsilonFree h.deterministic hw with
    ⟨q', hq', heq⟩ | ⟨hnone, -⟩
  · rw [heq, h.deterministic.reads_unique h.epsilonFree hq hq']
  · exact absurd hq (hnone q)

/-! ## words tell states apart -/

theorem Live.of_leads (hlive : ∀ p, ∀ e ∈ g.edges p, g.Live e.target) {p q : Nat} {w : List Nat}
    (hp : g.Live p) (h : g.Leads p w q) : g.Live q := by
  induction h with
  | here => exact hp
  | slide mem eps rest ih => exact ih (hlive _ _ mem)
  | read mem acc rest ih => exact ih (hlive _ _ mem)

theorem exists_leads_iff (hfruit : g.Fruitful) (hlive : ∀ p, ∀ e ∈ g.edges p, g.Live e.target)
    (hsome : ∃ v, v ∈ g.words) (w : List Nat) :
    (∃ s, g.Leads g.start w s) ↔ ∃ v, w ++ v ∈ g.words := by
  constructor
  · rintro ⟨s, hs⟩
    obtain ⟨v, q, hv, hacc⟩ := hsome
    have hstart : g.Live g.start := (live_of_isAccepting hacc).of_reads hv
    obtain ⟨v', q', hv', hacc'⟩ := Live.exists_leads hfruit (hstart.of_leads hlive hs)
    exact ⟨v', q', hs.append hv', hacc'⟩
  · rintro ⟨v, q, hr, -⟩
    obtain ⟨s, hs, -⟩ := reads_append.1 hr
    exact ⟨s, hs⟩

end Graph

/-! ## the states of a table stand for blocks -/

def blockAfter (n : Graph) (a : Alphabet) (δ : Nat → Nat → Nat) (h : Graph) (w : List Nat) : Nat :=
  Total.run (Partition.ofGraph n a) δ h.start w

/-- words tell the states of the total graph `h` apart, and what they find in it is what they
find on all paths of `n` at once -/
structure Blocks (n : Graph) (a : Alphabet) (h : Graph) (δ : Nat → Nat → Nat) : Prop where
  total : Total (Partition.ofGraph n a) h δ
  parted : h.Parted (Partition.ofGraph n a) δ
  accepting : ∀ w : List Nat, (∀ sym ∈ w, sym ≤ a.maxSymbol) →
    (h.isAccepting (blockAfter n a δ h w) = true ↔ w ∈ n.words)
  silent : ∀ w : List Nat, (∀ sym ∈ w, sym ≤ a.maxSymbol) →
    h.isAccepting (blockAfter n a δ h w) = false →
      (h.isSilent (blockAfter n a δ h w) = true ↔
        (∃ s, n.Leads n.start w s) ∧ ∀ s, n.Leads n.start w s → n.isSilent s = true)

theorem exists_blocks {g : Graph} (hc : g.Closed) (hs : g.start < g.size) (a : Alphabet) :
    ∃ h δ, Blocks g.epsilonFree a h δ ∧ g.minimal a = h.mergeEdges := by
  have hp := Partition.proper_ofGraph g.epsilonFree a
  have hf := Partition.fits_ofGraph g.epsilonFree a
  obtain ⟨d, sets, h, δ, f, hd, hquot, hparted, heq⟩ := exists_quotient hc hs a
  have hleads {w : List Nat} (hw : ∀ sym ∈ w, sym ≤ a.maxSymbol) :=
    leads_quotient hp hf (epsilonFree_epsilonFree hc hs) hd hquot
      ((hquot.total.leads_iff hp hquot.total.start).2 ⟨hw, rfl⟩)
  exact ⟨h, δ, ⟨hquot.total, hparted, fun w hw => (hleads hw).2.1, fun w hw => (hleads hw).2.2⟩,
    heq⟩

namespace Blocks

variable {n h : Graph} {a : Alphabet} {δ : Nat → Nat → Nat} (hb : Blocks n a h δ) {w w' : List Nat}
include hb

theorem eq_mergedName {q : Nat} (hq : h.mergeEdges.Leads h.mergeEdges.start w q) :
    q = h.mergedName (blockAfter n a δ h w) := by
  obtain ⟨s, hs, rfl, -⟩ := exists_leads_of_mergeEdges hb.total.closed_graph hb.total.start hq
  obtain ⟨-, rfl⟩ := (hb.total.leads_iff (Partition.proper_ofGraph n a) hb.total.start).1 hs
  rfl

theorem eq_of_kinds (hkind : ∀ v : List Nat, (∀ sym ∈ v, sym ≤ a.maxSymbol) →
    Refinement.kind (h.state (blockAfter n a δ h (w ++ v))) =
      Refinement.kind (h.state (blockAfter n a δ h (w' ++ v)))) :
    blockAfter n a δ h w = blockAfter n a δ h w' := by
  have hlt (u : List Nat) := hb.total.run_lt (Partition.proper_ofGraph n a) hb.total.start u
  by_contra hne
  obtain ⟨v, hv, hapart⟩ := hb.parted _ (hlt w) _ (hlt w') hne
  apply hapart
  rw [← Total.run_append, ← Total.run_append]
  exact hkind v hv

end Blocks

section
variable {n h : Graph} {a : Alphabet} {δ : Nat → Nat → Nat} (t : Thresholds)
  (hb : Blocks n a h δ) (hdec : Decides h.mergeEdges n a.maxSymbol)
  (hover : Over a.maxSymbol n.words)
include hb hdec hover

/-- the block that a word leads to decides the row that it leads to -/
theorem after_eq_of_blockAfter_eq {w w' : List Nat} (hw : ∀ sym ∈ w, sym ≤ a.maxSymbol)
    (hw' : ∀ sym ∈ w', sym ≤ a.maxSymbol) (heq : blockAfter n a δ h w = blockAfter n a δ h w') :
    (Table.ofGraph h.mergeEdges a t).after w = (Table.ofGraph h.mergeEdges a t).after w' := by
  have hrow {w : List Nat} (hw : ∀ sym ∈ w, sym ≤ a.maxSymbol) {v : List Nat}
      (hv : w ++ v ∈ n.words) : (Table.ofGraph h.mergeEdges a t).after w =
        Table.placeIn h.mergeEdges (h.mergedName (blockAfter n a δ h w)) := by
    obtain ⟨q', hr, -⟩ := (hdec.words _).2 ⟨hv, hover _ hv⟩
    obtain ⟨q, hq, -⟩ := reads_append.1 hr
    rw [hdec.after_eq t hw hq, hb.eq_mergedName hq]
  -- a word can be finished after one of them if it can be after the other
  have hmore (v : List Nat) (hv : ∀ sym ∈ v, sym ≤ a.maxSymbol) :
      w ++ v ∈ n.words ↔ w' ++ v ∈ n.words := by
    rw [← hb.accepting _ (List.forall_mem_append.2 ⟨hw, hv⟩),
      ← hb.accepting _ (List.forall_mem_append.2 ⟨hw', hv⟩), blockAfter, blockAfter,
      Total.run_append, Total.run_append]
    have heq' : Total.run _ δ h.start w = Total.run _ δ h.start w' := heq
    rw [heq']
  by_cases hsome : ∃ v, w ++ v ∈ n.words
  · obtain ⟨v, hv⟩ := hsome
    have hle := (List.forall_mem_append.1 (hover _ hv)).2
    rw [hrow hw hv, hrow hw' ((hmore v hle).1 hv), heq]
  · have hnone : ¬ ∃ v, w' ++ v ∈ n.words := fun ⟨v, hv⟩ =>
      hsome ⟨v, (hmore v (List.forall_mem_append.1 (hover _ hv)).2).2 hv⟩
    have hdead := (hdec.table_spec t hover hw).2.1.2 (not_exists.1 hsome)
    have hdead' := (hdec.table_spec t hover hw').2.1.2 (not_exists.1 hnone)
    rw [beq_iff_eq.1 hdead, beq_iff_eq.1 hdead']

/-- states that show the same stand for blocks of one kind -/
theorem kind_eq_of_resembles (hfruit : n.Fruitful)
    (hlive : ∀ p, ∀ e ∈ n.edges p, n.Live e.target) (hsome : ∃ v, v ∈ n.words) {w w' : List Nat}
    (hw : ∀ sym ∈ w, sym ≤ a.maxSymbol) (hw' : ∀ sym ∈ w', sym ≤ a.maxSymbol)
    (hres : (Table.ofGraph h.mergeEdges a t).Resembles ((Table.ofGraph h.mergeEdges a t).after w)
      (Table.ofGraph h.mergeEdges a t) ((Table.ofGraph h.mergeEdges a t).after w')) :
    Refinement.kind (h.state (blockAfter n a δ h w)) =
      Refinement.kind (h.state (blockAfter n a δ h w')) := by
  have hacc {w : List Nat} (hw : ∀ sym ∈ w, sym ≤ a.maxSymbol) :
      h.isAccepting (blockAfter n a δ h w) = (Table.ofGraph h.mergeEdges a t).isAccepting
        ((Table.ofGraph h.mergeEdges a t).after w) := by
    rw [Bool.eq_iff_iff, hb.accepting w hw, (hdec.table_spec t hover hw).1]
  have hsil {w : List Nat} (hw : ∀ sym ∈ w, sym ≤ a.maxSymbol)
      (hnot : h.isAccepting (blockAfter n a δ h w) = false) :
      h.isSilent (blockAfter n a δ h w) = (Table.ofGraph h.mergeEdges a t).isSilent
        ((Table.ofGraph h.mergeEdges a t).after w) := by
    have hword : w ∉ n.words := mt (hb.accepting w hw).2 (Bool.eq_false_iff.1 hnot)
    rw [Bool.eq_iff_iff, hb.silent w hw hnot, (hdec.table_spec t hover hw).2.2,
      exists_leads_iff hfruit hlive hsome, and_iff_right hword]
  have hsame := (hacc hw).trans (hres.accepting.trans (hacc hw').symm)
  refine Refinement.kind_congr hsame fun hnot => ?_
  exact (hsil hw (hsame.trans hnot)).trans (hres.silent.trans (hsil hw' hnot).symm)

end

/-- the table of a graph is reduced -/
theorem reduced_table (o : Options) {g : Graph} (hc : g.Closed) (hs : g.start < g.size)
    (hfruit : g.Fruitful) (hover : Over o.alphabet.maxSymbol g.words) :
    (o.table g).Reduced o.alphabet.maxSymbol := by
  have hdec := decides_minimal hc hs o.alphabet
  have hreach {q : Nat} := reaches_minimal hc hs o.alphabet (q := q)
  obtain ⟨h, δ, hb, heq⟩ := exists_blocks hc hs o.alphabet
  rw [← words_epsilonFree hc hs] at hover
  rw [Options.table]
  rw [heq] at hdec hreach ⊢
  refine ⟨Table.start_lt _ _ _, fun id hid sym _ => Table.next_lt hid sym,
    Table.isAccepting_dead _ _ _, Table.next_dead _ _ _, fun id hid hne => ?_,
    fun w w' hw hw' hres => ?_⟩
  · obtain ⟨q, hend, rfl⟩ := Table.exists_placeIn hid hne
    obtain ⟨w, hw, hleads⟩ := hdec.consuming.exists_leads
      (hreach (Table.lt_size_of_not_isDeadEnd hend))
    exact ⟨w, hw, hdec.after_eq o.thresholds hw hleads⟩
  · by_cases hsome : ∃ v, v ∈ g.epsilonFree.words
    · refine after_eq_of_blockAfter_eq o.thresholds hb hdec hover hw hw' ?_
      apply hb.eq_of_kinds
      intro v hv
      exact kind_eq_of_resembles o.thresholds hb hdec hover hfruit.epsilonFree
        (fun p e he => live_epsilonFree hc hs he) hsome (List.forall_mem_append.2 ⟨hw, hv⟩)
        (List.forall_mem_append.2 ⟨hw', hv⟩) (hres v hv)
    · have hdead {w : List Nat} (hw : ∀ sym ∈ w, sym ≤ o.alphabet.maxSymbol) :=
        (hdec.table_spec o.thresholds hover hw).2.1.2 fun v hv => hsome ⟨_, hv⟩
      rw [beq_iff_eq.1 (hdead hw), beq_iff_eq.1 (hdead hw')]

end SpanSearch
