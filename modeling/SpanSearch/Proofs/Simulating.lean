import SpanSearch.Proofs.Verdicts

/-!
# Tables run as their graphs do

In a graph without epsilons whose ranges are apart at every state, a word leads to one state at
most.  The table is then in the row of that state, or in the dead row, and the number of the row
tells what the state is.

* `Graph.Separate`        the ranges that leave a state share no symbol
* `Table.accepts_eq`      stopping in the dead row does not change the answer
* `Table.Simulates`       a table tells how the run of a graph ends, and no look-up fails
* `Table.simulates_ofGraph`   the table of a graph, for every alphabet and all thresholds
-/

namespace SpanSearch

open SpanSearch.Graph

def Edge.Apart (e e' : Edge) : Prop := ∀ sym, ¬ (e.accepts sym = true ∧ e'.accepts sym = true)

instance : Std.Symm Edge.Apart := ⟨fun _ _ h sym hacc => h sym hacc.symm⟩

/-- the ranges that leave a state share no symbol -/
def Graph.Separate (g : Graph) : Prop := ∀ p, (g.edges p).Pairwise Edge.Apart

theorem Graph.Separate.deterministic {g : Graph} (hg : g.Separate) : g.Deterministic := by
  intro p e he e' he' sym hacc hacc'
  by_contra hne
  exact (hg p).forall he he' (fun heq => hne (congrArg Edge.target heq)) sym ⟨hacc, hacc'⟩

theorem Graph.separate_of_ranges {g : Graph} (h : ∀ p < g.size, (g.edges p).Pairwise fun e e' =>
    ∀ r ∈ e.range?, ∀ r' ∈ e'.range?, r.2 < r'.1 ∨ r'.2 < r.1) : g.Separate := by
  intro p
  by_cases hp : p < g.size
  · refine (h p hp).imp fun {e e'} hr sym hacc => ?_
    obtain ⟨lo, hi, hrange, hlo, hhi⟩ := Edge.accepts_iff.1 hacc.1
    obtain ⟨lo', hi', hrange', hlo', hhi'⟩ := Edge.accepts_iff.1 hacc.2
    rcases hr (lo, hi) hrange (lo', hi') hrange' with hlt | hlt
    · exact Nat.not_lt_of_le (Nat.le_trans hlo' hhi) hlt
    · exact Nat.not_lt_of_le (Nat.le_trans hlo hhi') hlt
  · rw [edges_of_size_le (Nat.le_of_not_lt hp)]
    exact List.Pairwise.nil

namespace Table

variable {g : Graph} {a : Alphabet} {t : Thresholds}

/-- from the dead row no word leads to acceptance, so that it may be stopped there -/
theorem acceptsFrom_eq (g : Graph) (a : Alphabet) (t : Thresholds) (id : Nat) (w : List Nat) :
    (ofGraph g a t).acceptsFrom id w =
      (ofGraph g a t).isAccepting (w.foldl (ofGraph g a t).next id) := by
  induction w generalizing id with
  | nil => rfl
  | cons sym w ih =>
    rw [acceptsFrom, List.foldl_cons]
    split
    · next hdead =>
      rw [eq_of_beq hdead, List.foldl_fixed' (next_dead g a t), isAccepting_dead]
    · exact ih _

theorem accepts_eq (g : Graph) (a : Alphabet) (t : Thresholds) (w : List Nat) :
    (ofGraph g a t).accepts w = (ofGraph g a t).isAccepting ((ofGraph g a t).after w) :=
  acceptsFrom_eq g a t _ w

/-- A table tells how the run of a graph ends on every word of the alphabet.  Whatever the
symbol, the row of a state has an entry for it, which names a row. -/
structure Simulates (table : Table) (g : Graph) (max : Nat) : Prop where
  /-- the graph has one run at most -/
  unique : ∀ w q q', g.Leads g.start w q → g.Leads g.start w q' → q = q'
  accepting : ∀ w : List Nat, (∀ sym ∈ w, sym ≤ max) →
    (table.isAccepting (table.after w) = true ↔
      ∃ q, g.Leads g.start w q ∧ g.isAccepting q = true)
  silent : ∀ w : List Nat, (∀ sym ∈ w, sym ≤ max) →
    (table.isSilent (table.after w) = true ↔
      ∃ q, g.Leads g.start w q ∧ g.isAccepting q = false ∧ g.edges q ≠ [] ∧ g.isSilent q = true)
  dead : ∀ w : List Nat, (∀ sym ∈ w, sym ≤ max) →
    (table.isDead (table.after w) = true ↔
      (∀ q, ¬ g.Leads g.start w q) ∨
        ∃ q, g.Leads g.start w q ∧ g.isAccepting q = false ∧ g.edges q = [])
  accepts : ∀ w : List Nat, (∀ sym ∈ w, sym ≤ max) → (table.accepts w = true ↔ w ∈ g.words)
  start_lt : table.start < table.size
  classOf_lt : ∀ row < table.size, ∀ sym,
    table.classes.classOf sym < (table.rows.getD row #[]).size
  next_lt : ∀ row < table.size, ∀ sym, table.next row sym < table.size

theorem isDeadEnd_iff {q : Nat} :
    isDeadEnd (g.state q) = true ↔ g.isAccepting q = false ∧ g.edges q = [] := by
  rw [isDeadEnd, Bool.and_eq_true, Bool.not_eq_true', List.isEmpty_iff]
  rfl

theorem isQuiet_iff {q : Nat} : isQuiet (g.state q) = true ↔
    g.isAccepting q = false ∧ g.edges q ≠ [] ∧ g.isSilent q = true := by
  rw [Graph.isQuiet_iff, ← Bool.not_eq_true (isDeadEnd _), isDeadEnd_iff]
  refine and_congr_right fun hnot => and_congr_left fun _ => ?_
  rw [and_iff_right hnot]

theorem classOf_lt_size_row {row : Nat} (hrow : row < (ofGraph g a t).size) (sym : Nat) :
    (ofGraph g a t).classes.classOf sym < ((ofGraph g a t).rows.getD row #[]).size := by
  rw [size_row hrow]
  exact (SymbolClasses.classifies a t
    ((Partition.proper_ofGraph g a).spread_liveCells g)).lt sym

/-- the table runs as the graph does -/
theorem simulates_ofGraph (a : Alphabet) (t : Thresholds) (hf : g.EpsilonFree) (hg : g.Separate) :
    (ofGraph g a t).Simulates g a.maxSymbol := by
  have hd := hg.deterministic
  -- the run ends in one state, whose row the table is in, or falls off to the dead row
  have hrun {w : List Nat} (hw : ∀ sym ∈ w, sym ≤ a.maxSymbol) (P : Nat → Prop) :
      (∃ q, g.Leads g.start w q ∧ (ofGraph g a t).after w = placeIn g q ∧
        ((∃ q, g.Leads g.start w q ∧ P q) ↔ P q)) ∨
      (∀ q, ¬ g.Leads g.start w q) ∧ (ofGraph g a t).after w = dead := by
    refine (after_ofGraph hf hd hw).imp_left fun ⟨q, hq, heq⟩ =>
      ⟨q, hq, heq, ?_, fun h => ⟨q, hq, h⟩⟩
    rintro ⟨q', hq', h⟩
    rwa [hd.reads_unique hf hq hq']
  have hacc {w : List Nat} (hw : ∀ sym ∈ w, sym ≤ a.maxSymbol) :
      (ofGraph g a t).isAccepting ((ofGraph g a t).after w) = true ↔
        ∃ q, g.Leads g.start w q ∧ g.isAccepting q = true := by
    rcases hrun hw fun q => g.isAccepting q = true with ⟨q, -, heq, hiff⟩ | ⟨hnone, heq⟩
    · rw [heq, isAccepting_placeIn, hiff]
    · rw [heq, isAccepting_dead]
      exact iff_of_false Bool.false_ne_true fun ⟨q, hq, _⟩ => hnone q hq
  refine ⟨fun w q q' => hd.reads_unique hf, fun w hw => hacc hw, fun w hw => ?_, fun w hw => ?_,
    fun w hw => ?_, start_lt g a t, fun _ => classOf_lt_size_row, fun _ => next_lt⟩
  · rcases hrun hw fun q => g.isAccepting q = false ∧ g.edges q ≠ [] ∧ g.isSilent q = true with
      ⟨q, -, heq, hiff⟩ | ⟨hnone, heq⟩
    · rw [heq, isSilent_placeIn, isQuiet_iff, hiff]
    · rw [heq, isSilent_dead]
      exact iff_of_false Bool.false_ne_true fun ⟨q, hq, _⟩ => hnone q hq
  · rcases hrun hw fun q => g.isAccepting q = false ∧ g.edges q = [] with
      ⟨q, hq, heq, hiff⟩ | ⟨hnone, heq⟩
    · rw [heq, isDead_placeIn, isDeadEnd_iff, hiff]
      exact (or_iff_right fun hnone => hnone q hq).symm
    · rw [heq]
      exact iff_of_true rfl (.inl hnone)
  · rw [accepts_eq, hacc hw, mem_words]

/-- a scan for `A` that is silent, a state with two pages of successors, one that accepts and goes
on for all code points, and a dead end -/
theorem simulates_ofGraph_pages :
    let g : Graph := ⟨#[{ silent := true, edges := [.symbols 0x41 0x41 1, .symbols 0x42 0x5A 0] },
      { edges := [.symbols 0x100 0x2FF 2, .symbols 0x1F600 0x1F64F 3] },
      { accepting := true, silent := true, edges := [.symbols 0 0x10FFFF 2] },
      { silent := true }], 0⟩
    g.EpsilonFree ∧ g.Separate ∧ (ofGraph g .chars {}).Simulates g 0x10FFFF := by
  intro g
  have hf : g.EpsilonFree := epsilonFree_iff.2 (by decide)
  have hg : g.Separate := separate_of_ranges (by decide)
  exact ⟨hf, hg, simulates_ofGraph .chars {} hf hg⟩

end Table
end SpanSearch
