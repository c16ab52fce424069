import SpanSearch.Proofs.Minimal
import SpanSearch.Proofs.Strict.Elimination
import SpanSearch.Proofs.Strict.Refinement
import SpanSearch.Proofs.Strict.Subsets
import SpanSearch.Proofs.Strict.Tables

/-!
# All passes keep to their arrays

* `minimal`                            all passes to the minimal graph, one after another
* `wellFormed_epsilonFree`, `wellFormed_totalize`, `wellFormed_minimize`
* `Graph.WellFormed.passes_eq`         what access with defaults computes, strict access does too
-/

namespace SpanSearch
namespace Strict

def minimal (g : Graph) (a : Alphabet) : Option Graph := do
  let nfa ← mergeEdges (← eliminate g)
  let p := Partition.ofGraph nfa a
  let d ← totalize (← determinize nfa p) p
  mergeEdges (← minimize d p)

section

variable {g : Graph} (hg : g.WellFormed) (hs : g.start < g.size)
include hg hs

theorem wellFormed_eliminate : g.eliminate.WellFormed :=
  ⟨Graph.closed_eliminate hg.closed hs, fun _ => Graph.start_lt_size_eliminate hg.closed hs⟩

theorem wellFormed_epsilonFree : g.epsilonFree.WellFormed :=
  wellFormed_mergeEdges (wellFormed_eliminate hg hs)

variable {p : Partition} (hp : p.Proper) (hf : p.FitsAll g)
include hp hf

theorem exists_total : ∃ δ, Total p ((g.determinize p).totalize p) δ := by
  obtain ⟨sets, hd⟩ := determinizes_determinize hg.closed hs hp hf
  exact ⟨_, total_totalize hp hf hd⟩

theorem wellFormed_totalize : ((g.determinize p).totalize p).WellFormed := by
  obtain ⟨δ, ht⟩ := exists_total hg hs hp hf
  exact ⟨ht.closed_graph, fun _ => ht.start⟩

theorem wellFormed_minimize : (((g.determinize p).totalize p).minimize p).WellFormed := by
  obtain ⟨δ, ht⟩ := exists_total hg hs hp hf
  obtain ⟨δ', f, hquot, -⟩ := parted_minimize (ht.complete hp) hp
  exact ⟨hquot.total.closed_graph, fun _ => hquot.total.start⟩

end

/-- the minimal graph, unless there is no start to set out from -/
theorem minimal_eq {g : Graph} (hg : g.WellFormed) (a : Alphabet) :
    minimal g a = g.minimal? a := by
  cases hempty : g.isEmpty with
  | true =>
    rw [minimal, eliminate_of_isEmpty hg hempty, Graph.minimal?, if_pos hempty]
    rfl
  | false =>
    have hs := hg.start_lt hempty
    have heliminate : eliminate g = some g.eliminate := by
      rw [eliminate_eq hg, Graph.eliminate?_of_not_isEmpty hempty]
    have hnfa := wellFormed_epsilonFree hg hs
    have hstart := Graph.start_lt_size_epsilonFree hg.closed hs
    have hp := Partition.proper_ofGraph g.epsilonFree a
    have hf := Partition.fits_ofGraph g.epsilonFree a
    have hmerge : mergeEdges g.eliminate = some g.epsilonFree :=
      mergeEdges_eq (wellFormed_eliminate hg hs)
    rw [minimal, bind_eq heliminate, bind_eq hmerge]
    dsimp only
    rw [bind_eq (determinize_eq hnfa hp hf), bind_eq (totalize_eq hp _),
      bind_eq (minimize_eq (wellFormed_totalize hnfa hstart hp hf) hp),
      mergeEdges_eq (wellFormed_minimize hnfa hstart hp hf),
      Graph.minimal?_of_not_isEmpty hempty]
    rfl

end Strict

/-- On a well formed graph every pass keeps to its arrays, for all alphabets and thresholds, even
if there is no state.  Only the elimination of epsilons, and with it the minimal graph, needs a
start to set out from. -/
theorem Graph.WellFormed.passes_eq {g : Graph} (hg : g.WellFormed) (a : Alphabet)
    (t : Thresholds) :
    Strict.compact g = some g.compact ∧
    Strict.trim g = some g.trim ∧
    Strict.contract g = some g.contract ∧
    Strict.mergeEdges g = some g.mergeEdges ∧
    Strict.eliminate g = g.eliminate? ∧
    Strict.minimal g a = g.minimal? a ∧
    Strict.table g a t = some (Table.ofGraph g a t) :=
  ⟨Strict.compact_eq hg, Strict.trim_eq hg, Strict.contract_eq hg, Strict.mergeEdges_eq hg,
    Strict.eliminate_eq hg, Strict.minimal_eq hg a, Strict.table_eq hg a t⟩

end SpanSearch
