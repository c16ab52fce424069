import SpanSearch.Proofs.Eliminated

/-!
# Either way of doing without an epsilon

Elimination counts edges to pick one of two ways for each epsilon.  What it ends with does not
depend on the count: whichever way is picked wherever both are open, the words stay, no epsilon
is left, and what is trimmed away afterwards are the states that are of no use.

* `Elimination.Drops`     one epsilon less, by any of the ways
* `Elimination.Clears`    one epsilon after another, each by any of the ways
* `drops_step`, `clears_run`   what elimination does is one such choice
* `Drops.words`, `Clears.spec` one epsilon, all epsilons
* `Graph.Freed`           a graph without epsilons that stands for another
* `eliminate_freed`       what elimination ends with, and any other choice
-/

namespace SpanSearch

open Relation SpanSearch.Graph

namespace Elimination

variable {w v u : Elimination}

/-- One epsilon less, by any of the ways.  Only an epsilon of the start has to go forward. -/
inductive Drops (w : Elimination) (origin target : Nat) : Elimination → Prop where
  | loop (same : origin = target) : Drops w origin target (w.remove origin (Edge.epsilon target))
  | forward : Drops w origin target (w.forward origin target)
  | backward (notStart : origin ≠ w.graph.start) :
      Drops w origin target (w.backward origin (w.epsilonSources origin) target)

/-- one epsilon after another, each by any of the ways -/
inductive Clears : Elimination → List (Nat × Nat) → Elimination → Prop where
  | done (w : Elimination) : Clears w [] w
  | next {w v u : Elimination} {origin target : Nat} {l : List (Nat × Nat)}
      (first : Drops w origin target v) (rest : Clears v l u) : Clears w ((origin, target) :: l) u

/-! ## what elimination picks -/

theorem drops_step (w : Elimination) (origin target : Nat) :
    Drops w origin target (w.step origin target) := by
  unfold step
  split
  · next h => exact .loop h
  · split
    · exact .forward
    · next h =>
      have notStart : origin ≠ w.graph.start := fun heq => h (.inl heq)
      dsimp only
      split
      · exact .forward
      · exact .backward notStart

theorem clears_run (w : Elimination) (l : List (Nat × Nat)) : Clears w l (w.run l) := by
  induction l generalizing w with
  | nil => exact .done w
  | cons x l ih =>
    obtain ⟨origin, target⟩ := x
    rw [run_cons]
    exact .next (drops_step w origin target) (ih _)

/-! ## one epsilon, all epsilons -/

/-- The words stay.  Nothing slides from the start to an origin that goes backward, since the
epsilons of the start are gone by then. -/
theorem Drops.words {origin target : Nat} {l : List (Nat × Nat)} (h : Drops w origin target v)
    (hw : w.Sound) (hl : Remaining w ((origin, target) :: l)) :
    Steps w origin target v ∧ v.graph.words = w.graph.words := by
  have hslide : w.graph.Slides origin target := (hl.slides _ _).2 List.mem_cons_self
  cases h with
  | loop same =>
    subst same
    exact hw.selfless origin
  | forward => exact hw.forward hslide
  | backward notStart =>
    apply hw.backward hslide (hl.not_slides_start notStart)
    intro sym p _
    rfl

/-- after the last epsilon the words are the same, and nothing slides -/
theorem Clears.spec {l : List (Nat × Nat)} (h : Clears w l u) (hw : w.Sound)
    (hl : Remaining w l) :
    u.Sound ∧ u.graph.words = w.graph.words ∧ u.graph.EpsilonFree := by
  induction h with
  | done w =>
    refine ⟨hw, rfl, ?_⟩
    intro p e he
    cases heps : e.isEpsilon with
    | false => rfl
    | true => exact absurd ((hl.slides p e.target).1 ⟨e, he, heps, rfl⟩) List.not_mem_nil
  | next first rest ih =>
    obtain ⟨hsteps, hwords⟩ := first.words hw hl
    obtain ⟨hsound, hrest, hfree⟩ := ih hsteps.sound (hl.steps hsteps)
    exact ⟨hsound, hrest.trans hwords, hfree⟩

end Elimination

open Elimination

namespace Graph

variable {g h : Graph}

/-- `h` stands for `g` without epsilons: it has the same words, every state is reached, and from
every state but possibly the start acceptance can be reached -/
structure Freed (g h : Graph) : Prop where
  closed : h.Closed
  start : h.start < h.size
  epsilonFree : h.EpsilonFree
  words : h.words = g.words
  reached : ∀ q, q < h.size → ReflTransGen h.Joins h.start q
  live : ∀ q, q < h.size → q ≠ h.start → h.Live q

/-- trimming a graph without epsilons leaves what is of use -/
theorem freed_trim (hc : h.Closed) (hs : h.start < h.size) (hfree : h.EpsilonFree)
    (hwords : h.words = g.words) : Freed g h.trim where
  closed := closed_trim hc hs
  start := start_lt_size_trim hs
  epsilonFree := hfree.trim hc hs
  words := (words_trim hc hs).trans hwords
  reached q hq := reaches_trim hc hs hq
  live q hq hne := by
    -- the last edge on the way to a state other than the start was kept for leading to acceptance
    rcases ReflTransGen.cases_tail (reaches_trim hc hs hq) with heq | ⟨p, -, hjoin⟩
    · exact absurd heq hne
    · obtain ⟨e, he, rfl⟩ := hjoin
      exact live_trim hc hs he

theorem Freed.of_clears (hc : g.Closed) (hs : g.start < g.size) {w : Elimination}
    (hw : Clears (ofGraph g) (pending (ofGraph g).graph) w) : Freed g w.graph.trim := by
  have hbegin : (ofGraph g).graph.words = g.words :=
    (shown_ofGraph hc hs).trans (words_compact hc hs)
  obtain ⟨hsound, hwords, hfree⟩ := hw.spec (sound_ofGraph hc hs) (remaining_pending hc hs)
  exact freed_trim hsound.closed hsound.start hfree (hwords.trans hbegin)

/-- Elimination ends, and it ends with a graph without epsilons that stands for the one it was
given.  So does every other choice of the way in which each epsilon goes. -/
theorem eliminate_freed (hc : g.Closed) (hs : g.start < g.size) :
    g.eliminate? = some g.eliminate ∧ Freed g g.eliminate ∧
      (∃ w, Clears (ofGraph g) (pending (ofGraph g).graph) w ∧ g.eliminate = w.graph.trim) ∧
      ∀ w, Clears (ofGraph g) (pending (ofGraph g).graph) w → Freed g w.graph.trim := by
  have hclears := clears_run (ofGraph g) (pending (ofGraph g).graph)
  exact ⟨eliminate?_of_not_isEmpty (isEmpty_eq_false hs), .of_clears hc hs hclears,
    ⟨_, hclears, rfl⟩, fun w hw => .of_clears hc hs hw⟩

/-- epsilons around a cycle, one of them with an action, one from a state to itself, and one that
goes backward -/
theorem eliminate_freed_cycle :
    let g : Graph := ⟨#[{ edges := [.symbols 97 98 1, .epsilon 1] },
      { silent := true, edges := [.firing (.enter 0) 2, .epsilon 1, .symbols 99 99 3] },
      { edges := [.epsilon 0, .symbols 97 97 2, .symbols 97 97 3] },
      { accepting := true, edges := [.epsilon 4] }, { edges := [.symbols 98 98 3] }], 0⟩
    g.eliminate? = some g.eliminate ∧ Freed g g.eliminate ∧
      (∃ w, Clears (ofGraph g) (pending (ofGraph g).graph) w ∧ g.eliminate = w.graph.trim) ∧
      ∀ w, Clears (ofGraph g) (pending (ofGraph g).graph) w → Freed g w.graph.trim :=
  eliminate_freed (closed_iff.2 (by decide)) (by decide)

end Graph
end SpanSearch
