import SpanSearch.Compile
import SpanSearch.Proofs.Minimal
import SpanSearch.Proofs.Repeating

/-!
# Fragments as graphs and graphs as fragments

* `Fragment.sealed`   a fragment as a graph before its states are renumbered
* `words_finish`      the graph of a fragment has the words of the fragment
* `makes_ofGraph`     a graph as a fragment keeps its words
* `makes_shrink`      so does the minimal graph of a fragment, in its place
-/

namespace SpanSearch
namespace Fragment

open SpanSearch.Graph

variable {β : Type} {see : Nat → Nat → β} {g h : Graph} {a : Fragment} {S : Set Nat}
  {L : Language Nat}

/-! ## a fragment as a graph of its own -/

/-- a fragment as a graph before its states are renumbered -/
def sealed (a : Fragment) (g : Graph) : Graph :=
  (match a.exit with
    | none => g
    | some x => g.setAccepting x true).withStart a.entry

theorem finish_eq (a : Fragment) (g : Graph) : a.finish g = (sealed a g).compact := rfl

theorem start_sealed (a : Fragment) (g : Graph) : (sealed a g).start = a.entry := rfl

theorem size_sealed (a : Fragment) (g : Graph) : (sealed a g).size = g.size := by
  unfold sealed
  split
  · rfl
  · next x _ => exact size_modify g x _

theorem edges_sealed (p : Nat) : (sealed a g).edges p = g.edges p := by
  unfold sealed
  split
  · rfl
  · next x _ =>
    show ((g.setAccepting x true).state p).edges = _
    by_cases hp : x = p
    · subst hp
      by_cases hlt : x < g.size
      · rw [setAccepting, state_modify_self _ hlt]
        rfl
      · rw [state_of_size_le (by rw [setAccepting, size_modify]; omega),
          edges_of_size_le (Nat.le_of_not_lt hlt)]
    · rw [setAccepting, state_modify_ne _ hp]
      rfl

theorem isSilent_sealed (p : Nat) : (sealed a g).isSilent p = g.isSilent p := by
  unfold sealed
  split
  · rfl
  · next x _ =>
    show ((g.setAccepting x true).state p).silent = _
    by_cases hp : x = p
    · subst hp
      by_cases hlt : x < g.size
      · rw [setAccepting, state_modify_self _ hlt]
        rfl
      · rw [state_of_size_le (by rw [setAccepting, size_modify]; omega), isSilent,
          state_of_size_le (Nat.le_of_not_lt hlt)]
    · rw [setAccepting, state_modify_ne _ hp]
      rfl

theorem isAccepting_sealed (hexit : ∀ x, a.exit = some x → x < g.size) {p : Nat} :
    (sealed a g).isAccepting p = true ↔ a.exit = some p ∨ g.isAccepting p = true := by
  unfold sealed
  split
  · next hx =>
    rw [hx]
    exact (or_iff_right fun heq => Option.some_ne_none p heq.symm).symm
  · next x hx =>
    show ((g.setAccepting x true).state p).accepting = true ↔ _
    rw [hx, Option.some_inj]
    by_cases hp : x = p
    · subst hp
      rw [setAccepting, state_modify_self _ (hexit x hx)]
      exact iff_of_true rfl (.inl rfl)
    · rw [setAccepting, state_modify_ne _ hp]
      exact (or_iff_right hp).symm

theorem closed_sealed (hc : g.Closed) : (sealed a g).Closed := by
  intro p e he
  rw [edges_sealed] at he
  rw [size_sealed]
  exact hc p e he

theorem reads_sealed {p q : Nat} {u : List β} :
    (sealed a g).Reads see p u q ↔ g.Reads see p u q :=
  reads_congr (S := fun _ => True) (fun _ _ _ _ => trivial) (fun p _ => edges_sealed p) trivial

/-- what leads from the entry to the exit, if nothing on the way accepts -/
theorem mem_shown_sealed (hclosed : ∀ p ∈ S, ∀ e ∈ g.edges p, e.target ∈ S)
    (hnone : ∀ p ∈ S, g.isAccepting p = false) (hentry : a.entry ∈ S)
    (hexit : ∀ x, a.exit = some x → x < g.size) {u : List β} :
    u ∈ (sealed a g).shown see ↔ ∃ x, a.exit = some x ∧ g.Reads see a.entry u x := by
  constructor
  · rintro ⟨q, hr, hacc⟩
    rw [start_sealed, reads_sealed] at hr
    rcases (isAccepting_sealed hexit).1 hacc with hq | hq
    · exact ⟨q, hq, hr⟩
    · rw [hnone q (hr.stays (S := (· ∈ S)) hclosed hentry)] at hq
      exact absurd hq Bool.false_ne_true
  · rintro ⟨x, hx, hr⟩
    refine ⟨x, ?_, (isAccepting_sealed hexit).2 (.inl hx)⟩
    rw [start_sealed, reads_sealed]
    exact hr

section
variable (hc : g.Closed) (ha : a.Lives g S)
include ha

theorem start_lt_size_sealed : (sealed a g).start < (sealed a g).size := by
  rw [start_sealed, size_sealed]
  exact ha.lt _ ha.entry

theorem start_lt_size_finish : (a.finish g).start < (a.finish g).size :=
  start_lt_size_compact (start_lt_size_sealed ha)

include hc

theorem closed_finish : (a.finish g).Closed :=
  closed_compact (closed_sealed hc) (start_lt_size_sealed ha)

theorem words_finish : (a.finish g).words = a.words g := by
  rw [finish_eq, words_compact (closed_sealed hc) (start_lt_size_sealed ha)]
  ext w
  exact mem_shown_sealed ha.closed (fun p hp => (ha.blank p hp).1) ha.entry
    fun x hx => ha.lt x (ha.exit x hx)

theorem loud_finish : (a.finish g).Loud := by
  have hs := start_lt_size_sealed ha
  intro q
  by_cases hq : q < (a.finish g).size
  · obtain ⟨p, hp, rfl⟩ := exists_placeOf (Nat.lt_of_le_of_lt (Nat.zero_le _) hs) hq
    rw [finish_eq, isSilent_compact (Nat.lt_of_le_of_lt (Nat.zero_le _) hs) hp, isSilent_sealed]
    have hreach := (mem_reachable (closed_sealed hc) hs).1 hp
    refine (ha.blank p (mem_of_reaches (S := (· ∈ S)) (fun p hp e he => ?_) hreach ha.entry)).2
    rw [edges_sealed] at he
    exact ha.closed p hp e he
  · rw [isSilent, state_of_size_le (Nat.le_of_not_lt hq)]

end

/-! ## a graph as a fragment -/

/-- the arena with the states of `h` behind its own -/
def beside (g h : Graph) : Graph := { g with states := g.states ++ h.states.map (shifted g.size) }

theorem size_beside (g h : Graph) : (beside g h).size = g.size + h.size := by
  simp [beside, size]

theorem state_beside_new {p : Nat} (hp : p < h.size) :
    (beside g h).state (p + g.size) = shifted g.size (h.state p) := by
  simp only [beside, state, Array.getD_eq_getD_getElem?]
  have hle : g.states.size ≤ p + g.size := Nat.le_add_left _ _
  rw [Array.getElem?_append_right hle]
  have hsub : p + g.size - g.states.size = p := Nat.add_sub_cancel p g.size
  rw [hsub, Array.getElem?_map, Array.getElem?_eq_getElem hp]
  rfl

theorem edges_beside_new {p : Nat} (hp : p < h.size) :
    (beside g h).edges (p + g.size) =
      (h.edges p).map fun e => e.withTarget (e.target + g.size) := by
  rw [edges, state_beside_new hp]
  rfl

theorem exists_beside {q : Nat} (hq : q ∈ fresh g (beside g h)) : ∃ p < h.size, q = p + g.size := by
  rw [mem_fresh, size_beside] at hq
  exact ⟨q - g.size, by omega, by omega⟩

theorem mem_fresh_beside {p : Nat} (hp : p < h.size) : p + g.size ∈ fresh g (beside g h) := by
  rw [mem_fresh, size_beside]
  omega

theorem repeats_beside (hc : h.Closed) (g : Graph) :
    Repeats h (beside g h) (fun p => p < h.size) fun p => p + g.size where
  closed := fun p _ e he => hc p e he
  edges := fun _ hp => edges_beside_new hp

theorem grows_beside (hl : h.Loud) (g : Graph) : Grows ∅ g (beside g h) := by
  refine grows_append (fun s hs => ?_) ∅ g
  obtain ⟨t, ht, rfl⟩ := Array.mem_map.1 hs
  obtain ⟨p, hp⟩ := Array.mem_iff_getElem?.1 ht
  have hloud := hl p
  rw [isSilent, state, Array.getD_eq_getD_getElem?, hp] at hloud
  exact ⟨rfl, hloud⟩

theorem region_beside (hc : h.Closed) (hl : h.Loud) (g : Graph) :
    (beside g h).Region (fresh g (beside g h)) where
  closed := by
    intro p hp e he
    obtain ⟨q, hq, rfl⟩ := exists_beside hp
    rw [edges_beside_new hq] at he
    obtain ⟨d, hd, rfl⟩ := List.mem_map.1 he
    exact mem_fresh_beside (hc q d hd)
  blank := fun _ hp => (grows_beside hl g).blank_fresh hp
  lt := fun _ hp => hp.2

theorem leads_beside (hc : h.Closed) {p q : Nat} (hp : p < h.size) {w : List Nat} :
    (beside g h).Leads (p + g.size) w (q + g.size) ↔ h.Leads p w q := by
  have hrep := repeats_beside hc g
  constructor
  · intro hr
    obtain ⟨q', -, heq, hr'⟩ := hrep.exists_leads hr hp
    rwa [Nat.add_right_cancel heq] at hr'
  · exact fun hr => hrep.leads hr hp

theorem mem_accepting {p : Nat} : p ∈ h.accepting ↔ h.isAccepting p = true := by
  rw [accepting, List.mem_filter, mem_ids]
  exact and_iff_right_of_imp lt_size_of_isAccepting

def gathered (f : Nat → Nat) (t : Nat) (xs : List Nat) (g : Graph) : Graph :=
  (xs.forM (fun x => Build.epsilon (f x) t) g).2

theorem gathered_cons (f : Nat → Nat) (t x : Nat) (xs : List Nat) (g : Graph) :
    gathered f t (x :: xs) g = gathered f t xs (g.addEdge (f x) (Edge.epsilon t)) := rfl

theorem gathered_spec {f : Nat → Nat} {t : Nat} {xs : List Nat} (hx : ∀ x ∈ xs, f x ∈ S)
    (hS : ∀ p ∈ S, p < g.size) : Grows S g (gathered f t xs g) ∧
      (gathered f t xs g).size = g.size ∧ ∀ p d, d ∈ (gathered f t xs g).edges p ↔
        d ∈ g.edges p ∨ (∃ x ∈ xs, f x = p) ∧ d = Edge.epsilon t := by
  induction xs generalizing g with
  | nil =>
    have hself : gathered f t [] g = g := rfl
    rw [hself]
    refine ⟨Grows.refl S g, rfl, fun p d => (or_iff_left ?_).symm⟩
    rintro ⟨⟨x, hx, -⟩, -⟩
    exact absurd hx List.not_mem_nil
  | cons x xs ih =>
    obtain ⟨hx, hxs⟩ := List.forall_mem_cons.1 hx
    have hgrow := grows_addEdge (g := g) hx (Edge.epsilon t)
    have hsize := size_addEdge g (f x) (Edge.epsilon t)
    obtain ⟨hgrow', hsize', hedges⟩ := ih hxs (g := g.addEdge (f x) (Edge.epsilon t))
      fun p hp => hsize.symm ▸ hS p hp
    rw [gathered_cons]
    refine ⟨hgrow.trans hgrow' Set.subset_union_left, hsize'.trans hsize, fun p d => ?_⟩
    rw [hedges, mem_edges_addEdge (hS _ hx), List.exists_mem_cons_iff, or_assoc, ← or_and_right,
      eq_comm (a := p)]

/-- a path into one of several states and the edge behind it -/
theorem leads_gathered {f : Nat → Nat} {xs : List Nat} (hregion : g.Region S)
    (hx : ∀ x ∈ xs, f x ∈ S) {p : Nat} (hp : p ∈ S) {w : List Nat} :
    (gathered f g.size xs g.addState.2).Leads p w g.size ↔ ∃ x ∈ xs, g.Leads p w (f x) := by
  have hgrow := grows_addState S g
  have hS : ∀ q ∈ S, q < g.addState.2.size :=
    fun q hq => Nat.lt_of_lt_of_le (hregion.lt q hq) hgrow.size
  obtain ⟨-, -, hedges⟩ := gathered_spec hx hS (t := g.size)
  have hout : g.size ∉ S := fun h => Nat.lt_irrefl _ (hregion.lt _ h)
  have hexit : (gathered f g.size xs g.addState.2).edges g.size = [] := by
    refine List.eq_nil_iff_forall_not_mem.2 fun d hd => ?_
    rcases (hedges g.size d).1 hd with hd | ⟨⟨x, hmem, heq⟩, -⟩
    · rw [edges_addState, edges_of_size_le (Nat.le_refl _)] at hd
      exact absurd hd List.not_mem_nil
    · exact hout (heq ▸ hx x hmem)
  have hgates : (gathered f g.size xs g.addState.2).Leads p w g.size ↔ _ :=
    leads_gates (S := S) hregion.closed
      (fun q _ d => by rw [hedges, edges_addState]) hp
  rw [hgates]
  constructor
  · rintro (h | ⟨q, -, d, ⟨⟨x, hmem, rfl⟩, rfl⟩, u, v, rfl, hu, hv⟩)
    · exact absurd (h.stays (S := (· ∈ S)) hregion.closed hp) hout
    · rw [crosses_of_isEpsilon rfl] at hv
      obtain ⟨rfl, -⟩ := hv.eq_of_edges_eq_nil hexit
      rw [List.append_nil]
      exact ⟨x, hmem, hu⟩
  · rintro ⟨x, hmem, hu⟩
    refine .inr ⟨f x, hx x hmem, _, ⟨⟨x, hmem, rfl⟩, rfl⟩, w, [], (List.append_nil w).symm, hu, ?_⟩
    exact (crosses_of_isEpsilon rfl).2 (.here _)

/-- several states joined in a new one, the exit -/
theorem makes_gathered {g₁ : Graph} {f : Nat → Nat} {xs : List Nat} {s : Nat}
    (hgrow : Grows ∅ g g₁) (hregion : g₁.Region (fresh g g₁)) (hs : s ∈ fresh g g₁)
    (hx : ∀ x ∈ xs, f x ∈ fresh g g₁) :
    Makes ∅ {w | ∃ x ∈ xs, g₁.Leads s w (f x)} g
      (⟨s, some g₁.size⟩, gathered f g₁.size xs g₁.addState.2) := by
  have hadd := grows_addState ∅ g₁
  have hlt : ∀ p ∈ fresh g g₁, p < g₁.addState.2.size :=
    fun p hp => Nat.lt_of_lt_of_le hp.2 hadd.size
  obtain ⟨hgather, hsize, hedges⟩ := gathered_spec hx hlt (t := g₁.size)
  have hwords {w : List Nat} := leads_gathered hregion hx hs (w := w)
  have hgrow' := (hgrow.trans hadd (Set.empty_subset _)).trans hgather fun p hp =>
    .inr ⟨hp.1, hlt p hp⟩
  generalize gathered f g₁.size xs g₁.addState.2 = g₂ at *
  have hlast : g₁.size ∈ fresh g g₂ := by
    refine ⟨hgrow.size, ?_⟩
    rw [hsize, size_addState]
    exact Nat.lt_succ_self _
  have hinto : ∀ p ∈ fresh g g₁, p ∈ fresh g g₂ := fun p hp => ⟨hp.1, hsize.symm ▸ hlt p hp⟩
  refine ⟨hgrow', ?_, ?_⟩
  · rw [Set.empty_union]
    refine ⟨⟨fun p hp d hd => ?_, fun p hp => hgrow'.blank_fresh hp, fun p hp => hp.2⟩,
      hinto _ hs, fun p hp => ?_⟩
    · rcases (hedges p d).1 hd with hd | ⟨-, rfl⟩
      · rw [edges_addState] at hd
        exact hinto _ (hregion.closed p ⟨hp.1, lt_size_of_mem_edges hd⟩ d hd)
      · exact hlast
    · obtain rfl : g₁.size = p := Option.some.inj hp
      exact hlast
  · ext w
    exact (words_of_exit rfl).trans hwords

theorem ofGraph_eq (h g : Graph) : ofGraph h g =
    (match h.accepting with
    | [] => return ⟨h.start + g.size, none⟩
    | [x] => return ⟨h.start + g.size, some (x + g.size)⟩
    | xs => do
      let join ← Build.state
      xs.forM fun x => Build.epsilon (x + g.size) join
      return ⟨h.start + g.size, some join⟩ : Build Fragment) (beside g h) := rfl

/-- a graph as a fragment keeps its words -/
theorem makes_ofGraph (hc : h.Closed) (hs : h.start < h.size) (hl : h.Loud) (g : Graph) :
    Makes ∅ h.words g (ofGraph h g) := by
  have hgrow := grows_beside hl g
  have hregion := region_beside hc hl g
  have hentry : h.start + g.size ∈ fresh g (beside g h) := mem_fresh_beside hs
  have hleads (x : Nat) (w : List Nat) := leads_beside (g := g) hc hs (q := x) (w := w)
  have hmem : ∀ p, p ∈ h.accepting ↔ h.isAccepting p = true := fun p => mem_accepting
  rw [ofGraph_eq]
  generalize h.accepting = xs at hmem ⊢
  rcases xs with _ | ⟨x, _ | ⟨z, xs⟩⟩
  · -- no accepting state
    refine ⟨hgrow, ?_, (words_of_no_exit rfl).trans ?_⟩
    · show Lives _ (beside g h) (∅ ∪ fresh g (beside g h))
      rw [Set.empty_union]
      exact ⟨hregion, hentry, fun y hy => absurd hy.symm (Option.some_ne_none y)⟩
    · ext w
      refine iff_of_false id ?_
      rintro ⟨q, -, hacc⟩
      exact absurd ((hmem q).2 hacc) List.not_mem_nil
  · -- one accepting state
    have hacc := (hmem x).1 (List.mem_singleton_self x)
    refine ⟨hgrow, ?_, ?_⟩
    · show Lives _ (beside g h) (∅ ∪ fresh g (beside g h))
      rw [Set.empty_union]
      refine ⟨hregion, hentry, fun y hy => ?_⟩
      obtain rfl : x + g.size = y := Option.some.inj hy
      exact mem_fresh_beside (lt_size_of_isAccepting hacc)
    · ext w
      refine (words_of_exit rfl).trans ((hleads x w).trans ?_)
      rw [Graph.mem_words]
      constructor
      · exact fun hw => ⟨x, hw, hacc⟩
      · rintro ⟨q, hw, hq⟩
        rwa [List.mem_singleton.1 ((hmem q).2 hq)] at hw
  · -- several accepting states
    have hx : ∀ y ∈ x :: z :: xs, y + g.size ∈ fresh g (beside g h) :=
      fun y hy => mem_fresh_beside (lt_size_of_isAccepting ((hmem y).1 hy))
    have hmakes := makes_gathered (f := fun x => x + g.size) hgrow hregion hentry hx
    have hwords : h.words = {w | ∃ y ∈ x :: z :: xs,
        (beside g h).Leads (h.start + g.size) w (y + g.size)} := by
      ext w
      show _ ↔ ∃ y ∈ _, _
      simp only [hleads, hmem, Graph.mem_words]
      exact exists_congr fun y => and_comm
    rw [hwords]
    exact hmakes

/-- the minimal graph of a fragment keeps its words, as long as they are over the alphabet -/
theorem makes_shrink (o : CompileOptions) (hc : g.Closed) (ha : a.Lives g S)
    (hle : ∀ w ∈ a.words g, ∀ sym ∈ w, sym ≤ o.alphabet.maxSymbol) :
    Makes S (a.words g) g (a.shrink o g) := by
  cases hmin : o.minimal with
  | false =>
    have hstep : a.shrink o g = (a, g) := by
      rw [shrink, hmin]
      rfl
    rw [hstep]
    exact ha.makes
  | true =>
    have hstep : a.shrink o g = ofGraph ((a.finish g).minimal o.alphabet) g := by
      rw [shrink, hmin]
      rfl
    have hc' := closed_finish hc ha
    have hs' := start_lt_size_finish ha
    have hdec := decides_minimal hc' hs' o.alphabet
    have hwords : ((a.finish g).minimal o.alphabet).words = a.words g := by
      ext w
      rw [words_minimal hc' hs', words_finish hc ha]
      exact and_iff_left_of_imp (hle w)
    have h := makes_ofGraph hdec.closed hdec.start
      (loud_minimal hc' hs' o.alphabet (loud_finish hc ha)) g
    have h' := h.union ha.toRegion (Set.empty_disjoint S)
    rw [hstep, ← hwords]
    rwa [Set.empty_union] at h'

end Fragment
end SpanSearch
