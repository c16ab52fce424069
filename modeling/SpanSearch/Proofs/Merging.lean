import SpanSearch.Graph.Merge
import SpanSearch.Proofs.Renumbering

/-!
# Merged edges consume the same symbols

* `Edge.place`                the target, and the first symbol or the action: what a merged edge
                              has from the first of the two; `Edge.Ahead`: the order of places
* `accepts_merged`            which symbols the edges to a state consume
* `Graph.coalesced`           merged, but not yet trimmed
* `words_mergeEdges`, `trails_mergeEdges`
-/

namespace SpanSearch

open Std

/-- lists are compared by their heads first -/
theorem isLE_compare_cons {a b : Nat} {l m : List Nat} :
    (compare (a :: l) (b :: m)).isLE = true ↔ a < b ∨ a = b ∧ (compare l m).isLE = true := by
  have hcons : compare (a :: l) (b :: m) = (compare a b).then (compare l m) := by
    show List.compareLex compare (a :: l) (b :: m) = _
    rw [List.compareLex_cons_cons]
    rfl
  rw [hcons]
  rcases Nat.lt_trichotomy a b with h | h | h
  · rw [Nat.compare_eq_lt.2 h]
    exact iff_of_true rfl (.inl h)
  · subst h
    rw [ReflOrd.compare_self, Ordering.then]
    exact (or_iff_right (Nat.lt_irrefl a)).trans (and_iff_right rfl) |>.symm
  · rw [Nat.compare_eq_gt.2 h]
    exact iff_of_false Bool.false_ne_true fun hle => by omega

theorem isLE_compare_nil : (compare ([] : List Nat) []).isLE = true := rfl

namespace Edge

variable {a b c x : Edge}

/-- the target and the kind, then the first symbol of a range or the action of an epsilon -/
def place (e : Edge) : List Nat :=
  match e.label with
  | .epsilon => [e.target, 0, (actionRank e.action).1, (actionRank e.action).2]
  | .symbols lo _ => [e.target, 1, lo]

def Ahead (a b : Edge) : Prop := (compare a.place b.place).isLE = true

theorem Ahead.refl (a : Edge) : Ahead a a := by
  rw [Ahead, ReflOrd.compare_self]
  rfl

theorem notAfter_trans (a b c : Edge) (hab : a.notAfter b = true) (hbc : b.notAfter c = true) :
    a.notAfter c = true :=
  TransOrd.isLE_trans (a := a.rank) hab hbc

theorem notAfter_total (a b : Edge) : (a.notAfter b || b.notAfter a) = true := by
  unfold notAfter
  cases h : compare a.rank b.rank with
  | lt => rfl
  | eq => rfl
  | gt =>
    rw [OrientedCmp.lt_of_gt h]
    rfl

theorem ahead_of_notAfter (h : a.notAfter b = true) : Ahead a b := by
  unfold notAfter rank at h
  unfold Ahead place
  cases ha : a.label <;> cases hb : b.label <;>
    simp only [ha, hb, isLE_compare_cons, isLE_compare_nil, and_true, true_and, Nat.lt_irrefl,
      false_or] at h ⊢ <;> omega

theorem pairwise_ahead (l : List Edge) : (l.mergeSort notAfter).Pairwise Ahead :=
  (List.pairwise_mergeSort notAfter_trans notAfter_total l).imp ahead_of_notAfter

/-! ## one edge for two -/

theorem place_absorb? (h : a.absorb? b = some c) : c.place = a.place := by
  rcases absorb?_cases h with ⟨lo, hi, lo', hi', ha, -, -, -, -, rfl⟩ | ⟨-, rfl⟩
  · simp only [place, ha]
  · rfl

theorem ahead_absorb? (h : a.absorb? b = some c) (hax : Ahead a x) : Ahead c x := by
  rwa [Ahead, place_absorb? h]

theorem isEpsilon_absorb? (h : a.absorb? b = some c) :
    c.isEpsilon = a.isEpsilon ∧ b.isEpsilon = a.isEpsilon := by
  rcases absorb?_cases h with ⟨lo, hi, lo', hi', ha, hb, -, -, -, rfl⟩ | ⟨rfl, rfl⟩
  · simp only [isEpsilon, ha, hb, and_self]
  · exact ⟨rfl, rfl⟩

theorem accepts_of_absorb? (h : a.absorb? b = some c) {sym : Nat} (hacc : a.accepts sym = true) :
    c.accepts sym = true := by
  rcases absorb?_cases h with ⟨lo, hi, lo', hi', ha, -, -, -, -, rfl⟩ | ⟨-, rfl⟩
  · simp only [accepts, ha, Bool.and_eq_true, decide_eq_true_eq] at hacc ⊢
    omega
  · exact hacc

theorem accepts_absorb? (hab : Ahead a b) (h : a.absorb? b = some c) (sym : Nat) :
    c.accepts sym = true ↔ a.accepts sym = true ∨ b.accepts sym = true := by
  rcases absorb?_cases h with ⟨lo, hi, lo', hi', ha, hb, ht, -, htouch, rfl⟩ | ⟨rfl, rfl⟩
  · simp only [Ahead, place, ha, hb, isLE_compare_cons] at hab
    simp only [accepts, ha, hb, Bool.and_eq_true, decide_eq_true_eq]
    omega
  · rw [or_self]

/-! ## merged lists -/

/-- what is true of two edges exactly when it is true of the one that stands for both is true of
a merged list exactly when it is true of the list -/
theorem exists_mem_coalesce {P : Edge → Prop}
    (hP : ∀ a b c, Ahead a b → a.absorb? b = some c → (P c ↔ P a ∨ P b)) {l : List Edge}
    (hl : l.Pairwise Ahead) : (∃ e ∈ coalesce l, P e) ↔ ∃ e ∈ l, P e := by
  fun_induction coalesce l with
  | case1 => rfl
  | case2 e => rfl
  | case3 a b es c hc ih =>
    obtain ⟨ha, hrest⟩ := List.pairwise_cons.1 hl
    obtain ⟨-, hes⟩ := List.pairwise_cons.1 hrest
    have hab := ha b List.mem_cons_self
    have hcs : (c :: es).Pairwise Ahead := List.pairwise_cons.2
      ⟨fun x hx => ahead_absorb? hc (ha x (List.mem_cons_of_mem b hx)), hes⟩
    rw [ih hcs, List.exists_mem_cons_iff, List.exists_mem_cons_iff, List.exists_mem_cons_iff,
      hP a b c hab hc, or_assoc]
  | case4 a b es hnone ih =>
    obtain ⟨-, hrest⟩ := List.pairwise_cons.1 hl
    rw [List.exists_mem_cons_iff, ih hrest, List.exists_mem_cons_iff (a := a)]

/-- what holds of all edges of a list, and of one edge for two if it holds of both, holds of all
edges of the merged list -/
theorem forall_mem_coalesce {P : Edge → Prop}
    (hP : ∀ a b c, a.absorb? b = some c → P a → P b → P c) {l : List Edge}
    (h : ∀ e ∈ l, P e) : ∀ e ∈ coalesce l, P e := by
  fun_induction coalesce l with
  | case1 => exact h
  | case2 e => exact h
  | case3 a b es c hc ih =>
    obtain ⟨ha, hrest⟩ := List.forall_mem_cons.1 h
    obtain ⟨hb, hes⟩ := List.forall_mem_cons.1 hrest
    exact ih (List.forall_mem_cons.2 ⟨hP a b c hc ha hb, hes⟩)
  | case4 a b es hnone ih =>
    obtain ⟨ha, hrest⟩ := List.forall_mem_cons.1 h
    exact List.forall_mem_cons.2 ⟨ha, ih hrest⟩

/-- the edges of a state as merging leaves them -/
def merged (l : List Edge) : List Edge := coalesce (l.mergeSort notAfter)

theorem exists_mem_merged {P : Edge → Prop}
    (hP : ∀ a b c, Ahead a b → a.absorb? b = some c → (P c ↔ P a ∨ P b)) (l : List Edge) :
    (∃ e ∈ merged l, P e) ↔ ∃ e ∈ l, P e := by
  rw [merged, exists_mem_coalesce hP (pairwise_ahead l)]
  simp only [List.mem_mergeSort]

theorem accepts_merged (l : List Edge) (sym t : Nat) :
    (∃ e ∈ merged l, e.accepts sym = true ∧ e.target = t) ↔
      ∃ e ∈ l, e.accepts sym = true ∧ e.target = t := by
  refine exists_mem_merged (fun a b c hab hc => ?_) l
  obtain ⟨hct, hbt⟩ := target_of_absorb? hc
  rw [accepts_absorb? hab hc, hct, hbt, or_and_right]

theorem isEpsilon_merged (l : List Edge) (t : Nat) :
    (∃ e ∈ merged l, e.isEpsilon = true ∧ e.target = t) ↔
      ∃ e ∈ l, e.isEpsilon = true ∧ e.target = t := by
  refine exists_mem_merged (fun a b c hab hc => ?_) l
  obtain ⟨hct, hbt⟩ := target_of_absorb? hc
  obtain ⟨hce, hbe⟩ := isEpsilon_absorb? hc
  rw [hce, hbe, hct, hbt, or_self]

theorem target_merged (l : List Edge) (t : Nat) :
    (∃ e ∈ merged l, e.target = t) ↔ ∃ e ∈ l, e.target = t := by
  refine exists_mem_merged (fun a b c hab hc => ?_) l
  obtain ⟨hct, hbt⟩ := target_of_absorb? hc
  rw [hct, hbt, or_self]

end Edge

namespace Graph

variable {β : Type} {g h : Graph} {see : Nat → Nat → β}

/-- two graphs whose states consume the same on the way to the same states have the same paths -/
theorem Reads.of_same_steps
    (eps : ∀ p t, (∃ e ∈ g.edges p, e.isEpsilon = true ∧ e.target = t) →
      ∃ e ∈ h.edges p, e.isEpsilon = true ∧ e.target = t)
    (sym : ∀ p s t, (∃ e ∈ g.edges p, e.accepts s = true ∧ e.target = t) →
      ∃ e ∈ h.edges p, e.accepts s = true ∧ e.target = t)
    {p q : Nat} {u : List β} (hr : g.Reads see p u q) : h.Reads see p u q := by
  induction hr with
  | here p => exact .here p
  | slide mem heps rest ih =>
    obtain ⟨e', he', heps', ht⟩ := eps _ _ ⟨_, mem, heps, rfl⟩
    exact .slide he' heps' (ht ▸ ih)
  | read mem acc rest ih =>
    obtain ⟨e', he', hacc', ht⟩ := sym _ _ _ ⟨_, mem, acc, rfl⟩
    rw [← ht] at ih ⊢
    exact .read he' hacc' ih

/-- the graph with the edges of every state merged, before it is trimmed -/
def coalesced (g : Graph) : Graph := g.mapStates fun s => { s with edges := Edge.merged s.edges }

theorem mergeEdges_eq (g : Graph) : g.mergeEdges = g.coalesced.trim := rfl

theorem size_coalesced (g : Graph) : g.coalesced.size = g.size := size_mapStates _ _

theorem start_coalesced (g : Graph) : g.coalesced.start = g.start := rfl

theorem start_lt_size_coalesced (hs : g.start < g.size) :
    g.coalesced.start < g.coalesced.size := by
  rw [size_coalesced]
  exact hs

theorem edges_coalesced (p : Nat) : g.coalesced.edges p = Edge.merged (g.edges p) := by
  by_cases hp : p < g.size
  · rw [edges, coalesced, state_mapStates _ hp]
    rfl
  · have hle : g.size ≤ p := Nat.le_of_not_lt hp
    rw [edges_of_size_le hle,
      edges_of_size_le (g := g.coalesced) (by rw [size_coalesced]; exact hle)]
    simp [Edge.merged, Edge.coalesce_nil]

theorem isAccepting_coalesced (p : Nat) : g.coalesced.isAccepting p = g.isAccepting p := by
  by_cases hp : p < g.size
  · rw [isAccepting, coalesced, state_mapStates _ hp]
    rfl
  · have hle : g.size ≤ p := Nat.le_of_not_lt hp
    rw [isAccepting, isAccepting, state_of_size_le hle,
      state_of_size_le (g := g.coalesced) (by rw [size_coalesced]; exact hle)]

theorem isSilent_coalesced (p : Nat) : g.coalesced.isSilent p = g.isSilent p := by
  by_cases hp : p < g.size
  · rw [isSilent, coalesced, state_mapStates _ hp]
    rfl
  · have hle : g.size ≤ p := Nat.le_of_not_lt hp
    rw [isSilent, isSilent, state_of_size_le hle,
      state_of_size_le (g := g.coalesced) (by rw [size_coalesced]; exact hle)]

theorem closed_coalesced (hc : g.Closed) : g.coalesced.Closed := by
  intro p e he
  rw [edges_coalesced] at he
  obtain ⟨e', he', ht⟩ := (Edge.target_merged (g.edges p) e.target).1 ⟨e, he, rfl⟩
  rw [size_coalesced, ← ht]
  exact hc p e' he'

theorem reads_coalesced {p q : Nat} {u : List β} :
    g.coalesced.Reads see p u q ↔ g.Reads see p u q := by
  constructor
  · refine Reads.of_same_steps (fun p t h => ?_) (fun p s t h => ?_)
    · exact (Edge.isEpsilon_merged (g.edges p) t).1 (edges_coalesced p ▸ h)
    · exact (Edge.accepts_merged (g.edges p) s t).1 (edges_coalesced p ▸ h)
  · refine Reads.of_same_steps (fun p t h => ?_) (fun p s t h => ?_)
    · rw [edges_coalesced]
      exact (Edge.isEpsilon_merged (g.edges p) t).2 h
    · rw [edges_coalesced]
      exact (Edge.accepts_merged (g.edges p) s t).2 h

theorem shown_coalesced : g.coalesced.shown see = g.shown see := by
  ext u
  simp only [shown, start_coalesced, reads_coalesced, isAccepting_coalesced]

theorem words_mergeEdges (hc : g.Closed) (hs : g.start < g.size) :
    g.mergeEdges.words = g.words := by
  rw [mergeEdges_eq, words_trim (closed_coalesced hc) (start_lt_size_coalesced hs)]
  exact shown_coalesced

theorem trails_mergeEdges (hc : g.Closed) (hs : g.start < g.size) :
    g.mergeEdges.trails = g.trails := by
  rw [mergeEdges_eq, trails_trim (closed_coalesced hc) (start_lt_size_coalesced hs)]
  have hsee : g.coalesced.marked = g.marked := by
    funext sym t
    rw [marked, marked, isSilent_coalesced]
  rw [trails, hsee]
  exact shown_coalesced

theorem closed_mergeEdges (hc : g.Closed) (hs : g.start < g.size) : g.mergeEdges.Closed :=
  closed_trim (closed_coalesced hc) (start_lt_size_coalesced hs)

theorem start_lt_size_mergeEdges (hs : g.start < g.size) :
    g.mergeEdges.start < g.mergeEdges.size :=
  start_lt_size_trim (start_lt_size_coalesced hs)

end Graph
end SpanSearch
