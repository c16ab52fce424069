import Mathlib.Computability.Language
import Mathlib.Order.CompletePartialOrder
import SpanSearch.Fragment.Loops
import SpanSearch.Proofs.EpsilonFree

/-!
# Fragments live in regions of a graph

No edge leaves a region, so what a fragment matches depends on its region alone.  A construction
step changes the regions of its parts and adds new states, and leaves all other states as they
are.

* `Graph.Region`       a set of blank states that no edge leaves
* `Graph.Grows`        what every step of a construction leaves alone
* `Graph.fresh`        the states that a step adds
* `Fragment.words`, `Fragment.Lives`   what a fragment matches, and where
* `Fragment.Makes`     a step makes a fragment for some words
* `Graph.Crosses`      an edge and a path behind it
* `Graph.leads_gates`  paths out of a region leave it through a gate
-/

namespace SpanSearch
namespace Graph

variable {β : Type} {see : Nat → Nat → β} {g g' g'' : Graph} {S T : Set Nat}

/-! ## single states and edges -/

theorem state_addState (p : Nat) : g.addState.2.state p = g.state p := by
  show Graph.state { g with states := g.states.push {} } p = _
  rw [state_push]
  split
  · next h => rw [state_of_size_le (Nat.le_of_eq h.symm)]
  · rfl

theorem edges_addState (p : Nat) : g.addState.2.edges p = g.edges p := by
  rw [edges, state_addState, edges]

theorem mem_edges_addEdge {x p : Nat} {e d : Edge} (hx : x < g.size) :
    d ∈ (g.addEdge x e).edges p ↔ d ∈ g.edges p ∨ p = x ∧ d = e := by
  by_cases hp : x = p
  · subst hp
    rw [edges_addEdge_self e hx, List.mem_append, List.mem_singleton]
    exact or_congr_right (and_iff_right rfl).symm
  · rw [edges_addEdge_ne e hp]
    exact (or_iff_left fun h => hp h.1.symm).symm

theorem Closed.addEdge (hc : g.Closed) {x : Nat} {e : Edge} (he : e.target < g.size) :
    (g.addEdge x e).Closed := by
  intro p d hd
  rw [size_addEdge]
  by_cases hp : x = p
  · subst hp
    have hx : x < g.size := by
      have h := lt_size_of_mem_edges hd
      rwa [size_addEdge] at h
    rcases (mem_edges_addEdge hx).1 hd with hd | ⟨-, rfl⟩
    · exact hc x d hd
    · exact he
  · rw [edges_addEdge_ne e hp] at hd
    exact hc p d hd

theorem isAccepting_addEdge (x : Nat) (e : Edge) (p : Nat) :
    (g.addEdge x e).isAccepting p = g.isAccepting p :=
  (sameFlags_modify g x fun l => l ++ [e]).accepting p

theorem isSilent_addEdge (x : Nat) (e : Edge) (p : Nat) :
    (g.addEdge x e).isSilent p = g.isSilent p :=
  (sameFlags_modify g x fun l => l ++ [e]).silent p

/-! ## regions -/

/-- no edge leaves the set, and none of its states accepts or is silent -/
structure Region (g : Graph) (S : Set Nat) : Prop where
  closed : ∀ p ∈ S, ∀ e ∈ g.edges p, e.target ∈ S
  blank : ∀ p ∈ S, g.isAccepting p = false ∧ g.isSilent p = false
  lt : ∀ p ∈ S, p < g.size

theorem Region.union (hS : g.Region S) (hT : g.Region T) : g.Region (S ∪ T) where
  closed := by
    rintro p (hp | hp) e he
    · exact .inl (hS.closed p hp e he)
    · exact .inr (hT.closed p hp e he)
  blank := by
    rintro p (hp | hp)
    · exact hS.blank p hp
    · exact hT.blank p hp
  lt := by
    rintro p (hp | hp)
    · exact hS.lt p hp
    · exact hT.lt p hp

theorem region_empty (g : Graph) : g.Region ∅ where
  closed := fun _ hp => absurd hp (Set.notMem_empty _)
  blank := fun _ hp => absurd hp (Set.notMem_empty _)
  lt := fun _ hp => absurd hp (Set.notMem_empty _)

def fresh (g g' : Graph) : Set Nat := {p | g.size ≤ p ∧ p < g'.size}

theorem mem_fresh {p : Nat} : p ∈ fresh g g' ↔ g.size ≤ p ∧ p < g'.size := Iff.rfl

/-- new states are blank, and states outside `S` that were there keep their edges -/
structure Grows (S : Set Nat) (g g' : Graph) : Prop where
  size : g.size ≤ g'.size
  accepting : ∀ p, g'.isAccepting p = g.isAccepting p
  silent : ∀ p, g'.isSilent p = g.isSilent p
  edges : ∀ p < g.size, p ∉ S → ∀ e, e ∈ g'.edges p ↔ e ∈ g.edges p

theorem Grows.refl (S : Set Nat) (g : Graph) : Grows S g g where
  size := Nat.le_refl _
  accepting := fun _ => rfl
  silent := fun _ => rfl
  edges := fun _ _ _ _ => Iff.rfl

theorem Grows.mono (hST : S ⊆ T) (h : Grows S g g') : Grows T g g' where
  size := h.size
  accepting := h.accepting
  silent := h.silent
  edges := fun p hp hT => h.edges p hp fun hS => hT (hST hS)

/-- one step after another; the later one may also change what the earlier one has added -/
theorem Grows.trans (h : Grows S g g') (h' : Grows T g' g'') (hT : T ⊆ S ∪ fresh g g') :
    Grows S g g'' where
  size := Nat.le_trans h.size h'.size
  accepting := fun p => (h'.accepting p).trans (h.accepting p)
  silent := fun p => (h'.silent p).trans (h.silent p)
  edges := by
    intro p hp hS e
    have hpT : p ∉ T := by
      intro hmem
      rcases hT hmem with hmem | ⟨hge, -⟩
      · exact hS hmem
      · exact Nat.not_lt_of_le hge hp
    rw [h'.edges p (Nat.lt_of_lt_of_le hp h.size) hpT, h.edges p hp hS]

theorem grows_addState (S : Set Nat) (g : Graph) : Grows S g g.addState.2 where
  size := by
    rw [size_addState]
    exact Nat.le_succ _
  accepting := fun p => by rw [isAccepting, state_addState, isAccepting]
  silent := fun p => by rw [isSilent, state_addState, isSilent]
  edges := fun p _ _ e => by rw [edges_addState]

/-- new blank states behind those that are there -/
theorem grows_append {new : Array State}
    (hnew : ∀ s ∈ new, s.accepting = false ∧ s.silent = false) (S : Set Nat) (g : Graph) :
    Grows S g { g with states := g.states ++ new } := by
  have hold (p : Nat) (hp : p < g.size) :
      ({ g with states := g.states ++ new } : Graph).state p = g.state p := by
    simp only [state, Array.getD_eq_getD_getElem?]
    rw [Array.getElem?_append_left hp]
  have hblank (p : Nat) (hp : g.size ≤ p) :
      (({ g with states := g.states ++ new } : Graph).state p).accepting = false ∧
        (({ g with states := g.states ++ new } : Graph).state p).silent = false := by
    simp only [state, Array.getD_eq_getD_getElem?]
    rw [Array.getElem?_append_right hp]
    cases hget : new[p - g.states.size]? with
    | none => exact ⟨rfl, rfl⟩
    | some s => exact hnew s (Array.mem_of_getElem? hget)
  refine ⟨?_, fun p => ?_, fun p => ?_, fun p hp _ e => ?_⟩
  · simp only [size, Array.size_append]
    exact Nat.le_add_right _ _
  · by_cases hp : p < g.size
    · rw [isAccepting, hold p hp, isAccepting]
    · rw [isAccepting, (hblank p (Nat.le_of_not_lt hp)).1, isAccepting,
        state_of_size_le (Nat.le_of_not_lt hp)]
  · by_cases hp : p < g.size
    · rw [isSilent, hold p hp, isSilent]
    · rw [isSilent, (hblank p (Nat.le_of_not_lt hp)).2, isSilent,
        state_of_size_le (Nat.le_of_not_lt hp)]
  · rw [edges, hold p hp, edges]

theorem grows_addEdge {x : Nat} (hx : x ∈ S) (e : Edge) : Grows S g (g.addEdge x e) where
  size := Nat.le_of_eq (size_addEdge g x e).symm
  accepting := isAccepting_addEdge x e
  silent := isSilent_addEdge x e
  edges := by
    intro p hp hS d
    have hne : x ≠ p := fun heq => hS (heq ▸ hx)
    rw [edges_addEdge_ne e hne]

theorem fresh_union (h : Grows S g g') (h' : Grows T g' g'') :
    fresh g g' ∪ fresh g' g'' = fresh g g'' := by
  ext p
  have h1 := h.size
  have h2 := h'.size
  simp only [Set.mem_union, mem_fresh]
  omega

theorem fresh_self (g : Graph) : fresh g g = ∅ := by
  ext p
  simp only [mem_fresh, Set.mem_empty_iff_false, iff_false]
  omega

theorem Region.grows (hT : g.Region T) (h : Grows S g g') (hdisj : Disjoint S T) :
    g'.Region T where
  closed := by
    intro p hp e he
    have hpS : p ∉ S := fun hS => Set.disjoint_left.1 hdisj hS hp
    exact hT.closed p hp e ((h.edges p (hT.lt p hp) hpS e).1 he)
  blank := by
    intro p hp
    rw [h.accepting, h.silent]
    exact hT.blank p hp
  lt := fun p hp => Nat.lt_of_lt_of_le (hT.lt p hp) h.size

theorem Region.disjoint_fresh (hS : g.Region S) : Disjoint S (fresh g g') :=
  Set.disjoint_left.2 fun p hp hp' => Nat.not_lt_of_le hp'.1 (hS.lt p hp)

theorem disjoint_fresh_fresh {g₁ g₂ g₃ g₄ : Graph} (h : g₂.size ≤ g₃.size) :
    Disjoint (fresh g₁ g₂) (fresh g₃ g₄) :=
  Set.disjoint_left.2 fun p hp hp' => by
    have h1 := hp.2
    have h2 := hp'.1
    omega

theorem Grows.blank_fresh (h : Grows S g g') {p : Nat} (hp : p ∈ fresh g g') :
    g'.isAccepting p = false ∧ g'.isSilent p = false := by
  rw [h.accepting, h.silent, isAccepting, isSilent, state_of_size_le hp.1]
  exact ⟨rfl, rfl⟩

theorem Grows.closed (h : Grows S g g') (hc : g.Closed)
    (hnew : ∀ p ∈ S ∪ fresh g g', ∀ e ∈ g'.edges p, e.target < g'.size) : g'.Closed := by
  refine closed_iff.2 fun p hp e he => ?_
  by_cases hS : p ∈ S ∪ fresh g g'
  · exact hnew p hS e he
  · have hlt : p < g.size := by
      by_contra hge
      exact hS (.inr ⟨Nat.le_of_not_lt hge, hp⟩)
    have hold := (h.edges p hlt (fun hmem => hS (.inl hmem)) e).1 he
    exact Nat.lt_of_lt_of_le (hc p e hold) h.size

/-! ## paths in and out of regions -/

theorem Reads.within (hclosed : ∀ p ∈ S, ∀ e ∈ g.edges p, e.target ∈ S)
    (hsub : ∀ p ∈ S, ∀ e ∈ g.edges p, e ∈ g'.edges p) {p q : Nat} {u : List β}
    (hr : g.Reads see p u q) (hp : p ∈ S) : g'.Reads see p u q := by
  induction hr with
  | here p => exact .here p
  | slide mem eps rest ih => exact .slide (hsub _ hp _ mem) eps (ih (hclosed _ hp _ mem))
  | read mem acc rest ih => exact .read (hsub _ hp _ mem) acc (ih (hclosed _ hp _ mem))

theorem reads_within (hclosed : ∀ p ∈ S, ∀ e ∈ g.edges p, e.target ∈ S)
    (hsame : ∀ p ∈ S, ∀ e, e ∈ g'.edges p ↔ e ∈ g.edges p) {p q : Nat} {u : List β}
    (hp : p ∈ S) : g'.Reads see p u q ↔ g.Reads see p u q :=
  ⟨fun hr => hr.within (fun p hp e he => hclosed p hp e ((hsame p hp e).1 he))
    (fun p hp e => (hsame p hp e).1) hp,
    fun hr => hr.within hclosed (fun p hp e => (hsame p hp e).2) hp⟩

theorem Region.reads_grows (hT : g.Region T) (h : Grows S g g') (hdisj : Disjoint S T)
    {p q : Nat} {u : List β} (hp : p ∈ T) : g'.Reads see p u q ↔ g.Reads see p u q :=
  reads_within hT.closed (fun p hp e => h.edges p (hT.lt p hp)
    (fun hS => Set.disjoint_left.1 hdisj hS hp) e) hp

/-- an edge and a path behind it show a word on the way to `q` -/
def Crosses (g : Graph) (d : Edge) (w : List Nat) (q : Nat) : Prop :=
  d.isEpsilon = true ∧ g.Leads d.target w q ∨
    ∃ sym v, w = sym :: v ∧ d.accepts sym = true ∧ g.Leads d.target v q

theorem Crosses.leads {p q : Nat} {d : Edge} {w : List Nat} (hd : d ∈ g.edges p)
    (h : g.Crosses d w q) : g.Leads p w q := by
  rcases h with ⟨heps, h⟩ | ⟨sym, v, rfl, hacc, h⟩
  · exact .slide hd heps h
  · exact Leads.read hd hacc h

theorem leads_iff_crosses {p q : Nat} (hne : p ≠ q) {w : List Nat} :
    g.Leads p w q ↔ ∃ d ∈ g.edges p, g.Crosses d w q := by
  constructor
  · intro h
    cases h with
    | here => exact absurd rfl hne
    | slide mem eps rest => exact ⟨_, mem, .inl ⟨eps, rest⟩⟩
    | read mem acc rest => exact ⟨_, mem, .inr ⟨_, _, rfl, acc, rest⟩⟩
  · rintro ⟨d, hd, h⟩
    exact h.leads hd

theorem crosses_congr {d : Edge} {w : List Nat} {q : Nat}
    (h : ∀ u, g'.Leads d.target u q ↔ g.Leads d.target u q) :
    g'.Crosses d w q ↔ g.Crosses d w q := by
  simp only [Crosses, h]

theorem crosses_of_isEpsilon {d : Edge} (hd : d.isEpsilon = true) {w : List Nat} {q : Nat} :
    g.Crosses d w q ↔ g.Leads d.target w q := by
  constructor
  · rintro (⟨-, h⟩ | ⟨sym, v, -, hacc, -⟩)
    · exact h
    · rw [accepts_of_isEpsilon hd] at hacc
      exact absurd hacc Bool.false_ne_true
  · exact fun h => .inl ⟨hd, h⟩

/-- a path from inside a region that has new edges stays inside as before or comes through one
of these edges, the gates -/
theorem leads_gates (hclosed : ∀ p ∈ S, ∀ e ∈ g.edges p, e.target ∈ S) {G : Nat → Edge → Prop}
    (hedges : ∀ p ∈ S, ∀ e, e ∈ g'.edges p ↔ e ∈ g.edges p ∨ G p e) {p q : Nat} {w : List Nat}
    (hp : p ∈ S) : g'.Leads p w q ↔ g.Leads p w q ∨ ∃ x ∈ S, ∃ d, G x d ∧ ∃ u v, w = u ++ v ∧
      g.Leads p u x ∧ g'.Crosses d v q := by
  have hsub : ∀ p ∈ S, ∀ e ∈ g.edges p, e ∈ g'.edges p :=
    fun p hp e he => (hedges p hp e).2 (.inl he)
  constructor
  · intro h
    induction h with
    | here p => exact .inl (.here p)
    | slide mem eps rest ih =>
      rcases (hedges _ hp _).1 mem with hold | hgate
      · rcases ih (hclosed _ hp _ hold) with h | ⟨x, hx, d, hd, u, v, hw, h₁, h₂⟩
        · exact .inl (.slide hold eps h)
        · exact .inr ⟨x, hx, d, hd, u, v, hw, .slide hold eps h₁, h₂⟩
      · exact .inr ⟨_, hp, _, hgate, [], _, rfl, .here _, .inl ⟨eps, rest⟩⟩
    | @read p q sym e w mem acc rest ih =>
      rcases (hedges _ hp _).1 mem with hold | hgate
      · rcases ih (hclosed _ hp _ hold) with h | ⟨x, hx, d, hd, u, v, hw, h₁, h₂⟩
        · exact .inl (.read hold acc h)
        · refine .inr ⟨x, hx, d, hd, sym :: u, v, ?_, Leads.read hold acc h₁, h₂⟩
          rw [hw, List.cons_append]
          rfl
      · exact .inr ⟨_, hp, _, hgate, [], _, rfl, .here _, .inr ⟨sym, w, rfl, acc, rest⟩⟩
  · rintro (h | ⟨x, hx, d, hd, u, v, rfl, h₁, h₂⟩)
    · exact h.within hclosed hsub hp
    · exact (h₁.within hclosed hsub hp).append (h₂.leads ((hedges x hx d).2 (.inr hd)))

end Graph

namespace Fragment

open SpanSearch.Graph

variable {g g' g'' : Graph} {a b : Fragment} {S T : Set Nat} {L L' : Language Nat}

/-- the words that lead from the entry to the exit -/
def words (a : Fragment) (g : Graph) : Language Nat :=
  {w | ∃ x, a.exit = some x ∧ g.Leads a.entry w x}

theorem mem_words {w : List Nat} :
    w ∈ a.words g ↔ ∃ x, a.exit = some x ∧ g.Leads a.entry w x := Iff.rfl

theorem words_of_exit {x : Nat} (hx : a.exit = some x) {w : List Nat} :
    w ∈ a.words g ↔ g.Leads a.entry w x := by
  rw [mem_words, hx]
  exact ⟨fun ⟨y, hy, h⟩ => Option.some.inj hy ▸ h, fun h => ⟨x, rfl, h⟩⟩

theorem words_of_no_exit (hx : a.exit = none) : a.words g = 0 := by
  ext w
  rw [mem_words, hx]
  exact ⟨fun ⟨y, hy, _⟩ => absurd hy (Option.some_ne_none y).symm, fun h => absurd h id⟩

/-- entry and exit of a fragment lie in a region -/
structure Lives (a : Fragment) (g : Graph) (S : Set Nat) : Prop extends g.Region S where
  entry : a.entry ∈ S
  exit : ∀ x, a.exit = some x → x ∈ S

theorem Lives.grows (ha : a.Lives g T) (h : Grows S g g') (hdisj : Disjoint S T) :
    a.Lives g' T where
  toRegion := ha.toRegion.grows h hdisj
  entry := ha.entry
  exit := ha.exit

theorem Lives.words_grows (ha : a.Lives g T) (h : Grows S g g') (hdisj : Disjoint S T) :
    a.words g' = a.words g := by
  ext w
  rw [mem_words, mem_words]
  refine exists_congr fun x => and_congr_right fun _ => ?_
  exact ha.toRegion.reads_grows h hdisj ha.entry

theorem Lives.union (ha : a.Lives g S) (hT : g.Region T) : a.Lives g (S ∪ T) where
  toRegion := ha.toRegion.union hT
  entry := .inl ha.entry
  exit := fun x hx => .inl (ha.exit x hx)

/-- a step that works on the region `S` results in a fragment for the words `L` -/
structure Makes (S : Set Nat) (L : Language Nat) (g : Graph) (r : Fragment × Graph) : Prop where
  grows : Grows S g r.2
  lives : r.1.Lives r.2 (S ∪ fresh g r.2)
  words : r.1.words r.2 = L

theorem Makes.closed {r : Fragment × Graph} (h : Makes S L g r) (hc : g.Closed) : r.2.Closed :=
  h.grows.closed hc fun p hp e he => h.lives.lt _ (h.lives.closed p hp e he)

theorem Makes.of_grows {r : Fragment × Graph} (h : Grows S g g')
    (h' : Makes (S ∪ fresh g g') L g' r) : Makes S L g r where
  grows := h.trans h'.grows (Set.Subset.refl _)
  lives := by
    have hlives := h'.lives
    rw [Set.union_assoc, fresh_union h h'.grows] at hlives
    exact hlives
  words := h'.words

/-- a step leaves other regions as they are -/
theorem Makes.union {r : Fragment × Graph} (h : Makes S L g r) (hT : g.Region T)
    (hdisj : Disjoint S T) : Makes (S ∪ T) L g r where
  grows := h.grows.mono Set.subset_union_left
  lives := by
    have hlives := h.lives.union (hT.grows h.grows hdisj)
    rw [Set.union_right_comm] at hlives
    exact hlives
  words := h.words

/-- a step that leaves everything as it is -/
theorem Lives.makes (ha : a.Lives g S) : Makes S (a.words g) g (a, g) where
  grows := Grows.refl S g
  lives := by
    rw [fresh_self, Set.union_empty]
    exact ha
  words := rfl

end Fragment
end SpanSearch
