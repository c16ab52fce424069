import SpanSearch.Fragment.Ranges
import SpanSearch.Proofs.Layers

/-!
# What is laid out on its own and between two states of a graph

What the steps of a construction add between two states does not depend on what else there is.
They can be run on a graph of two states alone, and that graph is then found again, under new
names, in what they make of any graph.  Neither need the two states differ there nor the second
of them be without edges.

* `Graph.spot`             where the states of the small graph come to lie
* `Graph.Inlaid`           one graph is another one with a small graph laid in
* `Build.Relocates`        two steps do the same in the small graph and around it
* `Fragment.relocates_layOut` laying out an interval
-/

namespace SpanSearch
namespace Graph

variable {g h g' : Graph} {s e p c : Nat}

theorem edges_addEdge_of_size_le {x : Nat} (hx : g.size ≤ x) (d : Edge) (p : Nat) :
    (g.addEdge x d).edges p = g.edges p := by
  by_cases hp : x = p
  · subst hp
    rw [edges_of_size_le hx, edges_of_size_le (by rwa [size_addEdge])]
  · exact edges_addEdge_ne d hp

/-- where the states of a graph come to lie that is laid in between `s` and `e`: its first two
there, the others behind all states of `g` -/
def spot (g : Graph) (s e : Nat) : Nat → Nat
  | 0 => s
  | 1 => e
  | c + 2 => g.size + c

theorem spot_cases (g : Graph) (s e c : Nat) : c = 0 ∧ g.spot s e c = s ∨
    c = 1 ∧ g.spot s e c = e ∨ 2 ≤ c ∧ g.spot s e c + 2 = g.size + c := by
  rcases c with _ | _ | c
  · exact .inl ⟨rfl, rfl⟩
  · exact .inr (.inl ⟨rfl, rfl⟩)
  · exact .inr (.inr ⟨Nat.le_add_left 2 c, rfl⟩)

/-- an edge of the small graph in its new place -/
def drawn (g : Graph) (s e : Nat) (d : Edge) : Edge := d.withTarget (g.spot s e d.target)

/-- the edges of the small graph that come to leave a state -/
def placed (g : Graph) (s e : Nat) (h : Graph) (p : Nat) : Set Edge :=
  {d | ∃ c, g.spot s e c = p ∧ ∃ d' ∈ h.edges c, d = g.drawn s e d'}

theorem placed_congr (hedges : ∀ c, g'.edges c = h.edges c) :
    g.placed s e g' p = g.placed s e h p := by
  unfold placed
  simp only [hedges]

theorem mem_placed_addEdge {x : Nat} (hx : x < h.size) {d d' : Edge} :
    d ∈ g.placed s e (h.addEdge x d') p ↔
      d ∈ g.placed s e h p ∨ g.spot s e x = p ∧ d = g.drawn s e d' := by
  constructor
  · rintro ⟨c, hc, b, hb, hd⟩
    rcases (mem_edges_addEdge hx).1 hb with hb | ⟨rfl, rfl⟩
    · exact .inl ⟨c, hc, b, hb, hd⟩
    · exact .inr ⟨hc, hd⟩
  · rintro (⟨c, hc, b, hb, hd⟩ | ⟨hc, hd⟩)
    · exact ⟨c, hc, b, (mem_edges_addEdge hx).2 (.inl hb), hd⟩
    · exact ⟨x, hc, d', (mem_edges_addEdge hx).2 (.inr ⟨rfl, rfl⟩), hd⟩

/-- `g'` is `g` with the graph `h` laid in between `s` and `e` -/
structure Inlaid (g : Graph) (s e : Nat) (h g' : Graph) : Prop where
  two : 2 ≤ h.size
  size : g'.size + 2 = g.size + h.size
  start : g'.start = g.start
  accepting : ∀ p, g'.isAccepting p = g.isAccepting p
  silent : ∀ p, g'.isSilent p = g.isSilent p
  edges : ∀ p, ∃ new, g'.edges p = g.edges p ++ new ∧ ∀ d, d ∈ new ↔ d ∈ g.placed s e h p
  symbols : ∀ c, ∀ d ∈ h.edges c, ∃ lo hi t, d = Edge.symbols lo hi t

def pair : Graph := Fragment.twoStates empty

theorem edges_pair (p : Nat) : pair.edges p = [] := by
  rw [pair, Fragment.edges_twoStates, edges_of_size_le (Nat.zero_le p)]

theorem inlaid_pair (g : Graph) (s e : Nat) : Inlaid g s e pair g where
  two := Nat.le_refl 2
  size := rfl
  start := rfl
  accepting := fun _ => rfl
  silent := fun _ => rfl
  edges := fun p => by
    refine ⟨[], (List.append_nil _).symm, fun d => iff_of_false List.not_mem_nil ?_⟩
    rintro ⟨c, -, d', hd', -⟩
    rw [edges_pair] at hd'
    exact List.not_mem_nil hd'
  symbols := fun c d hd => absurd (edges_pair c ▸ hd) List.not_mem_nil

namespace Inlaid

variable (h₀ : Inlaid g s e h g')
include h₀

theorem spot_size : g.spot s e h.size = g'.size := by
  have := h₀.two
  have := h₀.size
  have := spot_cases g s e h.size
  omega

theorem size_le : g.size ≤ g'.size := by
  have := h₀.two
  have := h₀.size
  omega

theorem spot_lt_iff (hs : s < g.size) (he : e < g.size) : g.spot s e c < g'.size ↔ c < h.size := by
  have := h₀.two
  have := h₀.size
  have := spot_cases g s e c
  omega

theorem mem_edges {d : Edge} : d ∈ g'.edges p ↔ d ∈ g.edges p ∨ d ∈ g.placed s e h p := by
  obtain ⟨new, hnew, hmem⟩ := h₀.edges p
  rw [hnew, List.mem_append, hmem]

theorem addState : Inlaid g s e h.addState.2 g'.addState.2 where
  two := by
    rw [size_addState]
    exact Nat.le_succ_of_le h₀.two
  size := by
    have := h₀.size
    rw [size_addState, size_addState]
    omega
  start := h₀.start
  accepting := fun p => by rw [isAccepting, state_addState, ← h₀.accepting, isAccepting]
  silent := fun p => by rw [isSilent, state_addState, ← h₀.silent, isSilent]
  edges := fun p => by
    rw [placed_congr edges_addState, edges_addState]
    exact h₀.edges p
  symbols := fun c d hd => h₀.symbols c d (edges_addState (g := h) c ▸ hd)

theorem addEdge (hs : s < g.size) (he : e < g.size) (x lo hi t : Nat) :
    Inlaid g s e (h.addEdge x (Edge.symbols lo hi t))
      (g'.addEdge (g.spot s e x) (Edge.symbols lo hi (g.spot s e t))) where
  two := by
    rw [size_addEdge]
    exact h₀.two
  size := by
    rw [size_addEdge, size_addEdge]
    exact h₀.size
  start := h₀.start
  accepting := fun p => by rw [isAccepting_addEdge, h₀.accepting]
  silent := fun p => by rw [isSilent_addEdge, h₀.silent]
  edges := fun p => by
    obtain ⟨new, hnew, hmem⟩ := h₀.edges p
    have hdrawn : g.drawn s e (Edge.symbols lo hi t) = Edge.symbols lo hi (g.spot s e t) := rfl
    rcases Nat.lt_or_ge x h.size with hx | hx
    · have hx' := (h₀.spot_lt_iff hs he).2 hx
      simp only [mem_placed_addEdge hx, ← hmem, hdrawn]
      by_cases hp : g.spot s e x = p
      · subst hp
        refine ⟨new ++ [Edge.symbols lo hi (g.spot s e t)], ?_, fun d => ?_⟩
        · rw [edges_addEdge_self _ hx', hnew, List.append_assoc]
        · rw [List.mem_append, List.mem_singleton]
          exact or_congr_right (and_iff_right rfl).symm
      · refine ⟨new, ?_, fun d => (or_iff_left fun h => hp h.1).symm⟩
        rw [edges_addEdge_ne _ hp, hnew]
    · have hx' := Nat.le_of_not_lt fun hlt => Nat.not_lt_of_le hx ((h₀.spot_lt_iff hs he).1 hlt)
      rw [placed_congr (edges_addEdge_of_size_le hx _), edges_addEdge_of_size_le hx']
      exact ⟨new, hnew, hmem⟩
  symbols := fun c d hd => by
    rcases Nat.lt_or_ge x h.size with hx | hx
    · rcases (mem_edges_addEdge hx).1 hd with hd | ⟨-, rfl⟩
      · exact h₀.symbols c d hd
      · exact ⟨lo, hi, t, rfl⟩
    · rw [edges_addEdge_of_size_le hx] at hd
      exact h₀.symbols c d hd

end Inlaid
end Graph

/-! ## steps of a construction -/

namespace Build

open SpanSearch.Graph

variable {g : Graph} {s e : Nat} {α α' β β' : Type}

/-- the second step does around the small graph what the first does in it, and their results
correspond -/
def Relocates (g : Graph) (s e : Nat) (rename : α → α') (m : Build α) (m' : Build α') : Prop :=
  ∀ h g', Inlaid g s e h g' → (m' g').1 = rename (m h).1 ∧ Inlaid g s e (m h).2 (m' g').2

theorem relocates_pure (rename : α → α') (x : α) :
    Relocates g s e rename (pure x) (pure (rename x)) := fun _ _ h₀ => ⟨rfl, h₀⟩

theorem Relocates.bind {rename : α → α'} {rename' : β → β'} {m : Build α} {m' : Build α'}
    {k : α → Build β} {k' : α' → Build β'} (h : Relocates g s e rename m m')
    (hk : ∀ x, Relocates g s e rename' (k x) (k' (rename x))) :
    Relocates g s e rename' (m >>= k) (m' >>= k') := by
  intro small g' h₀
  obtain ⟨hresult, h₁⟩ := h small g' h₀
  show (k' (m' g').1 (m' g').2).1 = _ ∧ Inlaid g s e _ (k' (m' g').1 (m' g').2).2
  rw [hresult]
  exact hk _ _ _ h₁

theorem relocates_state : Relocates g s e (g.spot s e) Build.state Build.state :=
  fun _ _ h₀ => ⟨h₀.spot_size.symm, h₀.addState⟩

theorem relocates_range (hs : s < g.size) (he : e < g.size) (x lo hi t : Nat) :
    Relocates g s e id (Build.range x lo hi t)
      (Build.range (g.spot s e x) lo hi (g.spot s e t)) :=
  fun _ _ h₀ => ⟨rfl, h₀.addEdge hs he x lo hi t⟩

section
variable {rename : α → α'} {m n : Build α} {m' n' : Build α'}

theorem Relocates.after_range (h : Relocates g s e rename m m') (hs : s < g.size) (he : e < g.size)
    (x lo hi t : Nat) : Relocates g s e rename (Build.range x lo hi t >>= fun _ => m)
      (Build.range (g.spot s e x) lo hi (g.spot s e t) >>= fun _ => m') :=
  (relocates_range hs he x lo hi t).bind fun _ => h

theorem Relocates.ite (h : Relocates g s e rename m m') (hn : Relocates g s e rename n n')
    (c : Prop)
    [Decidable c] : Relocates g s e rename (if c then m else n) (if c then m' else n') := by
  split
  · exact h
  · exact hn

end
end Build

namespace Frontier

open SpanSearch.Graph Build

variable {g : Graph} {s e : Nat} {lo hi f t : Nat}

def rename (names : Nat → Nat) : Frontier → Frontier
  | .tied x => .tied (names x)
  | .parted low mid high => .parted (names low) (mid.map names) (names high)

section
variable (hs : s < g.size) (he : e < g.size)
include hs he

theorem relocates_advanceTied (x f t : Nat) : Relocates g s e (rename (g.spot s e))
    (advanceTied x f t) (advanceTied (g.spot s e x) f t) := by
  apply Relocates.ite
  · apply relocates_state.bind
    intro next
    exact (relocates_pure _ (Frontier.tied next)).after_range hs he x f f next
  · apply relocates_state.bind
    intro low
    apply relocates_state.bind
    intro high
    refine Relocates.after_range (Relocates.after_range (Relocates.ite ?_ ?_ _) hs he x t t high)
      hs he x f f low
    · apply relocates_state.bind
      intro mid
      exact (relocates_pure _ (Frontier.parted low (some mid) high)).after_range hs he x _ _ mid
    · exact relocates_pure _ (Frontier.parted low none high)

theorem relocates_advanceParted (low : Nat) (mid : Option Nat) (high f t : Nat) :
    Relocates g s e (rename (g.spot s e)) (advanceParted lo hi low mid high f t)
      (advanceParted lo hi (g.spot s e low) (mid.map (g.spot s e)) (g.spot s e high) f t) := by
  unfold advanceParted
  rw [Option.isSome_map]
  apply relocates_state.bind
  intro nextLow
  apply relocates_state.bind
  intro nextHigh
  refine Relocates.after_range
    (Relocates.after_range (Relocates.ite ?_ ?_ _) hs he high t t nextHigh)
    hs he low f f nextLow
  · apply relocates_state.bind
    intro nextMid
    have hend := relocates_pure (g := g) (s := s) (e := e) (rename (g.spot s e))
      (Frontier.parted nextLow (some nextMid) nextHigh)
    have hhigh := (hend.after_range hs he high lo (t - 1) nextMid).ite hend (lo < t)
    cases mid with
    | none => exact (hhigh.after_range hs he low (f + 1) hi nextMid).ite hhigh (f < hi)
    | some m =>
      have hmid := hhigh.after_range hs he m lo hi nextMid
      exact (hmid.after_range hs he low (f + 1) hi nextMid).ite hmid (f < hi)
  · exact relocates_pure _ (Frontier.parted nextLow none nextHigh)

theorem relocates_advance (front : Frontier) (f t : Nat) : Relocates g s e (rename (g.spot s e))
    (advance lo hi front f t) (advance lo hi (front.rename (g.spot s e)) f t) := by
  cases front with
  | tied x => exact relocates_advanceTied hs he x f t
  | parted low mid high => exact relocates_advanceParted hs he low mid high f t

theorem relocates_close (front : Frontier) (f t last : Nat) : Relocates g s e id
    (close lo hi front f t last)
    (close lo hi (front.rename (g.spot s e)) f t (g.spot s e last)) := by
  cases front with
  | tied x => exact relocates_range hs he x f t last
  | parted low mid high =>
    have hhigh := relocates_range hs he high lo t last
    cases mid with
    | none => exact hhigh.after_range hs he low f hi last
    | some m => exact (hhigh.after_range hs he m lo hi last).after_range hs he low f hi last

end
end Frontier

namespace Fragment

open SpanSearch.Graph Build

variable {g : Graph} {s e lo hi : Nat}

theorem relocates_layOut (hs : s < g.size) (he : e < g.size) (front : Frontier) (last : Nat)
    (rest : List (Nat × Nat)) : Relocates g s e id (layOut lo hi last front rest)
      (layOut lo hi (g.spot s e last) (front.rename (g.spot s e)) rest) := by
  induction rest generalizing front with
  | nil => exact relocates_pure id ()
  | cons r rest ih =>
    obtain ⟨f, t⟩ := r
    cases rest with
    | nil => exact Frontier.relocates_close hs he front f t last
    | cons r' rest => exact (Frontier.relocates_advance hs he front f t).bind ih

end Fragment
end SpanSearch
