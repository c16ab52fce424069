import SpanSearch.Fragment.Ranges
import SpanSearch.Proofs.Composing
import SpanSearch.Proofs.Intervals

/-!
# Intervals of byte sequences as ways

An interval is laid out in layers, one for each byte.  A layer adds states and edges into them
from the states of the layer before, and what is read from these is known once the layers
behind them are.

* `Graph.Layer`      a step adds states and edges from some states
* `Graph.Lays`       a step lays ways from several states to one
* `Layer.lays`       a layer in front of other layers
* `Frontier.Shows`   what is read from the states of a frontier
* `lays_layOut`, `connects_layOut`   an interval is laid out as its bounds say
-/

namespace SpanSearch
namespace Graph

variable {g g₁ g₂ : Graph} {P Q : Set Nat} {X : Nat → Edge → Prop} {e : Nat}
  {R R' : Nat → Language Nat → Prop}

/-- the step adds states that nothing leaves, and the edges `X` from the states `P` -/
structure Layer (P : Set Nat) (X : Nat → Edge → Prop) (g g₁ : Graph) : Prop where
  grows : Grows P g g₁
  edges : ∀ p d, d ∈ g₁.edges p ↔ d ∈ g.edges p ∨ X p d
  source : ∀ p d, X p d → p ∈ P

theorem layer_refl (P : Set Nat) (g : Graph) : Layer P (fun _ _ => False) g g where
  grows := Grows.refl P g
  edges := fun _ _ => (or_iff_left id).symm
  source := fun _ _ h => h.elim

theorem Layer.addState (h : Layer P X g g₁) : Layer P X g g₁.addState.2 where
  grows := h.grows.trans (grows_addState P g₁) Set.subset_union_left
  edges := fun p d => by rw [edges_addState, h.edges]
  source := h.source

theorem Layer.addEdge (h : Layer P X g g₁) {x : Nat} (hP : x ∈ P) (hx : x < g₁.size) (d : Edge) :
    Layer P (fun p d' => X p d' ∨ p = x ∧ d' = d) g (g₁.addEdge x d) where
  grows := h.grows.trans (grows_addEdge hP d) Set.subset_union_left
  edges := fun p d' => by rw [mem_edges_addEdge hx, h.edges, or_assoc]
  source := by
    rintro p d' (hp | ⟨rfl, -⟩)
    · exact h.source p d' hp
    · exact hP

theorem Layer.addEdgeIf (h : Layer P X g g₁) {x : Nat} (hP : x ∈ P) (hx : x < g₁.size) (d : Edge)
    (c : Prop) [Decidable c] : Layer P (fun p d' => X p d' ∨ c ∧ p = x ∧ d' = d) g
      (if c then g₁.addEdge x d else g₁) := by
  split
  · next hc =>
    simp only [hc, true_and]
    exact h.addEdge hP hx d
  · next hc =>
    simp only [hc, false_and, or_false]
    exact h

/-- the step lays ways from several states to `e`, and for each of the states these show the
words that `R` says -/
structure Lays (R : Nat → Language Nat → Prop) (e : Nat) (g g₁ : Graph) : Prop where
  grows : Grows {p | ∃ L, R p L} g g₁
  inner : ∀ p ∈ fresh g g₁, ∀ d ∈ g₁.edges p, d.target ∈ insert e (fresh g g₁)
  outer : ∀ p L, R p L → ∃ X : Edge → Prop, (∀ d, d ∈ g₁.edges p ↔ d ∈ g.edges p ∨ X d) ∧
    (∀ d, X d → d.target ∈ insert e (fresh g g₁)) ∧ ∀ w, w ∈ L ↔ ∃ d, X d ∧ g₁.Crosses d w e

theorem Lays.connects {s : Nat} {L : Language Nat}
    (h : Lays (fun p L' => p = s ∧ L' = L) e g g₁) : Connects ∅ s e L g g₁ where
  grows := h.grows.mono (by
    rintro p ⟨_, rfl, -⟩
    exact .inl rfl)
  inner := by
    rw [Set.empty_union]
    exact h.inner
  outer := by
    rw [Set.empty_union]
    exact h.outer s L ⟨rfl, rfl⟩

theorem Lays.leads (h : Lays R e g g₁) {p : Nat} {L : Language Nat} (hp : R p L)
    (hnone : g.edges p = []) (hne : p ≠ e) {w : List Nat} : g₁.Leads p w e ↔ w ∈ L := by
  obtain ⟨X, hX, -, hwords⟩ := h.outer p L hp
  rw [leads_iff_crosses hne, hwords]
  simp only [hX, hnone, List.not_mem_nil, false_or]

/-- a layer in front of other layers -/
theorem Layer.lays (h : Layer {p | ∃ L, R p L} X g g₁) (h' : Lays R' e g₁ g₂) (he : e < g.size)
    (hold : ∀ p L, R p L → p < g.size) (hnew : ∀ p L, R' p L → p ∈ fresh g g₁)
    (hX : ∀ p d, X p d → d.isEpsilon = false ∧ ∃ L, R' d.target L)
    (hwords : ∀ p L, R p L → ∀ w, w ∈ L ↔ ∃ d, X p d ∧ ∃ sym v L', w = sym :: v ∧
      d.accepts sym = true ∧ R' d.target L' ∧ v ∈ L') : Lays R e g g₂ := by
  have hnone {p : Nat} {L : Language Nat} (hp : R' p L) : g₁.edges p = [] := by
    refine List.eq_nil_iff_forall_not_mem.2 fun d hd => ?_
    have hge := (hnew p L hp).1
    have hnot : ¬ ∃ L, R p L := fun ⟨L, hL⟩ => Nat.not_lt_of_le hge (hold p L hL)
    rcases (h.edges p d).1 hd with hd | hd
    · rw [edges_of_size_le hge] at hd
      exact absurd hd List.not_mem_nil
    · exact hnot (h.source p d hd)
  have hfresh := fresh_union h.grows h'.grows
  have hinto : ∀ p ∈ insert e (fresh g₁ g₂), p ∈ insert e (fresh g g₂) := by
    rw [← hfresh]
    rintro p (hp | hp)
    · exact .inl hp
    · exact .inr (.inr hp)
  have hleads {p : Nat} {L : Language Nat} (hp : R' p L) {w : List Nat} :
      g₂.Leads p w e ↔ w ∈ L :=
    h'.leads hp (hnone hp) fun heq => Nat.not_lt_of_le (hnew p L hp).1 (heq ▸ he)
  refine ⟨?_, fun p hp d hd => ?_, fun p L hp => ⟨X p, fun d => ?_, fun d hd => ?_, fun w => ?_⟩⟩
  · refine h.grows.trans h'.grows ?_
    rintro p ⟨L, hp⟩
    exact .inr (hnew p L hp)
  · rw [← hfresh] at hp
    rcases hp with hp | hp
    · by_cases hR : ∃ L, R' p L
      · obtain ⟨L, hL⟩ := hR
        obtain ⟨Y, hY, hYin, -⟩ := h'.outer p L hL
        rw [hY, hnone hL] at hd
        exact hinto _ (hYin d (hd.resolve_left List.not_mem_nil))
      · rw [h'.grows.edges p hp.2 hR, h.edges, edges_of_size_le hp.1] at hd
        rcases hd with hd | hd
        · exact absurd hd List.not_mem_nil
        · obtain ⟨L, hL⟩ := h.source p d hd
          exact absurd (hold p L hL) (Nat.not_lt_of_le hp.1)
    · exact hinto _ (h'.inner p hp d hd)
  · have hlt := hold p L hp
    rw [h'.grows.edges p (Nat.lt_of_lt_of_le hlt h.grows.size) fun ⟨L', hL'⟩ =>
      Nat.not_lt_of_le (hnew p L' hL').1 hlt, h.edges]
  · obtain ⟨-, L', hL'⟩ := hX p d hd
    rw [← hfresh]
    exact .inr (.inl (hnew _ L' hL'))
  · rw [hwords p L hp]
    refine exists_congr fun d => and_congr_right fun hd => ?_
    constructor
    · rintro ⟨sym, v, L', rfl, hacc, hR, hv⟩
      exact .inr ⟨sym, v, rfl, hacc, (hleads hR).2 hv⟩
    · rintro (⟨heps, -⟩ | ⟨sym, v, rfl, hacc, hv⟩)
      · rw [(hX p d hd).1] at heps
        exact absurd heps Bool.false_ne_true
      · obtain ⟨-, L', hL'⟩ := hX p d hd
        exact ⟨sym, v, L', rfl, hacc, hL', (hleads hL').1 hv⟩

/-- the last layer leads to `e` -/
theorem Layer.lays_last (h : Layer {p | ∃ L, R p L} X g g₁) (hsize : g₁.size = g.size)
    (he : g.edges e = []) (hne : ∀ p L, R p L → p ≠ e)
    (hX : ∀ p d, X p d → d.isEpsilon = false ∧ d.target = e)
    (hwords : ∀ p L, R p L → ∀ w, w ∈ L ↔ ∃ d, X p d ∧ ∃ sym, w = [sym] ∧ d.accepts sym = true) :
    Lays R e g g₁ := by
  have hexit : g₁.edges e = [] := by
    refine List.eq_nil_iff_forall_not_mem.2 fun d hd => ?_
    rcases (h.edges e d).1 hd with hd | hd
    · exact absurd (he ▸ hd) List.not_mem_nil
    · obtain ⟨L, hL⟩ := h.source e d hd
      exact hne e L hL rfl
  refine ⟨h.grows, fun p hp => ?_, fun p L hp => ⟨X p, h.edges p, fun d hd => ?_, fun w => ?_⟩⟩
  · rw [mem_fresh, hsize] at hp
    exact absurd hp.2 (Nat.not_lt_of_le hp.1)
  · exact .inl (hX p d hd).2
  · rw [hwords p L hp]
    refine exists_congr fun d => and_congr_right fun hd => ?_
    obtain ⟨hsym, htarget⟩ := hX p d hd
    rw [Crosses, hsym, htarget]
    constructor
    · rintro ⟨sym, rfl, hacc⟩
      exact .inr ⟨sym, [], rfl, hacc, .here e⟩
    · rintro (⟨heps, -⟩ | ⟨sym, v, rfl, hacc, hv⟩)
      · exact absurd heps Bool.false_ne_true
      · obtain ⟨rfl, -⟩ := hv.eq_of_edges_eq_nil hexit
        exact ⟨sym, rfl, hacc⟩

theorem accepts_symbols {a b t sym : Nat} :
    (Edge.symbols a b t).accepts sym = true ↔ a ≤ sym ∧ sym ≤ b := by
  simp [Edge.symbols, Edge.accepts]

end Graph

namespace Frontier

open SpanSearch.Graph Fragment SpanSearch.Interval

variable {g g₂ : Graph} {lo hi s f t low high e : Nat} {mid : Option Nat}
  {rest : List (Nat × Nat)} {v : List Nat}

/-! ## the states of a frontier -/

/-- what is read from the states of a frontier as far as the bytes `rest` of the bounds go -/
def Shows (lo hi : Nat) (rest : List (Nat × Nat)) : Frontier → Nat → Language Nat → Prop
  | .tied s, p, L => p = s ∧ L = Interval.between lo hi rest
  | .parted low mid high, p, L => p = low ∧ L = above lo hi (rest.map Prod.fst) ∨
      mid = some p ∧ L = freely lo hi rest.length ∨
      p = high ∧ L = below lo hi (rest.map Prod.snd)

def states : Frontier → Set Nat
  | .tied s => {s}
  | .parted low mid high => {p | p = low ∨ mid = some p ∨ p = high}

theorem exists_shows {front : Frontier} {p : Nat} :
    (∃ L, front.Shows lo hi rest p L) ↔ p ∈ front.states := by
  cases front with
  | tied s => simp [Shows, states]
  | parted low mid high => simp [Shows, states, exists_or]

/-- the states of a frontier are different from each other -/
def Apart : Frontier → Prop
  | .tied _ => True
  | .parted low mid high => low ≠ high ∧ mid ≠ some low ∧ mid ≠ some high

/-- the bytes of the bounds are ones that a frontier can go on with -/
def Takes (lo hi : Nat) (rest : List (Nat × Nat)) : Frontier → Prop
  | .tied _ => Ordered rest ∧ ∀ r ∈ rest.tail, (lo ≤ r.1 ∧ r.1 ≤ hi) ∧ lo ≤ r.2 ∧ r.2 ≤ hi
  | .parted _ _ _ => ∀ r ∈ rest, (lo ≤ r.1 ∧ r.1 ≤ hi) ∧ lo ≤ r.2 ∧ r.2 ≤ hi

theorem shows_tied : (∃ L, (Frontier.tied s).Shows lo hi rest s L ∧ v ∈ L) ↔
    v ∈ Interval.between lo hi rest := by
  simp [Shows]

theorem shows_low (h : (Frontier.parted low mid high).Apart) :
    (∃ L, (Frontier.parted low mid high).Shows lo hi rest low L ∧ v ∈ L) ↔
      v ∈ above lo hi (rest.map Prod.fst) := by
  obtain ⟨hne, hlow, -⟩ := h
  simp [Shows, hne, hlow]

theorem shows_mid {m : Nat} (h : (Frontier.parted low (some m) high).Apart) :
    (∃ L, (Frontier.parted low (some m) high).Shows lo hi rest m L ∧ v ∈ L) ↔
      v ∈ freely lo hi rest.length := by
  obtain ⟨-, hlow, hhigh⟩ := h
  have hlow' : m ≠ low := fun h => hlow (congrArg some h)
  have hhigh' : m ≠ high := fun h => hhigh (congrArg some h)
  simp [Shows, hlow', hhigh']

theorem shows_high (h : (Frontier.parted low mid high).Apart) :
    (∃ L, (Frontier.parted low mid high).Shows lo hi rest high L ∧ v ∈ L) ↔
      v ∈ below lo hi (rest.map Prod.snd) := by
  obtain ⟨hne, -, hhigh⟩ := h
  simp [Shows, hne.symm, hhigh]

/-! ## one byte further -/

/-- the two states that follow the bounds, and the edges into them -/
def parting (g : Graph) (low high f t : Nat) : Graph :=
  ((twoStates g).addEdge low (Edge.symbols f f g.size)).addEdge high
    (Edge.symbols t t (second g))

theorem size_parting (g : Graph) (low high f t : Nat) :
    (parting g low high f t).size = g.size + 2 := by
  rw [parting, size_addEdge, size_addEdge, size_twoStates]

theorem layer_parting {P : Set Nat} (hlow : low ∈ P) (hhigh : high ∈ P)
    (hlt : low < g.size) (hlt' : high < g.size) :
    Layer P (fun p d => p = low ∧ d = Edge.symbols f f g.size ∨
      p = high ∧ d = Edge.symbols t t (second g)) g (parting g low high f t) := by
  have h := (layer_refl P g).addState.addState
  have h' := (h.addEdge hlow (x := low) (by rw [size_addState, size_addState]; omega)
    (Edge.symbols f f g.size)).addEdge hhigh
    (by rw [size_addEdge, size_addState, size_addState]; omega) (Edge.symbols t t (second g))
  simp only [false_or] at h'
  exact h'

theorem advanceTied_same (s f : Nat) (g : Graph) : advanceTied s f f g =
    (.tied g.size, g.addState.2.addEdge s (Edge.symbols f f g.size)) := by
  rw [advanceTied, if_pos rfl]
  rfl

theorem advanceTied_parted (hne : f ≠ t) (s : Nat) (g : Graph) : advanceTied s f t g =
    (.parted g.size (if 2 ≤ t - f then some (parting g s s f t).size else none) (second g),
      if 2 ≤ t - f then (parting g s s f t).addState.2.addEdge s
        (Edge.symbols (f + 1) (t - 1) (parting g s s f t).size) else parting g s s f t) := by
  rw [advanceTied, if_neg hne]
  by_cases h : 2 ≤ t - f
  · simp only [if_pos h]
    rfl
  · simp only [if_neg h]
    rfl

/-- the edges into the state between the bounds -/
def widened (g : Graph) (lo hi low : Nat) (mid : Option Nat) (high f t : Nat) : Graph :=
  let new := g.size
  let g := g.addState.2
  let g := if f < hi then g.addEdge low (Edge.symbols (f + 1) hi new) else g
  let g := match mid with
    | none => g
    | some m => g.addEdge m (Edge.symbols lo hi new)
  if lo < t then g.addEdge high (Edge.symbols lo (t - 1) new) else g

theorem advanceParted_eq (lo hi low : Nat) (mid : Option Nat) (high f t : Nat) (g : Graph) :
    advanceParted lo hi low mid high f t g =
      (.parted g.size (if f < hi ∨ mid.isSome ∨ lo < t then
          some (parting g low high f t).size else none) (second g),
        if f < hi ∨ mid.isSome ∨ lo < t then
          widened (parting g low high f t) lo hi low mid high f t
        else parting g low high f t) := by
  unfold advanceParted widened
  by_cases h : f < hi ∨ mid.isSome ∨ lo < t
  · simp only [if_pos h]
    by_cases hf : f < hi <;> by_cases ht : lo < t <;> cases mid <;> simp only [hf, ht] <;> rfl
  · simp only [if_neg h]
    rfl

theorem layer_widened (lo hi f t : Nat) {P : Set Nat} {X : Nat → Edge → Prop} {g₁ : Graph}
    (h : Layer P X g g₁) (hlow : low ∈ P) (hmid : ∀ m, mid = some m → m ∈ P) (hhigh : high ∈ P)
    (hlt : ∀ p ∈ P, p < g₁.size) :
    Layer P (fun p d => ((X p d ∨ f < hi ∧ p = low ∧ d = Edge.symbols (f + 1) hi g₁.size) ∨
      mid = some p ∧ d = Edge.symbols lo hi g₁.size) ∨
      lo < t ∧ p = high ∧ d = Edge.symbols lo (t - 1) g₁.size) g
      (widened g₁ lo hi low mid high f t) := by
  have hsize (p : Nat) (hp : p ∈ P) : p < g₁.addState.2.size := by
    rw [size_addState]
    exact Nat.lt_succ_of_lt (hlt p hp)
  have h₁ := h.addState.addEdgeIf hlow (hsize low hlow) (Edge.symbols (f + 1) hi g₁.size) (f < hi)
  dsimp only [widened]
  have hsize₁ : (if f < hi then g₁.addState.2.addEdge low (Edge.symbols (f + 1) hi g₁.size)
      else g₁.addState.2).size = g₁.addState.2.size := by
    split
    · exact size_addEdge _ _ _
    · rfl
  generalize (if f < hi then g₁.addState.2.addEdge low (Edge.symbols (f + 1) hi g₁.size)
    else g₁.addState.2) = g₂ at *
  cases mid with
  | none =>
    have h₂ := h₁.addEdgeIf hhigh (hsize₁.symm ▸ hsize high hhigh)
      (Edge.symbols lo (t - 1) g₁.size) (lo < t)
    simp only [reduceCtorEq, false_and, or_false]
    exact h₂
  | some m =>
    have hm := hmid m rfl
    have h₂ := h₁.addEdge hm (hsize₁.symm ▸ hsize m hm) (Edge.symbols lo hi g₁.size)
    have hhigh' : high < (g₂.addEdge m (Edge.symbols lo hi g₁.size)).size := by
      rw [size_addEdge, hsize₁]
      exact hsize high hhigh
    have h₃ := h₂.addEdgeIf hhigh hhigh' (Edge.symbols lo (t - 1) g₁.size) (lo < t)
    simp only [Option.some_inj, eq_comm (a := m)]
    exact h₃

theorem size_widened (lo hi low : Nat) (mid : Option Nat) (high f t : Nat) (g : Graph) :
    (widened g lo hi low mid high f t).size = g.size + 1 := by
  unfold widened
  rw [← size_addState g]
  split <;> split <;> split <;> simp only [size_addEdge]

/-- the states of a frontier are there, and `e` is none of them and is left by nothing -/
structure Stands (front : Frontier) (g : Graph) (e : Nat) : Prop where
  apart : front.Apart
  lt : ∀ p ∈ front.states, p < g.size
  ne : e ∉ front.states
  exit : e < g.size
  edges : g.edges e = []

theorem Stands.layer {front front' : Frontier} {X : Nat → Edge → Prop} {g₁ : Graph}
    (h : front.Stands g e) (hlayer : Layer front.states X g g₁) (hapart : front'.Apart)
    (hnew : ∀ p ∈ front'.states, p ∈ fresh g g₁) : front'.Stands g₁ e where
  apart := hapart
  lt := fun p hp => (hnew p hp).2
  ne := fun he => Nat.not_lt_of_le (hnew e he).1 h.exit
  exit := Nat.lt_of_lt_of_le h.exit hlayer.grows.size
  edges := by
    refine List.eq_nil_iff_forall_not_mem.2 fun d hd => ?_
    have hold := (hlayer.grows.edges e h.exit h.ne d).1 hd
    exact absurd (h.edges ▸ hold) List.not_mem_nil

/-- a layer in front of those that go on from the next frontier -/
theorem Stands.lays {front front' : Frontier} {X : Nat → Edge → Prop} {g₁ : Graph}
    {pairs : List (Nat × Nat)} (h : front.Stands g e) (hlayer : Layer front.states X g g₁)
    (hnew : ∀ p ∈ front'.states, p ∈ fresh g g₁)
    (hX : ∀ p d, X p d → d.isEpsilon = false ∧ d.target ∈ front'.states)
    (hwords : ∀ p L, front.Shows lo hi pairs p L → ([] ∉ L) ∧ ∀ b v, b :: v ∈ L ↔
      ∃ d, X p d ∧ d.accepts b = true ∧ ∃ L', front'.Shows lo hi rest d.target L' ∧ v ∈ L')
    (h' : Lays (front'.Shows lo hi rest) e g₁ g₂) : Lays (front.Shows lo hi pairs) e g g₂ := by
  have hstates : {p | ∃ L, front.Shows lo hi pairs p L} = front.states :=
    Set.ext fun p => exists_shows
  refine Layer.lays (X := X) (hstates ▸ hlayer) h' h.exit
    (fun p L hp => h.lt p (exists_shows.1 ⟨L, hp⟩)) (fun p L hp => hnew p (exists_shows.1 ⟨L, hp⟩))
    (fun p d hd => ⟨(hX p d hd).1, exists_shows.2 (hX p d hd).2⟩) fun p L hp w => ?_
  obtain ⟨hnil, hcons⟩ := hwords p L hp
  cases w with
  | nil =>
    refine iff_of_false hnil ?_
    rintro ⟨d, -, _, _, _, ⟨⟩, -⟩
  | cons b v =>
    rw [hcons]
    refine exists_congr fun d => and_congr_right fun hd => ?_
    constructor
    · rintro ⟨hacc, L', hL', hv⟩
      exact ⟨b, v, L', rfl, hacc, hL', hv⟩
    · rintro ⟨_, _, L', ⟨⟩, hacc, hL', hv⟩
      exact ⟨hacc, L', hL', hv⟩

/-- a step to the next frontier: what it shows is what the frontier before shows after a byte -/
structure Advances (lo hi e : Nat) (front : Frontier) (f t : Nat) (rest : List (Nat × Nat))
    (g : Graph) (r : Frontier × Graph) : Prop where
  stands : r.1.Stands r.2 e
  takes : r.1.Takes lo hi rest
  lays : ∀ g₂, Lays (r.1.Shows lo hi rest) e r.2 g₂ →
    Lays (front.Shows lo hi ((f, t) :: rest)) e g g₂

theorem target_symbols (a b n : Nat) : (Edge.symbols a b n).target = n := rfl

theorem mem_symbols {p q a b n : Nat} {d : Edge} (h : p = q ∧ d = Edge.symbols a b n) :
    d.isEpsilon = false ∧ d.target = n := by
  obtain ⟨-, rfl⟩ := h
  exact ⟨rfl, rfl⟩

theorem le_and_le_iff_eq {a b : Nat} : a ≤ b ∧ b ≤ a ↔ b = a := by omega

theorem advances_same (hs : (Frontier.tied s).Stands g e)
    (ht : (Frontier.tied s).Takes lo hi ((f, f) :: rest)) :
    Advances lo hi e (.tied s) f f rest g (advanceTied s f f g) := by
  rw [advanceTied_same]
  have hlt := hs.lt s rfl
  have hlayer := (layer_refl (Frontier.tied s).states g).addState.addEdge rfl
    (by rw [size_addState]; omega) (Edge.symbols f f g.size)
  simp only [false_or] at hlayer
  have hnew : ∀ p ∈ (Frontier.tied g.size).states,
      p ∈ fresh g (g.addState.2.addEdge s (Edge.symbols f f g.size)) := by
    rintro p rfl
    rw [mem_fresh, size_addEdge, size_addState]
    omega
  refine ⟨hs.layer hlayer trivial hnew, ?_, fun g₂ h => ?_⟩
  · obtain ⟨hord, htails⟩ := ht
    refine ⟨?_, fun r hr => htails r (List.mem_of_mem_tail hr)⟩
    rcases hord with hlt | ⟨-, hord⟩
    · exact absurd hlt (Nat.lt_irrefl f)
    · exact hord
  · refine hs.lays hlayer hnew (fun p d hd => ⟨(mem_symbols hd).1, (mem_symbols hd).2⟩) ?_ h
    rintro p L ⟨rfl, rfl⟩
    refine ⟨nil_notMem_between, fun b v => ?_⟩
    simp only [true_and, exists_eq_left, accepts_symbols]
    rw [target_symbols, shows_tied, mem_between_cons]
    simp only [true_and, Nat.lt_irrefl, false_and, or_false]
    exact and_congr_left fun _ => by omega

/-- a step to the two states that follow the bounds, and to one between them if there is one; all
of them are new -/
theorem Stands.advances_parting {front : Frontier} {mid' : Option Nat} {X : Nat → Edge → Prop}
    {g₁ : Graph} (hs : front.Stands g e) (hlayer : Layer front.states X g g₁)
    (hsize : g.size + 2 ≤ g₁.size) (hmid : ∀ m, mid' = some m → g.size + 2 ≤ m ∧ m < g₁.size)
    (htakes : ∀ r ∈ rest, (lo ≤ r.1 ∧ r.1 ≤ hi) ∧ lo ≤ r.2 ∧ r.2 ≤ hi)
    (hX : ∀ p d, X p d → d.isEpsilon = false ∧
      d.target ∈ (Frontier.parted g.size mid' (second g)).states)
    (hwords : (Frontier.parted g.size mid' (second g)).Apart →
      ∀ p L, front.Shows lo hi ((f, t) :: rest) p L → ([] ∉ L) ∧ ∀ b v, b :: v ∈ L ↔
        ∃ d, X p d ∧ d.accepts b = true ∧
          ∃ L', (Frontier.parted g.size mid' (second g)).Shows lo hi rest d.target L' ∧ v ∈ L') :
    Advances lo hi e front f t rest g (.parted g.size mid' (second g), g₁) := by
  have hsecond := second_eq g
  have hapart : (Frontier.parted g.size mid' (second g)).Apart := by
    refine ⟨by omega, fun h => ?_, fun h => ?_⟩
    · have := hmid _ h
      omega
    · have := hmid _ h
      omega
  have hnew : ∀ p ∈ (Frontier.parted g.size mid' (second g)).states, p ∈ fresh g g₁ := by
    intro p hp
    rw [mem_fresh]
    rcases hp with rfl | hp | rfl
    · omega
    · have := hmid p hp
      omega
    · omega
  exact ⟨hs.layer hlayer hapart hnew, htakes, fun g₂ h => hs.lays hlayer hnew hX (hwords hapart) h⟩

/-- the bounds part, and no byte lies between them -/
theorem advances_close (hs : (Frontier.tied s).Stands g e)
    (htakes : ∀ r ∈ rest, (lo ≤ r.1 ∧ r.1 ≤ hi) ∧ lo ≤ r.2 ∧ r.2 ≤ hi) (hft : f < t)
    (hclose : ¬ 2 ≤ t - f) : Advances lo hi e (.tied s) f t rest g
      (.parted g.size none (second g), parting g s s f t) := by
  have hlayer := layer_parting (P := (Frontier.tied s).states) (f := f) (t := t) rfl rfl
    (hs.lt s rfl) (hs.lt s rfl)
  refine hs.advances_parting hlayer (Nat.le_of_eq (size_parting g s s f t).symm)
    (fun m hm => absurd hm.symm (Option.some_ne_none m)) htakes ?_ ?_
  · rintro p d (hd | hd)
    · exact ⟨(mem_symbols hd).1, .inl (mem_symbols hd).2⟩
    · exact ⟨(mem_symbols hd).1, .inr (.inr (mem_symbols hd).2)⟩
  · rintro hapart p L ⟨rfl, rfl⟩
    refine ⟨nil_notMem_between, fun b v => ?_⟩
    have hne : f ≠ t := Nat.ne_of_lt hft
    have hmid : ¬(f < b ∧ b < t) := by omega
    simp only [true_and, or_and_right, exists_or, exists_eq_left, accepts_symbols]
    rw [target_symbols, shows_low hapart, target_symbols, shows_high hapart, mem_between_cons,
      le_and_le_iff_eq, le_and_le_iff_eq]
    simp only [hne, hft, hmid, false_and, false_or, true_and, or_false]

/-- the bounds part, and the bytes between them lead to a state of their own -/
theorem advances_distant (hs : (Frontier.tied s).Stands g e)
    (htakes : ∀ r ∈ rest, (lo ≤ r.1 ∧ r.1 ≤ hi) ∧ lo ≤ r.2 ∧ r.2 ≤ hi) (hft : f < t) :
    Advances lo hi e (.tied s) f t rest g
      (.parted g.size (some (parting g s s f t).size) (second g),
        (parting g s s f t).addState.2.addEdge s
          (Edge.symbols (f + 1) (t - 1) (parting g s s f t).size)) := by
  have hlt := hs.lt s rfl
  have hsize := size_parting g s s f t
  have hlayer := (layer_parting (P := (Frontier.tied s).states) (f := f) (t := t) rfl rfl
    hlt hlt).addState.addEdge (x := s) rfl (by rw [size_addState]; omega)
      (Edge.symbols (f + 1) (t - 1) (parting g s s f t).size)
  refine hs.advances_parting hlayer ?_ (fun m hm => ?_) htakes ?_ ?_
  · rw [size_addEdge, size_addState]
    omega
  · obtain rfl := Option.some.inj hm
    rw [size_addEdge, size_addState]
    omega
  · rintro p d ((hd | hd) | hd)
    · exact ⟨(mem_symbols hd).1, .inl (mem_symbols hd).2⟩
    · exact ⟨(mem_symbols hd).1, .inr (.inr (mem_symbols hd).2)⟩
    · exact ⟨(mem_symbols hd).1, .inr (.inl (congrArg some (mem_symbols hd).2.symm))⟩
  · rintro hapart p L ⟨rfl, rfl⟩
    refine ⟨nil_notMem_between, fun b v => ?_⟩
    have hne : f ≠ t := Nat.ne_of_lt hft
    have hmid : f + 1 ≤ b ∧ b ≤ t - 1 ↔ f < b ∧ b < t := by omega
    simp only [true_and, or_and_right, exists_or, exists_eq_left, accepts_symbols]
    rw [target_symbols, shows_low hapart, target_symbols, shows_high hapart, target_symbols,
      shows_mid hapart, mem_between_cons, or_assoc, hmid, le_and_le_iff_eq, le_and_le_iff_eq]
    simp only [hne, hft, false_and, false_or, true_and]

theorem advances_parted (hs : (Frontier.tied s).Stands g e)
    (ht : (Frontier.tied s).Takes lo hi ((f, t) :: rest)) (hne : f ≠ t) :
    Advances lo hi e (.tied s) f t rest g (advanceTied s f t g) := by
  have hft : f < t := by
    rcases ht.1 with hlt | ⟨heq, -⟩
    · exact hlt
    · exact absurd heq hne
  rw [advanceTied_parted hne]
  by_cases hdistant : 2 ≤ t - f
  · simp only [if_pos hdistant]
    exact advances_distant hs ht.2 hft
  · simp only [if_neg hdistant]
    exact advances_close hs ht.2 hft hdistant

/-- nothing is between the bounds, and nothing comes to lie between them -/
theorem advances_tight (hs : (Frontier.parted low none high).Stands g e)
    (htakes : ∀ r ∈ rest, (lo ≤ r.1 ∧ r.1 ≤ hi) ∧ lo ≤ r.2 ∧ r.2 ≤ hi) (hf : ¬ f < hi)
    (ht : ¬ lo < t) : Advances lo hi e (.parted low none high) f t rest g
      (.parted g.size none (second g), parting g low high f t) := by
  have hlow : low ∈ (Frontier.parted low none high).states := .inl rfl
  have hhigh : high ∈ (Frontier.parted low none high).states := .inr (.inr rfl)
  have hlayer := layer_parting (f := f) (t := t) hlow hhigh (hs.lt low hlow) (hs.lt high hhigh)
  obtain ⟨hne, -, -⟩ := hs.apart
  refine hs.advances_parting hlayer (Nat.le_of_eq (size_parting g low high f t).symm)
    (fun m hm => absurd hm.symm (Option.some_ne_none m)) htakes ?_ ?_
  · rintro p d (hd | hd)
    · exact ⟨(mem_symbols hd).1, .inl (mem_symbols hd).2⟩
    · exact ⟨(mem_symbols hd).1, .inr (.inr (mem_symbols hd).2)⟩
  · rintro hapart p L (⟨rfl, rfl⟩ | ⟨hp, -⟩ | ⟨rfl, rfl⟩)
    · refine ⟨nil_notMem_above, fun b v => ?_⟩
      simp only [true_and, hne, false_and, or_false, exists_eq_left, accepts_symbols,
        target_symbols, shows_low hapart, le_and_le_iff_eq]
      rw [List.map_cons, mem_above_cons]
      refine or_iff_left fun h => ?_
      omega
    · exact absurd hp.symm (Option.some_ne_none p)
    · refine ⟨nil_notMem_below, fun b v => ?_⟩
      simp only [true_and, hne.symm, false_and, false_or, exists_eq_left, accepts_symbols,
        target_symbols, shows_high hapart, le_and_le_iff_eq]
      rw [List.map_cons, mem_below_cons]
      refine or_iff_left fun h => ?_
      omega

/-- something is between the bounds, or comes to lie between them -/
theorem advances_wide (hs : (Frontier.parted low mid high).Stands g e)
    (htakes : ∀ r ∈ rest, (lo ≤ r.1 ∧ r.1 ≤ hi) ∧ lo ≤ r.2 ∧ r.2 ≤ hi) :
    Advances lo hi e (.parted low mid high) f t rest g
      (.parted g.size (some (parting g low high f t).size) (second g),
        widened (parting g low high f t) lo hi low mid high f t) := by
  have hlow : low ∈ (Frontier.parted low mid high).states := .inl rfl
  have hhigh : high ∈ (Frontier.parted low mid high).states := .inr (.inr rfl)
  have hsize := size_parting g low high f t
  have hsize' := size_widened lo hi low mid high f t (parting g low high f t)
  have hlayer := layer_widened lo hi f t
    (layer_parting (f := f) (t := t) hlow hhigh (hs.lt low hlow) (hs.lt high hhigh)) hlow
    (fun m hm => .inr (.inl hm)) hhigh fun p hp => by
      have := hs.lt p hp
      omega
  obtain ⟨hne, hnlow, hnhigh⟩ := hs.apart
  refine hs.advances_parting hlayer (by omega) (fun m hm => ?_) htakes ?_ ?_
  · obtain rfl := Option.some.inj hm
    omega
  · rintro p d ((((hd | hd) | ⟨-, hd⟩) | hd) | ⟨-, hd⟩)
    · exact ⟨(mem_symbols hd).1, .inl (mem_symbols hd).2⟩
    · exact ⟨(mem_symbols hd).1, .inr (.inr (mem_symbols hd).2)⟩
    · exact ⟨(mem_symbols hd).1, .inr (.inl (congrArg some (mem_symbols hd).2.symm))⟩
    · obtain ⟨-, rfl⟩ := hd
      exact ⟨rfl, .inr (.inl rfl)⟩
    · exact ⟨(mem_symbols hd).1, .inr (.inl (congrArg some (mem_symbols hd).2.symm))⟩
  · rintro hapart p L (⟨rfl, rfl⟩ | ⟨rfl, rfl⟩ | ⟨rfl, rfl⟩)
    · refine ⟨nil_notMem_above, fun b v => ?_⟩
      simp only [true_and, hne, hnlow, false_and, and_false, or_false, or_and_right,
        exists_or, exists_eq_left, accepts_symbols, and_assoc, exists_and_left,
        target_symbols, shows_low hapart, shows_mid hapart]
      rw [List.map_cons, mem_above_cons, List.length_map, ← and_assoc (a := f ≤ b),
        le_and_le_iff_eq, ← and_assoc (a := f + 1 ≤ b), ← and_assoc (a := f < hi)]
      exact or_congr_right (and_congr_left fun _ => by omega)
    · refine ⟨nil_notMem_freely, fun b v => ?_⟩
      have hlow' : p ≠ low := fun heq => hnlow (congrArg some heq)
      have hhigh' : p ≠ high := fun heq => hnhigh (congrArg some heq)
      simp only [true_and, hlow', hhigh', false_and, and_false, false_or, or_false,
        exists_eq_left, accepts_symbols, target_symbols, shows_mid hapart]
      exact mem_freely_cons
    · refine ⟨nil_notMem_below, fun b v => ?_⟩
      simp only [true_and, hne.symm, hnhigh, false_and, and_false, false_or, or_false,
        or_and_right, exists_or, exists_eq_left, accepts_symbols, and_assoc, exists_and_left,
        target_symbols, shows_high hapart, shows_mid hapart]
      rw [List.map_cons, mem_below_cons, List.length_map, ← and_assoc (a := t ≤ b),
        le_and_le_iff_eq, ← and_assoc (a := lo ≤ b), ← and_assoc (a := lo < t)]
      exact or_congr_right (and_congr_left fun _ => by omega)

theorem advances_widened (hs : (Frontier.parted low mid high).Stands g e)
    (ht : (Frontier.parted low mid high).Takes lo hi ((f, t) :: rest)) :
    Advances lo hi e (.parted low mid high) f t rest g
      (advanceParted lo hi low mid high f t g) := by
  have htakes := fun r hr => ht r (List.mem_cons_of_mem (f, t) hr)
  rw [advanceParted_eq]
  by_cases hwide : f < hi ∨ mid.isSome ∨ lo < t
  · simp only [if_pos hwide]
    exact advances_wide hs htakes
  · simp only [if_neg hwide]
    rw [not_or, not_or, Bool.not_eq_true, Option.isSome_eq_false_iff,
      Option.isNone_iff_eq_none] at hwide
    obtain ⟨hf, rfl, ht'⟩ := hwide
    exact advances_tight hs htakes hf ht'

theorem advances {front : Frontier} (hs : front.Stands g e)
    (ht : front.Takes lo hi ((f, t) :: rest)) :
    Advances lo hi e front f t rest g (advance lo hi front f t g) := by
  cases front with
  | tied s =>
    by_cases hne : f = t
    · subst hne
      exact advances_same hs ht
    · exact advances_parted hs ht hne
  | parted low mid high => exact advances_widened hs ht

/-! ## the last byte -/

theorem mem_between_last (lo hi : Nat) {w : List Nat} (hle : f ≤ t) :
    w ∈ Interval.between lo hi [(f, t)] ↔ ∃ b, w = [b] ∧ f ≤ b ∧ b ≤ t := by
  have hone {v : List Nat} : v ∈ (1 : Language Nat) ↔ v = [] := Iff.rfl
  cases w with
  | nil =>
    refine iff_of_false nil_notMem_between ?_
    rintro ⟨_, ⟨⟩, -⟩
  | cons b v =>
    rw [mem_between_cons]
    simp only [Interval.between, above, below, List.map_nil, List.length_nil, mem_freely_zero, hone,
      List.cons.injEq]
    by_cases hv : v = []
    · subst hv
      simp only [and_true, exists_eq_left']
      omega
    · simp [hv]

theorem mem_above_last {w : List Nat} (hle : f ≤ hi) :
    w ∈ above lo hi [f] ↔ ∃ b, w = [b] ∧ f ≤ b ∧ b ≤ hi := by
  have hone {v : List Nat} : v ∈ (1 : Language Nat) ↔ v = [] := Iff.rfl
  cases w with
  | nil =>
    refine iff_of_false nil_notMem_above ?_
    rintro ⟨_, ⟨⟩, -⟩
  | cons b v =>
    rw [mem_above_cons]
    simp only [above, List.length_nil, mem_freely_zero, hone, List.cons.injEq]
    by_cases hv : v = []
    · subst hv
      simp only [and_true, exists_eq_left']
      omega
    · simp [hv]

theorem mem_below_last {w : List Nat} (hle : lo ≤ t) :
    w ∈ below lo hi [t] ↔ ∃ b, w = [b] ∧ lo ≤ b ∧ b ≤ t := by
  have hone {v : List Nat} : v ∈ (1 : Language Nat) ↔ v = [] := Iff.rfl
  cases w with
  | nil =>
    refine iff_of_false nil_notMem_below ?_
    rintro ⟨_, ⟨⟩, -⟩
  | cons b v =>
    rw [mem_below_cons]
    simp only [below, List.length_nil, mem_freely_zero, hone, List.cons.injEq]
    by_cases hv : v = []
    · subst hv
      simp only [and_true, exists_eq_left']
      omega
    · simp [hv]

theorem close_parted (lo hi low : Nat) (mid : Option Nat) (high f t e : Nat) (g : Graph) :
    ((Frontier.parted low mid high).close lo hi f t e g).2 =
      ((match mid with
        | none => g.addEdge low (Edge.symbols f hi e)
        | some m => (g.addEdge low (Edge.symbols f hi e)).addEdge m
          (Edge.symbols lo hi e))).addEdge high (Edge.symbols lo t e) := by
  cases mid <;> rfl

theorem layer_close (lo hi f t e : Nat) {P : Set Nat} (hlow : low ∈ P)
    (hmid : ∀ m, mid = some m → m ∈ P)
    (hhigh : high ∈ P) (hlt : ∀ p ∈ P, p < g.size) :
    Layer P (fun p d => (p = low ∧ d = Edge.symbols f hi e ∨
      mid = some p ∧ d = Edge.symbols lo hi e) ∨ p = high ∧ d = Edge.symbols lo t e) g
      ((Frontier.parted low mid high).close lo hi f t e g).2 := by
  have h₁ := (layer_refl P g).addEdge hlow (hlt low hlow) (Edge.symbols f hi e)
  rw [close_parted]
  cases mid with
  | none =>
    have h₂ := h₁.addEdge hhigh (by rw [size_addEdge]; exact hlt high hhigh)
      (Edge.symbols lo t e)
    simp only [false_or] at h₂
    simp only [reduceCtorEq, false_and, or_false]
    exact h₂
  | some m =>
    have hm := hmid m rfl
    have h₂ := h₁.addEdge hm (by rw [size_addEdge]; exact hlt m hm) (Edge.symbols lo hi e)
    have h₃ := h₂.addEdge hhigh (by rw [size_addEdge, size_addEdge]; exact hlt high hhigh)
      (Edge.symbols lo t e)
    simp only [false_or] at h₃
    simp only [Option.some_inj, eq_comm (a := m)]
    exact h₃

/-- the last byte leads to `e` -/
theorem lays_close {front : Frontier} (hs : front.Stands g e)
    (ht : front.Takes lo hi [(f, t)]) :
    Lays (front.Shows lo hi [(f, t)]) e g (front.close lo hi f t e g).2 := by
  have hstates : {p | ∃ L, front.Shows lo hi [(f, t)] p L} = front.states :=
    Set.ext fun p => exists_shows
  have hne (p : Nat) (L : Language Nat) (hp : front.Shows lo hi [(f, t)] p L) : p ≠ e :=
    fun heq => hs.ne (heq ▸ exists_shows.1 ⟨L, hp⟩)
  cases front with
  | tied s =>
    have hft : f ≤ t := by
      rcases ht.1 with h | ⟨h, -⟩
      · exact Nat.le_of_lt h
      · exact Nat.le_of_eq h
    have hlayer := (layer_refl (Frontier.tied s).states g).addEdge rfl (hs.lt s rfl)
      (Edge.symbols f t e)
    simp only [false_or] at hlayer
    refine Layer.lays_last (hstates ▸ hlayer) (size_addEdge _ _ _) hs.edges hne
      (fun p d hd => ⟨(mem_symbols hd).1, (mem_symbols hd).2⟩) ?_
    rintro p L ⟨rfl, rfl⟩ w
    simp only [true_and, exists_eq_left, accepts_symbols]
    exact mem_between_last lo hi hft
  | parted low mid high =>
    have hlow : low ∈ (Frontier.parted low mid high).states := .inl rfl
    have hhigh : high ∈ (Frontier.parted low mid high).states := .inr (.inr rfl)
    obtain ⟨⟨-, hf⟩, hlot, -⟩ := ht (f, t) (List.mem_singleton_self _)
    obtain ⟨hdiff, hnlow, hnhigh⟩ := hs.apart
    have hlayer := layer_close lo hi f t e hlow
      (fun m hm => .inr (.inl hm)) hhigh hs.lt
    have hsize : ((Frontier.parted low mid high).close lo hi f t e g).2.size = g.size := by
      rw [close_parted]
      split <;> simp only [size_addEdge]
    refine Layer.lays_last (hstates ▸ hlayer) hsize hs.edges hne ?_ ?_
    · rintro p d ((hd | hd) | hd)
      · exact mem_symbols hd
      · obtain ⟨-, rfl⟩ := hd
        exact ⟨rfl, rfl⟩
      · exact mem_symbols hd
    · rintro p L (⟨rfl, rfl⟩ | ⟨rfl, rfl⟩ | ⟨rfl, rfl⟩) w
      · simp only [true_and, hdiff, hnlow, false_and, or_false, exists_eq_left, accepts_symbols]
        exact mem_above_last hf
      · have hlow' : p ≠ low := fun heq => hnlow (congrArg some heq)
        have hhigh' : p ≠ high := fun heq => hnhigh (congrArg some heq)
        simp only [true_and, hlow', hhigh', false_and, false_or, or_false, exists_eq_left,
          accepts_symbols]
        cases w with
        | nil =>
          refine iff_of_false nil_notMem_freely ?_
          rintro ⟨_, ⟨⟩, -⟩
        | cons b v =>
          rw [List.length_singleton, mem_freely_cons, mem_freely_zero]
          constructor
          · rintro ⟨hb, rfl⟩
            exact ⟨b, rfl, hb⟩
          · rintro ⟨_, ⟨⟩, hb⟩
            exact ⟨hb, rfl⟩
      · simp only [true_and, hdiff.symm, hnhigh, false_and, false_or, exists_eq_left,
          accepts_symbols]
        exact mem_below_last hlot

end Frontier

namespace Fragment

open SpanSearch.Graph Frontier

variable {g : Graph} {lo hi e : Nat}

/-- an interval is laid out as its bounds say -/
theorem lays_layOut {rest : List (Nat × Nat)} (hne : rest ≠ []) {front : Frontier}
    (hs : front.Stands g e) (ht : front.Takes lo hi rest) :
    Lays (front.Shows lo hi rest) e g (layOut lo hi e front rest g).2 := by
  induction rest generalizing front g with
  | nil => exact absurd rfl hne
  | cons r rest ih =>
    obtain ⟨f, t⟩ := r
    cases rest with
    | nil => exact lays_close hs ht
    | cons r' rest =>
      have hstep : layOut lo hi e front ((f, t) :: r' :: rest) g =
          layOut lo hi e (front.advance lo hi f t g).1 (r' :: rest)
            (front.advance lo hi f t g).2 := rfl
      have h := advances hs ht
      rw [hstep]
      exact h.lays _ (ih (List.cons_ne_nil _ _) h.stands h.takes)

theorem connects_layOut {s : Nat} (hb : g.Endpoints s e) {rest : List (Nat × Nat)} (hne : rest ≠ [])
    (hord : Interval.Ordered rest)
    (htails : ∀ r ∈ rest.tail, (lo ≤ r.1 ∧ r.1 ≤ hi) ∧ lo ≤ r.2 ∧ r.2 ≤ hi) :
    Connects ∅ s e (Interval.between lo hi rest) g (layOut lo hi e (.tied s) rest g).2 := by
  have hs : (Frontier.tied s).Stands g e := by
    refine ⟨trivial, ?_, fun h => hb.ne h.symm, hb.right, hb.edges⟩
    rintro p rfl
    exact hb.left
  exact (lays_layOut hne hs ⟨hord, htails⟩).connects

end Fragment
end SpanSearch
