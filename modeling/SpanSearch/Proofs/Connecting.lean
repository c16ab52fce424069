import SpanSearch.Proofs.Regions

/-!
# Ways from one state to another

Most steps make an entry `s` and an exit `e` and then lay ways from one to the other, each
through states of its own.  What the ways show adds up.

* `Graph.Endpoints`   two states, the second of which nothing leaves
* `Graph.Connects`    a step lays ways for some words from `s` to `e`
* `Connects.trans`    ways laid side by side
* `makes_of_connects` two new states and the ways between them are a fragment
* `connects_epsilon`, `connects_range`, `connects_forM`
-/

namespace SpanSearch
namespace Graph

variable {g g' g'' : Graph} {S T : Set Nat} {s e : Nat} {L L' : Language Nat}

/-- two states, the second of which nothing leaves -/
structure Endpoints (g : Graph) (s e : Nat) : Prop where
  left : s < g.size
  right : e < g.size
  ne : s ≠ e
  edges : g.edges e = []

theorem Endpoints.leads_right (hb : g.Endpoints s e) {w : List Nat} {q : Nat} :
    g.Leads e w q ↔ w = [] ∧ q = e := by
  constructor
  · exact fun h => h.eq_of_edges_eq_nil hb.edges
  · rintro ⟨rfl, rfl⟩
    exact .here _

theorem Endpoints.grows (hb : g.Endpoints s e) (h : Grows S g g') (he : e ∉ S) :
    g'.Endpoints s e where
  left := Nat.lt_of_lt_of_le hb.left h.size
  right := Nat.lt_of_lt_of_le hb.right h.size
  ne := hb.ne
  edges := by
    refine List.eq_nil_iff_forall_not_mem.2 fun d hd => ?_
    have hold := (h.edges e hb.right he d).1 hd
    exact absurd (hb.edges ▸ hold) List.not_mem_nil

/-- the step lays ways from `s` to `e` through the region `S` and new states, and these ways show
the words `L` -/
structure Connects (S : Set Nat) (s e : Nat) (L : Language Nat) (g g' : Graph) : Prop where
  grows : Grows (insert s S) g g'
  inner : ∀ p ∈ S ∪ fresh g g', ∀ d ∈ g'.edges p, d.target ∈ insert e (S ∪ fresh g g')
  outer : ∃ X : Edge → Prop, (∀ d, d ∈ g'.edges s ↔ d ∈ g.edges s ∨ X d) ∧
    (∀ d, X d → d.target ∈ insert e (S ∪ fresh g g')) ∧
    ∀ w, w ∈ L ↔ ∃ d, X d ∧ g'.Crosses d w e

theorem Connects.endpoints (h : Connects S s e L g g') (hb : g.Endpoints s e) (he : e ∉ S) :
    g'.Endpoints s e :=
  hb.grows h.grows fun hmem => hmem.elim (fun heq => hb.ne heq.symm) he

theorem connects_refl (s e : Nat) (g : Graph) : Connects ∅ s e 0 g g where
  grows := Grows.refl _ g
  inner := by
    intro p hp
    rw [fresh_self, Set.union_empty] at hp
    exact absurd hp (Set.notMem_empty p)
  outer := ⟨fun _ => False, fun _ => (or_iff_left id).symm, fun _ h => h.elim,
    fun _ => iff_of_false id fun ⟨_, h, _⟩ => h⟩

/-- a set of states of the graph without the two -/
structure Clear (g : Graph) (S : Set Nat) (s e : Nat) : Prop where
  left : s ∉ S
  right : e ∉ S
  lt : ∀ p ∈ S, p < g.size

theorem clear_empty (g : Graph) (s e : Nat) : g.Clear ∅ s e where
  left := Set.notMem_empty s
  right := Set.notMem_empty e
  lt := fun p hp => absurd hp (Set.notMem_empty p)

theorem Clear.of_size_le (h : g.Clear S s e) (hle : g.size ≤ g'.size) : g'.Clear S s e where
  left := h.left
  right := h.right
  lt := fun p hp => Nat.lt_of_lt_of_le (h.lt p hp) hle

/-- the ways do not leave their states but for the exit -/
theorem Connects.closed (h : Connects S s e L g g') (hb : g.Endpoints s e) (hS : g.Clear S s e) :
    ∀ p ∈ insert e (S ∪ fresh g g'), ∀ d ∈ g'.edges p, d.target ∈ insert e (S ∪ fresh g g') := by
  rintro p (rfl | hp) d hd
  · exact absurd ((h.endpoints hb hS.right).edges ▸ hd) List.not_mem_nil
  · exact h.inner p hp d hd

/-- the states of the first ways keep their edges when ways through others are laid -/
theorem Connects.keeps (hb : g.Endpoints s e) (hS : g.Clear S s e) (hT : g.Clear T s e)
    (hdisj : Disjoint S T) (h : Connects S s e L g g') (h' : Connects T s e L' g' g'') :
    ∀ p ∈ insert e (S ∪ fresh g g'), ∀ d, d ∈ g''.edges p ↔ d ∈ g'.edges p := by
  intro p hp d
  have hlt : p < g'.size := by
    rcases hp with rfl | hp | hp
    · exact (h.endpoints hb hS.right).right
    · exact Nat.lt_of_lt_of_le (hS.lt p hp) h.grows.size
    · exact hp.2
  refine h'.grows.edges p hlt ?_ d
  rintro (rfl | hpT)
  · rcases hp with heq | hp | hp
    · exact hb.ne heq
    · exact hS.left hp
    · exact Nat.not_lt_of_le hp.1 hb.left
  · rcases hp with rfl | hp | hp
    · exact hT.right hpT
    · exact Set.disjoint_left.1 hdisj hp hpT
    · exact Nat.not_lt_of_le hp.1 (hT.lt p hpT)

/-- ways laid side by side through different states -/
theorem Connects.trans (hb : g.Endpoints s e) (hS : g.Clear S s e) (hT : g.Clear T s e)
    (hdisj : Disjoint S T) (h : Connects S s e L g g') (h' : Connects T s e L' g' g'') :
    Connects (S ∪ T) s e (L + L') g g'' := by
  have hfresh := fresh_union h.grows h'.grows
  have hkeep := Connects.keeps hb hS hT hdisj h h'
  have hclosed := h.closed hb hS
  have hinto : ∀ p ∈ insert e (S ∪ fresh g g'), p ∈ insert e (S ∪ T ∪ fresh g g'') := by
    rw [← hfresh]
    rintro p (hp | hp | hp)
    · exact .inl hp
    · exact .inr (.inl (.inl hp))
    · exact .inr (.inr (.inl hp))
  have hinto' : ∀ p ∈ insert e (T ∪ fresh g' g''), p ∈ insert e (S ∪ T ∪ fresh g g'') := by
    rw [← hfresh]
    rintro p (hp | hp | hp)
    · exact .inl hp
    · exact .inr (.inl (.inr hp))
    · exact .inr (.inr (.inr hp))
  refine ⟨?_, ?_, ?_⟩
  · refine (h.grows.mono ?_).trans (h'.grows.mono (T := insert s (S ∪ T)) ?_) Set.subset_union_left
    · exact Set.insert_subset_insert Set.subset_union_left
    · exact Set.insert_subset_insert Set.subset_union_right
  · intro p hp d hd
    rw [← hfresh] at hp
    rcases hp with (hp | hp) | (hp | hp)
    · have hmem : p ∈ insert e (S ∪ fresh g g') := .inr (.inl hp)
      exact hinto _ (hclosed p hmem d ((hkeep p hmem d).1 hd))
    · exact hinto' _ (h'.inner p (.inl hp) d hd)
    · have hmem : p ∈ insert e (S ∪ fresh g g') := .inr (.inr hp)
      exact hinto _ (hclosed p hmem d ((hkeep p hmem d).1 hd))
    · exact hinto' _ (h'.inner p (.inr hp) d hd)
  · obtain ⟨X, hX, hXin, hXwords⟩ := h.outer
    obtain ⟨Y, hY, hYin, hYwords⟩ := h'.outer
    refine ⟨fun d => X d ∨ Y d, fun d => ?_, fun d hd => ?_, fun w => ?_⟩
    · rw [hY, hX, or_assoc]
    · exact hd.elim (fun hd => hinto _ (hXin d hd)) fun hd => hinto' _ (hYin d hd)
    · have hcross (d : Edge) (hd : X d) : g''.Crosses d w e ↔ g'.Crosses d w e :=
        crosses_congr fun u => reads_within hclosed hkeep (hXin d hd)
      rw [Language.mem_add, hXwords, hYwords]
      simp only [or_and_right, exists_or]
      refine or_congr_left (exists_congr fun d => and_congr_right fun hd => ?_)
      exact (hcross d hd).symm

/-- ways through states that an earlier step has added -/
theorem Connects.of_grows (h : Grows S g g') (hs : s < g.size) (hsS : s ∉ S)
    (h' : Connects (S ∪ fresh g g') s e L g' g'') : Connects S s e L g g'' := by
  have hinner : S ∪ fresh g g' ∪ fresh g' g'' = S ∪ fresh g g'' := by
    rw [Set.union_assoc, fresh_union h h'.grows]
  obtain ⟨X, hX, hXin, hXwords⟩ := h'.outer
  refine ⟨?_, ?_, X, fun d => ?_, ?_, hXwords⟩
  · refine (h.mono (Set.subset_insert s S)).trans h'.grows ?_
    rintro p (rfl | hp | hp)
    · exact .inl (Set.mem_insert _ _)
    · exact .inl (.inr hp)
    · exact .inr hp
  · rw [← hinner]
    exact h'.inner
  · rw [hX, h.edges s hs hsS]
  · rw [← hinner]
    exact hXin

/-! ## single edges -/

theorem grows_addEdge_self (s : Nat) (d : Edge) : Grows (insert s ∅) g (g.addEdge s d) :=
  grows_addEdge (Set.mem_insert s ∅) d

/-- one more edge from `s` to `e` is a way for what it consumes -/
theorem connects_addEdge (hb : g.Endpoints s e) {d : Edge} (hd : d.target = e)
    (hL : ∀ w, w ∈ L ↔ d.isEpsilon = true ∧ w = [] ∨ ∃ sym, w = [sym] ∧ d.accepts sym = true) :
    Connects ∅ s e L g (g.addEdge s d) where
  grows := grows_addEdge_self s d
  inner := by
    rintro p (hp | hp)
    · exact absurd hp (Set.notMem_empty p)
    · rw [mem_fresh, size_addEdge] at hp
      exact absurd hp.2 (Nat.not_lt_of_le hp.1)
  outer := by
    have hb' : (g.addEdge s d).Endpoints s e := by
      refine ⟨?_, ?_, hb.ne, ?_⟩
      · rw [size_addEdge]
        exact hb.left
      · rw [size_addEdge]
        exact hb.right
      · rw [edges_addEdge_ne d hb.ne, hb.edges]
    refine ⟨(· = d), fun d' => ?_, fun d' hd' => ?_, fun w => ?_⟩
    · rw [mem_edges_addEdge hb.left]
      exact or_congr_right (and_iff_right rfl)
    · exact .inl (hd' ▸ hd)
    · rw [hL, exists_eq_left, Crosses, hd]
      simp only [hb'.leads_right, and_true]
      refine or_congr_right ⟨?_, ?_⟩
      · rintro ⟨sym, rfl, hacc⟩
        exact ⟨sym, [], rfl, hacc, rfl⟩
      · rintro ⟨sym, v, rfl, hacc, rfl⟩
        exact ⟨sym, rfl, hacc⟩

theorem connects_epsilon (hb : g.Endpoints s e) :
    Connects ∅ s e 1 g (g.addEdge s (Edge.epsilon e)) := by
  refine connects_addEdge hb rfl fun w => ?_
  rw [Language.mem_one]
  constructor
  · exact fun h => .inl ⟨rfl, h⟩
  · rintro (⟨-, h⟩ | ⟨sym, -, hacc⟩)
    · exact h
    · exact absurd hacc Bool.false_ne_true

def symbolsBetween (lo hi : Nat) : Language Nat := {w | ∃ sym, w = [sym] ∧ lo ≤ sym ∧ sym ≤ hi}

theorem mem_symbolsBetween {lo hi : Nat} {w : List Nat} :
    w ∈ symbolsBetween lo hi ↔ ∃ sym, w = [sym] ∧ lo ≤ sym ∧ sym ≤ hi := Iff.rfl

theorem connects_range (hb : g.Endpoints s e) (lo hi : Nat) :
    Connects ∅ s e (symbolsBetween lo hi) g (g.addEdge s (Edge.symbols lo hi e)) := by
  refine connects_addEdge hb rfl fun w => ?_
  rw [mem_symbolsBetween]
  constructor
  · rintro ⟨sym, rfl, hlo, hhi⟩
    exact .inr ⟨sym, rfl, by simp [Edge.symbols, Edge.accepts, hlo, hhi]⟩
  · rintro (⟨heps, -⟩ | ⟨sym, rfl, hacc⟩)
    · exact absurd heps Bool.false_ne_true
    · simp [Edge.symbols, Edge.accepts] at hacc
      exact ⟨sym, rfl, hacc⟩

/-! ## one step after another -/

theorem connects_forM {ι : Type} {l : List ι} {f : ι → Build Unit} {L : ι → Language Nat}
    (hf : ∀ x ∈ l, ∀ g : Graph, g.Endpoints s e → Connects ∅ s e (L x) g (f x g).2)
    (hb : g.Endpoints s e) : Connects ∅ s e (l.map L).sum g (l.forM f g).2 := by
  induction l generalizing g with
  | nil => exact connects_refl s e g
  | cons x l ih =>
    obtain ⟨hx, hl⟩ := List.forall_mem_cons.1 hf
    have h := hx g hb
    have h' := ih hl (h.endpoints hb (Set.notMem_empty e))
    have hclear := clear_empty g s e
    have hboth := Connects.trans hb hclear hclear (Set.disjoint_empty ∅) h h'
    rw [Set.union_empty] at hboth
    rw [List.map_cons, List.sum_cons]
    exact hboth

end Graph

/-! ## an entry, an exit and the ways between them -/

namespace Fragment

open SpanSearch.Graph

variable {g g' : Graph} {S : Set Nat} {L : Language Nat}

/-- the graph with two new states, the first of which has the number `g.size` -/
def twoStates (g : Graph) : Graph := g.addState.2.addState.2

def second (g : Graph) : Nat := g.addState.2.size

theorem second_eq (g : Graph) : second g = g.size + 1 := size_addState g

theorem size_twoStates (g : Graph) : (twoStates g).size = g.size + 2 := by
  rw [twoStates, size_addState, size_addState]

theorem edges_twoStates (p : Nat) : (twoStates g).edges p = g.edges p := by
  rw [twoStates, edges_addState, edges_addState]

theorem grows_twoStates (S : Set Nat) (g : Graph) : Grows S g (twoStates g) :=
  (grows_addState S g).trans (grows_addState S g.addState.2) Set.subset_union_left

theorem endpoints_twoStates (g : Graph) : (twoStates g).Endpoints g.size (second g) where
  left := by
    rw [size_twoStates]
    omega
  right := by
    rw [size_twoStates, second_eq]
    omega
  ne := by
    rw [second_eq]
    omega
  edges := by
    have := second_eq g
    rw [edges_twoStates, edges_of_size_le (by omega)]

theorem clear_twoStates (hS : ∀ p ∈ S, p < g.size) :
    (twoStates g).Clear S g.size (second g) where
  left := fun h => Nat.lt_irrefl _ (hS _ h)
  right := fun h => by
    have := hS _ h
    rw [second_eq] at this
    omega
  lt := fun p hp => by
    have := hS p hp
    rw [size_twoStates]
    omega

/-- two new states and the ways between them -/
theorem makes_of_connects (hS : ∀ p ∈ S, p < g.size)
    (hblank : ∀ p ∈ S, g.isAccepting p = false ∧ g.isSilent p = false)
    (h : Connects S g.size (second g) L (twoStates g) g') :
    Makes S L g (⟨g.size, some (second g)⟩, g') := by
  have hsecond := second_eq g
  have hgrow : Grows S g g' := by
    have h1 := (grows_twoStates (insert g.size S) g).trans h.grows Set.subset_union_left
    refine ⟨h1.size, h1.accepting, h1.silent, fun p hp hnot => h1.edges p hp ?_⟩
    rintro (heq | hmem)
    · omega
    · exact hnot hmem
  have hfresh : fresh (twoStates g) g' ⊆ fresh g g' := by
    intro p hp
    have := size_twoStates g
    rw [mem_fresh] at hp ⊢
    omega
  have hends := h.endpoints (endpoints_twoStates g) (clear_twoStates hS).right
  have hentry : g.size ∈ fresh g g' := ⟨Nat.le_refl _, hends.left⟩
  have hexit : second g ∈ fresh g g' := ⟨by omega, hends.right⟩
  have hinto : ∀ p ∈ insert (second g) (S ∪ fresh (twoStates g) g'), p ∈ S ∪ fresh g g' := by
    rintro p (rfl | hp | hp)
    · exact .inr hexit
    · exact .inl hp
    · exact .inr (hfresh hp)
  obtain ⟨X, hX, hXin, hXwords⟩ := h.outer
  have hX' (d : Edge) : d ∈ g'.edges g.size ↔ X d := by
    rw [hX, edges_twoStates, edges_of_size_le (Nat.le_refl _)]
    exact or_iff_right List.not_mem_nil
  refine ⟨hgrow, ⟨⟨?_, ?_, ?_⟩, .inr hentry, ?_⟩, ?_⟩
  · intro p hp d hd
    by_cases heq : p = g.size
    · subst heq
      exact hinto _ (hXin d ((hX' d).1 hd))
    · by_cases heq' : p = second g
      · subst heq'
        exact absurd (hends.edges ▸ hd) List.not_mem_nil
      · refine hinto _ (h.inner p ?_ d hd)
        rcases hp with hp | hp
        · exact .inl hp
        · refine .inr ⟨?_, hp.2⟩
          have := hp.1
          rw [size_twoStates]
          omega
  · rintro p (hp | hp)
    · rw [hgrow.accepting, hgrow.silent]
      exact hblank p hp
    · exact hgrow.blank_fresh hp
  · rintro p (hp | hp)
    · exact Nat.lt_of_lt_of_le (hS p hp) hgrow.size
    · exact hp.2
  · intro x hx
    obtain rfl : second g = x := Option.some.inj hx
    exact .inr hexit
  · ext w
    rw [words_of_exit rfl, leads_iff_crosses hends.ne, hXwords]
    simp only [hX']

end Fragment
end SpanSearch
