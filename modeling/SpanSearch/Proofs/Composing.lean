import SpanSearch.Proofs.Connecting

/-!
# What composed fragments match

* `makes_empty`, `makes_nothing`, `makes_chain`, `makes_symbolClass`   the simple fragments
* `Chains`                 one symbol after another
* `connects_series`, `connects_join`   a fragment as a way from one state to another
* `makes_group`            a group matches what its body does
-/

namespace SpanSearch
namespace Fragment

open SpanSearch.Graph

variable {g g' : Graph} {a b : Fragment} {as : List Fragment} {S T : Set Nat}
  {L : Language Nat} {Ls : List (Language Nat)}

/-! ## without parts -/

theorem lives_addState (g : Graph) (x : Option Nat) (hx : ∀ y, x = some y → y = g.size) :
    Lives ⟨g.size, x⟩ g.addState.2 (∅ ∪ fresh g g.addState.2) := by
  have hmem {p : Nat} : p ∈ (∅ : Set Nat) ∪ fresh g g.addState.2 ↔ p = g.size := by
    rw [Set.empty_union, mem_fresh, size_addState]
    omega
  have hnone {p : Nat} (hp : p = g.size) : g.addState.2.state p = {} := by
    rw [state_addState, state_of_size_le (Nat.le_of_eq hp.symm)]
  refine ⟨⟨fun p hp e he => ?_, fun p hp => ?_, fun p hp => ?_⟩, hmem.2 rfl,
    fun y hy => hmem.2 (hx y hy)⟩
  · rw [edges, hnone (hmem.1 hp)] at he
    exact absurd he List.not_mem_nil
  · rw [isAccepting, isSilent, hnone (hmem.1 hp)]
    exact ⟨rfl, rfl⟩
  · rw [hmem.1 hp, size_addState]
    exact Nat.lt_succ_self _

theorem makes_empty (g : Graph) : Makes ∅ 1 g (Fragment.empty g) where
  grows := grows_addState ∅ g
  lives := lives_addState g _ fun _ hy => (Option.some.inj hy).symm
  words := by
    ext w
    have hnone : g.addState.2.edges g.size = [] := by
      rw [edges_addState, edges_of_size_le (Nat.le_refl _)]
    rw [Language.mem_one, words_of_exit (x := g.size) rfl]
    constructor
    · exact fun h => (h.eq_of_edges_eq_nil hnone).1
    · rintro rfl
      exact .here _

theorem makes_nothing (g : Graph) : Makes ∅ 0 g (nothing g) where
  grows := grows_addState ∅ g
  lives := lives_addState g none fun _ hy => absurd hy.symm (Option.some_ne_none _)
  words := words_of_no_exit rfl

theorem Makes.dropExit (h : Makes S L g (a, g')) : Makes S 0 g (⟨a.entry, none⟩, g') where
  grows := h.grows
  lives := ⟨h.lives.toRegion, h.lives.entry, fun _ hy => absurd hy.symm (Option.some_ne_none _)⟩
  words := words_of_no_exit rfl

/-! ## one symbol after another -/

/-- from a state that nothing has left so far new states lead to the first of the result, and they
show a word and no other -/
structure Chains (word : List Nat) (current : Nat) (g : Graph) (r : Nat × Graph) : Prop where
  grows : Grows {current} g r.2
  inner : ∀ p ∈ insert current (fresh g r.2), ∀ d ∈ r.2.edges p,
    d.target ∈ insert current (fresh g r.2)
  exit : r.1 ∈ insert current (fresh g r.2)
  words : ∀ w, r.2.Leads current w r.1 ↔ w = word

section
variable {current sym : Nat} {word : List Nat}

theorem chains_nil (hnone : g.edges current = []) : Chains [] current g (current, g) where
  grows := Grows.refl _ g
  inner := by
    rintro p (rfl | hp) d hd
    · exact absurd (hnone ▸ hd) List.not_mem_nil
    · rw [fresh_self] at hp
      exact absurd hp (Set.notMem_empty p)
  exit := Set.mem_insert _ _
  words := fun w => by
    constructor
    · exact fun h => (h.eq_of_edges_eq_nil hnone).1
    · rintro rfl
      exact .here current

/-- a new state behind another one, which a symbol leads to -/
def behind (g : Graph) (current sym : Nat) : Graph :=
  g.addState.2.addEdge current (Edge.symbols sym sym g.size)

theorem size_behind (g : Graph) (current sym : Nat) : (behind g current sym).size = g.size + 1 := by
  rw [behind, size_addEdge, size_addState]

theorem grows_behind (g : Graph) (current sym : Nat) : Grows {current} g (behind g current sym) :=
  (grows_addState _ g).trans (grows_addEdge (Set.mem_singleton _) _) Set.subset_union_left

theorem edges_behind_new (hcurrent : current < g.size) (sym : Nat) :
    (behind g current sym).edges g.size = [] := by
  rw [behind, edges_addEdge_ne _ (Nat.ne_of_lt hcurrent), edges_addState,
    edges_of_size_le (Nat.le_refl _)]

theorem mem_edges_behind (hcurrent : current < g.size) (hnone : g.edges current = []) {d : Edge} :
    d ∈ (behind g current sym).edges current ↔ d = Edge.symbols sym sym g.size := by
  have hlt : current < g.addState.2.size := by
    rw [size_addState]
    exact Nat.lt_succ_of_lt hcurrent
  rw [behind, mem_edges_addEdge hlt, edges_addState, hnone]
  simp

/-- one symbol in front of a chain -/
theorem Chains.cons {r : Nat × Graph} (hcurrent : current < g.size) (hnone : g.edges current = [])
    (h : Chains word g.size (behind g current sym) r) : Chains (sym :: word) current g r := by
  have hsize := size_behind g current sym
  have hle := h.grows.size
  have hinto : ∀ p ∈ insert g.size (fresh (behind g current sym) r.2), p ∈ fresh g r.2 := by
    rintro p (rfl | hp)
    · exact ⟨Nat.le_refl _, by omega⟩
    · rw [mem_fresh] at hp ⊢
      omega
  have hedges (d : Edge) : d ∈ r.2.edges current ↔ d = Edge.symbols sym sym g.size := by
    rw [h.grows.edges current (by omega) (fun h => Nat.ne_of_lt hcurrent h),
      mem_edges_behind hcurrent hnone]
  refine ⟨(grows_behind g current sym).trans h.grows ?_, ?_, .inr (hinto _ h.exit), fun w => ?_⟩
  · rintro p rfl
    exact .inr ⟨Nat.le_refl _, by omega⟩
  · rintro p (rfl | hp) d hd
    · rw [(hedges d).1 hd]
      exact .inr (hinto _ (Set.mem_insert _ _))
    · refine .inr (hinto _ (h.inner p ?_ d hd))
      by_cases hp' : p = g.size
      · exact .inl hp'
      · rw [mem_fresh] at hp
        refine .inr ⟨?_, hp.2⟩
        omega
  · have hne : current ≠ r.1 := by
      have hge := (hinto _ h.exit).1
      omega
    rw [leads_iff_crosses hne]
    simp only [hedges, exists_eq_left]
    constructor
    · rintro (⟨heps, -⟩ | ⟨sym', v, rfl, hacc, hv⟩)
      · exact absurd heps Bool.false_ne_true
      · simp [Edge.symbols, Edge.accepts] at hacc
        rw [(h.words v).1 hv, Nat.le_antisymm hacc.2 hacc.1]
    · rintro rfl
      refine .inr ⟨sym, word, rfl, ?_, (h.words word).2 rfl⟩
      simp [Edge.symbols, Edge.accepts]

theorem chains_chainFrom (word : List Nat) (hcurrent : current < g.size)
    (hnone : g.edges current = []) : Chains word current g (chainFrom current word g) := by
  induction word generalizing g current with
  | nil => exact chains_nil hnone
  | cons sym word ih =>
    refine Chains.cons hcurrent hnone (ih ?_ (edges_behind_new hcurrent sym))
    rw [size_behind]
    exact Nat.lt_succ_self _

end

theorem makes_chain (word : List Nat) (g : Graph) : Makes ∅ {word} g (chain word g) := by
  have hnone : g.addState.2.edges g.size = [] := by
    rw [edges_addState, edges_of_size_le (Nat.le_refl _)]
  have hsize := size_addState g
  obtain ⟨hgrow, hinner, hexit, hwords⟩ :=
    chains_chainFrom word (Nat.lt_of_lt_of_eq (Nat.lt_succ_self _) hsize.symm) hnone
  have hchain : chain word g = (⟨g.size, some (chainFrom g.size word g.addState.2).1⟩,
      (chainFrom g.size word g.addState.2).2) := rfl
  rw [hchain]
  generalize chainFrom g.size word g.addState.2 = r at *
  have hle := hgrow.size
  have hgrow' : Grows ∅ g r.2 := by
    refine (grows_addState ∅ g).trans hgrow ?_
    rintro p rfl
    exact .inr ⟨Nat.le_refl _, by omega⟩
  have hregion (p : Nat) : p ∈ ∅ ∪ fresh g r.2 ↔ p ∈ insert g.size (fresh g.addState.2 r.2) := by
    rw [Set.empty_union, Set.mem_insert_iff, mem_fresh, mem_fresh]
    omega
  refine ⟨hgrow', ⟨⟨fun p hp d hd => ?_, fun p hp => ?_, fun p hp => ?_⟩, ?_, ?_⟩, ?_⟩
  · exact (hregion _).2 (hinner p ((hregion p).1 hp) d hd)
  · rw [Set.empty_union] at hp
    exact hgrow'.blank_fresh hp
  · rw [Set.empty_union] at hp
    exact hp.2
  · exact (hregion _).2 (Set.mem_insert _ _)
  · intro x hx
    obtain rfl : r.1 = x := Option.some.inj hx
    exact (hregion _).2 hexit
  · ext w
    rw [words_of_exit (x := r.1) rfl]
    exact hwords w

/-- the words of one symbol in one of several ranges, whose bounds come in either order -/
def symbolsIn (ranges : List (Nat × Nat)) : Language Nat :=
  (ranges.map fun r => symbolsBetween (min r.1 r.2) (max r.1 r.2)).sum

theorem makes_symbolClass (ranges : List (Nat × Nat)) (g : Graph) :
    Makes ∅ (symbolsIn ranges) g (symbolClass ranges g) := by
  have hempty : ∀ p ∈ (∅ : Set Nat), p < g.size := fun p hp => absurd hp (Set.notMem_empty p)
  refine makes_of_connects hempty (fun p hp => absurd hp (Set.notMem_empty p)) ?_
  exact connects_forM
    (f := fun r : Nat × Nat => Build.range g.size (min r.1 r.2) (max r.1 r.2) (second g))
    (fun r _ g hb => connects_range hb _ _) (endpoints_twoStates g)

/-! ## a fragment as a way -/

/-- a slide to the entry of a fragment and ways from its exit are ways for what it matches and
what follows -/
theorem connects_series {s e x : Nat} {into : Edge} (hb : g.Endpoints s e) (hS : g.Clear S s e)
    (ha : a.Lives g S) (hx : a.exit = some x) (hinto : into.isEpsilon = true)
    (hentry : into.target = a.entry) (h : Connects ∅ x e L (g.addEdge s into) g') :
    Connects S s e (a.words g * L) g g' := by
  have hne {p : Nat} (hp : p ∈ S) : p ≠ s := fun heq => hS.left (heq ▸ hp)
  have hxS := ha.exit x hx
  have hxlt := ha.lt x hxS
  have hsize := size_addEdge g s into
  obtain ⟨Y, hY, hYin, hYwords⟩ := h.outer
  have hold (p : Nat) (hp : p < g.size) (hpx : p ≠ x) (d : Edge) :
      d ∈ g'.edges p ↔ d ∈ g.edges p ∨ p = s ∧ d = into := by
    rw [h.grows.edges p (hsize.symm ▸ hp) (fun hmem => hmem.elim hpx (Set.notMem_empty p)),
      mem_edges_addEdge hb.left]
  have hedges : ∀ p ∈ S, ∀ d, d ∈ g'.edges p ↔ d ∈ g.edges p ∨ p = x ∧ Y d := by
    intro p hp d
    by_cases hpx : p = x
    · subst hpx
      rw [hY, edges_addEdge_ne _ (hne hp).symm]
      exact or_congr_right (and_iff_right rfl).symm
    · rw [hold p (ha.lt p hp) hpx]
      exact or_congr_right (iff_of_false (fun h => hne hp h.1) fun h => hpx h.1)
  have hfresh : fresh (g.addEdge s into) g' = fresh g g' := by
    ext p
    rw [mem_fresh, mem_fresh, hsize]
  have hYin' (d : Edge) (hd : Y d) : d.target ∈ insert e (S ∪ fresh g g') := by
    rcases hYin d hd with h | h | h
    · exact .inl h
    · exact absurd h (Set.notMem_empty _)
    · exact .inr (.inr (hfresh ▸ h))
  have hs (d : Edge) : d ∈ g'.edges s ↔ d ∈ g.edges s ∨ d = into := by
    rw [hold s hb.left (fun heq => hS.left (heq ▸ hxS))]
    exact or_congr_right (and_iff_right rfl)
  refine ⟨?_, ?_, (· = into), hs, fun d hd => ?_, fun w => ?_⟩
  · refine (grows_addEdge (Set.mem_insert s S) into).trans
      (h.grows.mono (T := insert s S) ?_) Set.subset_union_left
    rintro p (rfl | hp)
    · exact .inr hxS
    · exact absurd hp (Set.notMem_empty p)
  · rintro p (hp | hp) d hd
    · rcases (hedges p hp d).1 hd with hd | ⟨-, hd⟩
      · exact .inr (.inl (ha.closed p hp d hd))
      · exact hYin' d hd
    · rcases h.inner p (.inr (hfresh.symm ▸ hp)) d hd with h | h | h
      · exact .inl h
      · exact absurd h (Set.notMem_empty _)
      · exact .inr (.inr (hfresh ▸ h))
  · rw [hd, hentry]
    exact .inr (.inl ha.entry)
  · rw [exists_eq_left, crosses_of_isEpsilon hinto, hentry,
      leads_gates ha.closed hedges ha.entry, Language.mem_mul]
    constructor
    · rintro ⟨u, hu, v, hv, rfl⟩
      obtain ⟨d, hd, hcross⟩ := (hYwords v).1 hv
      exact .inr ⟨x, hxS, d, ⟨rfl, hd⟩, u, v, rfl, (words_of_exit hx).1 hu, hcross⟩
    · rintro (h | ⟨y, -, d, ⟨rfl, hd⟩, u, v, rfl, h₁, h₂⟩)
      · exact absurd (h.stays (S := (· ∈ S)) ha.closed ha.entry) hS.right
      · exact ⟨u, (words_of_exit hx).2 h₁, v, (hYwords v).2 ⟨d, hd, h₂⟩, rfl⟩

/-- a slide to the entry of a fragment without an exit leads nowhere -/
theorem connects_nowhere {s e : Nat} (into : Edge) (hb : g.Endpoints s e) (hS : g.Clear S s e)
    (ha : a.Lives g S) (hinto : into.isEpsilon = true) (hentry : into.target = a.entry) :
    Connects S s e 0 g (g.addEdge s into) := by
  have hfresh : S ∪ fresh g (g.addEdge s into) = S := by
    ext p
    rw [Set.mem_union, mem_fresh, size_addEdge]
    exact or_iff_left fun h => Nat.not_lt_of_le h.1 h.2
  have hsame : ∀ p ∈ S, ∀ d, d ∈ (g.addEdge s into).edges p ↔ d ∈ g.edges p := by
    intro p hp d
    have hne : s ≠ p := fun heq => hS.left (heq ▸ hp)
    rw [edges_addEdge_ne _ hne]
  refine ⟨grows_addEdge (Set.mem_insert s S) into, ?_, (· = into), fun d => ?_, fun d hd => ?_,
    fun w => ?_⟩
  · rw [hfresh]
    exact fun p hp d hd => .inr (ha.closed p hp d ((hsame p hp d).1 hd))
  · rw [mem_edges_addEdge hb.left]
    exact or_congr_right (and_iff_right rfl)
  · rw [hfresh, hd, hentry]
    exact .inr ha.entry
  · have hwithin : (g.addEdge s into).Leads a.entry w e ↔ _ :=
      reads_within ha.closed hsame ha.entry
    rw [exists_eq_left, crosses_of_isEpsilon hinto, hentry, hwithin]
    refine iff_of_false id fun h => hS.right ?_
    exact h.stays (S := (· ∈ S)) ha.closed ha.entry

/-- the edges of the fragment, one to its entry and one from its exit -/
def join (g : Graph) (s : Nat) (into : Edge) (a : Fragment) (out : Edge) : Graph :=
  match a.exit with
  | none => g.addEdge s into
  | some x => (g.addEdge s into).addEdge x out

/-- a slide to the entry and a slide from the exit make a fragment a way from `s` to `e` -/
theorem connects_join {s e : Nat} (into out : Edge) (hb : g.Endpoints s e) (hS : g.Clear S s e)
    (ha : a.Lives g S) (hinto : into.isEpsilon = true) (hout : out.isEpsilon = true)
    (hentry : into.target = a.entry) (hexit : out.target = e) :
    Connects S s e (a.words g) g (join g s into a out) := by
  unfold join
  split
  · next hx =>
    rw [words_of_no_exit hx]
    exact connects_nowhere into hb hS ha hinto hentry
  · next x hx =>
    have hxS := ha.exit x hx
    have hb' : (g.addEdge s into).Endpoints x e := by
      refine ⟨?_, ?_, fun heq => hS.right (heq ▸ hxS), ?_⟩
      · rw [size_addEdge]
        exact ha.lt x hxS
      · rw [size_addEdge]
        exact hb.right
      · rw [edges_addEdge_ne _ hb.ne, hb.edges]
    have hone : Connects ∅ x e 1 (g.addEdge s into) ((g.addEdge s into).addEdge x out) := by
      refine connects_addEdge hb' hexit fun w => ?_
      rw [Language.mem_one]
      refine ⟨fun h => .inl ⟨hout, h⟩, ?_⟩
      rintro (⟨-, h⟩ | ⟨sym, -, hacc⟩)
      · exact h
      · rw [accepts_of_isEpsilon hout] at hacc
        exact absurd hacc Bool.false_ne_true
    have h := connects_series hb hS ha hx hinto hentry hone
    rwa [mul_one] at h

theorem makes_group (ha : a.Lives g S) (n : Nat) : Makes S (a.words g) g (a.group n g) := by
  have hgrow := grows_twoStates ∅ g
  have ha' := ha.grows hgrow (Set.empty_disjoint S)
  have h := makes_of_connects ha.lt ha.blank (connects_join
    (Edge.firing (.enter n) a.entry) (Edge.firing (.leave n) (second g)) (endpoints_twoStates g)
    (clear_twoStates ha.lt) ha' rfl rfl rfl rfl)
  rw [ha.words_grows hgrow (Set.empty_disjoint S)] at h
  cases hx : a.exit with
  | none =>
    have hgroup : a.group n g = (⟨g.size, none⟩,
        join (twoStates g) g.size (Edge.firing (.enter n) a.entry) a
          (Edge.firing (.leave n) (second g))) := by
      simp only [group, join, hx]
      rfl
    rw [hgroup, words_of_no_exit hx]
    exact h.dropExit
  | some x =>
    have hgroup : a.group n g = (⟨g.size, some (second g)⟩,
        join (twoStates g) g.size (Edge.firing (.enter n) a.entry) a
          (Edge.firing (.leave n) (second g))) := by
      simp only [group, join, hx]
      rfl
    rw [hgroup]
    exact h

end Fragment
end SpanSearch
