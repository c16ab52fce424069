import SpanSearch.Proofs.Copying

/-!
# What repeated fragments match

* `makes_optional`, `makes_star`, `makes_exactly`, `makes_atLeast`
* `Fragment.atMost`    up to a number of words of a language, one after another
* `makes_upTo`, `makes_between`
-/

namespace SpanSearch
namespace Fragment

open SpanSearch.Graph

variable {g g' : Graph} {a : Fragment} {S : Set Nat} {L : Language Nat}

/-! ## at most once and any number of times -/

theorem optional_eq (a : Fragment) (g : Graph) : a.optional g =
    (⟨g.size, some (second g)⟩, (fan g.size (second g) [a]
      ((twoStates g).addEdge g.size (Edge.epsilon (second g)))).2) := rfl

theorem makes_optional (ha : a.Lives g S) : Makes S (1 + a.words g) g (a.optional g) := by
  rw [optional_eq]
  refine makes_of_connects ha.lt ha.blank ?_
  have hb := endpoints_twoStates g
  have hclear := clear_twoStates (g := g) ha.lt
  have hone := connects_epsilon hb
  have hnone := clear_empty (twoStates g) g.size (second g)
  have hgrow := grows_twoStates ∅ g
  have ha' := (ha.grows hgrow (Set.empty_disjoint S)).grows hone.grows
    (Set.disjoint_insert_left.2 ⟨hclear.left, Set.empty_disjoint S⟩)
  have hwords : a.words ((twoStates g).addEdge g.size (Edge.epsilon (second g))) = a.words g := by
    rw [(ha.grows hgrow (Set.empty_disjoint S)).words_grows hone.grows
      (Set.disjoint_insert_left.2 ⟨hclear.left, Set.empty_disjoint S⟩),
      ha.words_grows hgrow (Set.empty_disjoint S)]
  have hfan := connects_fan ha'.row (hone.endpoints hb hnone.right)
    (hclear.of_size_le hone.grows.size)
  have h := Connects.trans hb hnone hclear (Set.empty_disjoint S) hone hfan
  rw [Set.empty_union, List.sum_singleton, hwords] at h
  exact h

/-- the entry and the exit of a loop, with the edges into the fragment and past it -/
def opened (a : Fragment) (g : Graph) : Graph :=
  ((twoStates g).addEdge g.size (Edge.epsilon a.entry)).addEdge g.size (Edge.epsilon (second g))

theorem star_of_no_exit (hx : a.exit = none) (g : Graph) :
    a.star g = (⟨g.size, some (second g)⟩, opened a g) := by
  simp only [star, hx]
  rfl

/-- and with the edges back and out from the exit of the fragment -/
def looped (a : Fragment) (x : Nat) (g : Graph) : Graph :=
  ((opened a g).addEdge x (Edge.epsilon a.entry)).addEdge x (Edge.epsilon (second g))

theorem star_of_exit {x : Nat} (hx : a.exit = some x) (g : Graph) :
    a.star g = (⟨g.size, some (second g)⟩, looped a x g) := by
  simp only [star, hx]
  rfl

theorem size_opened (a : Fragment) (g : Graph) : (opened a g).size = g.size + 2 := by
  rw [opened, size_addEdge, size_addEdge, size_twoStates]

theorem mem_edges_opened {p : Nat} {d : Edge} : d ∈ (opened a g).edges p ↔ d ∈ g.edges p ∨
    p = g.size ∧ (d = Edge.epsilon a.entry ∨ d = Edge.epsilon (second g)) := by
  have hlt : g.size < (twoStates g).size := (endpoints_twoStates g).left
  have hlt' : g.size < ((twoStates g).addEdge g.size (Edge.epsilon a.entry)).size := by
    rw [size_addEdge]
    exact hlt
  rw [opened, mem_edges_addEdge hlt', mem_edges_addEdge hlt, edges_twoStates, or_assoc,
    ← and_or_left]

theorem size_looped (a : Fragment) (x : Nat) (g : Graph) : (looped a x g).size = g.size + 2 := by
  rw [looped, size_addEdge, size_addEdge, size_opened]

theorem mem_edges_looped {x : Nat} (hx : x < g.size) {p : Nat} {d : Edge} :
    d ∈ (looped a x g).edges p ↔ (d ∈ g.edges p ∨
      p = g.size ∧ (d = Edge.epsilon a.entry ∨ d = Edge.epsilon (second g))) ∨
        p = x ∧ (d = Edge.epsilon a.entry ∨ d = Edge.epsilon (second g)) := by
  have hx₁ : x < (opened a g).size := by
    rw [size_opened]
    omega
  have hx₂ : x < ((opened a g).addEdge x (Edge.epsilon a.entry)).size := by
    rw [size_addEdge]
    exact hx₁
  rw [looped, mem_edges_addEdge hx₂, mem_edges_addEdge hx₁, mem_edges_opened, or_assoc,
    ← and_or_left]

theorem grows_opened (S : Set Nat) (a : Fragment) (g : Graph) :
    Grows (insert g.size S) (twoStates g) (opened a g) :=
  (grows_addEdge (Set.mem_insert _ _) _).trans (grows_addEdge (Set.mem_insert _ _) _)
    Set.subset_union_left

theorem grows_looped {x : Nat} (hx : x ∈ S) (a : Fragment) (g : Graph) :
    Grows (insert g.size S) (twoStates g) (looped a x g) := by
  have hgrow := (grows_addEdge (g := opened a g) hx (Edge.epsilon a.entry)).trans
    (grows_addEdge hx (Edge.epsilon (second g))) Set.subset_union_left
  exact (grows_opened S a g).trans (hgrow.mono (Set.subset_insert g.size S)) Set.subset_union_left

section
variable (ha : a.Lives g S) {x e : Nat} (hx : a.exit = some x) (heS : e ∉ S)
  (he : g'.edges e = []) (hedges : ∀ p ∈ S, ∀ d, d ∈ g'.edges p ↔
    d ∈ g.edges p ∨ p = x ∧ (d = Edge.epsilon a.entry ∨ d = Edge.epsilon e))
include ha hx heS he hedges

/-- on the way out there are the rest of one pass and then full passes -/
theorem exists_passes {p : Nat} (hp : p ∈ S) {w : List Nat} (h : g'.Leads p w e) :
    ∃ u v, w = u ++ v ∧ g.Leads p u x ∧ v ∈ KStar.kstar (a.words g) := by
  induction h with
  | here p => exact absurd hp heS
  | slide mem eps rest ih =>
    rcases (hedges _ hp _).1 mem with hold | ⟨rfl, rfl | rfl⟩
    · obtain ⟨u, v, rfl, hu, hv⟩ := ih heS he hedges (ha.closed _ hp _ hold)
      exact ⟨u, v, rfl, .slide hold eps hu, hv⟩
    · obtain ⟨u, v, rfl, hu, hv⟩ := ih heS he hedges ha.entry
      refine ⟨[], u ++ v, rfl, .here _, ?_⟩
      rw [← Language.one_add_self_mul_kstar_eq_kstar]
      exact .inr ⟨u, (words_of_exit hx).2 hu, v, hv, rfl⟩
    · obtain ⟨rfl, -⟩ := rest.eq_of_edges_eq_nil he
      exact ⟨[], [], rfl, .here _, Language.nil_mem_kstar _⟩
  | @read p q sym d w mem acc rest ih =>
    rcases (hedges _ hp _).1 mem with hold | ⟨rfl, rfl | rfl⟩
    · obtain ⟨u, v, rfl, hu, hv⟩ := ih heS he hedges (ha.closed _ hp _ hold)
      exact ⟨sym :: u, v, rfl, Leads.read hold acc hu, hv⟩
    · exact absurd acc Bool.false_ne_true
    · exact absurd acc Bool.false_ne_true

/-- from the exit of the fragment one comes back to its entry or leaves -/
theorem leads_star {w : List Nat} :
    g'.Leads a.entry w e ↔ w ∈ a.words g * KStar.kstar (a.words g) := by
  constructor
  · intro h
    obtain ⟨u, v, rfl, hu, hv⟩ := exists_passes ha hx heS he hedges ha.entry h
    exact ⟨u, (words_of_exit hx).2 hu, v, hv, rfl⟩
  · rintro ⟨u, hu, v, hv, rfl⟩
    have hxS := ha.exit x hx
    have hinto {u : List Nat} (hu : u ∈ a.words g) : g'.Leads a.entry u x :=
      ((words_of_exit hx).1 hu).within ha.closed (fun p hp d hd => (hedges p hp d).2 (.inl hd))
        ha.entry
    have hback : g'.Leads x [] a.entry :=
      .slide ((hedges x hxS _).2 (.inr ⟨rfl, .inl rfl⟩)) rfl (.here _)
    have hout : g'.Leads x [] e :=
      .slide ((hedges x hxS _).2 (.inr ⟨rfl, .inr rfl⟩)) rfl (.here _)
    obtain ⟨l, rfl, hl⟩ := Language.mem_kstar.1 hv
    refine (hinto hu).append ?_
    clear hu hv
    induction l with
    | nil => exact hout
    | cons v l ih =>
      obtain ⟨hv, hl⟩ := List.forall_mem_cons.1 hl
      rw [List.flatten_cons]
      exact hback.append ((hinto hv).append (ih hl))

end

theorem connects_opened (ha : a.Lives g S) :
    Connects S g.size (second g) 1 (twoStates g) (opened a g) := by
  have hb := endpoints_twoStates g
  have hclear := clear_twoStates (g := g) ha.lt
  have ha' := ha.grows (grows_twoStates ∅ g) (Set.empty_disjoint S)
  have hnowhere := connects_nowhere (Edge.epsilon a.entry) hb hclear ha' rfl rfl
  have hone := connects_epsilon (hnowhere.endpoints hb hclear.right)
  have h := Connects.trans hb hclear (clear_empty _ _ _) (Set.disjoint_empty S) hnowhere hone
  rw [Set.union_empty, zero_add] at h
  exact h

/-- whatever passes through the fragment, any number of times -/
theorem connects_looped (ha : a.Lives g S) {x : Nat} (hx : a.exit = some x) :
    Connects S g.size (second g) (KStar.kstar (a.words g)) (twoStates g) (looped a x g) := by
  have hclear := clear_twoStates (g := g) ha.lt
  have hsecond := second_eq g
  have hxS := ha.exit x hx
  have hmem {p : Nat} {d : Edge} := mem_edges_looped (a := a) (p := p) (d := d) (ha.lt x hxS)
  have hne {p : Nat} (hp : p ∈ S) : p ≠ g.size := fun heq => hclear.left (heq ▸ hp)
  have hfresh : S ∪ fresh (twoStates g) (looped a x g) = S := by
    ext p
    rw [Set.mem_union, mem_fresh, size_looped, size_twoStates]
    exact or_iff_left (by omega)
  have hedges : ∀ p ∈ S, ∀ d, d ∈ (looped a x g).edges p ↔ d ∈ g.edges p ∨
      p = x ∧ (d = Edge.epsilon a.entry ∨ d = Edge.epsilon (second g)) := by
    intro p hp d
    rw [hmem, or_iff_left (a := d ∈ g.edges p) fun h => hne hp h.1]
  have hexit : (looped a x g).edges (second g) = [] := by
    refine List.eq_nil_iff_forall_not_mem.2 fun d hd => ?_
    rcases hmem.1 hd with (hd | ⟨heq, -⟩) | ⟨heq, -⟩
    · rw [edges_of_size_le (by omega)] at hd
      exact absurd hd List.not_mem_nil
    · omega
    · exact hclear.right (heq ▸ hxS)
  refine ⟨grows_looped hxS a g, ?_,
    fun d => d = Edge.epsilon a.entry ∨ d = Edge.epsilon (second g), fun d => ?_, ?_,
    fun w => ?_⟩
  · rw [hfresh]
    intro p hp d hd
    rcases (hedges p hp d).1 hd with hd | ⟨-, rfl | rfl⟩
    · exact .inr (ha.closed p hp d hd)
    · exact .inr ha.entry
    · exact .inl rfl
  · rw [hmem, edges_twoStates, or_iff_left fun h => hne hxS h.1.symm]
    exact or_congr_right (and_iff_right rfl)
  · rw [hfresh]
    rintro d (rfl | rfl)
    · exact .inr ha.entry
    · exact .inl rfl
  · have hloop := leads_star ha hx hclear.right hexit hedges (w := w)
    have hpast : (looped a x g).Leads (second g) w (second g) ↔ w ∈ (1 : Language Nat) := by
      rw [Language.mem_one]
      exact ⟨fun h => (h.eq_of_edges_eq_nil hexit).1, fun h => h ▸ .here _⟩
    have hcross (t : Nat) : (looped a x g).Crosses (Edge.epsilon t) w (second g) ↔
        (looped a x g).Leads t w (second g) := crosses_of_isEpsilon rfl
    rw [← Language.one_add_self_mul_kstar_eq_kstar, Language.mem_add, ← hloop, ← hpast, or_comm]
    simp only [or_and_right, exists_or, exists_eq_left, hcross]

theorem makes_star (ha : a.Lives g S) :
    Makes S (KStar.kstar (a.words g)) g (a.star g) := by
  cases hx : a.exit with
  | none =>
    rw [star_of_no_exit hx, words_of_no_exit hx, kstar_zero]
    exact makes_of_connects ha.lt ha.blank (connects_opened ha)
  | some x =>
    rw [star_of_exit hx]
    exact makes_of_connects ha.lt ha.blank (connects_looped ha hx)

/-! ## a fixed number of times -/

theorem makes_exactly (hc : g.Closed) (ha : a.Lives g S) (n : Nat) :
    Makes S (a.words g ^ n) g (a.exactly n g) := by
  cases n with
  | zero =>
    rw [pow_zero]
    have h := (makes_empty g).union ha.toRegion (Set.empty_disjoint S)
    rwa [Set.empty_union] at h
  | succ n =>
    obtain ⟨hgrow, hrow⟩ := makesRow_copyTimes hc ha n
    have hstep : a.exactly (n + 1) g =
        concatenation (a :: (a.copyTimes n g).1) (a.copyTimes n g).2 := rfl
    have hall := Row.cons (ha.grows hgrow (Set.empty_disjoint S)) hrow ha.disjoint_fresh
    have h := makes_concatenation hall
    rw [ha.words_grows hgrow (Set.empty_disjoint S), List.prod_cons, List.prod_replicate,
      ← pow_succ'] at h
    rw [hstep]
    exact h.of_grows (hgrow.mono (Set.empty_subset S))

theorem makes_atLeast (hc : g.Closed) (ha : a.Lives g S) (n : Nat) :
    Makes S (a.words g ^ n * KStar.kstar (a.words g)) g (a.atLeast n g) := by
  cases n with
  | zero =>
    rw [pow_zero, one_mul]
    exact makes_star ha
  | succ n =>
    have hcopies := makesRow_copyTimes hc ha n
    have hstep : a.atLeast (n + 1) g =
        (let r := a.copyTimes n g
        let c := a.copy r.2
        let l := c.1.star c.2
        concatenation (a :: (r.1 ++ [l.1])) l.2) := rfl
    rw [hstep]
    dsimp only
    have ha' := ha.grows hcopies.grows (Set.empty_disjoint S)
    have hcopy := makes_copy (hcopies.closed hc) ha'
    have hloop := (makes_star hcopy.lives).of_grows hcopy.grows
    rw [hcopy.words, ha.words_grows hcopies.grows (Set.empty_disjoint S)] at hloop
    -- the fragment and its copies, and behind them the loop
    have hrow := hcopies.append hloop.row
    have hall := Row.cons (ha.grows hrow.grows (Set.empty_disjoint S)) hrow.row ha.disjoint_fresh
    have h := makes_concatenation hall
    rw [ha.words_grows hrow.grows (Set.empty_disjoint S), List.prod_cons, List.prod_append,
      List.prod_replicate, List.prod_singleton, ← mul_assoc, ← pow_succ'] at h
    exact h.of_grows (hrow.grows.mono (Set.empty_subset S))

/-! ## up to a number of times -/

def atMost (L : Language Nat) (n : Nat) : Language Nat := {w | ∃ k ≤ n, w ∈ L ^ k}

theorem mem_atMost {n : Nat} {w : List Nat} : w ∈ atMost L n ↔ ∃ k ≤ n, w ∈ L ^ k := Iff.rfl

theorem atMost_zero (L : Language Nat) : atMost L 0 = 1 := by
  ext w
  rw [mem_atMost]
  constructor
  · rintro ⟨k, hk, hw⟩
    rwa [Nat.le_zero.1 hk, pow_zero] at hw
  · intro hw
    refine ⟨0, Nat.le_refl 0, ?_⟩
    rwa [pow_zero]

theorem atMost_succ (L : Language Nat) (n : Nat) : atMost L (n + 1) = 1 + L * atMost L n := by
  ext w
  rw [mem_atMost, Language.mem_add, Language.mem_mul]
  constructor
  · rintro ⟨k, hk, hw⟩
    cases k with
    | zero =>
      rw [pow_zero] at hw
      exact .inl hw
    | succ k =>
      rw [pow_succ'] at hw
      obtain ⟨u, hu, v, hv, rfl⟩ := hw
      exact .inr ⟨u, hu, v, ⟨k, Nat.le_of_succ_le_succ hk, hv⟩, rfl⟩
  · rintro (hw | ⟨u, hu, v, ⟨k, hk, hv⟩, rfl⟩)
    · refine ⟨0, Nat.zero_le _, ?_⟩
      rwa [pow_zero]
    · refine ⟨k + 1, Nat.succ_le_succ hk, ?_⟩
      rw [pow_succ']
      exact ⟨u, hu, v, hv, rfl⟩

/-- at least one and up to `n` words of `L` one after another -/
def further (L : Language Nat) : Nat → Language Nat
  | 0 => 0
  | n + 1 => L * atMost L n

theorem one_add_further (L : Language Nat) (n : Nat) : 1 + further L n = atMost L n := by
  cases n with
  | zero => rw [further, add_zero, atMost_zero]
  | succ n => rw [further, atMost_succ]

theorem upToFrom_succ_apply (a : Fragment) (e current n : Nat) (g : Graph) :
    a.upToFrom e current (n + 1) g =
      (match (a.copy g).1.exit with
      | none => return ()
      | some x => do
        Build.epsilon x e
        a.upToFrom e x n : Build Unit)
        ((a.copy g).2.addEdge current (Edge.epsilon (a.copy g).1.entry)) := rfl

theorem upToFrom_of_no_exit {e current : Nat} (n : Nat) (hx : (a.copy g).1.exit = none) :
    a.upToFrom e current (n + 1) g =
      ((), (a.copy g).2.addEdge current (Edge.epsilon (a.copy g).1.entry)) := by
  rw [upToFrom_succ_apply, hx]
  rfl

theorem upToFrom_of_exit {e current x : Nat} (n : Nat) (hx : (a.copy g).1.exit = some x) :
    a.upToFrom e current (n + 1) g = a.upToFrom e x n
      (((a.copy g).2.addEdge current (Edge.epsilon (a.copy g).1.entry)).addEdge x
        (Edge.epsilon e)) := by
  rw [upToFrom_succ_apply, hx]
  rfl

/-- copies behind `current`, each of them the last one if need be -/
theorem connects_upToFrom (n : Nat) {current e : Nat} (hc : g.Closed) (ha : a.Lives g S)
    (hb : g.Endpoints current e) (hS : current ∉ S) :
    Connects ∅ current e (further (a.words g) n) g (a.upToFrom e current n g).2 := by
  induction n generalizing g current with
  | zero => exact connects_refl current e g
  | succ n ih =>
    have hcopy := makes_copy hc ha
    have hc' := hcopy.closed hc
    have ha' := ha.grows hcopy.grows (Set.empty_disjoint S)
    have hwords := ha.words_grows hcopy.grows (Set.empty_disjoint S)
    have hb' := hb.grows hcopy.grows (Set.notMem_empty e)
    have hclear : (a.copy g).2.Clear (∅ ∪ fresh g (a.copy g).2) current e := by
      rw [Set.empty_union]
      exact ⟨fun h => Nat.not_lt_of_le h.1 hb.left, fun h => Nat.not_lt_of_le h.1 hb.right,
        fun p hp => hp.2⟩
    refine Connects.of_grows hcopy.grows hb.left (Set.notMem_empty current) ?_
    cases hx : (a.copy g).1.exit with
    | none =>
      have hzero : a.words g = 0 := by rw [← hcopy.words, words_of_no_exit hx]
      rw [upToFrom_of_no_exit n hx, further, hzero, zero_mul]
      exact connects_nowhere _ hb' hclear hcopy.lives rfl rfl
    | some x =>
      rw [upToFrom_of_exit n hx, further, ← one_add_further, ← hcopy.words]
      have hentry := hcopy.lives.lt _ hcopy.lives.entry
      have hxin := hcopy.lives.exit x hx
      have hlives := hcopy.lives
      generalize a.copy g = c at *
      have hgrow := grows_addEdge (g := c.2) (Set.mem_singleton current) (Edge.epsilon c.1.entry)
      have hxlt : x < (c.2.addEdge current (Edge.epsilon c.1.entry)).size := by
        rw [size_addEdge]
        exact hlives.lt x hxin
      have hbx : (c.2.addEdge current (Edge.epsilon c.1.entry)).Endpoints x e := by
        refine ⟨hxlt, ?_, fun heq => hclear.right (heq ▸ hxin), ?_⟩
        · rw [size_addEdge]
          exact hb'.right
        · rw [edges_addEdge_ne _ hb.ne, hb'.edges]
      have hxS : x ∉ S := by
        intro h
        rw [Set.empty_union] at hxin
        exact Nat.not_lt_of_le hxin.1 (ha.lt x h)
      have hgrow' := grows_addEdge (g := c.2.addEdge current (Edge.epsilon c.1.entry))
        (Set.mem_singleton x) (Edge.epsilon e)
      have hdisj := Set.disjoint_singleton_left.2 hS
      have hdisj' := Set.disjoint_singleton_left.2 hxS
      have hone := connects_epsilon hbx
      have hrest := ih ((hc'.addEdge hentry).addEdge hbx.right)
        ((ha'.grows hgrow hdisj).grows hgrow' hdisj') (hone.endpoints hbx (Set.notMem_empty e)) hxS
      rw [(ha'.grows hgrow hdisj).words_grows hgrow' hdisj', ha'.words_grows hgrow hdisj,
        hwords] at hrest
      have h := Connects.trans hbx (clear_empty _ _ _) (clear_empty _ _ _) (Set.empty_disjoint ∅)
        hone hrest
      rw [Set.union_empty] at h
      rw [← hcopy.words] at h
      exact connects_series hb' hclear hlives hx rfl rfl h

theorem upTo_eq (a : Fragment) (n : Nat) (g : Graph) : a.upTo n g =
    (⟨g.size, some (second g)⟩, (a.upToFrom (second g) g.size n
      ((twoStates g).addEdge g.size (Edge.epsilon (second g)))).2) := rfl

theorem makes_upTo (hc : g.Closed) (ha : a.Lives g S) (n : Nat) :
    Makes ∅ (atMost (a.words g) n) g (a.upTo n g) := by
  rw [upTo_eq, ← one_add_further]
  have hempty : ∀ p ∈ (∅ : Set Nat), p < g.size := fun p hp => absurd hp (Set.notMem_empty p)
  refine makes_of_connects hempty (fun p hp => absurd hp (Set.notMem_empty p)) ?_
  have hb := endpoints_twoStates g
  have hclear := clear_twoStates (g := g) ha.lt
  have hnone := clear_empty (twoStates g) g.size (second g)
  have hone := connects_epsilon hb
  have hgrow := grows_twoStates ∅ g
  have ha' := ha.grows hgrow (Set.empty_disjoint S)
  have hdisj : Disjoint (insert g.size ∅) S :=
    Set.disjoint_insert_left.2 ⟨hclear.left, Set.empty_disjoint S⟩
  have hc' : (twoStates g).Closed := by
    refine hgrow.closed hc fun p hp e he => ?_
    rw [edges_twoStates] at he
    exact Nat.lt_of_lt_of_le (hc p e he) hgrow.size
  have h := connects_upToFrom n (hc'.addEdge hb.right) (ha'.grows hone.grows hdisj)
    (hone.endpoints hb hnone.right) hclear.left
  rw [ha'.words_grows hone.grows hdisj, ha.words_grows hgrow (Set.empty_disjoint S)] at h
  have hboth := Connects.trans hb hnone hnone (Set.empty_disjoint ∅) hone h
  rwa [Set.union_empty] at hboth

theorem makes_between (hc : g.Closed) (ha : a.Lives g S) {least most : Nat}
    (hlt : least < most) :
    Makes S (a.words g ^ least * atMost (a.words g) (most - least)) g
      (a.between least most g) := by
  have hstep : a.between least most g =
      (let c := a.copy g
      let f := a.exactly least c.2
      let m := c.1.upTo (most - least) f.2
      concatenation [f.1, m.1] m.2) := by
    rw [between, if_neg (Nat.not_le_of_lt hlt)]
    rfl
  rw [hstep]
  dsimp only
  have hcopy := makes_copy hc ha
  have hc₁ := hcopy.closed hc
  have hdisj : Disjoint S (fresh g (a.copy g).2) := ha.disjoint_fresh
  have ha₁ := ha.grows hcopy.grows (Set.empty_disjoint S)
  have hfixed := makes_exactly hc₁ ha₁ least
  rw [ha.words_grows hcopy.grows (Set.empty_disjoint S)] at hfixed
  have hlives := hcopy.lives
  have hwords := hcopy.words
  rw [Set.empty_union] at hlives
  have hgrow := hcopy.grows
  generalize a.copy g = c at *
  have hc₂ := hfixed.closed hc₁
  have hlives' := hlives.grows hfixed.grows hdisj
  have hmore := makes_upTo hc₂ hlives' (most - least)
  rw [hlives.words_grows hfixed.grows hdisj, hwords] at hmore
  have hgrow' := hfixed.grows
  have hfirst := hfixed.lives.grows hmore.grows (Set.empty_disjoint _)
  have hfirst' := hfixed.lives.words_grows hmore.grows (Set.empty_disjoint _)
  rw [hfixed.words] at hfirst'
  generalize a.exactly least c.2 = f at *
  have hsecond := hmore.lives.row
  have hapart : Disjoint _ (fresh f.2 (c.1.upTo (most - least) f.2).2) :=
    hfixed.lives.disjoint_fresh
  rw [Set.empty_union, hmore.words] at hsecond
  have hextra := hlives'.toRegion.grows hmore.grows (Set.empty_disjoint _)
  have hgrow'' := hmore.grows
  generalize c.1.upTo (most - least) f.2 = m at *
  have hall := makes_concatenation (Row.cons hfirst hsecond hapart)
  -- the copy that the further ones are made of stays behind
  have hrest : Disjoint (S ∪ fresh c.2 f.2 ∪ fresh f.2 m.2) (fresh g c.2) := by
    refine Set.disjoint_union_left.2 ⟨Set.disjoint_union_left.2 ⟨hdisj, ?_⟩, ?_⟩
    · exact (disjoint_fresh_fresh (Nat.le_refl _)).symm
    · exact (disjoint_fresh_fresh hgrow'.size).symm
  have h := hall.union hextra hrest
  have hlater : Grows S c.2 m.2 :=
    hgrow'.trans (hgrow''.mono (Set.empty_subset S)) Set.subset_union_left
  have hsets : S ∪ fresh c.2 f.2 ∪ fresh f.2 m.2 ∪ fresh g c.2 = S ∪ fresh g m.2 := by
    rw [Set.union_assoc, Set.union_assoc, ← Set.union_assoc (fresh c.2 f.2),
      fresh_union hgrow' hgrow'', Set.union_comm (fresh c.2 m.2), fresh_union hgrow hlater]
  rw [hsets, hfirst', List.prod_cons, List.prod_singleton] at h
  exact h.of_grows ((hgrow.mono (Set.empty_subset S)).trans hlater Set.subset_union_left)

end Fragment
end SpanSearch
