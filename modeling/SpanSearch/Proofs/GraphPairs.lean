import SpanSearch.Proofs.Clipping
import SpanSearch.Proofs.Copying

/-!
# Two constructions side by side

A narrow and a wide graph are built step by step, the one inside the other.  States that were
there in the beginning keep their edges.

* `GraphPair`               the two graphs, those they began as, and the roles of the states
* `GraphPair.Within`        a later pair keeps the roles of an earlier one
* `GraphPair.IsImage`, `GraphPair.Single`, `GraphPair.Has`   a state and its image, one without
                            an image, and one of the wide graph with any role
* `GraphPair.onto`, `GraphPair.idle`   what has been added keeps its images, or has none
* `Build.Pairs`             two steps extend a pair
* `pairs_state`, `pairs_edge`, ...   the single steps
-/

namespace SpanSearch

open SpanSearch.Graph

/-- a narrow graph inside a wide one, both under construction; they began as `g₀` and `h₀` -/
structure GraphPair (m : Nat) (g₀ h₀ : Graph) where
  narrow : Graph
  wide : Graph
  role : Nat → Role
  narrow_closed : narrow.Closed
  wide_closed : wide.Closed
  embeds : Embeds m role narrow wide
  narrow_extends : g₀.Extends narrow
  wide_extends : h₀.Extends wide

variable {m : Nat} {g₀ h₀ : Graph}

namespace GraphPair

variable {w w' w'' : GraphPair m g₀ h₀} {p q : Nat}

/-- every state of `w` is one of `w'` with the same role, and none gets an image later -/
structure Within (w w' : GraphPair m g₀ h₀) : Prop where
  narrow : w.narrow.size ≤ w'.narrow.size
  wide : w.wide.size ≤ w'.wide.size
  role : ∀ q < w.wide.size, w'.role q = w.role q
  image : ∀ q p, w'.role q = .image p → p < w.narrow.size → q < w.wide.size

theorem Within.refl (w : GraphPair m g₀ h₀) : w.Within w where
  narrow := Nat.le_refl _
  wide := Nat.le_refl _
  role := fun _ _ => rfl
  image := fun q _ hq _ => w.embeds.lt q (image_ne_spare hq)

theorem Within.trans (h : w.Within w') (h' : w'.Within w'') : w.Within w'' where
  narrow := Nat.le_trans h.narrow h'.narrow
  wide := Nat.le_trans h.wide h'.wide
  role := fun q hq => (h'.role q (Nat.lt_of_lt_of_le hq h.wide)).trans (h.role q hq)
  image := fun q p hq hp => by
    have hlt := h'.image q p hq (Nat.lt_of_lt_of_le hp h.narrow)
    exact h.image q p ((h'.role q hlt).symm.trans hq) hp

/-- a state and its image -/
def IsImage (w : GraphPair m g₀ h₀) (p q : Nat) : Prop := w.role q = .image p

/-- a state of the narrow graph without an image -/
def Single (w : GraphPair m g₀ h₀) (p : Nat) : Prop := p < w.narrow.size ∧ ∀ q, w.role q ≠ .image p

/-- a state of the wide graph and its role -/
def Has (w : GraphPair m g₀ h₀) (q : Nat) (r : Role) : Prop := q < w.wide.size ∧ w.role q = r

theorem IsImage.narrow_lt (h : w.IsImage p q) : p < w.narrow.size := w.embeds.image_lt q p h

theorem IsImage.wide_lt (h : w.IsImage p q) : q < w.wide.size := w.embeds.lt q (image_ne_spare h)

theorem IsImage.within (h : w.IsImage p q) (hw : w.Within w') : w'.IsImage p q :=
  (hw.role q h.wide_lt).trans h

theorem Single.within (h : w.Single p) (hw : w.Within w') : w'.Single p :=
  ⟨Nat.lt_of_lt_of_le h.1 hw.narrow, fun q hq =>
    h.2 q ((hw.role q (hw.image q p hq h.1)).symm.trans hq)⟩

theorem Has.within {r : Role} (h : w.Has q r) (hw : w.Within w') : w'.Has q r :=
  ⟨Nat.lt_of_lt_of_le h.1 hw.wide, (hw.role q h.1).trans h.2⟩

def begin (w : GraphPair m g₀ h₀) : GraphPair m w.narrow w.wide :=
  ⟨w.narrow, w.wide, w.role, w.narrow_closed, w.wide_closed, w.embeds, .refl _, .refl _⟩

/-- what has been added to a pair, seen from where that one began -/
def onto (w : GraphPair m g₀ h₀) (w' : GraphPair m w.narrow w.wide) : GraphPair m g₀ h₀ :=
  ⟨w'.narrow, w'.wide, w'.role, w'.narrow_closed, w'.wide_closed, w'.embeds,
    w.narrow_extends.trans w'.narrow_extends, w.wide_extends.trans w'.wide_extends⟩

theorem within_onto {w' : GraphPair m w.narrow w.wide} (h : w.begin.Within w') :
    w.Within (w.onto w') :=
  ⟨h.narrow, h.wide, h.role, h.image⟩

/-- what has been added to a pair, without any images in it -/
def idle (w : GraphPair m g₀ h₀) (w' : GraphPair m w.narrow w.wide) : GraphPair m g₀ h₀ :=
  ⟨w'.narrow, w'.wide, w.role, w'.narrow_closed, w'.wide_closed,
    w.embeds.grows w'.narrow_extends.size w'.wide_extends.size
      (fun q p hq => w'.narrow_extends.edges p (w.embeds.image_lt q p hq))
      fun q hq => w'.wide_extends.edges q (w.embeds.lt q hq),
    w.narrow_extends.trans w'.narrow_extends, w.wide_extends.trans w'.wide_extends⟩

theorem within_idle (w : GraphPair m g₀ h₀) (w' : GraphPair m w.narrow w.wide) :
    w.Within (w.idle w') where
  narrow := w'.narrow_extends.size
  wide := w'.wide_extends.size
  role := fun _ _ => rfl
  image := fun q _ hq _ => w.embeds.lt q (image_ne_spare hq)

theorem single_idle {w' : GraphPair m w.narrow w.wide} (hp : w.narrow.size ≤ p)
    (hlt : p < w'.narrow.size) : (w.idle w').Single p :=
  ⟨hlt, fun q hq => Nat.not_lt_of_le hp (w.embeds.image_lt q p hq)⟩

theorem has_idle {w' : GraphPair m w.narrow w.wide} (hq : w.wide.size ≤ q)
    (hlt : q < w'.wide.size) : (w.idle w').Has q .spare := by
  refine ⟨hlt, ?_⟩
  by_contra hne
  exact Nat.not_lt_of_le hq (w.embeds.lt q hne)

end GraphPair

namespace Build

open GraphPair

variable {α β γ δ : Type} {w : GraphPair m g₀ h₀} {b : Build α} {b' : Build β} {p q s t : Nat}

/-- the two steps leave a larger pair, in which `Q` holds of their results -/
def Pairs (b : Build α) (b' : Build β) (w : GraphPair m g₀ h₀)
    (Q : GraphPair m g₀ h₀ → α → β → Prop) : Prop :=
  ∃ w', w.Within w' ∧ (b w.narrow).2 = w'.narrow ∧ (b' w.wide).2 = w'.wide ∧
    Q w' (b w.narrow).1 (b' w.wide).1

section

variable {P : GraphPair m g₀ h₀ → α → β → Prop} {Q : GraphPair m g₀ h₀ → γ → δ → Prop}

theorem pairs_pure {x : α} {y : β} (h : P w x y) : Pairs (pure x) (pure y) w P :=
  ⟨w, .refl w, rfl, rfl, h⟩

theorem Pairs.bind {f : α → Build γ} {f' : β → Build δ} (h : b.Pairs b' w P)
    (hf : ∀ w' x y, w.Within w' → P w' x y → (f x).Pairs (f' y) w' Q) :
    Pairs (b >>= f) (b' >>= f') w Q := by
  obtain ⟨w', hw, hnarrow, hwide, hP⟩ := h
  obtain ⟨w'', hw', hnarrow', hwide', hQ⟩ := hf w' _ _ hw hP
  have hstep : (b >>= f) w.narrow = f (b w.narrow).1 w'.narrow := congrArg _ hnarrow
  have hstep' : (b' >>= f') w.wide = f' (b' w.wide).1 w'.wide := congrArg _ hwide
  refine ⟨w'', hw.trans hw', ?_, ?_, ?_⟩
  · rw [hstep]
    exact hnarrow'
  · rw [hstep']
    exact hwide'
  · rw [hstep, hstep']
    exact hQ

theorem Pairs.wide {x : α} {R : GraphPair m g₀ h₀ → β → Prop} {c : Build γ} {f : β → Build δ}
    (h : Pairs (pure x) b' w fun w' _ y => R w' y)
    (hf : ∀ w' y, w.Within w' → R w' y → c.Pairs (f y) w' Q) : Pairs c (b' >>= f) w Q :=
  Pairs.bind (f := fun _ => c) h fun w' _ y hw hR => hf w' y hw hR

theorem Pairs.narrow {y : β} {R : GraphPair m g₀ h₀ → α → Prop} {f : α → Build γ} {c : Build δ}
    (h : Pairs b (pure y) w fun w' x _ => R w' x)
    (hf : ∀ w' x, w.Within w' → R w' x → (f x).Pairs c w' Q) : Pairs (b >>= f) c w Q :=
  h.bind fun w' x _ hw hR => hf w' x hw hR

theorem Pairs.imp {R : GraphPair m g₀ h₀ → α → β → Prop} (h : b.Pairs b' w P)
    (hPR : ∀ w' x y, w.Within w' → P w' x y → R w' x y) : b.Pairs b' w R := by
  obtain ⟨w', hw, hnarrow, hwide, hP⟩ := h
  exact ⟨w', hw, hnarrow, hwide, hPR w' _ _ hw hP⟩

/-- a step of the narrow graph and then one of the wide graph -/
theorem Pairs.apart {P : GraphPair m g₀ h₀ → α → Prop} {R : GraphPair m g₀ h₀ → β → Prop}
    (h : Pairs b (pure ()) w fun w' x _ => P w' x)
    (hP : ∀ w' w'' x, w'.Within w'' → P w' x → P w'' x)
    (h' : ∀ w', w.Within w' → Pairs (pure ()) b' w' fun w'' _ y => R w'' y) :
    b.Pairs b' w fun w' x y => P w' x ∧ R w' y := by
  obtain ⟨w', hw, hnarrow, hwide, hx⟩ := h
  obtain ⟨w'', hw', hnarrow', hwide', hy⟩ := h' w' hw
  have hwide : w.wide = w'.wide := hwide
  have hnarrow' : w'.narrow = w''.narrow := hnarrow'
  refine ⟨w'', hw.trans hw', hnarrow.trans hnarrow', ?_, hP w' w'' _ hw' hx, ?_⟩
  · rw [hwide]
    exact hwide'
  · rw [hwide]
    exact hy

end

/-! ## single steps -/

theorem pairs_state (w : GraphPair m g₀ h₀) : state.Pairs state w fun w' p q =>
    w'.IsImage p q ∧ g₀.size ≤ p ∧ h₀.size ≤ q := by
  have hsize := size_addState w.narrow
  refine ⟨⟨w.narrow.addState.2, w.wide.addState.2,
    Function.update w.role w.wide.size (.image w.narrow.size), w.narrow_closed.addState,
    w.wide_closed.addState, w.embeds.addState w.wide_closed ?_ (fun p _ => edges_addState p) _ ?_,
    w.narrow_extends.trans (extends_addState _), w.wide_extends.trans (extends_addState _)⟩,
    ⟨?_, ?_, fun q hq => Function.update_of_ne (Nat.ne_of_lt hq) _ _, fun q p hq hp => ?_⟩,
    rfl, rfl, Function.update_self .., w.narrow_extends.size, w.wide_extends.size⟩
  · exact (extends_addState _).size
  · intro p hp
    obtain rfl := Role.image.inj hp
    refine ⟨Nat.le_refl _, Nat.lt_of_lt_of_eq (Nat.lt_succ_self _) hsize.symm, ?_⟩
    rw [edges_addState]
    exact edges_of_size_le (Nat.le_refl _)
  · exact (extends_addState _).size
  · exact (extends_addState _).size
  · by_cases heq : q = w.wide.size
    · subst heq
      dsimp only at hq
      rw [Function.update_self] at hq
      exact absurd (Role.image.inj hq ▸ hp) (Nat.lt_irrefl _)
    · dsimp only at hq
      rw [Function.update_of_ne heq] at hq
      exact w.embeds.lt q (image_ne_spare hq)

theorem pairs_state_narrow (w : GraphPair m g₀ h₀) (y : β) : Pairs state (pure y) w fun w' p _ =>
    w'.Single p ∧ g₀.size ≤ p := by
  have hsize := size_addState w.narrow
  have hextends := extends_addState w.narrow
  refine ⟨⟨w.narrow.addState.2, w.wide, w.role, w.narrow_closed.addState, w.wide_closed,
    w.embeds.grows hextends.size (Nat.le_refl _) (fun _ p _ => edges_addState p) fun _ _ => rfl,
    w.narrow_extends.trans hextends, w.wide_extends⟩,
    ⟨hextends.size, Nat.le_refl _, fun _ _ => rfl, fun q _ hq _ =>
      w.embeds.lt q (image_ne_spare hq)⟩, rfl, rfl, ⟨?_, fun q hq => ?_⟩, w.narrow_extends.size⟩
  · exact Nat.lt_of_lt_of_eq (Nat.lt_succ_self _) hsize.symm
  · exact Nat.lt_irrefl _ (w.embeds.image_lt q _ hq)

/-- a state of the wide graph that is no image -/
theorem pairs_state_wide (w : GraphPair m g₀ h₀) (x : α) {r : Role} (hr : ∀ p, r ≠ .image p) :
    Pairs (pure x) state w fun w' _ q => w'.Has q r ∧ h₀.size ≤ q := by
  have hextends := extends_addState w.wide
  refine ⟨⟨w.narrow, w.wide.addState.2, Function.update w.role w.wide.size r, w.narrow_closed,
    w.wide_closed.addState, w.embeds.addState w.wide_closed (Nat.le_refl _) (fun _ _ => rfl) r
      fun p hp => absurd hp (hr p), w.narrow_extends, w.wide_extends.trans hextends⟩,
    ⟨Nat.le_refl _, hextends.size, fun q hq => Function.update_of_ne (Nat.ne_of_lt hq) _ _,
      fun q p hq _ => ?_⟩, rfl, rfl, ⟨?_, Function.update_self ..⟩, w.wide_extends.size⟩
  · by_cases heq : q = w.wide.size
    · subst heq
      dsimp only at hq
      rw [Function.update_self] at hq
      exact absurd hq (hr p)
    · dsimp only at hq
      rw [Function.update_of_ne heq] at hq
      exact w.embeds.lt q (image_ne_spare hq)
  · exact Nat.lt_of_lt_of_eq (Nat.lt_succ_self _) (size_addState w.wide).symm

theorem pairs_state_idle (w : GraphPair m g₀ h₀) : state.Pairs state w fun w' p q =>
    (w'.Single p ∧ g₀.size ≤ p) ∧ w'.Has q .spare ∧ h₀.size ≤ q :=
  (pairs_state_narrow w ()).apart (fun _ _ _ hw hp => ⟨hp.1.within hw, hp.2⟩) fun w' _ =>
    pairs_state_wide w' () fun _ h => Role.noConfusion h

theorem pairs_edge {d e : Edge} (hs : w.IsImage p q) (he : e.clip m w.role = some d)
    (hp : g₀.size ≤ p) (hq : h₀.size ≤ q) : (edge p d).Pairs (edge q e) w fun _ _ _ => True := by
  have htarget := (clip_eq_some.1 he).2.1
  refine ⟨⟨w.narrow.addEdge p d, w.wide.addEdge q e, w.role,
    w.narrow_closed.addEdge (w.embeds.image_lt _ _ htarget),
    w.wide_closed.addEdge (w.embeds.lt _ (image_ne_spare htarget)), w.embeds.addEdges hs he,
    w.narrow_extends.addEdge hp d, w.wide_extends.addEdge hq e⟩,
    ⟨Nat.le_of_eq (size_addEdge ..).symm, Nat.le_of_eq (size_addEdge ..).symm, fun _ _ => rfl,
      fun q _ hq _ => w.embeds.lt q (image_ne_spare hq)⟩, rfl, rfl, trivial⟩

theorem pairs_edge_narrow {d : Edge} (hs : w.Single p) (hp : g₀.size ≤ p)
    (hd : d.target < w.narrow.size) (y : β) :
    Pairs (edge p d) (pure y) w fun _ _ _ => True :=
  ⟨⟨w.narrow.addEdge p d, w.wide, w.role, w.narrow_closed.addEdge hd, w.wide_closed,
    w.embeds.addEdge_narrow hs.2 d, w.narrow_extends.addEdge hp d, w.wide_extends⟩,
    ⟨Nat.le_of_eq (size_addEdge ..).symm, Nat.le_refl _, fun _ _ => rfl,
      fun q _ hq _ => w.embeds.lt q (image_ne_spare hq)⟩, rfl, rfl, trivial⟩

theorem pairs_edge_wide {e : Edge} {r : Role} (hs : w.Has q r) (hq : h₀.size ≤ q)
    (he : e.target < w.wide.size)
    (hmissing : r = .spare ∨ e.isSeen m = false ∨ w.role e.target = .stray) (x : α) :
    Pairs (pure x) (edge q e) w fun _ _ _ => True :=
  ⟨⟨w.narrow, w.wide.addEdge q e, w.role, w.narrow_closed, w.wide_closed.addEdge he,
    w.embeds.addEdge_wide hs.1 (hs.2.symm ▸ hmissing), w.narrow_extends,
    w.wide_extends.addEdge hq e⟩,
    ⟨Nat.le_refl _, Nat.le_of_eq (size_addEdge ..).symm, fun _ _ => rfl,
      fun q _ hq _ => w.embeds.lt q (image_ne_spare hq)⟩, rfl, rfl, trivial⟩

end Build
end SpanSearch
