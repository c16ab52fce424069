import SpanSearch.Proofs.Firsts
import SpanSearch.Proofs.Regions

/-!
# Graphs for fewer symbols

A narrow graph reads the symbols up to a bound as a wide one does.  The wide graph has images of
all states of the narrow one that matter, in between edges for other symbols, and states that
come to nothing as long as no other symbol is read.

* `Label.clip`, `Edge.isSeen`   what a label and an edge are for symbols up to a bound
* `Role`                 what a state of the wide graph is to the narrow one
* `Edge.clip`            an edge of the wide graph as the narrow one has it
* `Graph.Embeds`         a narrow graph inside a wide one
* `Graph.Extends`        a graph with more states
* `Embeds.image`, `Embeds.addEdge`, ...   what may be added to both of them, or to one
-/

namespace SpanSearch

/-- what is left of a label for the symbols up to `m` -/
def Label.clip (m : Nat) : Label → Option Label
  | .epsilon => some .epsilon
  | .symbols lo hi => if lo ≤ m then some (.symbols lo (min hi m)) else none

/-- may be taken as long as no symbol above `m` is read -/
def Edge.isSeen (m : Nat) (e : Edge) : Bool := (e.label.clip m).isSome

/-- what a state of a wide graph is to a narrow one -/
inductive Role where
  /-- stands for the state `p` -/
  | image (p : Nat)
  /-- leads to nothing without other symbols -/
  | stray
  /-- cannot be reached without other symbols -/
  | spare
  deriving DecidableEq

def Role.image? : Role → Option Nat
  | .image p => some p
  | .stray => none
  | .spare => none

open Classical in
/-- a role under the new names of those states of the narrow graph that have one -/
noncomputable def Role.moved (S : Nat → Prop) (f : Nat → Nat) : Role → Role
  | .image p => if S p then .image (f p) else .spare
  | .stray => .stray
  | .spare => .spare

namespace Role

variable {S : Nat → Prop} {f : Nat → Nat} {r : Role} {p : Nat}

theorem moved_eq_image : r.moved S f = .image p ↔ ∃ q, r = .image q ∧ S q ∧ p = f q := by
  cases r with
  | image q =>
    by_cases hS : S q
    · simp [moved, hS, eq_comm]
    · simp [moved, hS]
  | stray => simp [moved]
  | spare => simp [moved]

theorem moved_eq_stray : r.moved S f = .stray ↔ r = .stray := by
  cases r with
  | image q => by_cases hS : S q <;> simp [moved, hS]
  | stray => simp [moved]
  | spare => simp [moved]

theorem moved_eq_spare : r.moved S f = .spare ↔ r = .spare ∨ ∃ p, r = .image p ∧ ¬ S p := by
  cases r with
  | image q => by_cases hS : S q <;> simp [moved, hS]
  | stray => simp [moved]
  | spare => simp [moved]

end Role

theorem Role.image?_eq_some {r : Role} {p : Nat} : r.image? = some p ↔ r = .image p := by
  cases r <;> simp [image?]

/-- an edge of the wide graph as the narrow one has it, if it has it -/
def Edge.clip (m : Nat) (role : Nat → Role) (e : Edge) : Option Edge :=
  (e.label.clip m).bind fun l => (role e.target).image?.map fun p => ⟨l, p, e.action⟩

namespace Graph

variable {m : Nat} {role role' : Nat → Role} {g g' h h' : Graph} {p q s t : Nat} {e d : Edge}

theorem clip_eq_some : e.clip m role = some d ↔
    e.label.clip m = some d.label ∧ role e.target = .image d.target ∧ e.action = d.action := by
  rw [Edge.clip, Option.bind_eq_some_iff]
  constructor
  · rintro ⟨l, hl, he⟩
    obtain ⟨p, hp, rfl⟩ := Option.map_eq_some_iff.1 he
    exact ⟨hl, Role.image?_eq_some.1 hp, rfl⟩
  · rintro ⟨hl, hp, ha⟩
    refine ⟨d.label, hl, ?_⟩
    rw [Role.image?_eq_some.2 hp, ha]
    rfl

theorem clip_of_not_seen (he : e.isSeen m = false) : e.clip m role = none := by
  have hnone : e.label.clip m = none := Option.isNone_iff_eq_none.1 (Option.not_isSome_iff_eq_none.1
    (Bool.eq_false_iff.1 he) ▸ rfl)
  rw [Edge.clip, hnone]
  rfl

theorem clip_of_not_image (he : (role e.target).image? = none) : e.clip m role = none := by
  rw [Edge.clip, he]
  cases e.label.clip m <;> rfl

theorem clip_of_stray (he : role e.target = .stray) : e.clip m role = none :=
  clip_of_not_image (he ▸ rfl)

/-- the states of `g`, with the edges that they have there, and more -/
structure Extends (g g' : Graph) : Prop where
  size : g.size ≤ g'.size
  edges : ∀ p < g.size, g'.edges p = g.edges p

theorem Extends.refl (g : Graph) : g.Extends g := ⟨Nat.le_refl _, fun _ _ => rfl⟩

theorem Extends.trans {g'' : Graph} (h : g.Extends g') (h' : g'.Extends g'') : g.Extends g'' where
  size := Nat.le_trans h.size h'.size
  edges := fun p hp => (h'.edges p (Nat.lt_of_lt_of_le hp h.size)).trans (h.edges p hp)

theorem extends_addState (g : Graph) : g.Extends g.addState.2 where
  size := Nat.le_trans (Nat.le_succ _) (Nat.le_of_eq (size_addState g).symm)
  edges := fun p _ => edges_addState p

theorem Extends.addEdge (h : g.Extends g') (hs : g.size ≤ s) (e : Edge) :
    g.Extends (g'.addEdge s e) where
  size := Nat.le_trans h.size (Nat.le_of_eq (size_addEdge g' s e).symm)
  edges := fun p hp => by
    rw [edges_addEdge_ne e (Nat.ne_of_gt (Nat.lt_of_lt_of_le hp hs))]
    exact h.edges p hp

theorem Closed.addState (hg : g.Closed) : g.addState.2.Closed := by
  intro p e he
  rw [edges_addState] at he
  rw [size_addState]
  exact Nat.lt_succ_of_lt (hg p e he)

/-- what a narrow graph inside a wide one makes of a state of the latter: an image has the edges of
its state, apart from those that lead nowhere or read other symbols, and without other symbols
neither is a spare state reached nor does a way out lead back -/
structure Fits (m : Nat) (role : Nat → Role) (g h : Graph) (q : Nat) : Prop where
  row : ∀ p, role q = .image p → Edge.Alike ((h.edges q).filterMap (Edge.clip m role)) (g.edges p)
  reach : role q ≠ .spare → ∀ e ∈ h.edges q, e.isSeen m = true → role e.target ≠ .spare
  stray : role q = .stray → ∀ e ∈ h.edges q, e.isSeen m = true → role e.target = .stray

/-- a narrow graph inside a wide one -/
structure Embeds (m : Nat) (role : Nat → Role) (g h : Graph) : Prop where
  image_lt : ∀ q p, role q = .image p → p < g.size
  lt : ∀ q, role q ≠ .spare → q < h.size
  inj : ∀ q q' p, role q = .image p → role q' = .image p → q = q'
  fits : ∀ q, Fits m role g h q

theorem image_ne_spare (hq : role q = .image p) : role q ≠ .spare :=
  hq ▸ fun h => Role.noConfusion h

theorem stray_ne_spare (hq : role q = .stray) : role q ≠ .spare :=
  hq ▸ fun h => Role.noConfusion h

theorem fits_of_spare (hq : role q = .spare) : Fits m role g h q where
  row := fun _ hp => absurd hq (image_ne_spare hp)
  reach := fun hne => absurd hq hne
  stray := fun hstray => absurd hq (stray_ne_spare hstray)

theorem fits_of_edges_eq_nil (hrow : h.edges q = [])
    (hp : ∀ p, role q = .image p → g.edges p = []) :
    Fits m role g h q where
  row := fun p hq => by
    rw [hrow, hp p hq]
    exact .refl []
  reach := fun _ e he => by
    rw [hrow] at he
    exact absurd he List.not_mem_nil
  stray := fun _ e he => by
    rw [hrow] at he
    exact absurd he List.not_mem_nil

/-- a state of which nothing has changed -/
theorem Fits.congr (hq : Fits m role g h q) (hrole : role' q = role q)
    (htargets : ∀ e ∈ h.edges q, role' e.target = role e.target)
    (hrow : ∀ p, role q = .image p → g'.edges p = g.edges p)
    (hrow' : role q ≠ .spare → h'.edges q = h.edges q) : Fits m role' g' h' q where
  row := fun p hp => by
    rw [hrole] at hp
    rw [hrow' (image_ne_spare hp), hrow p hp, List.filterMap_congr fun e he => ?_]
    · exact hq.row p hp
    · rw [Edge.clip, Edge.clip, htargets e he]
  reach := fun hne e he hseen => by
    rw [hrole] at hne
    rw [hrow' hne] at he
    rw [htargets e he]
    exact hq.reach hne e he hseen
  stray := fun hstray e he hseen => by
    rw [hrole] at hstray
    rw [hrow' (stray_ne_spare hstray)] at he
    rw [htargets e he]
    exact hq.stray hstray e he hseen

namespace Embeds

theorem grows (hi : Embeds m role g h) (hg : g.size ≤ g'.size) (hh : h.size ≤ h'.size)
    (hrows : ∀ q p, role q = .image p → g'.edges p = g.edges p)
    (hrows' : ∀ q, role q ≠ .spare → h'.edges q = h.edges q) : Embeds m role g' h' where
  image_lt := fun q p hq => Nat.lt_of_lt_of_le (hi.image_lt q p hq) hg
  lt := fun q hq => Nat.lt_of_lt_of_le (hi.lt q hq) hh
  inj := hi.inj
  fits := fun q => (hi.fits q).congr rfl (fun _ _ => rfl) (hrows q) (hrows' q)

/-- a new state in the wide graph, with any role but that of an image it has already -/
theorem addState (hi : Embeds m role g h) (hc : h.Closed) (hg : g.size ≤ g'.size)
    (hrows : ∀ p < g.size, g'.edges p = g.edges p) (r : Role)
    (hr : ∀ p, r = .image p → g.size ≤ p ∧ p < g'.size ∧ g'.edges p = []) :
    Embeds m (Function.update role h.size r) g' h.addState.2 := by
  have hold {q : Nat} (hq : q ≠ h.size) : Function.update role h.size r q = role q :=
    Function.update_of_ne hq r role
  have hnew : Function.update role h.size r h.size = r := Function.update_self ..
  refine ⟨fun q p hq => ?_, fun q hq => ?_, fun q q' p hq hq' => ?_, fun q => ?_⟩
  · by_cases heq : q = h.size
    · exact (hr p (hnew ▸ heq ▸ hq)).2.1
    · exact Nat.lt_of_lt_of_le (hi.image_lt q p (hold heq ▸ hq)) hg
  · rw [size_addState]
    by_cases heq : q = h.size
    · exact heq ▸ Nat.lt_succ_self _
    · exact Nat.lt_succ_of_lt (hi.lt q (hold heq ▸ hq))
  · by_cases heq : q = h.size <;> by_cases heq' : q' = h.size
    · exact heq.trans heq'.symm
    · subst heq
      rw [hnew] at hq
      rw [hold heq'] at hq'
      exact absurd (hi.image_lt q' p hq') (Nat.not_lt_of_le (hr p hq).1)
    · subst heq'
      rw [hnew] at hq'
      rw [hold heq] at hq
      exact absurd (hi.image_lt q p hq) (Nat.not_lt_of_le (hr p hq').1)
    · exact hi.inj q q' p (hold heq ▸ hq) (hold heq' ▸ hq')
  · by_cases heq : q = h.size
    · subst heq
      refine fits_of_edges_eq_nil ?_ fun p hp => (hr p (hnew ▸ hp)).2.2
      rw [edges_addState]
      exact edges_of_size_le (Nat.le_refl _)
    · exact (hi.fits q).congr (hold heq) (fun e he => hold (Nat.ne_of_lt (hc q e he)))
        (fun p hp => hrows p (hi.image_lt q p hp)) fun _ => edges_addState q

/-- an edge between images, and what it is in the narrow graph -/
theorem addEdges (hi : Embeds m role g h) (hs : role s = .image p)
    (he : e.clip m role = some d) : Embeds m role (g.addEdge p d) (h.addEdge s e) := by
  have hp := hi.image_lt s p hs
  have hslt := hi.lt s (image_ne_spare hs)
  refine ⟨fun q p' hq => ?_, fun q hq => ?_, hi.inj, fun q => ?_⟩
  · rw [size_addEdge]
    exact hi.image_lt q p' hq
  · rw [size_addEdge]
    exact hi.lt q hq
  · by_cases heq : s = q
    · subst heq
      refine ⟨fun p' hq => ?_, fun hne e' he' hseen => ?_, fun hstray => ?_⟩
      · obtain rfl := Role.image.inj (hs.symm.trans hq)
        rw [edges_addEdge_self _ hslt, edges_addEdge_self _ hp, List.filterMap_append,
          List.filterMap_cons_some he]
        exact ((hi.fits s).row p hs).append (.refl [d])
      · rcases (mem_edges_addEdge hslt).1 he' with he' | ⟨-, rfl⟩
        · exact (hi.fits s).reach hne e' he' hseen
        · exact image_ne_spare (clip_eq_some.1 he).2.1
      · exact absurd (hs.symm.trans hstray) fun h => Role.noConfusion h
    · refine (hi.fits q).congr rfl (fun _ _ => rfl) (fun p' hq => ?_) fun _ =>
        edges_addEdge_ne _ heq
      exact edges_addEdge_ne _ fun h => heq (hi.inj s q p hs (h ▸ hq))

/-- an edge of the wide graph that leads nowhere, cannot be seen or has a spare source -/
theorem addEdge_wide (hi : Embeds m role g h) (hs : s < h.size)
    (he : role s = .spare ∨ e.isSeen m = false ∨ role e.target = .stray) :
    Embeds m role g (h.addEdge s e) := by
  refine ⟨hi.image_lt, fun q hq => ?_, hi.inj, fun q => ?_⟩
  · rw [size_addEdge]
    exact hi.lt q hq
  · by_cases heq : s = q
    · subst heq
      rcases he with he | he
      · exact fits_of_spare he
      have hnone : e.clip m role = none := he.elim clip_of_not_seen clip_of_stray
      have hstray : e.isSeen m = true → role e.target = .stray := fun hseen =>
        he.resolve_left fun h => Bool.noConfusion (hseen.symm.trans h)
      refine ⟨fun p hq => ?_, fun hne e' he' hseen => ?_, fun hq e' he' hseen => ?_⟩
      · rw [edges_addEdge_self _ hs, List.filterMap_append, List.filterMap_cons_none hnone,
          List.filterMap_nil, List.append_nil]
        exact (hi.fits s).row p hq
      · rcases (mem_edges_addEdge hs).1 he' with he' | ⟨-, rfl⟩
        · exact (hi.fits s).reach hne e' he' hseen
        · exact stray_ne_spare (hstray hseen)
      · rcases (mem_edges_addEdge hs).1 he' with he' | ⟨-, rfl⟩
        · exact (hi.fits s).stray hq e' he' hseen
        · exact hstray hseen
    · exact (hi.fits q).congr rfl (fun _ _ => rfl) (fun _ _ => rfl) fun _ => edges_addEdge_ne _ heq

theorem addEdge_narrow (hi : Embeds m role g h) (hp : ∀ q, role q ≠ .image p) (d : Edge) :
    Embeds m role (g.addEdge p d) h :=
  hi.grows (Nat.le_of_eq (size_addEdge g p d).symm) (Nat.le_refl _)
    (fun q _ hq => edges_addEdge_ne d fun heq => hp q (heq ▸ hq)) fun _ _ => rfl

theorem mem_edges_image (hi : Embeds m role g h) (hq : role q = .image p) :
    d ∈ g.edges p ↔ ∃ e ∈ h.edges q, e.clip m role = some d := by
  rw [← ((hi.fits q).row p hq).mem_iff, List.mem_filterMap]

end Embeds

/-! ## under new names -/

section

variable {S T : Nat → Prop} {f f' : Nat → Nat}

theorem clip_withTarget {n : Nat} (hclip : e.clip m role = some d)
    (hrole : role' n = .image p) : (e.withTarget n).clip m role' = some (d.withTarget p) := by
  obtain ⟨hlabel, -, haction⟩ := clip_eq_some.1 hclip
  exact clip_eq_some.2 ⟨hlabel, hrole, haction⟩

/-- states that have the same edges under new names, in both graphs -/
theorem Embeds.moved (hi : Embeds m role g h) (hg : g.Repeats g' S f) (hh : h.Repeats h' T f')
    (hinj : ∀ p q, S p → S q → f p = f q → p = q)
    (hrole : ∀ q, T q → role' (f' q) = (role q).moved S f) (hq : T q) :
    Fits m role' g' h' (f' q) where
  row := fun p hp => by
    rw [hrole q hq, Role.moved_eq_image] at hp
    obtain ⟨r, hr, hS, rfl⟩ := hp
    have htargets : ∀ d ∈ (h.edges q).filterMap (Edge.clip m role), S d.target := fun d hd =>
      hg.closed r hS d (((hi.fits q).row r hr).mem_iff.1 hd)
    rw [hh.edges q hq, hg.edges r hS, List.filterMap_map]
    refine Eq.subst (motive := fun l => Edge.Alike l _) ?_ (((hi.fits q).row r hr).withTarget
      fun d hd e he => hinj _ _ (htargets d hd) (htargets e he))
    rw [List.map_filterMap]
    refine List.filterMap_congr fun e he => ?_
    have htarget := hrole e.target (hh.closed q hq e he)
    show _ = Edge.clip m role' (e.withTarget (f' e.target))
    cases hclip : e.clip m role with
    | some d =>
      have hd := htargets d (List.mem_filterMap.2 ⟨e, he, hclip⟩)
      refine (clip_withTarget hclip (htarget.trans ?_)).symm
      exact Role.moved_eq_image.2 ⟨_, (clip_eq_some.1 hclip).2.1, hd, rfl⟩
    | none =>
      refine (Option.eq_none_iff_forall_ne_some.2 fun d hd => ?_).symm
      obtain ⟨hlabel, himage, -⟩ := clip_eq_some.1 hd
      obtain ⟨t, ht, -⟩ := Role.moved_eq_image.1 (htarget.symm.trans himage)
      have hsome : e.clip m role = some ⟨d.label, t, e.action⟩ := clip_eq_some.2 ⟨hlabel, ht, rfl⟩
      exact Option.some_ne_none _ (hsome.symm.trans hclip)
  reach := fun hne e he hseen => by
    rw [hrole q hq] at hne
    rw [hh.edges q hq] at he
    obtain ⟨d, hd, rfl⟩ := List.mem_map.1 he
    show role' (f' d.target) ≠ .spare
    rw [hrole _ (hh.closed q hq d hd)]
    intro hspare
    rcases Role.moved_eq_spare.1 hspare with hspare | ⟨t, ht, hS⟩
    · exact (hi.fits q).reach (fun h => hne (Role.moved_eq_spare.2 (.inl h))) d hd hseen hspare
    · cases hr : role q with
      | image r =>
        have hSr : S r := by
          by_contra hSr
          exact hne (Role.moved_eq_spare.2 (.inr ⟨r, hr, hSr⟩))
        obtain ⟨l, hl⟩ := Option.isSome_iff_exists.1 hseen
        have hmem : (⟨l, t, d.action⟩ : Edge) ∈ g.edges r :=
          (hi.mem_edges_image hr).2 ⟨d, hd, clip_eq_some.2 ⟨hl, ht, rfl⟩⟩
        exact hS (hg.closed r hSr _ hmem)
      | stray => exact Role.noConfusion (((hi.fits q).stray hr d hd hseen).symm.trans ht)
      | spare => exact hne (Role.moved_eq_spare.2 (.inl hr))
  stray := fun hstray e he hseen => by
    rw [hrole q hq, Role.moved_eq_stray] at hstray
    rw [hh.edges q hq] at he
    obtain ⟨d, hd, rfl⟩ := List.mem_map.1 he
    show role' (f' d.target) = .stray
    rw [hrole _ (hh.closed q hq d hd), (hi.fits q).stray hstray d hd hseen]
    rfl

end

end Graph
end SpanSearch
