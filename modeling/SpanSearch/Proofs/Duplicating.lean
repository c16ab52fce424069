import SpanSearch.Proofs.Coupling

/-!
# Copied fragments of two constructions

* `GraphPair.copied`     what a state and its image reach, copied in both graphs
* `mates_copied`, `single_copied`, `has_copied`   a copy has the role of the original
* `pairs_copy`           copies of a pair are a pair
* `pairs_copyTimes`      so they are one after another
* `pairs_repeated`       a pair as often as a count says
-/

namespace SpanSearch

open SpanSearch.Graph Relation

variable {m : Nat} {g₀ h₀ : Graph}

/-! ## copies of states -/

theorem Graph.extends_copyFrom (g : Graph) (root : Nat) : g.Extends (g.copyFrom root).2 where
  size := by
    rw [size_copyFrom]
    exact Nat.le_add_right _ _
  edges := fun p hp => by rw [edges, state_copyFrom hp, edges]

namespace GraphPair

variable {w : GraphPair m g₀ h₀} {r r' p q : Nat}

theorem IsImage.reachable (hr : w.IsImage r r') (hp : p ∈ w.narrow.reachable r) :
    ∃ q ∈ w.wide.reachable r', w.IsImage p q := by
  rw [mem_reachable w.narrow_closed hr.narrow_lt] at hp
  simp only [mem_reachable w.wide_closed hr.wide_lt]
  induction hp with
  | refl => exact ⟨r', .refl, hr⟩
  | @tail p t _ hjoin ih =>
    obtain ⟨q, hq, hpq⟩ := ih
    obtain ⟨d, hd, rfl⟩ := hjoin
    obtain ⟨e, he, hclip⟩ := (w.embeds.mem_edges_image hpq).1 hd
    exact ⟨e.target, hq.tail ⟨e, he, rfl⟩, (clip_eq_some.1 hclip).2.1⟩

/-- the role of a state in what two states reach, when that is copied in both graphs -/
noncomputable def copyRole (w : GraphPair m g₀ h₀) (r q : Nat) : Role :=
  (w.role q).moved (· ∈ w.narrow.reachable r) fun p => w.narrow.size + w.narrow.placeOf r p

/-- roles after copying: a state that was there keeps its own -/
noncomputable def copiedRole (w : GraphPair m g₀ h₀) (r r' q : Nat) : Role :=
  if q < w.wide.size then w.role q
  else if q < (w.wide.copyFrom r').2.size then w.copyRole r (w.wide.original r' q)
  else .spare

theorem copiedRole_of_lt (hq : q < w.wide.size) : w.copiedRole r r' q = w.role q := if_pos hq

theorem copiedRole_copy (hq : q ∈ w.wide.reachable r') :
    w.copiedRole r r' (w.wide.size + w.wide.placeOf r' q) = w.copyRole r q := by
  rw [copiedRole, if_neg (Nat.not_lt_of_le (Nat.le_add_right _ _)), if_pos (lt_size_copyFrom hq),
    original_copy hq]

theorem copiedRole_cases (w : GraphPair m g₀ h₀) (r r' q : Nat) : q < w.wide.size ∨
    (∃ t ∈ w.wide.reachable r', w.wide.size + w.wide.placeOf r' t = q) ∨
      w.copiedRole r r' q = .spare := by
  by_cases hold : q < w.wide.size
  · exact .inl hold
  by_cases hlt : q < (w.wide.copyFrom r').2.size
  · exact .inr (.inl (mem_fresh_copyFrom.1 ⟨Nat.le_of_not_lt hold, hlt⟩))
  · refine .inr (.inr ?_)
    rw [copiedRole, if_neg hold, if_neg hlt]

theorem mates_copy (ht : q ∈ w.wide.reachable r') :
    w.copiedRole r r' (w.wide.size + w.wide.placeOf r' q) = .image p ↔
      ∃ s ∈ w.narrow.reachable r, w.IsImage s q ∧ w.narrow.size + w.narrow.placeOf r s = p := by
  rw [copiedRole_copy ht, copyRole, Role.moved_eq_image]
  refine exists_congr fun s => ?_
  rw [and_left_comm, eq_comm (a := p)]
  rfl

theorem exists_of_copiedRole (hq : w.wide.size ≤ q) (h : w.copiedRole r r' q = .image p) :
    ∃ t ∈ w.wide.reachable r', w.wide.size + w.wide.placeOf r' t = q ∧
      ∃ s ∈ w.narrow.reachable r, w.IsImage s t ∧ w.narrow.size + w.narrow.placeOf r s = p := by
  rcases w.copiedRole_cases r r' q with hlt | ⟨t, ht, rfl⟩ | hspare
  · exact absurd hlt (Nat.not_lt_of_le hq)
  · exact ⟨t, ht, rfl, (mates_copy ht).1 h⟩
  · exact absurd hspare (image_ne_spare h)

/-- what is copied on both sides keeps one graph inside the other -/
theorem embeds_copyFrom (hr : w.IsImage r r') : Embeds m (w.copiedRole r r')
    (w.narrow.copyFrom r).2 (w.wide.copyFrom r').2 := by
  have hnarrow := extends_copyFrom w.narrow r
  have hwide := extends_copyFrom w.wide r'
  have hold {q p : Nat} (hq : q < w.wide.size) (h : w.copiedRole r r' q = .image p) :
      w.role q = .image p := copiedRole_of_lt hq ▸ h
  refine ⟨fun q p hq => ?_, fun q hq => ?_, fun q q' p hq hq' => ?_, fun q => ?_⟩
  · rcases Nat.lt_or_ge q w.wide.size with hlt | hge
    · exact Nat.lt_of_lt_of_le (w.embeds.image_lt q p (hold hlt hq)) hnarrow.size
    · obtain ⟨t, -, -, s, hs, -, rfl⟩ := exists_of_copiedRole hge hq
      exact lt_size_copyFrom hs
  · rcases w.copiedRole_cases r r' q with hlt | ⟨t, ht, rfl⟩ | hspare
    · exact Nat.lt_of_lt_of_le hlt hwide.size
    · exact lt_size_copyFrom ht
    · exact absurd hspare hq
  · rcases Nat.lt_or_ge q w.wide.size with hlt | hge <;>
      rcases Nat.lt_or_ge q' w.wide.size with hlt' | hge'
    · exact w.embeds.inj q q' p (hold hlt hq) (hold hlt' hq')
    · obtain ⟨-, -, -, s, -, -, rfl⟩ := exists_of_copiedRole hge' hq'
      have := w.embeds.image_lt q _ (hold hlt hq)
      omega
    · obtain ⟨-, -, -, s, -, -, rfl⟩ := exists_of_copiedRole hge hq
      have := w.embeds.image_lt q' _ (hold hlt' hq')
      omega
    · obtain ⟨t, ht, rfl, s, hs, hst, rfl⟩ := exists_of_copiedRole hge hq
      obtain ⟨t', ht', rfl, s', hs', hst', heq⟩ := exists_of_copiedRole hge' hq'
      obtain rfl := placeOf_injective hs' hs (Nat.add_left_cancel heq)
      rw [w.embeds.inj t t' s' hst hst']
  · rcases w.copiedRole_cases r r' q with hlt | ⟨t, ht, rfl⟩ | hspare
    · exact (w.embeds.fits q).congr (copiedRole_of_lt hlt)
        (fun e he => copiedRole_of_lt (w.wide_closed q e he))
        (fun p hp => hnarrow.edges p (w.embeds.image_lt q p hp)) fun _ => hwide.edges q hlt
    · have hmoved : Fits m (w.copiedRole r r') _ _ _ := w.embeds.moved
        (repeats_copyFrom w.narrow_closed hr.narrow_lt)
        (repeats_copyFrom w.wide_closed hr.wide_lt)
        (fun p q hp hq heq => placeOf_injective hp hq (Nat.add_left_cancel heq))
        (fun q hq => copiedRole_copy hq) ht
      exact hmoved
    · exact fits_of_spare hspare

/-- what a state and its image reach, copied in both graphs -/
noncomputable def copied (w : GraphPair m g₀ h₀) (hr : w.IsImage r r') : GraphPair m g₀ h₀ :=
  ⟨(w.narrow.copyFrom r).2, (w.wide.copyFrom r').2, w.copiedRole r r',
    (addsBlock_copyFrom w.narrow_closed hr.narrow_lt).closed w.narrow_closed,
    (addsBlock_copyFrom w.wide_closed hr.wide_lt).closed w.wide_closed, embeds_copyFrom hr,
    w.narrow_extends.trans (extends_copyFrom _ _), w.wide_extends.trans (extends_copyFrom _ _)⟩

theorem within_copied (hr : w.IsImage r r') : w.Within (w.copied hr) where
  narrow := (extends_copyFrom w.narrow r).size
  wide := (extends_copyFrom w.wide r').size
  role := fun _ hq => copiedRole_of_lt hq
  image := fun q p hq hp => by
    by_contra hlt
    obtain ⟨-, -, -, s, -, -, rfl⟩ := exists_of_copiedRole (Nat.le_of_not_lt hlt) hq
    omega

theorem mates_copied (hr : w.IsImage r r') (hp : p ∈ w.narrow.reachable r)
    (hq : q ∈ w.wide.reachable r') (hpq : w.IsImage p q) :
    (w.copied hr).IsImage (w.narrow.size + w.narrow.placeOf r p)
      (w.wide.size + w.wide.placeOf r' q) :=
  (mates_copy hq).2 ⟨p, hp, hpq, rfl⟩

theorem single_copied (hr : w.IsImage r r') (hp : p ∈ w.narrow.reachable r) (hsingle : w.Single p) :
    (w.copied hr).Single (w.narrow.size + w.narrow.placeOf r p) := by
  refine ⟨lt_size_copyFrom hp, fun q hq => ?_⟩
  rcases Nat.lt_or_ge q w.wide.size with hlt | hge
  · have := w.embeds.image_lt q _ ((copiedRole_of_lt hlt).symm.trans hq)
    omega
  · obtain ⟨t, -, -, s, hs, hst, heq⟩ := exists_of_copiedRole hge hq
    obtain rfl := placeOf_injective hs hp (Nat.add_left_cancel heq)
    exact hsingle.2 t hst

theorem has_copied (hr : w.IsImage r r') (hq : q ∈ w.wide.reachable r')
    (hnone : w.role q = .spare ∨ ∃ p, w.IsImage p q ∧ p ∉ w.narrow.reachable r) :
    (w.copied hr).Has (w.wide.size + w.wide.placeOf r' q) .spare :=
  ⟨lt_size_copyFrom hq, (copiedRole_copy hq).trans (Role.moved_eq_spare.2 hnone)⟩

/-- a copy in the narrow graph alone -/
def copiedNarrow (w : GraphPair m g₀ h₀) (hp : p < w.narrow.size) : GraphPair m g₀ h₀ :=
  ⟨(w.narrow.copyFrom p).2, w.wide, w.role,
    (addsBlock_copyFrom w.narrow_closed hp).closed w.narrow_closed, w.wide_closed,
    w.embeds.grows (extends_copyFrom _ _).size (Nat.le_refl _)
      (fun q s hq => (extends_copyFrom _ _).edges s (w.embeds.image_lt q s hq)) fun _ _ => rfl,
    w.narrow_extends.trans (extends_copyFrom _ _), w.wide_extends⟩

theorem within_copiedNarrow (hp : p < w.narrow.size) : w.Within (w.copiedNarrow hp) :=
  ⟨(extends_copyFrom _ _).size, Nat.le_refl _, fun _ _ => rfl,
    fun q _ hq _ => w.embeds.lt q (image_ne_spare hq)⟩

theorem single_copiedNarrow (hr : r < w.narrow.size) (hp : p ∈ w.narrow.reachable r) :
    (w.copiedNarrow hr).Single (w.narrow.size + w.narrow.placeOf r p) :=
  ⟨lt_size_copyFrom hp, fun q hq =>
    Nat.not_lt_of_le (Nat.le_add_right _ _) (w.embeds.image_lt q _ hq)⟩

/-- a copy in the wide graph alone -/
def copiedWide (w : GraphPair m g₀ h₀) (hq : q < w.wide.size) : GraphPair m g₀ h₀ :=
  ⟨w.narrow, (w.wide.copyFrom q).2, w.role, w.narrow_closed,
    (addsBlock_copyFrom w.wide_closed hq).closed w.wide_closed,
    w.embeds.grows (Nat.le_refl _) (extends_copyFrom _ _).size (fun _ _ _ => rfl)
      fun s hs => (extends_copyFrom _ _).edges s (w.embeds.lt s hs),
    w.narrow_extends, w.wide_extends.trans (extends_copyFrom _ _)⟩

theorem within_copiedWide (hq : q < w.wide.size) : w.Within (w.copiedWide hq) :=
  ⟨Nat.le_refl _, (extends_copyFrom _ _).size, fun _ _ => rfl,
    fun s _ hs _ => w.embeds.lt s (image_ne_spare hs)⟩

theorem has_copiedWide (hr : r < w.wide.size) (hq : q ∈ w.wide.reachable r) :
    (w.copiedWide hr).Has (w.wide.size + w.wide.placeOf r q) .spare := by
  refine ⟨lt_size_copyFrom hq, ?_⟩
  by_contra hne
  exact Nat.not_lt_of_le (Nat.le_add_right _ _) (w.embeds.lt _ hne)

end GraphPair

namespace Fragment

open Build GraphPair

variable {w w' : GraphPair m g₀ h₀} {a b c d : Fragment} {as bs cs ds : List Fragment}
  {s s' e e' : Nat}

/-- the exit of a copy -/
def copyExit (places : Array (Option Nat)) (x : Option Nat) : Build (Option Nat) :=
  match x with
  | none => return none
  | some x =>
    match places.getD x none with
    | some y => return some y
    | none => do
      let y ← Build.state
      return some y

theorem copy_eq (a : Fragment) : a.copy = (do
      let places ← modifyGet fun g => g.copyFrom a.entry
      let x ← copyExit places a.exit
      return ⟨(places.getD a.entry none).getD a.entry, x⟩) := by
  cases hx : a.exit with
  | none =>
    unfold copy copyExit
    rw [hx]
    rfl
  | some x =>
    funext g
    cases hy : (g.copyFrom a.entry).1.getD x none with
    | some y =>
      rw [copy_of_exit hx hy]
      show _ = (copyExit (g.copyFrom a.entry).1 (some x) >>= fun x => pure _ : Build Fragment) _
      unfold copyExit
      simp only [hy]
      rfl
    | none =>
      rw [copy_of_unreachable hx hy]
      show _ = (copyExit (g.copyFrom a.entry).1 (some x) >>= fun x => pure _ : Build Fragment) _
      unfold copyExit
      simp only [hy]
      rfl

/-- where the exit of a copy comes from: it is the copy of the exit, or a new state if there is
none -/
def CopyOf (places : Array (Option Nat)) (x : Option Nat) (New : Nat → Prop) (y : Option Nat) :
    Prop :=
  (x = none → y = none) ∧ ∀ p, x = some p →
    (∀ q, places.getD p none = some q → y = some q) ∧
      (places.getD p none = none → ∃ q, y = some q ∧ New q)

section
variable {places : Array (Option Nat)} {New : Nat → Prop}

theorem copyOf_none : CopyOf places none New none :=
  ⟨fun _ => rfl, fun p hp => absurd hp.symm (Option.some_ne_none p)⟩

theorem copyOf_place {x z : Nat} (h : places.getD x none = some z) :
    CopyOf places (some x) New (some z) := by
  refine ⟨fun h => absurd h (Option.some_ne_none x), fun p hp => ?_⟩
  obtain rfl := Option.some.inj hp
  rw [h]
  exact ⟨fun q hq => hq, fun h => absurd h (Option.some_ne_none z)⟩

theorem copyOf_new {x z : Nat} (h : places.getD x none = none) (hz : New z) :
    CopyOf places (some x) New (some z) := by
  refine ⟨fun h => absurd h (Option.some_ne_none x), fun p hp => ?_⟩
  obtain rfl := Option.some.inj hp
  rw [h]
  exact ⟨fun q hq => absurd hq.symm (Option.some_ne_none q), fun _ => ⟨z, rfl, hz⟩⟩

end

theorem pairs_copyExit_narrow {β : Type} (places : Array (Option Nat)) (x : Option Nat) (y : β) :
    Pairs (copyExit places x) (pure y) w fun w' z _ =>
      CopyOf places x (fun p => w'.Single p ∧ g₀.size ≤ p) z := by
  unfold copyExit
  cases x with
  | none => exact pairs_pure copyOf_none
  | some x =>
    dsimp only
    cases hplace : places.getD x none with
    | some z => exact pairs_pure (copyOf_place hplace)
    | none => exact (pairs_state_narrow w ()).narrow fun _ _ _ hz =>
        pairs_pure (copyOf_new hplace hz)

theorem pairs_copyExit_wide {α : Type} (places : Array (Option Nat)) (x : Option Nat) (y : α) :
    Pairs (pure y) (copyExit places x) w fun w' _ z =>
      CopyOf places x (fun q => w'.Has q .spare ∧ h₀.size ≤ q) z := by
  unfold copyExit
  cases x with
  | none => exact pairs_pure copyOf_none
  | some x =>
    dsimp only
    cases hplace : places.getD x none with
    | some z => exact pairs_pure (copyOf_place hplace)
    | none =>
      exact (pairs_state_wide w () (r := .spare) fun p h => Role.noConfusion h).wide
        fun _ _ _ hz => pairs_pure (copyOf_new hplace hz)

/-- the exit of a copy is the copy of an exit that is reached, or new -/
theorem CopyOf.forall {g : Graph} {root : Nat} {x y : Option Nat} {New P : Nat → Prop}
    (h : CopyOf (g.copyFrom root).1 x New y) (hlt : ∀ p, x = some p → p < g.size)
    (hcopy : ∀ p, x = some p → p ∈ g.reachable root → P (g.size + g.placeOf root p))
    (hnew : ∀ q, New q → P q) : ∀ q, y = some q → P q := by
  intro q hq
  cases x with
  | none => exact absurd (hq.symm.trans (h.1 rfl)) (Option.some_ne_none q)
  | some p =>
    obtain ⟨hplace, hfresh⟩ := h.2 p rfl
    rw [getD_copyFrom (hlt p rfl)] at hplace hfresh
    by_cases hmem : p ∈ g.reachable root
    · obtain rfl := Option.some.inj (hq.symm.trans (hplace _ (if_pos hmem)))
      exact hcopy p rfl hmem
    · obtain ⟨r, hr, hnr⟩ := hfresh (if_neg hmem)
      obtain rfl := Option.some.inj (hq.symm.trans hr)
      exact hnew q hnr

theorem CopyOf.added {g g' : Graph} {root : Nat} {x y : Option Nat} {New : Nat → Prop}
    (h : CopyOf (g.copyFrom root).1 x New y) (hlt : ∀ p, x = some p → p < g.size)
    (hle : g'.size ≤ g.size) (hnew : ∀ q, New q → g'.size ≤ q) : Added g' y :=
  h.forall hlt (fun _ _ _ => Nat.le_trans hle (Nat.le_add_right _ _)) hnew

section
variable (hab : a.Pair b w) (hw : (w.copied hab.entry).Within w') {x y : Option Nat}
  (hx : CopyOf (w.narrow.copyFrom a.entry).1 a.exit (fun p => w'.Single p ∧ g₀.size ≤ p) x)
  (hy : CopyOf (w.wide.copyFrom b.entry).1 b.exit (fun q => w'.Has q .spare ∧ h₀.size ≤ q) y)
include hw hx hy

/-- the copies of exits are exits of copies -/
theorem ends_copied : w'.Ends x y := by
  have hlt (p : Nat) (hp : a.exit = some p) : p < w.narrow.size := hab.exits.narrow_lt hp
  have hlt' (q : Nat) (hq : b.exit = some q) : q < w.wide.size := hab.exits.wide_lt hq
  rcases hab.exits with ⟨p, q, hp, hq, hpq⟩ | ⟨hsingle, hspare⟩
  · by_cases hmem : p ∈ w.narrow.reachable a.entry
    · -- the exits are reached, and so their copies are a state and its image
      obtain ⟨q', hmem', hpq'⟩ := hab.entry.reachable hmem
      obtain rfl := w.embeds.inj q q' p hpq hpq'
      have hleft : x = some (w.narrow.size + w.narrow.placeOf a.entry p) :=
        (hx.2 p hp).1 _ ((getD_copyFrom hpq.narrow_lt).trans (if_pos hmem))
      have hright : y = some (w.wide.size + w.wide.placeOf b.entry q) :=
        (hy.2 q hq).1 _ ((getD_copyFrom hpq.wide_lt).trans (if_pos hmem'))
      exact .inl ⟨_, _, hleft, hright, (mates_copied hab.entry hmem hmem' hpq).within hw⟩
    · refine .inr ⟨hx.forall hlt (fun r hr hmem' => ?_) fun p hp => hp.1,
        hy.forall hlt' (fun r hr hmem' => ?_) fun q hq => hq.1⟩
      · obtain rfl := Option.some.inj (hp.symm.trans hr)
        exact absurd hmem' hmem
      · obtain rfl := Option.some.inj (hq.symm.trans hr)
        exact (has_copied hab.entry hmem' (.inr ⟨p, hpq, hmem⟩)).within hw
  · exact .inr ⟨hx.forall hlt (fun r hr hmem =>
      (single_copied hab.entry hmem (hsingle r hr)).within hw) fun p hp => hp.1,
      hy.forall hlt' (fun r hr hmem =>
        (has_copied hab.entry hmem (.inl (hspare r hr).2)).within hw) fun q hq => hq.1⟩

theorem newPair_copied : NewPair
    ⟨w.narrow.size + w.narrow.placeOf a.entry a.entry, x⟩
    ⟨w.wide.size + w.wide.placeOf b.entry b.entry, y⟩ w' where
  entry := (mates_copied hab.entry
    ((mem_reachable w.narrow_closed hab.entry.narrow_lt).2 .refl)
    ((mem_reachable w.wide_closed hab.entry.wide_lt).2 .refl) hab.entry).within hw
  exits := ends_copied hab hw hx hy
  narrow := hx.added (fun _ => hab.exits.narrow_lt) w.narrow_extends.size fun _ hq => hq.2
  wide := hy.added (fun _ => hab.exits.wide_lt) w.wide_extends.size fun _ hq => hq.2

end

/-- copies of a pair are a pair -/
theorem pairs_copy (hab : a.Pair b w) : a.copy.Pairs b.copy w fun w' c d => c.NewPair d w' := by
  have hcopied : Pairs (modifyGet fun g => g.copyFrom a.entry : Build _)
      (modifyGet fun g => g.copyFrom b.entry : Build _) w fun w' places places' =>
        w' = w.copied hab.entry ∧ places = (w.narrow.copyFrom a.entry).1 ∧
          places' = (w.wide.copyFrom b.entry).1 :=
    ⟨w.copied hab.entry, within_copied hab.entry, rfl, rfl, rfl, rfl, rfl⟩
  rw [copy_eq, copy_eq]
  refine hcopied.bind fun w' places places' _ ⟨hw', hplaces, hplaces'⟩ => ?_
  subst hw' hplaces hplaces'
  rw [getD_copyFrom_root w.narrow_closed hab.entry.narrow_lt,
    getD_copyFrom_root w.wide_closed hab.entry.wide_lt]
  refine ((pairs_copyExit_narrow (w.narrow.copyFrom a.entry).1 a.exit ()).apart
    (fun w' w'' x hw hx => ?_) fun w' _ =>
      pairs_copyExit_wide (w.wide.copyFrom b.entry).1 b.exit ()).bind
        fun w₂ x y h₂ ⟨hx, hy⟩ => pairs_pure (newPair_copied hab h₂ hx hy)
  refine ⟨hx.1, fun p hp => ⟨(hx.2 p hp).1, fun hnone => ?_⟩⟩
  obtain ⟨q, hq, hsingle, hle⟩ := (hx.2 p hp).2 hnone
  exact ⟨q, hq, hsingle.within hw, hle⟩

/-! ## copies of one of two fragments -/

theorem pairs_copy_narrow {β : Type} (hentry : a.entry < w.narrow.size)
    (hexit : ∀ p, a.exit = some p → p < w.narrow.size) (y : β) :
    Pairs a.copy (pure y) w fun w' c _ => c.Left w' := by
  have hmem : a.entry ∈ w.narrow.reachable a.entry :=
    (mem_reachable w.narrow_closed hentry).2 .refl
  have hcopied : Pairs (modifyGet fun g => g.copyFrom a.entry : Build _) (pure y) w
      fun w' places _ => w' = w.copiedNarrow hentry ∧
        places = (w.narrow.copyFrom a.entry).1 :=
    ⟨w.copiedNarrow hentry, within_copiedNarrow hentry, rfl, rfl, rfl, rfl⟩
  rw [copy_eq]
  refine hcopied.narrow fun w' places _ ⟨hw', hplaces⟩ => ?_
  subst hw' hplaces
  rw [getD_copyFrom_root w.narrow_closed hentry]
  refine (pairs_copyExit_narrow _ a.exit y).narrow fun w' x hw' hx => pairs_pure
    ⟨Nat.lt_of_lt_of_le (lt_size_copyFrom hmem) hw'.narrow, ?_,
      hx.added hexit w.narrow_extends.size fun q hq => hq.2⟩
  exact hx.forall hexit (fun p _ hp => (single_copiedNarrow hentry hp).within hw')
    fun q hq => hq.1

theorem pairs_copy_wide {α : Type} (hentry : b.entry < w.wide.size)
    (hexit : ∀ q, b.exit = some q → q < w.wide.size) (x : α) :
    Pairs (pure x) b.copy w fun w' _ d => d.Right w' := by
  have hmem : b.entry ∈ w.wide.reachable b.entry :=
    (mem_reachable w.wide_closed hentry).2 .refl
  have hcopied : Pairs (pure x) (modifyGet fun g => g.copyFrom b.entry : Build _) w
      fun w' _ places => w' = w.copiedWide hentry ∧ places = (w.wide.copyFrom b.entry).1 :=
    ⟨w.copiedWide hentry, within_copiedWide hentry, rfl, rfl, rfl, rfl⟩
  rw [copy_eq]
  refine hcopied.wide fun w' places _ ⟨hw', hplaces⟩ => ?_
  subst hw' hplaces
  rw [getD_copyFrom_root w.wide_closed hentry]
  refine (pairs_copyExit_wide _ b.exit x).wide fun w' y hw' hy => pairs_pure
    ⟨Nat.lt_of_lt_of_le (lt_size_copyFrom hmem) hw'.wide, ?_,
      hy.added hexit w.wide_extends.size fun q hq => hq.2⟩
  exact hy.forall hexit (fun q _ hq => (has_copiedWide hentry hq).within hw')
    fun q hq => hq.1

/-! ## repetitions -/

theorem Pair.begin (h : a.Pair b w) : a.Pair b w.begin := ⟨h.entry, h.exits⟩

theorem pairs_copyTimes (hab : a.Pair b w) (n : Nat) :
    (a.copyTimes n).Pairs (b.copyTimes n) w Chained := by
  induction n generalizing g₀ h₀ w with
  | zero => exact pairs_pure .nil
  | succ n ih =>
    refine (pairs_copy hab).bind fun w₁ c d h₁ hcd => ?_
    exact (pairs_append (chained_singleton hcd) (ih (hab.within h₁).begin)).bind
      fun _ _ _ _ h => pairs_pure h

theorem pairs_exactly (hab : a.NewPair b w) (n : Nat) :
    (a.exactly n).Pairs (b.exactly n) w fun w' c d => c.NewPair d w' := by
  cases n with
  | zero => exact pairs_empty w
  | succ n =>
    exact (pairs_append (chained_singleton hab) (pairs_copyTimes hab.toPair.begin n)).bind
      fun _ _ _ _ h => pairs_concatenation h

theorem pairs_atLeast (hab : a.NewPair b w) (n : Nat) :
    (a.atLeast n).Pairs (b.atLeast n) w fun w' c d => c.NewPair d w' := by
  cases n with
  | zero => exact pairs_star hab
  | succ n =>
    refine (pairs_append (chained_singleton hab) (pairs_copyTimes hab.toPair.begin n)).bind
      fun w₁ as bs h₁ h => ?_
    -- the loop is made without touching what is there
    have hloop : Pairs (do let c ← a.copy; let l ← c.star; return [l])
        (do let c ← b.copy; let l ← c.star; return [l]) w₁.begin Chained :=
      (pairs_copy (hab.toPair.within h₁).begin).bind fun _ _ _ _ hcd =>
        (pairs_star hcd).bind fun _ _ _ _ hl => pairs_pure (chained_singleton hl)
    exact (pairs_append h hloop).bind fun _ _ _ _ h => pairs_concatenation h

theorem pairs_upToFrom_narrow {β : Type} (hentry : a.entry < w.narrow.size)
    (hexit : ∀ p, a.exit = some p → p < w.narrow.size) (he : e < w.narrow.size)
    (hs : w.Single s) (hle : g₀.size ≤ s) (n : Nat) (y : β) :
    Pairs (a.upToFrom e s n) (pure y) w fun _ _ _ => True := by
  induction n generalizing w s with
  | zero => exact pairs_pure trivial
  | succ n ih =>
    unfold upToFrom
    refine (pairs_copy_narrow hentry hexit y).narrow fun w₁ c h₁ hc => ?_
    refine (pairs_edge_narrow (hs.within h₁) hle hc.entry y).narrow fun w₂ _ h₂ _ => ?_
    have hw := h₁.trans h₂
    cases hx : c.exit with
    | none => exact pairs_pure trivial
    | some x =>
      have hsingle := (hc.exit x hx).within h₂
      refine (pairs_edge_narrow hsingle (hc.added x hx) (Nat.lt_of_lt_of_le he hw.narrow)
        y).narrow fun w₃ _ h₃ _ => ?_
      have hw' := hw.trans h₃
      exact ih (Nat.lt_of_lt_of_le hentry hw'.narrow)
        (fun p hp => Nat.lt_of_lt_of_le (hexit p hp) hw'.narrow)
        (Nat.lt_of_lt_of_le he hw'.narrow) (hsingle.within h₃) (hc.added x hx)

theorem pairs_upToFrom_wide {α : Type} (hentry : b.entry < w.wide.size)
    (hexit : ∀ q, b.exit = some q → q < w.wide.size) (he : e < w.wide.size)
    (hs : w.Has s .spare) (hle : h₀.size ≤ s) (n : Nat) (x : α) :
    Pairs (pure x) (b.upToFrom e s n) w fun _ _ _ => True := by
  induction n generalizing w s with
  | zero => exact pairs_pure trivial
  | succ n ih =>
    unfold upToFrom
    refine (pairs_copy_wide hentry hexit x).wide fun w₁ d h₁ hd => ?_
    refine (pairs_edge_wide (hs.within h₁) hle hd.entry (.inl rfl) x).wide fun w₂ _ h₂ _ => ?_
    have hw := h₁.trans h₂
    cases hy : d.exit with
    | none => exact pairs_pure trivial
    | some y =>
      have hspare := (hd.exit y hy).within h₂
      refine (pairs_edge_wide hspare (hd.added y hy) (Nat.lt_of_lt_of_le he hw.wide)
        (.inl rfl) x).wide fun w₃ _ h₃ _ => ?_
      have hw' := hw.trans h₃
      exact ih (Nat.lt_of_lt_of_le hentry hw'.wide)
        (fun p hp => Nat.lt_of_lt_of_le (hexit p hp) hw'.wide)
        (Nat.lt_of_lt_of_le he hw'.wide) (hspare.within h₃) (hd.added y hy)

theorem upToFrom_succ (a : Fragment) (e s n : Nat) : a.upToFrom e s (n + 1) = (do
      let c ← a.copy
      Build.epsilon s c.entry
      match c.exit with
      | none => return ()
      | some x => do
        Build.epsilon x e
        a.upToFrom e x n) := rfl

theorem pairs_upToFrom (hab : a.Pair b w) (he : w.IsImage e e') (hs : w.IsImage s s')
    (hle : g₀.size ≤ s) (hle' : h₀.size ≤ s') (n : Nat) :
    (a.upToFrom e s n).Pairs (b.upToFrom e' s' n) w fun _ _ _ => True := by
  induction n generalizing w s s' with
  | zero => exact pairs_pure trivial
  | succ n ih =>
    rw [upToFrom_succ, upToFrom_succ]
    refine (pairs_copy hab).bind fun w₁ c d h₁ hcd => ?_
    refine (pairs_epsilon (hs.within h₁) hcd.entry hle hle').bind fun w₂ _ _ h₂ _ => ?_
    have hw := h₁.trans h₂
    replace hab := hab.within hw
    replace he := he.within hw
    rcases (hcd.within h₂).ends with ⟨p, q, hp, hq, hpq, hlep, hleq⟩ | ⟨hc, hd⟩
    · rw [hp, hq]
      exact (pairs_epsilon hpq he hlep hleq).bind fun w₃ _ _ h₃ _ =>
        ih (hab.within h₃) (he.within h₃) (hpq.within h₃) hlep hleq
    · -- from here on each of them goes on by itself, or not at all
      have hleft : Pairs (match c.exit with
          | none => return ()
          | some x => do
            Build.epsilon x e
            a.upToFrom e x n) (pure ()) w₂ fun _ _ _ => True := by
        cases hx : c.exit with
        | none => exact pairs_pure trivial
        | some x =>
          exact (pairs_edge_narrow (hc.exit x hx) (hc.added x hx) he.narrow_lt ()).narrow
            fun w₃ _ h₃ _ => pairs_upToFrom_narrow (hab.within h₃).entry.narrow_lt
              (fun p hp => (hab.within h₃).exits.narrow_lt hp) (he.within h₃).narrow_lt
              ((hc.exit x hx).within h₃) (hc.added x hx) n ()
      have hright (w' : GraphPair m g₀ h₀) (h' : w₂.Within w') : Pairs (pure ()) (match d.exit with
          | none => return ()
          | some y => do
            Build.epsilon y e'
            b.upToFrom e' y n) w' fun _ _ _ => True := by
        cases hy : d.exit with
        | none => exact pairs_pure trivial
        | some y =>
          exact (pairs_edge_wide ((hd.exit y hy).within h') (hd.added y hy)
            (he.within h').wide_lt (.inl rfl) ()).wide fun w₃ _ h₃ _ =>
              pairs_upToFrom_wide ((hab.within h').within h₃).entry.wide_lt
                (fun q hq => ((hab.within h').within h₃).exits.wide_lt hq)
                ((he.within h').within h₃).wide_lt
                (((hd.exit y hy).within h').within h₃) (hd.added y hy) n ()
      exact (hleft.apart (fun _ _ _ _ h => h) hright).imp fun _ _ _ _ _ => trivial

theorem pairs_upTo (hab : a.Pair b w) (n : Nat) :
    (a.upTo n).Pairs (b.upTo n) w fun w' c d => c.NewPair d w' := by
  refine (pairs_state w).bind fun w₁ s s' h₁ ⟨hs, hle, hle'⟩ =>
    (pairs_state w₁).bind fun w₂ e e' h₂ ⟨he, hlee, hlee'⟩ => ?_
  replace hs := hs.within h₂
  refine (pairs_epsilon hs he hle hle').bind fun w₃ _ _ h₃ _ => ?_
  have hw := (h₁.trans h₂).trans h₃
  refine (pairs_upToFrom (hab.within hw) (he.within h₃) (hs.within h₃) hle hle' n).bind
    fun w₄ _ _ h₄ _ => pairs_pure ⟨⟨(hs.within h₃).within h₄,
      .inl ⟨e, e', rfl, rfl, (he.within h₃).within h₄⟩⟩, added_some hlee, added_some hlee'⟩

theorem pairs_between (hab : a.NewPair b w) (least most : Nat) :
    (a.between least most).Pairs (b.between least most) w fun w' c d => c.NewPair d w' := by
  unfold between
  split
  · exact pairs_exactly hab least
  · refine (pairs_copy hab.toPair).bind fun w₁ extra extra' h₁ hextra =>
      (pairs_exactly (hab.within h₁) least).bind fun w₂ fixed fixed' h₂ hfixed => ?_
    have hmore : Pairs (do let c ← extra.upTo (most - least); return [c])
        (do let c ← extra'.upTo (most - least); return [c]) w₂.begin Chained :=
      (pairs_upTo (hextra.toPair.within h₂).begin _).bind fun _ _ _ _ hcd =>
        pairs_pure (chained_singleton hcd)
    exact (pairs_append (chained_singleton hfixed) hmore).bind
      fun _ _ _ _ h => pairs_concatenation h

theorem pairs_repeated (hab : a.NewPair b w) (c : Count) :
    (a.repeated c).Pairs (b.repeated c) w fun w' c d => c.NewPair d w' := by
  cases c with
  | zeroOrOne => exact pairs_optional hab
  | zeroOrMore => exact pairs_star hab
  | oneOrMore => exact pairs_atLeast hab 1
  | exactly n => exact pairs_exactly hab n
  | atLeast n => exact pairs_atLeast hab n
  | between least most => exact pairs_between hab least most

end Fragment
end SpanSearch
