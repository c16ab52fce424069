import SpanSearch.Proofs.Pairing

/-!
# Composed fragments of two constructions

* `Fragment.Beside`      pairs side by side
* `pairs_alternatives`   the exit has an image if one of the pairs has its exits side by side
* `pairs_group`, `pairs_optional`, `pairs_star`   around one pair
-/

namespace SpanSearch

open SpanSearch.Graph Relation

variable {m : Nat} {g₀ h₀ : Graph}

namespace Fragment

open Build GraphPair

variable {w w' : GraphPair m g₀ h₀} {a b c d : Fragment} {as bs cs ds : List Fragment}
  {s s' e e' : Nat}

theorem pairs_epsilon (hs : w.IsImage s s') (he : w.IsImage e e') (hle : g₀.size ≤ s)
    (hle' : h₀.size ≤ s') : (epsilon s e).Pairs (epsilon s' e') w fun _ _ _ => True :=
  pairs_edge hs (clip_epsilon he) hle hle'

/-! ## side by side -/

theorem pairs_nothing (w : GraphPair m g₀ h₀) :
    nothing.Pairs nothing w fun w' a b => a.NewPair b w' :=
  (pairs_state w).bind fun _ _ _ _ ⟨hs, _, _⟩ => pairs_pure
    ⟨⟨hs, .inr ⟨fun _ h => absurd h.symm (Option.some_ne_none _),
      fun _ h => absurd h.symm (Option.some_ne_none _)⟩⟩, added_none _, added_none _⟩

def Beside (w : GraphPair m g₀ h₀) (as bs : List Fragment) : Prop :=
  List.Forall₂ (fun a b => a.NewPair b w) as bs

theorem Beside.within (h : Beside w as bs) (hw : w.Within w') : Beside w' as bs :=
  h.imp fun _ _ hab => hab.within hw

theorem Beside.exists_of_mem (h : Beside w as bs) (ha : a ∈ as) : ∃ b ∈ bs, a.NewPair b w := by
  induction h with
  | nil => exact absurd ha List.not_mem_nil
  | @cons c d as bs hcd rest ih =>
    rcases List.mem_cons.1 ha with rfl | ha
    · exact ⟨d, List.mem_cons_self, hcd⟩
    · obtain ⟨b, hb, hab⟩ := ih ha
      exact ⟨b, List.mem_cons_of_mem d hb, hab⟩

/-- the ways through pairs end in a state and its image, unless their exits are nowhere -/
theorem pairs_fan (hs : w.IsImage s s') (hle : g₀.size ≤ s) (hle' : h₀.size ≤ s')
    (he : e < w.narrow.size) (he' : e' < w.wide.size) (h : Beside w as bs)
    (hends : w.IsImage e e' ∨ ∀ a ∈ as, a.Left w) :
    (fan s e as).Pairs (fan s' e' bs) w fun _ _ _ => True := by
  induction as generalizing w bs with
  | nil =>
    cases h
    exact pairs_pure trivial
  | cons a as ih =>
    obtain - | ⟨hab, h⟩ := h
    rw [fan_cons_eq, fan_cons_eq]
    refine (pairs_epsilon hs hab.entry hle hle').bind fun w₁ _ _ h₁ _ => ?_
    refine (pairs_out (hab.within h₁) (fun p q hp hq hpq => ?_)
      (Nat.lt_of_lt_of_le he h₁.narrow) (Nat.lt_of_lt_of_le he' h₁.wide)).bind
        fun w₂ _ _ h₂ _ => ?_
    · rcases hends with himage | hleft
      · exact clip_epsilon (himage.within h₁)
      · exact absurd hpq ((((hleft a List.mem_cons_self).exit p hp).within h₁).2 q)
    · have hw := h₁.trans h₂
      exact ih (hs.within hw) (Nat.lt_of_lt_of_le he hw.narrow) (Nat.lt_of_lt_of_le he' hw.wide)
        (Beside.within h hw) (hends.imp (·.within hw) fun hleft c hc =>
          (hleft c (List.mem_cons_of_mem a hc)).within hw)

theorem alternatives_cons_cons (a b : Fragment) (as : List Fragment) :
    alternatives (a :: b :: as) = (do
      let s ← Build.state
      let e ← Build.state
      fan s e (a :: b :: as)
      return ⟨s, if (a :: b :: as).any fun c => c.exit.isSome then some e else none⟩) := rfl

theorem pairs_alternatives (h : Beside w as bs) :
    (alternatives as).Pairs (alternatives bs) w fun w' a b => a.NewPair b w' := by
  match as, bs, h with
  | [], [], _ => exact pairs_nothing w
  | [a], [b], .cons hab _ => exact pairs_pure hab
  | a :: a' :: as, b :: b' :: bs, h =>
    rw [alternatives_cons_cons, alternatives_cons_cons]
    generalize a :: a' :: as = as at h
    generalize b :: b' :: bs = bs at h
    refine (pairs_state w).bind fun w₁ s s' h₁ ⟨hs, hle, hle'⟩ => ?_
    have hif {e : Nat} {P : Prop} [Decidable P] {x : Nat}
        (hx : (if P then some e else none) = some x) : x = e := by
      split at hx
      · exact (Option.some.inj hx).symm
      · exact absurd hx.symm (Option.some_ne_none x)
    by_cases hleft : ∀ a ∈ as, a.Left w
    · -- no way leads to the exit, which needs no image
      refine (pairs_state_idle w₁).bind fun w₂ e e' h₂ ⟨⟨he, hlee⟩, he', hlee'⟩ => ?_
      have hw := h₁.trans h₂
      refine (pairs_fan (hs.within h₂) hle hle' he.1 he'.1 (h.within hw)
        (.inr fun a ha => (hleft a ha).within hw)).bind fun w₃ _ _ h₃ _ => pairs_pure
          ⟨⟨(hs.within h₂).within h₃, .inr ⟨fun p hp => ?_, fun q hq => ?_⟩⟩,
            fun p hp => ?_, fun q hq => ?_⟩
      · exact hif hp ▸ he.within h₃
      · exact hif hq ▸ he'.within h₃
      · exact hif hp ▸ hlee
      · exact hif hq ▸ hlee'
    · refine (pairs_state w₁).bind fun w₂ e e' h₂ ⟨he, hlee, hlee'⟩ => ?_
      have hw := h₁.trans h₂
      refine (pairs_fan (hs.within h₂) hle hle' he.narrow_lt he.wide_lt (h.within hw)
        (.inl he)).bind fun w₃ _ _ h₃ _ => pairs_pure
          ⟨⟨(hs.within h₂).within h₃, .inl ⟨e, e', ?_, ?_, he.within h₃⟩⟩,
            fun p hp => hif hp ▸ hlee, fun q hq => hif hq ▸ hlee'⟩
      all_goals
        push Not at hleft
        obtain ⟨c, hc, hcleft⟩ := hleft
        obtain ⟨d, hd, hcd⟩ := h.exists_of_mem hc
        obtain ⟨p, q, hp, hq, -⟩ := hcd.ends.resolve_right fun h => hcleft h.1
      · exact if_pos (List.any_eq_true.2 ⟨c, hc, hp ▸ rfl⟩)
      · exact if_pos (List.any_eq_true.2 ⟨d, hd, hq ▸ rfl⟩)

theorem pairs_group (hab : a.NewPair b w) (n : Nat) :
    (a.group n).Pairs (b.group n) w fun w' c d => c.NewPair d w' := by
  rw [group_eq_out, group_eq_out]
  refine (pairs_state w).bind fun w₁ s s' h₁ ⟨hs, hle, hle'⟩ => ?_
  have hmap {x : Option Nat} {e y : Nat} (hy : (x.map fun _ => e) = some y) : y = e := by
    obtain ⟨-, -, rfl⟩ := Option.map_eq_some_iff.1 hy
    rfl
  rcases hab.ends with ⟨p, q, hp, hq, hpq, -, -⟩ | ⟨ha, hb⟩
  · refine (pairs_state w₁).bind fun w₂ e e' h₂ ⟨he, hlee, hlee'⟩ => ?_
    have hw := h₁.trans h₂
    refine (pairs_edge (hs.within h₂) (clip_firing (hab.entry.within hw) _) hle hle').bind
      fun w₃ _ _ h₃ _ => (pairs_out (hab.within (hw.trans h₃))
        (fun _ _ _ _ _ => clip_firing (he.within h₃) _) (he.within h₃).narrow_lt
        (he.within h₃).wide_lt).bind fun w₄ _ _ h₄ _ => pairs_pure
          ⟨⟨((hs.within h₂).within h₃).within h₄, .inl ⟨e, e', ?_, ?_, (he.within h₃).within h₄⟩⟩,
            fun p hp => hmap hp ▸ hlee, fun q hq => hmap hq ▸ hlee'⟩
    · rw [hp]
      rfl
    · rw [hq]
      rfl
  · refine (pairs_state_idle w₁).bind fun w₂ e e' h₂ ⟨⟨he, hlee⟩, he', hlee'⟩ => ?_
    have hw := h₁.trans h₂
    refine (pairs_edge (hs.within h₂) (clip_firing (hab.entry.within hw) _) hle hle').bind
      fun w₃ _ _ h₃ _ => (pairs_out (hab.within (hw.trans h₃)) (fun p q hp _ hpq => ?_)
        (he.within h₃).1 (he'.within h₃).1).bind fun w₄ _ _ h₄ _ => pairs_pure
          ⟨⟨((hs.within h₂).within h₃).within h₄, .inr ⟨fun p hp => ?_, fun q hq => ?_⟩⟩,
            fun p hp => hmap hp ▸ hlee, fun q hq => hmap hq ▸ hlee'⟩
    · exact absurd hpq (((ha.exit p hp).within (hw.trans h₃)).2 q)
    · exact hmap hp ▸ (he.within h₃).within h₄
    · exact hmap hq ▸ (he'.within h₃).within h₄

/-! ## loops -/

theorem pairs_optional (hab : a.NewPair b w) :
    a.optional.Pairs b.optional w fun w' c d => c.NewPair d w' := by
  refine (pairs_state w).bind fun w₁ s s' h₁ ⟨hs, hle, hle'⟩ =>
    (pairs_state w₁).bind fun w₂ e e' h₂ ⟨he, hlee, hlee'⟩ => ?_
  replace hs := hs.within h₂
  refine (pairs_epsilon hs he hle hle').bind fun w₃ _ _ h₃ _ => ?_
  have hw := (h₁.trans h₂).trans h₃
  refine (pairs_fan (hs.within h₃) hle hle' (he.within h₃).narrow_lt (he.within h₃).wide_lt
    (.cons (hab.within hw) .nil) (.inl (he.within h₃))).bind fun w₄ _ _ h₄ _ => pairs_pure
      ⟨⟨(hs.within h₃).within h₄, .inl ⟨e, e', rfl, rfl, (he.within h₃).within h₄⟩⟩,
        added_some hlee, added_some hlee'⟩

theorem pairs_star (hab : a.NewPair b w) :
    a.star.Pairs b.star w fun w' c d => c.NewPair d w' := by
  rw [star_eq_out, star_eq_out]
  refine (pairs_state w).bind fun w₁ s s' h₁ ⟨hs, hle, hle'⟩ =>
    (pairs_state w₁).bind fun w₂ e e' h₂ ⟨he, hlee, hlee'⟩ => ?_
  replace hs := hs.within h₂
  replace hab := (hab.within h₁).within h₂
  refine (pairs_epsilon hs hab.entry hle hle').bind fun w₃ _ _ h₃ _ => ?_
  replace hs := hs.within h₃
  replace he := he.within h₃
  replace hab := hab.within h₃
  refine (pairs_epsilon hs he hle hle').bind fun w₄ _ _ h₄ _ => ?_
  replace he := he.within h₄
  replace hab := hab.within h₄
  refine (pairs_out_epsilon hab hab.entry).bind fun w₅ _ _ h₅ _ => ?_
  refine (pairs_out_epsilon (hab.within h₅) (he.within h₅)).bind fun w₆ _ _ h₆ _ => pairs_pure ?_
  exact ⟨⟨((hs.within h₄).within h₅).within h₆,
    .inl ⟨e, e', rfl, rfl, (he.within h₅).within h₆⟩⟩, added_some hlee, added_some hlee'⟩

end Fragment

end SpanSearch
