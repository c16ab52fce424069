import SpanSearch.Proofs.Eliminating

/-!
# Lists without their repetitions

* `firsts_concat`, `firsts_append`   a member comes in where it occurs first
* `firsts_filter`, `firsts_map`, `firsts_filterMap`   what leaves the members apart
* `Edge.Alike`           edges in the same order, some of which may occur again
-/

namespace SpanSearch

variable {α β : Type} [BEq α] [LawfulBEq α] [BEq β] [LawfulBEq β]

theorem firsts_concat (l : List α) (a : α) :
    firsts (l ++ [a]) = if a ∈ l then firsts l else firsts l ++ [a] := by
  rw [firsts, List.foldl_append]
  show (if _ then _ else _ : List α).reverse = _
  have hmem : (l.foldl (fun kept a => if kept.contains a then kept else a :: kept) []).contains a =
      true ↔ a ∈ l := by
    rw [List.contains_iff_mem, mem_foldl_firsts]
    simp
  by_cases h : a ∈ l
  · rw [if_pos (hmem.2 h), if_pos h, firsts]
  · rw [if_neg (mt hmem.1 h), if_neg h, firsts]
    exact List.reverse_cons

theorem firsts_append (l k : List α) :
    firsts (l ++ k) = firsts l ++ (firsts k).filter fun a => decide (a ∉ l) := by
  induction k using List.reverseRecOn with
  | nil => simp [firsts_nil]
  | append_singleton k a ih =>
    rw [← List.append_assoc, firsts_concat, ih, firsts_concat]
    by_cases hl : a ∈ l <;> by_cases hk : a ∈ k <;> simp [hl, hk]

theorem firsts_filter (P : α → Bool) (l : List α) : firsts (l.filter P) = (firsts l).filter P := by
  induction l using List.reverseRecOn with
  | nil => rfl
  | append_singleton l a ih =>
    rw [List.filter_append, firsts_concat]
    by_cases ha : P a = true
    · rw [List.filter_cons_of_pos ha, List.filter_nil, firsts_concat, ih]
      by_cases hl : a ∈ l <;> simp [hl, ha]
    · rw [List.filter_cons_of_neg ha, List.filter_nil, List.append_nil, ih]
      by_cases hl : a ∈ l <;> simp [hl, ha]

/-- what leaves the members apart leaves out the same repetitions -/
theorem firsts_filterMap (f : α → Option β) (l : List α)
    (hf : ∀ a ∈ l, ∀ b ∈ l, ∀ x, f a = some x → f b = some x → a = b) :
    firsts (l.filterMap f) = (firsts l).filterMap f := by
  induction l using List.reverseRecOn with
  | nil => rfl
  | append_singleton l a ih =>
    have ih := ih fun b hb c hc => hf b (List.mem_append_left _ hb) c (List.mem_append_left _ hc)
    rw [List.filterMap_append, firsts_concat]
    cases hfa : f a with
    | none =>
      rw [List.filterMap_cons_none hfa, List.filterMap_nil, List.append_nil, ih]
      split
      · rfl
      · rw [List.filterMap_append, List.filterMap_cons_none hfa, List.filterMap_nil,
          List.append_nil]
    | some x =>
      have hmem : x ∈ l.filterMap f ↔ a ∈ l := by
        rw [List.mem_filterMap]
        constructor
        · rintro ⟨b, hb, hfb⟩
          have hab := hf a (List.mem_append_right _ (List.mem_singleton_self a)) b
            (List.mem_append_left _ hb) x hfa hfb
          exact hab ▸ hb
        · exact fun ha => ⟨a, ha, hfa⟩
      rw [List.filterMap_cons_some hfa, List.filterMap_nil, firsts_concat, ih]
      by_cases ha : a ∈ l
      · rw [if_pos ha, if_pos (hmem.2 ha)]
      · rw [if_neg ha, if_neg (mt hmem.1 ha), List.filterMap_append, List.filterMap_cons_some hfa,
          List.filterMap_nil]

theorem firsts_map (f : α → β) (l : List α) (hf : ∀ a ∈ l, ∀ b ∈ l, f a = f b → a = b) :
    firsts (l.map f) = (firsts l).map f := by
  have h := firsts_filterMap (fun a => some (f a)) l fun a ha b hb x hax hbx =>
    hf a ha b hb (Option.some.inj (hax.trans hbx.symm))
  simpa [List.filterMap_eq_map] using h

/-- repetitions that are left out first make no difference -/
theorem firsts_filterMap_firsts (f : α → Option β) (l : List α) :
    firsts ((firsts l).filterMap f) = firsts (l.filterMap f) := by
  induction l using List.reverseRecOn with
  | nil => rfl
  | append_singleton l a ih =>
    rw [firsts_concat, List.filterMap_append]
    by_cases ha : a ∈ l
    · rw [if_pos ha, ih]
      cases hfa : f a with
      | none => rw [List.filterMap_cons_none hfa, List.filterMap_nil, List.append_nil]
      | some x =>
        have hx : x ∈ l.filterMap f := List.mem_filterMap.2 ⟨a, ha, hfa⟩
        rw [List.filterMap_cons_some hfa, List.filterMap_nil, firsts_concat, if_pos hx]
    · rw [if_neg ha, List.filterMap_append, firsts_append, firsts_append, ih]
      refine congrArg _ (List.filter_congr fun x _ => decide_eq_decide.2 (not_congr ?_))
      simp only [List.mem_filterMap, mem_firsts]

theorem firsts_append_congr {l l' k k' : List α} (h : firsts l = firsts l')
    (h' : firsts k = firsts k') : firsts (l ++ k) = firsts (l' ++ k') := by
  rw [firsts_append, firsts_append, h, h']
  refine congrArg _ (List.filter_congr fun a _ => decide_eq_decide.2 (not_congr ?_))
  rw [← mem_firsts, h, mem_firsts]

theorem firsts_map_congr {l l' : List α} (h : firsts l = firsts l') (f : α → β) :
    firsts (l.map f) = firsts (l'.map f) := by
  have hfirst (l : List α) : firsts ((firsts l).map f) = firsts (l.map f) := by
    rw [← List.filterMap_eq_map]
    exact firsts_filterMap_firsts _ l
  rw [← hfirst, h, hfirst]

theorem firsts_of_nodup {l : List α} (h : l.Nodup) : firsts l = l := by
  induction l using List.reverseRecOn with
  | nil => rfl
  | append_singleton l a ih =>
    obtain ⟨hl, -, hdisj⟩ := List.nodup_append.1 h
    rw [firsts_concat, if_neg fun ha => hdisj a ha a (List.mem_singleton_self a) rfl, ih hl]

omit [BEq α] [LawfulBEq α] [BEq β] [LawfulBEq β] in
theorem filter_filterMap_comm {f : α → Option β} {P : β → Bool} {Q : α → Bool} {l : List α}
    (h : ∀ a ∈ l, ∀ b, f a = some b → P b = Q a) :
    (l.filterMap f).filter P = (l.filter Q).filterMap f := by
  rw [List.filter_filterMap, List.filterMap_filter]
  refine List.filterMap_congr fun a ha => ?_
  cases hb : f a with
  | none => split <;> rfl
  | some b =>
    rw [Option.filter_some, h a ha b hb]

namespace Edge

variable {l l' k k' : List Edge}

/-- the same edges in the order in which they occur first; those that consume nothing also occur
as often -/
structure Alike (l l' : List Edge) : Prop where
  firsts : firsts l = firsts l'
  epsilons : l.filter isEpsilon = l'.filter isEpsilon

theorem Alike.refl (l : List Edge) : Alike l l := ⟨rfl, rfl⟩

theorem Alike.mem_iff (h : Alike l l') {e : Edge} : e ∈ l ↔ e ∈ l' := by
  rw [← mem_firsts, h.firsts, mem_firsts]

theorem Alike.append (h : Alike l l') (h' : Alike k k') : Alike (l ++ k) (l' ++ k') where
  firsts := firsts_append_congr h.firsts h'.firsts
  epsilons := by rw [List.filter_append, List.filter_append, h.epsilons, h'.epsilons]

theorem Alike.filter (h : Alike l l') (P : Edge → Bool) : Alike (l.filter P) (l'.filter P) where
  firsts := by rw [firsts_filter, firsts_filter, h.firsts]
  epsilons := by
    simp only [List.filter_filter, Bool.and_comm _ (P _)]
    simp only [← List.filter_filter, h.epsilons]

/-- new targets that differ where the targets do -/
theorem Alike.withTarget (h : Alike l l') {f : Nat → Nat}
    (hf : ∀ d ∈ l, ∀ e ∈ l, f d.target = f e.target → d.target = e.target) :
    Alike (l.map fun e => e.withTarget (f e.target))
      (l'.map fun e => e.withTarget (f e.target)) := by
  have hinj : ∀ d ∈ l, ∀ e ∈ l,
      d.withTarget (f d.target) = e.withTarget (f e.target) → d = e := by
    intro d hd e he heq
    obtain ⟨label, target, action⟩ := d
    obtain ⟨label', target', action'⟩ := e
    simp only [Edge.withTarget, Edge.mk.injEq] at heq
    have htarget : target = target' := hf _ hd _ he heq.2.1
    rw [heq.1, htarget, heq.2.2]
  refine ⟨?_, ?_⟩
  · rw [firsts_map _ _ hinj, firsts_map _ _ fun d hd e he => hinj d (h.mem_iff.2 hd) e
      (h.mem_iff.2 he), h.firsts]
  · rw [List.filter_map, List.filter_map]
    exact congrArg _ h.epsilons

end Edge
end SpanSearch
