import SpanSearch.Proofs.Compiling
import SpanSearch.Proofs.Duplicating
import SpanSearch.Proofs.Textual

/-!
# Latin-1 among the characters

Where Latin-1 has no form for a character, a class ends earlier, a text becomes nothing at all,
and everything else stays the same.  So the graph of an expression for Latin-1 is inside that for
characters.

* `pairs_literal`, `pairs_text`, `pairs_charClass`   the fragments that read something
* `Compile.Pairs`      two compilations extend a pair
* `pairs_compile`      the fragments of an expression of characters are a pair
-/

namespace SpanSearch

open SpanSearch.Graph

variable {g₀ h₀ : Graph}

abbrev maxByte : Nat := 0xFF

namespace Fragment

open Build GraphPair

section

variable {m : Nat} {w : GraphPair m g₀ h₀} {s s' : Nat}

/-- the same symbols in both graphs -/
theorem pairs_chainFrom (hs : w.IsImage s s') (hle : g₀.size ≤ s) (hle' : h₀.size ≤ s')
    {word : List Nat} (hword : ∀ sym ∈ word, sym ≤ m) :
    (chainFrom s word).Pairs (chainFrom s' word) w fun w' x y =>
      w'.IsImage x y ∧ g₀.size ≤ x ∧ h₀.size ≤ y := by
  induction word generalizing w s s' with
  | nil => exact pairs_pure ⟨hs, hle, hle'⟩
  | cons sym word ih =>
    obtain ⟨hsym, hword⟩ := List.forall_mem_cons.1 hword
    refine (pairs_state w).bind fun w₁ t t' h₁ ⟨ht, hlet, hlet'⟩ => ?_
    have hclip := clip_symbols ht hsym sym
    rw [Nat.min_eq_left hsym] at hclip
    exact (pairs_edge (hs.within h₁) hclip hle hle').bind fun w₂ _ _ h₂ _ =>
      ih (ht.within h₂) hlet hlet' hword

theorem pairs_chain (w : GraphPair m g₀ h₀) {word : List Nat} (hword : ∀ sym ∈ word, sym ≤ m) :
    (chain word).Pairs (chain word) w fun w' a b => a.NewPair b w' :=
  (pairs_state w).bind fun _ _ _ _ ⟨hs, hle, hle'⟩ =>
    (pairs_chainFrom hs hle hle' hword).bind fun _ x y h ⟨hxy, hlex, hley⟩ => pairs_pure
      ⟨⟨hs.within h, .inl ⟨x, y, rfl, rfl, hxy⟩⟩, added_some hlex, added_some hley⟩

theorem pairs_chainFrom_spare {α : Type} (hs : w.Has s .spare) (hle : h₀.size ≤ s)
    (word : List Nat) (x : α) :
    Pairs (pure x) (chainFrom s word) w fun w' _ y => w'.Has y .spare ∧ h₀.size ≤ y := by
  induction word generalizing w s with
  | nil => exact pairs_pure ⟨hs, hle⟩
  | cons sym word ih =>
    refine (pairs_state_wide w x (r := .spare) fun p h => Role.noConfusion h).wide
      fun w₁ t h₁ ⟨ht, hlet⟩ => ?_
    exact (pairs_edge_wide (hs.within h₁) hle ht.1 (.inl rfl) x).wide fun w₂ _ h₂ _ =>
      ih (ht.within h₂) hlet

/-- symbols, one of which cannot be read, lead nowhere -/
theorem pairs_chainFrom_stray {α : Type} {r : Role} (hs : w.Has s r) (hle : h₀.size ≤ s)
    {word : List Nat} (hword : ∃ sym ∈ word, m < sym) (x : α) :
    Pairs (pure x) (chainFrom s word) w fun w' _ y => w'.Has y .spare ∧ h₀.size ≤ y := by
  induction word generalizing w s r with
  | nil =>
    obtain ⟨sym, hsym, -⟩ := hword
    exact absurd hsym List.not_mem_nil
  | cons sym word ih =>
    by_cases hsym : sym ≤ m
    · have hrest : ∃ sym ∈ word, m < sym := by
        obtain ⟨sym', hmem, hlt⟩ := hword
        rcases List.mem_cons.1 hmem with rfl | hmem
        · exact absurd hsym (Nat.not_le_of_lt hlt)
        · exact ⟨sym', hmem, hlt⟩
      refine (pairs_state_wide w x (r := .stray) fun p h => Role.noConfusion h).wide
        fun w₁ t h₁ ⟨ht, hlet⟩ => ?_
      exact (pairs_edge_wide (hs.within h₁) hle ht.1 (.inr (.inr ht.2)) x).wide
        fun w₂ _ h₂ _ => ih (ht.within h₂) hlet hrest
    · refine (pairs_state_wide w x (r := .spare) fun p h => Role.noConfusion h).wide
        fun w₁ t h₁ ⟨ht, hlet⟩ => ?_
      exact (pairs_edge_wide (hs.within h₁) hle ht.1
        (.inr (.inl (isSeen_symbols (Nat.lt_of_not_le hsym) sym t))) x).wide
          fun w₂ _ h₂ _ => pairs_chainFrom_spare (ht.within h₂) hlet word x

theorem pairs_chain_nothing (w : GraphPair m g₀ h₀) {word : List Nat}
    (hword : ∃ sym ∈ word, m < sym) :
    nothing.Pairs (chain word) w fun w' a b => a.NewPair b w' := by
  refine (pairs_state w).bind fun w₁ s s' h₁ ⟨hs, hle, hle'⟩ => ?_
  exact (pairs_chainFrom_stray ⟨hs.wide_lt, hs⟩ hle' hword ()).wide fun w₂ y h₂ ⟨hy, hley⟩ =>
    pairs_pure ⟨⟨hs.within h₂, .inr ⟨fun p hp => absurd hp.symm (Option.some_ne_none p),
      fun q hq => Option.some.inj hq ▸ hy⟩⟩, added_none _, added_some hley⟩

end

variable {w : GraphPair maxByte g₀ h₀}

theorem encodeText?_latin1 {cs : List Char} (h : ∀ c ∈ cs, c.toNat ≤ maxByte) :
    Encoding.latin1.encodeText? cs = some (cs.map Char.toNat) := by
  induction cs with
  | nil => rfl
  | cons c cs ih =>
    obtain ⟨hc, hcs⟩ := List.forall_mem_cons.1 h
    have hone : Encoding.latin1.encode? c = some [c.toNat] := if_pos hc
    rw [Encoding.encodeText?_cons, hone, ih hcs]
    rfl

theorem encodeText?_latin1_eq_none {c : Char} (hc : maxByte < c.toNat) {cs : List Char}
    (hmem : c ∈ cs) : Encoding.latin1.encodeText? cs = none := by
  induction cs with
  | nil => exact absurd hmem List.not_mem_nil
  | cons d cs ih =>
    rw [Encoding.encodeText?_cons]
    rcases List.mem_cons.1 hmem with rfl | hmem
    · have hone : Encoding.latin1.encode? c = none := if_neg (Nat.not_le_of_lt hc)
      rw [hone, Option.bind_none]
    · rw [ih hmem]
      cases Encoding.latin1.encode? d <;> rfl

theorem pairs_text (w : GraphPair maxByte g₀ h₀) (cs : List Char) :
    (text (.bytes .latin1) cs).Pairs (text .chars cs) w fun w' a b => a.NewPair b w' := by
  rw [text_bytes]
  by_cases hcs : ∀ c ∈ cs, c.toNat ≤ maxByte
  · rw [encodeText?_latin1 hcs]
    exact pairs_chain w (List.forall_mem_map.2 hcs)
  · push Not at hcs
    obtain ⟨c, hc, hlt⟩ := hcs
    rw [encodeText?_latin1_eq_none hlt hc]
    exact pairs_chain_nothing w ⟨c.toNat, List.mem_map_of_mem hc, hlt⟩

theorem chain_singleton_eq (sym : Nat) : chain [sym] = symbols sym sym := by
  have hclass : symbols sym sym = (do
      let s ← Build.state
      let e ← Build.state
      Build.range s (min sym sym) (max sym sym) e
      return ⟨s, some e⟩) := rfl
  rw [hclass, Nat.min_self, Nat.max_self]
  rfl

theorem pairs_literal (w : GraphPair maxByte g₀ h₀) (c : Char) :
    (literal (.bytes .latin1) c).Pairs (literal .chars c) w fun w' a b => a.NewPair b w' := by
  have h := pairs_text w [c]
  have htext : text .chars [c] = literal .chars c := chain_singleton_eq c.toNat
  have htext' : text (.bytes .latin1) [c] = literal (.bytes .latin1) c := by
    unfold text literal
    dsimp only
    rw [Encoding.encodeText?_cons]
    cases Encoding.latin1.encode? c with
    | none => rfl
    | some bs =>
      show chain (bs ++ []) = _
      rw [List.append_nil]
  rwa [htext, htext'] at h

theorem pairs_ofRun (w : GraphPair maxByte g₀ h₀) (run : List Char) :
    (ofRun (.bytes .latin1) run).Pairs (ofRun .chars run) w Chained := by
  unfold ofRun
  split
  · exact pairs_pure .nil
  · exact (pairs_text w run.reverse).bind fun _ _ _ _ h => pairs_pure (chained_singleton h)

theorem charRange_latin1 (s e a b : Nat) : charRange (.bytes .latin1) s e a b =
    if min a b ≤ maxByte then Build.range s (min a b) (min (max a b) maxByte) e else pure () := by
  unfold charRange Encoding.sequences
  dsimp only
  by_cases h : min a b ≤ maxByte
  · rw [if_pos h, if_pos h]
    rfl
  · rw [if_neg h, if_neg h]
    rfl

theorem pairs_charRanges {s s' e e' : Nat} (hs : w.IsImage s s') (he : w.IsImage e e')
    (hle : g₀.size ≤ s) (hle' : h₀.size ≤ s') (ranges : List (Nat × Nat)) :
    Pairs (ranges.forM fun (a, b) => charRange (.bytes .latin1) s e a b)
      (ranges.forM fun (a, b) => charRange .chars s' e' a b) w fun _ _ _ => True := by
  induction ranges generalizing w with
  | nil => exact pairs_pure trivial
  | cons r ranges ih =>
    obtain ⟨a, b⟩ := r
    have hfirst : (charRange (.bytes .latin1) s e a b).Pairs (charRange .chars s' e' a b) w
        fun _ _ _ => True := by
      rw [charRange_latin1]
      by_cases h : min a b ≤ maxByte
      · rw [if_pos h]
        exact pairs_edge hs (clip_symbols he h (max a b)) hle hle'
      · rw [if_neg h]
        exact pairs_edge_wide ⟨hs.wide_lt, hs⟩ hle' he.wide_lt
          (.inr (.inl (isSeen_symbols (Nat.lt_of_not_le h) _ _))) ()
    exact hfirst.bind fun _ _ _ h _ => ih (hs.within h) (he.within h)

theorem pairs_charClass (w : GraphPair maxByte g₀ h₀) (ranges : List (Nat × Nat)) :
    (charClass (.bytes .latin1) ranges).Pairs (charClass .chars ranges) w
      fun w' a b => a.NewPair b w' :=
  (pairs_state w).bind fun _ _ _ _ ⟨hs, hle, hle'⟩ =>
    (pairs_state _).bind fun _ _ _ h₂ ⟨he, hlee, hlee'⟩ =>
      (pairs_charRanges (hs.within h₂) he hle hle' ranges).bind fun _ _ _ h _ => pairs_pure
        ⟨⟨(hs.within h₂).within h, .inl ⟨_, _, rfl, rfl, he.within h⟩⟩, added_some hlee,
          added_some hlee'⟩

end Fragment

/-! ## compilations -/

namespace Compile

open Build GraphPair

variable {α β γ δ : Type} {m : Nat} {w : GraphPair m g₀ h₀} {c : Compile α} {c' : Compile β}

/-- the two steps succeed and leave a larger pair, in which `Q` holds of their results -/
def Pairs (c : Compile α) (c' : Compile β) (w : GraphPair m g₀ h₀)
    (Q : GraphPair m g₀ h₀ → α → β → Prop) : Prop :=
  ∃ w' x y, w.Within w' ∧ c w.narrow = .ok (x, w'.narrow) ∧ c' w.wide = .ok (y, w'.wide) ∧ Q w' x y

section

variable {P : GraphPair m g₀ h₀ → α → β → Prop} {Q : GraphPair m g₀ h₀ → γ → δ → Prop}

theorem pairs_ofBuild {b : Build α} {b' : Build β} (h : b.Pairs b' w P) :
    (ofBuild b).Pairs (ofBuild b') w P := by
  obtain ⟨w', hw, hnarrow, hwide, hP⟩ := h
  refine ⟨w', _, _, hw, ?_, ?_, hP⟩
  · rw [← hnarrow]
    rfl
  · rw [← hwide]
    rfl

theorem pairs_pure {x : α} {y : β} (h : P w x y) : Pairs (pure x) (pure y) w P :=
  ⟨w, x, y, .refl w, rfl, rfl, h⟩

theorem Pairs.bind {f : α → Compile γ} {f' : β → Compile δ} (h : c.Pairs c' w P)
    (hf : ∀ w' x y, w.Within w' → P w' x y → (f x).Pairs (f' y) w' Q) :
    Pairs (c >>= f) (c' >>= f') w Q := by
  obtain ⟨w', x, y, hw, hnarrow, hwide, hP⟩ := h
  obtain ⟨w'', x', y', hw', hnarrow', hwide', hQ⟩ := hf w' x y hw hP
  exact ⟨w'', x', y', hw.trans hw', (bind_of_ok hnarrow).trans hnarrow',
    (bind_of_ok hwide).trans hwide', hQ⟩

end

open Fragment

theorem pairs_append {rest rest' : Compile (List Fragment)} {as bs : List Fragment}
    (h : Chained w as bs) (hrest : rest.Pairs rest' w.begin Chained) :
    rest.Pairs rest' w fun w' cs ds => Chained w' (as ++ cs) (bs ++ ds) := by
  obtain ⟨v, cs, ds, hv, hnarrow, hwide, hchain⟩ := hrest
  obtain ⟨w', hw, hnarrow', hwide', hchain'⟩ := h.extend hv hchain
  exact ⟨w', cs, ds, hw, hnarrow' ▸ hnarrow, hwide' ▸ hwide, hchain'⟩

end Compile

namespace Expr

open Compile Fragment GraphPair

theorem shrink_eq_pure (o : CompileOptions) (ho : o.minimal = false) (a : Fragment) :
    a.shrink o = pure a := by
  rw [shrink, ho]
  rfl

theorem pairs_shrink {o o' : CompileOptions} (ho : o.minimal = false) (ho' : o'.minimal = false)
    {m : Nat} {w : GraphPair m g₀ h₀} {a b : Fragment} (h : a.NewPair b w) :
    (a.shrink o).Pairs (b.shrink o') w fun w' a b => a.NewPair b w' := by
  rw [shrink_eq_pure o ho, shrink_eq_pure o' ho']
  exact Build.pairs_pure h

/-- what is compiled for Latin-1, next to what is compiled for characters -/
abbrev latin1Options : CompileOptions := { alphabet := .bytes .latin1 }

abbrev charsOptions : CompileOptions := { alphabet := .chars }

mutual

/-- the fragments of an expression of characters are a pair -/
theorem pairs_compile : (e : Expr) → e.Textual → e.assertion? = none → {g₀ h₀ : Graph} →
    (w : GraphPair maxByte g₀ h₀) → (e.compile latin1Options).Pairs (e.compile charsOptions) w
      fun w' a b => a.NewPair b w'
  | .empty, _, _, _, _, w => pairs_ofBuild (pairs_empty w)
  | .char c, _, _, _, _, w => pairs_ofBuild (pairs_literal w c)
  | .charClass s, _, _, _, _, w => pairs_ofBuild (pairs_charClass w s)
  | .assertion a, _, hnone, _, _, _ => absurd hnone (Option.some_ne_none a)
  | .loop e count _, ht, hnone, _, _, w =>
    (pairs_compile e ht hnone w).bind fun _ _ _ _ h =>
      (pairs_ofBuild (pairs_repeated h count)).bind fun _ _ _ _ h =>
        pairs_ofBuild (pairs_shrink rfl rfl h)
  | .group none e, ht, hnone, _, _, w => pairs_compile e ht hnone w
  | .group (some n) e, ht, hnone, _, _, w =>
    (pairs_compile e ht hnone w).bind fun _ _ _ _ h => pairs_ofBuild (pairs_group h n)
  | .concat es, ht, hnone, _, _, w =>
    (pairs_compileParts es [] ht hnone w).bind fun _ _ _ _ h =>
      (pairs_ofBuild (pairs_concatenation h)).bind fun _ _ _ _ h =>
        pairs_ofBuild (pairs_shrink rfl rfl h)
  | .alt es, ht, hnone, _, _, w =>
    (pairs_compileAll es ht hnone w).bind fun _ _ _ _ h =>
      (pairs_ofBuild (pairs_alternatives h)).bind fun _ _ _ _ h =>
        pairs_ofBuild (pairs_shrink rfl rfl h)

theorem pairs_compileAll : (es : List Expr) → TextualAll es → assertionIn? es = none →
    {g₀ h₀ : Graph} → (w : GraphPair maxByte g₀ h₀) →
      (compileAll latin1Options es).Pairs (compileAll charsOptions es) w Beside
  | [], _, _, _, _, _ => pairs_pure .nil
  | e :: es, ⟨ht, hts⟩, hnone, _, _, w => by
    obtain ⟨he, hes⟩ := Option.or_eq_none_iff.1 hnone
    exact (pairs_compile e ht he w).bind fun w₁ a b _ hab =>
      (pairs_compileAll es hts hes w₁).bind fun w₂ _ _ h₂ h => pairs_pure
        (List.Forall₂.cons (hab.within h₂) h)

/-- characters side by side become one chain, or nothing -/
theorem pairs_compileParts : (es : List Expr) → (run : List Char) → TextualAll es →
    assertionIn? es = none → {g₀ h₀ : Graph} → (w : GraphPair maxByte g₀ h₀) →
      (compileParts latin1Options run es).Pairs (compileParts charsOptions run es) w Chained
  | [], run, _, _, _, _, w => pairs_ofBuild (pairs_ofRun w run)
  | e :: es, run, ⟨ht, hts⟩, hnone, _, _, w => by
    obtain ⟨he, hes⟩ := Option.or_eq_none_iff.1 hnone
    by_cases hchar : ∃ c, e = .char c
    · obtain ⟨c, rfl⟩ := hchar
      exact pairs_compileParts es (c :: run) hts hes w
    · rw [compileParts_cons fun c h => hchar ⟨c, h⟩, compileParts_cons fun c h => hchar ⟨c, h⟩]
      refine (pairs_ofBuild (pairs_ofRun w run)).bind fun w₁ chain chain' h₁ hchain => ?_
      have hrest : Compile.Pairs (do
          let a ← e.compile latin1Options
          let as ← compileParts latin1Options [] es
          return a :: as) (do
          let b ← e.compile charsOptions
          let bs ← compileParts charsOptions [] es
          return b :: bs) w₁.begin Chained :=
        (pairs_compile e ht he w₁.begin).bind fun w₂ a b _ hab =>
          (Compile.pairs_append (chained_singleton hab)
            (pairs_compileParts es [] hts hes w₂.begin)).bind fun _ _ _ _ h => pairs_pure h
      have hall := (Compile.pairs_append hchain hrest).bind
        (f := fun as => pure (chain ++ as)) (Q := Chained)
        fun _ _ bs _ h => Compile.pairs_pure (y := chain' ++ bs) h
      simpa only [bind_assoc, pure_bind] using hall

end

end Expr
end SpanSearch
