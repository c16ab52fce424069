import SpanSearch.Proofs.Counts
import SpanSearch.Proofs.Denotation

/-!
# Expressions of characters

Over characters and over Latin-1 an expression of characters has the same words up to `0xFF`, as
Latin-1 has a byte for every character there and none for the others.

* `Agree`                languages with the same words of symbols up to a bound
* `Expr.Textual`         there are no bytes in the expression
* `Expr.agree_latin1`    the words over Latin-1 are those over characters up to `0xFF`
-/

namespace SpanSearch

/-- words of symbols up to `m` are in both languages or in neither -/
def Agree (m : Nat) (L L' : Language Nat) : Prop :=
  ∀ w, (∀ sym ∈ w, sym ≤ m) → (w ∈ L' ↔ w ∈ L)

section

variable {m : Nat} {K K' L L' : Language Nat}

theorem Agree.refl (m : Nat) (L : Language Nat) : Agree m L L := fun _ _ => Iff.rfl

theorem Agree.add (hK : Agree m K K') (hL : Agree m L L') : Agree m (K + L) (K' + L') :=
  fun w hw => or_congr (hK w hw) (hL w hw)

theorem Agree.mul (hK : Agree m K K') (hL : Agree m L L') : Agree m (K * L) (K' * L') := by
  intro w hw
  rw [Language.mem_mul, Language.mem_mul]
  constructor
  · rintro ⟨u, hu, v, hv, rfl⟩
    exact ⟨u, (hK u fun s hs => hw s (List.mem_append_left v hs)).1 hu, v,
      (hL v fun s hs => hw s (List.mem_append_right u hs)).1 hv, rfl⟩
  · rintro ⟨u, hu, v, hv, rfl⟩
    exact ⟨u, (hK u fun s hs => hw s (List.mem_append_left v hs)).2 hu, v,
      (hL v fun s hs => hw s (List.mem_append_right u hs)).2 hv, rfl⟩

theorem Agree.pow (h : Agree m L L') (k : Nat) : Agree m (L ^ k) (L' ^ k) := by
  induction k with
  | zero =>
    rw [pow_zero, pow_zero]
    exact Agree.refl m 1
  | succ k ih =>
    rw [pow_succ, pow_succ]
    exact ih.mul h

theorem Agree.times (h : Agree m L L') (c : Count) : Agree m (c.times L) (c.times L') :=
  fun w hw => exists_congr fun k => and_congr_right fun _ => h.pow k w hw

end

namespace Alphabet

theorem literal_latin1 (c : Char) :
    Agree 0xFF ((bytes .latin1).literal c) (chars.literal c) := by
  intro w hw
  show some [c.toNat] = some w ↔ (if c.toNat ≤ 0xFF then some [c.toNat] else none) = some w
  by_cases hle : c.toNat ≤ 0xFF
  · rw [if_pos hle]
  · rw [if_neg hle]
    refine iff_of_false (fun h => hle ?_) (Option.some_ne_none w).symm
    obtain rfl := Option.some.inj h
    exact hw _ (List.mem_singleton_self _)

theorem oneOf_latin1 (s : RangeSet) : Agree 0xFF ((bytes .latin1).oneOf s) (chars.oneOf s) := by
  intro w hw
  constructor
  · rintro ⟨n, rfl, hn⟩
    have hle : n ≤ 0xFF := hw n (List.mem_singleton_self n)
    obtain ⟨c, rfl⟩ : ∃ c : Char, c.toNat = n := ⟨Char.ofNatAux n (.inl (by omega)), rfl⟩
    exact ⟨c, hn, if_pos hle⟩
  · rintro ⟨c, hc, hcw⟩
    have hcw : (if c.toNat ≤ 0xFF then some [c.toNat] else none) = some w := hcw
    split at hcw
    · exact ⟨c.toNat, (Option.some.inj hcw).symm, hc⟩
    · exact absurd hcw.symm (Option.some_ne_none w)

end Alphabet

namespace Expr

mutual

/-- there are characters in the expression, but no bytes -/
def Textual : Expr → Prop
  | .byte _ => False
  | .byteClass _ => False
  | .loop e _ _ => e.Textual
  | .group _ e => e.Textual
  | .concat es => TextualAll es
  | .alt es => TextualAll es
  | .empty => True
  | .char _ => True
  | .charClass _ => True
  | .assertion _ => True

def TextualAll : List Expr → Prop
  | [] => True
  | e :: es => e.Textual ∧ TextualAll es

end

mutual

theorem textual_ordered : (e : Expr) → (e.ordered.Textual ↔ e.Textual)
  | .loop e count greedy => by
    rw [ordered, Textual, Textual]
    exact textual_ordered e
  | .group index e => by
    rw [ordered, Textual, Textual]
    exact textual_ordered e
  | .concat es => by
    rw [ordered, Textual, Textual]
    exact textualAll_ordered es
  | .alt es => by
    rw [ordered, Textual, Textual]
    exact textualAll_ordered es
  | .empty | .char _ | .byte _ | .charClass _ | .byteClass _ | .assertion _ => Iff.rfl

theorem textualAll_ordered : (es : List Expr) → (TextualAll (orderedAll es) ↔ TextualAll es)
  | [] => Iff.rfl
  | e :: es => and_congr (textual_ordered e) (textualAll_ordered es)

end

mutual

theorem agree_latin1 : (e : Expr) → e.Textual →
    Agree 0xFF (e.words (.bytes .latin1)) (e.words .chars)
  | .empty, _ => Agree.refl _ 1
  | .char c, _ => Alphabet.literal_latin1 c
  | .charClass s, _ => Alphabet.oneOf_latin1 s
  | .assertion _, _ => Agree.refl _ 0
  | .loop e count _, he => (agree_latin1 e he).times count
  | .group _ e, he => agree_latin1 e he
  | .concat es, hes => agreeInRow_latin1 es hes
  | .alt es, hes => agreeOfAny_latin1 es hes

theorem agreeInRow_latin1 : (es : List Expr) → TextualAll es →
    Agree 0xFF (wordsInRow (.bytes .latin1) es) (wordsInRow .chars es)
  | [], _ => Agree.refl _ 1
  | e :: es, ⟨he, hes⟩ => (agree_latin1 e he).mul (agreeInRow_latin1 es hes)

theorem agreeOfAny_latin1 : (es : List Expr) → TextualAll es →
    Agree 0xFF (wordsOfAny (.bytes .latin1) es) (wordsOfAny .chars es)
  | [], _ => Agree.refl _ 0
  | e :: es, ⟨he, hes⟩ => (agree_latin1 e he).add (agreeOfAny_latin1 es hes)

end

end Expr
end SpanSearch
