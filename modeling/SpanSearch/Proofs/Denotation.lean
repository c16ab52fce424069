import Mathlib.Algebra.BigOperators.Ring.List
import Mathlib.Computability.Language
import SpanSearch.Alphabet
import SpanSearch.Expr.Basic

/-!
# What expressions denote

The words of an expression over an alphabet, by recursion on the expression and without any
graph.

* `RangeSet.Holds`     membership in a class, its bounds in either order
* `Alphabet.literal`, `Alphabet.oneOf`   the words of a character and of a class
* `Count.Allows`       how often a part may be repeated
* `Expr.words`         the words of an expression
* `Expr.Valid`         what stands for bytes and code points is in their bounds
* `Expr.InOrder`       every count has its bounds in order
* `Expr.over_words`    the words of an expression are over its alphabet
-/

namespace SpanSearch

variable {α : Alphabet} {w : List Nat}

/-- lies between the bounds of a range, which may come in either order -/
def RangeSet.Holds (s : RangeSet) (n : Nat) : Prop := ∃ r ∈ s, min r.1 r.2 ≤ n ∧ n ≤ max r.1 r.2

namespace Alphabet

/-- a character as a word: its code point, or its encoding if there is one -/
def form? (α : Alphabet) (c : Char) : Option (List Nat) :=
  match α with
  | .chars => some [c.toNat]
  | .bytes enc => enc.encode? c

def literal (α : Alphabet) (c : Char) : Language Nat := {w | α.form? c = some w}

/-- the words of the characters of a class; as symbols are numbers, characters that are symbols
themselves are compared as numbers -/
def oneOf (α : Alphabet) (s : RangeSet) : Language Nat :=
  match α with
  | .chars => {w | ∃ n, w = [n] ∧ s.Holds n}
  | .bytes enc => {w | ∃ c : Char, s.Holds c.toNat ∧ enc.encode? c = some w}

end Alphabet

/-- the numbers of times that a count allows -/
def Count.Allows : Count → Nat → Prop
  | .zeroOrOne, k => k ≤ 1
  | .zeroOrMore, _ => True
  | .oneOrMore, k => 1 ≤ k
  | .exactly n, k => k = n
  | .atLeast n, k => n ≤ k
  | .between least most, k => least ≤ k ∧ k ≤ most

/-- the words of a part, as often as a count allows -/
def Count.times (c : Count) (L : Language Nat) : Language Nat := {w | ∃ k, c.Allows k ∧ w ∈ L ^ k}

namespace Expr

mutual

/-- the words of an expression -/
def words (α : Alphabet) : Expr → Language Nat
  | .empty => 1
  | .char c => α.literal c
  | .byte b => {[b]}
  | .charClass s => α.oneOf s
  | .byteClass s => {w | ∃ b, w = [b] ∧ s.Holds b}
  | .assertion _ => 0
  | .loop e count _ => count.times (e.words α)
  | .group _ e => e.words α
  | .concat es => wordsInRow α es
  | .alt es => wordsOfAny α es

def wordsInRow (α : Alphabet) : List Expr → Language Nat
  | [] => 1
  | e :: es => e.words α * wordsInRow α es

def wordsOfAny (α : Alphabet) : List Expr → Language Nat
  | [] => 0
  | e :: es => e.words α + wordsOfAny α es

end

end Expr

namespace Expr

mutual

/-- the numbers in an expression are bytes and code points where they stand for such -/
def Valid : Expr → Prop
  | .byte b => b ≤ 0xFF
  | .charClass s => ∀ r ∈ s, r.1 ≤ 0x10FFFF ∧ r.2 ≤ 0x10FFFF
  | .byteClass s => ∀ r ∈ s, r.1 ≤ 0xFF ∧ r.2 ≤ 0xFF
  | .loop e _ _ => e.Valid
  | .group _ e => e.Valid
  | .concat es => ValidAll es
  | .alt es => ValidAll es
  | _ => True

def ValidAll : List Expr → Prop
  | [] => True
  | e :: es => e.Valid ∧ ValidAll es

end

end Expr

/-- the least number of times is not above the greatest one -/
def Count.InOrder : Count → Prop
  | .between least most => least ≤ most
  | _ => True

namespace Expr

mutual

/-- every count has its bounds in order -/
def InOrder : Expr → Prop
  | .loop e count _ => count.InOrder ∧ e.InOrder
  | .group _ e => e.InOrder
  | .concat es => InOrderAll es
  | .alt es => InOrderAll es
  | _ => True

def InOrderAll : List Expr → Prop
  | [] => True
  | e :: es => e.InOrder ∧ InOrderAll es

end

end Expr

/-! ## words are over the alphabet -/

/-- the words of a language consist of symbols up to `m` -/
def Over (m : Nat) (L : Language Nat) : Prop := ∀ w ∈ L, ∀ sym ∈ w, sym ≤ m

section
variable {m : Nat} {L L' : Language Nat}

theorem over_zero (m : Nat) : Over m 0 := fun _ hw => absurd hw id

theorem over_one (m : Nat) : Over m 1 := by
  rintro w (rfl : w = []) sym hsym
  exact absurd hsym List.not_mem_nil

theorem Over.add (h : Over m L) (h' : Over m L') : Over m (L + L') :=
  fun w hw => hw.elim (h w) (h' w)

theorem Over.mul (h : Over m L) (h' : Over m L') : Over m (L * L') := by
  rintro _ ⟨u, hu, v, hv, rfl⟩ sym hsym
  exact (List.mem_append.1 hsym).elim (h u hu sym) (h' v hv sym)

theorem Over.pow (h : Over m L) (k : Nat) : Over m (L ^ k) := by
  induction k with
  | zero =>
    rw [pow_zero]
    exact over_one m
  | succ k ih =>
    rw [pow_succ]
    exact ih.mul h

theorem Over.times (h : Over m L) (c : Count) : Over m (c.times L) :=
  fun w ⟨k, _, hw⟩ => h.pow k w hw

end

theorem Encoding.le_of_encode? {enc : Encoding} {c : Char} (hw : enc.encode? c = some w) :
    ∀ b ∈ w, b ≤ 0xFF := by
  intro b hb
  cases enc with
  | utf8 =>
    obtain rfl : Text.Utf8.bytes c.toNat = w := Option.some.inj hw
    have hc : c.toNat < 0x110000 := by
      have := c.valid
      rw [UInt32.isValidChar, Nat.isValidChar] at this
      rw [Char.toNat]
      omega
    exact Nat.le_of_lt_add_one (Text.Utf8.lt_of_mem_bytes hc hb)
  | latin1 =>
    have hw' : (if c.toNat ≤ 0xFF then some [c.toNat] else none) = some w := hw
    split at hw'
    · next hle =>
      obtain rfl : [c.toNat] = w := Option.some.inj hw'
      rw [List.mem_singleton.1 hb]
      exact hle
    · exact absurd hw'.symm (Option.some_ne_none w)

theorem RangeSet.Holds.le {s : RangeSet} {n m : Nat} (h : s.Holds n)
    (hs : ∀ r ∈ s, r.1 ≤ m ∧ r.2 ≤ m) : n ≤ m := by
  obtain ⟨r, hr, -, hle⟩ := h
  exact hle.trans (Nat.max_le.2 (hs r hr))

namespace Alphabet

theorem over_literal (α : Alphabet) (c : Char) : Over α.maxSymbol (α.literal c) := by
  intro w hw
  cases α with
  | chars =>
    obtain rfl : [c.toNat] = w := Option.some.inj hw
    intro sym hsym
    rw [List.mem_singleton.1 hsym]
    have := c.valid
    rw [UInt32.isValidChar, Nat.isValidChar] at this
    rw [Char.toNat, maxSymbol]
    omega
  | bytes enc => exact Encoding.le_of_encode? hw

theorem over_oneOf (α : Alphabet) {s : RangeSet} (hs : ∀ r ∈ s, r.1 ≤ 0x10FFFF ∧ r.2 ≤ 0x10FFFF) :
    Over α.maxSymbol (α.oneOf s) := by
  intro w hw
  cases α with
  | chars =>
    obtain ⟨n, rfl, hn⟩ := hw
    intro sym hsym
    rw [List.mem_singleton.1 hsym]
    exact hn.le hs
  | bytes enc =>
    obtain ⟨c, -, hw⟩ := hw
    exact Encoding.le_of_encode? hw

theorem byte_le_maxSymbol (α : Alphabet) : 0xFF ≤ α.maxSymbol := by
  cases α with
  | bytes enc => exact Nat.le_refl _
  | chars => decide

end Alphabet

namespace Expr

mutual

/-- the words of an expression are over its alphabet -/
theorem over_words (α : Alphabet) : (e : Expr) → e.Valid → Over α.maxSymbol (e.words α)
  | .empty, _ => over_one _
  | .char c, _ => α.over_literal c
  | .byte b, hb => by
    rintro w (rfl : w = [b]) sym hsym
    rw [List.mem_singleton.1 hsym]
    exact Nat.le_trans hb α.byte_le_maxSymbol
  | .charClass _, hs => α.over_oneOf hs
  | .byteClass s, hs => by
    rintro w ⟨b, rfl, hb⟩ sym hsym
    rw [List.mem_singleton.1 hsym]
    exact (hb.le hs).trans α.byte_le_maxSymbol
  | .assertion _, _ => over_zero _
  | .loop e count _, he => (over_words α e he).times count
  | .group _ e, he => over_words α e he
  | .concat es, hes => over_wordsInRow α es hes
  | .alt es, hes => over_wordsOfAny α es hes

theorem over_wordsInRow (α : Alphabet) :
    (es : List Expr) → ValidAll es → Over α.maxSymbol (wordsInRow α es)
  | [], _ => over_one _
  | e :: es, ⟨he, hes⟩ => (over_words α e he).mul (over_wordsInRow α es hes)

theorem over_wordsOfAny (α : Alphabet) :
    (es : List Expr) → ValidAll es → Over α.maxSymbol (wordsOfAny α es)
  | [], _ => over_zero _
  | e :: es, ⟨he, hes⟩ => (over_words α e he).add (over_wordsOfAny α es hes)

end

end Expr
end SpanSearch
