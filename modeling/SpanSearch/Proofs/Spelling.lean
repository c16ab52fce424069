import SpanSearch.Proofs.Intervals
import SpanSearch.Proofs.Textual

/-!
# How words of characters are spelled in UTF-8

The first byte of a character tells how many bytes there are and can be no other one, so that the
characters can be told from the bytes.

* `Utf8.announced`         the number of bytes of a character, by the first of them
* `Utf8.bytes_append_inj`  no character is spelled like the beginning of another one
* `Encoding.exists_rest`   bytes that spell a text and end in the spelling of another one
* `spelled`                the spellings of the words of a language
* `Expr.words_utf8`        the words of an expression of characters are spelled in UTF-8
-/

namespace SpanSearch

namespace Text.Utf8

variable {x y : Nat} {u v w : List Nat}

/-- the number of bytes of a character, by the first of them -/
def announced (b : Nat) : Nat :=
  if b < 0x80 then 1 else if b < 0xE0 then 2 else if b < 0xF0 then 3 else 4

theorem announced_of_bytes {b : Nat} (h : bytes x = b :: v) :
    announced b = width x ∧ (b < 0x80 ∨ 0xBF < b) := by
  unfold bytes at h
  unfold announced width
  split at h
  · obtain ⟨rfl, -⟩ := List.cons.inj h
    split_ifs
    omega
  · split at h
    · obtain ⟨rfl, -⟩ := List.cons.inj h
      split_ifs <;> omega
    · split at h
      · obtain ⟨rfl, -⟩ := List.cons.inj h
        split_ifs <;> omega
      · obtain ⟨rfl, -⟩ := List.cons.inj h
        split_ifs <;> omega

/-- no character is spelled like the beginning of another one -/
theorem bytes_append_inj (h : bytes x ++ u = bytes y ++ v) : x = y ∧ u = v := by
  obtain ⟨b, r, hx, -, hrank⟩ := bytes_eq_cons x
  obtain ⟨c, s, hy, -, hrank'⟩ := bytes_eq_cons y
  have hbc : b = c := by
    rw [hx, hy] at h
    exact (List.cons.inj h).1
  have hwidth : width x = width y := by
    rw [← (announced_of_bytes hx).1, ← (announced_of_bytes hy).1, hbc]
  have hlength : (bytes x).length = (bytes y).length := by
    rw [length_bytes, length_bytes, hwidth]
  obtain ⟨hbytes, hrest⟩ := List.append_inj h hlength
  rw [hbytes, hrank', hwidth] at hrank
  exact ⟨(Nat.add_right_cancel hrank).symm, hrest⟩

end Text.Utf8

namespace Encoding

variable {cs ds : List Char} {u : List Nat}

theorem encodeLossy_utf8_cons (c : Char) (cs : List Char) :
    utf8.encodeLossy (c :: cs) = Text.Utf8.bytes c.toNat ++ utf8.encodeLossy cs := rfl

/-- a text whose spelling begins with that of another one begins with it -/
theorem exists_rest (h : utf8.encodeLossy cs = utf8.encodeLossy ds ++ u) :
    ∃ rest, cs = ds ++ rest ∧ utf8.encodeLossy rest = u := by
  induction ds generalizing cs with
  | nil => exact ⟨cs, rfl, h⟩
  | cons d ds ih =>
    rw [encodeLossy_utf8_cons, List.append_assoc] at h
    cases cs with
    | nil =>
      have hnil := (List.append_eq_nil_iff.1 h.symm).1
      exact absurd hnil (Text.Utf8.bytes_ne_nil d.toNat)
    | cons c cs =>
      obtain ⟨hcd, hrest⟩ := Text.Utf8.bytes_append_inj (encodeLossy_utf8_cons c cs ▸ h)
      obtain ⟨rest, rfl, hu⟩ := ih hrest
      exact ⟨rest, by rw [Char.toNat_inj.1 hcd, List.cons_append], hu⟩

end Encoding

/-- the spellings in UTF-8 of the words of a language that consist of characters -/
def spelled (L : Language Nat) : Language Nat :=
  {w | ∃ cs : List Char, cs.map Char.toNat ∈ L ∧ Encoding.utf8.encodeLossy cs = w}

section

variable {K L : Language Nat} {w : List Nat}

theorem nil_mem_spelled : [] ∈ spelled L ↔ [] ∈ L := by
  constructor
  · rintro ⟨cs, hcs, hnil⟩
    cases cs with
    | nil => exact hcs
    | cons c cs => exact absurd (List.append_eq_nil_iff.1 hnil).1 (Text.Utf8.bytes_ne_nil c.toNat)
  · exact fun h => ⟨[], h, rfl⟩

theorem spelled_zero : spelled 0 = 0 := by
  ext w
  exact iff_of_false (fun ⟨_, hcs, _⟩ => hcs) id

theorem spelled_one : spelled 1 = 1 := by
  ext w
  constructor
  · rintro ⟨cs, hcs, rfl⟩
    rw [List.map_eq_nil_iff.1 hcs]
    rfl
  · rintro (rfl : w = [])
    exact ⟨[], rfl, rfl⟩

theorem spelled_add (K L : Language Nat) : spelled (K + L) = spelled K + spelled L := by
  ext w
  constructor
  · rintro ⟨cs, hcs | hcs, hw⟩
    · exact .inl ⟨cs, hcs, hw⟩
    · exact .inr ⟨cs, hcs, hw⟩
  · rintro (⟨cs, hcs, hw⟩ | ⟨cs, hcs, hw⟩)
    · exact ⟨cs, .inl hcs, hw⟩
    · exact ⟨cs, .inr hcs, hw⟩

theorem spelled_mul (K L : Language Nat) : spelled (K * L) = spelled K * spelled L := by
  ext w
  rw [Language.mem_mul]
  constructor
  · rintro ⟨cs, hcs, rfl⟩
    obtain ⟨u, hu, v, hv, huv⟩ := Language.mem_mul.1 hcs
    obtain ⟨ds, es, rfl, rfl, rfl⟩ := List.map_eq_append_iff.1 huv.symm
    exact ⟨_, ⟨ds, hu, rfl⟩, _, ⟨es, hv, rfl⟩, (Encoding.encodeLossy_append _ ds es).symm⟩
  · rintro ⟨_, ⟨ds, hu, rfl⟩, _, ⟨es, hv, rfl⟩, rfl⟩
    refine ⟨ds ++ es, ?_, Encoding.encodeLossy_append _ ds es⟩
    rw [List.map_append]
    exact Language.append_mem_mul hu hv

theorem spelled_pow (L : Language Nat) (k : Nat) : spelled (L ^ k) = spelled L ^ k := by
  induction k with
  | zero => rw [pow_zero, pow_zero, spelled_one]
  | succ k ih => rw [pow_succ, pow_succ, spelled_mul, ih]

theorem spelled_times (c : Count) (L : Language Nat) :
    spelled (c.times L) = c.times (spelled L) := by
  ext w
  constructor
  · rintro ⟨cs, ⟨k, hk, hcs⟩, hw⟩
    exact ⟨k, hk, spelled_pow L k ▸ ⟨cs, hcs, hw⟩⟩
  · rintro ⟨k, hk, hw⟩
    rw [← spelled_pow] at hw
    obtain ⟨cs, hcs, hw⟩ := hw
    exact ⟨cs, ⟨k, hk, hcs⟩, hw⟩

end

namespace Alphabet

theorem literal_utf8 (c : Char) : (bytes .utf8).literal c = spelled (chars.literal c) := by
  ext w
  constructor
  · intro hw
    obtain rfl : Text.Utf8.bytes c.toNat = w := Option.some.inj hw
    exact ⟨[c], rfl, List.append_nil _⟩
  · rintro ⟨cs, hcs, rfl⟩
    have hcs : some [c.toNat] = some (cs.map Char.toNat) := hcs
    obtain ⟨d, rfl, hd⟩ := List.map_eq_singleton_iff.1 (Option.some.inj hcs).symm
    rw [Char.toNat_inj.1 hd]
    exact congrArg some (List.append_nil _).symm

theorem oneOf_utf8 (s : RangeSet) : (bytes .utf8).oneOf s = spelled (chars.oneOf s) := by
  ext w
  constructor
  · rintro ⟨c, hc, hw⟩
    obtain rfl : Text.Utf8.bytes c.toNat = w := Option.some.inj hw
    exact ⟨[c], ⟨_, rfl, hc⟩, List.append_nil _⟩
  · rintro ⟨cs, ⟨n, hn, hs⟩, rfl⟩
    obtain ⟨c, rfl, rfl⟩ := List.map_eq_singleton_iff.1 hn
    exact ⟨c, hs, congrArg some (List.append_nil _).symm⟩

end Alphabet

namespace Expr

mutual

theorem words_utf8 : (e : Expr) → e.Textual →
    e.words (.bytes .utf8) = spelled (e.words .chars)
  | .empty, _ => spelled_one.symm
  | .char c, _ => Alphabet.literal_utf8 c
  | .charClass s, _ => Alphabet.oneOf_utf8 s
  | .assertion _, _ => spelled_zero.symm
  | .loop e count _, he =>
    (congrArg count.times (words_utf8 e he)).trans (spelled_times count _).symm
  | .group _ e, he => words_utf8 e he
  | .concat es, hes => wordsInRow_utf8 es hes
  | .alt es, hes => wordsOfAny_utf8 es hes

theorem wordsInRow_utf8 : (es : List Expr) → TextualAll es →
    wordsInRow (.bytes .utf8) es = spelled (wordsInRow .chars es)
  | [], _ => spelled_one.symm
  | e :: es, ⟨he, hes⟩ => by
    rw [wordsInRow, wordsInRow, words_utf8 e he, wordsInRow_utf8 es hes, spelled_mul]

theorem wordsOfAny_utf8 : (es : List Expr) → TextualAll es →
    wordsOfAny (.bytes .utf8) es = spelled (wordsOfAny .chars es)
  | [], _ => spelled_zero.symm
  | e :: es, ⟨he, hes⟩ => by
    rw [wordsOfAny, wordsOfAny, words_utf8 e he, wordsOfAny_utf8 es hes, spelled_add]

end

end Expr
end SpanSearch
