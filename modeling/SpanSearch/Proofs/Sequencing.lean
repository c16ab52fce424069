import SpanSearch.Proofs.Decoding
import SpanSearch.Proofs.Importing

/-!
# The sequences of bytes of a class

* `Utf8.Denotes`         bytes in their ranges, and the number that their bits make
* `Utf8.denotes_iff`     they are the encodings of the scalar values and nothing else
* `Utf8.bytes_toNat`     the encoding of a character is that of the standard library
* `Fragment.Accepts`     what a fragment matches, as a part and as a graph of its own
* `charClass_accepts`    a class matches the encodings of its characters and nothing else
-/

namespace SpanSearch

namespace Text.Utf8

variable {n b x y z : Nat} {v w : List Nat} {ranges : List (Nat × Nat)}

/-- a lead byte and behind it the bytes that it announces, each in its range, with the bits of a
number.  The ranges leave no room for overlong forms, surrogates and numbers above U+10FFFF. -/
def Denotes (w : List Nat) (n : Nat) : Prop :=
  ∃ b v ranges, w = b :: v ∧ follow? b = some ranges ∧ Fit ranges v ∧ value b v = n

/-- a form of several bytes is announced by its first byte, and the range of the second one keeps
to what is shortest and to scalar values -/
theorem follow?_cases (h : follow? b = some ranges) :
    b < 0x80 ∧ ranges = [] ∨
    (0xC2 ≤ b ∧ b ≤ 0xDF) ∧ ranges = [tail] ∨
    (0xE0 ≤ b ∧ b ≤ 0xEF) ∧ (∃ lo hi, ranges = [(lo, hi), tail] ∧ 0x80 ≤ lo ∧ hi ≤ 0xBF ∧
      (b = 0xE0 → 0xA0 ≤ lo) ∧ (b = 0xED → hi ≤ 0x9F)) ∨
    (0xF0 ≤ b ∧ b ≤ 0xF4) ∧ ∃ lo hi, ranges = [(lo, hi), tail, tail] ∧ 0x80 ≤ lo ∧ hi ≤ 0xBF ∧
      (b = 0xF0 → 0x90 ≤ lo) ∧ (b = 0xF4 → hi ≤ 0x8F) := by
  unfold follow? at h
  split_ifs at h with h1 h2 h3 h4 h5 h6 h7 h8 h9
  all_goals obtain rfl := Option.some.inj h
  · exact .inl ⟨h1, rfl⟩
  · exact .inr (.inl ⟨by omega, rfl⟩)
  · exact .inr (.inr (.inl ⟨by omega, _, _, rfl, by omega⟩))
  · exact .inr (.inr (.inl ⟨by omega, _, _, rfl, by omega⟩))
  · exact .inr (.inr (.inl ⟨by omega, _, _, rfl, by omega⟩))
  · exact .inr (.inr (.inr ⟨by omega, _, _, rfl, by omega⟩))
  · exact .inr (.inr (.inr ⟨by omega, _, _, rfl, by omega⟩))
  · exact .inr (.inr (.inr ⟨by omega, _, _, rfl, by omega⟩))

theorem bytes_value_two (hb : 0xC2 ≤ b ∧ b ≤ 0xDF) (hx : 0x80 ≤ x ∧ x ≤ 0xBF) :
    (value b [x]).isValidChar ∧ bytes (value b [x]) = [b, x] := by
  have hvalue : value b [x] = (b - 0xC0) * 0x40 + (x - 0x80) := rfl
  rw [hvalue]
  refine ⟨.inl (by omega), ?_⟩
  rw [bytes, if_neg (by omega), if_pos (by omega)]
  simp only [List.cons.injEq, and_true]
  omega

theorem bytes_value_three (hb : 0xE0 ≤ b ∧ b ≤ 0xEF) (hx : 0x80 ≤ x ∧ x ≤ 0xBF)
    (hy : 0x80 ≤ y ∧ y ≤ 0xBF) (hlong : b = 0xE0 → 0xA0 ≤ x) (hscalar : b = 0xED → x ≤ 0x9F) :
    (value b [x, y]).isValidChar ∧ bytes (value b [x, y]) = [b, x, y] := by
  have hvalue : value b [x, y] = ((b - 0xE0) * 0x40 + (x - 0x80)) * 0x40 + (y - 0x80) := rfl
  rw [hvalue]
  refine ⟨by unfold Nat.isValidChar; omega, ?_⟩
  rw [bytes, if_neg (by omega), if_neg (by omega), if_pos (by omega)]
  simp only [List.cons.injEq, and_true]
  omega

theorem bytes_value_four (hb : 0xF0 ≤ b ∧ b ≤ 0xF4) (hx : 0x80 ≤ x ∧ x ≤ 0xBF)
    (hy : 0x80 ≤ y ∧ y ≤ 0xBF) (hz : 0x80 ≤ z ∧ z ≤ 0xBF) (hlong : b = 0xF0 → 0x90 ≤ x)
    (hlast : b = 0xF4 → x ≤ 0x8F) :
    (value b [x, y, z]).isValidChar ∧ bytes (value b [x, y, z]) = [b, x, y, z] := by
  have hvalue : value b [x, y, z] =
    (((b - 0xF0) * 0x40 + (x - 0x80)) * 0x40 + (y - 0x80)) * 0x40 + (z - 0x80) := rfl
  rw [hvalue]
  refine ⟨.inr (by omega), ?_⟩
  rw [bytes, if_neg (by omega), if_neg (by omega), if_neg (by omega)]
  simp only [List.cons.injEq, and_true]
  omega

theorem bytes_value (h : follow? b = some ranges) (hfit : Fit ranges v) :
    (value b v).isValidChar ∧ bytes (value b v) = b :: v := by
  obtain ⟨hb, rfl⟩ | ⟨hb, rfl⟩ | ⟨hb, lo, hi, rfl, hlo, hhi, hlong, hscalar⟩ |
    ⟨hb, lo, hi, rfl, hlo, hhi, hlong, hlast⟩ := follow?_cases h
  · cases hfit
    exact ⟨.inl (Nat.lt_trans hb (by omega)), if_pos hb⟩
  · obtain _ | ⟨hx, ⟨⟩⟩ := hfit
    exact bytes_value_two hb hx
  · obtain _ | ⟨hx, _ | ⟨hy, ⟨⟩⟩⟩ := hfit
    exact bytes_value_three hb ⟨by omega, by omega⟩ hy (by omega) (by omega)
  · obtain _ | ⟨hx, _ | ⟨hy, _ | ⟨hz, ⟨⟩⟩⟩⟩ := hfit
    exact bytes_value_four hb ⟨by omega, by omega⟩ hy hz (by omega) (by omega)

theorem denotes_iff : Denotes w n ↔ n.isValidChar ∧ w = bytes n := by
  constructor
  · rintro ⟨b, v, ranges, rfl, hfollow, hfit, rfl⟩
    obtain ⟨hvalid, hbytes⟩ := bytes_value hfollow hfit
    exact ⟨hvalid, hbytes.symm⟩
  · rintro ⟨hvalid, rfl⟩
    obtain ⟨b, v, hbytes, -⟩ := bytes_eq_cons n
    obtain ⟨ranges, hfollow, hfit⟩ := exists_follow hvalid hbytes
    exact ⟨b, v, ranges, hbytes, hfollow, hfit, value_of_bytes hbytes⟩

theorem bytes_toNat (c : Char) : bytes c.toNat = (String.utf8EncodeChar c).map UInt8.toNat := by
  have hvalid : c.toNat < 0xD800 ∨ 0xDFFF < c.toNat ∧ c.toNat < 0x110000 := c.valid
  unfold bytes String.utf8EncodeChar
  simp only [← Nat.lt_succ_iff, Char.toNat_val]
  split_ifs
  all_goals simp only [List.map_cons, List.map_nil, UInt8.toNat_ofNat', List.cons.injEq, and_true]
  all_goals omega

end Text.Utf8

namespace Alphabet

variable {s : RangeSet} {w : List Nat}

theorem mem_oneOf_utf8 : w ∈ (bytes .utf8).oneOf s ↔
    ∃ c : Char, s.Holds c.toNat ∧ w = (String.utf8EncodeChar c).map UInt8.toNat := by
  refine exists_congr fun c => and_congr_right fun _ => ?_
  rw [← Text.Utf8.bytes_toNat]
  exact Option.some_inj.trans eq_comm

theorem mem_oneOf_utf8_iff_denotes :
    w ∈ (bytes .utf8).oneOf s ↔ ∃ n, s.Holds n ∧ Text.Utf8.Denotes w n := by
  constructor
  · rintro ⟨c, hc, hw⟩
    exact ⟨c.toNat, hc, Text.Utf8.denotes_iff.2 ⟨c.valid, (Option.some.inj hw).symm⟩⟩
  · rintro ⟨n, hn, hw⟩
    obtain ⟨hvalid, rfl⟩ := Text.Utf8.denotes_iff.1 hw
    obtain ⟨c, rfl⟩ := Fragment.exists_char hvalid
    exact ⟨c, hn, rfl⟩

theorem mem_oneOf_latin1 : w ∈ (bytes .latin1).oneOf s ↔ ∃ n ≤ 0xFF, s.Holds n ∧ w = [n] := by
  constructor
  · rintro ⟨c, hc, hw⟩
    obtain ⟨hle, hw⟩ := Option.ite_none_right_eq_some.1 hw
    exact ⟨c.toNat, hle, hc, (Option.some.inj hw).symm⟩
  · rintro ⟨n, hle, hn, rfl⟩
    obtain ⟨c, rfl⟩ := Fragment.exists_char (n := n) (.inl (by omega))
    exact ⟨c, hn, if_pos hle⟩

theorem mem_oneOf_chars : w ∈ chars.oneOf s ↔ ∃ n, s.Holds n ∧ w = [n] :=
  exists_congr fun _ => and_comm

end Alphabet

namespace Fragment

/-- the words that a fragment matches in any graph that it is built into, and those of the graph
that is made of it alone -/
structure Accepts (f : Build Fragment) (P : List Nat → Prop) : Prop where
  words : ∀ g w, w ∈ (f g).1.words (f g).2 ↔ P w
  graph : ∀ g w, g.Closed → (w ∈ ((f g).1.finish (f g).2).words ↔ P w)

theorem accepts_of_makes {f : Build Fragment} {L : Language Nat} {P : List Nat → Prop}
    (h : ∀ g, Makes ∅ L g (f g)) (hP : ∀ w, w ∈ L ↔ P w) : Accepts f P where
  words g w := by
    rw [(h g).words]
    exact hP w
  graph g w hc := by
    rw [words_finish ((h g).closed hc) (h g).lives, (h g).words]
    exact hP w

/-- a class matches the encodings of its characters and nothing else, over whichever alphabet -/
theorem charClass_accepts (s : RangeSet) :
    Accepts (charClass (.bytes .utf8) s)
      (fun w => ∃ c : Char, s.Holds c.toNat ∧ w = (String.utf8EncodeChar c).map UInt8.toNat) ∧
    Accepts (charClass (.bytes .utf8) s) (fun w => ∃ n, s.Holds n ∧ Text.Utf8.Denotes w n) ∧
    Accepts (charClass (.bytes .latin1) s) (fun w => ∃ n ≤ 0xFF, s.Holds n ∧ w = [n]) ∧
    Accepts (charClass .chars s) (fun w => ∃ n, s.Holds n ∧ w = [n]) :=
  ⟨accepts_of_makes (makes_charClass _ s) fun _ => Alphabet.mem_oneOf_utf8,
    accepts_of_makes (makes_charClass _ s) fun _ => Alphabet.mem_oneOf_utf8_iff_denotes,
    accepts_of_makes (makes_charClass _ s) fun _ => Alphabet.mem_oneOf_latin1,
    accepts_of_makes (makes_charClass _ s) fun _ => Alphabet.mem_oneOf_chars⟩

/-- the bounds of a range may come in either order and on either side of the surrogates: the last
code point before them is matched, the first of them is not -/
theorem charClass_accepts_around_surrogates :
    let a := charClass (.bytes .utf8) [(0xE001, 0x7F), (0x80, 0x7FF)] Graph.empty
    [0xED, 0x9F, 0xBF] ∈ a.1.words a.2 ∧ [0xED, 0xA0, 0x80] ∉ a.1.words a.2 := by
  intro a
  obtain ⟨hform, hdenotes, -⟩ := charClass_accepts [(0xE001, 0x7F), (0x80, 0x7FF)]
  constructor
  · refine (hform.words _ _).2 ⟨Char.ofNat 0xD7FF, ⟨_, List.mem_cons_self, ?_⟩, ?_⟩
    · decide
    · decide
  · intro hmem
    obtain ⟨n, -, b, v, ranges, hw, hfollow, hfit, -⟩ := (hdenotes.words _ _).1 hmem
    obtain ⟨rfl, rfl⟩ := List.cons.inj hw
    obtain rfl : [(0x80, 0x9F), Text.Utf8.tail] = ranges := Option.some.inj hfollow
    obtain _ | ⟨⟨-, hle⟩, -⟩ := hfit
    exact absurd hle (by decide)

end Fragment
end SpanSearch
