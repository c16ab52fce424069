import SpanSearch.Proofs.Places
import SpanSearch.Proofs.Spelling

/-!
# Where the characters of a text begin

On the tape of characters, and in the bytes of their encoding.

* `Tape.offset`            where a character begins
* `isPlace_ofChars`, `symbolsIn_ofChars`       places and symbols of characters
* `isPlace_ofEncoded`      places of bytes
* `take_offset`, `drop_offset`, `exists_offset`   the encoding of a text in UTF-8
* `Tape.symbolsIn_min`     behind the end there are no symbols
-/

namespace SpanSearch

namespace Tape

/-- where the characters of a text begin in UTF-8, and behind its end one position after
another -/
def offset : List Char → Nat → Nat
  | [], k => k
  | _ :: _, 0 => 0
  | c :: cs, k + 1 => Text.Utf8.width c.toNat + offset cs k

variable {cs : List Char} {i j k : Nat}

theorem offset_zero (cs : List Char) : offset cs 0 = 0 := by
  cases cs <;> rfl

/-- the offset of a character is the length of the encoding of those before it -/
theorem offset_eq_length (hk : k ≤ cs.length) :
    offset cs k = (Encoding.utf8.encodeLossy (cs.take k)).length := by
  induction cs generalizing k with
  | nil =>
    rw [Nat.le_zero.1 hk]
    rfl
  | cons c cs ih =>
    cases k with
    | zero => rfl
    | succ k =>
      rw [offset, ih (Nat.le_of_succ_le_succ hk), List.take_succ_cons, Encoding.encodeLossy,
        Encoding.encodeLossy, List.flatMap_cons, List.length_append, ← Text.Utf8.length_bytes]
      rfl

theorem strictMono_offset (cs : List Char) : StrictMono (offset cs) := by
  induction cs with
  | nil => exact strictMono_id
  | cons c cs ih =>
    intro i j hij
    obtain ⟨j, rfl⟩ := Nat.exists_eq_succ_of_ne_zero (Nat.ne_of_gt (Nat.zero_lt_of_lt hij))
    have hpos := Text.Utf8.width_pos c.toNat
    cases i with
    | zero => exact Nat.add_pos_left hpos _
    | succ i => exact Nat.add_lt_add_left (ih (Nat.lt_of_succ_lt_succ hij)) _

theorem offset_add (cs : List Char) (i k : Nat) :
    offset cs (i + k) = offset cs i + offset (cs.drop i) k := by
  induction cs generalizing i with
  | nil => rw [List.drop_nil]; rfl
  | cons c cs ih =>
    cases i with
    | zero => rw [Nat.zero_add, offset_zero, Nat.zero_add, List.drop_zero]
    | succ i => rw [Nat.add_right_comm, offset, offset, ih, List.drop_succ_cons, Nat.add_assoc]

/-! ## on the tape of characters -/

theorem symbolAt?_ofChars (cs : List Char) (k : Nat) :
    (ofChars cs).symbolAt? (offset cs k) = (cs.map Char.toNat)[k]? := by
  have hrow : (ofChars cs).symbolAt? (offset cs k) =
      (row Text.Utf8.width (cs.map Char.toNat))[offset cs k]?.getD none := by
    rw [symbolAt?_eq, row, List.flatMap_map]
    rfl
  rw [hrow]
  clear hrow
  induction cs generalizing k with
  | nil => rfl
  | cons c cs ih =>
    cases k with
    | zero => rfl
    | succ k =>
      rw [List.map_cons, offset, row_cons_of_le Text.Utf8.width_pos (Nat.le_add_right _ _),
        Nat.add_sub_cancel_left, ih]
      rfl

theorem length_ofChars (cs : List Char) : (ofChars cs).length = offset cs cs.length := by
  have hrow : (ofChars cs).length = (row Text.Utf8.width (cs.map Char.toNat)).length := by
    rw [row, List.flatMap_map]
    rfl
  rw [hrow]
  clear hrow
  induction cs with
  | nil => rfl
  | cons c cs ih =>
    rw [List.map_cons, length_row_cons Text.Utf8.width_pos, ih]
    rfl

/-- a character reaches to the offset of the next one -/
theorem holds_ofChars {sym : Nat} (h : (cs.map Char.toNat)[k]? = some sym) :
    (ofChars cs).Holds (offset cs k) sym (offset cs (k + 1)) := by
  have hnext : offset cs k + Text.Utf8.width sym = offset cs (k + 1) := by
    induction cs generalizing k with
    | nil => exact absurd h (Option.some_ne_none sym).symm
    | cons c cs ih =>
      cases k with
      | zero =>
        obtain rfl : c.toNat = sym := Option.some.inj h
        rw [offset, offset, offset_zero, Nat.zero_add, Nat.add_zero]
      | succ k =>
        rw [offset, offset, Nat.add_assoc]
        exact congrArg _ (ih h)
  rw [← hnext]
  exact (proper_ofChars cs).holds _ sym ((symbolAt?_ofChars cs k).trans h)

theorem isPlace_ofChars : (ofChars cs).IsPlace j ↔ ∃ k, k ≤ cs.length ∧ offset cs k = j := by
  constructor
  · intro hj
    induction j using Nat.strong_induction_on with
    | _ j ih =>
      rcases Nat.eq_zero_or_pos j with rfl | hpos
      · exact ⟨0, Nat.zero_le _, offset_zero cs⟩
      · obtain ⟨i, sym, hi, -⟩ := (proper_ofChars cs).exists_holds_to hj hpos
        obtain ⟨k, hk, rfl⟩ := ih i hi.lt hi.isPlace
        have hsym := (symbolAt?_ofChars cs k).symm.trans hi.symbol
        have hnext := holds_ofChars hsym
        have hlt : k < (cs.map Char.toNat).length := (List.getElem?_eq_some_iff.1 hsym).1
        rw [List.length_map] at hlt
        exact ⟨k + 1, hlt, Nat.le_antisymm (hnext.le_of_lt hj hi.lt)
          (hi.le_of_lt hnext.place hnext.lt)⟩
  · rintro ⟨k, hk, rfl⟩
    rcases Nat.eq_or_lt_of_le hk with rfl | hlt
    · exact .inl (length_ofChars cs).symm
    · rw [← List.length_map Char.toNat] at hlt
      exact .inr ⟨_, (symbolAt?_ofChars cs k).trans (List.getElem?_eq_getElem hlt)⟩

theorem symbolsIn_ofChars (hij : i ≤ j) (hj : j ≤ cs.length) :
    (ofChars cs).symbolsIn (offset cs i) (offset cs j) =
      ((cs.map Char.toNat).drop i).take (j - i) := by
  induction j, hij using Nat.le_induction with
  | base =>
    rw [symbolsIn_self, Nat.sub_self]
    rfl
  | succ j hij ih =>
    have hlt : j < (cs.map Char.toNat).length := by
      rw [List.length_map]
      exact hj
    have hsym := List.getElem?_eq_getElem hlt
    rw [(holds_ofChars hsym).symbolsIn_left ((strictMono_offset cs).monotone hij),
      ih (Nat.le_of_succ_le hj), Nat.succ_sub hij, List.take_add_one, List.getElem?_drop,
      Nat.add_sub_cancel' hij, hsym]
    rfl

/-! ## on a tape of bytes -/

theorem isPlace_ofEncoded {enc : Encoding} {bs : List Nat} :
    (ofEncoded enc bs).IsPlace k ↔ k ≤ bs.length := by
  refine ⟨fun h => length_ofEncoded enc bs ▸ h.le_length, fun hk => ?_⟩
  rcases Nat.eq_or_lt_of_le hk with rfl | hlt
  · exact .inl (length_ofEncoded enc bs).symm
  · exact .inr ⟨_, (symbolAt?_ofEncoded enc bs k).trans (List.getElem?_eq_getElem hlt)⟩

theorem drop_offset (cs : List Char) (k : Nat) :
    (Encoding.utf8.encodeLossy cs).drop (offset cs k) = Encoding.utf8.encodeLossy (cs.drop k) := by
  induction cs generalizing k with
  | nil => rw [List.drop_nil, Encoding.encodeLossy_nil, List.drop_nil]
  | cons c cs ih =>
    cases k with
    | zero => rfl
    | succ k =>
      rw [offset, List.drop_succ_cons, ← ih, Encoding.encodeLossy_utf8_cons,
        ← Text.Utf8.length_bytes, List.drop_length_add_append]

theorem take_offset (cs : List Char) (k : Nat) :
    (Encoding.utf8.encodeLossy cs).take (offset cs k) = Encoding.utf8.encodeLossy (cs.take k) := by
  induction cs generalizing k with
  | nil => rw [List.take_nil, Encoding.encodeLossy_nil, List.take_nil]
  | cons c cs ih =>
    cases k with
    | zero => rfl
    | succ k =>
      rw [offset, List.take_succ_cons, Encoding.encodeLossy_utf8_cons,
        Encoding.encodeLossy_utf8_cons, ← ih, ← Text.Utf8.length_bytes, List.take_length_add_append]

/-- a byte that may come first is at the offset of a character -/
theorem exists_offset {b : Nat} (hb : b < 0x80 ∨ 0xBF < b)
    (hi : (Encoding.utf8.encodeLossy cs)[i]? = some b) : ∃ k, k < cs.length ∧ offset cs k = i := by
  induction cs generalizing i with
  | nil => exact absurd hi.symm (Option.some_ne_none b)
  | cons c cs ih =>
    rw [Encoding.encodeLossy_utf8_cons] at hi
    rcases Nat.lt_or_ge i (Text.Utf8.bytes c.toNat).length with hlt | hge
    · rw [List.getElem?_append_left hlt] at hi
      obtain ⟨a, v, hbytes, ⟨-, hv⟩, -⟩ := Text.Utf8.bytes_eq_cons c.toNat
      rw [hbytes] at hi
      cases i with
      | zero => exact ⟨0, Nat.succ_pos _, rfl⟩
      | succ i =>
        have := hv b (List.mem_of_getElem? hi)
        omega
    · rw [List.getElem?_append_right hge] at hi
      obtain ⟨k, hk, hoffset⟩ := ih hi
      refine ⟨k + 1, Nat.succ_lt_succ hk, ?_⟩
      rw [offset, hoffset, ← Text.Utf8.length_bytes]
      exact Nat.add_sub_cancel' hge

/-- where a text is spelled in the encoding of another one, it is a part of that -/
theorem exists_offsets {ds : List Char} {v : List Nat} (hne : ds ≠ [])
    (h : (Encoding.utf8.encodeLossy cs).drop i = Encoding.utf8.encodeLossy ds ++ v) :
    ∃ k, offset cs k = i ∧ offset cs (k + ds.length) = i + (Encoding.utf8.encodeLossy ds).length ∧
      (cs.drop k).take ds.length = ds ∧ k + ds.length ≤ cs.length := by
  obtain ⟨d, ds, rfl⟩ := List.exists_cons_of_ne_nil hne
  obtain ⟨b, w, hbytes, -⟩ := Text.Utf8.bytes_eq_cons d.toNat
  have hfirst : (Encoding.utf8.encodeLossy cs)[i]? = some b := by
    rw [← Nat.add_zero i, ← List.getElem?_drop, h, Encoding.encodeLossy_utf8_cons, hbytes]
    rfl
  obtain ⟨k, -, rfl⟩ := exists_offset (Text.Utf8.announced_of_bytes hbytes).2 hfirst
  rw [drop_offset] at h
  obtain ⟨rest, hrest, -⟩ := Encoding.exists_rest h
  have htake : (cs.drop k).take (d :: ds).length = d :: ds := by
    rw [hrest, List.take_left]
  have hlength : (d :: ds).length ≤ (cs.drop k).length := by
    rw [hrest, List.length_append]
    exact Nat.le_add_right _ _
  refine ⟨k, rfl, ?_, htake, ?_⟩
  · rw [offset_add, offset_eq_length hlength, htake]
  · rw [List.length_drop] at hlength
    have hpos : 0 < (d :: ds).length := Nat.succ_pos _
    omega

/-! ## on any tape -/

theorem symbolsIn_of_le (t : Tape) (hji : j ≤ i) : t.symbolsIn i j = [] := by
  rw [symbolsIn_eq, Nat.sub_eq_zero_of_le hji]
  rfl

theorem symbolsIn_min (t : Tape) (i j : Nat) :
    t.symbolsIn (min i t.length) (min j t.length) = t.symbolsIn i j := by
  have hcells : t.cells.toList.length = t.length := rfl
  rw [symbolsIn_eq, symbolsIn_eq]
  rcases Nat.le_total i t.length with hi | hi
  · rw [Nat.min_eq_left hi]
    rcases Nat.le_total j t.length with hj | hj
    · rw [Nat.min_eq_left hj]
    · rw [Nat.min_eq_right hj, List.take_of_length_le (by rw [List.length_drop]; omega),
        List.take_of_length_le (by rw [List.length_drop]; omega)]
  · rw [Nat.min_eq_right hi, List.drop_of_length_le (Nat.le_refl t.length),
      List.drop_of_length_le hi, List.take_nil, List.take_nil]

end Tape
end SpanSearch
