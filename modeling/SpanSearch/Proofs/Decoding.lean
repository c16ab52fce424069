import SpanSearch.Proofs.Spelling

/-!
# Reading what has been spelled in UTF-8

* `Utf8.exists_follow`       the first byte of a character announces ranges that hold the others
* `Utf8.decode_bytes_append` a character is read from its bytes, and what is behind them next
* `Encoding.decode_encodeLossy_utf8`   a text is read from its spelling
-/

namespace SpanSearch

namespace Text.Utf8

variable {n b : Nat} {v w : List Nat} {ranges : List (Nat × Nat)}

def Fit (ranges : List (Nat × Nat)) (v : List Nat) : Prop :=
  List.Forall₂ (fun r b => r.1 ≤ b ∧ b ≤ r.2) ranges v

theorem fitting_append (h : Fit ranges v) (w : List Nat) :
    fitting ranges (v ++ w) = ranges.length := by
  induction h with
  | nil => cases w <;> rfl
  | cons hb _ ih =>
    rw [List.cons_append, fitting, if_pos hb, ih]
    rfl

theorem fit_tail (n : Nat) : Fit [tail] [0x80 + n % 0x40] :=
  .cons ⟨by simp only [tail]; omega, by simp only [tail]; omega⟩ .nil

theorem Fit.cons_tail (h : Fit ranges v) (n : Nat) :
    Fit (tail :: ranges) ((0x80 + n % 0x40) :: v) :=
  .cons ⟨by simp only [tail]; omega, by simp only [tail]; omega⟩ h

/-- the first byte announces the ranges of the others: no form is overlong, and no surrogate has
one -/
theorem exists_follow (hn : n < 0xD800 ∨ 0xDFFF < n ∧ n < 0x110000) (h : bytes n = b :: v) :
    ∃ ranges, follow? b = some ranges ∧ Fit ranges v := by
  unfold bytes at h
  split at h
  · obtain ⟨rfl, rfl⟩ := List.cons.inj h
    exact ⟨[], if_pos (by omega), .nil⟩
  split at h
  · obtain ⟨rfl, rfl⟩ := List.cons.inj h
    refine ⟨[tail], ?_, fit_tail n⟩
    rw [follow?, if_neg (by omega), if_neg (by omega), if_pos (by omega)]
  split at h
  · obtain ⟨rfl, rfl⟩ := List.cons.inj h
    rw [follow?, if_neg (by omega), if_neg (by omega), if_neg (by omega)]
    split
    · exact ⟨_, rfl, .cons ⟨by omega, by omega⟩ (fit_tail n)⟩
    split
    · exact ⟨_, rfl, .cons ⟨by omega, by omega⟩ (fit_tail n)⟩
    rw [if_pos (by omega)]
    exact ⟨_, rfl, (fit_tail n).cons_tail (n / 0x40)⟩
  · obtain ⟨rfl, rfl⟩ := List.cons.inj h
    have htails : Fit _ _ := (fit_tail n).cons_tail (n / 0x40)
    rw [follow?, if_neg (by omega), if_neg (by omega), if_neg (by omega), if_neg (by omega),
      if_neg (by omega), if_neg (by omega)]
    split
    · exact ⟨_, rfl, .cons ⟨by omega, by omega⟩ htails⟩
    split
    · exact ⟨_, rfl, htails.cons_tail (n / 0x1000)⟩
    rw [if_pos (by omega)]
    exact ⟨_, rfl, .cons ⟨by omega, by omega⟩ htails⟩

/-- the bits of the bytes of a code point are those of its number -/
theorem value_of_bytes (h : bytes n = b :: v) : value b v = n := by
  unfold bytes at h
  split at h
  · obtain ⟨rfl, rfl⟩ := List.cons.inj h
    rfl
  split at h
  · obtain ⟨rfl, rfl⟩ := List.cons.inj h
    show (0xC0 + n / 0x40 - 0xC0) * 0x40 + (0x80 + n % 0x40 - 0x80) = n
    omega
  split at h
  · obtain ⟨rfl, rfl⟩ := List.cons.inj h
    show ((0xE0 + n / 0x1000 - 0xE0) * 0x40 + (0x80 + n / 0x40 % 0x40 - 0x80)) * 0x40 +
      (0x80 + n % 0x40 - 0x80) = n
    omega
  · obtain ⟨rfl, rfl⟩ := List.cons.inj h
    show (((0xF0 + n / 0x40000 - 0xF0) * 0x40 + (0x80 + n / 0x1000 % 0x40 - 0x80)) * 0x40 +
      (0x80 + n / 0x40 % 0x40 - 0x80)) * 0x40 + (0x80 + n % 0x40 - 0x80) = n
    omega

theorem decode_bytes_append (c : Char) (w : List Nat) :
    decode (bytes c.toNat ++ w) = c :: decode w := by
  obtain ⟨b, v, hbytes, -⟩ := bytes_eq_cons c.toNat
  obtain ⟨ranges, hfollow, hfit⟩ := exists_follow c.valid hbytes
  have hlength : ranges.length = v.length := List.Forall₂.length_eq hfit
  rw [hbytes, List.cons_append, decode]
  simp only [hfollow, fitting_append hfit, if_pos]
  rw [hlength, List.take_left, List.drop_left, value_of_bytes hbytes, Char.ofNat_toNat]

end Text.Utf8

theorem Encoding.decode_encodeLossy_utf8 (cs : List Char) :
    utf8.decode (utf8.encodeLossy cs) = cs := by
  induction cs with
  | nil => exact Text.Utf8.decode_nil
  | cons c cs ih =>
    rw [encodeLossy_utf8_cons]
    exact (Text.Utf8.decode_bytes_append c _).trans (congrArg _ ih)

end SpanSearch
