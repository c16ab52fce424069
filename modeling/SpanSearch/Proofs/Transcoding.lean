import SpanSearch.Proofs.Narrowing
import SpanSearch.Proofs.Sequencing

/-!
# Texts and their bytes

An encoding has bytes for some texts, and some bytes are a text in it.  Encoding and decoding lead
from the ones to the others and back.

* `Utf8.WellFormed`        one form of a character after another
* `Encoding.IsText`        bytes that are a text in an encoding
* `Encoding.transcodes`    encoding and decoding are inverse to each other
-/

namespace SpanSearch

namespace Text.Utf8

variable {bs : List Nat}

/-! ## UTF-8 -/

inductive WellFormed : List Nat → Prop
  | nil : WellFormed []
  | cons {w rest : List Nat} {n : Nat} : Denotes w n → WellFormed rest → WellFormed (w ++ rest)

theorem wellFormed_flatMap (cs : List Char) : WellFormed (cs.flatMap fun c => bytes c.toNat) := by
  induction cs with
  | nil => exact .nil
  | cons c cs ih => exact .cons (denotes_iff.2 ⟨c.valid, rfl⟩) ih

theorem WellFormed.exists_text (h : WellFormed bs) :
    ∃ cs : List Char, bs = cs.flatMap fun c => bytes c.toNat := by
  induction h with
  | nil => exact ⟨[], rfl⟩
  | cons hw _ ih =>
    obtain ⟨hvalid, rfl⟩ := denotes_iff.1 hw
    obtain ⟨c, rfl⟩ := Fragment.exists_char hvalid
    obtain ⟨cs, rfl⟩ := ih
    exact ⟨c :: cs, rfl⟩

theorem wellFormed_iff : WellFormed bs ↔ ∃ cs : List Char, bs = cs.flatMap fun c => bytes c.toNat :=
  ⟨WellFormed.exists_text, fun ⟨cs, h⟩ => h ▸ wellFormed_flatMap cs⟩

theorem flatMap_bytes (cs : List Char) : (cs.flatMap fun c => bytes c.toNat) =
    (cs.flatMap String.utf8EncodeChar).map UInt8.toNat := by
  rw [List.map_flatMap]
  exact List.flatMap_congr fun c _ => bytes_toNat c

/-- bytes are well formed if the standard library takes them as UTF-8 -/
theorem wellFormed_iff_isValidUTF8 (bs : List UInt8) :
    WellFormed (bs.map UInt8.toNat) ↔ bs.toByteArray.IsValidUTF8 := by
  rw [wellFormed_iff]
  constructor
  · rintro ⟨cs, h⟩
    rw [flatMap_bytes] at h
    obtain rfl := List.map_injective_iff.2 (fun _ _ => UInt8.toNat_inj.1) h
    exact ⟨cs, rfl⟩
  · rintro ⟨cs, h⟩
    refine ⟨cs, ?_⟩
    have hdata := congrArg (fun b => b.data.toList) h
    simp only [List.utf8Encode, List.toList_data_toByteArray] at hdata
    rw [hdata, flatMap_bytes]

end Text.Utf8

namespace Encoding

variable {e : Encoding} {c : Char} {cs : List Char} {bs : List Nat}

def IsText : Encoding → List Nat → Prop
  | .utf8, bs => Text.Utf8.WellFormed bs
  | .latin1, bs => ∀ b ∈ bs, b ≤ 0xFF

/-- what stands for a character in a text that has bytes -/
def substitute (e : Encoding) (c : Char) : Char := if (e.encode? c).isSome then c else '?'

/-! ## whole texts -/

theorem encodeText?_eq (e : Encoding) (cs : List Char) :
    e.encodeText? cs = (cs.mapM e.encode?).map List.flatten := by
  induction cs with
  | nil => rfl
  | cons c cs ih =>
    rw [encodeText?_cons, ih, List.mapM_cons]
    cases e.encode? c with
    | none => rfl
    | some w => cases cs.mapM e.encode? <;> rfl

theorem encodeText?_eq_none_iff : e.encodeText? cs = none ↔ ∃ c ∈ cs, e.encode? c = none := by
  induction cs with
  | nil => exact iff_of_false (Option.some_ne_none _) fun ⟨_, h, _⟩ => List.not_mem_nil h
  | cons c cs ih =>
    rw [List.exists_mem_cons_iff, ← ih, encodeText?_cons]
    cases e.encode? c with
    | none => exact iff_of_true rfl (.inl rfl)
    | some w =>
      rw [Option.bind_some, Option.map_eq_none_iff]
      exact (or_iff_right (Option.some_ne_none w)).symm

theorem encode?_substitute (e : Encoding) (c : Char) :
    e.encode? (e.substitute c) = some ((e.encode? c).getD [placeholder]) := by
  unfold substitute
  cases hc : e.encode? c with
  | none => cases e <;> rfl
  | some w => exact hc

theorem encodeText?_substitute (e : Encoding) (cs : List Char) :
    e.encodeText? (cs.map e.substitute) = some (e.encodeLossy cs) := by
  induction cs with
  | nil => rfl
  | cons c cs ih =>
    rw [List.map_cons, encodeText?_cons, encode?_substitute, ih]
    rfl

/-! ## there and back -/

theorem encodeText?_latin1_iff : latin1.encodeText? cs = some bs ↔
    (∀ c ∈ cs, c.toNat ≤ 0xFF) ∧ cs.map Char.toNat = bs := by
  constructor
  · intro h
    have hle : ∀ c ∈ cs, c.toNat ≤ 0xFF := by
      intro c hc
      by_contra hlt
      rw [Fragment.encodeText?_latin1_eq_none (Nat.lt_of_not_le hlt) hc] at h
      exact Option.some_ne_none bs h.symm
    exact ⟨hle, Option.some.inj ((Fragment.encodeText?_latin1 hle).symm.trans h)⟩
  · rintro ⟨hle, rfl⟩
    exact Fragment.encodeText?_latin1 hle

/-- the bytes of a text are a text, and decoding gives it back; there is no other text with these
bytes, and no bytes that are a text are left out -/
theorem encodeText?_eq_some_iff :
    e.encodeText? cs = some bs ↔ e.IsText bs ∧ e.decode bs = cs := by
  cases e with
  | utf8 =>
    have hdecode (ds : List Char) :
        utf8.decode (ds.flatMap fun c => Text.Utf8.bytes c.toNat) = ds :=
      decode_encodeLossy_utf8 ds
    rw [encodeText?_utf8, Option.some_inj]
    constructor
    · rintro rfl
      exact ⟨Text.Utf8.wellFormed_flatMap cs, hdecode cs⟩
    · rintro ⟨hbs, rfl⟩
      obtain ⟨ds, rfl⟩ := Text.Utf8.WellFormed.exists_text hbs
      rw [hdecode]
  | latin1 =>
    rw [encodeText?_latin1_iff]
    constructor
    · rintro ⟨hle, rfl⟩
      refine ⟨List.forall_mem_map.2 hle, ?_⟩
      rw [decode, List.map_map]
      exact List.map_id'' Char.ofNat_toNat cs
    · rintro ⟨hbs, rfl⟩
      have htoNat : ∀ b ∈ bs, (Char.ofNat b).toNat = b := by
        intro b hb
        have hlt : b < 0xD800 := Nat.lt_of_le_of_lt (hbs b hb) (by omega)
        obtain ⟨c, hc⟩ := Fragment.exists_char (.inl hlt)
        rw [← hc, Char.ofNat_toNat]
      refine ⟨List.forall_mem_map.2 fun b hb => (htoNat b hb).symm ▸ hbs b hb, ?_⟩
      rw [decode, List.map_map]
      exact (List.map_congr_left htoNat).trans (List.map_id bs)

theorem isText_iff (e : Encoding) (bs : List UInt8) :
    e.IsText (bs.map UInt8.toNat) ↔ e = .latin1 ∨ bs.toByteArray.IsValidUTF8 := by
  cases e with
  | utf8 =>
    rw [or_iff_right Encoding.noConfusion]
    exact Text.Utf8.wellFormed_iff_isValidUTF8 bs
  | latin1 =>
    refine iff_of_true (List.forall_mem_map.2 fun b _ => ?_) (.inl rfl)
    exact Nat.le_of_lt_succ b.toNat_lt

/-- texts that have bytes and bytes that are a text correspond to each other.  The bytes of a text
are those of its characters, one after another, and it has none if one of them has none; such a
character leaves the bytes before it as they are.  With `?` for each such character, and for no
other one, every text has bytes. -/
theorem transcodes (e : Encoding) :
    (∀ cs bs, e.encodeText? cs = some bs ↔ e.IsText bs ∧ e.decode bs = cs) ∧
    (∀ bs : List UInt8, e.IsText (bs.map UInt8.toNat) ↔
      e = .latin1 ∨ bs.toByteArray.IsValidUTF8) ∧
    (∀ bs, e.decodeAscii bs = e.decode bs) ∧
    (∀ cs, e.encodeText? cs = (cs.mapM e.encode?).map List.flatten) ∧
    (∀ cs, e.encodeText? cs = none ↔ ∃ c ∈ cs, e.encode? c = none) ∧
    (∀ c bs, e.push c bs = ((e.encode? c).isSome, bs ++ (e.encode? c).getD [])) ∧
    (∀ cs bs, e.pushText? bs cs = (e.encodeText? cs).map (bs ++ ·)) ∧
    (∀ cs, e.encodeText? (cs.map e.substitute) = some (e.encodeLossy cs)) ∧
    ∀ cs bs, e.pushLossy bs cs = bs ++ e.encodeLossy cs :=
  ⟨fun _ _ => encodeText?_eq_some_iff, isText_iff e, decodeAscii_eq e, encodeText?_eq e,
    fun _ => encodeText?_eq_none_iff, push_eq e, fun cs bs => pushText?_eq e bs cs,
    encodeText?_substitute e, fun cs bs => pushLossy_eq e bs cs⟩

/-- Latin-1 has no byte for `€`, which leaves what is there as it is; UTF-8 has three -/
theorem transcodes_euro :
    latin1.encodeText? ['é', '€'] = none ∧ latin1.push '€' [1, 2] = (false, [1, 2]) ∧
      latin1.encodeText? ['é', '?'] = some (latin1.encodeLossy ['é', '€']) ∧
        utf8.decode [0xE2, 0x82, 0xAC] = ['€'] := by
  obtain ⟨-, -, -, -, hnone, hpush, -, hlossy, -⟩ := transcodes latin1
  refine ⟨(hnone _).2 ⟨'€', ?_, rfl⟩, hpush _ _, hlossy ['é', '€'], ?_⟩
  · exact List.mem_cons_of_mem _ List.mem_cons_self
  · exact (((transcodes utf8).1 _ _).1 rfl).2

end Encoding
end SpanSearch
