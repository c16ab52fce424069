import SpanSearch.Proofs.Denotation
import SpanSearch.Proofs.Layers

/-!
# Characters, texts and classes as fragments

* `makes_literal`, `makes_text`   a character and a text
* `connects_charRange`    the characters between two bounds
* `makes_charClass`      the characters of a class
* `makes_byteClass`      raw symbols
-/

namespace SpanSearch
namespace Fragment

open SpanSearch.Graph

variable {g : Graph} {α : Alphabet} {w : List Nat}

/-! ## raw symbols -/

theorem mem_symbolsIn {s : RangeSet} : w ∈ symbolsIn s ↔ ∃ n, w = [n] ∧ s.Holds n := by
  unfold symbolsIn
  induction s with
  | nil =>
    refine iff_of_false id ?_
    rintro ⟨_, -, r, hr, -⟩
    exact absurd hr List.not_mem_nil
  | cons r s ih =>
    rw [List.map_cons, List.sum_cons, Language.mem_add, ih, mem_symbolsBetween, ← exists_or]
    refine exists_congr fun n => ?_
    rw [RangeSet.Holds, RangeSet.Holds, List.exists_mem_cons_iff, ← and_or_left]

theorem makes_byteClass (s : RangeSet) (g : Graph) :
    Makes ∅ {w | ∃ b, w = [b] ∧ s.Holds b} g (symbolClass s g) := by
  have h := makes_symbolClass s g
  have hwords : symbolsIn s = {w | ∃ b, w = [b] ∧ s.Holds b} :=
    Set.ext fun w => mem_symbolsIn
  rwa [hwords] at h

theorem makes_byte (b : Nat) (g : Graph) : Makes ∅ {[b]} g (symbols b b g) := by
  have h := makes_symbolClass [(b, b)] g
  have hwords : symbolsIn [(b, b)] = {[b]} := by
    ext w
    rw [mem_symbolsIn]
    constructor
    · rintro ⟨n, rfl, r, hr, hn⟩
      obtain rfl := List.mem_singleton.1 hr
      rw [min_self, max_self] at hn
      rw [Nat.le_antisymm hn.2 hn.1]
      rfl
    · rintro rfl
      exact ⟨b, rfl, (b, b), List.mem_singleton_self _, by simp⟩
  rwa [hwords] at h

/-! ## characters and texts -/

theorem literal_chars (c : Char) : Alphabet.chars.literal c = {[c.toNat]} := by
  ext w
  exact ⟨fun h => (Option.some.inj h).symm, fun h => congrArg some h.symm⟩

theorem literal_bytes (enc : Encoding) (c : Char) : (Alphabet.bytes enc).literal c =
    match enc.encode? c with
    | none => 0
    | some bs => {bs} := by
  ext w
  show enc.encode? c = some w ↔ _
  cases enc.encode? c with
  | none => exact iff_of_false (fun h => Option.some_ne_none w h.symm) id
  | some bs => exact ⟨fun h => (Option.some.inj h).symm, fun h => congrArg some h.symm⟩

theorem makes_literal (α : Alphabet) (c : Char) (g : Graph) :
    Makes ∅ (α.literal c) g (literal α c g) := by
  cases α with
  | chars =>
    rw [literal_chars]
    exact makes_byte c.toNat g
  | bytes enc =>
    rw [literal_bytes]
    have hstep : literal (.bytes enc) c g =
        (match enc.encode? c with
        | none => nothing
        | some bs => chain bs : Build Fragment) g := rfl
    rw [hstep]
    cases enc.encode? c with
    | none => exact makes_nothing g
    | some bs => exact makes_chain bs g

def texts (α : Alphabet) (cs : List Char) : Language Nat := (cs.map α.literal).prod

theorem singleton_mul_singleton (u v : List Nat) :
    ({u} : Language Nat) * {v} = {u ++ v} := by
  ext w
  rw [Language.mem_mul]
  constructor
  · rintro ⟨_, rfl, _, rfl, rfl⟩
    rfl
  · rintro rfl
    exact ⟨u, rfl, v, rfl, rfl⟩

/-- a text is encoded character by character -/
theorem texts_bytes (enc : Encoding) (cs : List Char) : texts (.bytes enc) cs =
    match enc.encodeText? cs with
    | none => 0
    | some bs => {bs} := by
  induction cs with
  | nil => rfl
  | cons c cs ih =>
    rw [texts, List.map_cons, List.prod_cons, ← texts, ih, literal_bytes, Encoding.encodeText?_cons]
    cases enc.encode? c with
    | none => exact zero_mul _
    | some b =>
      cases enc.encodeText? cs with
      | none => exact mul_zero _
      | some bs => exact singleton_mul_singleton b bs

theorem texts_chars (cs : List Char) : texts .chars cs = {cs.map Char.toNat} := by
  induction cs with
  | nil => rfl
  | cons c cs ih =>
    rw [texts, List.map_cons, List.prod_cons, ← texts, ih, literal_chars, singleton_mul_singleton]
    rfl

theorem text_bytes (enc : Encoding) (cs : List Char) : text (.bytes enc) cs =
    match enc.encodeText? cs with
    | none => nothing
    | some bs => chain bs := rfl

theorem makes_text (α : Alphabet) (cs : List Char) (g : Graph) :
    Makes ∅ (texts α cs) g (text α cs g) := by
  cases α with
  | chars =>
    rw [texts_chars]
    exact makes_chain _ g
  | bytes enc =>
    rw [texts_bytes]
    rw [text_bytes]
    cases enc.encodeText? cs with
    | none => exact makes_nothing g
    | some bs => exact makes_chain bs g

/-! ## classes of characters -/

theorem mem_sum_map {ι : Type} {l : List ι} {L : ι → Language Nat} :
    w ∈ (l.map L).sum ↔ ∃ x ∈ l, w ∈ L x := by
  induction l with
  | nil =>
    refine iff_of_false id ?_
    rintro ⟨x, hx, -⟩
    exact absurd hx List.not_mem_nil
  | cons x l ih =>
    rw [List.map_cons, List.sum_cons, Language.mem_add, ih, List.exists_mem_cons_iff]

theorem holds_singleton {a b n : Nat} : RangeSet.Holds [(a, b)] n ↔ min a b ≤ n ∧ n ≤ max a b := by
  rw [RangeSet.Holds, List.exists_mem_cons_iff]
  refine or_iff_left ?_
  rintro ⟨r, hr, -⟩
  exact absurd hr List.not_mem_nil

/-- what an interval of byte sequences stands for -/
def intervalWords (enc : Encoding) (bounds : List Nat × List Nat) : Language Nat :=
  Interval.between (enc.tailRange?.getD (0x00, 0xFF)).1 (enc.tailRange?.getD (0x00, 0xFF)).2
    (bounds.1.zip bounds.2)

theorem exists_char {n : Nat} (hn : n < 0xD800 ∨ 0xDFFF < n ∧ n < 0x110000) :
    ∃ c : Char, c.toNat = n :=
  ⟨Char.ofNatAux n hn, rfl⟩

theorem char_toNat (c : Char) : c.toNat < 0xD800 ∨ 0xDFFF < c.toNat ∧ c.toNat < 0x110000 := c.valid

theorem mem_pieces {r : Nat × Nat} (h : r ∈ Encoding.pieces) :
    (∀ x y, r.1 ≤ x → x ≤ r.2 → r.1 ≤ y → y ≤ r.2 → Text.Utf8.width x = Text.Utf8.width y) ∧
      ∀ n, r.1 ≤ n → n ≤ r.2 → n < 0xD800 ∨ 0xDFFF < n ∧ n < 0x110000 := by
  obtain ⟨plo, phi⟩ := r
  unfold Text.Utf8.width
  simp only [Encoding.pieces, List.mem_cons, Prod.mk.injEq, List.not_mem_nil, or_false] at h
  dsimp only
  refine ⟨fun x y => ?_, fun n => ?_⟩
  · split_ifs <;> omega
  · omega

theorem exists_piece {n : Nat} (hn : n < 0xD800 ∨ 0xDFFF < n ∧ n < 0x110000) :
    ∃ r ∈ Encoding.pieces, r.1 ≤ n ∧ n ≤ r.2 := by
  simp only [Encoding.pieces, List.exists_mem_cons_iff, List.not_mem_nil, false_and, exists_false]
  omega

theorem mem_sequences_utf8 {a b : Nat} {bounds : List Nat × List Nat} :
    bounds ∈ Encoding.utf8.sequences a b ↔ ∃ r ∈ Encoding.pieces,
      max (min a b) r.1 ≤ min (max a b) r.2 ∧
      bounds = (Text.Utf8.bytes (max (min a b) r.1), Text.Utf8.bytes (min (max a b) r.2)) := by
  simp only [Encoding.sequences, List.mem_filterMap]
  refine exists_congr fun r => and_congr_right fun _ => ?_
  split
  · next h => exact ⟨fun heq => ⟨h, (Option.some.inj heq).symm⟩,
      fun heq => congrArg some heq.2.symm⟩
  · next h => exact iff_of_false (fun heq => Option.some_ne_none _ heq.symm) fun heq => h heq.1

theorem encode?_latin1_eq_some {c : Char} {w : List Nat} :
    Encoding.latin1.encode? c = some w ↔ c.toNat ≤ 0xFF ∧ w = [c.toNat] := by
  show (if c.toNat ≤ 0xFF then some [c.toNat] else none) = some w ↔ _
  split
  · next h =>
    exact ⟨fun heq => ⟨h, (Option.some.inj heq).symm⟩, fun heq => congrArg some heq.2.symm⟩
  · next h => exact iff_of_false (fun heq => Option.some_ne_none _ heq.symm) fun heq => h heq.1

/-- over Latin-1 there is one interval, up to the last byte -/
theorem sum_intervalWords_latin1 (a b : Nat) :
    ((Encoding.latin1.sequences a b).map (intervalWords .latin1)).sum =
      (Alphabet.bytes .latin1).oneOf [(a, b)] := by
  ext w
  rw [mem_sum_map]
  show _ ↔ ∃ c : Char, _ ∧ _
  simp only [holds_singleton, encode?_latin1_eq_some, Encoding.sequences]
  split
  · next hlow =>
    simp only [List.mem_singleton, exists_eq_left]
    refine (Frontier.mem_between_last 0x00 0xFF
      (show min a b ≤ min (max a b) 0xFF by omega)).trans ?_
    constructor
    · rintro ⟨n, rfl, hn⟩
      obtain ⟨c, rfl⟩ := exists_char (n := n) (by omega)
      exact ⟨c, by omega, by omega, rfl⟩
    · rintro ⟨c, hc, hle, rfl⟩
      exact ⟨c.toNat, rfl, by omega⟩
  · next hlow =>
    refine iff_of_false ?_ ?_
    · rintro ⟨_, h, -⟩
      exact absurd h List.not_mem_nil
    · rintro ⟨c, hc, hle, -⟩
      omega

/-- over UTF-8 there is an interval for each piece that the range meets -/
theorem sum_intervalWords_utf8 (a b : Nat) :
    ((Encoding.utf8.sequences a b).map (intervalWords .utf8)).sum =
      (Alphabet.bytes .utf8).oneOf [(a, b)] := by
  ext w
  rw [mem_sum_map]
  show _ ↔ ∃ c : Char, _ ∧ _
  simp only [holds_singleton, mem_sequences_utf8]
  constructor
  · rintro ⟨_, ⟨r, hr, hle, rfl⟩, hw⟩
    obtain ⟨hwidth, hvalid⟩ := mem_pieces hr
    obtain ⟨z, hlow, hhigh, rfl⟩ := (Text.Utf8.mem_between_bytes hle
      (hwidth _ _ (by omega) (by omega) (by omega) (by omega))).1 hw
    obtain ⟨c, rfl⟩ := exists_char (hvalid z (by omega) (by omega))
    exact ⟨c, by omega, rfl⟩
  · rintro ⟨c, hc, heq⟩
    obtain rfl : Text.Utf8.bytes c.toNat = w := Option.some.inj heq
    obtain ⟨r, hr, hlow, hhigh⟩ := exists_piece (char_toNat c)
    obtain ⟨hwidth, -⟩ := mem_pieces hr
    have hle : max (min a b) r.1 ≤ min (max a b) r.2 := by omega
    refine ⟨_, ⟨r, hr, hle, rfl⟩, ?_⟩
    have hmem := Text.Utf8.mem_between_bytes (w := Text.Utf8.bytes c.toNat) hle
      (hwidth _ _ (by omega) (by omega) (by omega) (by omega))
    exact hmem.2 ⟨c.toNat, by omega, by omega, rfl⟩

theorem sum_intervalWords (enc : Encoding) (a b : Nat) :
    ((enc.sequences a b).map (intervalWords enc)).sum = (Alphabet.bytes enc).oneOf [(a, b)] := by
  cases enc with
  | latin1 => exact sum_intervalWords_latin1 a b
  | utf8 => exact sum_intervalWords_utf8 a b

/-- the bounds of an interval are ones that can be laid out -/
theorem ordered_sequences {enc : Encoding} {a b : Nat} {bounds : List Nat × List Nat}
    (h : bounds ∈ enc.sequences a b) : bounds.1.zip bounds.2 ≠ [] ∧
      Interval.Ordered (bounds.1.zip bounds.2) ∧ ∀ r ∈ (bounds.1.zip bounds.2).tail,
        ((enc.tailRange?.getD (0x00, 0xFF)).1 ≤ r.1 ∧ r.1 ≤ (enc.tailRange?.getD (0x00, 0xFF)).2) ∧
          (enc.tailRange?.getD (0x00, 0xFF)).1 ≤ r.2 ∧
            r.2 ≤ (enc.tailRange?.getD (0x00, 0xFF)).2 := by
  cases enc with
  | latin1 =>
    simp only [Encoding.sequences] at h
    split at h
    · next hlow =>
      obtain rfl := List.mem_singleton.1 h
      refine ⟨List.cons_ne_nil _ _, ?_, fun r hr => absurd hr List.not_mem_nil⟩
      rcases Nat.lt_or_eq_of_le (show min a b ≤ min (max a b) 0xFF by omega) with hlt | heq
      · exact .inl hlt
      · exact .inr ⟨heq, trivial⟩
    · exact absurd h List.not_mem_nil
  | utf8 =>
    obtain ⟨r, hr, hle, rfl⟩ := mem_sequences_utf8.1 h
    have hwidth := (mem_pieces hr).1 (max (min a b) r.1) (min (max a b) r.2) (by omega) (by omega)
      (by omega) (by omega)
    obtain ⟨hord, htails⟩ := Text.Utf8.ordered_bytes hle hwidth
    refine ⟨fun hnil => ?_, hord, htails⟩
    rcases List.zip_eq_nil_iff.1 hnil with hnil | hnil
    · exact Text.Utf8.bytes_ne_nil _ hnil
    · exact Text.Utf8.bytes_ne_nil _ hnil

theorem connects_interval {s e : Nat} (hb : g.Endpoints s e) {enc : Encoding} {a b : Nat}
    {bounds : List Nat × List Nat} (h : bounds ∈ enc.sequences a b) :
    Connects ∅ s e (intervalWords enc bounds) g (interval enc s e bounds g).2 := by
  obtain ⟨hne, hord, htails⟩ := ordered_sequences h
  exact connects_layOut hb hne hord htails

/-- the characters between two bounds as ways between two states -/
theorem connects_charRange {s e : Nat} (α : Alphabet) (hb : g.Endpoints s e) (a b : Nat) :
    Connects ∅ s e (α.oneOf [(a, b)]) g (charRange α s e a b g).2 := by
  cases α with
  | chars =>
    have hwords : symbolsBetween (min a b) (max a b) = Alphabet.chars.oneOf [(a, b)] := by
      ext w
      rw [mem_symbolsBetween]
      show _ ↔ ∃ n, w = [n] ∧ RangeSet.Holds _ n
      simp only [holds_singleton]
    rw [← hwords]
    exact connects_range hb _ _
  | bytes enc =>
    rw [← sum_intervalWords]
    exact connects_forM (f := interval enc s e) (fun bounds h g hb => connects_interval hb h) hb

theorem mem_oneOf {s : RangeSet} : w ∈ α.oneOf s ↔ ∃ r ∈ s, w ∈ α.oneOf [r] := by
  cases α with
  | chars =>
    constructor
    · rintro ⟨n, rfl, r, hr, hn⟩
      exact ⟨r, hr, n, rfl, holds_singleton.2 hn⟩
    · rintro ⟨r, hr, n, rfl, hn⟩
      exact ⟨n, rfl, r, hr, holds_singleton.1 hn⟩
  | bytes enc =>
    constructor
    · rintro ⟨c, ⟨r, hr, hn⟩, hc⟩
      exact ⟨r, hr, c, holds_singleton.2 hn, hc⟩
    · rintro ⟨r, hr, c, hn, hc⟩
      exact ⟨c, ⟨r, hr, holds_singleton.1 hn⟩, hc⟩

theorem makes_charClass (α : Alphabet) (s : RangeSet) (g : Graph) :
    Makes ∅ (α.oneOf s) g (charClass α s g) := by
  have hempty : ∀ p ∈ (∅ : Set Nat), p < g.size := fun p hp => absurd hp (Set.notMem_empty p)
  have hwords : (s.map fun r => α.oneOf [r]).sum = α.oneOf s :=
    Set.ext fun w => mem_sum_map.trans mem_oneOf.symm
  rw [← hwords]
  refine makes_of_connects hempty (fun p hp => absurd hp (Set.notMem_empty p)) ?_
  exact connects_forM (f := fun r : Nat × Nat => charRange α g.size (second g) r.1 r.2)
    (fun r _ g hb => connects_charRange α hb r.1 r.2) (endpoints_twoStates g)

end Fragment
end SpanSearch
