import SpanSearch.Cursor
import SpanSearch.Proofs.Denotation
import SpanSearch.Span

/-!
# Places on a tape

A place is where a symbol begins or where the tape ends.  Reading moves a cursor from one place
to the next.

* `Tape.IsPlace`      the places of a tape
* `Tape.Holds`        a symbol and the places before and behind it
* `Tape.Proper`       every symbol is one of the alphabet and reaches to a place
* `Tape.Haystack`     the tapes of texts and of bytes; `Haystack.proper`
* `Tape.Spells`       a span of places whose symbols are a word of a language
* `Cursor.Ahead`      cursors that read a tape forwards; `next_moveTo`, `prev_moveTo`
-/

namespace SpanSearch

namespace Tape

variable {t : Tape} {i j k sym : Nat}

def IsPlace (t : Tape) (pos : Nat) : Prop := pos = t.length ∨ ∃ sym, t.symbolAt? pos = some sym

/-- a symbol lies between two places, and no other one begins there -/
structure Holds (t : Tape) (i sym j : Nat) : Prop where
  symbol : t.symbolAt? i = some sym
  lt : i < j
  place : t.IsPlace j
  blank : ∀ k, i < k → k < j → t.symbolAt? k = none

/-- symbols are those of the alphabet, and each of them reaches to the next place -/
structure Proper (t : Tape) : Prop where
  bounded : ∀ pos sym, t.symbolAt? pos = some sym → sym ≤ t.alphabet.maxSymbol
  first : t.IsPlace 0
  holds : ∀ pos sym, t.symbolAt? pos = some sym → t.Holds pos sym (pos + t.widthOf sym)

/-! ## places -/

theorem lt_length_of_symbolAt? (h : t.symbolAt? i = some sym) : i < t.length := by
  by_contra hle
  rw [symbolAt?_of_length_le (Nat.le_of_not_lt hle)] at h
  exact absurd h (Option.some_ne_none _).symm

theorem IsPlace.le_length (h : t.IsPlace i) : i ≤ t.length := by
  rcases h with rfl | ⟨sym, hsym⟩
  · exact Nat.le_refl _
  · exact Nat.le_of_lt (lt_length_of_symbolAt? hsym)

theorem isPlace_length (t : Tape) : t.IsPlace t.length := .inl rfl

theorem Holds.isPlace (h : t.Holds i sym j) : t.IsPlace i := .inr ⟨sym, h.symbol⟩

theorem Proper.exists_holds (ht : t.Proper) (hi : t.IsPlace i) (hlt : i < t.length) :
    ∃ sym j, t.Holds i sym j ∧ sym ≤ t.alphabet.maxSymbol := by
  rcases hi with rfl | ⟨sym, hsym⟩
  · exact absurd hlt (Nat.lt_irrefl _)
  · exact ⟨sym, _, ht.holds i sym hsym, ht.bounded i sym hsym⟩

theorem Holds.le_of_lt (h : t.Holds i sym j) (hk : t.IsPlace k) (hlt : i < k) : j ≤ k := by
  by_contra hkj
  have hkj := Nat.lt_of_not_le hkj
  rcases hk with rfl | ⟨s, hs⟩
  · exact Nat.not_lt_of_le h.place.le_length hkj
  · rw [h.blank k hlt hkj] at hs
    exact absurd hs (Option.some_ne_none _).symm

theorem Holds.le_of_lt' (h : t.Holds i sym j) (hk : t.IsPlace k) (hlt : k < j) : k ≤ i := by
  by_contra hik
  exact Nat.not_le_of_lt hlt (h.le_of_lt hk (Nat.lt_of_not_le hik))

/-- behind the first place some symbol is the last that began -/
theorem Proper.exists_last (ht : t.Proper) (hpos : 0 < j) (hle : j ≤ t.length) :
    ∃ i sym, i < j ∧ t.symbolAt? i = some sym ∧ ∀ k, i < k → k < j → t.symbolAt? k = none := by
  induction j with
  | zero => exact absurd hpos (Nat.lt_irrefl 0)
  | succ j ih =>
    cases hsym : t.symbolAt? j with
    | some sym => exact ⟨j, sym, Nat.lt_succ_self j, hsym, fun k hk hkj => by omega⟩
    | none =>
      have hj : 0 < j := by
        refine Nat.pos_of_ne_zero fun heq => ?_
        subst heq
        rcases ht.first with h | ⟨sym, h⟩
        · exact absurd (h ▸ hle) (Nat.not_succ_le_zero 0)
        · exact absurd (hsym.symm.trans h) (Option.some_ne_none _).symm
      obtain ⟨i, sym, hlt, hi, hblank⟩ := ih hj (Nat.le_of_succ_le hle)
      refine ⟨i, sym, Nat.lt_succ_of_lt hlt, hi, fun k hk hkj => ?_⟩
      rcases Nat.lt_succ_iff_lt_or_eq.1 hkj with hkj | rfl
      · exact hblank k hk hkj
      · exact hsym

/-- some symbol leads to every place but the first -/
theorem Proper.exists_holds_to (ht : t.Proper) (hj : t.IsPlace j) (hpos : 0 < j) :
    ∃ i sym, t.Holds i sym j ∧ sym ≤ t.alphabet.maxSymbol := by
  obtain ⟨i, sym, hlt, hi, hblank⟩ := ht.exists_last hpos hj.le_length
  have hholds := ht.holds i sym hi
  have hle := hholds.le_of_lt hj hlt
  have heq : i + t.widthOf sym = j := by
    by_contra hne
    rcases hholds.place with hend | ⟨s, hs⟩
    · have hlength := hj.le_length
      omega
    · have hwidth := hholds.lt
      rw [hblank _ hwidth (Nat.lt_of_le_of_ne hle hne)] at hs
      exact absurd hs (Option.some_ne_none _).symm
  exact ⟨i, sym, heq ▸ hholds, ht.bounded i sym hi⟩

/-! ## the symbols between two places -/

theorem symbolsIn_eq (t : Tape) (i j : Nat) :
    t.symbolsIn i j = ((t.cells.toList.drop i).take (j - i)).filterMap id := by
  rw [symbolsIn, Array.toList_extract]

theorem symbolsIn_self (t : Tape) (i : Nat) : t.symbolsIn i i = [] := by
  rw [symbolsIn_eq, Nat.sub_self]
  rfl

theorem symbolsIn_append (t : Tape) (hij : i ≤ j) (hjk : j ≤ k) :
    t.symbolsIn i j ++ t.symbolsIn j k = t.symbolsIn i k := by
  rw [symbolsIn_eq, symbolsIn_eq, symbolsIn_eq, ← List.filterMap_append]
  have hsum : k - i = (j - i) + (k - j) := by omega
  have hdrop : t.cells.toList.drop j = (t.cells.toList.drop i).drop (j - i) := by
    rw [List.drop_drop, Nat.add_sub_cancel' hij]
  rw [hsum, List.take_add, hdrop]

theorem symbolAt?_eq (t : Tape) (i : Nat) : t.symbolAt? i = (t.cells.toList[i]?).getD none := by
  rw [symbolAt?, Array.getD_eq_getD_getElem?, Array.getElem?_toList]

theorem symbolsIn_succ (hi : i < t.length) :
    t.symbolsIn i (i + 1) = (t.symbolAt? i).toList := by
  have hlt : i < t.cells.toList.length := hi
  rw [symbolsIn_eq, Nat.add_sub_cancel_left, List.take_one, List.head?_drop, symbolAt?_eq,
    List.getElem?_eq_getElem hlt]
  cases t.cells.toList[i] <;> rfl

theorem symbolsIn_blank (hij : i ≤ j) (hj : j ≤ t.length)
    (hblank : ∀ k, i ≤ k → k < j → t.symbolAt? k = none) : t.symbolsIn i j = [] := by
  induction j, hij using Nat.le_induction with
  | base => exact symbolsIn_self t i
  | succ j hij ih =>
    rw [← symbolsIn_append t hij (Nat.le_succ j), symbolsIn_succ hj,
      hblank j hij (Nat.lt_succ_self j),
      ih (Nat.le_of_succ_le hj) fun k hk hkj => hblank k hk (Nat.lt_succ_of_lt hkj)]
    rfl

theorem Holds.symbolsIn (h : t.Holds i sym j) : t.symbolsIn i j = [sym] := by
  have hlength := h.place.le_length
  have hlt := h.lt
  rw [← symbolsIn_append t (Nat.le_succ i) hlt, symbolsIn_succ (by omega), h.symbol,
    symbolsIn_blank hlt hlength fun k hk hkj => h.blank k hk hkj]
  rfl

theorem Holds.symbolsIn_left (h : t.Holds i sym j) (hk : k ≤ i) :
    t.symbolsIn k j = t.symbolsIn k i ++ [sym] := by
  rw [← h.symbolsIn, symbolsIn_append t hk (Nat.le_of_lt h.lt)]

theorem Holds.symbolsIn_right (h : t.Holds i sym j) (hk : j ≤ k) :
    t.symbolsIn i k = sym :: t.symbolsIn j k := by
  rw [← symbolsIn_append t (Nat.le_of_lt h.lt) hk, h.symbolsIn]
  rfl

theorem Proper.le_of_mem_symbolsIn (ht : t.Proper) (h : sym ∈ t.symbolsIn i j) :
    sym ≤ t.alphabet.maxSymbol := by
  rw [symbolsIn_eq] at h
  obtain ⟨c, hc, rfl⟩ := List.mem_filterMap.1 h
  obtain ⟨k, hk, hget⟩ := List.getElem_of_mem (List.mem_of_mem_drop (List.mem_of_mem_take hc))
  refine ht.bounded k sym ?_
  rw [symbolAt?_eq, List.getElem?_eq_getElem hk, hget]
  rfl

theorem Proper.symbolsIn_ne_nil (ht : t.Proper) (hi : t.IsPlace i) (hj : t.IsPlace j)
    (hlt : i < j) : t.symbolsIn i j ≠ [] := by
  have hlength := hj.le_length
  obtain ⟨sym, k, hk, -⟩ := ht.exists_holds hi (by omega)
  rw [hk.symbolsIn_right (hk.le_of_lt hj hlt)]
  exact List.cons_ne_nil _ _

/-- a span of places whose symbols are a word of a language -/
structure Spells (t : Tape) (L : Language Nat) (s : Span) : Prop where
  start : t.IsPlace s.start
  stop : t.IsPlace s.stop
  le : s.start ≤ s.stop
  word : t.symbolsIn s.start s.stop ∈ L

/-! ## tapes of texts and of bytes -/

def row (width : Nat → Nat) (syms : List Nat) : List (Option Nat) :=
  syms.flatMap fun sym => some sym :: List.replicate (width sym - 1) none

section
variable {width : Nat → Nat} (hwidth : ∀ sym, 0 < width sym)
include hwidth

theorem row_cons_of_le {s : Nat} {syms : List Nat} {k : Nat} (hk : width s ≤ k) :
    (row width (s :: syms))[k]? = (row width syms)[k - width s]? := by
  have hlength : (some s :: List.replicate (width s - 1) (none : Option Nat)).length = width s := by
    rw [List.length_cons, List.length_replicate, Nat.sub_add_cancel (hwidth s)]
  rw [row, List.flatMap_cons, List.getElem?_append_right (hlength.symm ▸ hk), hlength]
  rfl

omit hwidth in
theorem row_cons_of_lt {s : Nat} {syms : List Nat} {k : Nat} (hpos : 0 < k) (hk : k < width s) :
    (row width (s :: syms))[k]? = some none := by
  obtain ⟨k, rfl⟩ := Nat.exists_eq_succ_of_ne_zero (Nat.ne_of_gt hpos)
  have hlt : k < (List.replicate (width s - 1) (none : Option Nat)).length := by
    rw [List.length_replicate]
    omega
  rw [row, List.flatMap_cons, List.cons_append, List.getElem?_cons_succ,
    List.getElem?_append_left hlt, List.getElem?_eq_getElem hlt, List.getElem_replicate]

theorem length_row_cons (s : Nat) (syms : List Nat) :
    (row width (s :: syms)).length = width s + (row width syms).length := by
  have hpos := hwidth s
  rw [row, List.flatMap_cons, List.length_append, List.length_cons, List.length_replicate]
  change width s - 1 + 1 + (row width syms).length = _
  omega

/-- a symbol in a row is followed by blank cells and then by a symbol or nothing -/
theorem row_spec {syms : List Nat} {i sym : Nat} (h : (row width syms)[i]? = some (some sym)) :
    sym ∈ syms ∧ (i + width sym = (row width syms).length ∨
        ∃ s, (row width syms)[i + width sym]? = some (some s)) ∧
      ∀ k, i < k → k < i + width sym → (row width syms)[k]? = some none := by
  induction syms generalizing i with
  | nil => exact absurd h (Option.some_ne_none _).symm
  | cons s syms ih =>
    by_cases hle : width s ≤ i
    · rw [row_cons_of_le hwidth hle] at h
      obtain ⟨hmem, hplace, hblank⟩ := ih h
      refine ⟨List.mem_cons_of_mem s hmem, ?_, fun k hk hki => ?_⟩
      · rw [length_row_cons hwidth, row_cons_of_le hwidth (Nat.le_add_right_of_le hle)]
        have hsub : i + width sym - width s = i - width s + width sym := by omega
        rw [hsub]
        exact hplace.imp (fun heq => by omega) id
      · rw [row_cons_of_le hwidth (by omega)]
        exact hblank _ (by omega) (by omega)
    · rcases Nat.eq_zero_or_pos i with rfl | hpos
      · obtain rfl : s = sym := Option.some.inj (Option.some.inj h)
        refine ⟨List.mem_cons_self, ?_, fun k hk hks => ?_⟩
        · rw [length_row_cons hwidth, Nat.zero_add, row_cons_of_le hwidth (Nat.le_refl _),
            Nat.sub_self]
          cases syms with
          | nil => exact .inl rfl
          | cons s' syms => exact .inr ⟨s', rfl⟩
        · exact row_cons_of_lt hk (Nat.zero_add (width s) ▸ hks)
      · rw [row_cons_of_lt hpos (Nat.lt_of_not_le hle)] at h
        exact absurd (Option.some.inj h) (Option.some_ne_none _).symm

/-- a row of symbols of an alphabet is a proper tape -/
theorem proper_row {a : Alphabet} {syms : List Nat} (hsyms : ∀ sym ∈ syms, sym ≤ a.maxSymbol)
    (hw : ∀ sym, (⟨a, (row width syms).toArray⟩ : Tape).widthOf sym = width sym) :
    (⟨a, (row width syms).toArray⟩ : Tape).Proper := by
  have hat (k : Nat) : (⟨a, (row width syms).toArray⟩ : Tape).symbolAt? k =
      (row width syms)[k]?.getD none := symbolAt?_eq _ k
  have hsome {k s : Nat} : (⟨a, (row width syms).toArray⟩ : Tape).symbolAt? k = some s ↔
      (row width syms)[k]? = some (some s) := by
    rw [hat]
    cases (row width syms)[k]? with
    | none => exact iff_of_false (Option.some_ne_none _).symm (Option.some_ne_none _).symm
    | some c => exact Option.some_inj.symm
  refine ⟨fun k s h => hsyms s (row_spec hwidth (hsome.1 h)).1, ?_, fun k s h => ?_⟩
  · cases syms with
    | nil => exact .inl rfl
    | cons s syms => exact .inr ⟨s, hsome.2 rfl⟩
  · obtain ⟨-, hplace, hblank⟩ := row_spec hwidth (hsome.1 h)
    rw [hw]
    refine ⟨h, Nat.lt_add_of_pos_right (hwidth s), ?_, fun j hj hjk => ?_⟩
    · exact hplace.imp id fun ⟨s', hs'⟩ => ⟨s', hsome.2 hs'⟩
    · rw [hat, hblank j hj hjk]
      rfl

end

inductive Haystack (a : Alphabet) : Tape → Prop
  | text (cs : List Char) : Haystack a (ofText a cs)
  | bytes (bs : List Nat) (h : ∀ b ∈ bs, b ≤ 0xFF) : Haystack a (ofBytes a bs)

theorem proper_ofChars (cs : List Char) : (ofChars cs).Proper := by
  have hrow : row Text.Utf8.width (cs.map Char.toNat) = cs.flatMap charCells :=
    List.flatMap_map Char.toNat _ cs
  rw [ofChars, ← hrow]
  refine proper_row Text.Utf8.width_pos (fun sym hsym => ?_) fun sym => rfl
  obtain ⟨c, -, rfl⟩ := List.mem_map.1 hsym
  exact Alphabet.chars.over_literal c [c.toNat] rfl _ (List.mem_singleton_self _)

theorem proper_ofEncoded (enc : Encoding) {bs : List Nat} (hbs : ∀ b ∈ bs, b ≤ 0xFF) :
    (ofEncoded enc bs).Proper := by
  have hrow : row (fun _ => 1) bs = bs.map some := List.map_eq_flatMap.symm
  rw [ofEncoded, ← hrow]
  exact proper_row (fun _ => Nat.one_pos) hbs fun sym => rfl

theorem le_of_mem_encodeLossy (enc : Encoding) {cs : List Char} {b : Nat}
    (h : b ∈ enc.encodeLossy cs) : b ≤ 0xFF := by
  obtain ⟨c, -, hb⟩ := List.mem_flatMap.1 h
  cases hc : enc.encode? c with
  | some w =>
    rw [hc] at hb
    exact Encoding.le_of_encode? hc b hb
  | none =>
    rw [hc] at hb
    rw [List.mem_singleton.1 hb]
    decide

theorem Haystack.alphabet_eq {a : Alphabet} {t : Tape} (h : Haystack a t) : t.alphabet = a := by
  cases a <;> cases h <;> rfl

theorem Haystack.proper {a : Alphabet} {t : Tape} (h : Haystack a t) : t.Proper := by
  cases h with
  | text cs =>
    cases a with
    | chars => exact proper_ofChars cs
    | bytes enc => exact proper_ofEncoded enc fun b hb => le_of_mem_encodeLossy enc hb
  | bytes bs hbs =>
    cases a with
    | chars => exact proper_ofChars _
    | bytes enc => exact proper_ofEncoded enc hbs

/-! ## looking back, looking ahead for bytes -/

theorem symbolBefore?_of_blank (hij : i < j) (hsym : t.symbolAt? i = some sym)
    (hblank : ∀ k, i < k → k < j → t.symbolAt? k = none) :
    t.symbolBefore? j = some (i, sym) := by
  induction j, hij using Nat.le_induction with
  | base => rw [Nat.succ_eq_add_one, symbolBefore?, hsym]
  | succ j hij ih =>
    rw [symbolBefore?, hblank j hij (Nat.lt_succ_self j)]
    exact ih fun k hk hkj => hblank k hk (Nat.lt_succ_of_lt hkj)

theorem Holds.symbolBefore? (h : t.Holds i sym j) : t.symbolBefore? j = some (i, sym) :=
  symbolBefore?_of_blank h.lt h.symbol h.blank

theorem Proper.widthOf (ht : t.Proper) (h : t.Holds i sym j) : i + t.widthOf sym = j := by
  have hstep := ht.holds i sym h.symbol
  exact Nat.le_antisymm (hstep.le_of_lt h.place h.lt) (h.le_of_lt hstep.place hstep.lt)

/-- on the way to the next of some bytes there are none of them -/
theorem findAny_spec (syms : List Nat) (hi : i ≤ t.length) :
    i ≤ t.findAny syms i ∧ t.findAny syms i ≤ t.length ∧
      ∀ k, i ≤ k → k < t.findAny syms i → ∀ sym, t.symbolAt? k = some sym → sym ∉ syms := by
  fun_induction t.findAny syms i with
  | case1 i hlt sym hsym hmem =>
    exact ⟨Nat.le_refl i, hi, fun k hk hki => absurd hki (Nat.not_lt_of_le hk)⟩
  | case2 i hlt sym hsym hmem ih =>
    obtain ⟨hle, hlength, hout⟩ := ih hlt
    refine ⟨Nat.le_of_succ_le hle, hlength, fun k hk hkj s hs => ?_⟩
    rcases Nat.eq_or_lt_of_le hk with rfl | hk
    · obtain rfl := Option.some.inj (hsym.symm.trans hs)
      exact fun hin => hmem (List.contains_iff_mem.2 hin)
    · exact hout k hk hkj s hs
  | case3 i hlt hnone ih =>
    obtain ⟨hle, hlength, hout⟩ := ih hlt
    refine ⟨Nat.le_of_succ_le hle, hlength, fun k hk hkj s hs => ?_⟩
    rcases Nat.eq_or_lt_of_le hk with rfl | hk
    · exact absurd (hnone.symm.trans hs) (Option.some_ne_none _).symm
    · exact hout k hk hkj s hs
  | case4 i hge =>
    exact ⟨hi, Nat.le_refl _, fun k hk hkj s hs =>
      absurd (lt_length_of_symbolAt? hs) fun hlt => hge (Nat.lt_of_le_of_lt hk hlt)⟩

end Tape

/-! ## cursors -/

namespace Cursor

variable {c : Cursor} {i j sym : Nat}

def Ahead : Cursor → Prop
  | .onTape _ _ => True
  | .reversed _ => False
  | .lent c => c.Ahead

theorem moveTo_moveTo (c : Cursor) (i j : Nat) : (c.moveTo i).moveTo j = c.moveTo j := by
  induction c with
  | onTape t p => rfl
  | reversed c ih => exact congrArg reversed ih
  | lent c ih => exact congrArg lent ih

theorem length_moveTo (c : Cursor) (i : Nat) : (c.moveTo i).length = c.length := by
  rw [length_eq, tape_moveTo, length_eq]

theorem position_moveTo_le (c : Cursor) (i : Nat) :
    (c.moveTo i).position ≤ (c.moveTo i).length := by
  rw [position_moveTo, length_moveTo]
  exact Nat.min_le_right _ _

theorem position_moveTo_of_le (hi : i ≤ c.tape.length) : (c.moveTo i).position = i := by
  rw [position_moveTo, length_eq, Nat.min_eq_left hi]

section
variable (hc : c.Ahead)
include hc

theorem finished_moveTo (hi : i ≤ c.tape.length) :
    (c.moveTo i).finished = decide (i = c.tape.length) := by
  have hfin : (c.moveTo i).finished = decide ((c.moveTo i).length ≤ (c.moveTo i).position) := by
    cases c with
    | onTape t p => rfl
    | reversed c => exact hc.elim
    | lent c => rfl
  rw [hfin, length_moveTo, position_moveTo_of_le hi, length_eq]
  exact decide_eq_decide.2 ⟨Nat.le_antisymm hi, fun h => Nat.le_of_eq h.symm⟩

/-- reading moves a cursor to the next place -/
theorem next_moveTo (ht : c.tape.Proper) (h : c.tape.Holds i sym j) :
    (c.moveTo i).next = (some sym, c.moveTo j) := by
  induction c with
  | onTape t p =>
    have hi : min i t.length = i := Nat.min_eq_left h.isPlace.le_length
    have hj : min j t.length = j := Nat.min_eq_left h.place.le_length
    have hsym : t.symbolAt? i = some sym := h.symbol
    have hwidth : i + t.widthOf sym = j := Tape.Proper.widthOf ht h
    rw [next, moveTo, moveTo, hi, hj, read, if_pos rfl, hsym]
    show (some sym, onTape t (i + t.widthOf sym)) = _
    rw [hwidth]
  | reversed c => exact hc.elim
  | lent c ih =>
    have hnext : (c.moveTo i).next = (some sym, c.moveTo j) := ih hc ht h
    show (lent (c.moveTo i)).next = _
    rw [next_lent, hnext]
    rfl

theorem next_moveTo_length :
    (c.moveTo c.tape.length).next = (none, c.moveTo c.tape.length) := by
  induction c with
  | onTape t p =>
    have hnone : t.symbolAt? t.length = none := Tape.symbolAt?_of_length_le (Nat.le_refl _)
    show (onTape t (min t.length t.length)).next = (none, onTape t (min t.length t.length))
    rw [Nat.min_self, next, read, if_pos rfl, hnone]
  | reversed c => exact hc.elim
  | lent c ih =>
    have hnext := ih hc
    show (lent (c.moveTo c.tape.length)).next = _
    rw [next_lent, hnext]
    rfl

theorem prev_moveTo (h : c.tape.Holds i sym j) :
    (c.moveTo j).prev = (some sym, c.moveTo i) := by
  induction c with
  | onTape t p =>
    have hi : min i t.length = i := Nat.min_eq_left h.isPlace.le_length
    have hj : min j t.length = j := Nat.min_eq_left h.place.le_length
    have hsym : t.symbolBefore? j = some (i, sym) := Tape.Holds.symbolBefore? h
    rw [prev, moveTo, moveTo, hi, hj, read, if_neg Bool.false_ne_true, hsym]
  | reversed c => exact hc.elim
  | lent c ih =>
    have hprev : (c.moveTo j).prev = (some sym, c.moveTo i) := ih hc h
    show (lent (c.moveTo j)).prev = _
    rw [prev_lent, hprev]
    rfl

theorem skipToAny_moveTo (hbytes : c.tape.alphabet.isBytes = true) {needles : List Nat}
    (hne : needles ≠ []) (hlen : needles.length ≤ maxNeedles) (hi : i ≤ c.tape.length) :
    (c.moveTo i).skipToAny needles = c.moveTo (c.tape.findAny needles i) := by
  induction c with
  | onTape t p =>
    have hle : t.findAny needles i ≤ t.length := (Tape.findAny_spec needles hi).2.1
    have hmin : min i t.length = i := Nat.min_eq_left hi
    have hnot : ¬ (needles.isEmpty || !t.alphabet.isBytes) = true := by
      rw [Bool.or_eq_true, List.isEmpty_iff, Bool.not_eq_true']
      exact not_or.2 ⟨hne, fun h => Bool.false_ne_true (h.symm.trans hbytes)⟩
    rw [moveTo, hmin, skipToAny, if_neg hnot, List.take_of_length_le hlen]
    show _ = onTape t (min (t.findAny needles i) t.length)
    rw [Nat.min_eq_left hle]
  | reversed c => exact hc.elim
  | lent c ih => exact congrArg lent (ih hc hbytes hi)

end

end Cursor
end SpanSearch
