import SpanSearch.Proofs.Offsets
import SpanSearch.Proofs.Transcoding

/-!
# Cursors that are moved about

Whatever is asked of a cursor on a text or on bytes, it stands where a symbol begins or at the end,
as long as it is only sent to where it has been, or to the end and beyond.  Reading back is the
inverse of reading.

* `Cursor.Operation`, `Cursor.Answer`, `Cursor.perform`   what can be asked of a cursor
* `Tape.cuts`            where a text can be cut in two
* `Cursor.perform?`, `Cursor.after?`   operations that look at the text only where it can be cut
* `Cursor.Permitted`     operations that send a cursor to where it has been
* `Cursor.Reads`         symbols read one after another
* `Cursor.Placed`        cursors that stand in places; `Placed.perform`, `Placed.after?`
* `Cursor.Retraces`      cursors whose way from the beginning can be gone back
* `Cursor.roams_in_places`   where a cursor comes to, and what it reads there
-/

namespace SpanSearch

namespace Tape

variable {t : Tape} {cs : List Char} {enc : Encoding} {pos k : Nat}

/-- whether a text can be cut in two at a position: inside a symbol and behind the end it cannot -/
def cuts (t : Tape) (pos : Nat) : Bool := pos == t.length || (t.symbolAt? pos).isSome

theorem cuts_iff : t.cuts pos = true ↔ t.IsPlace pos := by
  rw [cuts, Bool.or_eq_true, beq_iff_eq, Option.isSome_iff_exists]
  rfl

theorem offset_eq_utf8ByteSize (hk : k ≤ cs.length) :
    offset cs k = (String.ofList (cs.take k)).utf8ByteSize := by
  have hbytes : Encoding.utf8.encodeLossy (cs.take k) =
      (cs.take k).flatMap fun c => Text.Utf8.bytes c.toNat := rfl
  rw [offset_eq_length hk, hbytes, Text.Utf8.flatMap_bytes, List.length_map]
  exact List.size_toByteArray.symm

/-- the places of characters are the positions of the text in the standard library -/
theorem isPlace_ofChars_iff_isValid :
    (ofChars cs).IsPlace pos ↔ (⟨pos⟩ : String.Pos.Raw).IsValid (String.ofList cs) := by
  rw [isPlace_ofChars, String.Pos.Raw.isValid_iff_exists_append]
  constructor
  · rintro ⟨k, hk, rfl⟩
    refine ⟨String.ofList (cs.take k), String.ofList (cs.drop k), ?_, ?_⟩
    · rw [← String.ofList_append, List.take_append_drop]
    · rw [offset_eq_utf8ByteSize hk]
      rfl
  · rintro ⟨s₁, s₂, happend, hpos⟩
    have hcs : cs = s₁.toList ++ s₂.toList := by
      rw [← String.toList_append, ← happend, String.toList_ofList]
    have hk : s₁.toList.length ≤ cs.length := by
      rw [hcs, List.length_append]
      exact Nat.le_add_right _ _
    refine ⟨s₁.toList.length, hk, ?_⟩
    rw [offset_eq_utf8ByteSize hk, hcs, List.take_left, String.ofList_toList]
    exact (congrArg String.Pos.Raw.byteIdx hpos).symm

theorem Haystack.isPlace_of_le (h : Haystack (.bytes enc) t) (hpos : pos ≤ t.length) :
    t.IsPlace pos := by
  cases h with
  | text cs => exact isPlace_ofEncoded.2 (length_ofEncoded enc _ ▸ hpos)
  | bytes bs _ => exact isPlace_ofEncoded.2 (length_ofEncoded enc _ ▸ hpos)

theorem Haystack.isPlace_findAny {a : Alphabet} (h : Haystack a t) (hbytes : a.isBytes = true)
    (needles : List Nat) (hpos : pos ≤ t.length) : t.IsPlace (t.findAny needles pos) := by
  cases a with
  | chars => exact absurd hbytes Bool.false_ne_true
  | bytes enc => exact h.isPlace_of_le (findAny_spec needles hpos).2.1

end Tape

namespace Cursor

/-! ## what can be asked of a cursor -/

inductive Operation where
  | next
  | prev
  | current
  | moveTo (pos : Nat)
  | length
  | isEmpty
  | finished
  | finish
  | slice (start stop : Nat)
  | skipToAny (needles : List Nat)
  deriving DecidableEq, Repr

inductive Answer where
  | symbol (sym : Option Nat)
  | position (pos : Nat)
  | flag (yes : Bool)
  | text (s : String)
  | done
  deriving DecidableEq, Repr

/-- the answer to one operation, and the cursor behind it -/
def perform (c : Cursor) : Operation → Answer × Cursor
  | .next => (.symbol c.next.1, c.next.2)
  | .prev => (.symbol c.prev.1, c.prev.2)
  | .current => (.position c.position, c)
  | .moveTo pos => (.done, c.moveTo pos)
  | .length => (.position c.length, c)
  | .isEmpty => (.flag c.isEmpty, c)
  | .finished => (.flag c.finished, c)
  | .finish => (.done, c.finish)
  | .slice start stop => (.text (c.slice start stop), c)
  | .skipToAny needles => (.done, c.skipToAny needles)

/-- whether an operation can look at the text as it means to.  Reading and skipping look at it from
the cursor on or back from there, and a slice is what lies between two positions. -/
def Operation.looksWell (t : Tape) (pos : Nat) : Operation → Bool
  | .next => t.cuts pos
  | .prev => t.cuts pos
  | .skipToAny _ => t.cuts pos
  | .slice start stop => t.cuts start && t.cuts stop && decide (start ≤ stop)
  | _ => true

/-- one operation, unless it looks at the text where that cannot be cut -/
def perform? (c : Cursor) (op : Operation) : Option (Answer × Cursor) :=
  if op.looksWell c.tape c.position then some (c.perform op) else none

def after? (c : Cursor) : List Operation → Option Cursor
  | [] => some c
  | op :: ops => (c.perform? op).bind fun r => r.2.after? ops

/-- a cursor is sent to positions that it has reported, or to the end and beyond; slices lie between
positions that it has reported -/
def Operation.Permitted (seen : List Nat) (length : Nat) : Operation → Prop
  | .moveTo pos => pos ∈ seen ∨ length ≤ pos
  | .slice start stop => start ∈ seen ∧ stop ∈ seen ∧ start ≤ stop
  | _ => True

/-- so are operations in a row, where the position behind each of them is reported -/
def Permitted (seen : List Nat) (c : Cursor) : List Operation → Prop
  | [] => True
  | op :: ops => op.Permitted seen c.length ∧
    Permitted ((c.perform op).2.position :: seen) (c.perform op).2 ops

instance (seen : List Nat) (length : Nat) : DecidablePred (Operation.Permitted seen length)
  | .moveTo _ => inferInstanceAs (Decidable (_ ∨ _))
  | .slice _ _ => inferInstanceAs (Decidable (_ ∧ _ ∧ _))
  | .next | .prev | .current | .length | .isEmpty | .finished | .finish | .skipToAny _ =>
    .isTrue trivial

instance decidablePermitted (seen : List Nat) (c : Cursor) :
    (ops : List Operation) → Decidable (Permitted seen c ops)
  | [] => .isTrue trivial
  | _ :: ops => @instDecidableAnd _ _ inferInstance (decidablePermitted _ _ ops)

/-! ## symbols one after another -/

/-- symbols that are read one after another on the way from one cursor to another one -/
inductive Reads (read : Cursor → Option Nat × Cursor) : Cursor → List Nat → Cursor → Prop
  | nil (c : Cursor) : Reads read c [] c
  | cons {c d b : Cursor} {sym : Nat} {w : List Nat} :
      read c = (some sym, d) → Reads read d w b → Reads read c (sym :: w) b

variable {read back : Cursor → Option Nat × Cursor} {t : Tape} {a : Alphabet} {b c d : Cursor}
  {i j pos sym : Nat} {v w : List Nat} {seen : List Nat} {op : Operation}

theorem Reads.snoc (h : Reads read c w d) (hd : read d = (some sym, b)) :
    Reads read c (w ++ [sym]) b := by
  induction h with
  | nil c => exact .cons hd (.nil b)
  | cons hc _ ih => exact .cons hc (ih hd)

theorem Reads.mirror {P : Cursor → Prop}
    (hback : ∀ c sym d, P c → read c = (some sym, d) → P d ∧ back d = (some sym, c))
    (hc : P c) (h : Reads read c w d) : Reads back d w.reverse c := by
  induction h with
  | nil c => exact .nil c
  | cons hread _ ih =>
    obtain ⟨hd, hstep⟩ := hback _ _ _ hc hread
    rw [List.reverse_cons]
    exact (ih hd).snoc hstep

/-- a view that reads backwards reads what the cursor below reads back -/
theorem reads_next_reversed : Reads next (reversed c) w (reversed d) ↔ Reads prev c w d := by
  constructor
  · intro h
    generalize hc : reversed c = c' at h
    generalize hd : reversed d = d' at h
    induction h generalizing c with
    | nil c' =>
      obtain rfl := reversed.inj (hc.trans hd.symm)
      exact .nil c
    | cons hread _ ih =>
      subst hc
      rw [next_reversed] at hread
      obtain ⟨hsym, rfl⟩ := Prod.mk.inj hread
      exact .cons (Prod.ext hsym rfl) (ih rfl hd)
  · intro h
    induction h with
    | nil c => exact .nil _
    | cons hread _ ih => exact .cons (by rw [next_reversed, hread]) ih

/-! ## cursors in places -/

/-- on a tape, where a symbol begins or at the end -/
inductive Placed (t : Tape) : Cursor → Prop
  | mk (i : Nat) : t.IsPlace i → Placed t (onTape t i)

theorem Placed.tape_eq (hc : Placed t c) : c.tape = t := by
  cases hc
  rfl

theorem Placed.isPlace (hc : Placed t c) : t.IsPlace c.position := by
  cases hc with
  | mk i hi => exact hi

theorem placed_ofTape (ht : t.Proper) : Placed t (ofTape t) := .mk 0 ht.first

theorem next_onTape (ht : t.Proper) (h : t.Holds i sym j) :
    (onTape t i).next = (some sym, onTape t j) := by
  rw [next, Cursor.read, if_pos rfl, h.symbol]
  exact congrArg (fun pos => (some sym, onTape t pos)) (ht.widthOf h)

theorem next_onTape_length (t : Tape) :
    (onTape t t.length).next = (none, onTape t t.length) := by
  rw [next, Cursor.read, if_pos rfl, Tape.symbolAt?_of_length_le (Nat.le_refl _)]

theorem prev_onTape (h : t.Holds i sym j) : (onTape t j).prev = (some sym, onTape t i) := by
  rw [prev, Cursor.read, if_neg Bool.false_ne_true, h.symbolBefore?]

theorem prev_onTape_zero (t : Tape) : (onTape t 0).prev = (none, onTape t 0) := rfl

theorem Placed.next_cases (ht : t.Proper) (hc : Placed t c) :
    (c = onTape t t.length ∧ c.next = (none, c)) ∨
      ∃ i sym j, t.Holds i sym j ∧ c = onTape t i ∧ c.next = (some sym, onTape t j) := by
  cases hc with
  | mk i hi =>
    rcases Nat.eq_or_lt_of_le hi.le_length with rfl | hlt
    · exact .inl ⟨rfl, next_onTape_length t⟩
    · obtain ⟨sym, j, hholds, -⟩ := ht.exists_holds hi hlt
      exact .inr ⟨i, sym, j, hholds, rfl, next_onTape ht hholds⟩

theorem Placed.prev_cases (ht : t.Proper) (hc : Placed t c) :
    (c = onTape t 0 ∧ c.prev = (none, c)) ∨
      ∃ i sym j, t.Holds i sym j ∧ c = onTape t j ∧ c.prev = (some sym, onTape t i) := by
  cases hc with
  | mk j hj =>
    rcases Nat.eq_zero_or_pos j with rfl | hpos
    · exact .inl ⟨rfl, prev_onTape_zero t⟩
    · obtain ⟨i, sym, hholds, -⟩ := ht.exists_holds_to hj hpos
      exact .inr ⟨i, sym, j, hholds, rfl, prev_onTape hholds⟩

theorem Placed.prev_of_next (ht : t.Proper) (hc : Placed t c) (h : c.next = (some sym, d)) :
    Placed t d ∧ d.prev = (some sym, c) := by
  rcases hc.next_cases ht with ⟨-, hnone⟩ | ⟨i, s, j, hholds, rfl, hsome⟩
  · exact absurd (Prod.mk.inj (h.symm.trans hnone)).1 (Option.some_ne_none sym)
  · obtain ⟨hsym, rfl⟩ := Prod.mk.inj (hsome.symm.trans h)
    rw [← hsym]
    exact ⟨.mk j hholds.place, prev_onTape hholds⟩

theorem Placed.next_of_prev (ht : t.Proper) (hc : Placed t c) (h : c.prev = (some sym, d)) :
    Placed t d ∧ d.next = (some sym, c) := by
  rcases hc.prev_cases ht with ⟨-, hnone⟩ | ⟨i, s, j, hholds, rfl, hsome⟩
  · exact absurd (Prod.mk.inj (h.symm.trans hnone)).1 (Option.some_ne_none sym)
  · obtain ⟨hsym, rfl⟩ := Prod.mk.inj (hsome.symm.trans h)
    rw [← hsym]
    exact ⟨.mk i hholds.isPlace, next_onTape ht hholds⟩

/-! ## one operation, and operations in a row -/

theorem Placed.next (ht : t.Proper) (hc : Placed t c) : Placed t c.next.2 := by
  rcases hc.next_cases ht with ⟨-, hnone⟩ | ⟨i, s, j, hholds, -, hsome⟩
  · rw [hnone]
    exact hc
  · rw [hsome]
    exact .mk j hholds.place

theorem Placed.prev (ht : t.Proper) (hc : Placed t c) : Placed t c.prev.2 := by
  rcases hc.prev_cases ht with ⟨-, hnone⟩ | ⟨i, s, j, hholds, -, hsome⟩
  · rw [hnone]
    exact hc
  · rw [hsome]
    exact .mk i hholds.isPlace

theorem Placed.moveTo (hc : Placed t c) (hpos : t.IsPlace pos ∨ t.length ≤ pos) :
    Placed t (c.moveTo pos) := by
  cases hc with
  | mk i hi =>
    refine .mk (min pos t.length) ?_
    rcases hpos with hplace | hle
    · rw [Nat.min_eq_left hplace.le_length]
      exact hplace
    · rw [Nat.min_eq_right hle]
      exact t.isPlace_length

theorem Placed.skipToAny (ht : Tape.Haystack a t) (hc : Placed t c) (needles : List Nat) :
    Placed t (c.skipToAny needles) := by
  cases hc with
  | mk i hi =>
    rw [Cursor.skipToAny]
    split
    · exact .mk i hi
    · next hlook =>
      rw [Bool.or_eq_true, Bool.not_eq_true', not_or, Bool.not_eq_false, ht.alphabet_eq] at hlook
      exact .mk _ (ht.isPlace_findAny hlook.2 _ hi.le_length)

/-- a permitted operation looks at the text where it can be cut, and leaves the cursor in a place -/
theorem Placed.perform (ht : Tape.Haystack a t) (hc : Placed t c)
    (hseen : ∀ pos ∈ seen, t.IsPlace pos) (hop : op.Permitted seen c.length) :
    c.perform? op = some (c.perform op) ∧ Placed t (c.perform op).2 := by
  have hcuts : t.cuts c.position = true := Tape.cuts_iff.2 hc.isPlace
  have hlooks (h : op.looksWell t c.position = true) : c.perform? op = some (c.perform op) :=
    if_pos (hc.tape_eq.symm ▸ h)
  cases op with
  | next => exact ⟨hlooks hcuts, hc.next ht.proper⟩
  | prev => exact ⟨hlooks hcuts, hc.prev ht.proper⟩
  | skipToAny needles => exact ⟨hlooks hcuts, hc.skipToAny ht needles⟩
  | slice start stop =>
    obtain ⟨hstart, hstop, hle⟩ := hop
    refine ⟨hlooks ?_, hc⟩
    rw [Operation.looksWell, Tape.cuts_iff.2 (hseen _ hstart), Tape.cuts_iff.2 (hseen _ hstop),
      decide_eq_true hle]
    rfl
  | moveTo pos =>
    refine ⟨hlooks rfl, hc.moveTo (hop.imp (hseen pos) fun hle => ?_)⟩
    rwa [length_eq, hc.tape_eq] at hle
  | finish =>
    refine ⟨hlooks rfl, ?_⟩
    have hfinish : c.finish = c.moveTo c.length := by
      cases hc
      rfl
    rw [Cursor.perform, hfinish]
    refine hc.moveTo (.inr ?_)
    rw [length_eq, hc.tape_eq]
  | current => exact ⟨hlooks rfl, hc⟩
  | length => exact ⟨hlooks rfl, hc⟩
  | isEmpty => exact ⟨hlooks rfl, hc⟩
  | finished => exact ⟨hlooks rfl, hc⟩

/-- permitted operations in a row do not fail, and lead from place to place -/
theorem Placed.after? (ht : Tape.Haystack a t) {ops : List Operation} (hc : Placed t c)
    (hseen : ∀ pos ∈ seen, t.IsPlace pos) (hops : Permitted seen c ops) :
    ∃ d, c.after? ops = some d ∧ Placed t d := by
  induction ops generalizing c seen with
  | nil => exact ⟨c, rfl, hc⟩
  | cons op ops ih =>
    obtain ⟨hop, hops⟩ := hops
    obtain ⟨hsome, hplaced⟩ := hc.perform ht hseen hop
    rw [Cursor.after?, hsome]
    exact ih hplaced (List.forall_mem_cons.2 ⟨hplaced.isPlace, hseen⟩) hops

/-! ## the way from the beginning and back -/

theorem Reads.eq_symbolsIn (ht : t.Proper) (hc : Placed t c) (h : Reads Cursor.next c w d) :
    c.position ≤ d.position ∧ w = t.symbolsIn c.position d.position := by
  induction h with
  | nil c => exact ⟨Nat.le_refl _, (t.symbolsIn_self _).symm⟩
  | @cons c d b sym w hread _ ih =>
    rcases hc.next_cases ht with ⟨-, hnone⟩ | ⟨i, s, j, hholds, rfl, hsome⟩
    · exact absurd (Prod.mk.inj (hread.symm.trans hnone)).1 (Option.some_ne_none sym)
    · obtain ⟨hsym, rfl⟩ := Prod.mk.inj (hsome.symm.trans hread)
      obtain ⟨hle, rfl⟩ := ih (.mk j hholds.place)
      obtain rfl := Option.some.inj hsym
      exact ⟨Nat.le_of_lt (Nat.lt_of_lt_of_le hholds.lt hle), (hholds.symbolsIn_right hle).symm⟩

theorem reads_symbolsIn (ht : t.Proper) (hi : t.IsPlace i) (hj : t.IsPlace j) (hij : i ≤ j) :
    Reads Cursor.next (onTape t i) (t.symbolsIn i j) (onTape t j) := by
  induction j using Nat.strong_induction_on with
  | _ j ih =>
    rcases Nat.eq_or_lt_of_le hij with rfl | hlt
    · rw [Tape.symbolsIn_self]
      exact .nil _
    · obtain ⟨k, sym, hholds, -⟩ := ht.exists_holds_to hj (Nat.zero_lt_of_lt hlt)
      have hik := hholds.le_of_lt' hi hlt
      rw [hholds.symbolsIn_left hik]
      exact (ih k hholds.lt hholds.isPlace hik).snoc (next_onTape ht hholds)

theorem reads_next_iff (ht : t.Proper) (hi : t.IsPlace i) (hj : t.IsPlace j) (hij : i ≤ j) :
    Reads Cursor.next (onTape t i) w (onTape t j) ↔ w = t.symbolsIn i j := by
  constructor
  · intro h
    exact (h.eq_symbolsIn ht (.mk i hi)).2
  · rintro rfl
    exact reads_symbolsIn ht hi hj hij

theorem reads_prev_iff (ht : t.Proper) (hi : t.IsPlace i) (hj : t.IsPlace j) (hij : i ≤ j) :
    Reads Cursor.prev (onTape t j) w (onTape t i) ↔ w = (t.symbolsIn i j).reverse := by
  rw [← List.reverse_eq_iff, ← reads_next_iff ht hi hj hij]
  constructor
  · exact Reads.mirror (P := Placed t) (fun c sym d hc => hc.next_of_prev ht) (.mk j hj)
  · intro h
    rw [← List.reverse_reverse w]
    exact h.mirror (P := Placed t) (fun c sym d hc => hc.prev_of_next ht) (.mk i hi)

/-- a cursor whose way from the beginning can be gone back -/
structure Retraces (t : Tape) (c : Cursor) : Prop where
  prev_of_next : ∀ sym d, c.next = (some sym, d) → d.prev = (some sym, c)
  next_of_prev : ∀ sym d, c.prev = (some sym, d) → d.next = (some sym, c)
  reads_next : ∀ w, Reads Cursor.next (ofTape t) w c ↔ w = t.symbolsIn 0 c.position
  reads_prev : ∀ w, Reads Cursor.prev c w (ofTape t) ↔ w = (t.symbolsIn 0 c.position).reverse
  reads_reversed : ∀ w, Reads Cursor.next (reversed c) w (reversed (ofTape t)) ↔
    w = (t.symbolsIn 0 c.position).reverse

theorem Placed.retraces (ht : t.Proper) (hc : Placed t c) : Retraces t c := by
  have hprev (w : List Nat) : Reads Cursor.prev c w (ofTape t) ↔
      w = (t.symbolsIn 0 c.position).reverse := by
    cases hc with
    | mk i hi => exact reads_prev_iff ht ht.first hi (Nat.zero_le i)
  refine ⟨?_, ?_, ?_, hprev, ?_⟩
  · intro sym d h
    exact (hc.prev_of_next ht h).2
  · intro sym d h
    exact (hc.next_of_prev ht h).2
  · intro w
    cases hc with
    | mk i hi => exact reads_next_iff ht ht.first hi (Nat.zero_le i)
  · intro w
    rw [reads_next_reversed, hprev]

/-- Permitted operations look at the text only where it can be cut.  They leave the cursor where a
symbol begins or at the end, for characters in the sense of the standard library; reading there and
reading back are inverse to each other, and the way back to the beginning, where nothing is left to
read back, shows the symbols of the way from there, the last one first. -/
theorem roams_in_places (ht : Tape.Haystack a t) {ops : List Operation}
    (hops : Permitted [0] (ofTape t) ops) :
    ∃ c, (ofTape t).after? ops = some c ∧ t.IsPlace c.position ∧ c.position ≤ t.length ∧
      (∀ cs, t = Tape.ofChars cs → (⟨c.position⟩ : String.Pos.Raw).IsValid (String.ofList cs)) ∧
      Retraces t c ∧ (ofTape t).prev = (none, ofTape t) := by
  have hseen : ∀ pos ∈ [0], t.IsPlace pos := by
    intro pos hpos
    rw [List.mem_singleton.1 hpos]
    exact ht.proper.first
  obtain ⟨c, hafter, hc⟩ := (placed_ofTape ht.proper).after? ht hseen hops
  refine ⟨c, hafter, hc.isPlace, hc.isPlace.le_length, ?_, hc.retraces ht.proper,
    prev_onTape_zero t⟩
  rintro cs rfl
  exact Tape.isPlace_ofChars_iff_isValid.1 hc.isPlace

/-- between `a` and `é`, which is two bytes long: one byte from the beginning and two from the
end -/
theorem roams_in_places_accent :
    let t := Tape.ofText .chars ['a', 'é']
    let ops : List Operation := [.next, .skipToAny [0xA9], .moveTo 7, .slice 0 1, .prev]
    Tape.Haystack .chars t ∧ Permitted [0] (ofTape t) ops ∧
      (ofTape t).after? ops = some (onTape t 1) ∧ Retraces t (onTape t 1) := by
  intro t ops
  have ht : Tape.Haystack .chars t := .text _
  have hops : Permitted [0] (ofTape t) ops := by decide
  have hafter : (ofTape t).after? ops = some (onTape t 1) := rfl
  obtain ⟨c, hc, -, -, -, hretraces, -⟩ := roams_in_places ht hops
  obtain rfl := Option.some.inj (hafter.symm.trans hc)
  exact ⟨ht, hops, hafter, hretraces⟩

end Cursor
end SpanSearch
