import SpanSearch.Proofs.Carrying
import SpanSearch.Proofs.Matching
import SpanSearch.Proofs.Offsets

/-!
# Latin-1 and characters

A text of characters up to `0xFF` is searched in Latin-1, one cell for each character, or as
characters, which cover as many cells as their encoding in UTF-8 has bytes.

* `Tape.shifts_latin1`     the two tapes have the same symbols
* `Pattern.carries_latin1` patterns find the same matches with the same captures
* `Pattern.latin1_matchers_agree`  their matchers give the same answers to all operations
-/

namespace SpanSearch

namespace Tape

variable {cs : List Char} {i j k : Nat}

theorem ofText_latin1 (hcs : ∀ c ∈ cs, c.toNat ≤ 0xFF) :
    ofText (.bytes .latin1) cs = ofEncoded .latin1 (cs.map Char.toNat) := by
  refine congrArg (ofEncoded .latin1) ?_
  rw [List.map_eq_flatMap]
  refine List.flatMap_congr fun c hc => ?_
  rw [Encoding.encode?, if_pos (hcs c hc)]
  rfl

/-- every character is one byte, so that all positions are places -/
theorem isPlace_latin1 (hcs : ∀ c ∈ cs, c.toNat ≤ 0xFF) :
    (ofText (.bytes .latin1) cs).IsPlace i ↔ i ≤ cs.length := by
  rw [ofText_latin1 hcs, isPlace_ofEncoded, List.length_map]

/-- on the tape of characters the symbols are those of Latin-1, each of them at the offset of its
character -/
theorem shifts_latin1 (hcs : ∀ c ∈ cs, c.toNat ≤ 0xFF) :
    Shifts (offset cs) (ofText (.bytes .latin1) cs) (ofText .chars cs) where
  mono := strictMono_offset cs
  proper := (Haystack.text cs).proper
  proper' := (Haystack.text cs).proper
  places k' :=
    isPlace_ofChars.trans (exists_congr fun _ => and_congr_left' (isPlace_latin1 hcs).symm)
  holds i sym j h := by
    rw [ofText_latin1 hcs] at h
    have hsym := (symbolAt?_ofEncoded .latin1 (cs.map Char.toNat) i).symm.trans h.symbol
    have hlt := (List.getElem?_eq_some_iff.1 hsym).1
    have hj : j = i + 1 := Nat.le_antisymm
      (h.le_of_lt (isPlace_ofEncoded.2 hlt) (Nat.lt_succ_self i)) h.lt
    rw [hj]
    exact holds_ofChars hsym

theorem symbolsIn_latin1 (hcs : ∀ c ∈ cs, c.toNat ≤ 0xFF) (i j : Nat) :
    (ofText .chars cs).symbolsIn (offset cs i) (offset cs j) =
      (ofText (.bytes .latin1) cs).symbolsIn i j := by
  have hshifts := shifts_latin1 hcs
  have hplace (k : Nat) : (ofText (.bytes .latin1) cs).IsPlace
      (min k (ofText (.bytes .latin1) cs).length) := by
    rw [ofText_latin1 hcs, isPlace_ofEncoded, length_ofEncoded]
    exact Nat.min_le_right _ _
  rw [← symbolsIn_min, ← hshifts.length, ← hshifts.mono.monotone.map_min,
    ← hshifts.mono.monotone.map_min, ← symbolsIn_min (ofText (.bytes .latin1) cs) i j]
  rcases Nat.le_total (min i (ofText (.bytes .latin1) cs).length)
    (min j (ofText (.bytes .latin1) cs).length) with hij | hji
  · exact hshifts.symbolsIn (hplace i) (hplace j) hij
  · rw [symbolsIn_of_le _ hji, symbolsIn_of_le _ (hshifts.mono.monotone hji)]

theorem slice_latin1 (hcs : ∀ c ∈ cs, c.toNat ≤ 0xFF) (i j : Nat) :
    (ofText .chars cs).slice (offset cs i) (offset cs j) =
      (ofText (.bytes .latin1) cs).slice i j := by
  rw [slice, slice, symbolsIn_latin1 hcs]
  rfl

end Tape

namespace Pattern

open Search

variable {e : Expr} {p q : Pattern}

/-- patterns for Latin-1 and for characters, in a text of characters up to `0xFF`: they find the
same matches with the same captures -/
theorem carries_latin1 (ht : e.Textual) (hmode : q.mode = p.mode)
    (hclips : (e.words (.bytes .latin1)).Nonempty →
      ∃ role, Graph.Clips maxByte role p.tracer.graph q.tracer.graph)
    {cs : List Char} (hcs : ∀ c ∈ cs, c.toNat ≤ 0xFF) {c c' : Cursor} (hc : c.Ahead)
    (hc' : c'.Ahead) (htape : c.tape = Tape.ofText (.bytes .latin1) cs)
    (htape' : c'.tape = Tape.ofText .chars cs) :
    Carries (Tape.offset cs) (e.words (.bytes .latin1)) (e.words .chars) p q c c' where
  mode := hmode
  tape := by
    rw [htape, htape']
    exact Tape.shifts_latin1 hcs
  slice i j := by
    rw [Cursor.slice, Cursor.slice, htape, htape']
    exact Tape.slice_latin1 hcs i j
  words := by
    rw [htape]
    exact e.agree_latin1 ht
  trace s hs := by
    obtain ⟨role, hclips⟩ := hclips ⟨_, hs.word⟩
    have hshifts : Tape.Shifts (Tape.offset cs) c.tape c'.tape := by
      rw [htape, htape']
      exact Tape.shifts_latin1 hcs
    refine Tracer.trace_shift hc hc' hclips hshifts ?_ hs.start hs.stop hs.le
    rw [htape]
    exact Nat.le_refl _

/-- in a text of characters up to `0xFF` matchers of a pattern of characters answer alike in
Latin-1 and in characters, also if there are characters in the pattern that Latin-1 cannot encode:
every position in the one answer is the number of characters before the position in the other
one -/
theorem latin1_matchers_agree (o : Options) (hv : e.Valid) (ht : e.Textual)
    (hnone : e.assertion? = none) :
    ∃ p q, Pattern.ofExpr { o with alphabet := .bytes .latin1 } e = .ok p ∧
      Pattern.ofExpr { o with alphabet := .chars } e = .ok q ∧
      ∀ cs : List Char, (∀ c ∈ cs, c.toNat ≤ 0xFF) → ∀ c c' : Cursor, c.Ahead → c'.Ahead →
        c.tape = Tape.ofText (.bytes .latin1) cs → c'.tape = Tape.ofText .chars cs →
        c.position ≤ cs.length → c'.position = Tape.offset cs c.position →
        ∀ ops, (q.matcherIn c').answers ops =
          ((p.matcherIn c).answers ops).map (Answer.shift (Tape.offset cs)) := by
  have ht' := (Expr.textual_ordered e).2 ht
  obtain ⟨p, hp, hbuilt⟩ := exists_built_ordered { o with alphabet := .bytes .latin1 } hv hnone
  obtain ⟨q, hq, hbuilt'⟩ := exists_built_ordered { o with alphabet := .chars } hv hnone
  obtain ⟨tr, tr', htracer, htracer', hclips⟩ := Expr.exists_clips ((Expr.valid_ordered e).2 hv)
    (Expr.inOrder_ordered e) ht' ((Expr.assertion?_ordered e).trans hnone)
  obtain rfl := Except.ok.inj (hbuilt.tracer.symm.trans htracer)
  obtain rfl := Except.ok.inj (hbuilt'.tracer.symm.trans htracer')
  refine ⟨p, q, hp, hq, fun cs hcs c c' hc hc' htape htape' hle hposition ops => ?_⟩
  have hplace : c.tape.IsPlace c.position := by
    rw [htape]
    exact (Tape.isPlace_latin1 hcs).2 hle
  have hplace' : c'.tape.IsPlace c'.position := by
    rw [htape', hposition]
    exact Tape.isPlace_ofChars.2 ⟨_, hle, rfl⟩
  have hhaystack : Tape.Haystack (.bytes .latin1) c.tape := htape ▸ .text cs
  have hhaystack' : Tape.Haystack .chars c'.tape := htape' ▸ .text cs
  have hmode : q.mode = p.mode := hbuilt'.mode.trans hbuilt.mode.symm
  rw [matcherIn_answers hp hhaystack (Cursor.position_le hplace),
    matcherIn_answers hq hhaystack' (Cursor.position_le hplace')]
  exact (Tracks.ofSound (hbuilt.sound c hc hhaystack hplace)
    (hbuilt'.sound c' hc' hhaystack' hplace')
    (carries_latin1 ht' hmode hclips hcs hc hc' htape htape') hposition).answers ops

/-- `(é|€|[ð-Ā])a*` in `ÿéa` from behind the first character on, which is one byte in Latin-1 and
two in UTF-8 -/
theorem latin1_matchers_agree_accents :
    let e : Expr :=
      .concat [.group (some 1) (.alt [.char 'é', .char '€', .charClass [(0xF0, 0x100)]]),
      .loop (.char 'a') .zeroOrMore true]
    let cs := ['ÿ', 'é', 'a']
    let c := (Cursor.ofTape (Tape.ofText (.bytes .latin1) cs)).moveTo 1
    let c' := (Cursor.ofTape (Tape.ofText .chars cs)).moveTo 2
    let ops := [.spans none, .reset, .find, .captures, .stopOf 1, .matchWhole, .span]
    ∃ p q, Pattern.ofExpr { mode := .all, alphabet := .bytes .latin1 } e = .ok p ∧
      Pattern.ofExpr { mode := .all, alphabet := .chars } e = .ok q ∧
      (q.matcherIn c').answers ops =
        ((p.matcherIn c).answers ops).map (Answer.shift (Tape.offset cs)) := by
  obtain ⟨p, q, hp, hq, hanswers⟩ := latin1_matchers_agree { mode := .all }
    (e := .concat [.group (some 1) (.alt [.char 'é', .char '€', .charClass [(0xF0, 0x100)]]),
      .loop (.char 'a') .zeroOrMore true])
    (by simp [Expr.Valid, Expr.ValidAll]) (by simp [Expr.Textual, Expr.TextualAll]) rfl
  refine ⟨p, q, hp, hq, hanswers ['ÿ', 'é', 'a'] ?_ _ _ ?_ ?_ rfl rfl ?_ ?_ _⟩
  · simp
  · trivial
  · trivial
  · decide
  · decide

end Pattern
end SpanSearch
