import SpanSearch.Proofs.Delivering
import SpanSearch.Proofs.Offsets
import SpanSearch.Proofs.Sifting

/-!
# Matches in the bytes and in the characters of a text

A match in the bytes of a text begins and ends where characters do, unless it is empty.  Patterns
of characters report the same matches over both alphabets, apart from empty ones inside of a
character.

* `Tape.spells_spelled`      the matches in the bytes of a text
* `Search.Spelled`           a search in the bytes of a text and a search in its characters
* `Spelled.answers`, `Spelled.yields`   what they find at the origin, and from there on
* `Pattern.utf8_matchers_agree`   matchers of patterns over the two alphabets
-/

namespace SpanSearch

open Ascending

namespace Tape

variable {cs : List Char} {L : Language Nat} {s : Span} {i j k : Nat}

instance (t : Tape) (k : Nat) : Decidable (t.IsPlace k) :=
  decidable_of_iff (k = t.length ∨ (t.symbolAt? k).isSome = true)
    (or_congr_right Option.isSome_iff_exists)

theorem length_utf8 (cs : List Char) :
    (ofText (.bytes .utf8) cs).length = offset cs cs.length := by
  rw [offset_eq_length (Nat.le_refl _), List.take_length]
  exact length_ofEncoded _ _

theorem isPlace_utf8 : (ofText (.bytes .utf8) cs).IsPlace k ↔ k ≤ offset cs cs.length := by
  rw [← length_utf8, ofText, isPlace_ofEncoded, length_ofEncoded]

theorem symbolsIn_utf8 (hij : i ≤ j) :
    (ofText (.bytes .utf8) cs).symbolsIn (offset cs i) (offset cs j) =
      Encoding.utf8.encodeLossy ((cs.drop i).take (j - i)) := by
  have hoffset : offset cs j - offset cs i = offset (cs.drop i) (j - i) := by
    have hadd := offset_add cs i (j - i)
    rw [Nat.add_sub_cancel' hij] at hadd
    omega
  rw [ofText, symbolsIn_ofEncoded, drop_offset, hoffset, take_offset]

/-- a match in the bytes of a text is one of its characters, or it is empty -/
theorem spells_spelled : (ofText (.bytes .utf8) cs).Spells (spelled L) s ↔
    (ofText .chars cs).Spells L s ∨
      s.start = s.stop ∧ s.stop ≤ offset cs cs.length ∧ [] ∈ L := by
  obtain ⟨start, stop⟩ := s
  constructor
  · rintro ⟨-, hstop, hle, ds, hds, hspell⟩
    rw [isPlace_utf8] at hstop
    dsimp only at hstop hle hspell ⊢
    rw [ofText, symbolsIn_ofEncoded] at hspell
    have hlength : (Encoding.utf8.encodeLossy ds).length = stop - start := by
      rw [offset_eq_length (Nat.le_refl _), List.take_length] at hstop
      rw [hspell, List.length_take, List.length_drop]
      exact Nat.min_eq_left (Nat.sub_le_sub_right hstop start)
    by_cases hne : ds = []
    · subst hne
      have hzero : 0 = stop - start := hlength
      exact .inr ⟨by omega, hstop, hds⟩
    · have hparts := (List.take_append_drop (stop - start)
        ((Encoding.utf8.encodeLossy cs).drop start)).symm
      rw [← hspell] at hparts
      obtain ⟨k, rfl, hoffset, htake, hk⟩ := exists_offsets hne hparts
      have hend : offset cs (k + ds.length) = stop := by omega
      refine .inl ⟨isPlace_ofChars.2 ⟨k, by omega, rfl⟩, isPlace_ofChars.2 ⟨_, hk, hend⟩, hle, ?_⟩
      show (ofChars cs).symbolsIn (offset cs k) stop ∈ L
      rw [← hend, symbolsIn_ofChars (Nat.le_add_right k _) hk, Nat.add_sub_cancel_left,
        ← List.map_drop, ← List.map_take, htake]
      exact hds
  · rintro (⟨hstart, hstop, hle, hw⟩ | ⟨heq, hle, hnil⟩)
    · obtain ⟨i, hi, rfl⟩ := isPlace_ofChars.1 hstart
      obtain ⟨j, hj, rfl⟩ := isPlace_ofChars.1 hstop
      have hmono := strictMono_offset cs
      have hij := hmono.le_iff_le.1 hle
      refine ⟨isPlace_utf8.2 (hmono.monotone hi), isPlace_utf8.2 (hmono.monotone hj), hle, ?_⟩
      refine ⟨_, ?_, (symbolsIn_utf8 hij).symm⟩
      rw [List.map_take, List.map_drop, ← symbolsIn_ofChars hij hj]
      exact hw
    · obtain rfl : start = stop := heq
      refine ⟨isPlace_utf8.2 hle, isPlace_utf8.2 hle, Nat.le_refl _, ?_⟩
      rw [symbolsIn_self]
      exact nil_mem_spelled.2 hnil

theorem spells_spelled_of_place (hs : (ofText .chars cs).IsPlace s.start) :
    (ofText (.bytes .utf8) cs).Spells (spelled L) s ↔ (ofText .chars cs).Spells L s := by
  refine spells_spelled.trans (or_iff_left_of_imp ?_)
  rintro ⟨heq, -, hnil⟩
  refine ⟨hs, heq ▸ hs, Nat.le_of_eq heq, ?_⟩
  rw [heq, symbolsIn_self]
  exact hnil

/-- where all symbols of a tape are above those of a language, only empty spans match -/
theorem spells_above {t : Tape} {m : Nat} (ht : t.Proper) (hover : Over m L) (hnil : [] ∈ L)
    (habove : ∀ i j, ∀ sym ∈ t.symbolsIn i j, m < sym) :
    t.Spells L s ↔ t.IsPlace s.start ∧ s.start = s.stop := by
  constructor
  · intro hs
    refine ⟨hs.start, Nat.le_antisymm hs.le (Nat.le_of_not_lt fun hlt => ?_)⟩
    obtain ⟨sym, hsym⟩ := List.exists_mem_of_ne_nil _
      (ht.symbolsIn_ne_nil hs.start hs.stop hlt)
    exact Nat.not_le_of_lt (habove _ _ sym hsym) (hover _ hs.word sym hsym)
  · rintro ⟨hstart, heq⟩
    refine ⟨hstart, heq ▸ hstart, Nat.le_of_eq heq, ?_⟩
    rw [heq, symbolsIn_self]
    exact hnil

end Tape

namespace Search

variable {cs : List Char} {L : Language Nat} {m m' : Search}

/-- a search in the bytes of a text and a search in its characters, from where one of these
begins -/
structure Spelled (cs : List Char) (L : Language Nat) (m m' : Search) : Prop where
  bytes : m.input.tape = Tape.ofText (.bytes .utf8) cs
  chars : m'.input.tape = Tape.ofText .chars cs
  origin : m.origin = m'.origin
  mode : m.pattern.mode = m'.pattern.mode
  sound : m.Sound (spelled L)
  sound' : m'.Sound L

theorem Spelled.place (h : Spelled cs L m m') : (Tape.ofText .chars cs).IsPlace m.origin := by
  rw [h.origin, ← h.chars]
  exact h.sound'.place

theorem Spelled.length (h : Spelled cs L m m') : m.input.length = m'.input.length := by
  rw [Cursor.length_eq, Cursor.length_eq, h.bytes, h.chars, Tape.length_utf8, Tape.ofText,
    Tape.length_ofChars]

theorem Spelled.spells (h : Spelled cs L m m') (k : Nat) :
    m.input.tape.Spells (spelled L) ⟨m.origin, k⟩ ↔ m'.input.tape.Spells L ⟨m'.origin, k⟩ := by
  rw [h.bytes, h.chars, ← h.origin]
  exact Tape.spells_spelled_of_place h.place

theorem Spelled.isWhole (h : Spelled cs L m m') : m.isWhole = m'.isWhole := by
  have hlength : m.input.tape.length = m'.input.tape.length := by
    rw [← Cursor.length_eq, ← Cursor.length_eq, h.length]
  rw [Bool.eq_iff_iff, h.sound.isWhole_iff, h.sound'.isWhole_iff, hlength, h.spells]

theorem Spelled.leadingEnds (h : Spelled cs L m m') : m.leadingEnds = m'.leadingEnds := by
  refine eq_of_pairwise_of_mem_iff h.sound.pairwise_leadingEnds h.sound'.pairwise_leadingEnds
    fun k => ?_
  rw [h.sound.mem_leadingEnds, h.sound'.mem_leadingEnds, h.spells]

theorem Spelled.answers (h : Spelled cs L m m') :
    m.answers [.matchWhole, .span, .matchLeading, .span] =
      m'.answers [.matchWhole, .span, .matchLeading, .span] := by
  have hanswers (m : Search) : m.answers [.matchWhole, .span, .matchLeading, .span] =
      let stop := if m.pattern.mode.prefersLongest then m.leadingEnds.getLast?
        else m.leadingEnds.head?
      [.flag m.isWhole, .span (if m.isWhole then some ⟨m.origin, m.input.length⟩ else none),
        .flag stop.isSome, .span (stop.map fun k => ⟨m.origin, k⟩)] := rfl
  rw [hanswers, hanswers, h.isWhole, h.leadingEnds, h.origin, h.length, h.mode]

/-- a span that matches in the bytes is one of characters, or an empty one inside of a
character -/
theorem Spelled.boundaries (h : Spelled cs L m m') {s : Span}
    (hs : m.input.tape.Spells (spelled L) s) :
    m'.input.tape.IsPlace s.start ∧ m'.input.tape.IsPlace s.stop ∨
      ¬ m'.input.tape.IsPlace s.start ∧ s.start = s.stop := by
  rw [h.bytes] at hs
  rw [h.chars]
  by_cases hplace : (Tape.ofText .chars cs).IsPlace s.start
  · have hchars := (Tape.spells_spelled_of_place hplace).1 hs
    exact .inl ⟨hplace, hchars.stop⟩
  · exact .inr ⟨hplace, ((Tape.spells_spelled.1 hs).resolve_left fun h => hplace h.start).1⟩

/-- calls of `find` report the same spans, apart from empty ones inside of a character -/
theorem Spelled.yields (h : Spelled cs L m m') : ∃ spans, m.reset.Yields spans ∧
    m'.reset.Yields (spans.filter fun s => m'.input.tape.IsPlace s.start) ∧
    ∀ s ∈ spans, m'.input.tape.IsPlace s.start ∧ m'.input.tape.IsPlace s.stop ∨
      ¬ m'.input.tape.IsPlace s.start ∧ s.start = s.stop := by
  obtain ⟨ms, hsorted, hms, -⟩ := m.input.tape.exists_matches (spelled L) m.origin
  have hplaces : ∀ s ∈ ms, m'.input.tape.IsPlace s.start ∧ m'.input.tape.IsPlace s.stop ∨
      ¬ m'.input.tape.IsPlace s.start ∧ s.start = s.stop :=
    fun s hs => h.boundaries ((hms s).1 hs).2
  let keep (s : Span) : Bool := decide (m'.input.tape.IsPlace s.start)
  have hapart : Mode.Apart keep ms := {
    sorted := hsorted
    le := fun s hs => ((hms s).1 hs).2.le
    empty := fun s hs hkeep =>
      ((hplaces s hs).resolve_left fun h => of_decide_eq_false hkeep h.1).2.symm
    ne := fun s hs t ht hkeep hnot heq =>
      of_decide_eq_false hnot (heq ▸ of_decide_eq_true hkeep) }
  have hms' : ∀ s, s ∈ ms.filter keep ↔ m'.input.tape.Matches L m'.origin s := fun s => by
    rw [List.mem_filter, hms, ← h.origin, decide_eq_true_iff, h.bytes, h.chars]
    constructor
    · rintro ⟨⟨hle, hs⟩, hplace⟩
      exact ⟨hle, (Tape.spells_spelled_of_place hplace).1 hs⟩
    · rintro ⟨hle, hs⟩
      exact ⟨⟨hle, (Tape.spells_spelled_of_place hs.start).2 hs⟩, hs.start⟩
  refine ⟨_, h.sound.yields hsorted hms, ?_, fun s hs =>
    hplaces s (Mode.mem_of_mem_selection hs)⟩
  have hsame := Mode.filter_selection (m := m.pattern.mode) hapart
    (.same none fun l hl => absurd hl.symm (Option.some_ne_none l))
  show m'.reset.Yields ((m.pattern.mode.selection none ms).filter keep)
  rw [hsame, h.mode]
  exact h.sound'.yields (hsorted.filter _) hms'

end Search

namespace Pattern

open Search

/-- patterns of characters over UTF-8 and over characters are in step -/
theorem exists_spelled (o : Options) {e : Expr} (hv : e.Valid) (ht : e.Textual)
    (hnone : e.assertion? = none) :
    ∃ p q, Pattern.ofExpr { o with alphabet := .bytes .utf8 } e = .ok p ∧
      Pattern.ofExpr { o with alphabet := .chars } e = .ok q ∧
      Built { o with alphabet := .bytes .utf8 } e.ordered p ∧
      ∀ cs : List Char, ∀ c c' : Cursor, c.Ahead → c'.Ahead →
        c.tape = Tape.ofText (.bytes .utf8) cs → c'.tape = Tape.ofText .chars cs →
        c.position = c'.position → c'.tape.IsPlace c'.position →
        Spelled cs (e.ordered.words .chars) (p.searchIn c) (q.searchIn c') := by
  obtain ⟨p, hp, hbuilt⟩ := exists_built_ordered { o with alphabet := .bytes .utf8 } hv hnone
  obtain ⟨q, hq, hbuilt'⟩ := exists_built_ordered { o with alphabet := .chars } hv hnone
  have hwords : e.ordered.words (.bytes .utf8) = spelled (e.ordered.words .chars) :=
    Expr.words_utf8 _ ((Expr.textual_ordered e).2 ht)
  refine ⟨p, q, hp, hq, hbuilt, fun cs c c' hc hc' htape htape' hposition hplace' => ?_⟩
  have hplace : c.tape.IsPlace c.position := by
    rw [htape, hposition, Tape.isPlace_utf8, ← Tape.length_ofChars]
    have hle := hplace'.le_length
    rwa [htape'] at hle
  refine ⟨htape, htape', hposition, hbuilt.mode.trans hbuilt'.mode.symm, ?_,
    hbuilt'.sound c' hc' (htape' ▸ .text cs) hplace'⟩
  rw [← hwords]
  exact hbuilt.sound c hc (htape ▸ .text cs) hplace

/-- from where a character begins, matchers of a pattern of characters answer alike over UTF-8 and
over characters whether there is a match at the origin and which; calls of `find` report the same
spans, apart from empty ones inside of a character that are reported over UTF-8 -/
theorem utf8_matchers_agree (o : Options) {e : Expr} (hv : e.Valid) (ht : e.Textual)
    (hnone : e.assertion? = none) :
    ∃ p q, Pattern.ofExpr { o with alphabet := .bytes .utf8 } e = .ok p ∧
      Pattern.ofExpr { o with alphabet := .chars } e = .ok q ∧
      ∀ cs : List Char, ∀ c c' : Cursor, c.Ahead → c'.Ahead →
        c.tape = Tape.ofText (.bytes .utf8) cs → c'.tape = Tape.ofText .chars cs →
        c.position = c'.position → c'.tape.IsPlace c'.position →
        (p.matcherIn c).answers [.matchWhole, .span, .matchLeading, .span] =
          (q.matcherIn c').answers [.matchWhole, .span, .matchLeading, .span] ∧
        ∃ spans, (p.matcherIn c).Yields spans ∧
          (q.matcherIn c').Yields (spans.filter fun s => c'.tape.IsPlace s.start) ∧
          ∀ s ∈ spans, c'.tape.IsPlace s.start ∧ c'.tape.IsPlace s.stop ∨
            ¬ c'.tape.IsPlace s.start ∧ s.start = s.stop := by
  obtain ⟨p, q, hp, hq, -, hspelled⟩ := exists_spelled o hv ht hnone
  refine ⟨p, q, hp, hq, fun cs c c' hc hc' htape htape' hposition hplace => ?_⟩
  have h := hspelled cs c c' hc hc' htape htape' hposition hplace
  have ht₁ : Tape.Haystack (.bytes .utf8) c.tape := htape ▸ .text cs
  have ht₂ : Tape.Haystack .chars c'.tape := htape' ▸ .text cs
  obtain ⟨spans, hyields, hyields', hplaces⟩ := h.yields
  refine ⟨?_, spans, h.sound.yields_matcherIn hyields, h.sound'.yields_matcherIn hyields', hplaces⟩
  rw [matcherIn_answers hp ht₁ (Cursor.position_le h.sound.place),
    matcherIn_answers hq ht₂ (Cursor.position_le hplace)]
  exact h.answers

/-- over UTF-8 `a*` is found between the two bytes of `é` -/
theorem utf8_finds_inside :
    let e : Expr := .loop (.char 'a') .zeroOrMore true
    let c := Cursor.ofTape (Tape.ofText (.bytes .utf8) ['é'])
    let c' := Cursor.ofTape (Tape.ofText .chars ['é'])
    ∃ p q, Pattern.ofExpr {} e = .ok p ∧ Pattern.ofExpr { alphabet := .chars } e = .ok q ∧
      (p.matcherIn c).spans.1 = [⟨0, 0⟩, ⟨1, 1⟩, ⟨2, 2⟩] ∧
      (q.matcherIn c').spans.1 = [⟨0, 0⟩, ⟨2, 2⟩] := by
  intro e c c'
  obtain ⟨p, q, hp, hq, hbuilt, hspelled⟩ := exists_spelled {} (e := e) trivial trivial rfl
  have h := hspelled ['é'] c c' trivial trivial rfl rfl rfl (by decide)
  have hover : Over 0x61 (e.ordered.words (.bytes .utf8)) := by
    refine Over.times (fun w hw sym hsym => ?_) .zeroOrMore
    obtain rfl : [0x61] = w := Option.some.inj hw
    exact Nat.le_of_eq (List.mem_singleton.1 hsym)
  have habove : ∀ i j, ∀ sym ∈ c.tape.symbolsIn i j, 0x61 < sym := fun i j sym hsym => by
    have hbytes : c.tape = Tape.ofEncoded .utf8 [0xC3, 0xA9] := rfl
    rw [hbytes, Tape.symbolsIn_ofEncoded] at hsym
    have hmem := List.mem_of_mem_drop (List.mem_of_mem_take hsym)
    exact (by decide : ∀ b ∈ [0xC3, 0xA9], 0x61 < b) sym hmem
  have hsound := hbuilt.sound c trivial (.text _) (.inr ⟨0xC3, rfl⟩)
  have hproper : c.tape.Proper := hsound.proper
  have hms (s : Span) : s ∈ [⟨0, 0⟩, ⟨1, 1⟩, ⟨2, 2⟩] ↔
      c.tape.Matches (e.ordered.words (.bytes .utf8)) 0 s := by
    have htape : c.tape = Tape.ofText (.bytes .utf8) ['é'] := rfl
    rw [Tape.Matches, Tape.spells_above hproper hover ⟨0, trivial, rfl⟩ habove, htape,
      Tape.isPlace_utf8]
    obtain ⟨i, j⟩ := s
    have hoffset : Tape.offset ['é'] ['é'].length = 2 := rfl
    simp only [List.mem_cons, List.not_mem_nil, or_false, Span.mk.injEq, hoffset]
    omega
  have hsorted : [⟨0, 0⟩, ⟨1, 1⟩, ⟨2, 2⟩].Pairwise (Before (α := Span)) := by
    simp [Span.before_iff]
  have hspans := (hsound.yields hsorted hms).spans
  obtain ⟨spans, hyields, hyields', -⟩ := h.yields
  obtain rfl := hyields.spans.symm.trans hspans
  have hfound : p.mode.selection none [⟨0, 0⟩, ⟨1, 1⟩, ⟨2, 2⟩] = [⟨0, 0⟩, ⟨1, 1⟩, ⟨2, 2⟩] := by
    rw [hbuilt.mode]
    rfl
  refine ⟨p, q, hp, hq, (h.sound.yields_matcherIn hyields).spans.trans hfound,
    (h.sound'.yields_matcherIn hyields').spans.trans ?_⟩
  show (p.mode.selection none [⟨0, 0⟩, ⟨1, 1⟩, ⟨2, 2⟩]).filter _ = _
  rw [hfound]
  rfl

end Pattern
end SpanSearch
