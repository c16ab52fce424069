import Mathlib.Order.Bounds.Basic
import SpanSearch.Proofs.Delivering

/-!
# Matches at the origin

Reading ahead for the ends of matches at the origin stops early, where none of them can go on any
more, and still finds them all.  So whether there is one, the shortest and the longest are known,
whatever a matcher has gone through.

* `isLeast_of_head?`, `isGreatest_of_getLast?`   the ends of an ascending list
* `Sound.matchWhole`        what is told of the rest of the text
* `Sound.matchLeading_iff`, `Sound.found_matchLeading`   what is told of the matches at the origin
* `Pattern.matchers_anchored` what matchers of a pattern tell
-/

namespace SpanSearch

open Ascending

/-! ## the ends of ascending lists -/

section

variable {l : List Nat} {k : Nat}

theorem isLeast_of_head? (hl : l.Pairwise (· < ·)) (h : l.head? = some k) :
    IsLeast {j | j ∈ l} k := by
  obtain ⟨ks, rfl⟩ := List.head?_eq_some_iff.1 h
  refine ⟨List.mem_cons_self, fun j hj => ?_⟩
  rcases List.mem_cons.1 hj with rfl | hj
  · exact Nat.le_refl _
  · exact Nat.le_of_lt ((List.pairwise_cons.1 hl).1 j hj)

theorem isGreatest_of_getLast? (hl : l.Pairwise (· < ·)) (h : l.getLast? = some k) :
    IsGreatest {j | j ∈ l} k := by
  obtain ⟨ks, rfl⟩ := List.getLast?_eq_some_iff.1 h
  refine ⟨List.mem_append_right ks (List.mem_singleton_self k), fun j hj => ?_⟩
  rcases List.mem_append.1 hj with hj | hj
  · exact Nat.le_of_lt ((List.pairwise_append.1 hl).2.2 j hj k (List.mem_singleton_self k))
  · exact Nat.le_of_eq (List.mem_singleton.1 hj)

end

namespace Search

variable {L : Language Nat} {m : Search} {stop : Option Nat}

theorem Sound.matchWhole (h : m.Sound L) :
    (m.matchWhole.1 = true ↔ m.input.tape.symbolsIn m.origin m.input.length ∈ L) ∧
      m.matchWhole.2.found =
        if m.matchWhole.1 then some ⟨m.origin, m.input.length⟩ else none := by
  refine ⟨?_, rfl⟩
  rw [Search.matchWhole, h.isWhole_iff, Cursor.length_eq]
  exact ⟨fun hs => hs.word, fun hw => ⟨h.place, m.input.tape.isPlace_length, h.place.le_length, hw⟩⟩

theorem Sound.leadingEnds_eq (h : m.Sound L) :
    {j | j ∈ m.leadingEnds} = {j | m.input.tape.Spells L ⟨m.origin, j⟩} :=
  Set.ext fun _ => h.mem_leadingEnds

def leadingEnd? (m : Search) : Option Nat :=
  if m.pattern.mode.prefersLongest then m.leadingEnds.getLast? else m.leadingEnds.head?

theorem found_matchLeading (m : Search) :
    m.matchLeading.2.found = m.leadingEnd?.map fun j => ⟨m.origin, j⟩ := rfl

theorem fst_matchLeading (m : Search) : m.matchLeading.1 = m.leadingEnd?.isSome := rfl

theorem Sound.matchLeading_iff (h : m.Sound L) :
    m.matchLeading.1 = true ↔ ∃ j, m.input.tape.Spells L ⟨m.origin, j⟩ := by
  have hne : m.matchLeading.1 = true ↔ m.leadingEnds ≠ [] := by
    rw [fst_matchLeading, leadingEnd?]
    split
    · rw [List.getLast?_isSome]
    · rw [List.isSome_head?]
  rw [hne, ← List.isEmpty_eq_false_iff, List.isEmpty_eq_false_iff_exists_mem]
  exact exists_congr fun _ => h.mem_leadingEnds

/-- the end that is chosen is the greatest in the modes that prefer this, and otherwise the least -/
theorem Sound.leading (h : m.Sound L) {j : Nat} (hj : m.leadingEnd? = some j) :
    (m.pattern.mode.prefersLongest = false →
      IsLeast {j | m.input.tape.Spells L ⟨m.origin, j⟩} j) ∧
    (m.pattern.mode.prefersLongest = true →
      IsGreatest {j | m.input.tape.Spells L ⟨m.origin, j⟩} j) := by
  have hsorted := h.pairwise_leadingEnds.imp before_nat.1
  rw [← h.leadingEnds_eq]
  refine ⟨fun hshort => ?_, fun hlong => ?_⟩
  · rw [leadingEnd?, hshort, if_neg Bool.false_ne_true] at hj
    exact isLeast_of_head? hsorted hj
  · rw [leadingEnd?, hlong, if_pos rfl] at hj
    exact isGreatest_of_getLast? hsorted hj

/-- the current match that a question for a match at the origin leaves -/
theorem Sound.found_matchLeading (h : m.Sound L) :
    let ends := {j | m.input.tape.Spells L ⟨m.origin, j⟩}
    (m.matchLeading.1 = false → m.matchLeading.2.found = none) ∧
      (m.matchLeading.1 = true → ∃ j, m.matchLeading.2.found = some ⟨m.origin, j⟩ ∧
        (m.pattern.mode.prefersLongest = false → IsLeast ends j) ∧
        (m.pattern.mode.prefersLongest = true → IsGreatest ends j)) := by
  intro ends
  rw [fst_matchLeading, Search.found_matchLeading]
  refine ⟨fun hno => ?_, fun hyes => ?_⟩
  · rw [Option.isSome_eq_false_iff, Option.isNone_iff_eq_none] at hno
    rw [hno]
    rfl
  · obtain ⟨j, hj⟩ := Option.isSome_iff_exists.1 hyes
    exact ⟨j, by rw [hj]; rfl, h.leading hj⟩

end Search

namespace Pattern

variable {c : Cursor}

/-- a pattern for searches, which reads ahead for ends until nothing that began at the origin is
under way, tells whether the rest of a text is a match and whether there is a match at the
origin, and takes the shortest or the longest as its mode says.  It does so whatever operations
the matcher has gone through. -/
theorem matchers_anchored (o : Options) (htarget : o.target = .search) {e : Expr} (hv : e.Valid)
    (ho : e.InOrder) (hnone : e.assertion? = none) (hc : c.Ahead)
    (ht : Tape.Haystack o.alphabet c.tape) (hplace : c.tape.IsPlace c.position) :
    ∃ p, Pattern.ofExpr o e = .ok p ∧ p.engine.isScanning = true ∧ ∀ ops,
      let m := (p.matcherIn c).after ops
      let ends := {j | c.tape.Spells (e.words o.alphabet) ⟨c.position, j⟩}
      (m.matchWhole.1 = true ↔
        c.tape.symbolsIn c.position c.length ∈ e.words o.alphabet) ∧
      (m.matchWhole.2.span? =
        if m.matchWhole.1 then some ⟨c.position, c.length⟩ else none) ∧
      (m.matchLeading.1 = true ↔ ends.Nonempty) ∧
      (m.matchLeading.1 = false → m.matchLeading.2.span? = none) ∧
      (m.matchLeading.1 = true → ∃ j, m.matchLeading.2.span? = some ⟨c.position, j⟩ ∧
        (o.mode = .all ∨ o.mode = .shortest → IsLeast ends j) ∧
        (o.mode = .longest ∨ o.mode = .overlapping → IsGreatest ends j)) := by
  obtain ⟨p, hp, hbuilt⟩ := exists_built o hv ho hnone
  refine ⟨p, hp, hbuilt.isScanning.2 htarget, fun ops => ?_⟩
  have hle := Cursor.position_le hplace
  have hafter := represents_after hp ht hle ops
  obtain ⟨hyes, hrepresents⟩ := hafter.matchWhole fun _ => acceptStart_pos hp
  obtain ⟨hyes', hrepresents'⟩ := hafter.matchLeading hle
  have hbehind := hbuilt.behind hc ht hplace ops
  dsimp only
  rw [hyes, hyes', hrepresents.found, hrepresents'.found]
  generalize (p.searchIn c).after ops = s at hbehind
  have hsound := hbehind.sound
  have htape : s.input = c := hbehind.input
  have horigin : s.origin = c.position := hbehind.origin
  have hmode : s.pattern.mode = o.mode := (congrArg Pattern.mode hbehind.pattern).trans hbuilt.mode
  obtain ⟨hwhole, hfound⟩ := hsound.matchWhole
  have hleading := hsound.matchLeading_iff
  obtain ⟨hno, hchosen⟩ := hsound.found_matchLeading
  rw [horigin, htape] at hwhole hfound hleading hchosen
  rw [hmode] at hchosen
  refine ⟨hwhole, hfound, hleading, hno, fun hyes => ?_⟩
  obtain ⟨j, hj, hleast, hgreatest⟩ := hchosen hyes
  refine ⟨j, hj, fun hm => hleast ?_, fun hm => hgreatest ?_⟩
  · rcases hm with hm | hm <;> rw [hm] <;> rfl
  · rcases hm with hm | hm <;> rw [hm] <;> rfl

/-- `(?:ab|b)*` in `xabb` from behind the first character on, after a search for the first match -/
theorem matchers_anchored_overlapping :
    let e : Expr := .loop (.group none (.alt [.concat [.char 'a', .char 'b'], .char 'b']))
      .zeroOrMore true
    let c := (Cursor.ofTape (Tape.ofText (.bytes .utf8) ['x', 'a', 'b', 'b'])).moveTo 1
    ∃ p, Pattern.ofExpr { mode := .overlapping } e = .ok p ∧
      let m := (p.matcherIn c).after [.find, .captures]
      let ends := {j | c.tape.Spells (e.words (.bytes .utf8)) ⟨c.position, j⟩}
      (m.matchWhole.1 = true ↔ c.tape.symbolsIn c.position c.length ∈ e.words (.bytes .utf8)) ∧
      (m.matchLeading.1 = true → ∃ j, m.matchLeading.2.span? = some ⟨c.position, j⟩ ∧
        IsGreatest ends j) := by
  obtain ⟨p, hp, -, htells⟩ := matchers_anchored { mode := .overlapping } rfl
    (e := .loop (.group none (.alt [.concat [.char 'a', .char 'b'], .char 'b'])) .zeroOrMore true)
    (c := (Cursor.ofTape (Tape.ofText (.bytes .utf8) ['x', 'a', 'b', 'b'])).moveTo 1)
    (by simp [Expr.Valid, Expr.ValidAll]) (by simp [Expr.InOrder, Expr.InOrderAll, Count.InOrder])
    rfl trivial (.text _) (.inr ⟨0x61, by decide⟩)
  obtain ⟨hwhole, -, -, -, hleading⟩ := htells [.find, .captures]
  refine ⟨p, hp, hwhole, fun hyes => ?_⟩
  obtain ⟨j, hj, -, hgreatest⟩ := hleading hyes
  exact ⟨j, hj, hgreatest (.inr rfl)⟩

end Pattern
end SpanSearch
