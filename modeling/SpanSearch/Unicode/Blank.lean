/-!
# White space

* `Unicode.blanks`     the ranges of the property White_Space
* `Unicode.isBlank`    whether a character is in one of them
-/

namespace SpanSearch.Unicode

def blanks : List (Nat × Nat) :=
  [(0x9, 0xD), (0x20, 0x20), (0x85, 0x85), (0xA0, 0xA0), (0x1680, 0x1680), (0x2000, 0x200A),
   (0x2028, 0x2029), (0x202F, 0x202F), (0x205F, 0x205F), (0x3000, 0x3000)]

def isBlank (c : Char) : Bool :=
  blanks.any fun (lo, hi) => decide (lo ≤ c.toNat) && decide (c.toNat ≤ hi)

theorem isBlank_of_isWhitespace {c : Char} (h : c.isWhitespace = true) : isBlank c = true := by
  simp only [Char.isWhitespace, Bool.or_eq_true, decide_eq_true_eq] at h
  rcases h with ((h | h) | h) | h <;> subst h <;> decide

end SpanSearch.Unicode
