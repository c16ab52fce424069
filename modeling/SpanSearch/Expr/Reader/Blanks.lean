import SpanSearch.Unicode.Blank

/-!
# Skipping what does not count

In a verbose pattern white space and comments mean nothing.  A comment runs from `#` to the end
of the line.

* `Reader.skip`       the rest of a pattern from its next part on
* `Reader.peek?`      the next part but one
-/

namespace SpanSearch.Reader

mutual

def skipBlanks : List Char → List Char
  | [] => []
  | c :: cs =>
    if Unicode.isBlank c then skipBlanks cs else if c = '#' then skipComment cs else c :: cs

def skipComment : List Char → List Char
  | [] => []
  | c :: cs => if c = '\n' then skipBlanks cs else skipComment cs

end

/-- the rest of a pattern from its next part on -/
def skip (verbose : Bool) (cs : List Char) : List Char := if verbose then skipBlanks cs else cs

mutual

theorem length_skipBlanks : (cs : List Char) → (skipBlanks cs).length ≤ cs.length
  | [] => by simp [skipBlanks]
  | c :: cs => by
    have h1 := length_skipBlanks cs
    have h2 := length_skipComment cs
    simp only [skipBlanks]
    split
    · simp only [List.length_cons]; omega
    · split
      · simp only [List.length_cons]; omega
      · simp

theorem length_skipComment : (cs : List Char) → (skipComment cs).length ≤ cs.length
  | [] => by simp [skipComment]
  | c :: cs => by
    have h1 := length_skipBlanks cs
    have h2 := length_skipComment cs
    simp only [skipComment]
    split <;> simp only [List.length_cons] <;> omega

end

theorem length_skip (verbose : Bool) (cs : List Char) : (skip verbose cs).length ≤ cs.length := by
  cases verbose
  · exact Nat.le_refl _
  · exact length_skipBlanks cs

/-- the first character behind white space and a comment sign, seen from inside a class: what
comes after the comment sign counts unless it is blank -/
def peekFrom (inComment : Bool) : List Char → Option Char
  | [] => none
  | c :: cs =>
    if Unicode.isBlank c then peekFrom inComment cs
    else if c = '#' ∧ inComment = false then peekFrom true cs
    else some c

/-- the next character that counts, or failing that the next character -/
def peek? (verbose : Bool) (cs : List Char) : Option Char :=
  if verbose then (peekFrom false cs).or cs.head? else cs.head?

end SpanSearch.Reader
