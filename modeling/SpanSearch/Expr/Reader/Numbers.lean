import SpanSearch.Expr.Fault
import SpanSearch.Expr.Reader.Blanks

/-!
# Numbers in a pattern

Counts are decimal, code points are hexadecimal.  Where blanks are skipped they may also stand
between digits.

* `Reader.count`       a decimal count, with any white space around it
* `Reader.hexFixed`    a number of a fixed number of hexadecimal digits
* `Reader.hexBraced`   a number up to a closing brace
* `Reader.charOf`      the character with a number
-/

namespace SpanSearch.Reader

def maxCount : Nat := 0xFFFFFFFF

def decimalDigit? (c : Char) : Option Nat :=
  if '0' ≤ c ∧ c ≤ '9' then some (c.toNat - '0'.toNat) else none

def hexDigit? (c : Char) : Option Nat :=
  if '0' ≤ c ∧ c ≤ '9' then some (c.toNat - '0'.toNat)
  else if 'a' ≤ c ∧ c ≤ 'f' then some (c.toNat - 'a'.toNat + 10)
  else if 'A' ≤ c ∧ c ≤ 'F' then some (c.toNat - 'A'.toNat + 10)
  else none

/-- a number from its digits on; none if there are no digits -/
def decimal (verbose : Bool) (value : Option Nat) (cs : List Char) : Option Nat × List Char :=
  match cs with
  | [] => (value, [])
  | c :: cs =>
    match decimalDigit? c with
    | none => (value, c :: cs)
    | some d => decimal verbose (some (value.getD 0 * 10 + d)) (skip verbose cs)
termination_by cs.length
decreasing_by
  have := length_skip verbose cs
  simp only [List.length_cons]
  omega

/-- white space, and where blanks are skipped comments as well -/
def trailing (verbose : Bool) (cs : List Char) : List Char :=
  match cs with
  | [] => []
  | c :: cs => if Unicode.isBlank c then trailing verbose (skip verbose cs) else c :: cs
termination_by cs.length
decreasing_by
  have := length_skip verbose cs
  simp only [List.length_cons]
  omega

/-- a count with any white space around it -/
def count (verbose : Bool) (cs : List Char) : Except SyntaxFault (Nat × List Char) :=
  let (value, rest) := decimal verbose none (cs.dropWhile Unicode.isBlank)
  match value with
  | none => .error .countMissing
  | some n => if n ≤ maxCount then .ok (n, trailing verbose rest) else .error .countTooLarge

/-- the character with a number; surrogates and numbers above U+10FFFF have none -/
def charOf (n : Nat) : Except SyntaxFault Char :=
  if n.isValidChar then .ok (Char.ofNat n) else .error .codePointInvalid

/-- a number of as many hexadecimal digits as given -/
def hexFixed (verbose : Bool) : (digits value : Nat) → List Char →
    Except SyntaxFault (Nat × List Char)
  | 0, value, cs => .ok (value, cs)
  | _ + 1, _, [] => .error .escapeUnfinished
  | digits + 1, value, c :: cs =>
    match hexDigit? c with
    | none => .error .hexDigitExpected
    | some d => hexFixed verbose digits (value * 16 + d) (skip verbose cs)

/-- hexadecimal digits up to a closing brace -/
def hexBraced (verbose : Bool) (value : Option Nat) (cs : List Char) :
    Except SyntaxFault (Nat × List Char) :=
  match cs with
  | [] => .error .escapeUnfinished
  | c :: cs =>
    if c = '}' then
      match value with
      | none => .error .hexEmpty
      | some n => .ok (n, skip verbose cs)
    else
      match hexDigit? c with
      | none => .error .hexDigitExpected
      | some d => hexBraced verbose (some (value.getD 0 * 16 + d)) (skip verbose cs)
termination_by cs.length
decreasing_by
  have := length_skip verbose cs
  simp only [List.length_cons]
  omega

end SpanSearch.Reader
