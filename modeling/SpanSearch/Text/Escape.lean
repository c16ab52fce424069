/-!
# The printed form of a symbol

* `Text.hex`       a number in base sixteen, padded with zeros
* `Text.padded`    a number in base ten, padded with zeros
* `Text.escape`    ASCII symbols in the usual escaped form, all others as a code in braces
* `Text.interval`  a range of symbols
-/

namespace SpanSearch.Text

/-- the digits `ds` behind as many zeros as `width` asks for -/
def padLeft (width : Nat) (ds : List Char) : String :=
  String.ofList (List.replicate (width - ds.length) '0' ++ ds)

/-- lower case hexadecimal digits, at least `width` of them -/
def hex (width n : Nat) : String := padLeft width (Nat.toDigits 16 n)

def padded (width n : Nat) : String := padLeft width (Nat.toDigits 10 n)

/-- an ASCII symbol: the common control characters, quotes and the backslash by name, printable
ones as they are, the rest by two hexadecimal digits -/
def escapeAscii (sym : Nat) : String :=
  match Char.ofNat sym with
  | '\t' => "\\t"
  | '\n' => "\\n"
  | '\r' => "\\r"
  | '\'' => "\\'"
  | '"' => "\\\""
  | '\\' => "\\\\"
  | c => if 0x20 ≤ sym ∧ sym < 0x7F then c.toString else "\\x" ++ hex 2 sym

/-- the printed form of a symbol of any alphabet -/
def escape (sym : Nat) : String :=
  if sym ≤ 0x7F then escapeAscii sym
  else "\\x\x7b" ++ (hex 0 sym).toUpper ++ "\x7d"

/-- a range of symbols; a single symbol stands alone -/
def interval (lo hi : Nat) : String :=
  if lo = hi then escape lo else escape lo ++ "-" ++ escape hi

end SpanSearch.Text
