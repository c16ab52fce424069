import SpanSearch.Text.Encoding

/-!
# The symbols an automaton reads

* `Alphabet`             encoded bytes, or characters
* `Alphabet.maxSymbol`   the largest symbol
* `Alphabet.isBytes`     whether symbols are bytes
-/

namespace SpanSearch

inductive Alphabet where
  /-- one symbol for each byte of the encoded text -/
  | bytes (encoding : Encoding)
  /-- one symbol for each character -/
  | chars
  deriving DecidableEq, Repr

namespace Alphabet

instance : Inhabited Alphabet := ⟨.bytes .utf8⟩

def maxSymbol : Alphabet → Nat
  | .bytes _ => 0xFF
  | .chars => 0x10FFFF

def isBytes : Alphabet → Bool
  | .bytes _ => true
  | .chars => false

end Alphabet
end SpanSearch
