import SpanSearch.Text.Utf8

/-!
# Character encodings

* `Encoding`               UTF-8 or Latin-1
* `Encoding.encode?`       the bytes of a character, if it has any
* `Encoding.encodeText?`   the bytes of a text, if every character has some
* `Encoding.encodeLossy`   the bytes of a text, with `?` for characters that have none
* `Encoding.push`          the bytes of a character behind those that are there already
* `Encoding.pushText?`, `Encoding.pushLossy`   so for a text, one character after another
* `Encoding.decode`        the text of bytes; `Encoding.decodeAscii`
* `Encoding.tailRange?`    the range of the bytes after the first of a character
* `Encoding.sequences`     a range of code points as intervals of byte sequences
* `encodeText?_append`     texts are encoded part by part
-/

namespace SpanSearch

inductive Encoding where
  | utf8
  /-- each byte is the code point of the same value -/
  | latin1
  deriving DecidableEq, Repr

namespace Encoding

/-- the bytes of a character; Latin-1 has none for a code point above `0xFF` -/
def encode? (e : Encoding) (c : Char) : Option (List Nat) :=
  match e with
  | .utf8 => some (Text.Utf8.bytes c.toNat)
  | .latin1 => if c.toNat ≤ 0xFF then some [c.toNat] else none

/-- the bytes of a text, one character after another -/
def encodeText? (e : Encoding) : List Char → Option (List Nat)
  | [] => some []
  | c :: cs => (e.encode? c).bind fun b => (e.encodeText? cs).map fun bs => b ++ bs

/-- the byte that stands for a character without an encoding -/
def placeholder : Nat := '?'.toNat

/-- the bytes of a text, with `?` for every character that has none -/
def encodeLossy (e : Encoding) (text : List Char) : List Nat :=
  text.flatMap fun c => (e.encode? c).getD [placeholder]

/-- the bytes of a character behind those that are there, and whether there are any; if not, all
stays as it is -/
def push (e : Encoding) (c : Char) (bs : List Nat) : Bool × List Nat :=
  match e with
  | .utf8 => (true, bs ++ Text.Utf8.bytes c.toNat)
  | .latin1 => if 0xFF < c.toNat then (false, bs) else (true, bs ++ [c.toNat])

/-- the bytes of a text behind those that are there, unless a character has none -/
def pushText? (e : Encoding) (bs : List Nat) : List Char → Option (List Nat)
  | [] => some bs
  | c :: cs => if (e.push c bs).1 then e.pushText? (e.push c bs).2 cs else none

/-- the bytes of a text behind those that are there, with `?` for characters that have none -/
def pushLossy (e : Encoding) (bs : List Nat) : List Char → List Nat
  | [] => bs
  | c :: cs =>
    let r := e.push c bs
    e.pushLossy (if r.1 then r.2 else r.2 ++ [placeholder]) cs

def decode (e : Encoding) (bs : List Nat) : List Char :=
  match e with
  | .utf8 => Text.Utf8.decode bs
  | .latin1 => bs.map Char.ofNat

/-- the text of bytes, which in ASCII is the same in either encoding -/
def decodeAscii (e : Encoding) (bs : List Nat) : List Char :=
  match e with
  | .utf8 => Text.Utf8.decode bs
  | .latin1 => if bs.all (· < 0x80) then Text.Utf8.decode bs else bs.map Char.ofNat

/-- the range of the bytes after the first of a character, where there are any -/
def tailRange? : Encoding → Option (Nat × Nat)
  | .utf8 => some Text.Utf8.tail
  | .latin1 => none

/-- the code points of each encoded length, without the surrogates -/
def pieces : List (Nat × Nat) :=
  [(0x0, 0x7F), (0x80, 0x7FF), (0x800, 0xD7FF), (0xE000, 0xFFFF), (0x10000, 0x10FFFF)]

/-- the code points between two bounds, in either order, as intervals of byte sequences.  The
two ends of an interval have one length, and the characters it stands for are the sequences of
that length between them whose bytes after the first lie in the tail range. -/
def sequences (e : Encoding) (a b : Nat) : List (List Nat × List Nat) :=
  let lo := min a b
  let hi := max a b
  match e with
  | .latin1 => if lo ≤ 0xFF then [([lo], [min hi 0xFF])] else []
  | .utf8 =>
    pieces.filterMap fun (plo, phi) =>
      if max lo plo ≤ min hi phi then
        some (Text.Utf8.bytes (max lo plo), Text.Utf8.bytes (min hi phi))
      else none

/-! ## texts as concatenations -/

theorem encodeText?_nil (e : Encoding) : e.encodeText? [] = some [] := rfl

theorem encodeText?_cons (e : Encoding) (c : Char) (cs : List Char) :
    e.encodeText? (c :: cs) =
      (e.encode? c).bind fun b => (e.encodeText? cs).map fun bs => b ++ bs := rfl

theorem encodeText?_append (e : Encoding) (s t : List Char) :
    e.encodeText? (s ++ t) =
      (e.encodeText? s).bind fun b => (e.encodeText? t).map fun bs => b ++ bs := by
  induction s with
  | nil => simp [encodeText?_nil]
  | cons c cs ih =>
    rw [List.cons_append, encodeText?_cons, encodeText?_cons, ih]
    cases e.encode? c <;> cases e.encodeText? cs <;> cases e.encodeText? t <;> simp

theorem encodeText?_utf8 (s : List Char) :
    utf8.encodeText? s = some (s.flatMap fun c => Text.Utf8.bytes c.toNat) := by
  induction s with
  | nil => rfl
  | cons c cs ih => simp [encodeText?_cons, ih, encode?]

theorem encodeLossy_nil (e : Encoding) : e.encodeLossy [] = [] := rfl

theorem encodeLossy_cons (e : Encoding) (c : Char) (cs : List Char) :
    e.encodeLossy (c :: cs) = (e.encode? c).getD [placeholder] ++ e.encodeLossy cs := rfl

theorem encodeLossy_append (e : Encoding) (s t : List Char) :
    e.encodeLossy (s ++ t) = e.encodeLossy s ++ e.encodeLossy t := by
  simp [encodeLossy]

/-! ## one character after another -/

theorem push_eq (e : Encoding) (c : Char) (bs : List Nat) :
    e.push c bs = ((e.encode? c).isSome, bs ++ (e.encode? c).getD []) := by
  cases e with
  | utf8 => rfl
  | latin1 =>
    unfold push encode?
    by_cases hc : c.toNat ≤ 0xFF
    · rw [if_neg (Nat.not_lt_of_le hc), if_pos hc]
      rfl
    · rw [if_pos (Nat.lt_of_not_le hc), if_neg hc]
      exact congrArg (Prod.mk false) (List.append_nil bs).symm

theorem pushText?_eq (e : Encoding) (bs : List Nat) (cs : List Char) :
    e.pushText? bs cs = (e.encodeText? cs).map (bs ++ ·) := by
  induction cs generalizing bs with
  | nil => exact congrArg some (List.append_nil bs).symm
  | cons c cs ih =>
    rw [pushText?, push_eq, encodeText?_cons]
    cases e.encode? c with
    | none => rfl
    | some w =>
      rw [Option.isSome_some, if_pos rfl, ih, Option.bind_some, Option.map_map]
      exact congrArg (Option.map · _) (funext fun rest => List.append_assoc bs w rest)

theorem pushLossy_eq (e : Encoding) (bs : List Nat) (cs : List Char) :
    e.pushLossy bs cs = bs ++ e.encodeLossy cs := by
  induction cs generalizing bs with
  | nil => exact (List.append_nil bs).symm
  | cons c cs ih =>
    rw [pushLossy, push_eq, ih, encodeLossy_cons, ← List.append_assoc]
    cases e.encode? c with
    | none => exact congrArg (· ++ [placeholder] ++ _) (List.append_nil bs)
    | some w => rfl

theorem decodeAscii_eq (e : Encoding) (bs : List Nat) : e.decodeAscii bs = e.decode bs := by
  cases e with
  | utf8 => rfl
  | latin1 =>
    unfold decodeAscii decode
    dsimp only
    split
    · next hall =>
      exact Text.Utf8.decode_of_ascii fun b hb => of_decide_eq_true (List.all_eq_true.1 hall b hb)
    · rfl

end Encoding
end SpanSearch
