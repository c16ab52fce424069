/-!
# UTF-8 on numbers

Bytes and code points are natural numbers, so that every law of the encoding is arithmetic.

* `Utf8.bytes`      the encoding of a code point
* `Utf8.width`      its length
* `Utf8.follow?`    the ranges that the bytes after a lead byte must lie in
* `Utf8.decode`     text from bytes, with U+FFFD for every maximal part that is not UTF-8
* `length_bytes`, `lt_of_mem_bytes`   as many bytes as the width says, each below 256
-/

namespace SpanSearch.Text.Utf8

/-- the encoding of a code point -/
def bytes (n : Nat) : List Nat :=
  if n < 0x80 then [n]
  else if n < 0x800 then [0xC0 + n / 0x40, 0x80 + n % 0x40]
  else if n < 0x10000 then
    [0xE0 + n / 0x1000, 0x80 + n / 0x40 % 0x40, 0x80 + n % 0x40]
  else
    [0xF0 + n / 0x40000, 0x80 + n / 0x1000 % 0x40, 0x80 + n / 0x40 % 0x40, 0x80 + n % 0x40]

def width (n : Nat) : Nat :=
  if n < 0x80 then 1 else if n < 0x800 then 2 else if n < 0x10000 then 3 else 4

theorem length_bytes (n : Nat) : (bytes n).length = width n := by
  unfold bytes width
  split <;> try rfl
  split <;> try rfl
  split <;> rfl

theorem width_pos (n : Nat) : 0 < width n := by
  unfold width
  split <;> try omega
  split <;> try omega
  split <;> omega

def tail : Nat × Nat := (0x80, 0xBF)

/-- the ranges of the bytes that complete a lead byte; none for a byte that leads nothing.  The
first of them keeps out overlong forms, surrogates and numbers above U+10FFFF. -/
def follow? (lead : Nat) : Option (List (Nat × Nat)) :=
  if lead < 0x80 then some []
  else if lead < 0xC2 then none
  else if lead ≤ 0xDF then some [tail]
  else if lead = 0xE0 then some [(0xA0, 0xBF), tail]
  else if lead = 0xED then some [(0x80, 0x9F), tail]
  else if lead ≤ 0xEF then some [tail, tail]
  else if lead = 0xF0 then some [(0x90, 0xBF), tail, tail]
  else if lead ≤ 0xF3 then some [tail, tail, tail]
  else if lead = 0xF4 then some [(0x80, 0x8F), tail, tail]
  else none

/-- how many of the bytes lie in their ranges before the first that does not -/
def fitting : List (Nat × Nat) → List Nat → Nat
  | (lo, hi) :: ranges, b :: bs => if lo ≤ b ∧ b ≤ hi then fitting ranges bs + 1 else 0
  | _, _ => 0

/-- the bits that a lead byte contributes, given how many bytes follow it -/
def leadBits (lead following : Nat) : Nat :=
  match following with
  | 0 => lead
  | 1 => lead - 0xC0
  | 2 => lead - 0xE0
  | _ => lead - 0xF0

/-- the code point of a lead byte and the bytes after it -/
def value (lead : Nat) (rest : List Nat) : Nat :=
  rest.foldl (fun n b => n * 0x40 + (b - 0x80)) (leadBits lead rest.length)

def replacement : Char := Char.ofNat 0xFFFD

/-- text from bytes.  A lead byte takes along as many of the bytes after it as fit; if they
complete it they are a character, and otherwise one replacement stands for all of them. -/
def decode : List Nat → List Char
  | [] => []
  | b :: bs =>
    match follow? b with
    | none => replacement :: decode bs
    | some ranges =>
      let k := fitting ranges bs
      let c := if k = ranges.length then Char.ofNat (value b (bs.take k)) else replacement
      c :: decode (bs.drop k)
termination_by bs => bs.length
decreasing_by
  · simp
  · simp only [List.length_cons, List.length_drop]; omega

theorem decode_nil : decode [] = [] := by
  unfold decode
  rfl

theorem decode_of_ascii {bs : List Nat} (h : ∀ b ∈ bs, b < 0x80) :
    decode bs = bs.map Char.ofNat := by
  induction bs with
  | nil => exact decode_nil
  | cons b bs ih =>
    obtain ⟨hb, hbs⟩ := List.forall_mem_cons.1 h
    have hfollow : follow? b = some [] := if_pos hb
    have hfitting : fitting [] bs = 0 := by cases bs <;> rfl
    rw [decode, hfollow]
    dsimp only
    rw [hfitting, List.length_nil, if_pos rfl, List.drop_zero, ih hbs]
    rfl

/-! ## bytes are below 256 -/

theorem lt_of_mem_bytes {n b : Nat} (hn : n < 0x110000) (hb : b ∈ bytes n) : b < 0x100 := by
  unfold bytes at hb
  split at hb
  · simp only [List.mem_singleton] at hb; omega
  · split at hb
    · simp only [List.mem_cons, List.not_mem_nil, or_false] at hb; omega
    · split at hb <;> simp only [List.mem_cons, List.not_mem_nil, or_false] at hb <;> omega

theorem bytes_ne_nil (n : Nat) : bytes n ≠ [] := by
  have h := width_pos n
  rw [← length_bytes] at h
  exact List.ne_nil_of_length_pos h

end SpanSearch.Text.Utf8
