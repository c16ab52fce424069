import SpanSearch.Proofs.Matching
import SpanSearch.Proofs.Roaming

/-!
# Cursors that are lent

A lent cursor passes on what moves the cursor below, but it answers by itself whether it is finished
and how to finish.  That is what the cursor below does too unless it reads backwards.

* `Operation.isPassedOn`     what a lent cursor leaves to the cursor below
* `Cursor.answers`           the answers to operations in a row, and the positions behind them
* `Cursor.PassesOn`          one operation on a cursor and on the cursor lent
* `Cursor.alike_perform`     operations move a cursor and do nothing else
* `Cursor.answers_lent`      operations in a row that are all passed on
* `answers_lent_iff`         when a cursor and the cursor lent cannot be told apart
-/

namespace SpanSearch

namespace Cursor

/-- all but whether the cursor is finished, and how to finish -/
def Operation.isPassedOn : Operation → Bool
  | .finished | .finish => false
  | _ => true

def isReversed : Cursor → Bool
  | .reversed _ => true
  | _ => false

/-- the answers to operations in a row, each of them with the position behind it -/
def answers (c : Cursor) : List Operation → List (Answer × Nat)
  | [] => []
  | op :: ops =>
    ((c.perform op).1, (c.perform op).2.position) :: (c.perform op).2.answers ops

variable {c d : Cursor} {op : Operation} {ops : List Operation}

/-! ## what operations leave alone -/

theorem finish_eq_moveTo (c : Cursor) : ∃ pos, c.finish = c.moveTo pos := by
  cases c with
  | onTape t pos => exact ⟨_, rfl⟩
  | reversed c => exact ⟨0, rfl⟩
  | lent c => exact ⟨_, rfl⟩

theorem alike_perform (c : Cursor) (op : Operation) : (c.perform op).2.Alike c := by
  cases op with
  | next => exact c.alike_read true
  | prev => exact c.alike_read false
  | moveTo pos => exact c.alike_moveTo pos
  | skipToAny needles => exact c.alike_skipToAny needles
  | finish =>
    obtain ⟨pos, hfinish⟩ := c.finish_eq_moveTo
    rw [perform, hfinish]
    exact c.alike_moveTo pos
  | current | length | isEmpty | finished | slice => exact .refl c

theorem isReversed_moveTo (pos : Nat) (c : Cursor) :
    (c.moveTo pos).isReversed = c.isReversed := by
  cases c <;> rfl

theorem Alike.isReversed (h : c.Alike d) : c.isReversed = d.isReversed := by
  rw [← isReversed_moveTo 0, h 0, isReversed_moveTo]

/-- an operation does not lead behind the end -/
theorem position_perform_le (ht : c.tape.Proper) (h : c.position ≤ c.length) (op : Operation) :
    (c.perform op).2.position ≤ c.length := by
  have hmove (pos : Nat) : (c.moveTo pos).position ≤ c.length := by
    rw [position_moveTo]
    exact Nat.min_le_right _ _
  cases op with
  | next => exact position_read_le ht h true
  | prev => exact position_read_le ht h false
  | moveTo pos => exact hmove pos
  | skipToAny needles => exact position_skipToAny_le needles h
  | finish =>
    obtain ⟨pos, hfinish⟩ := c.finish_eq_moveTo
    rw [perform, hfinish]
    exact hmove pos
  | current | length | isEmpty | finished | slice => exact h

/-! ## one operation -/

/-- lent or not, a cursor answers alike and comes to stand alike -/
def PassesOn (c : Cursor) (op : Operation) : Prop :=
  (lent c).perform op = ((c.perform op).1, lent (c.perform op).2)

theorem passesOn_of_isPassedOn (hop : op.isPassedOn = true) : c.PassesOn op := by
  cases op with
  | finished | finish => exact absurd hop Bool.false_ne_true
  | next | prev | current | moveTo | length | isEmpty | slice | skipToAny => rfl

theorem passesOn_of_not_isReversed (hc : c.isReversed = false) : c.PassesOn op := by
  cases c with
  | reversed c => exact absurd hc.symm Bool.false_ne_true
  | onTape t pos => cases op <;> rfl
  | lent c => cases op <;> rfl

/-- in an empty text the beginning is the end -/
theorem passesOn_of_length_eq_zero (h : c.position ≤ c.length) (hzero : c.length = 0) :
    c.PassesOn op := by
  cases hop : op.isPassedOn with
  | true => exact passesOn_of_isPassedOn hop
  | false =>
    cases c with
    | onTape t pos => exact passesOn_of_not_isReversed rfl
    | lent c => exact passesOn_of_not_isReversed rfl
    | reversed c =>
      have hlength : c.length = 0 := hzero
      have hposition : c.position = 0 := Nat.le_zero.1 (hlength ▸ h)
      cases op with
      | finished =>
        have hlent : (lent (reversed c)).finished = (reversed c).finished := by
          show decide (c.length ≤ c.position) = (c.position == 0)
          rw [hlength, hposition]
          rfl
        exact congrArg (fun yes => (Answer.flag yes, lent (reversed c))) hlent
      | finish =>
        show (Answer.done, lent (reversed (c.moveTo c.length))) = _
        rw [hlength]
        rfl
      | next | prev | current | moveTo | length | isEmpty | slice | skipToAny =>
        exact passesOn_of_isPassedOn rfl

/-! ## operations in a row -/

theorem answers_lent {P : Cursor → Prop} (hkeep : ∀ c op, P c → P (c.perform op).2)
    (hpasses : ∀ c op, op ∈ ops → P c → c.PassesOn op) (hc : P c) :
    (lent c).answers ops = c.answers ops := by
  induction ops generalizing c with
  | nil => rfl
  | cons op ops ih =>
    have hrest :=
      ih (fun c op' hmem => hpasses c op' (List.mem_cons_of_mem op hmem)) (hkeep c op hc)
    rw [answers, answers, hpasses c op List.mem_cons_self hc, hrest]
    rfl

theorem answers_lent_of_isPassedOn (hops : ∀ op ∈ ops, op.isPassedOn = true) :
    (lent c).answers ops = c.answers ops :=
  answers_lent (P := fun _ => True) (fun _ _ _ => trivial)
    (fun _ op hmem _ => passesOn_of_isPassedOn (hops op hmem)) trivial

theorem answers_lent_of_not_isReversed (hc : c.isReversed = false) :
    (lent c).answers ops = c.answers ops :=
  answers_lent (P := fun c => c.isReversed = false)
    (fun c op h => (c.alike_perform op).isReversed.trans h)
    (fun _ _ _ h => passesOn_of_not_isReversed h) hc

theorem answers_lent_of_length_eq_zero (ht : c.tape.Proper) (h : c.position ≤ c.length)
    (hzero : c.length = 0) : (lent c).answers ops = c.answers ops := by
  refine answers_lent (P := fun c => c.tape.Proper ∧ c.position ≤ c.length ∧ c.length = 0) ?_ ?_
    ⟨ht, h, hzero⟩
  · rintro c op ⟨ht, h, hzero⟩
    rw [(c.alike_perform op).tape, (c.alike_perform op).length]
    exact ⟨ht, position_perform_le ht h op, hzero⟩
  · rintro c op - ⟨-, h, hzero⟩
    exact passesOn_of_length_eq_zero h hzero

/-- A cursor and the cursor lent answer all operations alike, unless the cursor is a view that reads
backwards and there is something to read: then finishing leads the one to the beginning and the
other to the end. -/
theorem answers_lent_iff (ht : c.tape.Proper) (h : c.position ≤ c.length) :
    (∀ ops, (lent c).answers ops = c.answers ops) ↔ (c.isReversed = true → c.length = 0) := by
  constructor
  · intro halike hreversed
    cases c with
    | onTape t pos => exact absurd hreversed Bool.false_ne_true
    | lent c => exact absurd hreversed Bool.false_ne_true
    | reversed c =>
      have hfinish : ((lent (reversed c)).finish).position = ((reversed c).finish).position :=
        congrArg Prod.snd (List.head_eq_of_cons_eq (halike [.finish]))
      have hend : (c.moveTo c.length).position = (c.moveTo 0).position := hfinish
      rw [position_moveTo, position_moveTo, Nat.min_self, Nat.zero_min] at hend
      exact hend
  · intro hempty ops
    cases hreversed : c.isReversed with
    | false => exact answers_lent_of_not_isReversed hreversed
    | true => exact answers_lent_of_length_eq_zero ht h (hempty hreversed)

example :
    let c := reversed (onTape (.ofText .chars ['a', 'b']) 2)
    c.answers [.finished, .finish] = [(.flag false, 2), (.done, 0)] ∧
      (lent c).answers [.finished, .finish] = [(.flag true, 2), (.done, 2)] := by
  decide

end Cursor
end SpanSearch
