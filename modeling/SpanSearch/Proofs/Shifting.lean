import Mathlib.Data.List.Basic
import Mathlib.Order.Monotone.Basic
import SpanSearch.Proofs.Preferring
import SpanSearch.Tracer

/-!
# Positions under a strictly monotone map

Captures under other positions that come in the same order behave as before: what happens at a
position can be recorded before or behind the change, and the same captures are preferred.

* `SameOrder`            a map that keeps the order of its arguments
* `Span.shift`, `Slot.shift`, `Captures.shift`   other positions
* `shift_enter`, `shift_leave`, `shift_follow`   recording
* `Captures.sameOrder_shift`, `minimum?_map_shift`   preferring
-/

namespace SpanSearch

/-- a map that keeps the order of its arguments -/
def SameOrder {α β : Type} [Ord α] [Ord β] (f : α → β) : Prop :=
  ∀ a b, compare (f a) (f b) = compare a b

section

variable {α β : Type} [Ord α] [Ord β] {f : α → β}

theorem SameOrder.option (hf : SameOrder f) : SameOrder (Option.map f) := by
  intro a b
  cases a <;> cases b
  · rfl
  · rfl
  · rfl
  · exact hf _ _

theorem SameOrder.list (hf : SameOrder f) : SameOrder (List.map f) := by
  intro l k
  induction l generalizing k with
  | nil => cases k <;> rfl
  | cons a l ih =>
    cases k with
    | nil => rfl
    | cons b k =>
      show List.compareLex compare _ _ = List.compareLex compare _ _
      rw [List.map_cons, List.map_cons, List.compareLex_cons_cons, List.compareLex_cons_cons, hf]
      exact congrArg _ (ih k)

theorem SameOrder.nat {φ : Nat → Nat} (hφ : StrictMono φ) : SameOrder φ := by
  intro a b
  rw [Nat.compare_eq_ite_lt, Nat.compare_eq_ite_lt]
  simp only [hφ.lt_iff_lt]

theorem Ascending.map_insert (hf : SameOrder f) (a : α) (l : List α) :
    (insert a l).map f = insert (f a) (l.map f) := by
  induction l with
  | nil => rfl
  | cons b l ih =>
    rw [insert, List.map_cons, insert, hf]
    cases compare a b with
    | lt => rfl
    | eq => rfl
    | gt => exact congrArg _ ih

theorem Ascending.before_map (hf : SameOrder f) {a b : α} : Before (f a) (f b) ↔ Before a b := by
  rw [Before, Before, hf]

end

variable {φ : Nat → Nat}

def Span.shift (φ : Nat → Nat) (s : Span) : Span := ⟨φ s.start, φ s.stop⟩

def Slot.shift (φ : Nat → Nat) (s : Slot) : Slot := ⟨φ s.start, s.stop.map φ⟩

theorem Span.sameOrder_shift (hφ : StrictMono φ) : SameOrder (Span.shift φ) := fun a b => by
  rw [compare_def, compare_def]
  exact congrArg₂ _ (SameOrder.nat hφ _ _) (SameOrder.nat hφ _ _)

theorem Span.shift_injective (hφ : StrictMono φ) : Function.Injective (Span.shift φ) := by
  rintro ⟨a, b⟩ ⟨a', b'⟩ h
  obtain ⟨ha, hb⟩ := Span.mk.inj h
  exact congrArg₂ Span.mk (hφ.injective ha) (hφ.injective hb)

theorem Slot.sameOrder_shift (hφ : StrictMono φ) : SameOrder (Slot.shift φ) := fun a b => by
  rw [compare_def, compare_def]
  exact congrArg₂ _ (SameOrder.nat hφ _ _) ((SameOrder.nat hφ).option _ _)

theorem Slot.shift_injective (hφ : StrictMono φ) : Function.Injective (Slot.shift φ) := by
  rintro ⟨a, b⟩ ⟨a', b'⟩ h
  obtain ⟨ha, hb⟩ := Slot.mk.inj h
  exact congrArg₂ Slot.mk (hφ.injective ha) (Option.map_injective hφ.injective hb)

namespace Captures

variable {c d : Captures}

/-- captures at other positions -/
def shift (φ : Nat → Nat) (c : Captures) : Captures where
  start := c.start.map φ
  stop := c.stop.map φ
  slots := c.slots.map fun l => l.map fun s => s.map (Slot.shift φ)
  completed := c.completed.map (Span.shift φ)

theorem shift_id : shift id = id := by
  have hspan : Span.shift id = id := rfl
  have hslot : Slot.shift id = id := funext fun s => by
    rw [Slot.shift, Option.map_id]
    rfl
  funext c
  simp [shift, hspan, hslot]

theorem shift_ofSpan (φ : Nat → Nat) (s : Span) : (ofSpan s).shift φ = ofSpan (s.shift φ) := rfl

theorem shift_injective (hφ : StrictMono φ) : Function.Injective (shift φ) := by
  rintro ⟨a, b, l, k⟩ ⟨a', b', l', k'⟩ h
  obtain ⟨ha, hb, hl, hk⟩ := Captures.mk.inj h
  have hslots := Option.map_injective (List.map_injective_iff.2
    (Option.map_injective (Slot.shift_injective hφ)))
  exact (Captures.mk.injEq ..).mpr ⟨Option.map_injective hφ.injective ha,
    Option.map_injective hφ.injective hb, hslots hl,
    List.map_injective_iff.2 (Span.shift_injective hφ) hk⟩

theorem slotsFor_shift (φ : Nat → Nat) (slots : Option (List (Option Slot))) (n : Nat) :
    slotsFor (slots.map fun l => l.map fun s => s.map (Slot.shift φ)) n =
      (slotsFor slots n).map fun s => s.map (Slot.shift φ) := by
  cases slots with
  | none => rw [slotsFor, slotsFor, List.map_append, List.map_replicate]; rfl
  | some l =>
    rw [slotsFor, slotsFor, List.map_append, List.map_replicate, Option.map_some, Option.getD_some,
      Option.getD_some, List.length_map]
    rfl

theorem slot?_shift (φ : Nat → Nat) (c : Captures) (n : Nat) :
    (c.shift φ).slot? n = (c.slot? n).map (Slot.shift φ) := by
  show (((c.slots.map fun l => l.map fun s => s.map (Slot.shift φ)).getD [])[n]?).join =
    (((c.slots.getD [])[n]?).join).map (Slot.shift φ)
  cases c.slots with
  | none => rfl
  | some l =>
    rw [Option.map_some, Option.getD_some, Option.getD_some, List.getElem?_map]
    cases l[n]? <;> rfl

/-! ## recording -/

theorem shift_enter (φ : Nat → Nat) (c : Captures) (n pos : Nat) :
    (c.enter n pos).shift φ = (c.shift φ).enter n (φ pos) := by
  rw [enter, enter]
  split
  · rfl
  · rw [shift, shift, slotsFor_shift, Option.map_some, List.map_set]
    rfl

theorem shift_leave (hφ : StrictMono φ) (c : Captures) (n pos : Nat) :
    (c.leave n pos).shift φ = (c.shift φ).leave n (φ pos) := by
  rw [leave, leave]
  split
  · rfl
  · rw [slot?_shift]
    cases c.slot? n with
    | none =>
      rw [Option.map_none]
      show _ = ({ c.shift φ with slots := some (slotsFor (c.shift φ).slots n) } : Captures)
      rw [shift, shift, slotsFor_shift]
      rfl
    | some slot =>
      rw [Option.map_some]
      show _ = ({ c.shift φ with
        slots := some ((slotsFor (c.shift φ).slots n).set n
          (some ⟨(slot.shift φ).start, some (φ pos)⟩))
        completed := Ascending.insert ⟨(slot.shift φ).start, φ pos⟩ (c.shift φ).completed } :
          Captures)
      rw [shift, shift, slotsFor_shift]
      dsimp only
      rw [Ascending.map_insert (Span.sameOrder_shift hφ), Option.map_some, List.map_set]
      rfl

theorem shift_follow (hφ : StrictMono φ) (c : Captures) (e : Edge) (pos : Nat) :
    (c.follow e pos).shift φ = (c.shift φ).follow e (φ pos) := by
  rw [follow, follow]
  cases e.action with
  | none => rfl
  | some a =>
    cases a with
    | enter n => exact shift_enter φ c n pos
    | leave n => exact shift_leave hφ c n pos

/-! ## what is known -/

theorem span?_shift (φ : Nat → Nat) (c : Captures) :
    (c.shift φ).span? = c.span?.map (Span.shift φ) := by
  obtain ⟨start, stop, slots, completed⟩ := c
  cases start <;> cases stop <;> rfl

theorem isValid_shift (φ : Nat → Nat) (c : Captures) : (c.shift φ).isValid = c.isValid := by
  rw [isValid, isValid, span?_shift, Option.isSome_map]

theorem get?_shift (φ : Nat → Nat) (c : Captures) (n : Nat) :
    (c.shift φ).get? n = (c.get? n).map (Span.shift φ) := by
  rw [get?, get?, span?_shift, slot?_shift]
  split
  · rfl
  · cases c.slot? n with
    | none => rfl
    | some slot =>
      obtain ⟨start, stop⟩ := slot
      cases stop <;> rfl

theorem shift_adopt (φ : Nat → Nat) (c d : Captures) :
    (c.adopt d).shift φ = (c.shift φ).adopt (d.shift φ) := by
  obtain ⟨start, stop, slots, completed⟩ := d
  cases slots <;> rfl

/-! ## preferring -/

theorem laterFirst_map (hφ : StrictMono φ) (l k : List Span) :
    laterFirst (l.map (Span.shift φ)) (k.map (Span.shift φ)) = laterFirst l k := by
  induction l generalizing k with
  | nil => rw [List.map_nil, laterFirst_nil, laterFirst_nil]
  | cons a l ih =>
    cases k with
    | nil => rfl
    | cons b k =>
      rw [List.map_cons, List.map_cons, laterFirst, laterFirst, Span.sameOrder_shift hφ, ih]

theorem sameOrder_shift (hφ : StrictMono φ) : SameOrder (shift φ) := fun c d => by
  show Captures.compare _ _ = Captures.compare _ _
  have hnat := (SameOrder.nat hφ).option
  have hslots := ((Slot.sameOrder_shift hφ).option.list).option
  rw [Captures.compare, Captures.compare]
  simp only [shift, laterFirst_map hφ, List.length_map, hnat c.start, hnat c.stop]
  exact congrArg _ (congrArg _ (congrArg _ (congrArg _ (hslots c.slots d.slots))))

theorem minimum?_map_shift (hφ : StrictMono φ) (cs : List Captures) :
    minimum? (cs.map (shift φ)) = (minimum? cs).map (shift φ) := by
  cases cs with
  | nil => rfl
  | cons c cs =>
    rw [List.map_cons, minimum?, minimum?, Option.map_some]
    refine congrArg some ?_
    induction cs generalizing c with
    | nil => rfl
    | cons d cs ih =>
      rw [List.map_cons, List.foldl_cons, List.foldl_cons, sameOrder_shift hφ]
      split
      · exact ih d
      · exact ih c

end Captures
end SpanSearch
