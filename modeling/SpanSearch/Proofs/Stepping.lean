import Mathlib.Logic.Relation
import Mathlib.Order.WellFounded

/-!
# Runs of a step relation

* `holds_of_reflTransGen`   what each step keeps holds on the whole run
* `acc_of_measure`          a run whose steps lower a measure ends
* `reaches_last`            where steps are unique, every moment leads on to the last one
* `acc_of_last`             and no run goes on for ever if one ends
-/

namespace SpanSearch

open Relation (ReflTransGen)

variable {α β : Type} {step : α → α → Prop} {holds : α → Prop} {a b c : α}

theorem holds_of_reflTransGen (keep : ∀ a b, holds a → step a b → holds b) (ha : holds a)
    (h : ReflTransGen step a b) : holds b := by
  induction h with
  | refl => exact ha
  | tail _ hstep ih => exact keep _ _ ih hstep

theorem acc_of_measure [LT β] [WellFoundedLT β] (measure : α → β)
    (keep : ∀ a b, holds a → step a b → holds b)
    (lower : ∀ a b, holds a → step a b → measure b < measure a) (ha : holds a) :
    Acc (fun b a => step a b) a := by
  induction hm : measure a using WellFoundedLT.induction generalizing a with
  | _ m ih =>
    subst hm
    apply Acc.intro
    intro b hb
    exact ih _ (lower a b ha hb) (keep a b ha hb) rfl

theorem reaches_last (unique : ∀ a b c, step a b → step a c → b = c)
    (hb : ReflTransGen step a b) (hc : ReflTransGen step a c) (last : ∀ d, ¬ step c d) :
    ReflTransGen step b c := by
  have hunique : Relator.RightUnique step := fun a b c => unique a b c
  rcases ReflTransGen.total_of_right_unique hunique hb hc with h | h
  · exact h
  · rcases h.cases_head with rfl | ⟨d, hd, -⟩
    · exact .refl
    · exact absurd hd (last d)

theorem acc_of_last (unique : ∀ a b c, step a b → step a c → b = c) (hc : ReflTransGen step a c)
    (last : ∀ d, ¬ step c d) : Acc (fun b a => step a b) a := by
  induction hc using ReflTransGen.head_induction_on with
  | refl => exact Acc.intro c fun d hd => absurd hd (last d)
  | @head a b hab _ ih =>
    apply Acc.intro
    intro d hd
    rwa [unique a d b hd hab]

end SpanSearch
