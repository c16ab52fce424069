import SpanSearch.Pattern.Basic
import SpanSearch.Proofs.Compiling

/-!
# Counts with their bounds in order

A part that is to occur at least some times and at most fewer is compiled as one that occurs
exactly the least number of times.

* `Count.ordered`, `Expr.ordered`   such counts replaced
* `inOrder_ordered`, `valid_ordered`, `assertion?_ordered`   what they have in common
* `compile_ordered`, `ofExpr_ordered`   the fragment and the pattern stay the same
-/

namespace SpanSearch

/-- a greatest number below the least one does not count -/
def Count.ordered : Count → Count
  | .between least most => if most < least then .exactly least else .between least most
  | c => c

theorem Count.inOrder_ordered (c : Count) : c.ordered.InOrder := by
  cases c with
  | between least most =>
    rw [ordered]
    split
    · trivial
    · next h => exact Nat.le_of_not_lt h
  | _ => trivial

theorem Fragment.repeated_ordered (a : Fragment) (c : Count) :
    a.repeated c.ordered = a.repeated c := by
  cases c with
  | between least most =>
    rw [Count.ordered]
    split
    · next h =>
      rw [repeated, repeated, between, if_pos (Nat.le_of_lt h)]
    · rfl
  | _ => rfl

namespace Expr

mutual

/-- every count with its bounds in order -/
def ordered : Expr → Expr
  | .loop e count greedy => .loop e.ordered count.ordered greedy
  | .group index e => .group index e.ordered
  | .concat es => .concat (orderedAll es)
  | .alt es => .alt (orderedAll es)
  | e => e

def orderedAll : List Expr → List Expr
  | [] => []
  | e :: es => e.ordered :: orderedAll es

end

mutual

theorem inOrder_ordered : (e : Expr) → e.ordered.InOrder
  | .loop e count greedy => by
    rw [ordered, InOrder]
    exact ⟨count.inOrder_ordered, inOrder_ordered e⟩
  | .group index e => by
    rw [ordered, InOrder]
    exact inOrder_ordered e
  | .concat es => by
    rw [ordered, InOrder]
    exact inOrderAll_ordered es
  | .alt es => by
    rw [ordered, InOrder]
    exact inOrderAll_ordered es
  | .empty | .char _ | .byte _ | .charClass _ | .byteClass _ | .assertion _ => trivial

theorem inOrderAll_ordered : (es : List Expr) → InOrderAll (orderedAll es)
  | [] => trivial
  | e :: es => ⟨inOrder_ordered e, inOrderAll_ordered es⟩

end

mutual

theorem valid_ordered : (e : Expr) → (e.ordered.Valid ↔ e.Valid)
  | .loop e count greedy => by
    rw [ordered, Valid, Valid]
    exact valid_ordered e
  | .group index e => by
    rw [ordered, Valid, Valid]
    exact valid_ordered e
  | .concat es => by
    rw [ordered, Valid, Valid]
    exact validAll_ordered es
  | .alt es => by
    rw [ordered, Valid, Valid]
    exact validAll_ordered es
  | .empty | .char _ | .byte _ | .charClass _ | .byteClass _ | .assertion _ => Iff.rfl

theorem validAll_ordered : (es : List Expr) → (ValidAll (orderedAll es) ↔ ValidAll es)
  | [] => Iff.rfl
  | e :: es => and_congr (valid_ordered e) (validAll_ordered es)

end

mutual

theorem assertion?_ordered : (e : Expr) → e.ordered.assertion? = e.assertion?
  | .loop e count greedy => by
    rw [ordered, assertion?, assertion?]
    exact assertion?_ordered e
  | .group index e => by
    rw [ordered, assertion?, assertion?]
    exact assertion?_ordered e
  | .concat es => by
    rw [ordered, assertion?, assertion?]
    exact assertionIn?_ordered es
  | .alt es => by
    rw [ordered, assertion?, assertion?]
    exact assertionIn?_ordered es
  | .empty | .char _ | .byte _ | .charClass _ | .byteClass _ | .assertion _ => rfl

theorem assertionIn?_ordered : (es : List Expr) → assertionIn? (orderedAll es) = assertionIn? es
  | [] => rfl
  | e :: es => by
    rw [orderedAll, assertionIn?, assertionIn?, assertion?_ordered e, assertionIn?_ordered es]

end

mutual

theorem groupCount_ordered : (e : Expr) → e.ordered.groupCount = e.groupCount
  | .loop e count greedy => by
    rw [ordered, groupCount, groupCount]
    exact groupCount_ordered e
  | .group none e => by
    rw [ordered, groupCount, groupCount]
    exact groupCount_ordered e
  | .group (some n) e => by
    rw [ordered, groupCount, groupCount, groupCount_ordered e]
  | .concat es => by
    rw [ordered, groupCount, groupCount]
    exact groupCountOf_ordered es
  | .alt es => by
    rw [ordered, groupCount, groupCount]
    exact groupCountOf_ordered es
  | .empty | .char _ | .byte _ | .charClass _ | .byteClass _ | .assertion _ => rfl

theorem groupCountOf_ordered : (es : List Expr) → groupCountOf (orderedAll es) = groupCountOf es
  | [] => rfl
  | e :: es => by
    rw [orderedAll, groupCountOf, groupCountOf, groupCount_ordered e, groupCountOf_ordered es]

end

theorem ordered_eq_char {e : Expr} {c : Char} : e.ordered = .char c ↔ e = .char c := by
  cases e <;> simp [ordered]

mutual

/-- the order of the bounds of a count makes no difference to the fragment -/
theorem compile_ordered (o : CompileOptions) : (e : Expr) → e.ordered.compile o = e.compile o
  | .loop e count greedy => by
    rw [ordered, compile, compile, compile_ordered o e]
    simp only [Fragment.repeated_ordered]
  | .group none e => by
    rw [ordered, compile, compile, compile_ordered o e]
  | .group (some n) e => by
    rw [ordered, compile, compile, compile_ordered o e]
  | .concat es => by
    rw [ordered, compile, compile, compileParts_ordered o [] es]
  | .alt es => by
    rw [ordered, compile, compile, compileAll_ordered o es]
  | .empty | .char _ | .byte _ | .charClass _ | .byteClass _ | .assertion _ => rfl

theorem compileAll_ordered (o : CompileOptions) :
    (es : List Expr) → compileAll o (orderedAll es) = compileAll o es
  | [] => rfl
  | e :: es => by
    rw [orderedAll, compileAll, compileAll, compile_ordered o e, compileAll_ordered o es]

theorem compileParts_ordered (o : CompileOptions) (run : List Char) :
    (es : List Expr) → compileParts o run (orderedAll es) = compileParts o run es
  | [] => rfl
  | e :: es => by
    by_cases hchar : ∃ c, e = .char c
    · obtain ⟨c, rfl⟩ := hchar
      exact compileParts_ordered o (c :: run) es
    · have hne : ∀ c, e ≠ .char c := fun c h => hchar ⟨c, h⟩
      rw [orderedAll, compileParts_cons fun c h => hne c (ordered_eq_char.1 h),
        compileParts_cons hne, compile_ordered o e, compileParts_ordered o [] es]

end

end Expr

theorem Options.engine_ordered (o : Options) (e : Expr) : o.engine e.ordered = o.engine e := by
  rw [engine, engine, Expr.searchGraphs, Expr.searchGraphs, Expr.searchFragments,
    Expr.searchFragments, Expr.baseGraph, Expr.baseGraph, Expr.compile_ordered]

theorem Pattern.ofExpr_ordered (o : Options) (e : Expr) :
    Pattern.ofExpr o e.ordered = Pattern.ofExpr o e := by
  rw [ofExpr, ofExpr, Expr.tracer, Expr.tracer, Expr.compile_ordered, o.engine_ordered,
    Expr.groupCount_ordered]

end SpanSearch
