import SpanSearch.Proofs.Engines

/-!
# Assertions are refused

Automata do not look at what is around a match.  The first assertion of an expression ends its
compilation, wherever it stands and however often its part is repeated, and nothing else does.

* `Expr.assertions`      the assertions of an expression from left to right
* `Expr.Part`            what an expression is made of, at whatever depth
* `mem_assertions`       the assertions are those that the expression is made of
* `Compile.Meets`        what ends a step of a compilation, if anything does
* `meets_compile`        the first assertion ends the compilation of an expression
* `Pattern.refuses_assertions`   so it does whatever a pattern is built for
-/

namespace SpanSearch

namespace Expr

/-! ## the assertions of an expression -/

mutual

/-- the assertions from left to right -/
def assertions : Expr → List Assertion
  | .assertion a => [a]
  | .loop e _ _ => e.assertions
  | .group _ e => e.assertions
  | .concat es => assertionsIn es
  | .alt es => assertionsIn es
  | _ => []

def assertionsIn : List Expr → List Assertion
  | [] => []
  | e :: es => e.assertions ++ assertionsIn es

end

mutual

theorem head?_assertions : (e : Expr) → e.assertions.head? = e.assertion?
  | .assertion _ => rfl
  | .loop e _ _ => head?_assertions e
  | .group _ e => head?_assertions e
  | .concat es => head?_assertionsIn es
  | .alt es => head?_assertionsIn es
  | .empty | .char _ | .byte _ | .charClass _ | .byteClass _ => rfl

theorem head?_assertionsIn : (es : List Expr) → (assertionsIn es).head? = assertionIn? es
  | [] => rfl
  | e :: es => by
    rw [assertionsIn, List.head?_append, head?_assertions e, head?_assertionsIn es]
    rfl

end

/-- what an expression is made of, itself and the parts of its parts -/
inductive Part (p : Expr) : Expr → Prop
  | self : Part p p
  | body {e : Expr} {count : Count} {greedy : Bool} : Part p e → Part p (.loop e count greedy)
  | grouped {e : Expr} {index : Option Nat} : Part p e → Part p (.group index e)
  | inRow {e : Expr} {es : List Expr} : e ∈ es → Part p e → Part p (.concat es)
  | choice {e : Expr} {es : List Expr} : e ∈ es → Part p e → Part p (.alt es)

mutual

/-- the assertions are those that the expression is made of -/
theorem mem_assertions {a : Assertion} : (e : Expr) → (a ∈ e.assertions ↔ Part (.assertion a) e)
  | .assertion b => by
    rw [assertions, List.mem_singleton]
    constructor
    · rintro rfl
      exact .self
    · rintro ⟨⟩
      rfl
  | .loop e _ _ => (mem_assertions e).trans ⟨.body, fun h => by cases h; assumption⟩
  | .group _ e => (mem_assertions e).trans ⟨.grouped, fun h => by cases h; assumption⟩
  | .concat es => by
    refine (mem_assertionsIn es).trans ⟨fun ⟨e, he, h⟩ => .inRow he h, fun h => ?_⟩
    cases h with
    | inRow he h => exact ⟨_, he, h⟩
  | .alt es => by
    refine (mem_assertionsIn es).trans ⟨fun ⟨e, he, h⟩ => .choice he h, fun h => ?_⟩
    cases h with
    | choice he h => exact ⟨_, he, h⟩
  | .empty | .char _ | .byte _ | .charClass _ | .byteClass _ =>
    iff_of_false List.not_mem_nil fun h => by cases h

theorem mem_assertionsIn {a : Assertion} :
    (es : List Expr) → (a ∈ assertionsIn es ↔ ∃ e ∈ es, Part (.assertion a) e)
  | [] => iff_of_false List.not_mem_nil fun ⟨_, h, _⟩ => List.not_mem_nil h
  | e :: es => by
    rw [assertionsIn, List.mem_append, mem_assertions e, mem_assertionsIn es,
      List.exists_mem_cons_iff]

end

theorem assertion?_eq_none_iff {e : Expr} :
    e.assertion? = none ↔ ∀ a, ¬ Part (.assertion a) e := by
  rw [← head?_assertions, List.head?_eq_none_iff, List.eq_nil_iff_forall_not_mem]
  exact forall_congr' fun a => not_congr (mem_assertions e)

theorem exists_assertion?_iff {e : Expr} :
    (∃ a, e.assertion? = some a) ↔ ∃ a, Part (.assertion a) e := by
  rw [← Option.ne_none_iff_exists', Ne, assertion?_eq_none_iff, not_forall_not]

end Expr

/-! ## steps of a compilation -/

namespace Compile

variable {α β : Type} {x : Compile α} {f : α → Compile β} {p q : Option Assertion}

/-- an assertion ends the step, or nothing does, whatever has been built before -/
structure Meets (x : Compile α) (p : Option Assertion) : Prop where
  refused : ∀ a, p = some a → ∀ g, x g = .error a
  made : p = none → ∀ g, ∃ r, x g = .ok r

theorem meets_ofBuild (b : Build α) : (ofBuild b).Meets none :=
  ⟨fun a h => absurd h.symm (Option.some_ne_none a), fun _ g => ⟨b g, rfl⟩⟩

theorem meets_pure (a : α) : Meets (pure a) none := meets_ofBuild (pure a)

theorem meets_throw (a : Assertion) : Meets (throw a : Compile α) (some a) :=
  ⟨fun _ h _ => congrArg Except.error (Option.some.inj h),
      fun h => absurd h (Option.some_ne_none a)⟩

/-- of two steps the first that an assertion ends ends both -/
theorem Meets.bind (hx : x.Meets p) (hf : ∀ b, (f b).Meets q) : (x >>= f).Meets (p.or q) := by
  cases p with
  | some a =>
    refine ⟨fun a' h g => ?_, fun h => absurd h (Option.some_ne_none a)⟩
    obtain rfl : a = a' := Option.some.inj h
    show (x g >>= fun r => f r.1 r.2) = _
    rw [hx.refused a rfl g]
    rfl
  | none =>
    refine ⟨fun a h g => ?_, fun h g => ?_⟩
    · obtain ⟨⟨b, g'⟩, hr⟩ := hx.made rfl g
      exact (bind_of_ok hr).trans ((hf b).refused a h g')
    · obtain ⟨⟨b, g'⟩, hr⟩ := hx.made rfl g
      obtain ⟨r, hr'⟩ := (hf b).made h g'
      exact ⟨r, (bind_of_ok hr).trans hr'⟩

theorem Meets.build (hx : x.Meets p) (f : α → Build β) :
    (x >>= fun b => ofBuild (f b)).Meets p := by
  have h := hx.bind fun b => meets_ofBuild (f b)
  rwa [Option.or_none] at h

theorem Meets.error_iff (hx : x.Meets p) {a : Assertion} (g : Graph) :
    x g = .error a ↔ p = some a := by
  refine ⟨fun h => ?_, fun h => hx.refused a h g⟩
  cases p with
  | some b => exact congrArg some (Except.error.inj ((hx.refused b rfl g).symm.trans h))
  | none =>
    obtain ⟨r, hr⟩ := hx.made rfl g
    exact absurd (hr.symm.trans h) fun heq => by cases heq

end Compile

namespace Expr

open Compile Fragment

mutual

/-- the first assertion ends the compilation of an expression -/
theorem meets_compile (o : CompileOptions) : (e : Expr) → (e.compile o).Meets e.assertion?
  | .empty => meets_ofBuild _
  | .char _ => meets_ofBuild _
  | .byte _ => meets_ofBuild _
  | .charClass _ => meets_ofBuild _
  | .byteClass _ => meets_ofBuild _
  | .assertion a => meets_throw a
  | .loop e count _ => (meets_compile o e).build fun a => a.repeated count >>= fun b => b.shrink o
  | .group none e => meets_compile o e
  | .group (some n) e => (meets_compile o e).build fun a => a.group n
  | .concat es =>
    (meets_compileParts o es []).build fun as => concatenation as >>= fun a => a.shrink o
  | .alt es => (meets_compileAll o es).build fun as => alternatives as >>= fun a => a.shrink o

theorem meets_compileAll (o : CompileOptions) :
    (es : List Expr) → (compileAll o es).Meets (assertionIn? es)
  | [] => meets_pure []
  | e :: es => (meets_compile o e).bind fun a => (meets_compileAll o es).build fun as =>
      (pure (a :: as) : Build (List Fragment))

/-- characters that have no fragment yet are no reason to end -/
theorem meets_compileParts (o : CompileOptions) :
    (es : List Expr) → (run : List Char) → (compileParts o run es).Meets (assertionIn? es)
  | [], run => meets_ofBuild _
  | e :: es, run => by
    by_cases hchar : ∃ c, e = .char c
    · obtain ⟨c, rfl⟩ := hchar
      exact meets_compileParts o es (c :: run)
    · rw [compileParts_cons fun c h => hchar ⟨c, h⟩]
      exact (meets_ofBuild (ofRun o.alphabet run)).bind fun chain =>
        (meets_compile o e).bind fun a => (meets_compileParts o es []).build fun as =>
          (pure (chain ++ a :: as) : Build (List Fragment))

end

/-! ## the automata of a pattern -/

variable {e : Expr} {a : Assertion}

theorem construct_of_refused {α : Type} {x : Compile α} (hx : x.Meets (some a)) :
    construct x = .error (.unsupported a) := by
  have hrun : x.run Graph.empty = .error a := hx.refused a rfl Graph.empty
  rw [construct, hrun]
  rfl

theorem exists_construct {α : Type} {x : Compile α} (hx : x.Meets none) :
    ∃ r, construct x = .ok r := by
  obtain ⟨r, hr⟩ := hx.made rfl Graph.empty
  have hrun : x.run Graph.empty = .ok r := hr
  refine ⟨r, ?_⟩
  rw [construct, hrun]
  rfl

theorem meets_searchFragments (o : CompileOptions) (e : Expr) :
    (e.searchFragments o).Meets e.assertion? :=
  (meets_compile o e).build _

theorem tracer_of_refused (α : Alphabet) (h : e.assertion? = some a) :
    e.tracer α = .error (.unsupported a) := by
  have hmeets := (meets_compile { alphabet := α } e).build fun base => base.group 0
  rw [h] at hmeets
  rw [tracer, construct_of_refused hmeets]
  rfl

theorem exists_tracer_of_none (α : Alphabet) (h : e.assertion? = none) :
    ∃ tr, e.tracer α = .ok tr := by
  have hmeets := (meets_compile { alphabet := α } e).build fun base => base.group 0
  rw [h] at hmeets
  obtain ⟨⟨whole, g⟩, hr⟩ := exists_construct hmeets
  refine ⟨⟨(whole.finish g).contract⟩, ?_⟩
  rw [tracer, hr]
  rfl

theorem exists_engine_of_none (o : Options) (h : e.assertion? = none) :
    ∃ eng, o.engine e = .ok eng := by
  by_cases htarget : o.target = .search
  · have hmeets := meets_searchFragments o.compileOptions e
    rw [h] at hmeets
    obtain ⟨⟨⟨finder, reversed⟩, g⟩, hr⟩ := exists_construct hmeets
    have hgraphs : e.searchGraphs o.compileOptions = .ok (finder.finish g, reversed.finish g) := by
      rw [searchGraphs, hr]
      rfl
    exact ⟨_, Options.engine_of_search htarget hgraphs⟩
  · have hmeets := meets_compile o.compileOptions e
    rw [h] at hmeets
    obtain ⟨⟨base, g⟩, hr⟩ := exists_construct hmeets
    have hgraph : e.baseGraph o.compileOptions = .ok (base.finish g) := by
      rw [baseGraph, hr]
      rfl
    exact ⟨_, Options.engine_of_not_search htarget hgraph⟩

end Expr

namespace Pattern

variable {o : Options} {e : Expr} {a : Assertion} {text : List Char}
  {parse : ParseOptions → List Char → Except SyntaxFault Expr}

theorem ofExpr_of_refused (o : Options) (h : e.assertion? = some a) :
    ofExpr o e = .error (.unsupported a) := by
  rw [ofExpr, Expr.tracer_of_refused o.alphabet h]
  rfl

theorem exists_ofExpr (o : Options) (h : e.assertion? = none) : ∃ p, ofExpr o e = .ok p := by
  obtain ⟨tr, htracer⟩ := Expr.exists_tracer_of_none o.alphabet h
  obtain ⟨eng, hengine⟩ := Expr.exists_engine_of_none o h
  refine ⟨⟨eng, tr, o.mode, o.alphabet, o.target, e.groupCount⟩, ?_⟩
  rw [ofExpr, htracer, hengine]
  rfl

theorem buildWith_of_malformed {fault : SyntaxFault}
    (h : parse o.parseOptions text = .error fault) :
    buildWith parse o text = .error (.malformed fault) := by
  rw [buildWith, h]
  rfl

theorem buildWith_of_parsed (h : parse o.parseOptions text = .ok e) :
    buildWith parse o text = ofExpr o e := by
  rw [buildWith, h]
  rfl

/-- a text is malformed, or its expression is refused for its first assertion, or it builds -/
theorem buildWith_cases (parse : ParseOptions → List Char → Except SyntaxFault Expr) (o : Options)
    (text : List Char) : (∃ fault, buildWith parse o text = .error (.malformed fault)) ∨
    (∃ e a, parse o.parseOptions text = .ok e ∧ e.assertion? = some a ∧
      buildWith parse o text = .error (.unsupported a)) ∨
    ∃ e p, parse o.parseOptions text = .ok e ∧ e.assertion? = none ∧
      buildWith parse o text = .ok p := by
  cases hparse : parse o.parseOptions text with
  | error fault => exact .inl ⟨fault, buildWith_of_malformed hparse⟩
  | ok e =>
    rw [buildWith_of_parsed hparse]
    cases hfirst : e.assertion? with
    | some a => exact .inr (.inl ⟨e, a, rfl, hfirst, ofExpr_of_refused o hfirst⟩)
    | none =>
      obtain ⟨p, hp⟩ := exists_ofExpr o hfirst
      exact .inr (.inr ⟨e, p, rfl, hfirst, hp⟩)

/-- a text is refused for an assertion if that is the first one of its expression -/
theorem buildWith_error_iff : buildWith parse o text = .error (.unsupported a) ↔
    ∃ e, parse o.parseOptions text = .ok e ∧ e.assertion? = some a := by
  constructor
  · intro h
    obtain ⟨fault, hbuild⟩ | ⟨e, b, hparse, hfirst, hbuild⟩ | ⟨e, p, -, -, hbuild⟩ :=
      buildWith_cases parse o text
    · rw [hbuild] at h
      cases h
    · rw [hbuild] at h
      cases h
      exact ⟨e, hparse, hfirst⟩
    · rw [hbuild] at h
      cases h
  · rintro ⟨e, hparse, hfirst⟩
    rw [buildWith_of_parsed hparse, ofExpr_of_refused o hfirst]

/-- a text builds if its expression has no assertion -/
theorem exists_buildWith_iff : (∃ p, buildWith parse o text = .ok p) ↔
    ∃ e, parse o.parseOptions text = .ok e ∧ e.assertion? = none := by
  constructor
  · rintro ⟨p, h⟩
    obtain ⟨fault, hbuild⟩ | ⟨e, b, -, -, hbuild⟩ | ⟨e, p, hparse, hfirst, -⟩ :=
      buildWith_cases parse o text
    · rw [hbuild] at h
      cases h
    · rw [hbuild] at h
      cases h
    · exact ⟨e, hparse, hfirst⟩
  · rintro ⟨e, hparse, hfirst⟩
    rw [buildWith_of_parsed hparse]
    exact exists_ofExpr o hfirst

/-- The compilation of an expression fails if there is an assertion in it, under whichever parts,
and the first from left to right is the reason.  Whatever parser reads an expression in a text, the
text is refused for that reason, too, whatever it is built for, and it is not refused if its
expression has no assertion. -/
theorem refuses_assertions :
    (∀ (o : CompileOptions) (e : Expr) (g : Graph),
      (∀ a, e.compile o g = .error a ↔ e.assertions.head? = some a) ∧
      ((∃ a, e.compile o g = .error a) ↔ ∃ a, Expr.Part (.assertion a) e)) ∧
    ∀ (parse : ParseOptions → List Char → Except SyntaxFault Expr) (o : Options) (target : Target)
      (mode : Mode) (minimized : Bool) (text : List Char),
      let o' := { o with target := target, mode := mode, minimizeFragments := minimized }
      (∀ a, buildWith parse o' text = .error (.unsupported a) ↔
        ∃ e, parse o.parseOptions text = .ok e ∧ e.assertions.head? = some a) ∧
      ((∃ p, buildWith parse o' text = .ok p) ↔
        ∃ e, parse o.parseOptions text = .ok e ∧ ∀ a, ¬ Expr.Part (.assertion a) e) := by
  refine ⟨fun o e g => ⟨fun a => ?_, ?_⟩,
    fun parse o target mode minimized text => ⟨fun a => ?_, ?_⟩⟩
  · rw [e.head?_assertions]
    exact (e.meets_compile o).error_iff g
  · rw [← Expr.exists_assertion?_iff]
    exact exists_congr fun a => (e.meets_compile o).error_iff g
  · refine buildWith_error_iff.trans (exists_congr fun e => and_congr_right fun _ => ?_)
    rw [e.head?_assertions]
  · exact exists_buildWith_iff.trans
      (exists_congr fun e => and_congr_right fun _ => Expr.assertion?_eq_none_iff)

/-- `(?:a\b){0}$`, its parts minimized, from a parser that knows this text only: what is never
repeated is refused before what stands behind it -/
theorem refuses_assertions_unrepeated :
    let text := ['(', '?', ':', 'a', '\\', 'b', ')', '\x7b', '0', '\x7d', '$']
    let e : Expr := .concat [.loop (.group none (.concat [.char 'a', .assertion .wordBoundary]))
      (.exactly 0) true, .assertion .anchor]
    let parse : ParseOptions → List Char → Except SyntaxFault Expr := fun _ t =>
      if t = text then .ok e else .error .nestedTooDeep
    e.compile { alphabet := .bytes .utf8, minimal := true } Graph.empty = .error .wordBoundary ∧
    buildWith parse { target := .whole, mode := .all, minimizeFragments := true } text =
      .error (.unsupported .wordBoundary) :=
  ⟨((refuses_assertions.1 _ _ _).1 _).2 rfl,
    ((refuses_assertions.2 _ {} .whole .all true _).1 _).2 ⟨_, if_pos rfl, rfl⟩⟩

end Pattern

end SpanSearch
