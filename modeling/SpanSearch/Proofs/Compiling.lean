import SpanSearch.Proofs.Fruitful

/-!
# The fragment of an expression matches what the expression denotes

* `makes_repeated`    a part as often as a count allows
* `Compiles`          a step of a compilation that makes a fragment for some words
* `compiles_expr`     an expression without assertions compiles to a fragment for its words
* `words_finish_compile`   the graph of an expression has the words of the expression
-/

namespace SpanSearch

open SpanSearch.Graph Fragment

variable {g g' : Graph} {a : Fragment} {S : Set Nat} {L : Language Nat} {w : List Nat}

/-! ## counts -/

theorem mem_times {c : Count} : w ∈ c.times L ↔ ∃ k, c.Allows k ∧ w ∈ L ^ k := Iff.rfl

theorem mem_kstar_iff_pow : w ∈ KStar.kstar L ↔ ∃ k, w ∈ L ^ k := by
  rw [Language.kstar_eq_iSup_pow, Language.mem_iSup]

/-- a least number of times and then any number of times -/
theorem mem_pow_mul_kstar (n : Nat) :
    w ∈ L ^ n * KStar.kstar L ↔ ∃ k, n ≤ k ∧ w ∈ L ^ k := by
  rw [Language.mem_mul]
  constructor
  · rintro ⟨u, hu, v, hv, rfl⟩
    obtain ⟨k, hk⟩ := mem_kstar_iff_pow.1 hv
    refine ⟨n + k, Nat.le_add_right n k, ?_⟩
    rw [pow_add]
    exact ⟨u, hu, v, hk, rfl⟩
  · rintro ⟨k, hle, hw⟩
    obtain ⟨m, rfl⟩ := Nat.exists_eq_add_of_le hle
    rw [pow_add] at hw
    obtain ⟨u, hu, v, hv, rfl⟩ := hw
    exact ⟨u, hu, v, mem_kstar_iff_pow.2 ⟨m, hv⟩, rfl⟩

/-- a least number of times and then up to a number of times -/
theorem mem_pow_mul_atMost (n m : Nat) :
    w ∈ L ^ n * atMost L m ↔ ∃ k, (n ≤ k ∧ k ≤ n + m) ∧ w ∈ L ^ k := by
  rw [Language.mem_mul]
  constructor
  · rintro ⟨u, hu, v, ⟨k, hk, hv⟩, rfl⟩
    refine ⟨n + k, ⟨Nat.le_add_right n k, Nat.add_le_add_left hk n⟩, ?_⟩
    rw [pow_add]
    exact ⟨u, hu, v, hv, rfl⟩
  · rintro ⟨k, ⟨hle, hle'⟩, hw⟩
    obtain ⟨j, rfl⟩ := Nat.exists_eq_add_of_le hle
    rw [pow_add] at hw
    obtain ⟨u, hu, v, hv, rfl⟩ := hw
    exact ⟨u, hu, v, ⟨j, Nat.le_of_add_le_add_left hle', hv⟩, rfl⟩

theorem times_zeroOrOne : Count.zeroOrOne.times L = 1 + L := by
  have h := atMost_succ L 0
  rwa [atMost_zero, mul_one] at h

theorem times_zeroOrMore : Count.zeroOrMore.times L = KStar.kstar L := by
  ext w
  rw [mem_times, mem_kstar_iff_pow]
  exact exists_congr fun k => and_iff_right trivial

theorem times_atLeast (n : Nat) : (Count.atLeast n).times L = L ^ n * KStar.kstar L :=
  Set.ext fun _ => (mem_pow_mul_kstar n).symm

theorem times_exactly (n : Nat) : (Count.exactly n).times L = L ^ n := by
  ext w
  rw [mem_times]
  exact exists_eq_left

theorem times_between {least most : Nat} (hle : least ≤ most) :
    (Count.between least most).times L = L ^ least * atMost L (most - least) := by
  ext w
  rw [mem_pow_mul_atMost, Nat.add_sub_cancel' hle]
  rfl

/-- a part as often as a count allows -/
theorem makes_repeated (hc : g.Closed) (ha : a.Lives g S) {c : Count} (hcount : c.InOrder) :
    Makes S (c.times (a.words g)) g (a.repeated c g) := by
  cases c with
  | zeroOrOne =>
    rw [times_zeroOrOne]
    exact makes_optional ha
  | zeroOrMore =>
    rw [times_zeroOrMore]
    exact makes_star ha
  | oneOrMore =>
    have h := makes_atLeast hc ha 1
    rwa [← times_atLeast] at h
  | exactly n =>
    rw [times_exactly]
    exact makes_exactly hc ha n
  | atLeast n =>
    rw [times_atLeast]
    exact makes_atLeast hc ha n
  | between least most =>
    rw [times_between hcount]
    rcases Nat.lt_or_eq_of_le hcount with hlt | rfl
    · exact makes_between hc ha hlt
    · have hstep : a.repeated (.between least least) g = a.exactly least g :=
        congrFun (between_self a least) g
      rw [hstep, Nat.sub_self, atMost_zero, mul_one]
      exact makes_exactly hc ha least

/-! ## steps of a compilation -/

theorem bind_of_ok {β γ : Type} {x : Compile β} {f : β → Compile γ} {b : β}
    (h : x g = .ok (b, g')) : (x >>= f) g = f b g' := by
  show (x g >>= fun r => f r.1 r.2) = _
  rw [h]
  rfl

theorem ofBuild_bind {β γ : Type} (b : Build β) (f : β → Compile γ) (g : Graph) :
    (Compile.ofBuild b >>= f) g = f (b g).1 (b g).2 := rfl

/-- the step succeeds and makes a fragment for the words `L` -/
def Compiles (L : Language Nat) (c : Compile Fragment) : Prop :=
  ∀ g : Graph, g.Closed → ∃ r, c g = .ok r ∧ Makes ∅ L g r ∧ (g.Fruitful → r.2.Fruitful)

/-- the step succeeds and makes fragments in a row for the words `Ls` -/
def CompilesRow (Ls : List (Language Nat)) (c : Compile (List Fragment)) : Prop :=
  ∀ g : Graph, g.Closed → ∃ r, c g = .ok r ∧ MakesRow Ls g r ∧ (g.Fruitful → r.2.Fruitful)

theorem compiles_ofBuild {b : Build Fragment} (h : ∀ g, Makes ∅ L g (b g)) (hk : b.Keeps) :
    Compiles L (Compile.ofBuild b) :=
  fun g _ => ⟨b g, rfl, h g, hk g⟩

theorem Compiles.bind {L' : Language Nat} {c : Compile Fragment}
    {f : Fragment → Compile Fragment} (h : Compiles L c)
    (hf : ∀ a g S, g.Closed → a.Lives g S → a.words g = L →
      ∃ r, f a g = .ok r ∧ Makes S L' g r ∧ (g.Fruitful → r.2.Fruitful)) :
    Compiles L' (c >>= f) := by
  intro g hc
  obtain ⟨⟨a, g'⟩, hr, hmakes, hk⟩ := h g hc
  obtain ⟨r, hr', hmakes', hk'⟩ := hf a g' _ (hmakes.closed hc) hmakes.lives hmakes.words
  exact ⟨r, (bind_of_ok hr).trans hr', hmakes'.of_grows hmakes.grows, fun hg => hk' (hk hg)⟩

theorem CompilesRow.bind {Ls : List (Language Nat)} {L' : Language Nat}
    {c : Compile (List Fragment)} {f : List Fragment → Compile Fragment} (h : CompilesRow Ls c)
    (hf : ∀ as g S, g.Closed → Row g as S Ls →
      ∃ r, f as g = .ok r ∧ Makes S L' g r ∧ (g.Fruitful → r.2.Fruitful)) :
    Compiles L' (c >>= f) := by
  intro g hc
  obtain ⟨⟨as, g'⟩, hr, hrow, hk⟩ := h g hc
  obtain ⟨r, hr', hmakes, hk'⟩ := hf as g' _ (hrow.closed hc) hrow.row
  refine ⟨r, (bind_of_ok hr).trans hr', ?_, fun hg => hk' (hk hg)⟩
  rw [← Set.empty_union (fresh g g')] at hmakes
  exact hmakes.of_grows hrow.grows

theorem Compiles.cons {Ls : List (Language Nat)} {c : Compile Fragment}
    {cs : Compile (List Fragment)} (h : Compiles L c) (h' : CompilesRow Ls cs) :
    CompilesRow (L :: Ls) (do
      let a ← c
      let as ← cs
      return a :: as) := by
  intro g hc
  obtain ⟨⟨a, g₁⟩, hr, hmakes, hk⟩ := h g hc
  obtain ⟨⟨as, g₂⟩, hr', hrow, hk'⟩ := h' g₁ (hmakes.closed hc)
  exact ⟨(a :: as, g₂), (bind_of_ok hr).trans (bind_of_ok hr'), hmakes.row.append hrow,
    fun hg => hk' (hk hg)⟩

theorem exists_shrink {r : Fragment × Graph} (o : CompileOptions) (hc : g.Closed)
    (h : Makes S L g r) (hk : g.Fruitful → r.2.Fruitful) (hle : Over o.alphabet.maxSymbol L) :
    ∃ r', Compile.ofBuild (r.1.shrink o) r.2 = .ok r' ∧ Makes S L g r' ∧
      (g.Fruitful → r'.2.Fruitful) := by
  have hshrink := makes_shrink o (h.closed hc) h.lives (h.words.symm ▸ hle)
  rw [h.words] at hshrink
  exact ⟨_, rfl, hshrink.of_grows h.grows,
    fun hg => fruitful_shrink o (h.closed hc) h.lives (hk hg)⟩

/-! ## expressions -/

/-- the characters collected so far -/
theorem makesRow_ofRun (α : Alphabet) (run : List Char) (g : Graph) :
    ∃ Ls, MakesRow Ls g (ofRun α run g) ∧ Ls.prod = texts α run.reverse := by
  cases run with
  | nil => exact ⟨[], makesRow_nil g, rfl⟩
  | cons c run =>
    have hstep : ofRun α (c :: run) g =
        ([(text α (c :: run).reverse g).1], (text α (c :: run).reverse g).2) := rfl
    rw [hstep]
    exact ⟨_, (makes_text α _ g).row, List.prod_singleton⟩

theorem texts_append (α : Alphabet) (s t : List Char) :
    texts α (s ++ t) = texts α s * texts α t := by
  rw [texts, List.map_append, List.prod_append, texts, texts]

theorem texts_singleton (α : Alphabet) (c : Char) : texts α [c] = α.literal c := by
  rw [texts, List.map_cons, List.map_nil, List.prod_singleton]

theorem sum_map_words (α : Alphabet) (es : List Expr) :
    (es.map (Expr.words α)).sum = Expr.wordsOfAny α es := by
  induction es with
  | nil => rfl
  | cons e es ih =>
    rw [List.map_cons, List.sum_cons, ih]
    rfl

namespace Expr

theorem compileParts_cons {o : CompileOptions} {e : Expr} (he : ∀ c, e ≠ .char c)
    (run : List Char) (es : List Expr) : compileParts o run (e :: es) = (do
      let chain ← Compile.ofBuild (ofRun o.alphabet run)
      let a ← e.compile o
      let as ← compileParts o [] es
      return chain ++ a :: as) := by
  cases e with
  | char c => exact absurd rfl (he c)
  | _ => rfl

mutual

/-- an expression without assertions compiles to a fragment for its words -/
theorem compiles_expr (o : CompileOptions) : (e : Expr) → e.Valid → e.InOrder →
    e.assertion? = none → Compiles (e.words o.alphabet) (e.compile o)
  | .empty, _, _, _ => compiles_ofBuild makes_empty keeps_empty
  | .char c, _, _, _ => compiles_ofBuild (makes_literal o.alphabet c) (keeps_literal o.alphabet c)
  | .byte b, _, _, _ => compiles_ofBuild (makes_byte b) (keeps_symbolClass _)
  | .charClass s, _, _, _ =>
    compiles_ofBuild (makes_charClass o.alphabet s) (keeps_charClass o.alphabet s)
  | .byteClass s, _, _, _ => compiles_ofBuild (makes_byteClass s) (keeps_symbolClass s)
  | .assertion a, _, _, hnone => absurd hnone (Option.some_ne_none a)
  | .loop e count greedy, hv, ho, hnone => by
    refine (compiles_expr o e hv ho.2 hnone).bind fun a g S hc ha hwords => ?_
    have h := makes_repeated hc ha ho.1
    rw [hwords] at h
    exact exists_shrink o hc h (keeps_repeated a count g) ((over_words o.alphabet e hv).times count)
  | .group none e, hv, ho, hnone => compiles_expr o e hv ho hnone
  | .group (some n) e, hv, ho, hnone => by
    refine (compiles_expr o e hv ho hnone).bind fun a g S hc ha hwords => ?_
    have h := makes_group ha n
    rw [hwords] at h
    exact ⟨_, rfl, h, keeps_group a n g⟩
  | .concat es, hv, ho, hnone => by
    intro g hc
    obtain ⟨r, Ls, hr, hrow, hk, hprod⟩ := compiles_parts o es [] hv ho hnone g hc
    have hwords : texts o.alphabet ([] : List Char).reverse = 1 := rfl
    rw [hwords, one_mul] at hprod
    have h := makes_concatenation hrow.row
    rw [hprod] at h
    obtain ⟨r', hr', h', hk'⟩ := exists_shrink o (hrow.closed hc) h (keeps_concatenation r.1 r.2)
      (over_wordsInRow o.alphabet es hv)
    rw [← Set.empty_union (fresh g r.2)] at h'
    exact ⟨r', (bind_of_ok hr).trans hr', h'.of_grows hrow.grows, fun hg => hk' (hk hg)⟩
  | .alt es, hv, ho, hnone => by
    refine (compiles_all o es hv ho hnone).bind fun as g S hc hrow => ?_
    have h := makes_alternatives hrow
    rw [sum_map_words] at h
    exact exists_shrink o hc h (keeps_alternatives as g) (over_wordsOfAny o.alphabet es hv)

theorem compiles_all (o : CompileOptions) : (es : List Expr) → ValidAll es → InOrderAll es →
    assertionIn? es = none → CompilesRow (es.map (words o.alphabet)) (compileAll o es)
  | [], _, _, _ => fun g _ => ⟨([], g), rfl, makesRow_nil g, id⟩
  | e :: es, ⟨hv, hvs⟩, ⟨ho, hos⟩, hnone => by
    obtain ⟨he, hes⟩ := Option.or_eq_none_iff.1 hnone
    exact (compiles_expr o e hv ho he).cons (compiles_all o es hvs hos hes)

/-- characters side by side become one chain -/
theorem compiles_parts (o : CompileOptions) : (es : List Expr) → (run : List Char) →
    ValidAll es → InOrderAll es → assertionIn? es = none → ∀ g : Graph, g.Closed →
      ∃ r Ls, compileParts o run es g = .ok r ∧ MakesRow Ls g r ∧ (g.Fruitful → r.2.Fruitful) ∧
        Ls.prod = texts o.alphabet run.reverse * wordsInRow o.alphabet es
  | [], run, _, _, _, g, _ => by
    obtain ⟨Ls, hrow, hprod⟩ := makesRow_ofRun o.alphabet run g
    exact ⟨_, Ls, rfl, hrow, keeps_ofRun o.alphabet run g, hprod.trans (mul_one _).symm⟩
  | e :: es, run, ⟨hv, hvs⟩, ⟨ho, hos⟩, hnone, g, hc => by
    obtain ⟨he, hes⟩ := Option.or_eq_none_iff.1 hnone
    by_cases hchar : ∃ c, e = .char c
    · obtain ⟨c, rfl⟩ := hchar
      obtain ⟨r, Ls, hr, hrow, hk, hprod⟩ := compiles_parts o es (c :: run) hvs hos hes g hc
      refine ⟨r, Ls, hr, hrow, hk, hprod.trans ?_⟩
      rw [List.reverse_cons, texts_append, texts_singleton, mul_assoc]
      rfl
    · rw [compileParts_cons (fun c h => hchar ⟨c, h⟩)]
      obtain ⟨Ls, hchain, hprod⟩ := makesRow_ofRun o.alphabet run g
      obtain ⟨⟨a, g₁⟩, hr₁, hmakes, hk₁⟩ := compiles_expr o e hv ho he _ (hchain.closed hc)
      obtain ⟨⟨as, g₂⟩, Ms, hr₂, hrow, hk₂, hprod'⟩ :=
        compiles_parts o es [] hvs hos hes g₁ (hmakes.closed (hchain.closed hc))
      refine ⟨_, _, (ofBuild_bind _ _ g).trans ((bind_of_ok hr₁).trans (bind_of_ok hr₂)),
        hchain.append (hmakes.row.append hrow),
        fun hg => hk₂ (hk₁ (keeps_ofRun o.alphabet run g hg)), ?_⟩
      rw [List.prod_append, List.prod_append, List.prod_singleton, hprod, hprod']
      show _ * (_ * (1 * _)) = _
      rw [one_mul]
      rfl

end

/-! ## the graph of an expression -/

/-- whatever else the arena holds, an expression without assertions compiles, and the graph of
its fragment accepts exactly the words of the expression, with and without minimized parts -/
theorem words_finish_compile {o : CompileOptions} {e : Expr} (hv : e.Valid) (ho : e.InOrder)
    (hnone : e.assertion? = none) {g : Graph} (hc : g.Closed) :
    ∃ a g', e.compile o g = .ok (a, g') ∧ (a.finish g').words = e.words o.alphabet := by
  obtain ⟨⟨a, g'⟩, hr, hmakes, -⟩ := compiles_expr o e hv ho hnone g hc
  refine ⟨a, g', hr, ?_⟩
  rw [words_finish (hmakes.closed hc) hmakes.lives]
  exact hmakes.words

/-- `(?:a|\xFF){1,2}é*?` over Latin-1, its parts minimized -/
theorem words_finish_compile_latin1 :
    let e : Expr := .concat [.loop (.alt [.char 'a', .byte 0xFF]) (.between 1 2) true,
      .loop (.charClass [(0xE9, 0xE9)]) .zeroOrMore false]
    ∃ a g', e.compile ⟨.bytes .latin1, true⟩ Graph.empty = .ok (a, g') ∧
      (a.finish g').words = e.words (.bytes .latin1) :=
  words_finish_compile (by simp [Valid, ValidAll]) (by simp [InOrder, InOrderAll, Count.InOrder])
    rfl closed_empty

end Expr
end SpanSearch
