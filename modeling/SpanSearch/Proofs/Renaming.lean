import SpanSearch.Proofs.Counts
import SpanSearch.Proofs.Engines
import SpanSearch.Proofs.Reduced
import SpanSearch.Proofs.Spacing

/-!
# Two tables for one language are one up to the names of their states

Minimizing the parts of a pattern changes the graphs that its tables are made of, but neither
what words lead to nor how many states it takes to tell them apart.

* `Table.Renames`       a bijection of states that keeps what a table does
* `Table.Isomorphic`    two tables are one up to the names of their states
* `Table.Agrees`        words lead to states that show the same
* `Table.Paired`        a word leads to one state here and to the other there
* `Reduced.exists_renames`   reduced tables that agree are renamed into each other
* `Engine.Isomorphic`   the same for each table of an engine
* `Pattern.ofExpr_isomorphic`   whether parts are minimized makes no difference to a pattern
-/

namespace SpanSearch
namespace Table

variable {t u : Table} {max : Nat}

/-- `f` gives the states of one table the names that they have in another -/
structure Renames (f : Nat → Nat) (t u : Table) (max : Nat) : Prop where
  bijOn : Set.BijOn f (Set.Iio t.size) (Set.Iio u.size)
  fixes : f dead = dead
  start : f t.start = u.start
  next : ∀ id < t.size, ∀ sym ≤ max, f (t.next id sym) = u.next (f id) sym
  accepting : ∀ id < t.size, u.isAccepting (f id) = t.isAccepting id
  silent : ∀ id < t.size, u.isSilent (f id) = t.isSilent id

/-- two tables are one up to the names of their states -/
structure Isomorphic (t u : Table) (max : Nat) : Prop where
  size : t.size = u.size
  classes : t.classes = u.classes
  renames : ∃ f, Renames f t u max

def Agrees (t u : Table) (max : Nat) : Prop :=
  ∀ w : List Nat, (∀ sym ∈ w, sym ≤ max) → t.Resembles (t.after w) u (u.after w)

theorem Agrees.symm (h : t.Agrees u max) : u.Agrees t max := fun w hw => (h w hw).symm

/-! ## states that words pair -/

/-- both states are dead, or some word leads to the one here and to the other there -/
def Paired (t u : Table) (max id id' : Nat) : Prop :=
  id = dead ∧ id' = dead ∨
    ∃ w : List Nat, (∀ sym ∈ w, sym ≤ max) ∧ t.after w = id ∧ u.after w = id'

theorem Paired.symm {id id' : Nat} (h : t.Paired u max id id') : u.Paired t max id' id :=
  h.imp (fun h => ⟨h.2, h.1⟩) fun ⟨w, hw, h, h'⟩ => ⟨w, hw, h', h⟩

theorem eq_dead_of_isDead {id : Nat} (h : t.isDead id = true) : id = dead := beq_iff_eq.1 h

section
variable (ht : t.Reduced max) (hu : u.Reduced max) (h : t.Agrees u max)

include ht hu h

theorem Paired.resembles {id id' : Nat} (hp : t.Paired u max id id') :
    t.Resembles id u id' := by
  rcases hp with ⟨rfl, rfl⟩ | ⟨w, hw, rfl, rfl⟩
  · exact ⟨ht.rejects.trans hu.rejects.symm, rfl, rfl⟩
  · exact h w hw

omit h in
theorem Paired.next {id id' : Nat} (hp : t.Paired u max id id') {sym : Nat} (hsym : sym ≤ max) :
    t.Paired u max (t.next id sym) (u.next id' sym) := by
  rcases hp with ⟨rfl, rfl⟩ | ⟨w, hw, rfl, rfl⟩
  · exact .inl ⟨ht.stays sym, hu.stays sym⟩
  · refine .inr ⟨w ++ [sym], List.forall_mem_append.2 ⟨hw, by simpa using hsym⟩, ?_, ?_⟩
    · exact after_concat t w sym
    · exact after_concat u w sym

/-- a state has one partner, since words that lead to one state here do so there -/
theorem Paired.unique {id id' id'' : Nat} (hp : t.Paired u max id id')
    (hp' : t.Paired u max id id'') : id' = id'' := by
  rcases hp with ⟨rfl, rfl⟩ | ⟨w, hw, rfl, rfl⟩
  · exact (eq_dead_of_isDead ((hp'.resembles ht hu h).dead.symm.trans rfl)).symm
  · rcases hp' with ⟨hdead, rfl⟩ | ⟨w', hw', heq, rfl⟩
    · exact eq_dead_of_isDead ((h w hw).dead.symm.trans (beq_iff_eq.2 hdead))
    · refine hu.apart w w' hw hw' fun v hv => ?_
      have happend (w : List Nat) : t.after (w ++ v) = v.foldl t.next (t.after w) :=
        List.foldl_append
      have hwv := h _ (List.forall_mem_append.2 ⟨hw, hv⟩)
      rw [happend, ← heq, ← happend] at hwv
      exact hwv.symm.trans (h _ (List.forall_mem_append.2 ⟨hw', hv⟩))

omit hu h in
theorem Reduced.after_lt {w : List Nat} (hw : ∀ sym ∈ w, sym ≤ max) : t.after w < t.size := by
  induction w using List.reverseRecOn with
  | nil => exact ht.start
  | append_singleton w sym ih =>
    obtain ⟨hw, hsym⟩ := List.forall_mem_append.1 hw
    rw [after_concat]
    exact ht.closed _ (ih hw) sym (hsym sym List.mem_cons_self)

omit h in
theorem Reduced.exists_paired {id : Nat} (hid : id < t.size) :
    ∃ id' < u.size, t.Paired u max id id' := by
  by_cases hne : id = dead
  · exact ⟨dead, Nat.lt_of_le_of_lt (Nat.zero_le _) hu.start, .inl ⟨hne, rfl⟩⟩
  · obtain ⟨w, hw, heq⟩ := ht.reached id hid hne
    exact ⟨u.after w, hu.after_lt hw, .inr ⟨w, hw, heq, rfl⟩⟩

/-- reduced tables that agree are one up to the names of their states -/
theorem Reduced.exists_renames : ∃ f, Renames f t u max := by
  have hexists (id : Nat) : ∃ id', id < t.size → id' < u.size ∧ t.Paired u max id id' := by
    by_cases hid : id < t.size
    · obtain ⟨id', hid', hp⟩ := ht.exists_paired hu hid
      exact ⟨id', fun _ => ⟨hid', hp⟩⟩
    · exact ⟨0, fun hlt => absurd hlt hid⟩
  choose f hf using hexists
  have hpos : dead < t.size := Nat.lt_of_le_of_lt (Nat.zero_le _) ht.start
  have heq {id id' : Nat} (hid : id < t.size) (hp : t.Paired u max id id') : f id = id' :=
    (hf id hid).2.unique ht hu h hp
  refine ⟨f, ⟨fun id hid => (hf id hid).1, fun id hid id' hid' hsame => ?_, fun id' hid' => ?_⟩,
    heq hpos (.inl ⟨rfl, rfl⟩), heq ht.start (.inr ⟨[], List.forall_mem_nil _, rfl, rfl⟩),
    fun id hid sym hsym => ?_, fun id hid => ?_, fun id hid => ?_⟩
  · have hp := (hf id hid).2
    rw [hsame] at hp
    exact hp.symm.unique hu ht h.symm (hf id' hid').2.symm
  · obtain ⟨id, hid, hp⟩ := hu.exists_paired ht hid'
    exact ⟨id, hid, heq hid hp.symm⟩
  · exact heq (ht.closed id hid sym hsym) ((hf id hid).2.next ht hu hsym)
  · exact ((hf id hid).2.resembles ht hu h).accepting.symm
  · exact ((hf id hid).2.resembles ht hu h).silent.symm

end

/-! ## what a renaming keeps -/

theorem Renames.size_eq {f : Nat → Nat} (hf : Renames f t u max) : t.size = u.size := by
  have h : Set.BijOn f (Finset.range t.size) (Finset.range u.size) := by
    simpa only [Finset.coe_range] using hf.bijOn
  simpa only [Finset.card_range] using Finset.card_nbij f h.mapsTo h.injOn h.surjOn

theorem Renames.runs_subset {f : Nat → Nat} (hf : Renames f t u max) (ht : t.Reduced max) :
    t.runs max ⊆ u.runs max := by
  rintro ⟨lo, hi⟩ ⟨id, hid, row, hrow, hruns⟩
  have hle := hruns.le
  have hmax := hruns.le_max
  have hlt : row < t.size := hruns.inside lo (Nat.le_refl _) hle ▸ ht.closed id hid lo (by omega)
  have hdead : dead < t.size := Nat.lt_of_le_of_lt (Nat.zero_le _) hlt
  have hother {sym : Nat} (hsym : sym ≤ max) (hne : t.next id sym ≠ row) :
      u.next (f id) sym ≠ f row := fun heq =>
    hne (hf.bijOn.injOn (ht.closed id hid sym hsym) hlt ((hf.next id hid sym hsym).trans heq))
  refine ⟨f id, hf.bijOn.mapsTo hid, f row, fun heq => ?_, hle, hmax, fun sym h1 h2 => ?_,
    fun sym hsym => ?_, fun hlast => ?_⟩
  · exact hrow (hf.bijOn.injOn hlt hdead (heq.trans hf.fixes.symm))
  · rw [← hf.next id hid sym (Nat.le_trans h2 hmax), hruns.inside sym h1 h2]
  · exact hother (by omega) (hruns.before sym hsym)
  · exact hother hlast (hruns.behind hlast)

end Table

/-! ## tables of graphs -/

section
variable {L : Language Nat} {max : Nat} {t u : Table}

theorem Table.Finds.agrees (ht : t.Finds L max) (hu : u.Finds L max) : t.Agrees u max := by
  intro w hw
  have hacc : t.isAccepting (t.after w) = u.isAccepting (u.after w) := by
    rw [Bool.eq_iff_iff, ht.accepting w hw, hu.accepting w hw]
  refine ⟨hacc, ?_, ?_⟩
  · rw [Bool.eq_iff_iff, ht.silent w hw, hu.silent w hw, hacc]
  · rw [Bool.eq_iff_iff, ht.dead w hw, hu.dead w hw]

theorem Table.Recognizes.agrees (ht : t.Recognizes L max) (hu : u.Recognizes L max)
    (hsilent : ∀ w : List Nat, (∀ sym ∈ w, sym ≤ max) →
      t.isSilent (t.after w) = false ∧ u.isSilent (u.after w) = false) : t.Agrees u max := by
  intro w hw
  obtain ⟨hquiet, hquiet'⟩ := hsilent w hw
  refine ⟨?_, hquiet.trans hquiet'.symm, ?_⟩
  · rw [Bool.eq_iff_iff, ht.accepting w hw, hu.accepting w hw]
  · rw [Bool.eq_iff_iff, ht.dead w hw, hu.dead w hw]

end

namespace Graph

variable {g g' : Graph} {L : Language Nat} (o : Options)

theorem MatchesLoudly.not_silent (h : g.MatchesLoudly L) (hover : Over o.alphabet.maxSymbol L)
    {w : List Nat}
    (hw : ∀ sym ∈ w, sym ≤ o.alphabet.maxSymbol) :
    (o.table g).isSilent ((o.table g).after w) = false := by
  have hwords : g.epsilonFree.words = L := (words_epsilonFree h.closed h.start).trans h.words
  have hspec := (decides_minimal h.closed h.start o.alphabet).table_spec o.thresholds
    (hwords.symm ▸ hover) hw
  refine Bool.eq_false_iff.2 fun hsilent => ?_
  obtain ⟨-, ⟨v, q, hr, -⟩, hall⟩ := hspec.2.2.1 hsilent
  obtain ⟨s, hs, -⟩ := reads_append.1 hr
  exact Bool.false_ne_true ((h.loud.epsilonFree h.closed h.start s).symm.trans (hall s hs))

/-- the tables of two graphs are one up to the names of their states if they agree -/
theorem isomorphic_table (hc : g.Closed) (hs : g.start < g.size) (hfruit : g.Fruitful)
    (hover : Over o.alphabet.maxSymbol g.words) (hc' : g'.Closed) (hs' : g'.start < g'.size)
    (hfruit' : g'.Fruitful) (hover' : Over o.alphabet.maxSymbol g'.words)
    (h : (o.table g).Agrees (o.table g') o.alphabet.maxSymbol) :
    (o.table g).Isomorphic (o.table g') o.alphabet.maxSymbol := by
  have hred := reduced_table o hc hs hfruit hover
  have hred' := reduced_table o hc' hs' hfruit' hover'
  obtain ⟨f, hf⟩ := hred.exists_renames hred' h
  obtain ⟨f', hf'⟩ := hred'.exists_renames hred h.symm
  refine ⟨hf.size_eq, ?_, f, hf⟩
  exact classes_eq_of_runs_eq o.thresholds (decides_minimal hc hs _) (spaced_minimal hc hs _)
    (decides_minimal hc' hs' _) (spaced_minimal hc' hs' _)
    (Set.Subset.antisymm (hf.runs_subset hred) (hf'.runs_subset hred'))

theorem ScansSilently.isomorphic (h : g.ScansSilently L o.alphabet.maxSymbol)
    (h' : g'.ScansSilently L o.alphabet.maxSymbol) (hover : Over o.alphabet.maxSymbol L) :
    (o.table g).Isomorphic (o.table g') o.alphabet.maxSymbol :=
  isomorphic_table o h.closed h.start h.fruitful (fun _ hw => ((h.mem_words hover).1 hw).1)
    h'.closed h'.start h'.fruitful (fun _ hw => ((h'.mem_words hover).1 hw).1)
    ((finds_table o h hover).agrees (finds_table o h' hover))

theorem MatchesLoudly.isomorphic (h : g.MatchesLoudly L) (h' : g'.MatchesLoudly L)
    (hover : Over o.alphabet.maxSymbol L) :
    (o.table g).Isomorphic (o.table g') o.alphabet.maxSymbol := by
  have ht := recognizes_table o h.closed h.start (h.words.symm ▸ hover)
  have hu := recognizes_table o h'.closed h'.start (h'.words.symm ▸ hover)
  rw [h.words] at ht
  rw [h'.words] at hu
  exact isomorphic_table o h.closed h.start h.fruitful (h.words.symm ▸ hover) h'.closed h'.start
    h'.fruitful (h'.words.symm ▸ hover)
    (ht.agrees hu fun w hw => ⟨h.not_silent o hover hw, h'.not_silent o hover hw⟩)

end Graph

/-! ## engines and patterns -/

/-- each table of one engine is one of the other up to the names of its states -/
def Engine.Isomorphic (max : Nat) : Engine → Engine → Prop
  | .scanning finder back, .scanning finder' back' =>
    finder.Isomorphic finder' max ∧ back.Isomorphic back' max
  | .direct base, .direct base' => base.Isomorphic base' max
  | _, _ => False

/-- minimizing parts changes nothing about the engine of an expression but the names of states -/
theorem Expr.exists_engines (o : Options) {e : Expr} (hv : e.Valid) (ho : e.InOrder)
    (hnone : e.assertion? = none) (yes no : Bool) : ∃ eng eng',
      { o with minimizeFragments := yes }.engine e = .ok eng ∧
      { o with minimizeFragments := no }.engine e = .ok eng' ∧
      (eng.isScanning = true ↔ o.target = .search) ∧
      eng.Isomorphic o.alphabet.maxSymbol eng' := by
  have hover := over_words o.alphabet e hv
  by_cases htarget : o.target = .search
  · have hengine (b : Bool) : ∃ f back, { o with minimizeFragments := b }.engine e =
        .ok (.scanning (o.table f) (o.table back)) ∧
          f.ScansSilently (e.words o.alphabet) o.alphabet.maxSymbol ∧
          back.MatchesLoudly (e.words o.alphabet).reverse := by
      obtain ⟨f, back, hrun, hf, hback⟩ := exists_searchGraphs
        (o := { o with minimizeFragments := b }.compileOptions) hv ho hnone
      exact ⟨f, back,
        Options.engine_of_search (o := { o with minimizeFragments := b }) htarget hrun,
        hf, hback⟩
    obtain ⟨f, back, hrun, hf, hback⟩ := hengine yes
    obtain ⟨f', back', hrun', hf', hback'⟩ := hengine no
    have hover' : Over o.alphabet.maxSymbol (e.words o.alphabet).reverse := fun w hw sym hsym =>
      hover _ (Language.mem_reverse.1 hw) sym (List.mem_reverse.2 hsym)
    exact ⟨_, _, hrun, hrun', iff_of_true rfl htarget, hf.isomorphic o hf' hover,
      hback.isomorphic o hback' hover'⟩
  · have hengine (b : Bool) : ∃ g, { o with minimizeFragments := b }.engine e =
        .ok (.direct (o.table g)) ∧ g.MatchesLoudly (e.words o.alphabet) := by
      obtain ⟨g, hrun, hg⟩ := exists_baseGraph
        (o := { o with minimizeFragments := b }.compileOptions) hv ho hnone
      exact ⟨g, Options.engine_of_not_search (o := { o with minimizeFragments := b }) htarget hrun,
        hg⟩
    obtain ⟨g, hrun, hg⟩ := hengine yes
    obtain ⟨g', hrun', hg'⟩ := hengine no
    exact ⟨_, _, hrun, hrun', iff_of_false Bool.false_ne_true htarget, hg.isomorphic o hg' hover⟩

namespace Pattern

/-- whether the parts of a pattern are minimized or not, its tables have as many states and the
same classes, and a bijection of their states keeps the start, all steps, acceptance and silence -/
theorem ofExpr_isomorphic (o : Options) {e : Expr} (hv : e.Valid) (hnone : e.assertion? = none) :
    ∃ p q, Pattern.ofExpr { o with minimizeFragments := true } e = .ok p ∧
      Pattern.ofExpr { o with minimizeFragments := false } e = .ok q ∧
      (p.engine.isScanning = true ↔ o.target = .search) ∧
      p.engine.Isomorphic o.alphabet.maxSymbol q.engine := by
  have hv' := (Expr.valid_ordered e).2 hv
  have ho := Expr.inOrder_ordered e
  have hnone' := (Expr.assertion?_ordered e).trans hnone
  obtain ⟨tr, htracer⟩ := Expr.exists_tracer o.alphabet hv' ho hnone'
  obtain ⟨eng, eng', hrun, hrun', hscan, hiso⟩ := Expr.exists_engines o hv' ho hnone' true false
  refine ⟨⟨eng, tr, o.mode, o.alphabet, o.target, e.ordered.groupCount⟩,
    ⟨eng', tr, o.mode, o.alphabet, o.target, e.ordered.groupCount⟩, ?_, ?_, hscan, hiso⟩
  · rw [← ofExpr_ordered, Pattern.ofExpr, htracer, hrun]
    rfl
  · rw [← ofExpr_ordered, Pattern.ofExpr, htracer, hrun']
    rfl

/-- `(ab|a)*c{2,3}` for a search over UTF-8 -/
theorem ofExpr_isomorphic_search :
    let e : Expr := .concat [.loop (.group (some 1) (.alt [.concat [.char 'a', .char 'b'],
      .char 'a'])) .zeroOrMore true, .loop (.char 'c') (.between 2 3) true]
    ∃ p q, Pattern.ofExpr { minimizeFragments := true } e = .ok p ∧
      Pattern.ofExpr { minimizeFragments := false } e = .ok q ∧
      (p.engine.isScanning = true ↔ Target.search = .search) ∧
      p.engine.Isomorphic 0xFF q.engine :=
  ofExpr_isomorphic {} (by simp [Expr.Valid, Expr.ValidAll]) rfl

end Pattern
end SpanSearch
