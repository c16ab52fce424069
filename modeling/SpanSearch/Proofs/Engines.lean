import SpanSearch.Proofs.Verdicts

/-!
# What the engines of a pattern tell

* `Engine.Tells`      each table of an engine tells of the words that lead to its states
* `Expr.exists_engine`, `Expr.exists_tracer`   without assertions both exist
* `Table.Lists`       the bytes of an accelerator are those that leave its state
* `Table.SkipsSafely`     skipping to the bytes of an accelerator leaves the state as it is
* `Pattern.ofExpr_tells`   the tables of a pattern tell of the words of its expression
-/

namespace SpanSearch

open SpanSearch.Graph

variable {L : Language Nat} {max : Nat} {o : Options} {e : Expr}

/-- each table of an engine tells of the words that lead to its states -/
def Engine.Tells (L : Language Nat) (max : Nat) : Engine → Prop
  | .scanning finder back => finder.Finds L max ∧ back.Recognizes L.reverse max
  | .direct base => base.Recognizes L max

def Engine.isScanning : Engine → Bool
  | .scanning _ _ => true
  | .direct _ => false

/-! ## accelerators -/

/-- the bytes that leave a state are listed, and the state is neither dead nor accepting -/
structure Table.Lists (t : Table) (id : Nat) : Prop where
  alive : t.isDead id = false
  undecided : t.isAccepting id = false
  length_le : (t.accelerator id).length ≤ Table.maxNeedles
  next_ne_iff : ∀ b < 256, t.next id b ≠ id ↔ b ∈ t.accelerator id

theorem Table.Lists.next_eq {t : Table} {id b : Nat} (h : t.Lists id) (hb : b < 256)
    (hnot : b ∉ t.accelerator id) : t.next id b = id :=
  Classical.not_not.1 (mt (h.next_ne_iff b hb).1 hnot)

/-- skipping to the bytes of an accelerator leaves the state as it is, and it does not accept -/
def Table.SkipsSafely (t : Table) (a : Alphabet) : Prop :=
  ∀ id, t.accelerator id ≠ [] → a.isBytes = true ∧ t.isAccepting id = false ∧
    (t.accelerator id).length ≤ Table.maxNeedles ∧
    ∀ b, b < 256 → b ∉ t.accelerator id → t.next id b = id

theorem getD_map_range {β : Type} (f : Nat → β) (n i : Nat) (d : β) :
    ((List.range n).map f).toArray.getD i d = if i < n then f i else d := by
  rw [Array.getD_eq_getD_getElem?, List.getElem?_toArray, List.getElem?_map]
  by_cases hi : i < n
  · rw [List.getElem?_range hi, if_pos hi]
    rfl
  · rw [List.getElem?_eq_none (List.length_range ▸ Nat.le_of_not_lt hi), if_neg hi]
    rfl

/-- an accelerator has all bytes that leave a state that is not dead and does not accept -/
theorem Table.accelsOf_spec {c : ByteClasses} {rows : Array (Array Nat)} {acceptStart id : Nat}
    (hne : (accelsOf (.bytes c) rows acceptStart).getD id [] ≠ []) :
    id ≠ dead ∧ ¬ acceptStart ≤ id ∧ (leaving c (rows.getD id #[]) id).length ≤ maxNeedles ∧
      (accelsOf (.bytes c) rows acceptStart).getD id [] = leaving c (rows.getD id #[]) id := by
  rw [accelsOf, getD_map_range] at *
  by_cases hid : id < rows.size
  · rw [if_pos hid] at *
    by_cases hout : id = dead ∨ acceptStart ≤ id
    · exact absurd (if_pos hout) hne
    · rw [if_neg hout] at *
      by_cases hle : (leaving c (rows.getD id #[]) id).length ≤ maxNeedles
      · exact ⟨fun h => hout (.inl h), fun h => hout (.inr h), hle, if_pos hle⟩
      · exact absurd (if_neg hle) hne
  · exact absurd (if_neg hid) hne

theorem Table.lists_ofGraph {g : Graph} {a : Alphabet} {t : Thresholds} {id : Nat}
    (hne : (ofGraph g a t).accelerator id ≠ []) : (ofGraph g a t).Lists id := by
  cases a with
  | chars => exact absurd rfl hne
  | bytes enc =>
    obtain ⟨hdead, hlt, hlength, heq⟩ := accelsOf_spec hne
    change (ofGraph g (.bytes enc) t).accelerator id = _ at heq
    refine ⟨beq_eq_false_iff_ne.2 hdead, decide_eq_false hlt, heq ▸ hlength, fun b hb => ?_⟩
    rw [heq, leaving, List.mem_filter, List.mem_range, and_iff_right hb, bne_iff_ne]
    rfl

theorem Table.skipsSafely_ofGraph (g : Graph) (a : Alphabet) (t : Thresholds) :
    (Table.ofGraph g a t).SkipsSafely a := by
  intro id hne
  have hlists := lists_ofGraph hne
  refine ⟨?_, hlists.undecided, hlists.length_le, fun b => hlists.next_eq⟩
  cases a with
  | chars => exact absurd rfl hne
  | bytes enc => rfl

/-- the finder of an engine only skips what leaves its state as it is -/
def Engine.SkipsSafely (a : Alphabet) : Engine → Prop
  | .scanning finder _ => finder.SkipsSafely a
  | .direct _ => True

/-! ## engines and tracers exist -/

theorem Options.engine_of_search (htarget : o.target = .search) {f b : Graph}
    (hrun : e.searchGraphs o.compileOptions = .ok (f, b)) :
    o.engine e = .ok (.scanning (o.table f) (o.table b)) := by
  rw [Options.engine, htarget, hrun]
  rfl

theorem Options.engine_of_not_search (htarget : o.target ≠ .search) {g : Graph}
    (hrun : e.baseGraph o.compileOptions = .ok g) : o.engine e = .ok (.direct (o.table g)) := by
  rw [Options.engine, hrun]
  split
  · exact absurd ‹_› htarget
  · rfl

namespace Expr

/-- without assertions an engine exists, and its tables tell of the words of the expression -/
theorem exists_engine (hv : e.Valid) (ho : e.InOrder) (hnone : e.assertion? = none) :
    ∃ eng, o.engine e = .ok eng ∧ (eng.isScanning = true ↔ o.target = .search) ∧
      eng.SkipsSafely o.alphabet ∧ eng.Tells (e.words o.alphabet) o.alphabet.maxSymbol := by
  have hover := over_words o.alphabet e hv
  by_cases htarget : o.target = .search
  · obtain ⟨f, b, hrun, hscans, hloudly⟩ :=
      exists_searchGraphs (o := o.compileOptions) hv ho hnone
    refine ⟨.scanning (o.table f) (o.table b), Options.engine_of_search htarget hrun,
      iff_of_true rfl htarget, Table.skipsSafely_ofGraph _ _ _, finds_table o hscans hover, ?_⟩
    have hback := recognizes_table o hloudly.closed hloudly.start fun w hw => ?_
    · rwa [hloudly.words] at hback
    · rw [hloudly.words] at hw
      exact fun sym hsym => hover _ (Language.mem_reverse.1 hw) sym (List.mem_reverse.2 hsym)
  · obtain ⟨g, hrun, hloudly⟩ := exists_baseGraph (o := o.compileOptions) hv ho hnone
    refine ⟨.direct (o.table g), Options.engine_of_not_search htarget hrun,
      iff_of_false Bool.false_ne_true htarget, trivial, ?_⟩
    have hbase := recognizes_table o hloudly.closed hloudly.start fun w hw => ?_
    · rwa [hloudly.words] at hbase
    · exact hover w (hloudly.words ▸ hw)

theorem exists_tracer (a : Alphabet) (hv : e.Valid) (ho : e.InOrder)
    (hnone : e.assertion? = none) : ∃ tr, e.tracer a = .ok tr := by
  obtain ⟨⟨f, g⟩, hr, -⟩ := compiles_expr { alphabet := a } e hv ho hnone Graph.empty closed_empty
  have hrun : (e.compile { alphabet := a }).run Graph.empty = .ok (f, g) := hr
  refine ⟨⟨((f.group 0 g).1.finish (f.group 0 g).2).contract⟩, ?_⟩
  simp only [tracer, construct, StateT.run_bind, hrun]
  rfl

end Expr

/-! ## patterns -/

/-- without assertions a pattern is built, with a finder for a search, and its tables tell of the
words of the expression -/
theorem Pattern.ofExpr_tells (o : Options) {e : Expr} (hv : e.Valid) (ho : e.InOrder)
    (hnone : e.assertion? = none) :
    ∃ p, Pattern.ofExpr o e = .ok p ∧ (p.engine.isScanning = true ↔ o.target = .search) ∧
      p.engine.Tells (e.words o.alphabet) o.alphabet.maxSymbol := by
  obtain ⟨tr, htracer⟩ := Expr.exists_tracer o.alphabet hv ho hnone
  obtain ⟨eng, hengine, hscan, -, htells⟩ := Expr.exists_engine (o := o) hv ho hnone
  refine ⟨⟨eng, tr, o.mode, o.alphabet, o.target, e.groupCount⟩, ?_, hscan, htells⟩
  rw [Pattern.ofExpr, htracer, hengine]
  rfl

/-- `a(?:b|[é-ÿ])+` for a search, its parts minimized -/
theorem Pattern.ofExpr_tells_utf8 :
    let e : Expr := .concat [.char 'a', .loop (.alt [.char 'b', .charClass [(0xE9, 0xFF)]])
      .oneOrMore true]
    ∃ p, Pattern.ofExpr { minimizeFragments := true } e = .ok p ∧
      (p.engine.isScanning = true ↔ Target.search = .search) ∧
      p.engine.Tells (e.words (.bytes .utf8)) 0xFF :=
  Pattern.ofExpr_tells { minimizeFragments := true } (by simp [Expr.Valid, Expr.ValidAll])
    (by simp [Expr.InOrder, Expr.InOrderAll, Count.InOrder]) rfl

end SpanSearch
