import SpanSearch.Matcher
import SpanSearch.Proofs.Operations
import SpanSearch.Proofs.Preferring

/-!
# What the operations of a matcher leave alone

All operations share one cursor, and each of them puts it where it has to read before it reads.
So where the cursor stands between operations does not matter, nor does the current match: calls
of `find` go on from one another whatever is asked for in between.

* `Cursor.Alike`            cursors in one text
* `Matcher.OnlyReads`       steps that only move the cursor
* `Matcher.Scans`           steps that come to know matches, whatever the current one is
* `Matcher.SameProgress`    matchers that have come equally far
* `SameProgress.find`       they find the same and have come equally far again
-/

namespace SpanSearch

/-! ## cursors -/

namespace Cursor

variable {c d e : Cursor} {k : Nat}

/-- two cursors in one text, which only their positions set apart -/
def Alike (c d : Cursor) : Prop := ∀ k, c.moveTo k = d.moveTo k

theorem Alike.refl (c : Cursor) : c.Alike c := fun _ => rfl

theorem Alike.symm (h : c.Alike d) : d.Alike c := fun k => (h k).symm

theorem Alike.trans (h : c.Alike d) (h' : d.Alike e) : c.Alike e := fun k => (h k).trans (h' k)

theorem alike_moveTo (c : Cursor) (k : Nat) : (c.moveTo k).Alike c := moveTo_moveTo c k

theorem alike_read (forward : Bool) (c : Cursor) : (c.read forward).2.Alike c := by
  intro k
  induction c generalizing forward with
  | onTape t pos =>
    cases forward with
    | false =>
      rw [read, if_neg Bool.false_ne_true]
      split <;> rfl
    | true =>
      rw [read, if_pos rfl]
      split <;> rfl
  | reversed c ih => exact congrArg reversed (ih !forward)
  | lent c ih => exact congrArg lent (ih forward)

theorem alike_skipToAny (needles : List Nat) (c : Cursor) : (c.skipToAny needles).Alike c := by
  intro k
  induction c with
  | onTape t pos =>
    rw [skipToAny]
    split <;> rfl
  | reversed c => rfl
  | lent c ih => exact congrArg lent ih

theorem Alike.tape (h : c.Alike d) : c.tape = d.tape := by
  rw [← tape_moveTo 0, h 0, tape_moveTo]

theorem Alike.length (h : c.Alike d) : c.length = d.length := by
  rw [length_eq, length_eq, h.tape]

end Cursor

namespace Tracer

theorem alike_runOn (g : Graph) (rounds stop steps : Nat) (c : Cursor) (t old : Threads) :
    (runOn g rounds stop steps c t old).2.Alike c := by
  induction steps generalizing c t old with
  | zero => exact .refl c
  | succ steps ih =>
    rw [runOn]
    split
    · have hread := c.alike_read true
      rw [Cursor.next]
      generalize c.read true = r at hread
      obtain ⟨sym, d⟩ := r
      cases sym with
      | none => exact hread
      | some sym => exact (ih _ _ _).trans hread
    · exact .refl c

variable {tr : Tracer} {c d : Cursor} {s : Span}

theorem alike_traceOn : (tr.traceOn c s).2.Alike c := by
  rw [traceOn]
  split
  · exact .refl c
  · exact (alike_runOn _ _ _ _ _ _ _).trans (c.alike_moveTo _)

theorem traceOn_eq (h : c.Alike d) : (tr.traceOn c s).1 = (tr.traceOn d s).1 := by
  rw [traceOn, traceOn, h s.start]
  split <;> rfl

end Tracer

namespace Matcher

variable {α β : Type} {m m' m'' : Matcher} {c d : Cursor} {p : Pattern}

/-! ## steps that only move the cursor -/

def withInput (m : Matcher) (c : Cursor) : Matcher := { m with input := c }

theorem moveTo_moveTo (m : Matcher) (j k : Nat) : (m.moveTo j).moveTo k = m.moveTo k :=
  congrArg m.withInput (m.input.moveTo_moveTo j k)

theorem length_moveTo (m : Matcher) (k : Nat) : (m.moveTo k).input.length = m.input.length :=
  m.input.length_moveTo k

theorem resume_moveTo (m : Matcher) (k : Nat) : (m.moveTo k).resume = m.resume := rfl

/-- what there is to do with either kind of engine -/
def byEngine (e : Engine) (f : Table → Table → β) (g : Table → β) : β :=
  match e with
  | .scanning finder back => f finder back
  | .direct base => g base

/-- two matchers of one pattern with one origin, at one place of one text -/
structure SamePlace (m m' : Matcher) : Prop where
  pattern : m'.pattern = m.pattern
  input : m'.input = m.input
  origin : m'.origin = m.origin

/-- a step that only moves the cursor, and looks at nothing but the pattern, the text and the
origin -/
structure OnlyReads (f : Matcher → α × Matcher) : Prop where
  same : ∀ {m m'}, m.SamePlace m' → f m' = ((f m).1, m'.withInput (f m).2.input)
  alike : ∀ m, (f m).2.input.Alike m.input

namespace OnlyReads

variable {f g : Matcher → α × Matcher}

theorem after (hf : OnlyReads f) (m : Matcher) : (f m).2 = m.withInput (f m).2.input :=
  congrArg Prod.snd (hf.same ⟨rfl, rfl, rfl⟩)

theorem answer (x : Cursor → Nat → α) : OnlyReads fun m => (x m.input m.origin, m) where
  same := fun h => by
    rw [h.input, h.origin, ← h.input]
    rfl
  alike := fun _ => .refl _

theorem moveTo (k : Nat → Nat) (hf : OnlyReads f) :
    OnlyReads fun m => f (m.moveTo (k m.origin)) where
  same := fun {m m'} h => by
    have hmoved : (m.moveTo (k m.origin)).SamePlace (m'.moveTo (k m'.origin)) := by
      refine ⟨h.pattern, ?_, h.origin⟩
      show m'.input.moveTo _ = m.input.moveTo _
      rw [h.input, h.origin]
    exact hf.same hmoved
  alike := fun m => (hf.alike _).trans (m.input.alike_moveTo _)

theorem read (forward : Bool) (hnone : OnlyReads f) {g : Nat → Matcher → α × Matcher}
    (hsome : ∀ sym, OnlyReads (g sym)) : OnlyReads fun m =>
      match m.read forward with
      | (none, m) => f m
      | (some sym, m) => g sym m where
  same := fun {m m'} h => by
    show (match m'.read forward with | (none, m) => f m | (some sym, m) => g sym m) = _
    rw [Matcher.read, Matcher.read, h.input]
    rcases m.input.read forward with ⟨_ | sym, d⟩
    · exact hnone.same ⟨h.pattern, rfl, h.origin⟩
    · exact (hsome sym).same ⟨h.pattern, rfl, h.origin⟩
  alike := fun m => by
    have hread := m.input.alike_read forward
    show (match m.read forward with | (none, m) => f m | (some sym, m) => g sym m).2.input.Alike _
    rw [Matcher.read]
    generalize m.input.read forward = r at hread
    obtain ⟨_ | sym, d⟩ := r
    · exact (hnone.alike _).trans hread
    · exact ((hsome sym).alike _).trans hread

theorem ite {q : Cursor → Nat → Prop} [∀ c o, Decidable (q c o)] (hf : OnlyReads f)
    (hg : OnlyReads g) :
    OnlyReads fun m => if q m.input m.origin then f m else g m where
  same := fun {m m'} h => by
    rw [h.input, h.origin]
    split
    · exact hf.same h
    · exact hg.same h
  alike := fun m => by
    split
    · exact hf.alike m
    · exact hg.alike m

theorem map (hf : OnlyReads f) (x : α → Cursor → Nat → β) :
    OnlyReads fun m => (x (f m).1 m.input m.origin, (f m).2) where
  same := fun h => by
    rw [hf.same h, h.input, h.origin]
  alike := hf.alike

theorem dep {f : Pattern → Cursor → Nat → Matcher → α × Matcher}
    (hf : ∀ p c o, OnlyReads (f p c o)) :
    OnlyReads fun m => f m.pattern m.input m.origin m where
  same := fun {m m'} h => by
    rw [h.pattern, h.input, h.origin]
    exact (hf _ _ _).same h
  alike := fun m => (hf _ _ _).alike m

theorem bind (hf : OnlyReads f) {g : α → Matcher → β × Matcher} (hg : ∀ x, OnlyReads (g x)) :
    OnlyReads fun m => g (f m).1 (f m).2 where
  same := fun {m m'} h => by
    rw [hf.same h]
    refine (hg _).same ⟨?_, rfl, ?_⟩
    · rw [hf.after]
      exact h.pattern
    · rw [hf.after]
      exact h.origin
  alike := fun m => ((hg _).alike _).trans (hf.alike m)

end OnlyReads

theorem onlyReads_backFrom (back : Table) (steps id : Nat) :
    OnlyReads (backFrom back steps id) := by
  induction steps generalizing id with
  | zero => exact .answer fun _ _ => false
  | succ steps ih =>
    have hstop : OnlyReads fun m : Matcher =>
        (m.input.position == m.origin && back.isAccepting id, m) :=
      .answer fun c o => c.position == o && back.isAccepting id
    exact .ite (q := fun c o => (decide (c.position ≤ o) || back.isDead id) = true) hstop
      (.read false hstop fun sym => ih (back.next id sym))

theorem onlyReads_reachesOrigin (back : Table) (stop : Nat) :
    OnlyReads fun m => m.reachesOrigin back stop :=
  (OnlyReads.dep (f := fun _ c _ => backFrom back (c.length + 2) back.start)
    fun _ _ _ => onlyReads_backFrom back _ _).moveTo fun _ => stop

theorem onlyReads_confirmed (back : Table) (stops : List Nat) :
    OnlyReads (confirmed back stops) := by
  induction stops with
  | nil => exact .answer fun _ _ => []
  | cons stop stops ih =>
    exact (onlyReads_reachesOrigin back stop).bind
      (g := fun yes m => (if yes then stop :: (confirmed back stops m).1 else
        (confirmed back stops m).1, (confirmed back stops m).2))
      fun yes => ih.map fun l _ _ => if yes then stop :: l else l

theorem onlyReads_candidatesFrom (finder : Table) (steps id : Nat) :
    OnlyReads (candidatesFrom finder steps id) := by
  induction steps generalizing id with
  | zero => exact .answer fun _ _ => []
  | succ steps ih =>
    have hstop : OnlyReads fun m : Matcher => (([] : List Nat), m) := .answer fun _ _ => []
    exact .ite (q := fun c o => (finder.isDead id ||
        (decide (o < c.position) && finder.isSilent id)) = true) hstop
      (.read true hstop fun sym => (ih (finder.next id sym)).map fun l c _ =>
        if finder.isAccepting (finder.next id sym) then c.position :: l else l)

theorem onlyReads_candidates (finder : Table) : OnlyReads fun m => m.candidates finder :=
  ((OnlyReads.dep (f := fun _ c _ => candidatesFrom finder (c.length + 1) finder.start)
    fun _ _ _ => onlyReads_candidatesFrom finder _ _).map fun l _ o =>
      if finder.isAccepting finder.start then o :: l else l).moveTo fun o => o

theorem onlyReads_stopsFrom (base : Table) (steps id : Nat) :
    OnlyReads (stopsFrom base steps id) := by
  induction steps generalizing id with
  | zero => exact .answer fun _ _ => []
  | succ steps ih =>
    have hstop : OnlyReads fun m : Matcher => (([] : List Nat), m) := .answer fun _ _ => []
    exact .read true hstop fun sym =>
      .ite (q := fun _ _ => base.isDead (base.next id sym) = true) hstop
        ((ih (base.next id sym)).map fun l c _ =>
          if base.isAccepting (base.next id sym) then c.position :: l else l)

theorem onlyReads_stopsOf (base : Table) (start : Nat) : OnlyReads fun m => m.stopsOf base start :=
  ((OnlyReads.dep (f := fun _ c _ => stopsFrom base (c.length + 1) base.start)
    fun _ _ _ => onlyReads_stopsFrom base _ _).map fun l _ _ =>
      if base.isAccepting base.start then start :: l else l).moveTo fun _ => start

theorem onlyReads_restFrom (base : Table) (steps id : Nat) :
    OnlyReads (restFrom base steps id) := by
  induction steps generalizing id with
  | zero => exact .answer fun _ _ => false
  | succ steps ih =>
    have hstop (id : Nat) : OnlyReads fun m : Matcher =>
        (base.isAccepting id && m.input.finished, m) :=
      .answer fun c _ => base.isAccepting id && c.finished
    exact .read true (hstop id) fun sym =>
      .ite (q := fun _ _ => base.isDead (base.next id sym) = true) (hstop _) (ih (base.next id sym))

theorem onlyReads_isWhole : OnlyReads isWhole :=
  .dep (f := fun p c o m => byEngine p.engine (fun _ back => m.reachesOrigin back c.length)
      fun base => restFrom base ((m.moveTo o).input.length + 2) base.start (m.moveTo o))
    fun p c o => by
    cases p.engine with
    | scanning finder back => exact onlyReads_reachesOrigin back c.length
    | direct base =>
      exact (OnlyReads.dep (f := fun _ c _ => restFrom base (c.length + 2) base.start)
        fun _ _ _ => onlyReads_restFrom base _ _).moveTo fun _ => o

theorem onlyReads_leadingStops : OnlyReads leadingStops :=
  .dep (f := fun p _ o m => byEngine p.engine
      (fun finder back => confirmed back (m.candidates finder).1 (m.candidates finder).2)
      fun base => m.stopsOf base o) fun p _ o => by
    cases p.engine with
    | scanning finder back => exact (onlyReads_candidates finder).bind (onlyReads_confirmed back)
    | direct base => exact onlyReads_stopsOf base o

theorem isWhole_moveTo (m : Matcher) (k : Nat) : (m.moveTo k).isWhole = m.isWhole := by
  show byEngine m.pattern.engine
    (fun _ back => (m.moveTo k).reachesOrigin back (m.moveTo k).input.length)
    (fun base => restFrom base (((m.moveTo k).moveTo m.origin).input.length + 2) base.start
      ((m.moveTo k).moveTo m.origin)) = m.isWhole
  rw [isWhole]
  cases m.pattern.engine with
  | scanning finder back => simp only [byEngine, reachesOrigin, length_moveTo, moveTo_moveTo]
  | direct base => simp only [byEngine, moveTo_moveTo]

theorem leadingStops_moveTo (m : Matcher) (k : Nat) :
    (m.moveTo k).leadingStops = m.leadingStops := by
  show byEngine m.pattern.engine (fun finder back =>
      confirmed back ((m.moveTo k).candidates finder).1 ((m.moveTo k).candidates finder).2)
    (fun base => (m.moveTo k).stopsOf base m.origin) = m.leadingStops
  rw [leadingStops]
  cases m.pattern.engine with
  | scanning finder back =>
    have hsame : (m.moveTo k).candidates finder = m.candidates finder := by
      simp only [candidates, moveTo_moveTo]
      rfl
    simp only [byEngine, hsame]
  | direct base => simp only [byEngine, stopsOf, moveTo_moveTo]

/-! ## steps that come to know matches -/

/-- the same matcher with another current match -/
def shown (m : Matcher) (found : Option Captures) : Matcher := { m with found := found }

def Bare (d : Captures) : Prop := ∃ s, d = Captures.ofSpan s

/-- a step that comes to know matches, and does not look at the current one -/
structure Scans (f : Matcher → Matcher) : Prop where
  shown : ∀ m found, f (m.shown found) = (f m).shown found
  pattern : ∀ m, (f m).pattern = m.pattern
  origin : ∀ m, (f m).origin = m.origin
  last : ∀ m, (f m).last = m.last
  alike : ∀ m, (f m).input.Alike m.input
  bare : ∀ m, (∀ d ∈ m.pending, Bare d) → ∀ d ∈ (f m).pending, Bare d

namespace Scans

variable {f g : Matcher → Matcher}

theorem found (hf : Scans f) (m : Matcher) : (f m).found = m.found := by
  have hsame : f m = (f m).shown m.found := hf.shown m m.found
  rw [hsame]
  rfl

theorem id : Scans fun m => m where
  shown := fun _ _ => rfl
  pattern := fun _ => rfl
  origin := fun _ => rfl
  last := fun _ => rfl
  alike := fun _ => .refl _
  bare := fun _ h => h

theorem comp (hg : Scans g) (hf : Scans f) : Scans fun m => g (f m) where
  shown := fun m found => (congrArg g (hf.shown m found)).trans (hg.shown _ found)
  pattern := fun m => (hg.pattern _).trans (hf.pattern m)
  origin := fun m => (hg.origin _).trans (hf.origin m)
  last := fun m => (hg.last _).trans (hf.last m)
  alike := fun m => (hg.alike _).trans (hf.alike m)
  bare := fun m h => hg.bare _ (hf.bare m h)

theorem ite {q : Matcher → Prop} [∀ m, Decidable (q m)] (hq : ∀ m found, q (m.shown found) ↔ q m)
    (hf : Scans f) (hg : Scans g) : Scans fun m => if q m then f m else g m where
  shown := fun m found => by
    simp only [hq, hf.shown, hg.shown]
    split <;> rfl
  pattern := fun m => by
    split
    · exact hf.pattern m
    · exact hg.pattern m
  origin := fun m => by
    split
    · exact hf.origin m
    · exact hg.origin m
  last := fun m => by
    split
    · exact hf.last m
    · exact hg.last m
  alike := fun m => by
    split
    · exact hf.alike m
    · exact hg.alike m
  bare := fun m => by
    split
    · exact hf.bare m
    · exact hg.bare m

/-- how a step goes on may depend on anything but the current match -/
theorem dep {f : Matcher → Matcher → Matcher} (hf : ∀ m found, f (m.shown found) = f m)
    (h : ∀ m, Scans (f m)) : Scans fun m => f m m where
  shown := fun m found => by
    rw [hf]
    exact (h m).shown m found
  pattern := fun m => (h m).pattern m
  origin := fun m => (h m).origin m
  last := fun m => (h m).last m
  alike := fun m => (h m).alike m
  bare := fun m => (h m).bare m

theorem moveTo (k : Nat) : Scans fun m => m.moveTo k where
  shown := fun _ _ => rfl
  pattern := fun _ => rfl
  origin := fun _ => rfl
  last := fun _ => rfl
  alike := fun m => m.input.alike_moveTo k
  bare := fun _ h => h

theorem know (s : Span) : Scans fun m => m.know s where
  shown := fun _ _ => rfl
  pattern := fun _ => rfl
  origin := fun _ => rfl
  last := fun _ => rfl
  alike := fun _ => .refl _
  bare := fun _ h => List.forall_mem_cons.2 ⟨⟨s, rfl⟩, h⟩

theorem arrange : Scans Matcher.arrange where
  shown := fun _ _ => rfl
  pattern := fun _ => rfl
  origin := fun _ => rfl
  last := fun _ => rfl
  alike := fun _ => .refl _
  bare := fun _ h d hd => h d ((Ascending.mem_ofList d _).1 hd)

theorem settle (resume : Cursor → Nat → Nat) (exhausted : Bool → Bool) : Scans fun m =>
    { m with resume := resume m.input m.resume, exhausted := exhausted m.exhausted } where
  shown := fun _ _ => rfl
  pattern := fun _ => rfl
  origin := fun _ => rfl
  last := fun _ => rfl
  alike := fun _ => .refl _
  bare := fun _ h => h

theorem skip (finder : Table) (id : Nat) : Scans fun m => m.skip finder id := by
  refine .ite (q := fun _ => (finder.accelerator id).isEmpty = true) (fun _ _ => Iff.rfl) .id ?_
  exact {
    shown := fun _ _ => rfl
    pattern := fun _ => rfl
    origin := fun _ => rfl
    last := fun _ => rfl
    alike := fun m => m.input.alike_skipToAny _
    bare := fun _ h => h }

/-- a step that only moves the cursor, and then one that depends on what it has told -/
theorem after {f : Matcher → α × Matcher} (hf : OnlyReads f) {g : α → Matcher → Matcher}
    (hg : ∀ x, Scans (g x)) : Scans fun m => g (f m).1 (f m).2 := by
  have hsame (m : Matcher) := hf.after m
  exact {
    shown := fun m found => by
      have hshown : f (m.shown found) = ((f m).1, (m.shown found).withInput (f m).2.input) :=
        hf.same ⟨rfl, rfl, rfl⟩
      rw [hshown]
      refine Eq.trans ?_ ((hg _).shown (f m).2 found)
      rw [hsame]
      rfl
    pattern := fun m => ((hg _).pattern _).trans (by rw [hsame]; rfl)
    origin := fun m => ((hg _).origin _).trans (by rw [hsame]; rfl)
    last := fun m => ((hg _).last _).trans (by rw [hsame]; rfl)
    alike := fun m => ((hg _).alike _).trans (hf.alike m)
    bare := fun m h => (hg _).bare _ (by rw [hsame]; exact h) }

theorem read (forward : Bool) (hnone : Scans f) {g : Nat → Matcher → Matcher}
    (hsome : ∀ sym, Scans (g sym)) : Scans fun m =>
      match m.read forward with
      | (none, m) => f m
      | (some sym, m) => g sym m := by
  have hread : OnlyReads fun m : Matcher => m.read forward := {
    same := fun {m m'} h => by
      rw [Matcher.read, Matcher.read, h.input]
      rfl
    alike := fun m => m.input.alike_read forward }
  have h := after hread (g := fun sym m => sym.elim (f m) fun sym => g sym m) fun sym => by
    cases sym with
    | none => exact hnone
    | some sym => exact hsome sym
  have heq : (fun m : Matcher => (m.read forward).1.elim (f (m.read forward).2)
      fun sym => g sym (m.read forward).2) = fun m =>
        match m.read forward with
        | (none, m) => f m
        | (some sym, m) => g sym m := by
    funext m
    rcases m.read forward with ⟨_ | sym, m⟩ <;> rfl
  exact heq ▸ h

end Scans

theorem scans_confirmFrom (back : Table) (stop steps id : Nat) :
    Scans (confirmFrom back stop steps id) := by
  induction steps generalizing id with
  | zero => exact .id
  | succ steps ih =>
    have hknow : Scans fun m => m.know ⟨m.input.position, stop⟩ :=
      .dep (f := fun m m' => m'.know ⟨m.input.position, stop⟩) (fun _ _ => rfl) fun _ => .know _
    exact .ite (q := fun m => m.input.position ≤ m.origin) (fun _ _ => Iff.rfl) .id <|
      .read false .id fun sym =>
        .ite (q := fun _ => back.isDead (back.next id sym) = true) (fun _ _ => Iff.rfl) .id <|
          (ih _).comp (.ite (q := fun _ => back.isAccepting (back.next id sym) = true)
            (fun _ _ => Iff.rfl) hknow .id)

theorem scans_confirm (back : Table) (stop : Nat) : Scans fun m => m.confirm back stop := by
  have hfrom : Scans fun m => confirmFrom back stop (m.input.length + 1) back.start m :=
    .dep (f := fun m => confirmFrom back stop (m.input.length + 1) back.start) (fun _ _ => rfl)
      fun _ => scans_confirmFrom back stop _ _
  have hempty : Scans fun m => if back.isAccepting back.start then m.know ⟨stop, stop⟩ else m :=
    .ite (q := fun _ => back.isAccepting back.start = true) (fun _ _ => Iff.rfl) (.know _) .id
  exact (Scans.moveTo stop).comp (hfrom.comp ((Scans.moveTo stop).comp hempty))

theorem scans_scanFrom (finder back : Table) (steps id : Nat) :
    Scans (scanFrom finder back steps id) := by
  have hdone : Scans fun m : Matcher => { m with exhausted := true } :=
    .settle (fun _ r => r) fun _ => true
  induction steps generalizing id with
  | zero => exact hdone
  | succ steps ih =>
    have hconfirm (id : Nat) : Scans fun m =>
        if finder.isAccepting id then m.confirm back m.input.position else m :=
      .ite (q := fun _ => finder.isAccepting id = true) (fun _ _ => Iff.rfl)
        (.dep (f := fun m m' => m'.confirm back m.input.position) (fun _ _ => rfl)
          fun _ => scans_confirm back _) .id
    exact .ite (q := fun _ => finder.isDead id = true) (fun _ _ => Iff.rfl) hdone <|
      .ite (q := fun m => (!m.pending.isEmpty && finder.isSilent id) = true) (fun _ _ => Iff.rfl)
        .id <| (Scans.read true hdone fun sym => (ih _).comp (hconfirm (finder.next id sym))).comp
          (.skip finder id)

theorem scans_scan (finder back : Table) : Scans fun m => m.scan finder back := by
  have hconfirm : Scans fun m =>
      if finder.isAccepting finder.start then m.confirm back m.resume else m :=
    .ite (q := fun _ => finder.isAccepting finder.start = true) (fun _ _ => Iff.rfl)
      (.dep (f := fun m m' => m'.confirm back m.resume) (fun _ _ => rfl)
        fun _ => scans_confirm back _) .id
  have hfrom : Scans fun m => scanFrom finder back (m.input.length + 1) finder.start m :=
    .dep (f := fun m => scanFrom finder back (m.input.length + 1) finder.start) (fun _ _ => rfl)
      fun _ => scans_scanFrom finder back _ _
  have hresume : Scans fun m : Matcher => { m with resume := m.input.position } :=
    .settle (fun c _ => c.position) fun yes => yes
  have hmove : Scans fun m => m.moveTo m.resume :=
    .dep (f := fun m m' => m'.moveTo m.resume) (fun _ _ => rfl) fun _ => .moveTo _
  exact hresume.comp (Scans.arrange.comp (hfrom.comp (hconfirm.comp hmove)))

theorem scans_runFrom (base : Table) : Scans fun m => m.runFrom base := by
  have hknow (start : Nat) (stops : List Nat) :
      Scans fun m => stops.foldl (fun m stop => m.know ⟨start, stop⟩) m := by
    induction stops with
    | nil => exact .id
    | cons stop stops ih => exact ih.comp (.know _)
  have hread : Scans fun m : Matcher => match m.read true with
      | (none, m) => { m with exhausted := true, resume := m.input.position }
      | (some _, m) => { m with resume := m.input.position } :=
    .read true (.settle (fun c _ => c.position) fun _ => true)
      fun _ => .settle (fun c _ => c.position) fun yes => yes
  exact .dep (f := fun m m' => match (((m'.stopsOf base m.resume).1.foldl
      (fun m'' stop => m''.know ⟨m.resume, stop⟩) (m'.stopsOf base m.resume).2).arrange.moveTo
        m.resume).read true with
      | (none, m) => { m with exhausted := true, resume := m.input.position }
      | (some _, m) => { m with resume := m.input.position }) (fun _ _ => rfl) fun m =>
    .after (onlyReads_stopsOf base m.resume) fun stops =>
      hread.comp ((Scans.moveTo _).comp (Scans.arrange.comp (hknow m.resume stops)))

theorem scans_advance : Scans advance :=
  .dep (f := fun m m' => byEngine m.pattern.engine (fun finder back => m'.scan finder back)
      fun base => m'.runFrom base) (fun _ _ => rfl) fun m => by
    cases m.pattern.engine with
    | scanning finder back => exact scans_scan finder back
    | direct base => exact scans_runFrom base

theorem advance_moveTo (m : Matcher) : (m.moveTo m.resume).advance = m.advance := by
  show byEngine m.pattern.engine (fun finder back => (m.moveTo m.resume).scan finder back)
    (fun base => (m.moveTo m.resume).runFrom base) = m.advance
  rw [advance]
  cases m.pattern.engine with
  | scanning finder back => simp only [byEngine, scan, resume_moveTo, moveTo_moveTo]
  | direct base => simp only [byEngine, runFrom, stopsOf, resume_moveTo, moveTo_moveTo]

/-! ## calls of `find` -/

/-- two matchers that have come equally far: only their current matches and the positions of
their cursors set them apart -/
structure SameProgress (m m' : Matcher) : Prop where
  pattern : m'.pattern = m.pattern
  origin : m'.origin = m.origin
  resume : m'.resume = m.resume
  exhausted : m'.exhausted = m.exhausted
  pending : m'.pending = m.pending
  last : m'.last = m.last
  alike : m'.input.Alike m.input

theorem SameProgress.refl (m : Matcher) : m.SameProgress m :=
  ⟨rfl, rfl, rfl, rfl, rfl, rfl, .refl _⟩

theorem SameProgress.symm (h : m.SameProgress m') : m'.SameProgress m where
  pattern := h.pattern.symm
  origin := h.origin.symm
  resume := h.resume.symm
  exhausted := h.exhausted.symm
  pending := h.pending.symm
  last := h.last.symm
  alike := h.alike.symm

theorem SameProgress.trans (h : m.SameProgress m') (h' : m'.SameProgress m'') :
    m.SameProgress m'' where
  pattern := h'.pattern.trans h.pattern
  origin := h'.origin.trans h.origin
  resume := h'.resume.trans h.resume
  exhausted := h'.exhausted.trans h.exhausted
  pending := h'.pending.trans h.pending
  last := h'.last.trans h.last
  alike := h'.alike.trans h.alike

theorem SameProgress.advance (h : m.SameProgress m') : m'.advance = m.advance.shown m'.found := by
  have hmoved : m'.moveTo m'.resume = (m.moveTo m.resume).shown m'.found := by
    obtain ⟨p, c, origin, resume, exhausted, pending, found, last⟩ := m
    obtain ⟨p', c', origin', resume', exhausted', pending', found', last'⟩ := m'
    obtain ⟨rfl, rfl, rfl, rfl, rfl, rfl, halike⟩ := h
    exact congrArg (Matcher.mk p' · origin' resume' exhausted' pending' found' last')
      (halike resume')
  rw [← advance_moveTo m', hmoved, scans_advance.shown, advance_moveTo]

theorem sameProgress_shown (m : Matcher) (found : Option Captures) :
    m.SameProgress (m.shown found) :=
  ⟨rfl, rfl, rfl, rfl, rfl, rfl, .refl _⟩

theorem SameProgress.findIn (h : m.SameProgress m') (rounds : Nat) :
    (Matcher.findIn rounds m').1 = (Matcher.findIn rounds m).1 ∧
      (Matcher.findIn rounds m').2.found = (Matcher.findIn rounds m).2.found ∧
      (Matcher.findIn rounds m).2.SameProgress (Matcher.findIn rounds m').2 := by
  induction rounds generalizing m m' with
  | zero => exact ⟨rfl, rfl, h.pattern, h.origin, h.resume, h.exhausted, h.pending, h.last, h.alike⟩
  | succ rounds ih =>
    obtain ⟨p, c, origin, resume, exhausted, pending, found, last⟩ := m
    obtain ⟨p', c', origin', resume', exhausted', pending', found', last'⟩ := m'
    obtain ⟨rfl, rfl, rfl, rfl, rfl, rfl, halike⟩ := h
    have hlimit (c : Cursor) (found : Option Captures) : limit? ⟨p', c, origin', resume',
        exhausted', pending', found, last'⟩ = limit? ⟨p', c', origin', resume', exhausted',
        pending', found', last'⟩ := rfl
    rw [Matcher.findIn, Matcher.findIn, hlimit c found]
    dsimp only
    rcases pop p'.mode last' _ pending' with ⟨_ | d, rest⟩
    · have hprogress : SameProgress ⟨p', c, origin', resume', exhausted', rest, found, last'⟩
          ⟨p', c', origin', resume', exhausted', rest, found', last'⟩ :=
        ⟨rfl, rfl, rfl, rfl, rfl, rfl, halike⟩
      dsimp only
      split
      · exact ⟨rfl, rfl, rfl, rfl, rfl, rfl, rfl, rfl, halike⟩
      · rw [hprogress.advance]
        exact ih (sameProgress_shown _ _)
    · exact ⟨rfl, rfl, rfl, rfl, rfl, rfl, rfl, rfl, halike⟩

theorem SameProgress.find (h : m.SameProgress m') :
    m'.find.1 = m.find.1 ∧ m'.find.2.span? = m.find.2.span? ∧
    m.find.2.SameProgress m'.find.2 := by
  rw [Matcher.find, Matcher.find, h.alike.length]
  obtain ⟨hyes, hfound, hprogress⟩ := h.findIn (m.input.length + 3)
  exact ⟨hyes, congrArg (Option.bind · Captures.span?) hfound, hprogress⟩

end Matcher
end SpanSearch
