import SpanSearch.Proofs.Grouping

/-!
# How paths come through a group

The states of a graph are marked by how far paths have come with respect to one group: they are in
front of it, inside it, or behind it.  Inside it the mark tells what may still be read there, so
that what is read from entering the group to leaving it is a word of its body.

* `Expr.bodies`, `Expr.looped`   the bodies of the groups, and the groups that can come again
* `Visit`                how far paths have come
* `Visiting`             edges lead into the group, through it and out of it
* `exists_settled`       what may still be read inside, once the graph of the body is known
* `Expr.suits_visiting`  expressions obey this
* `Expr.exists_visits`   so does the graph that recovers capture groups
-/

namespace SpanSearch

open SpanSearch.Graph

/-! ## expressions -/

namespace Expr

mutual

/-- the capture groups from left to right, each with its body -/
def bodies : Expr → List (Nat × Expr)
  | .group (some n) e => (n, e) :: e.bodies
  | .group none e => e.bodies
  | .loop e _ _ => e.bodies
  | .concat es => bodiesOf es
  | .alt es => bodiesOf es
  | _ => []

def bodiesOf : List Expr → List (Nat × Expr)
  | [] => []
  | e :: es => e.bodies ++ bodiesOf es

end

mutual

/-- the capture groups that a match may come through more than once -/
def looped : Expr → List Nat
  | .loop e .zeroOrOne _ => e.looped
  | .loop e _ _ => e.groups
  | .group _ e => e.looped
  | .concat es => loopedOf es
  | .alt es => loopedOf es
  | _ => []

def loopedOf : List Expr → List Nat
  | [] => []
  | e :: es => e.looped ++ loopedOf es

end

mutual

theorem looped_subset : (e : Expr) → e.looped ⊆ e.groups
  | .loop e .zeroOrOne _ => looped_subset e
  | .loop _ .zeroOrMore _ => List.Subset.refl _
  | .loop _ .oneOrMore _ => List.Subset.refl _
  | .loop _ (.exactly _) _ => List.Subset.refl _
  | .loop _ (.atLeast _) _ => List.Subset.refl _
  | .loop _ (.between _ _) _ => List.Subset.refl _
  | .group (some n) e => List.subset_cons_of_subset n (looped_subset e)
  | .group none e => looped_subset e
  | .concat es => loopedOf_subset es
  | .alt es => loopedOf_subset es
  | .empty | .char _ | .charClass _ | .byte _ | .byteClass _ | .assertion _ => List.nil_subset _

theorem loopedOf_subset : (es : List Expr) → loopedOf es ⊆ groupsOf es
  | [] => List.nil_subset _
  | e :: es => List.append_subset.2
      ⟨List.subset_append_of_subset_left _ (looped_subset e),
        List.subset_append_of_subset_right _ (loopedOf_subset es)⟩

end

theorem looped_loop {e : Expr} {count : Count} (greedy : Bool) (h : count ≠ .zeroOrOne) :
    (Expr.loop e count greedy).looped = e.groups := by
  cases count with
  | zeroOrOne => exact absurd rfl h
  | _ => rfl

theorem looped_subset_loop (e : Expr) (count : Count) (greedy : Bool) :
    e.looped ⊆ (Expr.loop e count greedy).looped := by
  cases count with
  | zeroOrOne => exact List.Subset.refl _
  | _ => exact looped_subset e

end Expr

/-! ## marks -/

/-- how far paths have come with respect to a group; inside it, what may still be read there, as
soon as that is known -/
inductive Visit where
  | before
  | inside (rest : Option (Language Nat))
  | behind

namespace Visit

/-- outside of a group that can be entered; one that can come again is always behind -/
def outside (once : Bool) : Visit := if once then .before else .behind

/-- the mark of a state from which the words `K` lead out of the group -/
def settled (K : Language Nat) : Visit → Visit
  | .inside none => .inside (some K)
  | v => v

theorem settled_outside (K : Language Nat) (once : Bool) :
    (outside once).settled K = outside once := by
  cases once <;> rfl

theorem inside_ne_outside (rest : Option (Language Nat)) (once : Bool) :
    inside rest ≠ outside once := by
  cases once <;> rintro ⟨⟩

/-- a mark that other groups keep, those of `M` if it is one inside -/
def Keeps (M : Set Nat) (ns : List Nat) : Visit → Prop
  | .inside none => ∀ m ∈ ns, m ∈ M
  | .inside (some _) => False
  | _ => True

variable {M : Set Nat} {A : Visit} {ns ms : List Nat}

theorem Keeps.of_subset (h : A.Keeps M ns) (hsub : ms ⊆ ns) : A.Keeps M ms := by
  rcases A with _ | (_ | K) | _
  · trivial
  · exact fun m hm => h m (hsub hm)
  · exact h
  · trivial

theorem keeps_outside (M : Set Nat) (ns : List Nat) (once : Bool) : (outside once).Keeps M ns := by
  cases once <;> trivial

end Visit

/-- edges lead into group `n` and out of it.  What is read on the way is a word of `L`, only groups
of `M` are entered and left on it, and behind a group that comes once at most there is no way in. -/
inductive Visiting (n : Nat) (L : Language Nat) (M : Set Nat) (once : Bool) :
    Label → Option Action → Visit → Visit → Prop
  | enter {A : Visit} {K : Language Nat} (out : A = .outside once) (le : K ≤ L) :
      Visiting n L M once .epsilon (some (.enter n)) A (.inside (some K))
  | leave {K : Language Nat} (nil : [] ∈ K) :
      Visiting n L M once .epsilon (some (.leave n)) (.inside (some K)) .behind
  | before {l : Label} {a : Option Action} (other : ∀ x, a = some x → x.group ≠ n) :
      Visiting n L M once l a .before .before
  | past {l : Label} {a : Option Action} (single : once = true)
      (other : ∀ x, a = some x → x.group ≠ n) : Visiting n L M once l a .before .behind
  | behind {l : Label} {a : Option Action} (other : ∀ x, a = some x → x.group ≠ n) :
      Visiting n L M once l a .behind .behind
  | within {l : Label} {a : Option Action}
      (other : ∀ x, a = some x → x.group ≠ n ∧ x.group ∈ M) :
      Visiting n L M once l a (.inside none) (.inside none)
  | slide {a : Option Action} {K K' : Language Nat}
      (other : ∀ x, a = some x → x.group ≠ n ∧ x.group ∈ M) (le : K' ≤ K) :
      Visiting n L M once .epsilon a (.inside (some K)) (.inside (some K'))
  | read {lo hi : Nat} {a : Option Action} {K K' : Language Nat}
      (other : ∀ x, a = some x → x.group ≠ n ∧ x.group ∈ M)
      (cons : ∀ sym, lo ≤ sym → sym ≤ hi → ∀ w ∈ K', sym :: w ∈ K) :
      Visiting n L M once (.symbols lo hi) a (.inside (some K)) (.inside (some K'))

namespace Visiting

variable {n : Nat} {L : Language Nat} {M : Set Nat} {once : Bool} {l : Label} {a : Option Action}
  {A B : Visit} {K K' : Language Nat}

theorem keep {ns : List Nat} (h : A.Keeps M ns)
    (other : ∀ x, a = some x → x.group ≠ n ∧ x.group ∈ ns) : Visiting n L M once l a A A := by
  rcases A with _ | (_ | K) | _
  · exact .before fun x hx => (other x hx).1
  · exact .within fun x hx => ⟨(other x hx).1, h _ (other x hx).2⟩
  · exact h.elim
  · exact .behind fun x hx => (other x hx).1

/-- an edge that enters or leaves another group keeps a mark -/
theorem keep_group {m : Nat} {x : Action} (h : A.Keeps M [m]) (hx : x.group = m) (hnm : n ≠ m) :
    Visiting n L M once l (some x) A A := by
  refine .keep h fun y hy => ?_
  rw [← Option.some.inj hy, hx]
  exact ⟨Ne.symm hnm, List.mem_singleton_self m⟩

theorem keepsMarks {ns : List Nat} (h : A.Keeps M ns) : Rule.KeepsMarks (Visiting n L M once) A :=
  fun _ => .keep h fun x hx => absurd hx.symm (Option.some_ne_none x)

theorem of_enter (h : Visiting n L M once l (some (.enter n)) A B) :
    l = .epsilon ∧ A = .outside once ∧ ∃ K ≤ L, B = .inside (some K) := by
  cases h with
  | enter out le => exact ⟨rfl, out, _, le, rfl⟩
  | before other => exact absurd rfl (other _ rfl)
  | past _ other => exact absurd rfl (other _ rfl)
  | behind other => exact absurd rfl (other _ rfl)
  | within other => exact absurd rfl (other _ rfl).1
  | slide other => exact absurd rfl (other _ rfl).1
  | read other => exact absurd rfl (other _ rfl).1

theorem of_leave (h : Visiting n L M once l (some (.leave n)) A B) :
    l = .epsilon ∧ (∃ K, [] ∈ K ∧ A = .inside (some K)) ∧ B = .behind := by
  cases h with
  | leave nil => exact ⟨rfl, ⟨_, nil, rfl⟩, rfl⟩
  | before other => exact absurd rfl (other _ rfl)
  | past _ other => exact absurd rfl (other _ rfl)
  | behind other => exact absurd rfl (other _ rfl)
  | within other => exact absurd rfl (other _ rfl).1
  | slide other => exact absurd rfl (other _ rfl).1
  | read other => exact absurd rfl (other _ rfl).1

theorem mem_of_inside {x : Action} {rest : Option (Language Nat)}
    (h : Visiting n L M once l (some x) A (.inside rest)) (hx : x.group ≠ n) : x.group ∈ M := by
  cases h with
  | enter => exact absurd rfl hx
  | within other => exact (other x rfl).2
  | slide other => exact (other x rfl).2
  | read other => exact (other x rfl).2

theorem skip : Visiting n L M once .epsilon none (.outside once) .behind := by
  cases once with
  | false => exact .behind fun x hx => absurd hx.symm (Option.some_ne_none x)
  | true => exact .past rfl fun x hx => absurd hx.symm (Option.some_ne_none x)

instance : Rule.Composes (Visiting n L M once) where
  refl := fun A => by
    have other (x : Action) (hx : none = some x) : x.group ≠ n ∧ x.group ∈ M :=
      absurd hx.symm (Option.some_ne_none x)
    rcases A with _ | (_ | K) | _
    · exact .before fun x hx => (other x hx).1
    · exact .within other
    · exact .slide other (le_refl K)
    · exact .behind fun x hx => (other x hx).1
  comp := fun hAB h => by
    cases hAB with
    | before => exact h
    | behind => exact h
    | within => exact h
    | past single =>
      cases h with
      | enter out =>
        rw [single] at out
        exact absurd out (by rintro ⟨⟩)
      | behind other => exact .past single other
    | slide _ le =>
      cases h with
      | enter out => exact absurd out (Visit.inside_ne_outside _ once)
      | leave nil => exact .leave (le nil)
      | slide other le' => exact .slide other (le_trans le' le)
      | read other cons => exact .read other fun sym hlo hhi w hw => le (cons sym hlo hhi w hw)

/-- what may still be read is told from the words that lead out -/
theorem settled (h : Visiting n L M once l a A B) (hslide : l = .epsilon → K' ≤ K)
    (hread : ∀ lo hi, l = .symbols lo hi → ∀ sym, lo ≤ sym → sym ≤ hi → ∀ w ∈ K', sym :: w ∈ K) :
    Visiting n L M once l a (A.settled K) (B.settled K') := by
  cases h with
  | enter out le =>
    rw [out, Visit.settled_outside]
    exact .enter rfl le
  | leave nil => exact .leave nil
  | before other => exact .before other
  | past single other => exact .past single other
  | behind other => exact .behind other
  | within other =>
    cases l with
    | epsilon => exact .slide other (hslide rfl)
    | symbols lo hi => exact .read other (hread lo hi rfl)
  | slide other le => exact .slide other le
  | read other cons => exact .read other cons

end Visiting

/-! ## the body of a group -/

section

open Fragment

variable {n : Nat} {L L' : Language Nat} {M : Set Nat} {once : Bool}
  {w₀ w : Chart (Visiting n L M once)} {a : Fragment}

/-- the words that lead from a state to the exit of a fragment -/
def wordsFrom (a : Fragment) (g : Graph) (p : Nat) : Language Nat := Fragment.words ⟨p, a.exit⟩ g

/-- marks in which the states of a new body tell what may still be read -/
def settledIn (a : Fragment) (w₀ w : Chart (Visiting n L M once)) (p : Nat) : Visit :=
  if p < w₀.graph.size then w.marks p else (w.marks p).settled (wordsFrom a w.graph p)

theorem settledIn_of_lt {p : Nat} (hp : p < w₀.graph.size) : settledIn a w₀ w p = w.marks p :=
  if_pos hp

theorem settledIn_of_mem {p : Nat} (hp : p ∈ ∅ ∪ fresh w₀.graph w.graph) :
    settledIn a w₀ w p = (w.marks p).settled (wordsFrom a w.graph p) := by
  rw [Set.empty_union] at hp
  exact if_neg (Nat.not_lt_of_le hp.1)

theorem obeys_settledIn (hmakes : Makes ∅ L' w₀.graph (a, w.graph)) :
    w.graph.Obeys (Visiting n L M once) (settledIn a w₀ w) := by
  intro p e he
  by_cases hp : p < w₀.graph.size
  · have htarget := w₀.closed p e ((hmakes.grows.edges p hp (Set.notMem_empty p) e).1 he)
    rw [settledIn_of_lt hp, settledIn_of_lt htarget]
    exact w.obeys p e he
  · have hp' : p ∈ ∅ ∪ fresh w₀.graph w.graph :=
      .inr ⟨Nat.le_of_not_lt hp, lt_size_of_mem_edges he⟩
    rw [settledIn_of_mem hp', settledIn_of_mem (hmakes.lives.closed p hp' e he)]
    refine (w.obeys p e he).settled (fun hlabel u hu => ?_) fun lo hi hlabel sym hlo hhi u hu => ?_
    · obtain ⟨x, hx, hu⟩ := hu
      exact ⟨x, hx, .slide he (by rw [Edge.isEpsilon, hlabel]) hu⟩
    · obtain ⟨x, hx, hu⟩ := hu
      refine ⟨x, hx, Leads.read he ?_ hu⟩
      rw [Edge.accepts, hlabel]
      exact Bool.and_eq_true_iff.2 ⟨decide_eq_true hlo, decide_eq_true hhi⟩

/-- once a body is built, all its words may be read at its entry and nothing is left at its exit -/
theorem exists_settled (hw : w₀.Within w) (hmakes : Makes ∅ L' w₀.graph (a, w.graph))
    (ha : a.Level w (.inside none)) : ∃ w₁ : Chart (Visiting n L M once), w₀.Within w₁ ∧
      w₁.graph = w.graph ∧ a.Spans w₁ (.inside (some L')) (.inside (some 1)) := by
  refine ⟨⟨w.graph, settledIn a w₀ w, w.closed, obeys_settledIn hmakes⟩,
    ⟨hw.size, fun p hp => (settledIn_of_lt hp).trans (hw.marks p hp)⟩, rfl, ⟨ha.entry.1, ?_⟩,
    fun x hx => ?_⟩
  · show settledIn a w₀ w a.entry = _
    rw [settledIn_of_mem hmakes.lives.entry, ha.entry.2, ← hmakes.words]
    rfl
  · obtain ⟨A, hA, hAB⟩ := ha.exit x hx
    cases hAB with
    | within other =>
      have hmark : settledIn a w₀ w x = .inside (some (wordsFrom a w.graph x)) := by
        rw [settledIn_of_mem (hmakes.lives.exit x hx), hA.2]
        rfl
      refine ⟨_, ⟨hA.1, hmark⟩, .slide other fun u hu => ⟨x, hx, ?_⟩⟩
      obtain rfl := (Language.mem_one u).1 hu
      exact .here x

end

/-! ## expressions -/

namespace Expr

open Fragment

/-- what is asked of an expression with respect to group `n`: its body has words of `L` only and
groups of `M` only, and it cannot come again if it is to come once at most -/
structure Visitable (α : Alphabet) (n : Nat) (L : Language Nat) (M : Set Nat) (once : Bool)
    (e : Expr) : Prop where
  valid : e.Valid
  inOrder : e.InOrder
  none : e.assertion? = none
  nodup : e.groups.Nodup
  bodies : ∀ b, (n, b) ∈ e.bodies → b.words α ≤ L ∧ ∀ m ∈ b.groups, m ∈ M
  once : once = true → n ∉ e.looped

/-- with group `n` among groups in a row these lead from outside to behind it, and without it they
keep a mark -/
def Crosses (n : Nat) (M : Set Nat) (once : Bool) (A : Visit) (ns : List Nat) (B : Visit) : Prop :=
  n ∈ ns ∧ A = .outside once ∧ B = .behind ∨ n ∉ ns ∧ A = B ∧ A.Keeps M ns

/-- from which mark to which an expression leads -/
def Visits (α : Alphabet) (n : Nat) (L : Language Nat) (M : Set Nat) (once : Bool) (A : Visit)
    (e : Expr) (B : Visit) : Prop :=
  Visitable α n L M once e ∧ Crosses n M once A e.groups B

variable {α : Alphabet} {n : Nat} {L : Language Nat} {M : Set Nat} {once : Bool} {A B : Visit}
  {e : Expr} {es : List Expr} {ns ms : List Nat}

theorem Crosses.eq_of_not_mem (h : Crosses n M once A ns B) (hn : n ∉ ns) :
    A = B ∧ A.Keeps M ns :=
  (h.resolve_left fun h => hn h.1).2

theorem Crosses.append (h : Crosses n M once A (ns ++ ms) B) (hnodup : (ns ++ ms).Nodup) :
    ∃ C, Crosses n M once A ns C ∧ Crosses n M once C ms B := by
  rcases h with ⟨hmem, rfl, rfl⟩ | ⟨hnot, rfl, hkeeps⟩
  · by_cases hn : n ∈ ns
    · have hms : n ∉ ms := fun hm => List.disjoint_of_nodup_append hnodup hn hm
      exact ⟨.behind, .inl ⟨hn, rfl, rfl⟩, .inr ⟨hms, rfl, trivial⟩⟩
    · have hms := (List.mem_append.1 hmem).resolve_left hn
      exact ⟨.outside once, .inr ⟨hn, rfl, Visit.keeps_outside M ns once⟩, .inl ⟨hms, rfl, rfl⟩⟩
  · rw [List.mem_append, not_or] at hnot
    exact ⟨A, .inr ⟨hnot.1, rfl, hkeeps.of_subset (List.subset_append_left ns ms)⟩,
      .inr ⟨hnot.2, rfl, hkeeps.of_subset (List.subset_append_right ns ms)⟩⟩

theorem Crosses.part (h : Crosses n M once A ns B) (hsub : ms ⊆ ns) :
    ∃ C, Crosses n M once A ms C ∧ Visiting n L M once .epsilon none C B := by
  rcases h with ⟨-, rfl, rfl⟩ | ⟨hnot, rfl, hkeeps⟩
  · by_cases hn : n ∈ ms
    · exact ⟨.behind, .inl ⟨hn, rfl, rfl⟩, Rule.Composes.refl _⟩
    · exact ⟨.outside once, .inr ⟨hn, rfl, Visit.keeps_outside M ms once⟩, .skip⟩
  · exact ⟨A, .inr ⟨fun hn => hnot (hsub hn), rfl, hkeeps.of_subset hsub⟩, Rule.Composes.refl A⟩

theorem Crosses.tail {m : Nat} (h : Crosses n M once A (m :: ns) B) (hnm : n ≠ m) :
    Crosses n M once A ns B ∧ A.Keeps M [m] ∧ B.Keeps M [m] := by
  rcases h with ⟨hmem, rfl, rfl⟩ | ⟨hnot, rfl, hkeeps⟩
  · exact ⟨.inl ⟨(List.mem_cons.1 hmem).resolve_left hnm, rfl, rfl⟩,
      Visit.keeps_outside M [m] once, trivial⟩
  · have hone : A.Keeps M [m] := hkeeps.of_subset (List.cons_subset_cons m (List.nil_subset ns))
    exact ⟨.inr ⟨List.not_mem_of_not_mem_cons hnot, rfl,
      hkeeps.of_subset (List.subset_cons_self m ns)⟩, hone, hone⟩

theorem Visitable.cons (h : Visitable α n L M once (.concat (e :: es))) :
    Visitable α n L M once e ∧ Visitable α n L M once (.concat es) := by
  obtain ⟨hnone, hnones⟩ := Option.or_eq_none_iff.1 h.none
  constructor
  · exact ⟨h.valid.1, h.inOrder.1, hnone, h.nodup.of_append_left,
      fun b hb => h.bodies b (List.mem_append_left _ hb),
      fun hone hn => h.once hone (List.mem_append_left _ hn)⟩
  · exact ⟨h.valid.2, h.inOrder.2, hnones, h.nodup.of_append_right,
      fun b hb => h.bodies b (List.mem_append_right _ hb),
      fun hone hn => h.once hone (List.mem_append_right _ hn)⟩

theorem Visitable.loop {count : Count} {greedy : Bool}
    (h : Visitable α n L M once (.loop e count greedy)) : Visitable α n L M once e :=
  ⟨h.valid, h.inOrder.2, h.none, h.nodup, h.bodies,
    fun hone hn => h.once hone (looped_subset_loop e count greedy hn)⟩

theorem Visitable.group {m : Nat} (h : Visitable α n L M once (.group (some m) e)) :
    Visitable α n L M once e :=
  ⟨h.valid, h.inOrder, h.none, (List.nodup_cons.1 h.nodup).2,
    fun b hb => h.bodies b (List.mem_cons_of_mem _ hb), h.once⟩

/-- what is optional may be skipped; a group that can come again is behind itself -/
theorem Visits.loop {count : Count} {greedy : Bool}
    (h : Visits α n L M once A (.loop e count greedy) B) : A = B ∧ Visits α n L M once A e A ∨
      count = .zeroOrOne ∧ Visiting n L M once .epsilon none A B ∧ Visits α n L M once A e B := by
  obtain ⟨hv, hmarks⟩ := h
  rcases hmarks with ⟨hn, rfl, rfl⟩ | ⟨hn, rfl, hkeeps⟩
  · by_cases hcount : count = .zeroOrOne
    · exact .inr ⟨hcount, .skip, hv.loop, .inl ⟨hn, rfl, rfl⟩⟩
    · obtain rfl : once = false :=
        Bool.eq_false_iff.2 fun hone => hv.once hone (looped_loop greedy hcount ▸ hn)
      exact .inl ⟨rfl, hv.loop, .inl ⟨hn, rfl, rfl⟩⟩
  · exact .inl ⟨rfl, hv.loop, .inr ⟨hn, rfl, hkeeps⟩⟩

/-- the body of group `n` leads from mark to mark inside, and these can be settled once its graph
is known -/
theorem Visits.group (h : Visits α n L M once A (.group (some n) e) B) :
    Visits α n L M once (.inside none) e (.inside none) ∧
    ∀ {w₀ w : Chart (Visiting n L M once)} {a : Fragment}, w₀.Within w →
      e.compile { alphabet := α } w₀.graph = .ok (a, w.graph) →
        a.Spans w (.inside none) (.inside none) → ∃ w₁ A₁ B₁, w₀.Within w₁ ∧
          w₁.graph = w.graph ∧ a.Spans w₁ A₁ B₁ ∧
            Visiting n L M once .epsilon (some (.enter n)) A A₁ ∧
              Visiting n L M once .epsilon (some (.leave n)) B₁ B := by
  obtain ⟨hv, hmarks⟩ := h
  obtain ⟨hle, hM⟩ := hv.bodies e List.mem_cons_self
  obtain ⟨-, rfl, rfl⟩ := hmarks.resolve_right fun h => h.1 List.mem_cons_self
  refine ⟨⟨hv.group, .inr ⟨(List.nodup_cons.1 hv.nodup).1, rfl, hM⟩⟩,
    fun {w₀ w a} hw hr ha => ?_⟩
  obtain ⟨r, hr', hmakes, -⟩ := compiles_expr { alphabet := α } e hv.group.valid hv.group.inOrder
    hv.group.none w₀.graph w₀.closed
  obtain rfl := Except.ok.inj (hr'.symm.trans hr)
  obtain ⟨w₁, hw₁, hgraph, ha₁⟩ := exists_settled hw hmakes ha
  exact ⟨w₁, _, _, hw₁, hgraph, ha₁, .enter rfl hle, .leave (Language.nil_mem_one)⟩

theorem row_visits (h : Visits α n L M once A (.concat es) B) :
    Row (Visits α n L M once) A es B := by
  induction es generalizing A with
  | nil => exact (h.2.eq_of_not_mem List.not_mem_nil).1
  | cons e es ih =>
    obtain ⟨he, hes⟩ := h.1.cons
    obtain ⟨C, hC, hC'⟩ := h.2.append h.1.nodup
    exact ⟨C, ⟨he, hC⟩, ih ⟨hes, hC'⟩⟩

theorem exists_visits_part (hes : Visitable α n L M once (.concat es))
    (h : Crosses n M once A ns B) (hsub : groupsOf es ⊆ ns) : ∀ e ∈ es, ∃ C,
      Visits α n L M once A e C ∧ Visiting n L M once .epsilon none C B := by
  induction es with
  | nil => exact fun e he => absurd he List.not_mem_nil
  | cons e es ih =>
    obtain ⟨he, hes⟩ := hes.cons
    obtain ⟨hleft, hright⟩ := List.append_subset.1 hsub
    obtain ⟨C, hC, hCB⟩ := h.part (L := L) hleft
    exact List.forall_mem_cons.2 ⟨⟨C, ⟨he, hC⟩, hCB⟩, ih hes hright⟩

/-- expressions lead in front of a group, into it and behind it -/
theorem suits_visiting (α : Alphabet) (n : Nat) (L : Language Nat) (M : Set Nat) (once : Bool) :
    Rule.Suits (Visiting n L M once) α (Visits α n L M once) where
  empty := fun h => (h.2.eq_of_not_mem List.not_mem_nil).1
  char := fun h => (h.2.eq_of_not_mem List.not_mem_nil).1
  text := fun {A cs} h w => by
    cases cs with
    | nil => exact charts_text_nil w A
    | cons c cs =>
      have hkeeps := (h c List.mem_cons_self).2.eq_of_not_mem List.not_mem_nil
      exact charts_text (.keepsMarks hkeeps.2) w _
  literal := fun h w => charts_literal (.keepsMarks (h.2.eq_of_not_mem List.not_mem_nil).2) w _
  charClass := fun h w => by
    obtain ⟨rfl, hkeeps⟩ := h.2.eq_of_not_mem List.not_mem_nil
    exact charts_anyCharClass (.keepsMarks hkeeps) w _
  byte := fun h => by
    obtain ⟨rfl, hkeeps⟩ := h.2.eq_of_not_mem List.not_mem_nil
    exact Visiting.keepsMarks hkeeps _
  byteClass := fun h _ _ => by
    obtain ⟨rfl, hkeeps⟩ := h.2.eq_of_not_mem List.not_mem_nil
    exact Visiting.keepsMarks hkeeps _
  assertion := fun {_ a _} h => absurd h.1.none (Option.some_ne_none a)
  loop := fun h => h.loop
  plain := fun h => ⟨⟨h.1.valid, h.1.inOrder, h.1.none, h.1.nodup, h.1.bodies, h.1.once⟩, h.2⟩
  group := fun {A m e B} h => by
    by_cases hnm : n = m
    · subst hnm
      exact ⟨_, _, h.group⟩
    · obtain ⟨hcrosses, hA, hB⟩ := h.2.tail hnm
      exact ⟨A, B, ⟨h.1.group, hcrosses⟩, fun {_ w _} hw _ ha => ⟨w, A, B, hw, rfl, ha,
        .keep_group hA rfl hnm, .keep_group hB rfl hnm⟩⟩
  concat := row_visits
  alt := fun h => exists_visits_part
    ⟨h.1.valid, h.1.inOrder, h.1.none, h.1.nodup, h.1.bodies, h.1.once⟩ h.2 (List.Subset.refl _)

/-- the graph that recovers capture groups leads into a group, through it and out of it -/
theorem exists_visits (he : Visitable α n L M once e) (hn : n ≠ 0) :
    ∃ tr, e.tracer α = .ok tr ∧ ∃ O, tr.graph.Obeys (Visiting n L M once) O ∧
      O tr.graph.start = .outside once := by
  obtain ⟨B, hcrosses, hB⟩ : ∃ B, Crosses n M once (.outside once) e.groups B ∧ B.Keeps M [0] := by
    by_cases hmem : n ∈ e.groups
    · exact ⟨.behind, .inl ⟨hmem, rfl, rfl⟩, trivial⟩
    · exact ⟨_, .inr ⟨hmem, rfl, Visit.keeps_outside M _ once⟩, Visit.keeps_outside M _ once⟩
  obtain ⟨tr, htracer, -, -, hO⟩ := exists_obeys (suits_visiting α n L M once) he.valid he.inOrder
    he.none ⟨he, hcrosses⟩ (.keep_group (Visit.keeps_outside M [0] once) rfl hn)
    (.keep_group hB rfl hn)
  exact ⟨tr, htracer, hO⟩

end Expr

end SpanSearch
