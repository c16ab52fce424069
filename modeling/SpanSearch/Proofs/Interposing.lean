import SpanSearch.Proofs.Fruitful
import SpanSearch.Proofs.Inlaying
import SpanSearch.Proofs.Walking

/-!
# An interval between any two states

An interval that is laid out between two states `s` and `e` of a graph adds the paths of its words
from the one to the other.  What can be read between any two states that were there is what can
be read along the earlier edges and over the new paths, as often as one comes to `s`.  Where no
word leads back from `e` to `s` a new path is taken once at most.

* `Graph.LeadsVia`              a path along the edges of a graph and over added words
* `Graph.AddsPaths`             a step adds the paths of a language, and nothing else
* `Graph.Inlaid.addsPaths`      a graph that is laid in between two states adds its paths
* `Fragment.addsPaths_interval` an interval adds what lies between its bounds
-/

namespace SpanSearch

/-- the range of the bytes behind the first of a sequence -/
def Encoding.tails (enc : Encoding) : Nat × Nat := enc.tailRange?.getD (0x00, 0xFF)

namespace Graph

variable {g h g' : Graph} {s e p q c : Nat} {L : Language Nat} {w : List Nat} {d : Edge}

/-! ## paths over added words -/

theorem Leads.step {t : Stride} (mem : d ∈ g.edges p) (now : d.Takes t)
    (rest : g.Leads d.target w q) : g.Leads p (Stride.word [t] ++ w) q := by
  cases now with
  | slide eps => exact .slide mem eps rest
  | read acc => exact Leads.read mem acc rest

/-- a path along the edges of `g`, on which each word of `L` also leads from `s` to `e` -/
inductive LeadsVia (g : Graph) (s e : Nat) (L : Language Nat) : Nat → List Nat → Nat → Prop where
  | here (p : Nat) : LeadsVia g s e L p [] p
  | step {p q : Nat} {d : Edge} {t : Stride} {w : List Nat} (mem : d ∈ g.edges p)
      (now : d.Takes t) (rest : LeadsVia g s e L d.target w q) :
      LeadsVia g s e L p (Stride.word [t] ++ w) q
  | jump {q : Nat} {v w : List Nat} (mem : v ∈ L) (rest : LeadsVia g s e L e w q) :
      LeadsVia g s e L s (v ++ w) q

theorem LeadsVia.append_right {v : List Nat} (hv : g.Leads p v q) {r : Nat}
    (hw : g.LeadsVia s e L q w r) : g.LeadsVia s e L p (v ++ w) r := by
  induction hv with
  | here p => exact hw
  | slide mem eps rest ih => exact .step mem (.slide eps) (ih hw)
  | read mem acc rest ih => exact .step mem (.read acc) (ih hw)

theorem leadsVia_of_leads (hw : g.Leads p w q) : g.LeadsVia s e L p w q := by
  rw [← List.append_nil w]
  exact LeadsVia.append_right hw (.here q)

/-- where no word leads back an added path is taken once at most -/
theorem leadsVia_iff (hback : ∀ u, ¬ g.Leads e u s) : g.LeadsVia s e L p w q ↔
    g.Leads p w q ∨ ∃ u v x, w = u ++ (v ++ x) ∧ g.Leads p u s ∧ v ∈ L ∧ g.Leads e x q := by
  constructor
  · intro hw
    induction hw with
    | here p => exact .inl (.here p)
    | step mem now rest ih =>
      rcases ih with ih | ⟨u, v, x, rfl, hu, hv, hx⟩
      · exact .inl (Leads.step mem now ih)
      · refine .inr ⟨_, v, x, ?_, Leads.step mem now hu, hv, hx⟩
        rw [List.append_assoc]
    | @jump q v w mem rest ih =>
      rcases ih with ih | ⟨u, _, _, _, hu, _⟩
      · exact .inr ⟨[], v, w, rfl, .here s, mem, ih⟩
      · exact absurd hu (hback u)
  · rintro (hw | ⟨u, v, x, rfl, hu, hv, hx⟩)
    · exact leadsVia_of_leads hw
    · exact LeadsVia.append_right hu (.jump hv (leadsVia_of_leads hx))

/-- between its two ends, as long as these are not on the way to themselves, the added paths add
their words -/
theorem leadsVia_iff_of_once (hback : ∀ u, ¬ g.Leads e u s) (hs : ∀ u, g.Leads s u s → u = [])
    (he : ∀ u, g.Leads e u e → u = []) : g.LeadsVia s e L s w e ↔ g.Leads s w e ∨ w ∈ L := by
  rw [leadsVia_iff hback]
  apply or_congr_right
  constructor
  · rintro ⟨u, v, x, rfl, hu, hv, hx⟩
    rw [hs u hu, he x hx, List.nil_append, List.append_nil]
    exact hv
  · intro hw
    exact ⟨[], w, [], (List.append_nil w).symm, .here s, hw, .here e⟩

/-- the step adds to `s` and to new states edges that consume symbols of ranges that are not
empty, and with them the paths of the words `L` from `s` to `e` -/
structure AddsPaths (s e : Nat) (L : Language Nat) (g g' : Graph) : Prop where
  size : g.size ≤ g'.size
  start : g'.start = g.start
  accepting : ∀ p, g'.isAccepting p = g.isAccepting p
  silent : ∀ p, g'.isSilent p = g.isSilent p
  edges : ∀ p, ∃ new, g'.edges p = g.edges p ++ new ∧ (p < g.size → p ≠ s → new = []) ∧
    ∀ d ∈ new, ∃ lo hi t, lo ≤ hi ∧ t ∈ insert e (fresh g g') ∧ d = Edge.symbols lo hi t
  leads : ∀ p < g.size, ∀ q < g.size, ∀ w, g'.Leads p w q ↔ g.LeadsVia s e L p w q

/-! ## a graph that is laid in -/

namespace Inlaid

variable (h₀ : Inlaid g s e h g')
include h₀

theorem leads (hw : h.Leads p w q) : g'.Leads (g.spot s e p) w (g.spot s e q) := by
  have hdrawn {p : Nat} {d : Edge} (hd : d ∈ h.edges p) :
      g.drawn s e d ∈ g'.edges (g.spot s e p) :=
    h₀.mem_edges.2 (.inr ⟨p, rfl, d, hd, rfl⟩)
  induction hw with
  | here p => exact .here _
  | slide mem eps rest ih => exact .slide (hdrawn mem) eps ih
  | read mem acc rest ih => exact Leads.read (hdrawn mem) acc ih

theorem leads_of_leadsVia (hL : ∀ w ∈ L, h.Leads 0 w 1) (hw : g.LeadsVia s e L p w q) :
    g'.Leads p w q := by
  induction hw with
  | here p => exact .here p
  | step mem now rest ih => exact Leads.step (h₀.mem_edges.2 (.inl mem)) now ih
  | @jump q v w mem rest ih => exact (h₀.leads (hL v mem)).append ih

omit h₀ in
theorem mem_placed_of_lt (hexit : h.edges 1 = []) (hp : p < g.size) :
    d ∈ g.placed s e h p ↔ p = s ∧ ∃ d' ∈ h.edges 0, d = g.drawn s e d' := by
  constructor
  · rintro ⟨c, rfl, d', hd', hd⟩
    rcases spot_cases g s e c with ⟨rfl, hspot⟩ | ⟨rfl, -⟩ | ⟨htwo, hspot⟩
    · exact ⟨hspot, d', hd', hd⟩
    · exact absurd (hexit ▸ hd') List.not_mem_nil
    · omega
  · rintro ⟨rfl, d', hd', hd⟩
    exact ⟨0, rfl, d', hd', hd⟩

theorem mem_edges_spot (hs : s < g.size) (he : e < g.size) (hc : 2 ≤ c) :
    d ∈ g'.edges (g.spot s e c) ↔ ∃ d' ∈ h.edges c, d = g.drawn s e d' := by
  have hspot := spot_cases g s e c
  rw [h₀.mem_edges, edges_of_size_le (by omega), or_iff_right List.not_mem_nil]
  constructor
  · rintro ⟨c', hc', d', hd', hd⟩
    have hspot' := spot_cases g s e c'
    obtain rfl : c' = c := by omega
    exact ⟨d', hd', hd⟩
  · rintro ⟨d', hd', hd⟩
    exact ⟨c, rfl, d', hd', hd⟩

section
variable (hc : g.Closed) (hs : s < g.size) (he : e < g.size) (hexit : h.edges 1 = [])
  (hentry : ∀ c, ∀ d ∈ h.edges c, d.target ≠ 0) (hL : ∀ w, h.Leads 0 w 1 → w ∈ L)
include hc hs he hexit hentry hL

/-- a walk stands at a state that was there, or inside the graph that was laid in: then it goes
on with what leads from there to the end of that graph -/
theorem leadsVia_of_walks {l : List Stride} (hq : q < g.size) (hl : g'.Walks p l q) :
    (p < g.size → g.LeadsVia s e L p (Stride.word l) q) ∧ ∀ c, c ≠ 0 → g.spot s e c = p →
      ∃ u v, Stride.word l = u ++ v ∧ h.Leads c u 1 ∧ g.LeadsVia s e L e v q := by
  induction hl with
  | here p =>
    refine ⟨fun _ => .here p, fun c hne hcp => ?_⟩
    rcases spot_cases g s e c with ⟨hzero, -⟩ | ⟨rfl, hspot⟩ | ⟨htwo, hspot⟩
    · exact absurd hzero hne
    · rw [← hcp, hspot]
      exact ⟨[], [], rfl, .here 1, .here e⟩
    · omega
  | @step p q d t l mem now rest ih =>
    obtain ⟨hold, hcarry⟩ := ih hq
    have hword : Stride.word ([t] ++ l) = Stride.word [t] ++ Stride.word l :=
      List.filterMap_append
    rw [List.singleton_append] at hword
    -- an edge of the small graph is followed by the rest of the way to its end
    have hdrawn {c : Nat} (hd : ∃ d' ∈ h.edges c, d = g.drawn s e d') :
        ∃ u v, Stride.word (t :: l) = u ++ v ∧ h.Leads c u 1 ∧ g.LeadsVia s e L e v q := by
      obtain ⟨d', hd', rfl⟩ := hd
      obtain ⟨u, v, hl, hu, hv⟩ := hcarry d'.target (hentry c d' hd') rfl
      refine ⟨_, v, ?_, Leads.step hd' ((Edge.takes_withTarget _).1 now) hu, hv⟩
      rw [hword, hl, List.append_assoc]
    have hfirst : p < g.size → g.LeadsVia s e L p (Stride.word (t :: l)) q := by
      intro hp
      rcases h₀.mem_edges.1 mem with hmem | hmem
      · rw [hword]
        exact .step hmem now (hold (hc p d hmem))
      · obtain ⟨rfl, hd⟩ := (mem_placed_of_lt hexit hp).1 hmem
        obtain ⟨u, v, hl, hu, hv⟩ := hdrawn hd
        rw [hl]
        exact .jump (hL u hu) hv
    refine ⟨hfirst, fun c hne hcp => ?_⟩
    subst hcp
    rcases spot_cases g s e c with ⟨hzero, -⟩ | ⟨rfl, hspot⟩ | ⟨htwo, -⟩
    · exact absurd hzero hne
    · rw [hspot] at hfirst
      exact ⟨[], _, rfl, .here 1, hfirst he⟩
    · exact hdrawn ((h₀.mem_edges_spot hs he htwo).1 mem)

end

/-- a graph that is laid in between two states adds its paths -/
theorem addsPaths (hc : g.Closed) (hs : s < g.size) (he : e < g.size) (hexit : h.edges 1 = [])
    (hinner : ∀ c, ∀ d ∈ h.edges c, d.target ≠ 0 ∧ d.target < h.size) (hfruitful : h.Fruitful)
    (hL : ∀ w, h.Leads 0 w 1 ↔ w ∈ L) : g.AddsPaths s e L g' where
  size := h₀.size_le
  start := h₀.start
  accepting := h₀.accepting
  silent := h₀.silent
  edges := by
    intro p
    obtain ⟨new, hnew, hmem⟩ := h₀.edges p
    refine ⟨new, hnew, fun hp hne => ?_, fun d hd => ?_⟩
    · apply List.eq_nil_iff_forall_not_mem.2
      intro d hd
      exact hne ((mem_placed_of_lt hexit hp).1 ((hmem d).1 hd)).1
    · obtain ⟨c, -, d', hd', rfl⟩ := (hmem d).1 hd
      obtain ⟨lo, hi, t, rfl⟩ := h₀.symbols c d' hd'
      obtain ⟨hne, hlt⟩ := hinner c _ hd'
      refine ⟨lo, hi, g.spot s e t, ?_, ?_, rfl⟩
      · rcases hfruitful c _ hd' with heps | ⟨sym, hacc⟩
        · exact absurd heps Bool.false_ne_true
        · obtain ⟨hlo, hhi⟩ := accepts_symbols.1 hacc
          exact Nat.le_trans hlo hhi
      · rcases spot_cases g s e t with ⟨hzero, -⟩ | ⟨-, hspot⟩ | ⟨htwo, hspot⟩
        · exact absurd hzero hne
        · exact .inl hspot
        · exact .inr ⟨by omega, (h₀.spot_lt_iff hs he).2 hlt⟩
  leads := by
    intro p hp q hq w
    constructor
    · intro hw
      obtain ⟨l, hl, rfl⟩ := leads_iff_walks.1 hw
      have hentry : ∀ c, ∀ d ∈ h.edges c, d.target ≠ 0 := fun c d hd => (hinner c d hd).1
      exact (h₀.leadsVia_of_walks hc hs he hexit hentry (fun w => (hL w).1) hq hl).1 hp
    · exact h₀.leads_of_leadsVia fun w => (hL w).2

end Inlaid

/-- where the second of two states is reached from the first and from new states only, the edges
lead to it and to new states -/
theorem Connects.target {L : Language Nat} (hb : Connects ∅ 0 1 L pair h) :
    ∀ c, ∀ d ∈ h.edges c, d.target ≠ 0 ∧ d.target < h.size := by
  have hsize : 2 ≤ h.size := hb.grows.size
  have hends := hb.endpoints (Fragment.endpoints_twoStates Graph.empty) (Set.notMem_empty 1)
  have hinto {t : Nat} (ht : t ∈ insert 1 (∅ ∪ fresh pair h)) : t ≠ 0 ∧ t < h.size := by
    rcases ht with rfl | ht | ht
    · omega
    · exact absurd ht (Set.notMem_empty t)
    · have hge : 2 ≤ t := ht.1
      exact ⟨by omega, ht.2⟩
  intro c d hd
  rcases c with _ | _ | c
  · obtain ⟨X, hX, hXin, -⟩ := hb.outer
    rcases (hX d).1 hd with hd | hd
    · exact absurd (edges_pair 0 ▸ hd) List.not_mem_nil
    · exact hinto (hXin d hd)
  · exact absurd (hends.edges ▸ hd) List.not_mem_nil
  · have hc : c + 2 ∈ fresh pair h := ⟨Nat.le_add_left 2 c, lt_size_of_mem_edges hd⟩
    exact hinto (hb.inner _ (.inr hc) d hd)

theorem Connects.leads_pair {L : Language Nat} (hb : Connects ∅ 0 1 L pair h) :
    h.Leads 0 w 1 ↔ w ∈ L := by
  obtain ⟨X, hX, -, hwords⟩ := hb.outer
  rw [leads_iff_crosses Nat.zero_ne_one, hwords]
  simp only [hX, edges_pair, List.not_mem_nil, false_or]

end Graph

namespace Fragment

open SpanSearch.Graph
open SpanSearch.Interval (Ordered lexical)

variable {g : Graph} {s e lo hi : Nat}

/-- laying out pairs of bounds adds the paths of what lies between them -/
theorem addsPaths_layOut (hc : g.Closed) (hs : s < g.size) (he : e < g.size) (hle : lo ≤ hi)
    {rest : List (Nat × Nat)} (hne : rest ≠ []) (hord : Ordered rest)
    (htails : ∀ r ∈ rest.tail, (lo ≤ r.1 ∧ r.1 ≤ hi) ∧ lo ≤ r.2 ∧ r.2 ≤ hi) :
    g.AddsPaths s e (Interval.between lo hi rest) (layOut lo hi e (.tied s) rest g).2 := by
  have hconnects : Connects ∅ 0 1 _ pair (layOut lo hi 1 (.tied 0) rest pair).2 :=
    connects_layOut (endpoints_twoStates Graph.empty) hne hord htails
  have hfruitful : pair.Fruitful := fun p d hd => absurd (edges_pair p ▸ hd) List.not_mem_nil
  have hkept := keeps_layOut (e := 1) (.tied 0) hle ⟨hord, htails⟩ pair hfruitful
  have hlaid : Inlaid g s e (layOut lo hi 1 (.tied 0) rest pair).2
      (layOut lo hi e (.tied s) rest g).2 :=
    (relocates_layOut hs he (.tied 0) 1 rest pair g (inlaid_pair g s e)).2
  have hends := hconnects.endpoints (endpoints_twoStates Graph.empty) (Set.notMem_empty 1)
  exact hlaid.addsPaths hc hs he hends.edges hconnects.target hkept fun w => hconnects.leads_pair

/-- An interval adds from `s` to `e` what lies between its bounds in lexicographic order and has
bytes of the range of the encoding behind its first, and nothing else changes.  Where `e` does
not lead back to `s`, and neither of the two to itself, the words from `s` to `e` are those of
before and these. -/
theorem addsPaths_interval (hc : g.Closed) (hs : s < g.size) (he : e < g.size) (enc : Encoding)
    (fs ts : List Nat) (hlen : fs.length = ts.length) (hne : fs ≠ []) (hle : fs ≤ ts)
    (hf : ∀ b ∈ fs.tail, enc.tails.1 ≤ b ∧ b ≤ enc.tails.2)
    (ht : ∀ b ∈ ts.tail, enc.tails.1 ≤ b ∧ b ≤ enc.tails.2) :
    g.AddsPaths s e (lexical enc.tails.1 enc.tails.2 fs ts) (interval enc s e (fs, ts) g).2 ∧
      ((∀ u, ¬ g.Leads e u s) → (∀ u, g.Leads s u s → u = []) → (∀ u, g.Leads e u e → u = []) →
        ∀ w, (interval enc s e (fs, ts) g).2.Leads s w e ↔
          g.Leads s w e ∨ w ∈ lexical enc.tails.1 enc.tails.2 fs ts) := by
  have hrange : enc.tails.1 ≤ enc.tails.2 := by
    cases enc <;> decide
  have hwords : Interval.between enc.tails.1 enc.tails.2 (fs.zip ts) =
      lexical enc.tails.1 enc.tails.2 fs ts := by
    ext w
    exact Interval.mem_between_zip hlen hne hle hf ht
  have hzip : fs.zip ts ≠ [] := by
    intro hnil
    rcases List.zip_eq_nil_iff.1 hnil with rfl | rfl
    · exact hne rfl
    · exact hne (List.length_eq_zero_iff.1 hlen)
  have htails : ∀ r ∈ (fs.zip ts).tail, (enc.tails.1 ≤ r.1 ∧ r.1 ≤ enc.tails.2) ∧
      enc.tails.1 ≤ r.2 ∧ r.2 ≤ enc.tails.2 := by
    intro r hr
    rw [List.tail_zip] at hr
    obtain ⟨hr₁, hr₂⟩ := List.of_mem_zip hr
    exact ⟨hf r.1 hr₁, ht r.2 hr₂⟩
  have hadds : g.AddsPaths s e (lexical enc.tails.1 enc.tails.2 fs ts)
      (interval enc s e (fs, ts) g).2 := by
    rw [← hwords]
    exact addsPaths_layOut hc hs he hrange hzip (Interval.ordered_zip_of_le hle) htails
  refine ⟨hadds, fun hback honce honce' w => ?_⟩
  exact (hadds.leads s hs e he w).trans (leadsVia_iff_of_once hback honce honce')

/-- two states with an edge for the letters from one to the other -/
def oneLetter : Graph := ⟨#[{ edges := [Edge.symbols 0x61 0x7A 1] }, {}], 0⟩

/-- the bounds part at their first bytes, and one byte lies between these -/
theorem addsPaths_interval_beside_letters :
    oneLetter.AddsPaths 0 1 (lexical 0x80 0xBF [0xC3, 0xA0] [0xC5, 0x85])
      (interval .utf8 0 1 ([0xC3, 0xA0], [0xC5, 0x85]) oneLetter).2 ∧
    ∀ w, (interval .utf8 0 1 ([0xC3, 0xA0], [0xC5, 0x85]) oneLetter).2.Leads 0 w 1 ↔
      oneLetter.Leads 0 w 1 ∨ w ∈ lexical 0x80 0xBF [0xC3, 0xA0] [0xC5, 0x85] := by
  have hexit : oneLetter.edges 1 = [] := rfl
  have hentry : ∀ d ∈ oneLetter.edges 0, d.target = 1 := by decide
  have honce {w : List Nat} (hw : oneLetter.Leads 0 w 0) : w = [] := by
    by_contra hne
    cases hw with
    | here => exact hne rfl
    | slide mem eps rest =>
      rw [hentry _ mem] at rest
      exact Nat.zero_ne_one (rest.eq_of_edges_eq_nil hexit).2
    | read mem acc rest =>
      rw [hentry _ mem] at rest
      exact Nat.zero_ne_one (rest.eq_of_edges_eq_nil hexit).2
  obtain ⟨hadds, hwords⟩ := addsPaths_interval (g := oneLetter) (s := 0) (e := 1)
    (closed_iff.2 (by decide)) (by decide) (by decide) .utf8 [0xC3, 0xA0] [0xC5, 0x85] rfl
    (by decide) (by decide) (by decide) (by decide)
  exact ⟨hadds, hwords (fun u hu => Nat.zero_ne_one (hu.eq_of_edges_eq_nil hexit).2)
    (fun u hu => honce hu) fun u hu => (hu.eq_of_edges_eq_nil hexit).1⟩

end Fragment
end SpanSearch
