import SpanSearch.Proofs.Bounds
import SpanSearch.Proofs.Selection

/-!
# What a search knows and what it has still to find

* `Tape.Matches`          the spans of words from the origin on
* `Search.Sound`          the tables tell of a language, and the text is one of their alphabet;
                          the matches at the origin are found
* `accelerate_spec`       skipping passes over no end of a match
* `scanFrom_spec`         a scan finds all matches up to where it stops, and none goes on there
* `Search.Awaits`         the matches that are not known yet are those from `resume` on
* `Awaits.advance`        coming to know more takes them off the front of these
-/

namespace SpanSearch

open Ascending

variable {L : Language Nat} {m : Search} {s : Span} {later : List Span}

theorem Tape.Holds.eq_succ {t : Tape} {i sym j : Nat} (ht : t.Proper)
    (hbytes : t.alphabet.isBytes = true) (h : t.Holds i sym j) : j = i + 1 := by
  rw [← ht.widthOf h, widthOf]
  cases halphabet : t.alphabet with
  | bytes enc => rfl
  | chars =>
    rw [halphabet] at hbytes
    exact absurd hbytes Bool.false_ne_true

def Tape.Matches (t : Tape) (L : Language Nat) (origin : Nat) (s : Span) : Prop :=
  origin ≤ s.start ∧ t.Spells L s

namespace Search

/-! ## scans -/

section
variable {c : Cursor} {finder back : Table} {r j k origin steps : Nat} {known : List Span}
  (hc : c.Ahead) (ht : c.tape.Proper)
include hc ht

/-- skipping leaves the state of a finder as it is, and passes over no end of a match -/
theorem accelerate_spec (hskips : finder.SkipsSafely c.tape.alphabet) (hj : c.tape.IsPlace j)
    (hrj : r ≤ j) :
    ∃ k, accelerate finder (finder.after (c.tape.symbolsIn r j)) (c.moveTo j) = c.moveTo k ∧
      j ≤ k ∧ c.tape.IsPlace k ∧
      finder.after (c.tape.symbolsIn r k) = finder.after (c.tape.symbolsIn r j) ∧
      ∀ i, j < i → i ≤ k → finder.isAccepting (finder.after (c.tape.symbolsIn r i)) = false := by
  generalize hid : finder.after (c.tape.symbolsIn r j) = id
  rw [accelerate]
  by_cases hnone : finder.accelerator id = []
  · rw [if_pos (List.isEmpty_iff.2 hnone)]
    exact ⟨j, rfl, Nat.le_refl j, hj, hid, fun i hji hij => absurd hij (Nat.not_le_of_lt hji)⟩
  · obtain ⟨hbytes, hacc, hlength, hstay⟩ := hskips id hnone
    obtain ⟨hle, hend, hout⟩ :=
      c.tape.findAny_spec (finder.accelerator id) hj.le_length
    rw [if_neg (mt List.isEmpty_iff.1 hnone), Cursor.skipToAny_moveTo hc hbytes hnone hlength
      hj.le_length]
    have hmax : c.tape.alphabet.maxSymbol = 0xFF := by
      cases halphabet : c.tape.alphabet with
      | bytes enc => rfl
      | chars =>
        rw [halphabet] at hbytes
        exact absurd hbytes Bool.false_ne_true
    have hon : ∀ i, j ≤ i → i ≤ c.tape.findAny (finder.accelerator id) j →
        c.tape.IsPlace i ∧ finder.after (c.tape.symbolsIn r i) = id := by
      intro i hji
      induction i, hji using Nat.le_induction with
      | base => exact fun _ => ⟨hj, hid⟩
      | succ i hji ih =>
        intro hi
        obtain ⟨hplace, hafter⟩ := ih (Nat.le_of_succ_le hi)
        obtain ⟨sym, l, hl, hsym⟩ := ht.exists_holds hplace (Nat.lt_of_lt_of_le hi hend)
        obtain rfl := hl.eq_succ ht hbytes
        refine ⟨hl.place, ?_⟩
        rw [← hl.next_after (Nat.le_trans hrj hji), hafter]
        exact hstay sym (Nat.lt_succ_of_le (hmax ▸ hsym)) (hout i hji hi sym hl.symbol)
    refine ⟨_, rfl, hle, (hon _ hle (Nat.le_refl _)).1, (hon _ hle (Nat.le_refl _)).2, ?_⟩
    intro i hji hi
    rw [(hon i (Nat.le_of_lt hji) hi).2]
    exact hacc

variable (hfinder : finder.Finds L c.tape.alphabet.maxSymbol)
  (hback : back.Recognizes L.reverse c.tape.alphabet.maxSymbol) (ho : c.tape.IsPlace origin)
  (hor : origin ≤ r) (hapart : ∀ s, c.tape.Matches L origin s → r ≤ s.start ∨ s.stop < r)
include hfinder hback ho hor hapart

omit hc hback ho hor hapart in
theorem isAccepting_of_spells (hs : c.tape.Spells L s) (hrs : r ≤ s.start) :
    finder.isAccepting (finder.after (c.tape.symbolsIn r s.stop)) = true := by
  refine (hfinder.accepting _ (le_of_mem_symbolsIn ht r s.stop)).2 ⟨_, ?_, hs.word⟩
  rw [← c.tape.symbolsIn_append hrs hs.le]
  exact List.suffix_append _ _

/-- no match from before `r` reaches it, so that a finder set out there misses none -/
theorem mem_confirm (hj : c.tape.IsPlace j) (hrj : r ≤ j) :
    s ∈ confirm finder back origin (c.moveTo j) (finder.after (c.tape.symbolsIn r j)) known ↔
      c.tape.Matches L origin s ∧ s.stop = j ∨ s ∈ known := by
  rw [confirm]
  split
  · rw [List.mem_append, mem_matchesEndingAt ht hback hc ho hj (Nat.le_trans hor hrj)]
    exact or_congr_left and_comm
  · next hnot =>
    refine (or_iff_right ?_).symm
    rintro ⟨⟨hos, hs⟩, rfl⟩
    have hrs : r ≤ s.start := (hapart s ⟨hos, hs⟩).resolve_right (Nat.not_lt_of_le hrj)
    exact hnot (isAccepting_of_spells ht hfinder hs hrs)

/-- taking one more symbol finds the matches that end behind it -/
theorem mem_confirm_next {sym l : Nat} (hl : c.tape.Holds k sym l) (hrk : r ≤ k)
    (hknown : ∀ s, s ∈ known ↔ c.tape.Matches L origin s ∧ r ≤ s.start ∧ s.stop ≤ k) :
    s ∈ confirm finder back origin (c.moveTo l) (finder.after (c.tape.symbolsIn r l)) known ↔
      c.tape.Matches L origin s ∧ r ≤ s.start ∧ s.stop ≤ l := by
  have hkl := Nat.le_of_lt hl.lt
  have hrl := Nat.le_trans hrk hkl
  rw [mem_confirm hc ht hfinder hback ho hor hapart hl.place hrl, hknown]
  constructor
  · rintro (⟨hs, rfl⟩ | ⟨hs, hrs, hsk⟩)
    · exact ⟨hs, (hapart s hs).resolve_right (Nat.not_lt_of_le hrl), Nat.le_refl _⟩
    · exact ⟨hs, hrs, Nat.le_trans hsk hkl⟩
  · rintro ⟨hs, hrs, hsl⟩
    rcases Nat.eq_or_lt_of_le hsl with heq | hlt
    · exact .inl ⟨hs, heq⟩
    · exact .inr ⟨hs, hrs, hl.le_of_lt' hs.2.stop hlt⟩

/-- a scan finds all matches up to where it stops -/
theorem scanFrom_spec (hskips : finder.SkipsSafely c.tape.alphabet) (hj : c.tape.IsPlace j)
    (hrj : r ≤ j) (hsteps : c.tape.length - j < steps)
    (hknown : ∀ s, s ∈ known ↔ c.tape.Matches L origin s ∧ r ≤ s.start ∧ s.stop ≤ j) :
    let found := scanFrom finder back origin steps (c.moveTo j)
      (finder.after (c.tape.symbolsIn r j)) known
    (found.exhausted = true ∧ ∀ s, s ∈ found.known ↔ c.tape.Matches L origin s ∧ r ≤ s.start) ∨
    found.exhausted = false ∧ found.known ≠ [] ∧ ∃ k, j ≤ k ∧ c.tape.IsPlace k ∧
      found.cursor = c.moveTo k ∧
      finder.isSilent (finder.after (c.tape.symbolsIn r k)) = true ∧
      ∀ s, s ∈ found.known ↔ c.tape.Matches L origin s ∧ r ≤ s.start ∧ s.stop ≤ k := by
  induction steps generalizing j known with
  | zero => exact absurd hsteps (Nat.not_lt_zero _)
  | succ steps ih =>
    have hle := le_of_mem_symbolsIn ht (c := c) r j
    rw [scanFrom]
    split
    · next hdead =>
      refine .inl ⟨rfl, fun s => (hknown s).trans (and_congr_right fun hs => ?_)⟩
      exact absurd hs.2.word ((hfinder.dead _ hle).1 hdead _)
    · split
      · next hsilent =>
        rw [Bool.and_eq_true, Bool.not_eq_true', List.isEmpty_eq_false_iff] at hsilent
        exact .inr ⟨rfl, hsilent.1, j, Nat.le_refl j, hj, rfl, hsilent.2, hknown⟩
      · obtain ⟨k, hmove, hjk, hk, hsame, hnone⟩ := accelerate_spec hc ht hskips hj hrj
        have hrk := Nat.le_trans hrj hjk
        -- no match ends where bytes are skipped
        have hskipped : ∀ s, c.tape.Matches L origin s → r ≤ s.start → s.stop ≤ k → s.stop ≤ j := by
          intro s hs hrs hsk
          by_contra hjs
          have hacc := isAccepting_of_spells ht hfinder hs.2 hrs
          rw [hnone s.stop (Nat.lt_of_not_le hjs) hsk] at hacc
          exact Bool.false_ne_true hacc
        have hknown' : ∀ s, s ∈ known ↔ c.tape.Matches L origin s ∧ r ≤ s.start ∧ s.stop ≤ k := by
          refine fun s => (hknown s).trans (and_congr_right fun hs => and_congr_right fun hrs => ?_)
          exact ⟨fun h => Nat.le_trans h hjk, hskipped s hs hrs⟩
        rw [hmove]
        rcases eq_length_or_holds ht hk with rfl | ⟨sym, l, hl, -⟩
        · rw [Cursor.next_moveTo_length hc]
          refine .inl ⟨rfl, fun s => (hknown' s).trans (and_congr_right fun hs => ?_)⟩
          exact and_iff_left hs.2.stop.le_length
        · have hlength := hl.place.le_length
          have hkl := hl.lt
          have hstep : finder.next (finder.after (c.tape.symbolsIn r j)) sym =
              finder.after (c.tape.symbolsIn r l) := by
            rw [← hsame, hl.next_after hrk]
          rw [Cursor.next_moveTo hc ht hl]
          dsimp only
          rw [hstep]
          have hmore (s : Span) := mem_confirm_next hc ht hfinder hback ho hor hapart (s := s) hl
            hrk hknown'
          refine (ih hl.place (by omega) (by omega) hmore).imp id ?_
          rintro ⟨hgoes, hne, i, hli, hrest⟩
          exact ⟨hgoes, hne, i, by omega, hrest⟩

omit hc hback ho hor in
/-- where a finder is silent, no match goes on or ends -/
theorem apart_of_isSilent (hk : c.tape.IsPlace k) (hrk : r ≤ k)
    (hsilent : finder.isSilent (finder.after (c.tape.symbolsIn r k)) = true) :
    ∀ s, c.tape.Matches L origin s → k ≤ s.start ∨ s.stop < k := by
  intro s hs
  obtain ⟨-, -, hnone⟩ := (hfinder.silent _ (le_of_mem_symbolsIn ht r k)).1 hsilent
  by_contra hnot
  obtain ⟨hsk, hks⟩ := not_or.1 hnot
  have hsk := Nat.lt_of_not_le hsk
  have hks := Nat.le_of_not_lt hks
  rcases hapart s hs with hrs | hsr
  · refine hnone (c.tape.symbolsIn s.start k) ?_ (ht.symbolsIn_ne_nil hs.2.start hk hsk)
      (c.tape.symbolsIn k s.stop) ?_
    · rw [← c.tape.symbolsIn_append hrs (Nat.le_of_lt hsk)]
      exact List.suffix_append _ _
    · rw [c.tape.symbolsIn_append (Nat.le_of_lt hsk) hks]
      exact hs.2.word
  · omega

omit hc hback ho hor hapart in
theorem nil_not_mem_of_isSilent
    (hsilent : finder.isSilent (finder.after (c.tape.symbolsIn r k)) = true) : [] ∉ L := by
  intro hnil
  have hle := le_of_mem_symbolsIn ht (c := c) r k
  obtain ⟨hacc, -⟩ := (hfinder.silent _ hle).1 hsilent
  rw [(hfinder.accepting _ hle).2 ⟨[], List.nil_suffix, hnil⟩] at hacc
  exact Bool.false_ne_true hacc.symm

end

/-! ## what a search knows -/

/-- a search for the words of a language in a text of their alphabet -/
structure Sound (m : Search) (L : Language Nat) : Prop where
  ahead : m.input.Ahead
  proper : m.input.tape.Proper
  place : m.input.tape.IsPlace m.origin
  tells : m.pattern.engine.Tells L m.input.tape.alphabet.maxSymbol
  skipsSafely : m.pattern.engine.SkipsSafely m.input.tape.alphabet

theorem Sound.isWhole_iff (h : m.Sound L) :
    m.isWhole = true ↔ m.input.tape.Spells L ⟨m.origin, m.input.tape.length⟩ := by
  rw [Search.isWhole_iff h.ahead h.proper h.place h.tells]
  exact ⟨fun hw => ⟨h.place, m.input.tape.isPlace_length, h.place.le_length, hw⟩, fun h => h.word⟩

theorem Sound.mem_leadingEnds (h : m.Sound L) {k : Nat} :
    k ∈ m.leadingEnds ↔ m.input.tape.Spells L ⟨m.origin, k⟩ := by
  rw [Search.mem_leadingEnds h.ahead h.proper h.place h.tells]
  exact ⟨fun ⟨hle, hk, hw⟩ => ⟨h.place, hk, hle, hw⟩, fun ⟨_, hk, hle, hw⟩ => ⟨hle, hk, hw⟩⟩

theorem Sound.pairwise_leadingEnds (h : m.Sound L) : m.leadingEnds.Pairwise Before :=
  (Search.pairwise_leadingEnds h.ahead h.proper h.place).imp before_nat.2

/-- the matches that are not known yet are those from where reading goes on -/
structure Awaits (m : Search) (L : Language Nat) (later : List Span) : Prop where
  known : ∀ s ∈ m.pending, m.input.tape.Matches L m.origin s
  sorted : (m.pending ++ later).Pairwise Before
  later : ∀ s, s ∈ later ↔
    m.exhausted = false ∧ m.input.tape.Matches L m.origin s ∧ m.resume ≤ s.start
  place : m.exhausted = false → m.input.tape.IsPlace m.resume
  behind : m.exhausted = false → m.origin ≤ m.resume
  started : m.exhausted = false → ∀ s ∈ m.pending, s.start < m.resume
  /-- a finder that sets out again misses no match and finds none a second time -/
  apart : m.exhausted = false → m.pattern.engine.isScanning = true →
    ∀ s, m.input.tape.Matches L m.origin s → m.resume ≤ s.start ∨ s.stop < m.resume

theorem advance_eq (m : Search) : m.advance =
    { m with
      resume := m.advance.resume
      exhausted := m.advance.exhausted
      pending := m.advance.pending } := by
  rw [advance]
  split <;> rfl

/-- what a search is about, all but its progress -/
theorem Sound.advance (h : m.Sound L) : m.advance.Sound L := by
  rw [advance_eq]
  exact ⟨h.ahead, h.proper, h.place, h.tells, h.skipsSafely⟩

/-- coming to know the first of the matches that are awaited leaves the others -/
theorem Awaits.split (h : m.Awaits L later) (m' : Search) (hmore : m.exhausted = false)
    (htape : m'.input = m.input) (horigin : m'.origin = m.origin)
    (hsorted : m'.pending.Pairwise Before)
    (hknown : ∀ s, s ∈ m'.pending ↔ m.input.tape.Matches L m.origin s ∧ m.resume ≤ s.start ∧
      (m'.exhausted = false → s.start < m'.resume))
    (hplace : m'.exhausted = false → m.input.tape.IsPlace m'.resume ∧ m.resume ≤ m'.resume)
    (hapart : m'.exhausted = false → m'.pattern.engine.isScanning = true →
      ∀ s, m.input.tape.Matches L m.origin s → m'.resume ≤ s.start ∨ s.stop < m'.resume) :
    ∃ rest, m'.Awaits L rest ∧ later = m'.pending ++ rest := by
  have hrest : ∀ s, s ∈ later.filter (fun s => !m'.exhausted && decide (m'.resume ≤ s.start)) ↔
      m'.exhausted = false ∧ m.input.tape.Matches L m.origin s ∧ m'.resume ≤ s.start := by
    intro s
    rw [List.mem_filter, h.later, Bool.and_eq_true, Bool.not_eq_true', decide_eq_true_eq]
    constructor
    · rintro ⟨⟨-, hs, -⟩, hgoes, hle⟩
      exact ⟨hgoes, hs, hle⟩
    · rintro ⟨hgoes, hs, hle⟩
      exact ⟨⟨hmore, hs, Nat.le_trans (hplace hgoes).2 hle⟩, hgoes, hle⟩
  have hall : (m'.pending ++
      later.filter fun s => !m'.exhausted && decide (m'.resume ≤ s.start)).Pairwise Before := by
    refine List.pairwise_append.2 ⟨hsorted, ?_, fun s hs t ht => ?_⟩
    · exact ((List.pairwise_append.1 h.sorted).2.1).filter _
    · obtain ⟨hgoes, -, hle⟩ := (hrest t).1 ht
      exact Span.before_iff.2 (.inl (Nat.lt_of_lt_of_le (((hknown s).1 hs).2.2 hgoes) hle))
  have hafter : m'.Awaits L
      (later.filter fun s => !m'.exhausted && decide (m'.resume ≤ s.start)) := {
    known := fun s hs => htape ▸ horigin ▸ ((hknown s).1 hs).1
    sorted := hall
    later := by
      rw [htape, horigin]
      exact hrest
    place := by
      rw [htape]
      exact fun hgoes => (hplace hgoes).1
    behind := by
      rw [horigin]
      exact fun hgoes => Nat.le_trans (h.behind hmore) (hplace hgoes).2
    started := fun hgoes s hs => ((hknown s).1 hs).2.2 hgoes
    apart := by
      rw [htape, horigin]
      exact hapart }
  refine ⟨_, hafter, eq_of_pairwise_of_mem_iff (List.pairwise_append.1 h.sorted).2.1 hall
    fun s => ?_⟩
  rw [List.mem_append, hknown, hrest, h.later]
  constructor
  · rintro ⟨-, hs, hle⟩
    by_cases hgoes : m'.exhausted = false ∧ m'.resume ≤ s.start
    · exact .inr ⟨hgoes.1, hs, hgoes.2⟩
    · exact .inl ⟨hs, hle, fun h => Nat.lt_of_not_le fun hle => hgoes ⟨h, hle⟩⟩
  · rintro (⟨hs, hle, -⟩ | ⟨hgoes, hs, hle⟩)
    · exact ⟨hmore, hs, hle⟩
    · exact ⟨hmore, hs, Nat.le_trans (hplace hgoes).2 hle⟩

/-- coming to know all matches that are awaited leaves none -/
theorem Awaits.finish (h : m.Awaits L later) (m' : Search) (hmore : m.exhausted = false)
    (htape : m'.input = m.input) (horigin : m'.origin = m.origin)
    (hsorted : m'.pending.Pairwise Before) (hdone : m'.exhausted = true)
    (hknown : ∀ s, s ∈ m'.pending ↔ m.input.tape.Matches L m.origin s ∧ m.resume ≤ s.start) :
    ∃ rest, m'.Awaits L rest ∧ later = m'.pending ++ rest ∧
      (m'.exhausted = false → m.resume < m'.resume) := by
  have hno : m'.exhausted ≠ false := by
    rw [hdone]
    exact Bool.false_ne_true.symm
  obtain ⟨rest, hrest, hsplit⟩ := h.split m' hmore htape horigin hsorted
    (fun s => (hknown s).trans (by rw [and_iff_left fun h => absurd h hno]))
    (fun h => absurd h hno) (fun h => absurd h hno)
  exact ⟨rest, hrest, hsplit, fun h => absurd h hno⟩

/-- a scan comes to know the first of the matches that are awaited, or all of them -/
theorem Awaits.scan {finder back : Table} (hm : m.Sound L) (h : m.Awaits L later)
    (hmore : m.exhausted = false) (hnone : m.pending = [])
    (hengine : m.pattern.engine = .scanning finder back) :
    ∃ rest, (m.scan finder back).Awaits L rest ∧ later = (m.scan finder back).pending ++ rest ∧
      ((m.scan finder back).exhausted = false → m.resume < (m.scan finder back).resume) := by
  have htells := hm.tells
  have hskips := hm.skipsSafely
  rw [hengine] at htells hskips
  obtain ⟨hfinder, hback⟩ := htells
  have hr := h.place hmore
  have hapart := h.apart hmore (by rw [hengine]; rfl)
  have hsteps : m.input.tape.length - m.resume < (m.input.moveTo m.resume).length + 1 := by
    rw [Cursor.length_moveTo, Cursor.length_eq]
    omega
  have hself := m.input.tape.symbolsIn_self m.resume
  have hfirst (s : Span) : s ∈ confirm finder back m.origin (m.input.moveTo m.resume)
      (finder.after (m.input.tape.symbolsIn m.resume m.resume)) m.pending ↔ _ ∨ s ∈ m.pending :=
    mem_confirm hm.ahead hm.proper hfinder hback hm.place (h.behind hmore) hapart hr
      (Nat.le_refl _)
  have hscan := scanFrom_spec hm.ahead hm.proper hfinder hback hm.place (h.behind hmore) hapart
    hskips hr (Nat.le_refl _) hsteps fun s => show s ∈ confirm finder back m.origin
      (m.input.moveTo m.resume) (finder.after (m.input.tape.symbolsIn m.resume m.resume))
      m.pending ↔ _ by
      rw [hfirst, hnone, or_iff_left List.not_mem_nil]
      refine and_congr_right fun hs => ⟨fun heq => ?_, fun ⟨hrs, hsr⟩ => ?_⟩
      · exact ⟨(hapart s hs).resolve_right (by omega), Nat.le_of_eq heq⟩
      · have hle := hs.2.le
        omega
  rw [hself, Table.after_nil] at hscan
  have hsorted : (m.scan finder back).pending.Pairwise Before := pairwise_ofList _
  rcases hscan with ⟨hdone, hall⟩ | ⟨hgoes, hne, k, hrk, hk, hcursor, hsilent, hall⟩
  · exact h.finish _ hmore rfl rfl hsorted hdone fun s => (mem_ofList s _).trans (hall s)
  · have hresume : (m.scan finder back).resume = k := by
      refine (congrArg Cursor.position hcursor).trans ?_
      exact Cursor.position_moveTo_of_le hk.le_length
    have hapart' := apart_of_isSilent hm.proper hfinder hapart hk hrk hsilent
    have hempty := nil_not_mem_of_isSilent hm.proper hfinder hsilent
    have hknown : ∀ s, s ∈ (m.scan finder back).pending ↔
        m.input.tape.Matches L m.origin s ∧ m.resume ≤ s.start ∧
          ((m.scan finder back).exhausted = false → s.start < (m.scan finder back).resume) := by
      intro s
      rw [hresume]
      refine (mem_ofList s _).trans ((hall s).trans (and_congr_right fun hs => ?_))
      refine and_congr_right fun hrs => ⟨fun hsk _ => ?_, fun hlt => ?_⟩
      · refine Nat.lt_of_le_of_ne (Nat.le_trans hs.2.le hsk) fun heq => hempty ?_
        have hstop : s.stop = s.start := Nat.le_antisymm (heq.symm ▸ hsk) hs.2.le
        have hword := hs.2.word
        rwa [hstop, m.input.tape.symbolsIn_self] at hword
      · have hsk := hlt hgoes
        have hcase := hapart' s hs
        omega
    obtain ⟨rest, hrest, hsplit⟩ := h.split (m.scan finder back) hmore rfl rfl hsorted
      hknown (fun _ => hresume ▸ ⟨hk, hrk⟩) (fun _ _ => hresume ▸ hapart')
    refine ⟨rest, hrest, hsplit, fun _ => ?_⟩
    obtain ⟨s, hs⟩ := List.exists_mem_of_ne_nil _ hne
    obtain ⟨-, hrs, hlt⟩ := (hknown s).1 ((mem_ofList s _).2 hs)
    exact Nat.lt_of_le_of_lt hrs (hlt hgoes)

/-- trying a start comes to know the matches there -/
theorem Awaits.tryNext {base : Table} (hm : m.Sound L) (h : m.Awaits L later)
    (hmore : m.exhausted = false) (hnone : m.pending = [])
    (hengine : m.pattern.engine = .direct base) :
    ∃ rest, (m.tryNext base).Awaits L rest ∧ later = (m.tryNext base).pending ++ rest ∧
      ((m.tryNext base).exhausted = false → m.resume < (m.tryNext base).resume) := by
  have htells := hm.tells
  rw [hengine] at htells
  have hr := h.place hmore
  have hsorted : (m.tryNext base).pending.Pairwise Before := pairwise_ofList _
  have hhere : ∀ s, s ∈ (m.tryNext base).pending ↔
      m.input.tape.Matches L m.origin s ∧ s.start = m.resume := by
    intro s
    refine (mem_ofList s _).trans ?_
    rw [hnone, List.nil_append, List.mem_map]
    constructor
    · rintro ⟨stop, hstop, rfl⟩
      obtain ⟨hle, hplace, hword⟩ := (mem_matchesStartingAt hm.proper htells hm.ahead hr).1 hstop
      exact ⟨⟨h.behind hmore, hr, hplace, hle, hword⟩, rfl⟩
    · rintro ⟨⟨-, hs⟩, heq⟩
      refine ⟨s.stop, (mem_matchesStartingAt hm.proper htells hm.ahead hr).2 ?_, ?_⟩
      · exact ⟨heq ▸ hs.le, hs.stop, heq ▸ hs.word⟩
      · cases s
        exact congrArg₂ Span.mk heq.symm rfl
  have hdirect : (m.tryNext base).pattern.engine.isScanning = false := by
    show m.pattern.engine.isScanning = false
    rw [hengine]
    rfl
  have hapart {p : Prop} : (m.tryNext base).pattern.engine.isScanning = true → p := fun hscan =>
    absurd (hdirect.symm.trans hscan) Bool.false_ne_true
  rcases eq_length_or_holds hm.proper hr with heq | ⟨sym, l, hl, -⟩
  · have hnext : (m.input.moveTo m.resume).next = (none, m.input.moveTo m.resume) :=
      heq ▸ Cursor.next_moveTo_length hm.ahead
    have hout : (m.tryNext base).exhausted = true := by
      show (m.input.moveTo m.resume).next.1.isNone = true
      rw [hnext]
      rfl
    refine h.finish _ hmore rfl rfl hsorted hout fun s => (hhere s).trans ?_
    refine and_congr_right fun hs => ?_
    have hlength := hs.2.start.le_length
    omega
  · have hrl := hl.lt
    have hnext := Cursor.next_moveTo hm.ahead hm.proper hl
    have hresume : (m.tryNext base).resume = l := by
      show (m.input.moveTo m.resume).next.2.position = l
      rw [hnext]
      exact Cursor.position_moveTo_of_le hl.place.le_length
    have hgoes : (m.tryNext base).exhausted = false := by
      show (m.input.moveTo m.resume).next.1.isNone = false
      rw [hnext]
      rfl
    obtain ⟨rest, hrest, hsplit⟩ := h.split (m.tryNext base) hmore rfl rfl hsorted
      (fun s => (hhere s).trans (and_congr_right fun hs => by
        rw [hresume]
        refine ⟨fun heq => ⟨Nat.le_of_eq heq.symm, fun _ => heq ▸ hrl⟩, fun ⟨hle, hlt⟩ => ?_⟩
        exact Nat.le_antisymm (hl.le_of_lt' hs.2.start (hlt hgoes)) hle))
      (fun _ => hresume ▸ ⟨hl.place, Nat.le_of_lt hrl⟩) (fun _ => hapart)
    exact ⟨rest, hrest, hsplit, fun _ => hresume ▸ hrl⟩

theorem Awaits.advance (hm : m.Sound L) (h : m.Awaits L later) (hmore : m.exhausted = false)
    (hnone : m.pending = []) :
    ∃ rest, m.advance.Awaits L rest ∧ later = m.advance.pending ++ rest ∧
      (m.advance.exhausted = false → m.resume < m.advance.resume) := by
  rw [Search.advance]
  match hengine : m.pattern.engine with
  | .scanning finder back => exact h.scan hm hmore hnone hengine
  | .direct base => exact h.tryNext hm hmore hnone hengine

end Search
end SpanSearch
