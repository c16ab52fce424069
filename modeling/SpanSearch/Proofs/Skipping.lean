import SpanSearch.Proofs.Matching

/-!
# Skipping never changes a scan

A scan that skips makes the same steps as one that reads every byte: over the bytes that are
skipped the state of the finder stays as it is, nothing is reported, and the answer to whether to
stop stays the same.

* `Matcher.scanVia`           a scan with a way to skip, `scan_eq_scanVia`
* `scanFromVia_pass`          reading what might be skipped
* `scanFromVia_skipToAny`     step for step
* `Matcher.scan_skips`        a scan with searches, and one that reads every byte
-/

namespace SpanSearch

def Cursor.stay (_needles : List Nat) (c : Cursor) : Cursor := c

namespace Tape

variable {t : Tape} {enc : Encoding} {j : Nat}

theorem Haystack.exists_ofEncoded (h : Haystack (.bytes enc) t) : ∃ bs, t = ofEncoded enc bs := by
  cases h with
  | text cs => exact ⟨_, rfl⟩
  | bytes bs _ => exact ⟨bs, rfl⟩

/-- each cell of a tape of bytes has a byte -/
theorem Haystack.exists_holds (h : Haystack (.bytes enc) t) (hj : j < t.length) :
    ∃ b < 256, t.Holds j b (j + 1) := by
  have ht := h.proper
  have hbytes : t.alphabet.isBytes = true := h.alphabet_eq ▸ rfl
  obtain ⟨b, hb⟩ : ∃ b, t.symbolAt? j = some b := by
    obtain ⟨bs, rfl⟩ := h.exists_ofEncoded
    rw [length_ofEncoded] at hj
    exact ⟨bs[j], (symbolAt?_ofEncoded enc bs j).trans (List.getElem?_eq_getElem hj)⟩
  have hle : b ≤ 0xFF := by
    have hmax := ht.bounded j b hb
    rwa [h.alphabet_eq] at hmax
  have hholds := ht.holds j b hb
  rw [hholds.eq_succ ht hbytes] at hholds
  exact ⟨b, Nat.lt_succ_of_le hle, hholds⟩

end Tape

namespace Cursor

theorem ahead_moveTo (c : Cursor) (k : Nat) : (c.moveTo k).Ahead ↔ c.Ahead := by
  induction c with
  | onTape t pos => exact Iff.rfl
  | reversed c => exact Iff.rfl
  | lent c ih => exact ih

theorem Alike.ahead_iff {c d : Cursor} (h : c.Alike d) : c.Ahead ↔ d.Ahead := by
  rw [← ahead_moveTo c 0, h 0, ahead_moveTo]

theorem skipToAny_of_not_ahead {c : Cursor} (hc : ¬ c.Ahead) (needles : List Nat) :
    c.skipToAny needles = c := by
  induction c with
  | onTape t pos => exact absurd trivial hc
  | reversed c => rfl
  | lent c ih => exact congrArg lent (ih hc)

end Cursor

/-! ## scans with a way to skip -/

namespace Matcher

section
variable (skip : List Nat → Cursor → Cursor) (finder back : Table)

/-- the cursor moved over bytes that do not lead the finder out of a state, as `skip` does it -/
def skipVia (id : Nat) (c : Cursor) : Cursor :=
  if (finder.accelerator id).isEmpty then c else skip (finder.accelerator id) c

/-- come to know the matches that end where the cursor stands, if the finder says that there are
any -/
def confirmAt (id : Nat) (m : Matcher) : Matcher :=
  if finder.isAccepting id then m.confirm back m.input.position else m

/-- read ahead with `skip` until there are matches and none is under way any more, or the text
ends -/
def scanFromVia : (steps : Nat) → Nat → Matcher → Matcher
  | 0, _, m => { m with exhausted := true }
  | steps + 1, id, m =>
    if finder.isDead id then { m with exhausted := true }
    else if !m.pending.isEmpty && finder.isSilent id then m
    else
      match (skipVia skip finder id m.input).next with
      | (none, c) => { m with input := c, exhausted := true }
      | (some sym, c) =>
        scanFromVia steps (finder.next id sym)
          (confirmAt finder back (finder.next id sym) { m with input := c })

def setOut (m : Matcher) : Matcher :=
  let m := m.moveTo m.resume
  if finder.isAccepting finder.start then m.confirm back m.resume else m

/-- one more scan from where the last one stopped, with `skip` -/
def scanVia (m : Matcher) : Matcher :=
  let m := m.setOut finder back
  let m := (scanFromVia skip finder back (m.input.length + 1) finder.start m).arrange
  { m with resume := m.input.position }

end

variable {skip skip' : List Nat → Cursor → Cursor} {finder back : Table} {m : Matcher}
  {c d : Cursor} {id j k sym steps : Nat}

/-- the scan that runs is the one that skips with `skipToAny` -/
theorem scanFrom_eq_scanFromVia (finder back : Table) (steps id : Nat) (m : Matcher) :
    scanFrom finder back steps id m = scanFromVia Cursor.skipToAny finder back steps id m := by
  induction steps generalizing id m with
  | zero => rfl
  | succ steps ih =>
    have hskip : m.skip finder id =
        { m with input := skipVia Cursor.skipToAny finder id m.input } := by
      rw [skip, skipVia]
      split <;> rfl
    rw [scanFrom, scanFromVia, hskip, read, Cursor.next]
    rcases (skipVia Cursor.skipToAny finder id m.input).read true with ⟨_ | sym, d⟩
    · rfl
    · exact congrArg (ite _ _) (congrArg (ite _ _) (ih _ _))

theorem scan_eq_scanVia (m : Matcher) (finder back : Table) :
    m.scan finder back = m.scanVia Cursor.skipToAny finder back := by
  rw [scan, scanVia, setOut, scanFrom_eq_scanFromVia]

/-! ## one step -/

section
variable (hlive : finder.isDead id = false)
  (hwait : (!m.pending.isEmpty && finder.isSilent id) = false)
include hlive hwait

theorem scanFromVia_of_none (back : Table) (steps : Nat)
    (hnext : (skipVia skip finder id m.input).next = (none, d)) :
    scanFromVia skip finder back (steps + 1) id m =
      { m with input := d, exhausted := true } := by
  rw [scanFromVia, hlive, hwait, hnext]
  rfl

theorem scanFromVia_of_some (back : Table) (steps : Nat)
    (hnext : (skipVia skip finder id m.input).next = (some sym, d)) :
    scanFromVia skip finder back (steps + 1) id m =
      scanFromVia skip finder back steps (finder.next id sym)
        (confirmAt finder back (finder.next id sym) { m with input := d }) := by
  rw [scanFromVia, hlive, hwait, hnext]
  rfl

end

/-- before a symbol is read it only matters what state the finder is in and whether there are
matches -/
theorem scanFromVia_succ_congr {steps steps' : Nat}
    (hgo : finder.isDead id = false → (!m.pending.isEmpty && finder.isSilent id) = false →
      scanFromVia skip finder back (steps + 1) id m =
        scanFromVia skip' finder back (steps' + 1) id m) :
    scanFromVia skip finder back (steps + 1) id m =
      scanFromVia skip' finder back (steps' + 1) id m := by
  cases hdead : finder.isDead id with
  | true => rw [scanFromVia, scanFromVia, hdead]; rfl
  | false =>
    cases hwait : !m.pending.isEmpty && finder.isSilent id with
    | true => rw [scanFromVia, scanFromVia, hdead, hwait]; rfl
    | false => exact hgo hdead hwait

theorem alike_confirmAt (finder back : Table) (id : Nat) (m : Matcher) :
    (confirmAt finder back id m).input.Alike m.input := by
  rw [confirmAt]
  split
  · exact (scans_confirm back m.input.position).alike m
  · exact .refl _

theorem exists_confirmAt (finder back : Table) (id : Nat) (h : m.input.position ≤ m.input.length) :
    ∃ l, confirmAt finder back id m = { m with pending := l } := by
  rw [confirmAt]
  split
  · exact ⟨_, confirm_eq back h⟩
  · exact ⟨m.pending, rfl⟩

/-! ## ways to skip that do the same -/

/-- ways to skip that agree wherever the cursor comes to -/
theorem scanFromVia_congr (finder back : Table)
    (hskip : ∀ d, d.Alike c → ∀ needles, skip needles d = skip' needles d)
    (halike : ∀ d needles, (skip needles d).Alike d) (hm : m.input.Alike c) (steps id : Nat) :
    scanFromVia skip finder back steps id m = scanFromVia skip' finder back steps id m := by
  induction steps generalizing id m with
  | zero => rfl
  | succ steps ih =>
    refine scanFromVia_succ_congr fun hlive hwait => ?_
    have hsame : skipVia skip finder id m.input = skipVia skip' finder id m.input := by
      rw [skipVia, skipVia, hskip _ hm]
    have hskip : (skipVia skip finder id m.input).Alike c := by
      rw [skipVia]
      split
      · exact hm
      · exact (halike _ _).trans hm
    have hread : (skipVia skip finder id m.input).next.2.Alike c :=
      ((skipVia skip finder id m.input).alike_read true).trans hskip
    rcases hnext : (skipVia skip finder id m.input).next with ⟨_ | sym, d⟩
    · rw [scanFromVia_of_none hlive hwait back steps hnext,
        scanFromVia_of_none hlive hwait back steps (hsame ▸ hnext)]
    · rw [scanFromVia_of_some hlive hwait back steps hnext,
        scanFromVia_of_some hlive hwait back steps (hsame ▸ hnext)]
      rw [hnext] at hread
      exact ih ((alike_confirmAt _ _ _ _).trans hread) _

theorem alike_setOut (m : Matcher) (finder back : Table) :
    (m.setOut finder back).input.Alike m.input := by
  have hmoved : (m.moveTo m.resume).input.Alike m.input := m.input.alike_moveTo m.resume
  rw [setOut]
  split
  · exact ((scans_confirm back m.resume).alike _).trans hmoved
  · exact hmoved

theorem position_setOut_le (m : Matcher) (finder back : Table) :
    (m.setOut finder back).input.position ≤ (m.setOut finder back).input.length := by
  rw [setOut]
  split
  · exact Cursor.position_moveTo_le _ _
  · exact m.input.position_moveTo_le m.resume

theorem scanVia_congr (finder back : Table)
    (hskip : ∀ d, d.Alike m.input → ∀ needles, skip needles d = skip' needles d)
    (halike : ∀ d needles, (skip needles d).Alike d) :
    m.scanVia skip finder back = m.scanVia skip' finder back := by
  rw [scanVia, scanVia, scanFromVia_congr finder back hskip halike (alike_setOut m finder back)]

/-! ## reading what might be skipped -/

section
variable {enc : Encoding} (hc : c.Ahead) (h : c.tape.Haystack (.bytes enc))

theorem skipVia_stay (finder : Table) (id : Nat) (c : Cursor) :
    skipVia Cursor.stay finder id c = c := by
  rw [skipVia]
  split <;> rfl

include hc h

theorem exists_next_moveTo (hj : j < c.tape.length) : ∃ b < 256,
    c.tape.symbolAt? j = some b ∧ (c.moveTo j).next = (some b, c.moveTo (j + 1)) := by
  obtain ⟨b, hb, hholds⟩ := h.exists_holds hj
  exact ⟨b, hb, hholds.symbol, Cursor.next_moveTo hc h.proper hholds⟩

/-- bytes that are not listed are read without anything happening -/
theorem scanFromVia_pass (back : Table) (hlists : finder.Lists id)
    (hwait : (!m.pending.isEmpty && finder.isSilent id) = false) (hjk : j ≤ k)
    (hk : k ≤ c.tape.length)
    (hout : ∀ i, j ≤ i → i < k → ∀ b, c.tape.symbolAt? i = some b → b ∉ finder.accelerator id)
    (steps : Nat) :
    scanFromVia Cursor.stay finder back (steps + (k - j)) id { m with input := c.moveTo j } =
      scanFromVia Cursor.stay finder back steps id { m with input := c.moveTo k } := by
  induction k, hjk using Nat.le_induction generalizing steps with
  | base => rw [Nat.sub_self, Nat.add_zero]
  | succ k hjk ih =>
    obtain ⟨b, hb, hsym, hread⟩ := exists_next_moveTo hc h hk
    have hstay := hlists.next_eq hb (hout k hjk (Nat.lt_succ_self k) b hsym)
    have hnext := (congrArg Cursor.next (skipVia_stay finder id (c.moveTo k))).trans hread
    have hsteps : steps + (k + 1 - j) = steps + 1 + (k - j) := by omega
    rw [hsteps, ih (Nat.le_of_succ_le hk) (fun i hi hik => hout i hi (Nat.lt_succ_of_lt hik)),
      scanFromVia_of_some (m := { m with input := c.moveTo k }) hlists.alive hwait back steps hnext,
      hstay, confirmAt, if_neg (Bool.eq_false_iff.1 hlists.undecided)]

/-- one skip goes to where the bytes that are not listed lead -/
theorem exists_skipVia (back : Table) (hfinder : finder.accelerator id ≠ [] → finder.Lists id)
    (hwait : (!m.pending.isEmpty && finder.isSilent id) = false) (hj : j ≤ c.tape.length) :
    ∃ k, j ≤ k ∧ k ≤ c.tape.length ∧
      skipVia Cursor.skipToAny finder id (c.moveTo j) = c.moveTo k ∧ ∀ steps,
        scanFromVia Cursor.stay finder back (steps + (k - j)) id { m with input := c.moveTo j } =
          scanFromVia Cursor.stay finder back steps id { m with input := c.moveTo k } := by
  by_cases hne : finder.accelerator id = []
  · refine ⟨j, Nat.le_refl j, hj, if_pos (List.isEmpty_iff.2 hne), fun steps => ?_⟩
    rw [Nat.sub_self, Nat.add_zero]
  · have hlists := hfinder hne
    have hbytes : c.tape.alphabet.isBytes = true := h.alphabet_eq ▸ rfl
    obtain ⟨hle, hend, hout⟩ := c.tape.findAny_spec (finder.accelerator id) hj
    refine ⟨_, hle, hend, ?_, scanFromVia_pass hc h back hlists hwait hle hend hout⟩
    rw [skipVia, if_neg (mt List.isEmpty_iff.1 hne)]
    exact Cursor.skipToAny_moveTo hc hbytes hne hlists.length_le hj

/-- Step for step: what is skipped has been read without anything happening, and what is read
behind it is the same.  Each of both scans may take more steps than it needs. -/
theorem scanFromVia_skipToAny (back : Table)
    (hfinder : ∀ id, finder.accelerator id ≠ [] → finder.Lists id) (hj : j ≤ c.tape.length)
    (id : Nat) {steps steps' : Nat} (hsteps : c.tape.length - j < steps)
    (hsteps' : c.tape.length - j < steps') :
    scanFromVia Cursor.skipToAny finder back steps id { m with input := c.moveTo j } =
      scanFromVia Cursor.stay finder back steps' id { m with input := c.moveTo j } := by
  induction steps generalizing j steps' id m with
  | zero => exact absurd hsteps (Nat.not_lt_zero _)
  | succ steps ih =>
    obtain ⟨steps', rfl⟩ := Nat.exists_eq_succ_of_ne_zero (Nat.ne_zero_of_lt hsteps')
    refine scanFromVia_succ_congr fun hlive hwait => ?_
    obtain ⟨k, hjk, hk, hskip, hpass⟩ :=
      exists_skipVia (m := m) hc h back (hfinder id) hwait hj
    obtain ⟨rest, hrest⟩ : ∃ rest, steps' + 1 = rest + 1 + (k - j) :=
      ⟨steps' - (k - j), by omega⟩
    have hfast := congrArg Cursor.next hskip
    have hslow := congrArg Cursor.next (skipVia_stay finder id (c.moveTo k))
    rw [hrest, hpass]
    rcases Nat.lt_or_eq_of_le hk with hlt | rfl
    · obtain ⟨b, -, -, hread⟩ := exists_next_moveTo hc h hlt
      rw [scanFromVia_of_some (m := { m with input := c.moveTo j }) hlive hwait back steps
          (hfast.trans hread),
        scanFromVia_of_some (m := { m with input := c.moveTo k }) hlive hwait back rest
          (hslow.trans hread)]
      obtain ⟨l, hl⟩ := exists_confirmAt (m := { m with input := c.moveTo (k + 1) }) finder back
        (finder.next id b) (c.position_moveTo_le (k + 1))
      rw [hl]
      exact ih (m := { m with pending := l }) hlt _ (by omega) (by omega)
    · have hread := Cursor.next_moveTo_length hc
      rw [scanFromVia_of_none (m := { m with input := c.moveTo j }) hlive hwait back steps
          (hfast.trans hread),
        scanFromVia_of_none (m := { m with input := c.moveTo c.tape.length }) hlive hwait back rest
          (hslow.trans hread)]

end

/-- a scan that skips is one that reads every byte -/
theorem scanVia_skipToAny {enc : Encoding} (h : m.input.tape.Haystack (.bytes enc)) (back : Table)
    (hfinder : ∀ id, finder.accelerator id ≠ [] → finder.Lists id) :
    m.scanVia Cursor.skipToAny finder back = m.scanVia Cursor.stay finder back := by
  by_cases hc : m.input.Ahead
  · have halike := alike_setOut m finder back
    generalize hset : m.setOut finder back = m' at halike
    rw [scanVia, scanVia, hset]
    have hle : m'.input.position ≤ m'.input.length := hset ▸ position_setOut_le m finder back
    have hsame : m' = { m' with input := m'.input.moveTo m'.input.position } := by
      rw [Cursor.moveTo_position hle]
    have hsteps : m'.input.tape.length - m'.input.position < m'.input.length + 1 := by
      rw [Cursor.length_eq]
      exact Nat.lt_succ_of_le (Nat.sub_le _ _)
    have hscan := scanFromVia_skipToAny (m := m') (halike.ahead_iff.2 hc) (halike.tape.symm ▸ h)
      back hfinder (m'.input.length_eq ▸ hle) finder.start hsteps hsteps
    rw [← hsame] at hscan
    rw [hscan]
  · exact scanVia_congr finder back
      (fun d hd needles => Cursor.skipToAny_of_not_ahead (mt hd.ahead_iff.1 hc) needles)
      fun d needles => d.alike_skipToAny needles

/-- The scan that runs is one whose skips are made by searches for the first of some bytes, and
it ends exactly as the scan that reads every byte does. -/
theorem scan_skips (g : Graph) (a : Alphabet) (t : Thresholds) (back : Table)
    {s : Cursor.Searches} (hs : s.First) {enc : Encoding}
    (h : m.input.tape.Haystack (.bytes enc)) :
    (∀ id, (Table.ofGraph g a t).accelerator id ≠ [] → (Table.ofGraph g a t).Lists id) ∧
      m.scan (Table.ofGraph g a t) back =
        m.scanVia (Cursor.skipBy s) (Table.ofGraph g a t) back ∧
      m.scanVia (Cursor.skipBy s) (Table.ofGraph g a t) back =
        m.scanVia Cursor.stay (Table.ofGraph g a t) back := by
  have hlists (id : Nat) (hne : (Table.ofGraph g a t).accelerator id ≠ []) :=
    Table.lists_ofGraph hne
  obtain ⟨bs, hbs⟩ := h.exists_ofEncoded
  have hsearch : m.scanVia Cursor.skipToAny (Table.ofGraph g a t) back =
      m.scanVia (Cursor.skipBy s) (Table.ofGraph g a t) back :=
    scanVia_congr _ back
        (fun d hd needles => (Cursor.skipBy_eq hs (hd.tape.trans hbs) needles).symm)
      fun d needles => d.alike_skipToAny needles
  refine ⟨hlists, ?_, ?_⟩
  · rw [scan_eq_scanVia, hsearch]
  · rw [← hsearch, scanVia_skipToAny h back hlists]

/-- a finder for `ab`, whose start only `a` leaves, in bytes that have two matches far apart -/
theorem scan_skips_ab :
    let g : Graph := ⟨#[{ silent := true, edges := [.symbols 0 0x60 0, .symbols 0x61 0x61 1,
        .symbols 0x62 0xFF 0] },
      { edges := [.symbols 0 0x60 0, .symbols 0x61 0x61 1, .symbols 0x62 0x62 2,
        .symbols 0x63 0xFF 0] },
      { accepting := true, edges := [.symbols 0 0x60 0, .symbols 0x61 0x61 1,
        .symbols 0x62 0xFF 0] }], 0⟩
    let back : Graph := ⟨#[{ edges := [.symbols 0x62 0x62 1] }, { edges := [.symbols 0x61 0x61 2] },
      { accepting := true }], 0⟩
    let finder := Table.ofGraph g (.bytes .utf8) {}
    let p : Pattern := ⟨.scanning finder (Table.ofGraph back (.bytes .utf8) {}), ⟨.empty⟩, .all,
      .bytes .utf8, .search, 0⟩
    let s : Cursor.Searches := ⟨fun a bytes => bytes.findIdx? [a].contains,
      fun a a' bytes => bytes.findIdx? [a, a'].contains,
      fun a a' a'' bytes => bytes.findIdx? [a, a', a''].contains⟩
    let m := p.matcherIn (.ofTape (.ofBytes (.bytes .utf8)
      [0x78, 0x61, 0x62, 0xC3, 0xA9, 0x78, 0x78, 0x61, 0x78, 0x61, 0x62, 0x78]))
    s.First ∧ m.input.tape.Haystack (.bytes .utf8) ∧
      m.scan finder (Table.ofGraph back (.bytes .utf8) {}) =
        m.scanVia Cursor.stay finder (Table.ofGraph back (.bytes .utf8) {}) := by
  intro g back finder p s m
  have hs : s.First := ⟨fun _ _ => rfl, fun _ _ _ => rfl, fun _ _ _ _ => rfl⟩
  have h : m.input.tape.Haystack (.bytes .utf8) := .bytes _ (by decide)
  obtain ⟨-, hscan, hplain⟩ :=
    scan_skips g (.bytes .utf8) {} (Table.ofGraph back (.bytes .utf8) {}) hs h
  exact ⟨hs, h, hscan.trans hplain⟩

end Matcher

end SpanSearch
