import SpanSearch.Proofs.Aligning
import SpanSearch.Proofs.Capturing
import SpanSearch.Proofs.Decoding

/-!
# Matches in UTF-8 begin and end where characters do

The graph of an expression of characters is marked by how many bytes of a character are still to
come.  Groups are entered and left between characters only, so on a path through the bytes of a
text everything happens where a character begins or the text ends.

* `bytewise`             the first byte of a character announces how many others come
* `suits_bytewise`       expressions of characters obey this
* `Traces.aligned`       on a path everything happens where characters begin
* `slot?_record_mem`     what captures tell of a group has happened on the path
* `Tape.slice_utf8`      the text between two such positions
* `Pattern.matchers_aligned`   the matches of a pattern and their groups
-/

namespace SpanSearch

open SpanSearch.Graph Text.Utf8

/-! ## marks -/

/-- between characters an edge consumes the first byte of one that has as many more bytes as the
mark behind it tells, and then one after the other of these.  Nothing happens in between. -/
def bytewise : Rule Nat := fun l a A B =>
  (a.isSome = true → B = 0) ∧
    match l, A with
    | .epsilon, _ => B = A
    | .symbols lo hi, 0 => ∀ b, lo ≤ b → b ≤ hi → announced b = B + 1
    | .symbols _ _, k + 1 => B = k

instance : bytewise.Composes where
  refl := fun _ => ⟨fun h => absurd h Bool.false_ne_true, rfl⟩
  comp := fun hAB h => by
    obtain rfl := hAB.2
    exact h

theorem bytewise_succ (lo hi k : Nat) : bytewise (.symbols lo hi) none (k + 1) k :=
  ⟨fun h => absurd h Bool.false_ne_true, rfl⟩

theorem bytewise_zero {lo hi k : Nat} (h : ∀ b, lo ≤ b → b ≤ hi → announced b = k + 1) :
    bytewise (.symbols lo hi) none 0 k :=
  ⟨fun h => absurd h Bool.false_ne_true, h⟩

theorem bytewise_action (a : Action) : bytewise .epsilon (some a) 0 0 := ⟨fun _ => rfl, rfl⟩

theorem bytewise_of_accepts {e : Edge} {b A B : Nat} (h : bytewise e.label e.action A B)
    (hb : e.accepts b = true) : A = 0 ∧ announced b = B + 1 ∨ A = B + 1 := by
  obtain ⟨l, a, t⟩ := e
  cases l with
  | epsilon => exact absurd hb Bool.false_ne_true
  | symbols lo hi =>
    obtain ⟨hlo, hhi⟩ := Bool.and_eq_true_iff.1 hb
    cases A with
    | zero => exact .inl ⟨rfl, h.2 b (of_decide_eq_true hlo) (of_decide_eq_true hhi)⟩
    | succ A => exact .inr (congrArg Nat.succ (Eq.symm h.2))

theorem announced_mono {a b : Nat} (h : a ≤ b) : announced a ≤ announced b := by
  unfold announced
  split_ifs <;> omega

namespace Rule

variable {β : Type} {R : Rule β} {A B C : β} {u v : List Nat}

theorem Passes.append (hu : R.Passes A u B) (hv : R.Passes B v C) : R.Passes A (u ++ v) C := by
  induction u generalizing A with
  | nil => exact hu ▸ hv
  | cons sym u ih =>
    obtain ⟨D, hsym, hu⟩ := hu
    exact ⟨D, hsym, ih hu⟩

end Rule

theorem passes_tails (v : List Nat) : bytewise.Passes v.length v 0 := by
  induction v with
  | nil => rfl
  | cons b v ih => exact ⟨v.length, bytewise_succ b b v.length, ih⟩

theorem passes_bytes (n : Nat) : bytewise.Passes 0 (bytes n) 0 := by
  obtain ⟨b, v, hbytes, -⟩ := bytes_eq_cons n
  have hwidth : announced b = v.length + 1 := by
    rw [(announced_of_bytes hbytes).1, ← length_bytes, hbytes]
    rfl
  rw [hbytes]
  refine ⟨v.length, bytewise_zero fun c hlo hhi => ?_, passes_tails v⟩
  rw [← Nat.le_antisymm hlo hhi]
  exact hwidth

theorem passes_text (cs : List Char) :
    bytewise.Passes 0 (cs.flatMap fun c => bytes c.toNat) 0 := by
  induction cs with
  | nil => rfl
  | cons c cs ih =>
    rw [List.flatMap_cons]
    exact (passes_bytes c.toNat).append ih

namespace Expr

open Fragment

/-- the bytes of the characters between two of one width -/
theorem charts_interval_bytewise {w : Chart bytewise} {s e : Nat} (hs : w.At s 0) (he : w.At e 0)
    {x y : Nat} (hwidth : width x = width y) :
    (interval .utf8 s e (bytes x, bytes y)).Charts w fun _ _ => True := by
  obtain ⟨f, fs, hx, -⟩ := bytes_eq_cons x
  obtain ⟨t, ts, hy, -⟩ := bytes_eq_cons y
  have hf := (announced_of_bytes hx).1
  have ht := (announced_of_bytes hy).1
  have hlength : fs.length + 1 = width x := by rw [← length_bytes, hx, List.length_cons]
  have hlength' : ts.length + 1 = width y := by rw [← length_bytes, hy, List.length_cons]
  have hzip : (fs.zip ts).length = fs.length := by
    rw [List.length_zip]
    omega
  unfold interval
  rw [hx, hy, List.zip_cons_cons]
  refine charts_layOut_cons id hs he _ _ (fun lo hi hlo hhi => bytewise_zero fun b hb hb' => ?_)
    fun k _ lo hi => bytewise_succ lo hi k
  -- the first bytes of both bounds announce the same, and so does every byte between them
  have hle := announced_mono (Nat.le_trans hb' hhi)
  have hge := announced_mono (Nat.le_trans hlo hb)
  have hmax : announced (max f t) = width x := by
    rcases Nat.le_total f t with h | h
    · rw [Nat.max_eq_right h, ht, hwidth]
    · rw [Nat.max_eq_left h, hf]
  have hmin : announced (min f t) = width x := by
    rcases Nat.le_total f t with h | h
    · rw [Nat.min_eq_left h, hf]
    · rw [Nat.min_eq_right h, ht, hwidth]
  rw [id, hzip]
  omega

/-- an expression of characters without assertions, between characters -/
def Spellable (A : Nat) (e : Expr) : Prop := A = 0 ∧ e.Textual ∧ e.assertion? = none

theorem spellable_of_mem {A : Nat} {es : List Expr} (hA : A = 0) (ht : TextualAll es)
    (hnone : assertionIn? es = none) : ∀ e ∈ es, Spellable A e := by
  induction es with
  | nil => exact fun e he => absurd he List.not_mem_nil
  | cons e es ih =>
    obtain ⟨he, hes⟩ := Option.or_eq_none_iff.1 hnone
    exact List.forall_mem_cons.2 ⟨⟨hA, ht.1, he⟩, ih ht.2 hes⟩

/-- expressions of characters obey the marks -/
theorem suits_bytewise : bytewise.SuitsLevel (.bytes .utf8) Spellable where
  text := fun {B cs} h w => by
    show (text (.bytes .utf8) cs).Charts w _
    rw [text_bytes, Encoding.encodeText?_utf8]
    cases cs with
    | nil => exact charts_chain w rfl
    | cons c cs =>
      obtain ⟨rfl, -⟩ := h c List.mem_cons_self
      exact charts_chain w (passes_text (c :: cs))
  literal := fun h w => by
    obtain ⟨rfl, -⟩ := h
    exact charts_chain w (passes_bytes _)
  charClass := fun h w => by
    obtain ⟨rfl, -⟩ := h
    refine charts_charClass w fun r _ w s e hs he => ?_
    refine Build.charts_forM fun bounds hbounds w' h => ?_
    obtain ⟨piece, hpiece, hle, rfl⟩ := mem_sequences_utf8.1 hbounds
    exact charts_interval_bytewise (hs.within h) (he.within h)
      ((mem_pieces hpiece).1 _ _ (by omega) (by omega) (by omega) (by omega))
  byte := fun h => h.2.1.elim
  byteClass := fun h => h.2.1.elim
  assertion := fun {_ a} h => absurd h.2.2 (Option.some_ne_none a)
  loop := fun h => h
  plain := fun h => h
  group := fun {_ n _} h => ⟨0, ⟨rfl, h.2⟩, h.1 ▸ bytewise_action (.enter n),
    h.1 ▸ bytewise_action (.leave n)⟩
  concat := fun h => spellable_of_mem h.1 h.2.1 h.2.2
  alt := fun h => spellable_of_mem h.1 h.2.1 h.2.2

end Expr

/-! ## paths through the bytes of a text -/

namespace Tape

variable {cs : List Char} {i j : Nat}

/-- a position where a character begins or the text ends -/
def IsBoundary (cs : List Char) (i : Nat) : Prop := ∃ k, k ≤ cs.length ∧ offset cs k = i

/-- where a character begins, its first byte announces where the next one does -/
theorem IsBoundary.next {b : Nat} (hi : IsBoundary cs i)
    (hb : (ofText (.bytes .utf8) cs).symbolAt? i = some b) : IsBoundary cs (i + announced b) := by
  obtain ⟨k, hk, rfl⟩ := hi
  rw [ofText, symbolAt?_ofEncoded, ← Nat.add_zero (offset cs k), ← List.getElem?_drop,
    drop_offset] at hb
  cases hdrop : cs.drop k with
  | nil =>
    rw [hdrop, Encoding.encodeLossy_nil] at hb
    exact absurd hb.symm (Option.some_ne_none b)
  | cons c rest =>
    obtain ⟨a, v, hbytes, -⟩ := bytes_eq_cons c.toNat
    rw [hdrop, Encoding.encodeLossy_utf8_cons, hbytes] at hb
    obtain rfl : a = b := Option.some.inj hb
    have hlt : k < cs.length := by
      have hlength := congrArg List.length hdrop
      rw [List.length_drop, List.length_cons] at hlength
      omega
    refine ⟨k + 1, hlt, ?_⟩
    rw [offset_add, hdrop, offset, offset_zero, (announced_of_bytes hbytes).1, Nat.add_zero]

theorem slice_utf8 (hij : i ≤ j) :
    (ofText (.bytes .utf8) cs).slice (offset cs i) (offset cs j) =
      String.ofList ((cs.drop i).take (j - i)) := by
  show String.ofList (Encoding.utf8.decode _) = _
  rw [symbolsIn_utf8 hij, Encoding.decode_encodeLossy_utf8]

end Tape

namespace Graph

open Tape

variable {g : Graph} {O : Nat → Nat} {cs : List Char} {p q i k : Nat} {u : List Event}

/-- what happens on an edge happens between characters, where all bytes of the last one have
come -/
theorem aligned_events {e : Edge} {A : Nat} (h : bytewise e.label e.action A (O e.target))
    (hk : IsBoundary cs (k + O e.target)) (hu : ∀ x ∈ u, IsBoundary cs x.2) :
    ∀ x ∈ u ++ e.events k, IsBoundary cs x.2 := by
  intro x hx
  rcases List.mem_append.1 hx with hx | hx
  · exact hu x hx
  · have hsome : e.action.isSome = true := by
      obtain ⟨a, ha, -⟩ := Option.map_eq_some_iff.1 (Option.mem_toList.1 hx)
      exact Option.isSome_iff_exists.2 ⟨a, ha⟩
    rw [h.1 hsome] at hk
    rw [mem_events hx]
    exact hk

/-- a path that sets out between characters is between characters again once the bytes that its
mark tells have come, and what happens on it happens there -/
theorem Traces.aligned (hO : g.Obeys bytewise O)
    (h : g.Traces (ofText (.bytes .utf8) cs) p i u q k) (hi : IsBoundary cs (i + O p)) :
    IsBoundary cs (k + O q) ∧ ∀ x ∈ u, IsBoundary cs x.2 := by
  induction h with
  | here => exact ⟨hi, fun x hx => absurd hx List.not_mem_nil⟩
  | @slide q k e u before mem eps ih =>
    have hedge := hO q e mem
    have hmark : O e.target = O q := by
      have hmark := hedge.2
      rw [Edge.label_of_isEpsilon eps] at hmark
      exact hmark
    have hk : IsBoundary cs (k + O e.target) := hmark ▸ ih.1
    exact ⟨hk, aligned_events hedge hk ih.2⟩
  | @read q j k b e u before mem holds acc ih =>
    have hedge := hO q e mem
    obtain rfl : j + 1 = k := (Haystack.text cs).proper.widthOf holds
    have hk : IsBoundary cs (j + 1 + O e.target) := by
      rcases bytewise_of_accepts hedge acc with ⟨hzero, hwidth⟩ | hmark
      · have hj := ih.1
        rw [hzero] at hj
        have hnext := hj.next holds.symbol
        rw [hwidth] at hnext
        rwa [Nat.add_assoc, Nat.add_comm 1]
      · have hj := ih.1
        rw [hmark] at hj
        rwa [Nat.add_assoc, Nat.add_comm 1]
    exact ⟨hk, aligned_events hedge hk ih.2⟩

end Graph

/-! ## captures -/

namespace Captures

variable {u : List Event} {n : Nat} {slot : Slot}

/-- a group has been entered and left on the path, first the one and then the other -/
theorem slot?_record_mem (hn : n ≠ 0) (hu : u.Pairwise fun x y => x.2 ≤ y.2)
    (h : (blank.record u).slot? n = some slot) : (.enter n, slot.start) ∈ u ∧
      ∀ k, slot.stop = some k → slot.start ≤ k ∧ (.leave n, k) ∈ u := by
  induction u using List.reverseRecOn generalizing slot with
  | nil => exact absurd h.symm (Option.some_ne_none slot)
  | append_singleton u x ih =>
    obtain ⟨hbefore, -, hx⟩ := List.pairwise_append.1 hu
    rw [record_concat] at h
    have hlast : x ∈ u ++ [x] := List.mem_append_right u List.mem_cons_self
    by_cases hgroup : x.1.group = n
    · obtain ⟨a, pos⟩ := x
      cases a with
      | enter m =>
        obtain rfl : m = n := hgroup
        rw [fire, slot?_enter hn, if_pos rfl] at h
        obtain rfl := Option.some.inj h
        exact ⟨hlast, fun k hk => absurd hk.symm (Option.some_ne_none k)⟩
      | leave m =>
        obtain rfl : m = n := hgroup
        rw [fire, slot?_leave hn, if_pos rfl] at h
        obtain ⟨old, hold, rfl⟩ := Option.map_eq_some_iff.1 h
        have henter := (ih hbefore hold).1
        refine ⟨List.mem_append_left _ henter, fun k hk => ?_⟩
        obtain rfl : pos = k := Option.some.inj hk
        exact ⟨hx _ henter _ List.mem_cons_self, hlast⟩
    · rw [slot?_fire_of_ne hgroup] at h
      obtain ⟨henter, hleave⟩ := ih hbefore h
      exact ⟨List.mem_append_left _ henter, fun k hk =>
        ⟨(hleave k hk).1, List.mem_append_left _ (hleave k hk).2⟩⟩

theorem get?_adopt {d : Captures} {s : Span} (hn : n ≠ 0) :
    ((ofSpan s).adopt d).get? n = d.get? n := by
  rw [get?, get?, if_neg hn, if_neg hn]
  rfl

end Captures

/-! ## matches and their groups -/

open Tape

variable {L : Language Nat} {cs : List Char} {s : Span}

/-- what is found of a group lies in the span, and begins and ends where characters do -/
theorem Tracer.trace_aligned {tr : Tracer} {cur : Cursor} {O : Nat → Nat} {d : Captures}
    {n : Nat} {r : Span} (hcur : cur.Ahead) (htape : cur.tape = ofText (.bytes .utf8) cs)
    (hc : tr.graph.Closed) (hs : tr.graph.start < tr.graph.size) (hO : tr.graph.Obeys bytewise O)
    (hmark : O tr.graph.start = 0) (hspells : cur.tape.Spells L s)
    (hstart : IsBoundary cs s.start) (hd : tr.trace cur s = some d) (hn : n ≠ 0)
    (hr : d.get? n = some r) : s.start ≤ r.start ∧ r.start ≤ r.stop ∧ r.stop ≤ s.stop ∧
      IsBoundary cs r.start ∧ IsBoundary cs r.stop := by
  have hproper : cur.tape.Proper := htape ▸ (Haystack.text cs).proper
  obtain ⟨q, ⟨u, hu, rfl⟩, -⟩ := (trace_spec hcur hproper (keeps_true _ _ s) hc hs hspells.start
    hspells.stop hspells.le).1 d hd
  obtain ⟨hbounds, hpairwise⟩ := hu.bounds
  have haligned : ∀ x ∈ u, IsBoundary cs x.2 := by
    rw [htape] at hu
    refine (hu.aligned hO ?_).2
    rw [hmark]
    exact hstart
  rw [Captures.get?, if_neg hn] at hr
  obtain ⟨slot, hslot, hr⟩ := Option.bind_eq_some_iff.1 hr
  obtain ⟨k, hk, rfl⟩ := Option.map_eq_some_iff.1 hr
  obtain ⟨henter, hleave⟩ := Captures.slot?_record_mem hn hpairwise hslot
  obtain ⟨hle, hleave⟩ := hleave k hk
  exact ⟨(hbounds _ henter).1, hle, (hbounds _ hleave).2, haligned _ henter, haligned _ hleave⟩

theorem Tape.boundaries_of_spells (h : (ofText (.bytes .utf8) cs).Spells (spelled L) s)
    (hlt : s.start < s.stop) : IsBoundary cs s.start ∧ IsBoundary cs s.stop := by
  have hchars := (spells_spelled.1 h).resolve_right fun hempty => Nat.ne_of_lt hlt hempty.1
  exact ⟨isPlace_ofChars.1 hchars.start, isPlace_ofChars.1 hchars.stop⟩

theorem Tape.exists_characters {r : Span} (hstart : IsBoundary cs r.start)
    (hstop : IsBoundary cs r.stop) (hle : r.start ≤ r.stop) :
    ∃ k l, k ≤ l ∧ l ≤ cs.length ∧ r = ⟨offset cs k, offset cs l⟩ ∧
      (ofText (.bytes .utf8) cs).slice r.start r.stop =
        String.ofList ((cs.drop k).take (l - k)) := by
  obtain ⟨start, stop⟩ := r
  obtain ⟨k, -, rfl⟩ := hstart
  obtain ⟨l, hl, rfl⟩ := hstop
  have hkl := (strictMono_offset cs).le_iff_le.1 hle
  exact ⟨k, l, hkl, hl, rfl, slice_utf8 hkl⟩

/-- the span of a group of the current match is the match, or it has been found for the match -/
theorem Matcher.Within.groupSpan_eq_some {p : Pattern} {c : Cursor} {m : Matcher} {n : Nat}
    {r : Span}
    (h : Within p c m) (hs : m.span? = some s) (hr : (m.groupSpan n).1 = some r) :
    r = s ∨ n ≠ 0 ∧ ∃ d, p.tracer.trace c s = some d ∧ d.get? n = some r := by
  rw [h.groupSpan, hs, Option.map_some, Option.bind_some, grouped, Tracer.fst_traceOn] at hr
  by_cases hn : n = 0
  · subst hn
    exact .inl (Option.some.inj hr).symm
  · rw [Captures.get?_adopt hn] at hr
    cases hd : p.tracer.trace c s with
    | none =>
      rw [hd, Option.getD_none, Captures.get?, if_neg hn] at hr
      exact absurd hr.symm (Option.some_ne_none r)
    | some d =>
      rw [hd] at hr
      exact .inr ⟨hn, d, rfl, hr⟩

namespace Pattern

/-- a match of a pattern of characters in the bytes of a text, however it has come to be the
current one, begins and ends where characters do unless it is empty, and so do its groups: their
texts are parts of the text -/
theorem matchers_aligned (o : Options) {e : Expr} (hv : e.Valid) (ht : e.Textual)
    (hnone : e.assertion? = none) :
    ∃ p, Pattern.ofExpr { o with alphabet := .bytes .utf8 } e = .ok p ∧
      ∀ cs : List Char, ∀ c : Cursor, c.Ahead → c.tape = ofText (.bytes .utf8) cs →
        c.position ≤ c.length → ∀ ops s,
        let m := (p.matcherIn c).after ops
        m.span? = some s → s.start < s.stop →
        ∃ i j, i < j ∧ j ≤ cs.length ∧ s = ⟨offset cs i, offset cs j⟩ ∧
          m.text? = some (String.ofList ((cs.drop i).take (j - i))) ∧
          ∀ n r, (m.groupSpan n).1 = some r →
            ∃ k l, i ≤ k ∧ k ≤ l ∧ l ≤ j ∧ r = ⟨offset cs k, offset cs l⟩ ∧
              (m.textOf n).1 = some (String.ofList ((cs.drop k).take (l - k))) := by
  obtain ⟨p, hp, hbuilt⟩ := exists_built_ordered { o with alphabet := .bytes .utf8 } hv hnone
  have ht' := (Expr.textual_ordered e).2 ht
  obtain ⟨tr, htracer, hclosed, hsize, O, hO, hmark⟩ := Expr.exists_obeys Expr.suits_bytewise.suits
    ((Expr.valid_ordered e).2 hv) (Expr.inOrder_ordered e)
    ((Expr.assertion?_ordered e).trans hnone)
    ⟨rfl, rfl, ht', (Expr.assertion?_ordered e).trans hnone⟩ (bytewise_action (.enter 0))
    (bytewise_action (.leave 0))
  obtain rfl := Except.ok.inj (hbuilt.tracer.symm.trans htracer)
  refine ⟨p, hp, fun cs c hc htape hle ops s => ?_⟩
  intro m hs hlt
  have hhaystack : Haystack (.bytes .utf8) c.tape := htape ▸ .text cs
  have hplace : c.tape.IsPlace c.position := by
    rw [htape, isPlace_utf8, ← length_utf8, ← htape, ← Cursor.length_eq]
    exact hle
  have hafter : Matcher.Represents p c m _ := represents_after hp hhaystack hle ops
  have hspells : c.tape.Spells (e.ordered.words (.bytes .utf8)) s :=
    ((hbuilt.behind hc hhaystack hplace ops).found s (hafter.found.symm.trans hs)).2
  rw [Expr.words_utf8 _ ht'] at hspells
  obtain ⟨hstart, hstop⟩ := boundaries_of_spells (htape ▸ hspells) hlt
  obtain ⟨i, j, hij, hj, rfl, htext⟩ := exists_characters hstart hstop hspells.le
  refine ⟨i, j, (strictMono_offset cs).lt_iff_lt.1 hlt, hj, rfl, ?_, fun n r hr => ?_⟩
  · obtain ⟨-, -, hcurrent⟩ := hafter.within.current
    rw [hcurrent, hs, Option.map_some, Cursor.slice, htape, htext]
  · have hinside : offset cs i ≤ r.start ∧ r.start ≤ r.stop ∧ r.stop ≤ offset cs j ∧
        IsBoundary cs r.start ∧ IsBoundary cs r.stop := by
      rcases hafter.within.groupSpan_eq_some hs hr with rfl | ⟨hn, d, hd, hget⟩
      · exact ⟨Nat.le_refl _, hspells.le, Nat.le_refl _, hstart, hstop⟩
      · exact Tracer.trace_aligned hc htape hclosed hsize hO hmark hspells hstart hd hn hget
    obtain ⟨hik, hkl, hlj, hfirst, hlast⟩ := hinside
    obtain ⟨k, l, hle, -, rfl, htext⟩ := exists_characters hfirst hlast hkl
    refine ⟨k, l, (strictMono_offset cs).le_iff_le.1 hik, hle,
      (strictMono_offset cs).le_iff_le.1 hlj, rfl, ?_⟩
    rw [hafter.within.textOf, hr, Option.map_some, Cursor.slice, htape, htext]

/-- the rest of `aé` from behind the first character on, for `(é)` -/
theorem matchers_aligned_accent :
    let e : Expr := .group (some 1) (.char 'é')
    let c := (Cursor.ofTape (ofText (.bytes .utf8) ['a', 'é'])).moveTo 1
    ∃ p, Pattern.ofExpr { alphabet := .bytes .utf8 } e = .ok p ∧
      let m := (p.matcherIn c).after [.find, .captures, .matchWhole]
      m.span? = some ⟨1, 3⟩ ∧ m.text? = some "é" ∧ ∀ r, (m.groupSpan 1).1 = some r →
        ∃ k l, 1 ≤ k ∧ k ≤ l ∧ l ≤ 2 ∧
          (m.textOf 1).1 = some (String.ofList ((['a', 'é'].drop k).take (l - k))) := by
  intro e c
  obtain ⟨p, hp, haligned⟩ := matchers_aligned {} (e := e) (by simp [e, Expr.Valid])
    (by simp [e, Expr.Textual]) rfl
  obtain ⟨p', hp', hbuilt⟩ := exists_built_ordered { alphabet := .bytes .utf8 } (e := e)
    (by simp [e, Expr.Valid]) rfl
  obtain rfl := Except.ok.inj (hp.symm.trans hp')
  have hplace : c.tape.IsPlace c.position := by decide
  have hbehind := (hbuilt.sound c trivial (.text _) hplace).behind.after [.find, .captures]
  rw [reset_searchIn] at hbehind
  have hwhole : ((p.searchIn c).after [.find, .captures]).isWhole = true := by
    rw [hbehind.sound.isWhole_iff, hbehind.input, hbehind.origin]
    have hword : [0xC3, 0xA9] ∈ e.ordered.words (.bytes .utf8) := rfl
    exact ⟨hplace, .inl rfl, Nat.le_succ_of_le (Nat.le_succ 1), hword⟩
  have hfound : ((p.searchIn c).after [.find, .captures, .matchWhole]).found = some ⟨1, 3⟩ := by
    have hspan : some (⟨((p.searchIn c).after [.find, .captures]).origin,
        ((p.searchIn c).after [.find, .captures]).input.length⟩ : Span) = some ⟨1, 3⟩ := by
      rw [hbehind.origin, hbehind.input]
      rfl
    exact (if_pos hwhole).trans hspan
  have ht : Haystack (.bytes .utf8) c.tape := .text _
  have hspan := (represents_after hp ht (Cursor.position_le hplace) _).found.trans hfound
  obtain ⟨i, j, hij, hj, hplaces, htext, hgroups⟩ := haligned ['a', 'é'] c trivial rfl (by decide)
    [.find, .captures, .matchWhole] _ hspan (by decide)
  obtain ⟨hi, hj⟩ := Span.mk.inj hplaces
  have hmono := strictMono_offset ['a', 'é']
  obtain rfl : 1 = i := hmono.injective hi
  obtain rfl : 2 = j := hmono.injective hj
  refine ⟨p, hp, hspan, htext, fun r hr => ?_⟩
  obtain ⟨k, l, hk, hkl, hl, -, htext⟩ := hgroups 1 r hr
  exact ⟨k, l, hk, hkl, hl, htext⟩

end Pattern
end SpanSearch
