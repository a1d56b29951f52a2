import CubeSandbox.Dotted
import CubeSandbox.DnsQuery

/-!
The pipeline of tail-called programs computes what a parser of whole names would.

A plain name is a list of labels; on the wire each label stands behind its length. Parsing
runs in chunks, and so does the reversal after it. Both are followed byte by byte with an
invariant that does not mention chunks, so that it does not matter where one ends.
-/

namespace CubeSandbox.Vs

open Lpm Dotted List Function Option

/-- The wire form of a name. -/
def encode (ls : List (List UInt8)) : List UInt8 :=
  ls.flatMap (fun l => l.length.toUInt8 :: l) ++ [0]

/-- Labels of the lengths that a plain name may have. -/
def PlainLabels (ls : List (List UInt8)) : Prop := ∀ l ∈ ls, 1 ≤ l.length ∧ l.length ≤ 63

def lowerLabels (ls : List (List UInt8)) : List (List UInt8) := ls.map (·.map dnsQnameLower)

/-- The dotted text in lower case. -/
def flat (ls : List (List UInt8)) : List UInt8 := join 46 (lowerLabels ls)

@[simp] lemma encode_nil : encode [] = [0] := rfl

@[simp] lemma encode_cons (l : List UInt8) (ls : List (List UInt8)) :
    encode (l :: ls) = l.length.toUInt8 :: (l ++ encode ls) := by
  simp [encode]

lemma plainLabels_nil : PlainLabels [] := by simp [PlainLabels]

variable {l s : List UInt8} {ls : List (List UInt8)} {c : UInt8} {j n : Nat}

lemma plainLabels_cons :
    PlainLabels (l :: ls) ↔ (1 ≤ l.length ∧ l.length ≤ 63) ∧ PlainLabels ls := forall_mem_cons

lemma plainLabels_snoc :
    PlainLabels (ls ++ [l]) ↔ PlainLabels ls ∧ 1 ≤ l.length ∧ l.length ≤ 63 := by
  rw [PlainLabels, forall_mem_append, forall_mem_singleton, PlainLabels]

lemma PlainLabels.lower_ne_nil (h : PlainLabels ls) : ∀ l ∈ lowerLabels ls, l ≠ [] := by
  intro l hl
  obtain ⟨l', hl', rfl⟩ := mem_map.1 hl
  have := (h l' hl').1
  intro hnil
  rw [map_eq_nil_iff.1 hnil] at this
  simp at this

lemma flat_eq_nil (h : PlainLabels ls) : flat ls = [] ↔ ls = [] := by
  rw [flat, join_eq_nil 46 h.lower_ne_nil, lowerLabels, map_eq_nil_iff]

lemma flat_snoc (h : PlainLabels ls) (l : List UInt8) : flat (ls ++ [l]) =
      (if flat ls = [] then [] else flat ls ++ [46]) ++ l.map dnsQnameLower := by
  simp only [flat, lowerLabels, map_append, map_cons, map_nil]
  exact join_snoc 46 h.lower_ne_nil _

lemma flat_prefix_append (c a : List (List UInt8)) : flat c <+: flat (c ++ a) := by
  simp only [flat, lowerLabels, map_append]
  exact join_prefix_append 46 _ _

lemma encode_length (hls : ls ≠ []) : (encode ls).length = (flat ls).length + 2 := by
  induction ls with
  | nil => exact absurd rfl hls
  | cons l ls ih =>
    rcases eq_or_ne ls [] with rfl | hls'
    · simp [flat, lowerLabels]
    have hne : lowerLabels ls ≠ [] := by simpa [lowerLabels] using hls'
    have hflat : flat (l :: ls) = l.map dnsQnameLower ++ 46 :: flat ls := join_cons 46 hne
    rw [encode_cons, hflat, length_cons, length_append, ih hls', length_append,
      length_map, length_cons]
    omega

lemma labelLen_ok (hc : c ≠ 0) (hbad : badLabelLen c = false) : 1 ≤ c.toNat ∧ c.toNat ≤ 63 := by
  have h63 : c ≤ 63 := by
    simp only [badLabelLen, Bool.or_eq_false_iff, decide_eq_false_iff_not, gt_iff_lt,
      UInt8.not_lt] at hbad
    exact hbad.2
  have h0 : c.toNat ≠ 0 := fun h => hc (UInt8.toNat_inj.1 (by simpa using h))
  exact ⟨by omega, UInt8.le_iff_toNat_le.1 h63⟩

lemma plain_length (h : 1 ≤ l.length ∧ l.length ≤ 63) :
    l.length.toUInt8.toNat = l.length ∧ l.length.toUInt8 ≠ 0 ∧
      badLabelLen l.length.toUInt8 = false := by
  have hsmall : ∀ n : Fin 64, n.1.toUInt8.toNat = n.1 ∧ (1 ≤ n.1 → n.1.toUInt8 ≠ 0) ∧
      badLabelLen n.1.toUInt8 = false := by decide
  obtain ⟨h1, h2, h3⟩ := hsmall ⟨l.length, by omega⟩
  exact ⟨h1, h2 h.1, h3⟩

lemma next_byte {d : List UInt8} {off : Nat} (h : d.drop off = c :: s) :
    d[off]? = some c ∧ d.drop (off + 1) = s := by
  constructor
  · rw [← head?_drop, h]
    rfl
  · rw [← tail_drop, h]
    rfl

lemma no_byte {d : List UInt8} {off : Nat} (h : d.drop off = []) : d[off]? = none := by
  rw [← head?_drop, h]
  rfl

variable {rest text : List UInt8}

lemma encode_unique {ls' : List (List UInt8)} {rest' : List UInt8} (h : PlainLabels ls)
    (h' : PlainLabels ls') (heq : encode ls ++ rest = encode ls' ++ rest') :
    ls = ls' ∧ rest = rest' := by
  induction ls generalizing ls' with
  | nil =>
    rcases ls' with _ | ⟨l', ls'⟩
    · exact ⟨rfl, by simpa using heq⟩
    · rw [encode_nil, encode_cons] at heq
      exact absurd (cons.inj heq).1.symm (plain_length (plainLabels_cons.1 h').1).2.1
  | cons l ls ih =>
    obtain ⟨hl, hls⟩ := plainLabels_cons.1 h
    rcases ls' with _ | ⟨l', ls'⟩
    · rw [encode_nil, encode_cons] at heq
      exact absurd (cons.inj heq).1 (plain_length hl).2.1
    obtain ⟨hl', hls'⟩ := plainLabels_cons.1 h'
    rw [encode_cons, encode_cons, cons_append, cons_append, append_assoc, append_assoc] at heq
    obtain ⟨hlen, htail⟩ := cons.inj heq
    have hlen' : l.length = l'.length := by
      rw [← (plain_length hl).1, hlen, (plain_length hl').1]
    obtain ⟨rfl, htail'⟩ := append_inj htail hlen'
    obtain ⟨rfl, hrest⟩ := ih hls hls' htail'
    exact ⟨rfl, hrest⟩

lemma NameBuf.get_put_self (b : NameBuf) (i : Nat) (c : UInt8) : (b.put i c).get i = c :=
  update_self ..

lemma NameBuf.get_put_ne (b : NameBuf) {i : Nat} (c : UInt8) (hi : i < maxDnsNameLen)
    (hj : j < maxDnsNameLen) (h : i ≠ j) : (b.put i c).get j = b.get j := by
  refine update_of_ne ?_ _ _
  intro heq
  have := congrArg Fin.val heq
  simp only [Fin.val_ofNat, Nat.mod_eq_of_lt hi, Nat.mod_eq_of_lt hj] at this
  exact h this.symm

/-- The buffer starts with a text. -/
def NameBuf.Holds (b : NameBuf) (text : List UInt8) : Prop :=
  ∀ i (h : i < text.length), b.get i = text[i]

lemma NameBuf.Holds.put {b : NameBuf} (h : b.Holds text)
    (hlen : text.length < maxDnsNameLen) (c : UInt8) :
    (b.put text.length c).Holds (text ++ [c]) := by
  intro i hi
  rw [length_append, length_singleton] at hi
  rcases Nat.lt_or_ge i text.length with hlt | hge
  · rw [NameBuf.get_put_ne b c hlen (by omega) (by omega), h i hlt, getElem_append_left hlt]
  obtain rfl : i = text.length := by omega
  rw [NameBuf.get_put_self]
  simp

/-! ### Parsing -/

/-- The parse has written `text` and is `r` bytes before the end of a label, or between two. -/
structure Reads (st : DnsQueryState) (text : List UInt8) (r : Nat) : Prop where
  failed : st.failed = false
  done : st.done = false
  remaining : st.labelRemaining = r
  len : st.dottedLen = text.length
  room : text.length + r < maxDnsNameLen
  holds : st.name.Holds text

section
variable {d : List UInt8} {st : DnsQueryState} {text : List UInt8} {r : Nat}

lemma Reads.not_full (h : Reads st text r) : ¬ st.dottedLen ≥ maxDnsNameLen := by
  have := h.room
  rw [h.len]
  omega

lemma parseStep_byte (h : Reads st text r) (hc : d[st.cursor]? = some c) : parseStep d st =
      if r = 0 then
        if c == 0 then { st with cursor := st.cursor + 1, done := true }
        else if badLabelLen c then { st with cursor := st.cursor + 1, failed := true }
        else startLabel { st with cursor := st.cursor + 1 } c
      else
        { st with
          cursor := st.cursor + 1
          name := st.name.put st.dottedLen (dnsQnameLower c)
          dottedLen := st.dottedLen + 1
          labelRemaining := st.labelRemaining - 1 } := by
  unfold parseStep
  rw [h.failed, h.done, if_neg h.not_full, hc, ← h.remaining]
  rfl

lemma parseStep_end (h : Reads st text r) (hc : d[st.cursor]? = none) :
    (parseStep d st).failed = true := by
  unfold parseStep
  rw [h.failed, h.done, if_neg h.not_full, hc]
  rfl

lemma Reads.content (h : Reads st text (r + 1)) (hc : d[st.cursor]? = some c) :
    Reads (parseStep d st) (text ++ [dnsQnameLower c]) r ∧ (parseStep d st).cursor = st.cursor + 1 ∧
      (parseStep d st).reversePos = st.reversePos := by
  have hroom := h.room
  rw [parseStep_byte h hc, if_neg (by omega)]
  refine ⟨⟨h.failed, h.done, ?_, ?_, ?_, ?_⟩, rfl, rfl⟩
  · simp [h.remaining]
  · simp [h.len]
  · rw [length_append, length_singleton]
    omega
  · rw [h.len]
    exact h.holds.put (by omega) _

/-- The text that stands before the next label. -/
def withDot (text : List UInt8) : List UInt8 := if text = [] then [] else text ++ [46]

lemma Reads.start (h : Reads st text 0) (hc : d[st.cursor]? = some c) (h0 : c ≠ 0)
    (hbad : badLabelLen c = false) :
    (maxDnsNameLen ≤ (withDot text).length + c.toNat → (parseStep d st).failed = true) ∧
      ((withDot text).length + c.toNat < maxDnsNameLen →
        Reads (parseStep d st) (withDot text) c.toNat ∧ (parseStep d st).cursor = st.cursor + 1 ∧
          (parseStep d st).reversePos = st.reversePos) := by
  have h0' : (c == 0) = false := by simpa using h0
  have hroom := h.room
  have hlen := h.len
  rw [parseStep_byte h hc, if_pos rfl, h0', if_neg (by simp), if_neg (by simp [hbad]), startLabel]
  rcases eq_or_ne text [] with rfl | htext
  · have hzero : ¬ st.dottedLen ≠ 0 := by simp [hlen]
    simp only [withDot, if_true, if_neg hzero, length_nil]
    rw [length_nil] at hlen
    constructor
    · intro hge
      rw [if_pos (by rw [hlen]; exact hge)]
    intro hlt
    rw [if_neg (by rw [hlen]; omega)]
    exact ⟨⟨h.failed, h.done, rfl, hlen, by simpa using hlt, h.holds⟩, rfl, rfl⟩
  have hpos : st.dottedLen ≠ 0 := by
    rw [hlen]
    exact fun hz => htext (length_eq_zero_iff.1 hz)
  simp only [withDot, if_neg htext, if_pos hpos, length_append, length_singleton]
  constructor
  · intro hge
    rw [if_pos (by rw [hlen]; omega)]
  intro hlt
  rw [if_neg (by rw [hlen]; omega)]
  refine ⟨⟨h.failed, h.done, rfl, by simp [hlen], by simpa using hlt, ?_⟩, rfl, rfl⟩
  rw [hlen]
  exact h.holds.put (by omega) _

/-! ### Where parsing ends -/

def Ended (st : DnsQueryState) : Prop := st.failed = true ∨ st.done = true

lemma Ended.fixed (h : Ended st) (n : Nat) : (parseStep d)^[n] st = st := by
  have hstep : parseStep d st = st := by
    unfold parseStep
    rw [if_pos (by simpa [Ended] using h)]
  exact iterate_fixed hstep n

def EndsIn (d : List UInt8) (st res : DnsQueryState) : Prop :=
  ∃ n, (parseStep d)^[n] st = res ∧ Ended res

lemma endsIn_iterate {res : DnsQueryState} (n : Nat) :
    EndsIn d ((parseStep d)^[n] st) res ↔ EndsIn d st res := by
  have hback : EndsIn d ((parseStep d)^[n] st) res → EndsIn d st res := by
    rintro ⟨k, hk, hres⟩
    exact ⟨k + n, by rw [iterate_add_apply, hk], hres⟩
  refine ⟨hback, ?_⟩
  rintro ⟨k, rfl, hres⟩
  rcases Nat.le_total n k with h | h
  · obtain ⟨j, rfl⟩ := Nat.exists_eq_add_of_le h
    exact ⟨j, by rw [← iterate_add_apply, Nat.add_comm], hres⟩
  obtain ⟨j, rfl⟩ := Nat.exists_eq_add_of_le h
  rw [Nat.add_comm, iterate_add_apply, hres.fixed]
  exact ⟨0, rfl, hres⟩

lemma EndsIn.unique {a b : DnsQueryState} (ha : EndsIn d st a) (hb : EndsIn d st b) : a = b := by
  obtain ⟨n, rfl, hn⟩ := ha
  obtain ⟨k, rfl, -⟩ := (endsIn_iterate n).2 hb
  exact (hn.fixed k).symm

lemma endsIn_of_step_failed (h : (parseStep d st).failed = true) :
    ∃ res, EndsIn d st res ∧ res.failed = true := ⟨_, ⟨1, rfl, .inl h⟩, h⟩

lemma Reads.label (h : Reads st text l.length) (hd : d.drop st.cursor = l ++ s) :
    Reads ((parseStep d)^[l.length] st) (text ++ l.map dnsQnameLower) 0 ∧
      d.drop ((parseStep d)^[l.length] st).cursor = s ∧
      ((parseStep d)^[l.length] st).reversePos = st.reversePos := by
  induction l generalizing st text with
  | nil => exact ⟨by simpa using h, hd, rfl⟩
  | cons c l ih =>
    obtain ⟨hc, hrest⟩ := next_byte hd
    obtain ⟨hstep, hcur, hrev⟩ := h.content hc
    obtain ⟨h1, h2, h3⟩ := ih hstep (by rw [hcur]; exact hrest)
    rw [length_cons, iterate_succ_apply]
    exact ⟨by simpa using h1, h2, h3.trans hrev⟩

lemma Reads.cut_off (h : Reads st text r) (hd : (d.drop st.cursor).length < r) :
    ∃ res, EndsIn d st res ∧ res.failed = true := by
  induction r generalizing st text with
  | zero => omega
  | succ r ih =>
    cases hs : d.drop st.cursor with
    | nil =>
      exact endsIn_of_step_failed (parseStep_end h (no_byte hs))
    | cons c s =>
      obtain ⟨hc, hrest⟩ := next_byte hs
      obtain ⟨hstep, hcur, -⟩ := h.content hc
      have hlen : (d.drop (parseStep d st).cursor).length < r := by
        rw [hcur, hrest]
        rw [hs, length_cons] at hd
        omega
      obtain ⟨res, hres, hfail⟩ := ih hstep hlen
      exact ⟨res, (endsIn_iterate 1).1 hres, hfail⟩

lemma Reads.next_label (hls : PlainLabels ls) (h : Reads st (flat ls) 0)
    (hl : 1 ≤ l.length ∧ l.length ≤ 63) (hd : d.drop st.cursor = l.length.toUInt8 :: (l ++ s))
    (hroom : (flat (ls ++ [l])).length < maxDnsNameLen) :
    ∃ n, Reads ((parseStep d)^[n] st) (flat (ls ++ [l])) 0 ∧
      d.drop ((parseStep d)^[n] st).cursor = s ∧
      ((parseStep d)^[n] st).reversePos = st.reversePos := by
  obtain ⟨hlen, h0, hbad⟩ := plain_length hl
  obtain ⟨hc, hrest⟩ := next_byte hd
  have hflat : flat (ls ++ [l]) = withDot (flat ls) ++ l.map dnsQnameLower := flat_snoc hls l
  rw [hflat, length_append, length_map] at hroom
  obtain ⟨hstart, hcur, hrev⟩ := (h.start hc h0 hbad).2 (by rw [hlen]; exact hroom)
  rw [hlen] at hstart
  obtain ⟨h1, h2, h3⟩ := hstart.label (by rw [hcur]; exact hrest)
  refine ⟨l.length + 1, ?_⟩
  rw [iterate_succ_apply, hflat]
  exact ⟨h1, h2, h3.trans hrev⟩

/-- The state in which the parse of a name has succeeded. -/
structure Parsed (res : DnsQueryState) (text : List UInt8) : Prop where
  done : res.done = true
  failed : res.failed = false
  remaining : res.labelRemaining = 0
  len : res.dottedLen = text.length
  room : text.length < maxDnsNameLen
  holds : res.name.Holds text

/-- **Completeness of parsing**: a name that fits is read to its end. -/
theorem parse_complete {ls more : List (List UInt8)} (hls : PlainLabels ls)
    (hmore : PlainLabels more) (h : Reads st (flat ls) 0)
    (hd : d.drop st.cursor = encode more ++ rest)
    (hroom : (flat (ls ++ more)).length < maxDnsNameLen) :
    ∃ res, EndsIn d st res ∧ Parsed res (flat (ls ++ more)) ∧ res.reversePos = st.reversePos := by
  induction more generalizing st ls with
  | nil =>
    obtain ⟨hc, -⟩ := next_byte (show d.drop st.cursor = 0 :: rest from hd)
    have hstep := parseStep_byte h hc
    rw [if_pos rfl] at hstep
    refine ⟨{ st with cursor := st.cursor + 1, done := true }, ⟨1, hstep, .inr rfl⟩, ?_, rfl⟩
    rw [append_nil]
    exact ⟨rfl, h.failed, h.remaining, h.len, h.room, h.holds⟩
  | cons l more ih =>
    obtain ⟨hl, hmore'⟩ := plainLabels_cons.1 hmore
    have hassoc : ls ++ l :: more = (ls ++ [l]) ++ more := by simp
    rw [hassoc] at hroom ⊢
    have hroom1 : (flat (ls ++ [l])).length < maxDnsNameLen :=
      lt_of_le_of_lt (flat_prefix_append _ _).length_le hroom
    rw [encode_cons, cons_append, append_assoc] at hd
    obtain ⟨n, h1, h2, h3⟩ := h.next_label hls hl hd hroom1
    obtain ⟨res, hres, hp, hrev⟩ := ih (plainLabels_snoc.2 ⟨hls, hl⟩) hmore' h1 h2 hroom
    exact ⟨res, (endsIn_iterate n).1 hres, hp, hrev.trans h3⟩

/-- Where a label is expected: the end of the name, or a label that is all there and fits. -/
lemma Reads.boundary (hls : PlainLabels ls) (h : Reads st (flat ls) 0) :
    (∃ res, EndsIn d st res ∧ res.failed = true) ∨ (∃ t, d.drop st.cursor = 0 :: t) ∨
      ∃ l t, (1 ≤ l.length ∧ l.length ≤ 63) ∧ d.drop st.cursor = l.length.toUInt8 :: (l ++ t) ∧
        (flat (ls ++ [l])).length < maxDnsNameLen := by
  cases hs : d.drop st.cursor with
  | nil => exact .inl (endsIn_of_step_failed (parseStep_end h (no_byte hs)))
  | cons c s =>
    obtain ⟨hc, hrest⟩ := next_byte hs
    by_cases h0 : c = 0
    · exact .inr (.inl ⟨s, by rw [h0]⟩)
    cases hbad : badLabelLen c with
    | true =>
      have hfail : (parseStep d st).failed = true := by
        rw [parseStep_byte h hc, if_pos rfl, if_neg (by simpa using h0), if_pos hbad]
      exact .inl (endsIn_of_step_failed hfail)
    | false =>
      obtain ⟨hlong, hfits⟩ := h.start hc h0 hbad
      rcases Nat.lt_or_ge ((withDot (flat ls)).length + c.toNat) maxDnsNameLen
        with hroom | hroom
      · obtain ⟨hstart, hcur, -⟩ := hfits hroom
        rcases Nat.lt_or_ge s.length c.toNat with hshort | hall
        · -- the message ends inside the label
          obtain ⟨bad, hb, hfail⟩ := hstart.cut_off (by rw [hcur, hrest]; exact hshort)
          exact .inl ⟨bad, (endsIn_iterate 1).1 hb, hfail⟩
        have hlen : (s.take c.toNat).length = c.toNat := length_take_of_le hall
        have hl : 1 ≤ (s.take c.toNat).length ∧ (s.take c.toNat).length ≤ 63 := by
          rw [hlen]
          exact labelLen_ok h0 hbad
        have hbyte : (s.take c.toNat).length.toUInt8 = c := by
          apply UInt8.toNat_inj.1
          rw [(plain_length hl).1, hlen]
        refine .inr (.inr ⟨s.take c.toNat, s.drop c.toNat, hl, ?_, ?_⟩)
        · rw [hbyte, take_append_drop]
        · rwa [flat_snoc hls, length_append, length_map, hlen]
      · exact .inl (endsIn_of_step_failed (hlong hroom))

/-- **Soundness of parsing**: a parse that succeeds has read a name that fits. -/
theorem parse_sound {ls : List (List UInt8)} (hls : PlainLabels ls) (h : Reads st (flat ls) 0)
    {res : DnsQueryState} (hres : EndsIn d st res) (hok : res.failed = false) :
    ∃ more rest, PlainLabels more ∧ d.drop st.cursor = encode more ++ rest ∧
      (flat (ls ++ more)).length < maxDnsNameLen := by
  induction hn : (d.drop st.cursor).length using Nat.strong_induction_on generalizing st ls with
  | h n ih =>
    obtain ⟨bad, hbad, hfail⟩ | ⟨t, ht⟩ | ⟨l, t, hl, ht, hroom⟩ := h.boundary hls
    · rw [hbad.unique hres, hok] at hfail
      cases hfail
    · exact ⟨[], t, plainLabels_nil, ht, by simpa using h.room⟩
    obtain ⟨k, h1, h2, -⟩ := h.next_label hls hl ht hroom
    have hshorter : t.length < n := by
      rw [← hn, ht, length_cons, length_append]
      omega
    obtain ⟨more, rest, hmore, hd, hfit⟩ := ih t.length hshorter
      (plainLabels_snoc.2 ⟨hls, hl⟩) h1 ((endsIn_iterate k).2 hres) (by rw [h2])
    refine ⟨l :: more, rest, plainLabels_cons.2 ⟨hl, hmore⟩, ?_, by simpa using hfit⟩
    rw [ht, encode_cons, ← h2, hd]
    simp

/-- How much there is left to do: every step writes a byte, or reads the length before one. -/
def parseMeasure (st : DnsQueryState) : Nat :=
  2 * (maxDnsNameLen - st.dottedLen) + if st.labelRemaining = 0 then 1 else 0

lemma parseStep_measure (d : List UInt8) (st : DnsQueryState) :
    Ended (parseStep d st) ∨ parseMeasure (parseStep d st) < parseMeasure st := by
  unfold parseStep
  split
  · rename_i h
    exact .inl (by simpa [Ended] using h)
  split
  · exact .inl (.inl rfl)
  rename_i hroom
  split
  · exact .inl (.inl rfl)
  rename_i c hc
  dsimp only
  split
  · rename_i hrem
    split
    · exact .inl (.inr rfl)
    rename_i h0
    split
    · exact .inl (.inl rfl)
    -- a label starts, and it is not empty
    have hc0 : c.toNat ≠ 0 := by
      intro hz
      have : c = 0 := UInt8.toNat_inj.1 (by simpa using hz)
      simp [this] at h0
    rw [startLabel]
    split <;> dsimp only <;> split
    · exact .inl (.inl rfl)
    · right
      simp only [parseMeasure, hrem, hc0, if_true, if_false]
      omega
    · exact .inl (.inl rfl)
    · right
      simp only [parseMeasure, hrem, hc0, if_true, if_false]
      omega
  · rename_i hrem
    right
    simp only [parseMeasure, if_neg hrem]
    split <;> omega

lemma parse_ends (d : List UInt8) (st : DnsQueryState) (hn : parseMeasure st < n) :
    Ended ((parseStep d)^[n] st) := by
  induction n generalizing st with
  | zero => omega
  | succ n ih =>
    rw [iterate_succ_apply]
    obtain hend | hlt := parseStep_measure d st
    · rwa [hend.fixed]
    · exact ih _ (by omega)

end

/-! ### Tail calls of the parser -/

variable {st : DnsQueryState}

lemma tailCall_parse (d : List UInt8) (q : DnsAllowKey) (m : Nat)
    (hend : Ended ((parseStep d)^[dnsParseChunkSize * j] st)) (hn : j + (m + 1) ≤ n) :
    ∃ k, m + 1 ≤ k ∧ tailCall d n .parse st q =
      tailCall d k .parse ((parseStep d)^[dnsParseChunkSize * j] st) q := by
  induction j generalizing n st with
  | zero => exact ⟨n, by omega, rfl⟩
  | succ j ih =>
    obtain ⟨n, rfl⟩ : ∃ n', n = n' + 1 := ⟨n - 1, by omega⟩
    have hsplit : (parseStep d)^[dnsParseChunkSize * (j + 1)] st =
        (parseStep d)^[dnsParseChunkSize * j] (dnsParseQueryNameChunk d st) := by
      rw [Nat.mul_succ, iterate_add_apply]
      rfl
    rw [hsplit] at hend ⊢
    by_cases hnow : Ended (dnsParseQueryNameChunk d st)
    · -- the last chunk: it would not change its own result
      have hfix : dnsParseQueryNameChunk d (dnsParseQueryNameChunk d st) =
        dnsParseQueryNameChunk d st := hnow.fixed _
      refine ⟨n + 1, by omega, ?_⟩
      rw [hnow.fixed]
      simp only [tailCall, hfix]
    obtain ⟨k, hk, hcall⟩ := ih hend (show j + (m + 1) ≤ n by omega)
    refine ⟨k, hk, ?_⟩
    obtain ⟨k, rfl⟩ : ∃ k', k = k' + 1 := ⟨k - 1, by omega⟩
    simp only [Ended, not_or, Bool.not_eq_true] at hnow
    rw [tailCall]
    simp only [hnow.1, hnow.2, Bool.false_eq_true, if_false, hcall]
    simp [tailCall]

lemma tailCall_parse_init (d : List UInt8) (name : NameBuf) (ifindex : UInt32) (q : DnsAllowKey) :
    ∃ res k, EndsIn d (dnsInitQueryState name ifindex) res ∧ 7 ≤ k ∧
      tailCall d maxTailCallCnt .parse (dnsInitQueryState name ifindex) q =
        tailCall d k .parse res q := by
  have hend : Ended ((parseStep d)^[dnsParseChunkSize * 9] (dnsInitQueryState name ifindex)) :=
    parse_ends d _ (by simp only [parseMeasure, dnsInitQueryState]; decide)
  obtain ⟨k, hk, hcall⟩ := tailCall_parse d q 6 hend (show 9 + (6 + 1) ≤ maxTailCallCnt by decide)
  exact ⟨_, k, ⟨_, rfl, hend⟩, hk, hcall⟩

/-! ### Reversal -/

/-- The first `st.reversePos` bytes of the key are the last ones of the name. -/
def Reversed (st : DnsQueryState) (q : DnsAllowKey) : Prop :=
  ∀ i < st.reversePos, q.name.get i = st.name.get (st.dottedLen - 1 - i)

variable {q : DnsAllowKey}

lemma reverseLoop_spec (n : Nat)
    (hpos : st.reversePos ≤ st.dottedLen) (hlen : st.dottedLen < maxDnsNameLen)
    (hrev : Reversed st q) :
    ∃ pos q', reverseLoop n st q =
        (decide (st.dottedLen < st.reversePos + n), { st with reversePos := pos }, q') ∧
      pos = min st.dottedLen (st.reversePos + n) ∧ q'.prefixlen = q.prefixlen ∧
      (∀ i < pos, q'.name.get i = st.name.get (st.dottedLen - 1 - i)) ∧
      (st.dottedLen < st.reversePos + n → q'.name.get st.dottedLen = 0) := by
  induction n generalizing st q with
  | zero =>
    refine ⟨st.reversePos, q, ?_, ?_, rfl, hrev, fun h => absurd h (by omega)⟩
    · rw [reverseLoop, decide_eq_false (by omega)]
    · omega
  | succ n ih =>
    rw [reverseLoop]
    split
    · rename_i hge
      have heq : st.reversePos = st.dottedLen := by omega
      refine ⟨st.reversePos, { q with name := q.name.put st.dottedLen 0 },
        by rw [decide_eq_true (by omega)], by omega, rfl, ?_, fun _ => ?_⟩
      · intro i hi
        rw [NameBuf.get_put_ne _ _ hlen (by omega) (by omega)]
        exact hrev i hi
      · exact NameBuf.get_put_self _ _ _
    rename_i hlt
    let c := st.name.get (st.dottedLen - 1 - st.reversePos)
    have hstep : Reversed { st with reversePos := st.reversePos + 1 }
        { q with name := q.name.put st.reversePos c } := by
      intro i hi
      dsimp only at hi ⊢
      rcases Nat.lt_or_ge i st.reversePos with hi' | hi'
      · rw [NameBuf.get_put_ne _ _ (by omega) (by omega) (by omega)]
        exact hrev i hi'
      · obtain rfl : i = st.reversePos := by omega
        exact NameBuf.get_put_self _ _ _
    have hpos1 : st.reversePos + 1 ≤ st.dottedLen := by omega
    obtain ⟨pos, q', hloop, hpos', hplen, hbytes, hnul⟩ :=
      @ih { st with reversePos := st.reversePos + 1 } _ hpos1 hlen hstep
    dsimp only at hloop hpos' hplen hbytes hnul
    have hshift : st.reversePos + (n + 1) = st.reversePos + 1 + n := by omega
    exact ⟨pos, q', by rw [hloop, hshift], by rw [hpos', hshift], hplen, hbytes,
      fun h => hnul (by omega)⟩

structure KeyOf (st : DnsQueryState) (q : DnsAllowKey) : Prop where
  prefixlen : q.prefixlen = (st.dottedLen + 1) * 8
  bytes : ∀ i < st.dottedLen, q.name.get i = st.name.get (st.dottedLen - 1 - i)
  closed : q.name.get st.dottedLen = 0

lemma tailCall_reverse (d : List UInt8)
    (hok : st.failed = false) (h0 : st.dottedLen ≠ 0) (hlen : st.dottedLen < maxDnsNameLen)
    (hpos : st.reversePos ≤ st.dottedLen) (hrev : Reversed st q)
    (hj : st.dottedLen < st.reversePos + dnsParseChunkSize * j) (hn : j + 1 ≤ n) :
    ∃ pos q', tailCall d n .reverse st q = some (.finish { st with reversePos := pos } q') ∧
      KeyOf st q' := by
  induction j generalizing n st q with
  | zero => omega
  | succ j ih =>
    obtain ⟨n, rfl⟩ : ∃ n', n = n' + 1 + 1 := ⟨n - 2, by omega⟩
    have hlive : ¬ st.failed = true := by simp [hok]
    have hguard : ¬(st.dottedLen = 0 ∨ st.dottedLen ≥ maxDnsNameLen) := by omega
    obtain ⟨pos, q', hloop, hpos', hplen, hbytes, hnul⟩ :=
      reverseLoop_spec dnsParseChunkSize (q := { q with prefixlen := (st.dottedLen + 1) * 8 })
        hpos hlen hrev
    rw [tailCall]
    simp only [if_neg hlive, dnsReverseQueryNameChunk, if_neg hguard, hloop]
    by_cases hlast : st.dottedLen < st.reversePos + dnsParseChunkSize
    · rw [decide_eq_true hlast]
      refine ⟨pos, q', by simp [tailCall], hplen, fun i hi => hbytes i ?_, hnul hlast⟩
      omega
    rw [decide_eq_false hlast]
    have hmul : dnsParseChunkSize * (j + 1) = dnsParseChunkSize * j + dnsParseChunkSize :=
      Nat.mul_succ _ _
    obtain ⟨pos', q'', hcall, hkey⟩ := @ih (n + 1) { st with reversePos := pos } q' hok h0 hlen
      (by dsimp only; omega) hbytes (by dsimp only; omega) (by omega)
    exact ⟨pos', q'', by simp only [hcall, getD_some], hkey.prefixlen, hkey.bytes,
      hkey.closed⟩

/-! ### The whole pipeline -/

lemma bits_take (bs : List UInt8) (hn : n ≤ bs.length) :
    (bits bs).take (8 * n) = bits (bs.take n) := by
  have hsplit : bits bs = bits (bs.take n) ++ bits (bs.drop n) := by
    rw [← bits_append, take_append_drop]
  have hlen : (bits (bs.take n)).length = 8 * n := by
    rw [bits_length, length_take_of_le hn]
  rw [hsplit, ← hlen, take_left]

lemma KeyOf.bits_eq (hkey : KeyOf st q)
    (hst : Parsed st text) : q.bits = bits (text.reverse ++ [0]) := by
  have hroom := hst.room
  have hlen := hst.len
  have hbytes : (List.ofFn q.name).take (text.length + 1) = text.reverse ++ [0] := by
    apply ext_getElem
    · rw [length_take, length_ofFn, length_append, length_reverse, length_singleton]
      omega
    intro i h1 h2
    rw [length_append, length_reverse, length_singleton] at h2
    have hi : i < maxDnsNameLen := by omega
    have hget : (List.ofFn q.name)[i]? = some (q.name.get i) := by
      rw [List.getElem?_ofFn, dif_pos hi]
      congr 2
      exact Fin.ext (Nat.mod_eq_of_lt hi).symm
    have hleft : ((List.ofFn q.name).take (text.length + 1))[i] = q.name.get i := by
      rw [getElem_take]
      exact some.inj ((getElem?_eq_getElem _).symm.trans hget)
    rw [hleft]
    rcases Nat.lt_or_ge i text.length with hlt | hge
    · rw [hkey.bytes i (by omega), hlen, hst.holds _ (by omega),
        getElem_append_left (by rw [length_reverse]; exact hlt), getElem_reverse]
    obtain rfl : i = text.length := by omega
    have hclosed : q.name.get text.length = 0 := by
      rw [← hlen]
      exact hkey.closed
    rw [hclosed]
    simp
  rw [DnsAllowKey.bits, hkey.prefixlen, hlen, Nat.mul_comm, bits_take _ ?_, hbytes]
  rw [length_ofFn]
  omega

lemma reads_init (name : NameBuf) (ifindex : UInt32) :
    Reads (dnsInitQueryState name ifindex) (flat []) 0 :=
  ⟨rfl, rfl, rfl, rfl, by decide, fun i h => absurd h (by simp [flat, lowerLabels])⟩

section
variable {d : List UInt8} {name : NameBuf} {ifindex : UInt32} {q : DnsAllowKey}

lemma tailCall_failed {k : Nat} (hk : 2 ≤ k) (hst : st.failed = true) :
    tailCall d k .parse st q = some (.finish st q) := by
  obtain ⟨k, rfl⟩ : ∃ k', k = k' + 1 + 1 := ⟨k - 2, by omega⟩
  have hfix : dnsParseQueryNameChunk d st = st := Ended.fixed (.inl hst) _
  simp [tailCall, hfix, hst]

lemma tailCall_parsed {k : Nat} (hk : 7 ≤ k) (hst : Parsed st text) (hpos : st.reversePos = 0) :
    ∃ st' q', tailCall d k .parse st q = some (.finish st' q') ∧ (text = [] → st'.failed = true) ∧
      (text ≠ [] → st'.failed = false ∧ q'.prefixlen = (text.length + 1) * 8 ∧
        q'.bits = bits (text.reverse ++ [0])) := by
  obtain ⟨k, rfl⟩ : ∃ k', k = k' + 1 + 1 + 1 := ⟨k - 3, by omega⟩
  have hfix : dnsParseQueryNameChunk d st = st := Ended.fixed (.inr hst.done) _
  have hlen := hst.len
  have hroom := hst.room
  by_cases htext : text = []
  · subst htext
    refine ⟨{ st with failed := true }, q, ?_, fun _ => rfl, fun h => absurd rfl h⟩
    simp [tailCall, hfix, hst.failed, hst.done, hlen]
  have h0 : st.dottedLen ≠ 0 := by
    rw [hlen]
    exact fun h => htext (length_eq_zero_iff.1 h)
  have hgood : ¬(st.labelRemaining ≠ 0 ∨ st.dottedLen = 0 ∨ st.dottedLen ≥ maxDnsNameLen) := by
    have := hst.remaining
    omega
  have hchunks : st.dottedLen < st.reversePos + dnsParseChunkSize * 4 := by
    rw [hpos, hlen]
    simpa [dnsParseChunkSize, maxDnsNameLen] using hroom
  have hnone : Reversed st q := by
    intro i hi
    rw [hpos] at hi
    omega
  obtain ⟨pos, q', hcall, hkey⟩ := tailCall_reverse d hst.failed h0 (by omega) (by omega) hnone
    hchunks (show 4 + 1 ≤ k + 1 + 1 by omega)
  refine ⟨{ st with reversePos := pos }, q', ?_, fun h => absurd h htext,
    fun _ => ⟨hst.failed, by rw [hkey.prefixlen, hlen], hkey.bits_eq hst⟩⟩
  have hlive : ¬ st.failed = true := by simp [hst.failed]
  rw [tailCall]
  simp only [hfix, if_neg hlive, if_pos hst.done, if_neg hgood, hcall, getD_some]

/-- **Completeness of the pipeline**: it ends with the reversed lower-case text of the name,
whatever earlier packets left in the buffers. -/
theorem pipeline_complete (name : NameBuf) (ifindex : UInt32) (q : DnsAllowKey)
    {ls : List (List UInt8)} (hls : PlainLabels ls) (hne : ls ≠ [])
    (hd : d.drop dnsHdrLen = encode ls ++ rest) (hroom : (flat ls).length < maxDnsNameLen) :
    ∃ st q', tailCall d maxTailCallCnt .parse (dnsInitQueryState name ifindex) q =
        some (.finish st q') ∧
      st.failed = false ∧ q'.prefixlen = ((flat ls).length + 1) * 8 ∧
      q'.bits = bits ((flat ls).reverse ++ [0]) := by
  obtain ⟨res, k, hres, hk, hcall⟩ := tailCall_parse_init d name ifindex q
  obtain ⟨res', hres', hparsed, hpos⟩ := parse_complete plainLabels_nil hls
    (reads_init name ifindex) hd hroom
  obtain rfl := hres.unique hres'
  obtain ⟨st', q', hrun, -, hgood⟩ := tailCall_parsed (d := d) (q := q) hk hparsed hpos
  have htext : flat ls ≠ [] := mt (flat_eq_nil hls).1 hne
  exact ⟨st', q', hcall.trans hrun, hgood htext⟩

/-- **Soundness of the pipeline**: it ends unfailed only for a plain name that fits. -/
theorem pipeline_sound {q' : DnsAllowKey}
    (h : tailCall d maxTailCallCnt .parse (dnsInitQueryState name ifindex) q = some (.finish st q'))
    (hok : st.failed = false) :
    ∃ ls rest, PlainLabels ls ∧ ls ≠ [] ∧ d.drop dnsHdrLen = encode ls ++ rest ∧
      (flat ls).length < maxDnsNameLen := by
  obtain ⟨res, k, hres, hk, hcall⟩ := tailCall_parse_init d name ifindex q
  rw [hcall] at h
  cases hfail : res.failed with
  | true =>
    rw [tailCall_failed (by omega) hfail] at h
    cases h
    rw [hfail] at hok
    cases hok
  | false =>
    obtain ⟨ls, rest, hls, hd, hroom⟩ := parse_sound plainLabels_nil
      (reads_init name ifindex) hres hfail
    refine ⟨ls, rest, hls, ?_, hd, hroom⟩
    rintro rfl
    -- the root name is refused before the reversal
    obtain ⟨res', hres', hparsed, hpos⟩ := parse_complete plainLabels_nil hls
      (reads_init name ifindex) hd hroom
    obtain rfl := hres.unique hres'
    obtain ⟨st', q'', hrun, hroot, -⟩ := tailCall_parsed (d := d) (q := q) hk hparsed hpos
    rw [hrun] at h
    cases h
    rw [hroot rfl] at hok
    cases hok

end

/-- **The pipeline decides** every payload, whatever earlier packets left in the buffers. It
ends before its tail calls run out, and unfailed exactly if a plain name that fits follows the
header; the key is then the one of that name. -/
theorem pipeline_decides (d : List UInt8) (name : NameBuf) (ifindex : UInt32) (q : DnsAllowKey) :
    ∃ st q', tailCall d maxTailCallCnt .parse (dnsInitQueryState name ifindex) q =
        some (.finish st q') ∧
      (st.failed = false ↔ ∃ ls rest, PlainLabels ls ∧ ls ≠ [] ∧
        d.drop dnsHdrLen = encode ls ++ rest ∧ (flat ls).length < maxDnsNameLen ∧
        q'.bits = bits ((flat ls).reverse ++ [0])) := by
  have hends : ∃ st q', tailCall d maxTailCallCnt .parse (dnsInitQueryState name ifindex) q =
      some (.finish st q') := by
    obtain ⟨res, k, hres, hk, hcall⟩ := tailCall_parse_init d name ifindex q
    cases hfail : res.failed with
    | true => exact ⟨_, _, hcall.trans (tailCall_failed (by omega) hfail)⟩
    | false =>
      obtain ⟨ls, rest, hls, hd, hroom⟩ := parse_sound plainLabels_nil
        (reads_init name ifindex) hres hfail
      obtain ⟨res', hres', hparsed, hpos⟩ := parse_complete plainLabels_nil hls
        (reads_init name ifindex) hd hroom
      obtain rfl := hres.unique hres'
      obtain ⟨st, q', hrun, -⟩ := tailCall_parsed (d := d) (q := q) hk hparsed hpos
      exact ⟨st, q', hcall.trans hrun⟩
  obtain ⟨st, q', hrun⟩ := hends
  refine ⟨st, q', hrun, fun hok => ?_, ?_⟩
  · obtain ⟨ls, rest, hls, hne, hd, hroom⟩ := pipeline_sound hrun hok
    obtain ⟨st', q'', hrun', -, -, hbits⟩ := pipeline_complete name ifindex q hls hne hd hroom
    cases hrun.symm.trans hrun'
    exact ⟨ls, rest, hls, hne, hd, hroom, hbits⟩
  · rintro ⟨ls, rest, hls, hne, hd, hroom, -⟩
    obtain ⟨st', q'', hrun', hok, -⟩ := pipeline_complete name ifindex q hls hne hd hroom
    cases hrun.symm.trans hrun'
    exact hok

end CubeSandbox.Vs
