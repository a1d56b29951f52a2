import CubeSandbox.DnsRules
import CubeSandbox.NatPair

/-!
A query is recorded only for a name that a rule matches.

The rules are matched against the dotted text of a name. A label may hold dots and NULs, and
then the text of a name may look like the text of another one. Besides, the programs read on
where the datagram ends and the packet does not. The theorem says for which packets neither
matters.
-/

namespace CubeSandbox.DnsSound

open Vs Lpm GoText Dotted Pol Tap List

/-- The message is a well-formed query whose only question has these labels. -/
structure WellFormedQuery (d : List UInt8) (ls : List Bytes) : Prop where
  header : ∃ hdr, loadHeader d = some hdr ∧ hdr.flags &&& dnsFlagQr = 0 ∧
    hdr.flags &&& dnsFlagOpcodeMask = 0 ∧ hdr.qdcount = 1 ∧ hdr.ancount = 0 ∧ hdr.nscount = 0
  plain : PlainLabels ls
  notRoot : ls ≠ []
  wire : (encode ls).length ≤ 255
  question : ∃ footer rest, footer.length = 4 ∧ d.drop dnsHdrLen = encode ls ++ footer ++ rest

/-- The message asks for a name that a rule of the options matches. -/
def Permitted (opts : MvmOptions) (d : List UInt8) : Prop :=
  ∃ ls, WellFormedQuery d ls ∧ ∃ r ∈ ruleList opts, r.Matches (lowerLabels ls)

/-- A text ends like that of a rule: behind a dot for a wildcard; behind an exact one may be a
NUL. -/
def TextMatches (r : Rule) (text : Bytes) : Prop :=
  if r.wildcard then ∃ u, text = u ++ 46 :: join 46 r.labels
  else text = join 46 r.labels ∨ ∃ u, text = u ++ 0 :: join 46 r.labels

/-- For a payload with room for a header: a text that matches a rule does so with one whose labels
face labels without dots and NULs, the name is not too long for the wire, and the question ends
with the payload or before. -/
def Unambiguous (opts : MvmOptions) (d behind : List UInt8) : Prop :=
  dnsHdrLen ≤ d.length → ∀ ls, Asked (d ++ behind) ls → (encode ls).length ≤ maxDnsNameLen →
    (∃ r ∈ ruleList opts, TextMatches r (flat ls)) →
    (encode ls).length ≤ 255 ∧ dnsHdrLen + (encode ls).length + 4 ≤ d.length ∧
      ∃ r ∈ ruleList opts, TextMatches r (flat ls) ∧ ∀ l ∈ lastOf ls r.labels, 46 ∉ l ∧ 0 ∉ l

variable {ls : List Bytes} {d behind : List UInt8}

lemma textMatches_iff {r : Rule} : TextMatches r (flat ls) ↔ r.key <+: questionKey ls := by
  rw [questionKey, Rule.key, key_prefix_iff, TextMatches, Rule.closing]
  cases r.wildcard with
  | false =>
    simp only [Bool.false_eq_true, if_false, true_and]
    exact or_comm
  | true =>
    have hne : ¬ ((46 : UInt8) = 0) := by decide
    simp only [if_true, hne, false_and, or_false]

lemma lower_eq_iff {b c : UInt8} (hc : c = 46 ∨ c = 0) : dnsQnameLower b = c ↔ b = c := by
  have hall : ∀ n : Fin 256, (dnsQnameLower (.ofFin n) = 46 ↔ UInt8.ofFin n = 46) ∧
      (dnsQnameLower (.ofFin n) = 0 ↔ UInt8.ofFin n = 0) := by decide +kernel
  have hb := hall b.toFin
  rw [UInt8.ofFin_toFin] at hb
  obtain rfl | rfl := hc
  · exact hb.1
  · exact hb.2

lemma free_lower_iff {a : List Bytes} :
    (∀ l ∈ lastOf (lowerLabels ls) a, 46 ∉ l ∧ 0 ∉ l) ↔ ∀ l ∈ lastOf ls a, 46 ∉ l ∧ 0 ∉ l := by
  have hmem : ∀ (l : Bytes) (c : UInt8), c = 46 ∨ c = 0 → (c ∈ l.map dnsQnameLower ↔ c ∈ l) := by
    intro l c hc
    rw [mem_map]
    constructor
    · rintro ⟨b, hb, hbc⟩
      rwa [← (lower_eq_iff hc).1 hbc]
    · exact fun h => ⟨c, h, (lower_eq_iff hc).2 rfl⟩
  have hlast : lastOf (lowerLabels ls) a = lowerLabels (lastOf ls a) := by
    simp only [lastOf, lowerLabels, length_map, map_drop]
  rw [hlast, lowerLabels, forall_mem_map]
  simp only [hmem _ _ (.inl rfl), hmem _ _ (.inr rfl)]

lemma matches_lower_iff {r : Rule} (hr : r.Valid) (hls : ls ≠ []) : r.Matches (lowerLabels ls) ↔
      TextMatches r (flat ls) ∧ ∀ l ∈ lastOf ls r.labels, 46 ∉ l ∧ 0 ∉ l := by
  have hne : lowerLabels ls ≠ [] := by simpa [lowerLabels] using hls
  rw [hr.matches_iff hne, free_lower_iff, textMatches_iff]
  rfl

/-! ### Recorded queries -/

lemma loadU16_append {off : Nat} (h : off + 1 < d.length) :
    loadU16 (d ++ behind) off = loadU16 d off := by
  simp only [loadU16, getElem?_append_left h, getElem?_append_left (Nat.lt_of_succ_lt h)]

lemma loadHeader_append (h : dnsHdrLen ≤ d.length) : loadHeader (d ++ behind) = loadHeader d := by
  unfold dnsHdrLen at h
  unfold loadHeader
  rw [loadU16_append (by omega), loadU16_append (by omega), loadU16_append (by omega),
    loadU16_append (by omega), loadU16_append (by omega), loadU16_append (by omega)]

lemma wellFormed_of_asked (h : Asked (d ++ behind) ls) (hwire : (encode ls).length ≤ 255)
    (hin : dnsHdrLen + (encode ls).length + 4 ≤ d.length) : WellFormedQuery d ls := by
  obtain ⟨hdr, hhdr, hsup⟩ := h.header
  obtain ⟨rest, hd⟩ := h.question
  obtain ⟨hload, hqr⟩ := Option.filter_eq_some_iff.1 hhdr
  rw [loadHeader_append (by omega)] at hload
  simp only [dnsQueryHeaderIsSupported, dnsFlagsAreStandard, Bool.and_eq_true, beq_iff_eq] at hsup
  -- the question stands in front of what the payload has left
  rw [drop_append_of_le_length (by omega)] at hd
  have hpre : encode ls ++ [0, 1, 0, 1] <+: d.drop dnsHdrLen := by
    refine prefix_of_prefix_length_le ⟨rest, ?_⟩ (prefix_append _ behind) ?_
    · rw [hd]
      simp
    · simp only [length_append, length_drop, length_cons, length_nil]
      omega
  obtain ⟨rest', hd'⟩ := hpre
  exact ⟨⟨hdr, hload, by simpa using hqr, hsup.1.1.1.1.1.1.1, hsup.1.1.2, hsup.1.2, hsup.2⟩,
    h.plain, h.notRoot, hwire, [0, 1, 0, 1], rest', rfl, hd'.symm⟩

lemma WellFormedQuery.inside {ls' : List Bytes} (h : WellFormedQuery d ls)
    (h' : Asked (d ++ behind) ls') :
    ls = ls' ∧ dnsHdrLen + (encode ls).length + 4 ≤ d.length := by
  obtain ⟨footer, rest, hfooter, hd⟩ := h.question
  obtain ⟨rest', hd'⟩ := h'.question
  have hlen := congrArg length hd
  simp only [length_drop, length_append, hfooter] at hlen
  have hpos : 0 < (encode ls).length := by simp [encode]
  rw [drop_append_of_le_length (by omega), hd, append_assoc, append_assoc] at hd'
  exact ⟨(encode_unique h.plain h'.plain hd').1, by omega⟩

/-- The payload of a packet is what the length of its datagram covers. -/
def Carries (skb : Skb) (payload behind : List UInt8) : Prop :=
  ∃ udp, skb.l4 = .udp udp ∧ skb.data.splitAt (udp.len.toNat - 8) = (payload, behind)

/-- A packet with a message for a resolver, and bytes behind the datagram. -/
def queryPacket (tap : UInt32) (d : List UInt8) (behind : List UInt8 := []) : Skb where
  ifindex := tap
  etherType := ethPIp
  l3 := some ⟨5, (28 + d.length).toUInt16, 0, ipprotoUdp, 0x0200000a, 0x08080808⟩
  l4 := .udp ⟨htons 40000, dnsPort, (8 + d.length).toUInt16⟩
  data := d ++ behind
  arpRequest := false
  gso := false
  rewriteOk := true
  sockEstablished := false
  tailCallsOk := true

section

variable (hlow : dnsHdrLen ≤ d.length) (hhigh : d.length ≤ 65507)
include hhigh

lemma queryPacket_carries (tap : UInt32) : Carries (queryPacket tap d behind) d behind := by
  refine ⟨_, rfl, ?_⟩
  have hlen : (8 + d.length).toUInt16.toNat - 8 = d.length := by
    rw [Nat.toUInt16_eq, UInt16.toNat_ofNat']
    omega
  rw [hlen, splitAt_eq]
  simp [queryPacket]

include hlow

lemma queryPacket_toDns {m : Maps} {tap : UInt32}
    (hm : ∃ mt, m.ifindexToMvmmeta tap = some mt ∧ mt.dnsPolicyFlags ≠ 0) :
    ToDns NatPair.demoEnv m (queryPacket tap d behind)
      ⟨5, (28 + d.length).toUInt16, 0, ipprotoUdp, 0x0200000a, 0x08080808⟩
      ⟨htons 40000, dnsPort, (8 + d.length).toUInt16⟩ where
  ether := rfl
  registered := hm
  headers := rfl
  whole := ⟨by simp, by simp⟩
  port := rfl
  fits := by
    unfold dnsHdrLen at hlow
    simp [dnsPayloadFits, ipHlen, dnsHdrLen]
    omega
  notGateway := by
    change (0x08080808 : UInt32) ≠ _
    decide
  notNode := by
    change (0x08080808 : UInt32) ≠ _
    decide
  kernel := ⟨rfl, rfl⟩

end

/-- In every packet with the payload and these bytes behind it the query is recorded only if a rule
matches it. -/
def RecordedOnlyIfPermitted (m1 : Maps) (tap : UInt32) (opts : MvmOptions)
    (d behind : List UInt8) : Prop :=
  ∀ env now m skb scratch, m.dnsAllow tap = m1.dnsAllow tap → skb.ifindex = tap →
    Carries skb d behind → (fromCube env now m skb scratch).tracked.isSome = true →
    Permitted opts d

/-- **DNS soundness**: only permitted queries are recorded exactly if the text is not ambiguous and
the question is not behind the payload. -/
theorem recorded_only_if_permitted_iff {m0 m1 : Maps} {tap ip : UInt32} {id : Bytes}
    {version : UInt32} {opts : MvmOptions} {upsert : Bool}
    (h : install m0 tap ip id version opts upsert = (m1, .ok ())) {d : List UInt8}
    (hd : d.length ≤ 65507) (behind : List UInt8) :
    RecordedOnlyIfPermitted m1 tap opts d behind ↔ Unambiguous opts d behind := by
  obtain ⟨htrie, hmeta⟩ := installed_dns h
  constructor
  · intro hsound hlow ls hls hlen htext
    -- a packet with this message is recorded
    obtain ⟨r, hr, hrtext⟩ := htext
    obtain ⟨s, v, hs, hv⟩ := exists_longest (f := ruleFlags opts) hr (textMatches_iff.1 hrtext)
    obtain ⟨h0, hle⟩ := stored_checks (fun t ht => ruleList_valid ht) hs.mem hv hs.isPre
    have hpacket : ToDns NatPair.demoEnv m1 (queryPacket tap d behind) _ _ :=
      queryPacket_toDns hlow hd (hmeta (ne_nil_of_mem hr))
    obtain ⟨_, _, _, _, _, _, htracked, _⟩ := hpacket.recorded (.ofNs 0) NatPair.demoScratch hls
      hlen htrie (lookup_trieOf.2 ⟨_, hs, hv⟩) h0 hle
    have hsome : (fromCube NatPair.demoEnv (.ofNs 0) m1 (queryPacket tap d behind)
        NatPair.demoScratch).tracked.isSome = true := by
      rw [htracked]
      rfl
    -- so that it is permitted, and its labels are the ones asked for
    obtain ⟨ls', hwf, r', hr', hmatch⟩ :=
      hsound _ _ _ _ _ rfl rfl (queryPacket_carries hd tap) hsome
    obtain ⟨rfl, hin⟩ := hwf.inside hls
    exact ⟨hwf.wire, hin, r', hr', (matches_lower_iff (ruleList_valid hr') hls.notRoot).1 hmatch⟩
  · intro hun env now m skb scratch hm htap hcarries hrec
    obtain ⟨l3, udp, st, q, hudp, hfits, hq, hrec'⟩ := fromCube_recorded hrec
    obtain ⟨ls, t, v, hls, hlen, ht, hv⟩ := recorded_asked hq hrec'
    obtain ⟨udp', hudp', hsplit⟩ := hcarries
    obtain rfl : udp = udp' := L4Hdr.udp.inj (hudp.symm.trans hudp')
    rw [splitAt_eq] at hsplit
    obtain ⟨rfl, rfl⟩ := Prod.mk.inj hsplit
    rw [htap, hm, htrie] at ht
    cases ht
    obtain ⟨r, hr, -⟩ := lookup_trieOf.1 hv
    have hlow : dnsHdrLen ≤ (skb.data.take (udp.len.toNat - 8)).length := by
      obtain ⟨rest, hrest⟩ := hls.question
      have hdata := congrArg length hrest
      simp only [dnsPayloadFits, Bool.and_eq_true, decide_eq_true_eq] at hfits
      simp only [length_drop, length_append, length_cons] at hdata
      rw [length_take]
      omega
    rw [← take_append_drop (udp.len.toNat - 8) skb.data] at hls
    obtain ⟨hwire, hin, r', hr', htext, hfree⟩ :=
      hun hlow ls hls hlen ⟨r, hr.mem, textMatches_iff.2 hr.isPre⟩
    exact ⟨ls, wellFormed_of_asked hls hwire hin, r', hr',
      (matches_lower_iff (ruleList_valid hr') hls.notRoot).2 ⟨htext, hfree⟩⟩

def message (ls : List Bytes) : List UInt8 :=
  [0x12, 0x34, 1, 0, 0, 1, 0, 0, 0, 0, 0, 0] ++ encode ls ++ [0, 1, 0, 1]

lemma message_asked (hls : PlainLabels ls) (hne : ls ≠ []) : Asked (message ls) ls := by
  have hload : loadHeader (message ls) = some ⟨htons 0x1234, 0x0100, 1, 0, 0⟩ := rfl
  refine ⟨⟨_, by rw [dnsReadQueryHeader, hload]; rfl, rfl⟩, hls, hne, [], ?_⟩
  simp [message, dnsHdrLen]

/-- Names that are asked for, with the length of the payload: two that look like others in their
text, and one whose question is behind a payload of just the header. -/
def forgedQueries : List (List Bytes × Nat) :=
  [([ascii "zyx" ++ 0 :: ascii "qq", ascii "com"], 28), ([ascii "evil.cube", ascii "app"], 31),
    ([ascii "qq", ascii "com"], 12)]

def noMaps : Maps := Maps.init NatPair.demoSlots

/-- One exact rule and one wildcard. -/
def demoOptions : MvmOptions :=
  ⟨none, some [ascii "qq.com", ascii "*.cube.app"], none, some [ascii "0.0.0.0/0"]⟩

lemma demoOptions_rules : ruleList demoOptions =
    [⟨false, [ascii "qq", ascii "com"]⟩, ⟨true, [ascii "cube", ascii "app"]⟩] := by
  decide +kernel

/-- Of a plain name there is nothing to confuse. -/
theorem plain_name_sound : ∃ m, install noMaps 7 0x0200000a [] 1 demoOptions false = (m, .ok ()) ∧
      RecordedOnlyIfPermitted m 7 demoOptions (message [ascii "a", ascii "cube", ascii "app"])
        [0, 0] := by
  have hok : (install noMaps 7 0x0200000a [] 1 demoOptions false).2 = .ok () := by
    decide +kernel
  rcases hinst : install noMaps 7 0x0200000a [] 1 demoOptions false with ⟨m, r⟩
  rw [hinst] at hok
  obtain rfl : r = .ok () := hok
  refine ⟨m, rfl, (recorded_only_if_permitted_iff hinst (by decide) _).2 fun _ ls hls _ _ => ?_⟩
  obtain ⟨rest, hrest⟩ := hls.question
  have hplain : PlainLabels [ascii "a", ascii "cube", ascii "app"] := by
    unfold PlainLabels
    decide
  change encode [ascii "a", ascii "cube", ascii "app"] ++ [0, 1, 0, 1, 0, 0] = _ at hrest
  obtain rfl : [ascii "a", ascii "cube", ascii "app"] = ls :=
    (encode_unique hplain hls.plain hrest).1
  refine ⟨by decide, by decide, ⟨true, [ascii "cube", ascii "app"]⟩,
    by rw [demoOptions_rules]; decide, ?_⟩
  exact ⟨⟨ascii "a", rfl⟩, by decide⟩

/-- The NUL and the dot that rules look for may both come from the inside of a label, and the whole
question from behind the payload. -/
theorem forged_queries_recorded :
    ∃ m, install noMaps 7 0x0200000a [] 1 demoOptions false = (m, .ok ()) ∧
      ∀ q ∈ forgedQueries, let (d, behind) := (message q.1).splitAt q.2
        (fromCube NatPair.demoEnv (.ofNs 1) m (queryPacket 7 d behind)
          NatPair.demoScratch).tracked.isSome = true ∧ ¬ Permitted demoOptions d := by
  have hrun : (install noMaps 7 0x0200000a [] 1 demoOptions false).2 = .ok () ∧
      ∀ q ∈ forgedQueries, (fromCube NatPair.demoEnv (.ofNs 1)
        (install noMaps 7 0x0200000a [] 1 demoOptions false).1
        (queryPacket 7 ((message q.1).take q.2) ((message q.1).drop q.2))
        NatPair.demoScratch).tracked.isSome = true := by
    decide +kernel
  have hfacts : ∀ q ∈ forgedQueries, (∀ l ∈ q.1, 1 ≤ l.length ∧ l.length ≤ 63) ∧ q.1 ≠ [] ∧
      (q.2 < dnsHdrLen + (encode q.1).length + 4 ∨
        ∀ r ∈ ruleList demoOptions, ¬ r.Matches (lowerLabels q.1)) := by
    rw [demoOptions_rules]
    decide +kernel
  rcases hinst : install noMaps 7 0x0200000a [] 1 demoOptions false with ⟨m, r⟩
  rw [hinst] at hrun
  obtain ⟨hr, hrec⟩ := hrun
  obtain rfl : r = .ok () := hr
  refine ⟨m, rfl, fun q hq => ?_⟩
  rw [splitAt_eq]
  refine ⟨hrec q hq, ?_⟩
  rintro ⟨ls, hwf, r, hrule, hmatch⟩
  obtain ⟨hplain, hne, hno⟩ := hfacts q hq
  have hasked := message_asked hplain hne
  rw [← take_append_drop q.2 (message q.1)] at hasked
  obtain ⟨rfl, hin⟩ := hwf.inside hasked
  rw [length_take] at hin
  obtain hlong | hno := hno
  · omega
  · exact hno r hrule hmatch

end CubeSandbox.DnsSound
