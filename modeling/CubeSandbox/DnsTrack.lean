import CubeSandbox.DnsPipe
import CubeSandbox.NatStep

/-!
Which queries `from_cube` records as allowed.

A query is recorded exactly if it asks for the address of a plain name, its name is short
enough to be hashed, and the reversed text of the name is found in the trie of the device.
-/

namespace CubeSandbox.Vs

open Lpm Dotted List Option

/-! ### Skipping and hashing a name -/

lemma plain_not_pointer {l : List UInt8} (h : 1 ≤ l.length ∧ l.length ≤ 63) :
    (l.length.toUInt8 &&& dnsCompressPtrMask == dnsCompressPtrMask) = false := by
  have hsmall : ∀ n : Fin 64,
      (n.1.toUInt8 &&& dnsCompressPtrMask == dnsCompressPtrMask) = false := by decide
  exact hsmall ⟨l.length, by omega⟩

variable {ls : List (List UInt8)} {rest : List UInt8} {n off : Nat} {d : List UInt8}

lemma skipLoop_encode (hls : PlainLabels ls) (hn : ls.length < n)
    (hd : d.drop off = encode ls ++ rest) : skipLoop d n off = some (off + (encode ls).length) := by
  induction ls generalizing n off with
  | nil =>
    obtain ⟨n, rfl⟩ : ∃ n', n = n' + 1 := ⟨n - 1, by omega⟩
    obtain ⟨hc, -⟩ := next_byte (show d.drop off = 0 :: rest from hd)
    simp [skipLoop, hc, badLabelLen, dnsCompressPtrMask, dnsMaxLabelLen]
  | cons l ls ih =>
    obtain ⟨n, rfl⟩ : ∃ n', n = n' + 1 := ⟨n - 1, by omega⟩
    obtain ⟨hl, hls'⟩ := plainLabels_cons.1 hls
    obtain ⟨hlen, h0, hbad⟩ := plain_length hl
    rw [encode_cons, cons_append] at hd
    obtain ⟨hc, hrest⟩ := next_byte hd
    have hnext : d.drop (off + 1 + l.length) = encode ls ++ rest := by
      rw [← drop_drop, hrest, append_assoc, drop_left]
    have h0' : (l.length.toUInt8 == 0) = false := by simpa using h0
    rw [skipLoop, hc]
    simp only [plain_not_pointer hl, hbad, h0', Bool.false_eq_true, if_false, hlen]
    rw [length_cons] at hn
    rw [ih hls' (by omega) hnext, encode_cons, length_cons, length_append]
    congr 1
    omega

section
variable {countDown : Nat → Nat} {d : List UInt8}

lemma hashLoop_label (hcount : ∀ k < 63, countDown (k + 1) = k) {l s : List UInt8} (hash : UInt64)
    (hl : l.length ≤ 63) (hd : d.drop off = l ++ s) :
    hashLoop countDown d n off l.length hash = if n < l.length then none
      else hashLoop countDown d (n - l.length) (off + l.length) 0
        (l.foldl dnsHashQnameByte hash) := by
  induction l generalizing n off hash with
  | nil => simp
  | cons c l ih =>
    rcases n with _ | n
    · simp [hashLoop]
    obtain ⟨hc, hrest⟩ := next_byte hd
    rw [length_cons] at hl ⊢
    rw [hashLoop, hc]
    simp only [Nat.add_eq_zero_iff, Nat.one_ne_zero, and_false, if_false,
      hcount l.length (by omega), foldl_cons, Nat.add_lt_add_iff_right]
    rw [ih _ (by omega) hrest]
    congr 2
    · omega
    · omega

lemma hashLoop_encode (hcount : ∀ k < 63, countDown (k + 1) = k) (hls : PlainLabels ls)
    (hash : UInt64) (hd : d.drop off = encode ls ++ rest) :
    hashLoop countDown d n off 0 hash = if n < (encode ls).length then none
      else some (off + (encode ls).length, (encode ls).foldl dnsHashQnameByte hash) := by
  induction ls generalizing n off hash with
  | nil =>
    obtain ⟨hc, -⟩ := next_byte (show d.drop off = 0 :: rest from hd)
    rcases n with _ | n
    · simp [hashLoop]
    · rw [hashLoop, hc]
      simp
  | cons l ls ih =>
    obtain ⟨hl, hls'⟩ := plainLabels_cons.1 hls
    obtain ⟨hlen, h0, hbad⟩ := plain_length hl
    rw [encode_cons, cons_append, append_assoc] at hd
    obtain ⟨hc, hrest⟩ := next_byte hd
    rcases n with _ | n
    · simp [hashLoop]
    have h0' : (l.length.toUInt8 == 0) = false := by simpa using h0
    have hnext : d.drop (off + 1 + l.length) = encode ls ++ rest := by
      rw [← drop_drop, hrest, drop_left]
    rw [hashLoop, hc]
    simp only [if_true, h0', hbad, Bool.false_eq_true, if_false, hlen]
    rw [hashLoop_label hcount _ hl.2 hrest, ih hls' _ hnext]
    simp only [encode_cons, length_cons, length_append, foldl_cons, foldl_append]
    split_ifs <;> first | rfl | omega | (congr 2; omega)

end

/-! ### Queries that are filtered -/

/-- The message is a standard query for the address of one plain name. -/
structure Asked (d : List UInt8) (ls : List (List UInt8)) : Prop where
  header : ∃ hdr, dnsReadQueryHeader d = some hdr ∧ dnsQueryHeaderIsSupported hdr = true
  plain : PlainLabels ls
  notRoot : ls ≠ []
  question : ∃ rest, d.drop dnsHdrLen = encode ls ++ 0 :: 1 :: 0 :: 1 :: rest

lemma wire_one_iff {hi lo : UInt8} : (hi.toUInt16 <<< 8) ||| lo.toUInt16 = 1 ↔ hi = 0 ∧ lo = 1 := by
  constructor
  · intro h
    have hnat := congrArg UInt16.toNat h
    have hhi := hi.toNat_lt
    have hlo := lo.toNat_lt
    have hshift : (hi.toNat <<< 8) % 2 ^ 16 = hi.toNat <<< 8 := by
      rw [Nat.shiftLeft_eq]
      omega
    simp only [UInt16.toNat_or, UInt16.toNat_shiftLeft, UInt8.toNat_toUInt16, UInt16.toNat_ofNat,
      hshift] at hnat
    rw [← Nat.shiftLeft_add_eq_or_of_lt hlo, Nat.shiftLeft_eq] at hnat
    constructor <;> apply UInt8.toNat_inj.1 <;> simp <;> omega
  · rintro ⟨rfl, rfl⟩
    rfl

lemma loadU16_one_iff : loadU16 d off = some 1 ↔ ∃ s, d.drop off = 0 :: 1 :: s := by
  constructor
  · intro h
    unfold loadU16 at h
    split at h <;> try cases h
    rename_i hi lo hhi hlo
    obtain ⟨rfl, rfl⟩ := wire_one_iff.1 (some.inj h)
    obtain ⟨h0, hhi⟩ := List.getElem?_eq_some_iff.1 hhi
    obtain ⟨h1, hlo⟩ := List.getElem?_eq_some_iff.1 hlo
    refine ⟨d.drop (off + 2), ?_⟩
    rw [drop_eq_getElem_cons h0, hhi, drop_eq_getElem_cons h1, hlo]
  · rintro ⟨s, h⟩
    obtain ⟨h0, h'⟩ := next_byte h
    obtain ⟨h1, -⟩ := next_byte h'
    rw [loadU16, h0, h1]
    rfl

lemma footer_ipv4A {cursor : Nat} :
    ((dnsReadQuestionFooter d cursor).map dnsQuestionFooterIsIpv4A).getD false = true ↔
      ∃ rest, d.drop cursor = 0 :: 1 :: 0 :: 1 :: rest := by
  have hfields : ((dnsReadQuestionFooter d cursor).map dnsQuestionFooterIsIpv4A).getD false =
      true ↔ loadU16 d cursor = some 1 ∧ loadU16 d (cursor + 2) = some 1 := by
    rw [dnsReadQuestionFooter]
    cases loadU16 d cursor <;> cases loadU16 d (cursor + 2) <;>
      simp [dnsQuestionFooterIsIpv4A, dnsTypeA, dnsClassIn]
  rw [hfields, loadU16_one_iff, loadU16_one_iff]
  constructor
  · rintro ⟨⟨s, hs⟩, t, ht⟩
    refine ⟨t, ?_⟩
    rw [← drop_drop, hs] at ht
    rw [hs]
    exact congrArg (0 :: 1 :: ·) ht
  · rintro ⟨rest, h⟩
    refine ⟨⟨_, h⟩, rest, ?_⟩
    rw [← drop_drop, h]
    rfl

lemma encode_length_ge (h : PlainLabels ls) : 2 * ls.length < (encode ls).length := by
  induction ls with
  | nil => simp
  | cons l ls ih =>
    obtain ⟨hl, hls⟩ := plainLabels_cons.1 h
    have := ih hls
    rw [encode_cons, length_cons, length_cons, length_append]
    omega

/-- For a plain name that fits, the filter looks at the header and at the footer. -/
lemma shouldFilter_iff (hls : PlainLabels ls) (hne : ls ≠ [])
    (hroom : (flat ls).length < maxDnsNameLen) (hd : d.drop dnsHdrLen = encode ls ++ rest)
    {hdr : DnsWireHeader} (hhdr : dnsReadQueryHeader d = some hdr) :
    dnsQueryShouldFilterIpv4A d hdr = true ↔ Asked d ls := by
  have hfew : ls.length < maxDnsNameLen := by
    have h1 := encode_length_ge hls
    have h2 := encode_length hne
    have h3 : maxDnsNameLen = 256 := rfl
    omega
  have hskip : dnsSkipName d dnsHdrLen = some (dnsHdrLen + (encode ls).length) :=
    skipLoop_encode hls hfew hd
  have hrest : d.drop (dnsHdrLen + (encode ls).length) = rest := by
    rw [← drop_drop, hd, drop_left]
  have hfooter : (dnsParseQueryQuestion d).getD false = true ↔
      ∃ rest', rest = 0 :: 1 :: 0 :: 1 :: rest' := by
    have hq : dnsParseQueryQuestion d =
        (dnsReadQuestionFooter d (dnsHdrLen + (encode ls).length)).map
          dnsQuestionFooterIsIpv4A := by
      rw [dnsParseQueryQuestion, hskip, map_eq_bind]
      rfl
    rw [hq, footer_ipv4A, hrest]
  rw [dnsQueryShouldFilterIpv4A, Bool.and_eq_true, hfooter]
  constructor
  · rintro ⟨hsup, rest', rfl⟩
    exact ⟨⟨hdr, hhdr, hsup⟩, hls, hne, rest', hd⟩
  intro h
  obtain ⟨hdr', hhdr', hsup⟩ := h.header
  obtain ⟨rest', hd'⟩ := h.question
  rw [hhdr] at hhdr'
  obtain rfl := some.inj hhdr'
  exact ⟨hsup, rest', append_cancel_left (hd.symm.trans hd')⟩

/-! ### Queries that are recorded -/

/-- The key that a name is looked up under. -/
def questionKey (ls : List (List UInt8)) : List UInt8 := (flat ls).reverse ++ [0]

/-- The pipeline has not failed and the buffer holds a key, all of it. -/
structure Complete (st : DnsQueryState) (q : DnsAllowKey) (key : List UInt8) : Prop where
  failed : st.failed = false
  prefixlen : q.prefixlen = 8 * key.length
  bits : q.bits = bits key

def qnameHash (ls : List (List UInt8)) : UInt64 :=
  (encode ls).foldl dnsHashQnameByte dnsQnameHashOffset

def trackKey (skb : Skb) (l3 : IpHdr) (udp : UdpHdr) (hdr : DnsWireHeader)
    (ls : List (List UInt8)) : DnsQueryTrackKey :=
  ⟨skb.ifindex, l3.daddr, udp.source, hdr.id, qnameHash ls⟩

lemma countDown_query (k : Nat) (hk : k < 63) : (k + 1 - 1) &&& dnsMaxLabelLen.toNat = k := by
  have hsmall : ∀ k : Fin 63, (k.1 + 1 - 1) &&& dnsMaxLabelLen.toNat = k.1 := by decide
  exact hsmall ⟨k, hk⟩

lemma hashLoop_query (hls : PlainLabels ls) (hd : d.drop dnsHdrLen = encode ls ++ rest) :
    hashLoop (fun n => (n - 1) &&& dnsMaxLabelLen.toNat) d maxDnsNameLen dnsHdrLen 0
        dnsQnameHashOffset =
      if maxDnsNameLen < (encode ls).length then none
      else some (dnsHdrLen + (encode ls).length, qnameHash ls) :=
  hashLoop_encode countDown_query hls _ hd

section
variable {m : Maps} {skb : Skb} {scratch : DnsScratch} {ifindex : UInt32}

/-- **Soundness of recording.** -/
theorem recorded_asked {now : Ktime} {st : DnsQueryState} {q : DnsAllowKey}
    (h : dnsHandleQuery m skb scratch ifindex = .finish st q)
    (hrec : (dnsFinishTrack now m skb st q).2.isSome = true) :
    ∃ ls t v, Asked skb.data ls ∧ (encode ls).length ≤ maxDnsNameLen ∧
      m.dnsAllow ifindex = some t ∧ lookup t (bits (questionKey ls)) = some v := by
  have hif := dnsHandleQuery_ifindex h
  unfold dnsHandleQuery at h
  split at h
  · cases h
  rename_i hdr hhdr
  split at h
  · cases h
  split at h
  · cases h
  rename_i hfilter
  split_ifs at h
  split at h
  · rename_i st' q' hcall
    obtain ⟨rfl, rfl⟩ := DnsQueryRes.finish.inj h
    unfold dnsFinishTrack at hrec
    split at hrec
    · cases hrec
    rename_i t ht
    split at hrec
    · cases hrec
    rename_i hok
    split at hrec
    · cases hrec
    rename_i hhash
    split at hrec
    · cases hrec
    rename_i v hv
    have hok' : st'.failed = false := by simpa using hok
    obtain ⟨ls, rest, hls, hne, hd, hroom⟩ := pipeline_sound hcall hok'
    obtain ⟨st1, q1, hcall1, -, -, hbits⟩ :=
      pipeline_complete scratch.name ifindex scratch.question hls hne hd hroom
    rw [hcall] at hcall1
    cases some.inj hcall1
    refine ⟨ls, t, v, (shouldFilter_iff hls hne hroom hd hhdr).1 (by simpa using hfilter), ?_,
      by rw [← hif]; exact ht, ?_⟩
    · -- a longer name is not hashed
      by_contra hlong
      simp only [dnsHashQname, hashQname, hashLoop_query hls hd, if_pos (not_le.1 hlong)] at hhash
      cases hhash
    rw [questionKey, ← hbits]
    unfold dnsAllowMatchValue at hv
    split at hv <;> try cases hv
    exact (filter_eq_some_iff.1 hv).1
  · cases h

/-- **Completeness of recording**: the record holds the flags found in the trie. -/
theorem asked_recorded (now : Ktime) {ls : List (List UInt8)} {t : Trie DnsAllowValue}
    {v : DnsAllowValue} {l3 : IpHdr} {udp : UdpHdr} (hls : Asked skb.data ls)
    (hlen : (encode ls).length ≤ maxDnsNameLen) (ht : m.dnsAllow ifindex = some t)
    (hv : lookup t (bits (questionKey ls)) = some v) (hv0 : v.nameLen ≠ 0)
    (hvlen : v.nameLen.toNat ≤ (questionKey ls).length) (hcalls : skb.tailCallsOk = true)
    (hpull : pullHeadersUdp skb = some (l3, udp)) :
    ∃ st q hdr, dnsHandleQuery m skb scratch ifindex = .finish st q ∧
      Complete st q (questionKey ls) ∧ loadHeader skb.data = some hdr ∧
      dnsFinishTrack now m skb st q =
        (m.setTrack (m.dnsQueryTrack.set ⟨ifindex, l3.daddr, udp.source, hdr.id, qnameHash ls⟩
            ⟨now.ns + dnsQueryTrackTtlNs, v.flags⟩),
          some ⟨ifindex, l3.daddr, udp.source, hdr.id, qnameHash ls⟩) := by
  obtain ⟨hdr, hhdr, hsup⟩ := hls.header
  obtain ⟨rest, hd⟩ := hls.question
  have hwire := encode_length hls.notRoot
  have hroom : (flat ls).length < maxDnsNameLen := by omega
  obtain ⟨st, q, hcall, hok, hplen, hbits⟩ :=
    pipeline_complete scratch.name ifindex scratch.question hls.plain hls.notRoot hd hroom
  have hfilter := (shouldFilter_iff hls.plain hls.notRoot hroom hd hhdr).2 hls
  have hhandle : dnsHandleQuery m skb scratch ifindex = .finish st q := by
    simp only [dnsHandleQuery, hhdr, ht, isNone_some, Bool.false_eq_true, if_false,
      hfilter, Bool.not_true, hcalls, hcall]
  have hif := dnsHandleQuery_ifindex hhandle
  have hload : loadHeader skb.data = some hdr := (filter_eq_some_iff.1 hhdr).1
  have hkeylen : (questionKey ls).length = (flat ls).length + 1 := by simp [questionKey]
  refine ⟨st, q, hdr, hhandle, ⟨hok, by rw [hplen, hkeylen, Nat.mul_comm], hbits⟩, hload, ?_⟩
  have hmatch : dnsAllowMatchValue t q = some v := by
    have hguard : ¬(q.prefixlen = 0 ∨ q.prefixlen > maxDnsNameLen * 8 ∨ q.prefixlen % 8 ≠ 0) := by
      rw [hplen]
      omega
    rw [dnsAllowMatchValue, if_neg hguard, hbits]
    refine filter_eq_some_iff.2 ⟨hv, ?_⟩
    rw [hplen, Nat.mul_div_cancel _ (by decide), ← hkeylen]
    simp [hv0, hvlen]
  have hhash : dnsHashQname skb.data dnsHdrLen =
      some (dnsHdrLen + (encode ls).length + 4, ⟨1, 1⟩, qnameHash ls) := by
    have hfooter : skb.data.drop (dnsHdrLen + (encode ls).length) = 0 :: 1 :: 0 :: 1 :: rest := by
      rw [← drop_drop, hd, drop_left]
    have htype := loadU16_one_iff.2 ⟨_, hfooter⟩
    have hclass : loadU16 skb.data (dnsHdrLen + (encode ls).length + 2) = some 1 := by
      refine loadU16_one_iff.2 ⟨rest, ?_⟩
      rw [← drop_drop, hfooter]
      rfl
    simp only [dnsHashQname, hashQname, hashLoop_query hls.plain hd, if_neg (not_lt.2 hlen)]
    simp [dnsReadQuestionFooter, htype, hclass]
  simp only [dnsFinishTrack, hif, ht, hok, Bool.false_eq_true, if_false, hhash, hmatch,
    dnsTrackAllowedQuery, hpull, hload]

end

/-- A packet of a sandbox to port 53 that `from_cube` hands to the DNS filter. -/
structure ToDns (env : Env) (m : Maps) (skb : Skb) (l3 : IpHdr) (udp : UdpHdr) : Prop where
  ether : skb.etherType = ethPIp
  registered : ∃ mt, m.ifindexToMvmmeta skb.ifindex = some mt ∧ mt.dnsPolicyFlags ≠ 0
  headers : pullHeadersUdp skb = some (l3, udp)
  whole : l3.fragOff &&& ipFlagMf = 0 ∧ l3.fragOff &&& ipFragOffMask = 0
  port : udp.dest = dnsPort
  fits : dnsPayloadFits l3 udp = true
  notGateway : l3.daddr ≠ env.mvmGatewayIp
  notNode : l3.daddr ≠ env.nodenicIp
  kernel : skb.rewriteOk = true ∧ skb.tailCallsOk = true

section
variable {env : Env} {now : Ktime} {m : Maps} {skb : Skb} {scratch : DnsScratch}

lemma pullHeadersUdp_l4 {l3 : IpHdr} {udp : UdpHdr} (h : pullHeadersUdp skb = some (l3, udp)) :
    skb.l4 = .udp udp := by
  unfold pullHeadersUdp at h
  split at h
  · rename_i hl4
    cases h
    exact hl4
  · cases h

lemma fromCube_recorded (h : (fromCube env now m skb scratch).tracked.isSome = true) :
    ∃ l3 udp st q, skb.l4 = .udp udp ∧ dnsPayloadFits l3 udp = true ∧
      dnsHandleQuery m skb scratch skb.ifindex = .finish st q ∧
      (dnsFinishTrack now m skb st q).2.isSome = true := by
  unfold fromCube at h
  split at h
  · cases h
  split at h <;> try cases h
  split at h
  · cases h
  split at h
  · cases h
  split at h
  · cases h
  unfold natFromCube at h
  split at h
  · cases h
  split at h
  · split at h <;> try cases h
    split at h <;> cases h
  split at h
  · -- TCP
    unfold tcpFromCube at h
    split at h <;> try cases h
    split at h <;> cases h
  split at h
  · -- UDP
    unfold udpFromCube at h
    split at h
    · cases h
    rename_i l3 udp hpull
    split at h <;> try cases h
    rename_i hcond
    split at h
    · cases h
    · cases h
    · rename_i st q hq
      simp only [Bool.and_eq_true] at hcond
      exact ⟨l3, udp, st, q, pullHeadersUdp_l4 hpull, hcond.2, hq, h⟩
  split at h <;> cases h

lemma ToDns.l3 {l3 : IpHdr} {udp : UdpHdr} (h : ToDns env m skb l3 udp) :
    skb.l3 = some l3 ∧ l3.protocol = ipprotoUdp := by
  have hpull := h.headers
  unfold pullHeadersUdp at hpull
  split at hpull
  · rename_i l3' udp' hl3 hl4
    cases some.inj hpull
    obtain ⟨hsome, hp⟩ := filter_eq_some_iff.1 hl3
    simp only [Bool.and_eq_true, beq_iff_eq] at hp
    exact ⟨hsome, hp.1.1⟩
  · cases hpull

lemma ToDns.fromCube_eq {l3 : IpHdr} {udp : UdpHdr} (h : ToDns env m skb l3 udp)
    {st : DnsQueryState} {q : DnsAllowKey}
    (hq : dnsHandleQuery m skb scratch skb.ifindex = .finish st q) :
    ∃ mt, fromCube env now m skb scratch =
      finishUdpNat env now (dnsFinishTrack now m skb st q).1 skb mt
        (dnsFinishTrack now m skb st q).2 := by
  obtain ⟨mt, hmt, hflags⟩ := h.registered
  obtain ⟨hl3, hproto⟩ := h.l3
  have hudp : udpFromCube env now m skb scratch mt =
      finishUdpNat env now (dnsFinishTrack now m skb st q).1 skb mt
        (dnsFinishTrack now m skb st q).2 := by
    simp [udpFromCube, h.headers, h.port, dnsPolicyEnabled, hflags, h.fits, hq]
  have hnat : shouldDoNat l3 = true := by
    simp [shouldDoNat, hproto, h.whole.1, h.whole.2]
  have hrewrite : natRewrite skb l3 = true := by
    simp [natRewrite, hproto, h.kernel.1, h.whole.1, h.whole.2]
  have htcp : (ipprotoUdp == ipprotoTcp) = false := rfl
  refine ⟨mt, ?_⟩
  rw [← hudp, fromCube, if_neg (by simp [h.ether]), hmt, hl3]
  simp [hrewrite, h.notGateway, tcpShortcut, hproto, htcp, natFromCube, hnat, h.notNode]

/-- **A query that is asked for and found in the trie is recorded with the flags found.** -/
theorem ToDns.recorded {l3 : IpHdr} {udp : UdpHdr} (h : ToDns env m skb l3 udp) (now : Ktime)
    (scratch : DnsScratch) {ls : List (List UInt8)} {t : Trie DnsAllowValue} {v : DnsAllowValue}
    (hls : Asked skb.data ls) (hlen : (encode ls).length ≤ maxDnsNameLen)
    (ht : m.dnsAllow skb.ifindex = some t) (hv : lookup t (bits (questionKey ls)) = some v)
    (hv0 : v.nameLen ≠ 0) (hvlen : v.nameLen.toNat ≤ (questionKey ls).length) :
    ∃ st q hdr, dnsHandleQuery m skb scratch skb.ifindex = .finish st q ∧
      Complete st q (questionKey ls) ∧ loadHeader skb.data = some hdr ∧
      (fromCube env now m skb scratch).tracked = some (trackKey skb l3 udp hdr ls) ∧
      (fromCube env now m skb scratch).maps.dnsQueryTrack (trackKey skb l3 udp hdr ls) =
        some ⟨now.ns + dnsQueryTrackTtlNs, v.flags⟩ := by
  obtain ⟨st, q, hdr, hq, hcomplete, hload, hrec⟩ :=
    asked_recorded now hls hlen ht hv hv0 hvlen h.kernel.2 h.headers
  obtain ⟨mt, hout⟩ : ∃ mt, fromCube env now m skb scratch = finishUdpNat env now _ skb mt _ :=
    h.fromCube_eq hq
  refine ⟨st, q, hdr, hq, hcomplete, hload, ?_, ?_⟩
  · rw [hout, hrec]
    rfl
  have hchange : NatRes.Changes env now (dnsFinishTrack now m skb st q).1 skb mt
    (doUdpNat env now (dnsFinishTrack now m skb st q).1 skb mt) := doUdpNat_changes
  obtain ⟨sl, e, i, -, hm, -⟩ := hchange
  have hmaps : (fromCube env now m skb scratch).maps.dnsQueryTrack =
      (dnsFinishTrack now m skb st q).1.dnsQueryTrack := by
    rw [hout, finishUdpNat]
    rw [hm]
    rfl
  rw [hmaps, hrec]
  exact KMap.set_self _ _ _

end

end CubeSandbox.Vs
