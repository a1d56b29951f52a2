import CubeSandbox.DnsSound

/-!
The walkers over the names of DNS messages agree.

The query path and the response path hash a question with their own copies of one loop, and a
third loop skips a name. A response that repeats the question of a recorded query therefore
comes to the record of this query.
-/

namespace CubeSandbox.DnsEcho

open Vs Option GoText Tap DnsSound

variable {d r : List UInt8} {n left stop : Nat} {hash hash' : UInt64} {footer : DnsQuestionFooter}

lemma label_bounds {c : UInt8} (h : ¬badLabelLen c = true) :
    (c &&& dnsCompressPtrMask == dnsCompressPtrMask) = false ∧ c.toNat ≤ 63 := by
  simp only [badLabelLen, Bool.or_eq_true, bne_iff_ne, decide_eq_true_eq, not_or, not_not] at h
  refine ⟨by rw [h.1]; rfl, ?_⟩
  exact UInt8.not_lt.1 h.2

lemma hashLoop_copies (off : Nat) (hleft : left ≤ 63) :
    hashLoop (fun n => (n - 1) &&& dnsMaxLabelLen.toNat) d n off left hash =
      hashLoop (· - 1) d n off left hash := by
  induction n generalizing off left hash with
  | zero => rfl
  | succ n ih =>
    unfold hashLoop
    cases d[off]? with
    | none => rfl
    | some c =>
      dsimp only
      split_ifs with h0 hc hbad
      · rfl
      · rfl
      · exact ih _ (label_bounds hbad).2
      · obtain ⟨k, rfl⟩ := Nat.exists_eq_succ_of_ne_zero h0
        rw [Nat.succ_eq_add_one, countDown_query k hleft]
        exact ih _ (by omega)

/-- The hash loop is `left` bytes before the place of the skip loop, and what it returns depends
only on the bytes that it has passed. -/
lemma hashLoop_walk {off : Nat} (h : hashLoop (· - 1) d n off left hash = some (stop, hash')) :
    off < stop ∧ (∀ m ≥ n, skipLoop d m (off + left) = some stop) ∧
      ((∀ i, off ≤ i → i < stop → r[i]? = d[i]?) →
        hashLoop (· - 1) r n off left hash = some (stop, hash')) := by
  induction n generalizing off left hash with
  | zero => cases h
  | succ n ih =>
    unfold hashLoop at h ⊢
    split at h
    · cases h
    rename_i c hc
    dsimp only at h
    split_ifs at h with h0 hzero hbad
    · obtain ⟨rfl, rfl⟩ := Prod.mk.inj (some.inj h)
      obtain rfl : c = 0 := by simpa using hzero
      subst h0
      refine ⟨by omega, fun m hm => ?_, fun hr => ?_⟩
      · obtain ⟨m, rfl⟩ := Nat.exists_eq_add_of_le' hm
        simp [skipLoop, hc, badLabelLen, dnsCompressPtrMask, dnsMaxLabelLen]
      · simp [hr off le_rfl (by omega), hc]
    · obtain ⟨hlt, hskip, hecho⟩ := ih h
      subst h0
      refine ⟨by omega, fun m hm => ?_, fun hr => ?_⟩
      · obtain ⟨m, rfl⟩ := Nat.exists_eq_add_of_le' hm
        simp only [skipLoop, add_zero, hc, (label_bounds hbad).1, hbad, hzero, Bool.false_eq_true,
          if_false]
        exact hskip _ (Nat.le_add_left _ _)
      · simp only [hr off le_rfl (by omega), hc, hzero, hbad, if_true]
        exact hecho fun i hi => hr i (by omega)
    · obtain ⟨hlt, hskip, hecho⟩ := ih h
      refine ⟨by omega, fun m hm => ?_, fun hr => ?_⟩
      · rw [show off + left = off + 1 + (left - 1) by omega]
        exact hskip m (by omega)
      · simp only [hr off le_rfl (by omega), hc, h0, if_false]
        exact hecho fun i hi => hr i (by omega)

lemma hashQname_copies (d : List UInt8) (off : Nat) :
    dnsHashQname d off = dnsHashQnameInline d off := by
  simp only [dnsHashQname, dnsHashQnameInline, hashQname, hashLoop_copies off (Nat.zero_le 63)]

lemma hashQname_eq_some {off : Nat} :
    dnsHashQnameInline d off = some (stop, footer, hash) ↔ ∃ nameEnd, stop = nameEnd + 4 ∧
      hashLoop (· - 1) d maxDnsNameLen off 0 dnsQnameHashOffset = some (nameEnd, hash) ∧
      dnsReadQuestionFooter d nameEnd = some footer := by
  simp only [dnsHashQnameInline, hashQname, bind_eq_bind, bind_eq_some_iff, Prod.exists, pure_def,
    some.injEq, Prod.mk.injEq]
  constructor
  · rintro ⟨e, h, hloop, q, hq, rfl, rfl, rfl⟩
    exact ⟨e, rfl, hloop, hq⟩
  · rintro ⟨e, rfl, hloop, hq⟩
    exact ⟨e, hash, hloop, footer, hq, rfl, rfl, rfl⟩

lemma hashQname_echo (h : dnsHashQnameInline d dnsHdrLen = some (stop, footer, hash))
    (hr : ∀ i, dnsHdrLen ≤ i → i < stop → r[i]? = d[i]?) :
    dnsHashQnameInline r dnsHdrLen = some (stop, footer, hash) := by
  obtain ⟨e, rfl, hloop, hq⟩ := hashQname_eq_some.1 h
  obtain ⟨hlt, -, hecho⟩ := hashLoop_walk hloop
  refine hashQname_eq_some.2 ⟨e, rfl, hecho fun i hi hie => hr i hi (by omega), ?_⟩
  rw [← hq]
  simp only [dnsReadQuestionFooter, loadU16, hr e (by omega) (by omega),
    hr (e + 1) (by omega) (by omega), hr (e + 2) (by omega) (by omega),
    hr (e + 2 + 1) (by omega) (by omega)]

/-- A response with the identifier and the question of a query. -/
structure Echoes (d r : List UInt8) : Prop where
  header : ∃ h h', loadHeader d = some h ∧ dnsReadResponseHeader r = some h' ∧
    h'.qdcount = 1 ∧ h'.id = h.id
  question : ∀ stop footer hash, dnsHashQname d dnsHdrLen = some (stop, footer, hash) →
    ∀ i, dnsHdrLen ≤ i → i < stop → r[i]? = d[i]?

lemma handleResponse_track (now : Ktime) (m : Maps) {key : DnsQueryTrackKey} {hdr : DnsWireHeader}
    (hlearn : dnsResponseLearningEnabled m key.ifindex = true)
    (hhdr : dnsReadResponseHeader r = some hdr) (hq : hdr.qdcount = 1) (hid : hdr.id = key.dnsId)
    (hhash : dnsHashQnameInline r dnsHdrLen = some (stop, footer, key.qnameHash))
    (hfooter : dnsQuestionFooterIsIpv4A footer = true) :
    (dnsHandleResponse now m r key.ifindex key.serverIp key.sourcePort).1.dnsQueryTrack =
      m.dnsQueryTrack.del key := by
  simp only [dnsHandleResponse, hlearn, hhdr, hq, hhash, hfooter, hid, Bool.not_true,
    bne_self_eq_false, Bool.false_eq_true, if_false]
  cases hkey : m.dnsQueryTrack key with
  | none => exact (KMap.del_of_none hkey).symm
  | some query =>
    dsimp only
    split_ifs
    · rfl
    cases dnsResponseHeaderIsSupported hdr with
    | none => rfl
    | some ancount =>
      obtain ⟨⟨al, hal, -⟩, -⟩ := answerLoop_allow now r key.ifindex query.flags
        dnsMaxResponseAnswers ancount.toNat m stop false
      dsimp only
      rw [hal]
      rfl

/-- What a recorded query has passed. -/
lemma finishTrack_eq_some {now : Ktime} {m : Maps} {skb : Skb} {st : DnsQueryState}
    {q : DnsAllowKey} {key : DnsQueryTrackKey} (h : (dnsFinishTrack now m skb st q).2 = some key) :
    ∃ hdr stop footer, key.ifindex = st.ifindex ∧ key.dnsId = hdr.id ∧
      loadHeader skb.data = some hdr ∧
      dnsHashQname skb.data dnsHdrLen = some (stop, footer, key.qnameHash) := by
  unfold dnsFinishTrack at h
  split at h <;> try cases h
  split at h <;> try cases h
  split at h <;> try cases h
  rename_i hhash
  split at h <;> try cases h
  unfold dnsTrackAllowedQuery at h
  split at h <;> cases h
  rename_i hload
  exact ⟨_, _, _, rfl, rfl, hload, hhash⟩

lemma handleQuery_ipv4A {m : Maps} {skb : Skb} {scratch : DnsScratch} {ifindex : UInt32}
    {st : DnsQueryState} {q : DnsAllowKey}
    (h : dnsHandleQuery m skb scratch ifindex = .finish st q) :
    (dnsParseQueryQuestion skb.data).getD false = true := by
  unfold dnsHandleQuery at h
  split at h
  · cases h
  split_ifs at h with _ hfilter
  simp only [dnsQueryShouldFilterIpv4A, Bool.not_eq_true', Bool.not_eq_false, Bool.and_eq_true]
    at hfilter
  exact hfilter.2

/-- **The walkers agree**, and an echoed question leads to the record of its query. -/
theorem name_walkers_agree : (∀ d off, dnsHashQname d off = dnsHashQnameInline d off) ∧
    (∀ d off stop footer hash, dnsHashQname d off = some (stop, footer, hash) →
      ∃ nameEnd, stop = nameEnd + 4 ∧ dnsSkipName d off = some nameEnd) ∧
    ∀ now m skb scratch ifindex st q key, dnsHandleQuery m skb scratch ifindex = .finish st q →
      (dnsFinishTrack now m skb st q).2 = some key → ∀ r now' w, Echoes skb.data r →
      dnsResponseLearningEnabled w ifindex = true →
      (dnsHandleResponse now' w r ifindex key.serverIp key.sourcePort).1.dnsQueryTrack =
        w.dnsQueryTrack.del key := by
  refine ⟨hashQname_copies, fun d off stop footer hash h => ?_, ?_⟩
  · rw [hashQname_copies] at h
    obtain ⟨e, rfl, hloop, -⟩ := hashQname_eq_some.1 h
    exact ⟨e, rfl, (hashLoop_walk (r := []) hloop).2.1 _ le_rfl⟩
  intro now m skb scratch ifindex st q key hquery htrack r now' w hecho hlearn
  obtain ⟨hdr, stop, footer, hif, hid, hload, hhash⟩ := finishTrack_eq_some htrack
  obtain ⟨_, hdr', hload', hhdr', hqd, hsame⟩ := hecho.header
  have hr := hecho.question _ _ _ hhash
  rw [hashQname_copies] at hhash
  -- the filter has checked the type where the skip loop ended, which is where the hash ends
  have hfooter : dnsQuestionFooterIsIpv4A footer = true := by
    obtain ⟨e, -, hloop, hq⟩ := hashQname_eq_some.1 hhash
    have hskip : dnsSkipName skb.data dnsHdrLen = some e :=
      (hashLoop_walk (r := []) hloop).2.1 _ le_rfl
    simpa [dnsParseQueryQuestion, hskip, hq] using handleQuery_ipv4A hquery
  rw [dnsHandleQuery_ifindex hquery] at hif
  cases hload.symm.trans hload'
  subst hif
  exact handleResponse_track now' w hlearn hhdr' hqd (hsame.trans hid.symm)
    (hashQname_echo hhash hr) hfooter

/-- The answer to a query for `qq.com`. -/
theorem answer_finds_query : ∃ m d st q key,
    dnsHandleQuery m (queryPacket 7 (message d)) NatPair.demoScratch 7 = .finish st q ∧
      (dnsFinishTrack (.ofNs 1) m (queryPacket 7 (message d)) st q).2 = some key ∧
      (dnsHandleResponse (.ofNs 2) m ([18, 52, 129, 128, 0, 1, 0, 1, 0, 0, 0, 0] ++
        (message d).drop 12) 7 key.serverIp key.sourcePort).1.dnsQueryTrack =
        m.dnsQueryTrack.del key := by
  obtain ⟨m, hrec, hlearn⟩ : ∃ m, (fromCube NatPair.demoEnv (.ofNs 1) m (queryPacket 7
      (message [ascii "qq", ascii "com"])) NatPair.demoScratch).tracked.isSome = true ∧
      dnsResponseLearningEnabled m 7 = true :=
    ⟨(install noMaps 7 0x0200000a [] 1 demoOptions false).1, by decide +kernel⟩
  obtain ⟨-, -, st, q, -, -, hq, hrec⟩ := fromCube_recorded hrec
  obtain ⟨key, hkey⟩ := isSome_iff_exists.1 hrec
  refine ⟨m, _, st, q, key, hq, hkey, name_walkers_agree.2.2 _ _ _ _ _ _ _ _ hq hkey _ _ _
    ⟨⟨_, _, rfl, rfl, rfl, rfl⟩, fun _ _ _ _ i hi _ => ?_⟩ hlearn⟩
  rw [List.getElem?_append_right hi, List.getElem?_drop]
  congr 1
  exact Nat.add_sub_of_le hi

/-- The hashers return the offset after the footer. -/
theorem hashers_pass_footer : ∃ d off stop footer hash nameEnd,
    dnsHashQname d off = some (stop, footer, hash) ∧
    dnsHashQnameInline d off = some (stop, footer, hash) ∧ dnsSkipName d off = some nameEnd ∧
    stop ≠ nameEnd :=
  ⟨[0, 0, 1, 0, 1], 0, 5, ⟨1, 1⟩, _, 1, rfl, rfl, rfl, by decide⟩

end CubeSandbox.DnsEcho
