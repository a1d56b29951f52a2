import CubeSandbox.Programs

/-!
What one packet can do to the session tables.

`SessChange` lists the possible changes with their guards, and `fromCube_step` and
`fromWorld_step` say that a run of a program makes one of them. Every invariant of the
tables is proved from these two statements; the programs are not unfolded again.
-/

namespace CubeSandbox.Vs

open Lpm

/-- Every slot has an address and a port to offer. -/
def SlotsOk (m : Maps) : Prop := ∀ i, (m.snatIplist i).ip ≠ 0 ∧ (m.snatIplist i).maxPort ≠ 0

instance (m : Maps) : Decidable (SlotsOk m) :=
  inferInstanceAs (Decidable (∀ i, (m.snatIplist i).ip ≠ 0 ∧ (m.snatIplist i).maxPort ≠ 0))

/-- A change of the slots that only moves their ports on. -/
def SlotsKept (sl sl' : Fin maxSnatIps → SnatIp) : Prop :=
  ∀ i, (sl' i).ip = (sl i).ip ∧ ((sl i).maxPort ≠ 0 → (sl' i).maxPort ≠ 0)

lemma SlotsKept.rfl {sl : Fin maxSnatIps → SnatIp} : SlotsKept sl sl := fun _ => ⟨.refl _, id⟩

lemma SlotsKept.trans {sl1 sl2 sl3 : Fin maxSnatIps → SnatIp} (h : SlotsKept sl1 sl2)
    (h' : SlotsKept sl2 sl3) : SlotsKept sl1 sl3 :=
  fun i => ⟨(h' i).1.trans (h i).1, fun hp => (h' i).2 ((h i).2 hp)⟩

lemma nextPort_ne_zero (p : UInt16) : nextPort p ≠ 0 := by
  unfold nextPort
  split
  · decide
  rename_i hne
  intro h0
  have hp : p = 0xffff := by
    rw [← add_sub_cancel_right p 1, h0]
    decide
  exact hne (by simp [hp])

lemma slotsKept_bumpPort (m : Maps) (i : Fin maxSnatIps) :
    SlotsKept m.snatIplist (bumpPort m i).snatIplist := by
  intro j
  by_cases hj : j = i
  · subst hj
    simp [bumpPort, nextPort_ne_zero]
  · simp [bumpPort, Function.update_of_ne hj]

lemma htons_htons (p : UInt16) : htons (htons p) = p := by
  apply UInt16.toBitVec_inj.1
  apply BitVec.eq_of_getLsbD_eq
  intro i hi
  have h16 : i < 16 := hi
  change BitVec.getLsbD ((((p.toBitVec <<< 8) ||| (p.toBitVec >>> 8)) <<< 8) |||
    (((p.toBitVec <<< 8) ||| (p.toBitVec >>> 8)) >>> 8)) i = p.toBitVec.getLsbD i
  simp only [BitVec.getLsbD_or, BitVec.getLsbD_shiftLeft, BitVec.getLsbD_ushiftRight]
  rcases Nat.lt_or_ge i 8 with h8 | h8
  · have hhigh : p.toBitVec.getLsbD (8 + (8 + i)) = false := BitVec.getLsbD_of_ge _ _ (by omega)
    simp [h8, hhigh, show 8 + i < 16 by omega]
  have hhigh : p.toBitVec.getLsbD (8 + (8 + i)) = false := BitVec.getLsbD_of_ge _ _ (by omega)
  simp [hhigh, h16, show ¬ i < 8 by omega, show i - 8 < 8 by omega,
    show 8 + (i - 8) = i by omega, show ¬ 8 + i < 16 by omega]

lemma htons_ne_zero {p : UInt16} (h : p ≠ 0) : htons p ≠ 0 := by
  intro h0
  apply h
  rw [← htons_htons p, h0]
  rfl

/-! ### Opening a session -/

/-- A port was reserved for the session: its reverse key was free and is now taken. -/
def Reserved (m : Maps) (ekey : SessionKey) (nodeIp : UInt32) (port : UInt16)
    (sl : Fin maxSnatIps → SnatIp) (m' : Maps) : Prop :=
  m.ingressSessions (mirrorKey ekey nodeIp port) = none ∧ m' = (m.setSlots sl).setIngress
      (m.ingressSessions.set (mirrorKey ekey nodeIp port) (ingressOf ekey))

variable {m m' : Maps}

lemma pickLoop_spec {ekey : SessionKey} {i : Fin maxSnatIps} {n : Nat}
    {r : Option UInt16} (h : pickLoop ekey i n m = (m', r)) :
    ∃ sl, SlotsKept m.snatIplist sl ∧ ((r = none ∧ m' = m.setSlots sl) ∨
        ∃ port, r = some port ∧ (SlotsOk m → port ≠ 0) ∧
          Reserved m ekey (m.snatIplist i).ip port sl m') := by
  induction n generalizing m with
  | zero =>
    obtain ⟨rfl, rfl⟩ := Prod.mk.inj h
    exact ⟨m.snatIplist, .rfl, .inl ⟨rfl, rfl⟩⟩
  | succ n ih =>
    simp only [pickLoop] at h
    have hkept := slotsKept_bumpPort m i
    split at h
    · -- the port is free
      rename_i ing hnew
      cases h
      obtain ⟨hfree, rfl⟩ := KMap.setNew_eq_some.1 hnew
      rw [(hkept i).1] at hfree ⊢
      exact ⟨_, hkept, .inr ⟨_, rfl, fun hok => htons_ne_zero (hok i).2, hfree, rfl⟩⟩
    obtain ⟨sl, hsl, hr⟩ := ih h
    refine ⟨sl, hkept.trans hsl, hr.imp id ?_⟩
    rintro ⟨port, hr, hne, hres⟩
    rw [(hkept i).1] at hres
    refine ⟨port, hr, fun hok => hne fun j => ?_, hres⟩
    exact ⟨(hkept j).1 ▸ (hok j).1, (hkept j).2 (hok j).2⟩

/-- The facts about a session that was just created. -/
structure Fresh (env : Env) (now : Ktime) (m : Maps) (vmIfindex : UInt32) (k : SessionKey)
    (s : NatSession) : Prop where
  allowed : sessionPolicyAllowed env now m vmIfindex k.dstIp = true
  tap : s.vmIfindex = vmIfindex
  ip : s.vmIp = k.srcIp
  port : s.vmPort = k.srcPort
  access : s.accessTime = now.ns
  close : s.activeClose = 0
  free : m.ingressSessions (mirrorKey k s.nodeIp s.nodePort) = none

/-- Opening a session for an absent key creates it, does nothing, or, when a slot has no address or
no port, leaves a reverse key behind. -/
inductive OpenStep (env : Env) (now : Ktime) (m : Maps) (vmIfindex : UInt32) (k : SessionKey)
    (st : UInt8) (sl : Fin maxSnatIps → SnatIp) : Maps → CreateResult → Prop
  | opened (s : NatSession) (hs : Fresh env now m vmIfindex k s) (hst : s.state = st) :
      OpenStep env now m vmIfindex k st sl
        (((m.setSlots sl).setEgress (m.egressSessions.set k s)).setIngress
          (m.ingressSessions.set (mirrorKey k s.nodeIp s.nodePort) (ingressOf k)))
        .ok
  | refused (r : CreateResult) (hr : r ≠ .ok) :
      OpenStep env now m vmIfindex k st sl (m.setSlots sl) r
  | leaked (ip : UInt32) (port : UInt16) (m' : Maps) (hbad : ¬ SlotsOk m)
      (hres : Reserved m k ip port sl m') : OpenStep env now m vmIfindex k st sl m' .failed

lemma set_del_of_none {K V : Type} [DecidableEq K] {f : KMap K V} {k : K} {v : V}
    (h : f k = none) : (f.set k v).del k = f := by
  funext x
  by_cases hx : x = k
  · subst hx; simp [h]
  · rw [KMap.del_ne _ hx, KMap.set_ne _ _ hx]

variable {s s' : NatSession} {r : CreateResult} {st : UInt8} {k : SessionKey}

lemma createNatSession_spec {env : Env} {now : Ktime} {m1 : Maps}
    {vmIfindex : UInt32} {slot : SnatIp} {port : UInt16} {sl : Fin maxSnatIps → SnatIp}
    (hres : Reserved m k slot.ip port sl m1)
    (h : createNatSession env now m1 k vmIfindex slot port st = (m', r)) :
    OpenStep env now m vmIfindex k st sl m' r := by
  obtain ⟨hfree, rfl⟩ := hres
  set m1 := (m.setSlots sl).setIngress
    (m.ingressSessions.set (mirrorKey k slot.ip port) (ingressOf k)) with hm1
  have hundo : m1.setIngress (m1.ingressSessions.del (mirrorKey k slot.ip port)) =
      m.setSlots sl := by
    change (m.setSlots sl).setIngress (KMap.del (KMap.set _ _ _) _) = _
    rw [set_del_of_none hfree]
    rfl
  have hpol' : sessionPolicyAllowed env now m1 vmIfindex k.dstIp =
      sessionPolicyAllowed env now m vmIfindex k.dstIp := rfl
  simp only [createNatSession, hundo, hpol'] at h
  cases hpol : sessionPolicyAllowed env now m vmIfindex k.dstIp with
  | false =>
    simp only [hpol, Bool.not_false, if_true] at h
    cases h
    exact .refused _ (by simp)
  | true =>
    simp only [hpol, Bool.not_true, Bool.false_eq_true, if_false] at h
    split at h
    · rename_i eg hnew
      obtain ⟨-, rfl⟩ := KMap.setNew_eq_some.1 hnew
      cases h
      exact .opened (newSession k now vmIfindex slot port st)
        ⟨hpol, rfl, rfl, rfl, rfl, rfl, hfree⟩ rfl
    · cases h
      exact .refused _ (by simp)

lemma openSession_spec {env : Env} {now : Ktime} {mvmIp vmIfindex : UInt32}
    (h : openSession env now m mvmIp k vmIfindex st = (m', r)) :
    ∃ sl, SlotsKept m.snatIplist sl ∧ OpenStep env now m vmIfindex k st sl m' r := by
  unfold openSession pickSnatIpPort at h
  rcases hp : pickLoop k (snatIndex mvmIp) maxRetries m with ⟨m1, _ | port⟩
  · obtain ⟨sl, hsl, ⟨-, rfl⟩ | ⟨port, hport, -⟩⟩ := pickLoop_spec hp
    · simp only [hp] at h
      cases h
      exact ⟨sl, hsl, .refused _ (by simp)⟩
    · simp at hport
  obtain ⟨sl, hsl, ⟨hnone, -⟩ | ⟨port', hport, hne, hres⟩⟩ := pickLoop_spec hp
  · simp at hnone
  cases hport
  have hslot : (m1.snatIplist (snatIndex mvmIp)).ip = (m.snatIplist (snatIndex mvmIp)).ip := by
    rw [hres.2]; exact (hsl _).1
  rw [← hslot] at hres
  simp only [hp] at h
  refine ⟨sl, hsl, ?_⟩
  split at h
  · rename_i hbad
    cases h
    refine .leaked _ _ _ (fun hok => ?_) hres
    simp only [Bool.or_eq_true, beq_iff_eq, hslot] at hbad
    exact hbad.elim (hok _).1 (hne hok)
  · exact createNatSession_spec hres h

/-! ### Changes of the session tables -/

/-- The key belongs to the sandbox with this metadata. -/
def Owns (mt : MvmMeta) (k : SessionKey) : Prop := k.srcIp = mt.ip ∧ k.version = mt.version

/-- The key that a packet reuses: a connection request for a closed session. -/
def reusedKey (m : Maps) (mt : MvmMeta) (skb : Skb) : Option SessionKey :=
  (pullHeaders skb).bind fun (l3, l4) =>
    let k := tcpKey mt l3 l4
    let closed := (m.egressSessions k).any fun s => s.state == sCL || s.state == sTW
    if pureSyn l4 && closed then some k else none

/-- The key was absent, or the packet reuses it and the closed session is removed. -/
inductive Closed (m : Maps) (mt : MvmMeta) (skb : Skb) (k : SessionKey) :
    KMap SessionKey NatSession → KMap SessionKey IngressSession → Prop
  | absent (hk : m.egressSessions k = none) : Closed m mt skb k m.egressSessions m.ingressSessions
  | closed (s : NatSession) (hk : m.egressSessions k = some s)
      (hre : reusedKey m mt skb = some k) :
      Closed m mt skb k (m.egressSessions.del k)
        (m.ingressSessions.del (mirrorKey k s.nodeIp s.nodePort))

/-- What a packet of a sandbox can do to the tables, with the sessions it uses and opens. -/
inductive SessChange (env : Env) (now : Ktime) (m : Maps) (skb : Skb) (mt : MvmMeta) :
    KMap SessionKey NatSession → KMap SessionKey IngressSession → Option SessionKey →
      Option SessionKey → Prop
  | keep : SessChange env now m skb mt m.egressSessions m.ingressSessions none none
  | touch (k : SessionKey) (s s' : NatSession) (via : Option SessionKey) (hown : Owns mt k)
      (hk : m.egressSessions k = some s) (hb : s'.binding = s.binding)
      (hvia : via = none ∨ via = some k) :
      SessChange env now m skb mt (m.egressSessions.set k s') m.ingressSessions via none
  | opened (k : SessionKey) (s : NatSession) (e : KMap SessionKey NatSession)
      (i : KMap SessionKey IngressSession) (via : Option SessionKey) (hown : Owns mt k)
      (hc : Closed m mt skb k e i)
      (hs : Fresh env now ((m.setEgress e).setIngress i) skb.ifindex k s)
      (hvia : via = none ∨ via = some k) :
      SessChange env now m skb mt (e.set k s)
        (i.set (mirrorKey k s.nodeIp s.nodePort) (ingressOf k)) via (some k)
  | closed (k : SessionKey) (e : KMap SessionKey NatSession) (i : KMap SessionKey IngressSession)
      (hown : Owns mt k) (hc : Closed m mt skb k e i) : SessChange env now m skb mt e i none none
  | leaked (k : SessionKey) (ip : UInt32) (port : UInt16) (e : KMap SessionKey NatSession)
      (i : KMap SessionKey IngressSession) (hown : Owns mt k) (hc : Closed m mt skb k e i)
      (hbad : ¬ SlotsOk m) (hfree : i (mirrorKey k ip port) = none) :
      SessChange env now m skb mt e (i.set (mirrorKey k ip port) (ingressOf k)) none none

/-- A result that differs from the maps before in the slots and by a change of the tables. -/
def Changes (env : Env) (now : Ktime) (m : Maps) (skb : Skb) (mt : MvmMeta) (m' : Maps)
    (via created : Option SessionKey) : Prop :=
  ∃ sl e i, SlotsKept m.snatIplist sl ∧ m' = ((m.setSlots sl).setEgress e).setIngress i ∧
    SessChange env now m skb mt e i via created

section
variable {env : Env} {now : Ktime} {m m' : Maps} {skb : Skb} {mt : MvmMeta}
  {k : SessionKey} {e : KMap SessionKey NatSession} {i : KMap SessionKey IngressSession}

lemma changes_keep : Changes env now m skb mt m none none :=
  ⟨m.snatIplist, m.egressSessions, m.ingressSessions, .rfl, rfl, .keep⟩

lemma changes_touch {via : Option SessionKey} (hown : Owns mt k) (hk : m.egressSessions k = some s)
    (hb : s'.binding = s.binding) (hvia : via = none ∨ via = some k) :
    Changes env now m skb mt (m.setEgress (m.egressSessions.set k s')) via none :=
  ⟨m.snatIplist, _, m.ingressSessions, .rfl, rfl, .touch k s s' via hown hk hb hvia⟩

lemma openSession_changes {mvmIp : UInt32} (hown : Owns mt k) (hc : Closed m mt skb k e i)
    (h : openSession env now ((m.setEgress e).setIngress i) mvmIp k skb.ifindex st = (m', r)) :
    (r = .ok ∧ ∀ via, via = none ∨ via = some k → Changes env now m skb mt m' via (some k)) ∨
      (r ≠ .ok ∧ Changes env now m skb mt m' none none) := by
  obtain ⟨sl, hsl, hstep⟩ := openSession_spec h
  cases hstep with
  | opened s hs hst =>
    exact .inl ⟨rfl, fun via hvia => ⟨sl, _, _, hsl, rfl, .opened k s e i via hown hc hs hvia⟩⟩
  | refused _ hr => exact .inr ⟨hr, sl, e, i, hsl, rfl, .closed k e i hown hc⟩
  | leaked ip port _ hbad hres =>
    obtain ⟨hfree, rfl⟩ := hres
    exact .inr ⟨by simp, sl, e, _, hsl, rfl, .leaked k ip port e i hown hc hbad hfree⟩

/-- The three results of a NAT function that matter here. -/
def NatRes.Changes {α : Type} (env : Env) (now : Ktime) (m : Maps) (skb : Skb)
    (mt : MvmMeta) (res : NatRes α) : Prop :=
  Vs.Changes env now m skb mt res.maps res.via res.created

lemma translate_touch {α : Type} (ok fail : α) (hown : Owns mt k) (hk : m.egressSessions k = some s)
    (hb : s'.binding = s.binding) :
    NatRes.Changes env now m skb mt
      (translate skb (m.setEgress (m.egressSessions.set k s')) k none ok fail) := by
  unfold translate
  split
  · exact changes_touch hown hk hb (.inr rfl)
  · exact changes_touch hown hk hb (.inl rfl)

lemma translate_opened {α : Type} (ok fail : α)
    (h : ∀ via, via = none ∨ via = some k → Changes env now m skb mt m' via (some k)) :
    NatRes.Changes env now m skb mt (translate skb m' k (some k) ok fail) := by
  unfold translate
  split
  · exact h _ (.inr rfl)
  · exact h _ (.inl rfl)

end

section
variable {env : Env} {now : Ktime} {m : Maps} {skb : Skb} {mt : MvmMeta}

lemma session_changes {st : UInt8} {update : NatSession → NatSession} (hown : Owns mt k)
    (hb : ∀ s, (update s).binding = s.binding) :
    NatRes.Changes env now m skb mt (match m.egressSessions k with
      | some s =>
        translate skb (m.setEgress (m.egressSessions.set k (update s))) k none s.nodeIfindex 0
      | none =>
        match openSession env now m mt.ip k skb.ifindex st with
        | (m, .ok) =>
          match m.egressSessions k with
          | some s => translate skb m k (some k) s.nodeIfindex 0
          | none => ⟨m, 0, none, some k⟩
        | (m, _) => ⟨m, 0, none, none⟩) := by
  cases hk : m.egressSessions k with
  | some s => exact translate_touch _ _ hown hk (hb s)
  | none =>
    rcases hopen : openSession env now m mt.ip k skb.ifindex st with ⟨m', r⟩
    obtain ⟨rfl, h⟩ | ⟨hr, h⟩ := openSession_changes hown (.absent hk) hopen
    · dsimp only
      split
      · exact translate_opened _ _ h
      · exact h _ (.inl rfl)
    · cases r with
      | ok => exact absurd rfl hr
      | deniedByPolicy | failed => exact h

lemma doIcmpNat_changes : NatRes.Changes env now m skb mt (doIcmpNat env now m skb mt) := by
  unfold doIcmpNat
  rcases pullHeadersIcmp skb with _ | ⟨l3, l4⟩
  · exact changes_keep
  dsimp only
  split
  · exact changes_keep
  · exact session_changes ⟨rfl, rfl⟩ fun s => updateIcmpSession_binding _ s _

lemma doUdpNat_changes : NatRes.Changes env now m skb mt (doUdpNat env now m skb mt) := by
  unfold doUdpNat
  rcases pullHeadersUdp skb with _ | ⟨l3, l4⟩
  · exact changes_keep
  · exact session_changes ⟨rfl, rfl⟩ fun s => updateUdpSession_binding _ s _

lemma createTcp_changes {e : KMap SessionKey NatSession}
    {i : KMap SessionKey IngressSession} (hown : Owns mt k) (hc : Closed m mt skb k e i) :
    NatRes.Changes env now m skb mt
      (createTcp env now ((m.setEgress e).setIngress i) skb mt k) := by
  unfold createTcp
  rcases hopen : openSession env now ((m.setEgress e).setIngress i) mt.ip k skb.ifindex sSS
    with ⟨m', r⟩
  obtain ⟨rfl, h⟩ | ⟨hr, h⟩ := openSession_changes hown hc hopen
  · dsimp only
    split
    · exact translate_opened _ _ h
    · exact h _ (.inl rfl)
  cases r with
  | ok => exact absurd rfl hr
  | deniedByPolicy => exact h
  | failed => exact h

lemma doTcpNat_changes : NatRes.Changes env now m skb mt (doTcpNat env now m skb mt) := by
  unfold doTcpNat
  rcases hpull : pullHeaders skb with _ | ⟨l3, l4⟩
  · exact changes_keep
  dsimp only
  have hown : Owns mt (tcpKey mt l3 l4) := ⟨rfl, rfl⟩
  cases hk : m.egressSessions (tcpKey mt l3 l4) with
  | some sess =>
    have hupdate : NatRes.Changes env now m skb mt
        (updateTcp now m skb l4 (tcpKey mt l3 l4) sess) :=
      translate_touch _ _ hown hk (updateSession_binding _ _ _ _ _ _ _)
    dsimp only
    split
    · rename_i hsyn
      split
      · rename_i hst
        have hre : reusedKey m mt skb = some (tcpKey mt l3 l4) := by
          simp [reusedKey, hpull, hk, hsyn, hst]
        exact createTcp_changes hown (.closed sess hk hre)
      · exact hupdate
    · exact hupdate
  | none =>
    split
    · exact createTcp_changes hown (.absent hk)
    · exact changes_keep

end

/-! ### The two programs -/

/-- What a packet does to the tracked queries: nothing, or it records one of its device. -/
def TrackChange (m : Maps) (ifindex : UInt32) (q : KMap DnsQueryTrackKey DnsQueryTrackValue)
    (tracked : Option DnsQueryTrackKey) : Prop :=
  (tracked = none ∧ q = m.dnsQueryTrack) ∨
    ∃ key v, tracked = some key ∧ key.ifindex = ifindex ∧ q = m.dnsQueryTrack.set key v

variable (now : Ktime)

lemma dnsFinishTrack_change (m : Maps) (skb : Skb) (st : DnsQueryState) (question : DnsAllowKey) :
    ∃ q, (dnsFinishTrack now m skb st question).1 = m.setTrack q ∧
      TrackChange m st.ifindex q (dnsFinishTrack now m skb st question).2 := by
  have hnone : ∃ q, m = m.setTrack q ∧ TrackChange m st.ifindex q none :=
    ⟨m.dnsQueryTrack, rfl, .inl ⟨rfl, rfl⟩⟩
  unfold dnsFinishTrack
  repeat' split
  all_goals try exact hnone
  unfold dnsTrackAllowedQuery
  split
  · exact ⟨_, rfl, .inr ⟨_, _, rfl, rfl, rfl⟩⟩
  · exact hnone

/-- **A run of `from_cube`** leaves the maps alone, or is for a packet of a registered sandbox that
may record a query and makes one of the listed changes. -/
theorem fromCube_step (env : Env) (now : Ktime) (m : Maps) (skb : Skb) (scratch : DnsScratch) :
    (∃ act, fromCube env now m skb scratch = .just m act) ∨
      ∃ mt q, m.ifindexToMvmmeta skb.ifindex = some mt ∧
        TrackChange m skb.ifindex q (fromCube env now m skb scratch).tracked ∧
        Changes env now (m.setTrack q) skb mt (fromCube env now m skb scratch).maps
          (fromCube env now m skb scratch).via (fromCube env now m skb scratch).created := by
  have hnone : TrackChange m skb.ifindex m.dnsQueryTrack none := .inl ⟨rfl, rfl⟩
  unfold fromCube
  split
  · exact .inl ⟨_, rfl⟩
  split
  · rename_i mt l3 hmt hl3
    split
    · exact .inl ⟨_, rfl⟩
    split
    · exact .inl ⟨_, rfl⟩
    split
    · exact .inl ⟨_, rfl⟩
    unfold natFromCube
    split
    · exact .inl ⟨_, rfl⟩
    split
    · repeat' split
      all_goals exact .inl ⟨_, rfl⟩
    split
    · -- TCP
      unfold tcpFromCube
      split
      · exact .inl ⟨_, rfl⟩
      split
      · exact .inl ⟨_, rfl⟩
      exact .inr ⟨mt, _, hmt, hnone, doTcpNat_changes⟩
    split
    · -- UDP
      unfold udpFromCube
      split
      · exact .inl ⟨_, rfl⟩
      split
      · split
        · exact .inr ⟨mt, _, hmt, hnone, doUdpNat_changes⟩
        · exact .inl ⟨_, rfl⟩
        rename_i st question hq
        have hst := dnsHandleQuery_ifindex hq
        obtain ⟨q, hm, htrack⟩ := dnsFinishTrack_change now m skb st question
        rw [hst] at htrack
        refine .inr ⟨mt, q, hmt, htrack, ?_⟩
        simp only [hm]
        exact doUdpNat_changes
      · exact .inr ⟨mt, _, hmt, hnone, doUdpNat_changes⟩
    split
    · -- ICMP
      exact .inr ⟨mt, _, hmt, hnone, doIcmpNat_changes⟩
    · exact .inl ⟨_, rfl⟩
  · exact .inl ⟨_, rfl⟩

/-- The maps differ at most in the allow list of the device, and only if something was learned. -/
def AllowChange (m : Maps) (ifindex : UInt32) (m' : Maps) (learned : Bool) : Prop :=
  ∃ al, m' = m.setAllow al ∧ (∀ j, j ≠ ifindex → al j = m.allowOutV2 j) ∧
    (learned = false → al = m.allowOutV2)

lemma allowChange_none (m : Maps) (ifindex : UInt32) (learned : Bool) :
    AllowChange m ifindex m learned := ⟨m.allowOutV2, rfl, fun _ _ => rfl, fun _ => rfl⟩

lemma dnsLearnResponseIp_allow (m : Maps) (ifindex ip ttl : UInt32) (flags : UInt8) :
    AllowChange m ifindex (dnsLearnResponseIp now m ifindex ip ttl flags) true := by
  unfold dnsLearnResponseIp
  split
  · exact allowChange_none m ifindex true
  · exact ⟨_, rfl, fun j hj => KMap.set_ne _ _ hj, by simp⟩

lemma dnsProcessResponseAnswer_allow (m : Maps) (d : List UInt8) (cursor : Nat)
    (ifindex : UInt32) (flags : UInt8) :
    AllowChange m ifindex (dnsProcessResponseAnswer now m d cursor ifindex flags).maps
      (dnsProcessResponseAnswer now m d cursor ifindex flags).learned := by
  unfold dnsProcessResponseAnswer
  split
  · exact allowChange_none m ifindex _
  split
  · exact allowChange_none m ifindex _
  dsimp only
  split
  · split
    · exact allowChange_none m ifindex _
    · exact dnsLearnResponseIp_allow _ _ _ _ _ _
  · exact allowChange_none m ifindex _

lemma answerLoop_allow (d : List UInt8) (ifindex : UInt32) (flags : UInt8)
    (n left : Nat) (m : Maps) (cursor : Nat) (learned : Bool) :
    AllowChange m ifindex (answerLoop now d ifindex flags n left m cursor learned).1
        (answerLoop now d ifindex flags n left m cursor learned).2 ∧
      ((answerLoop now d ifindex flags n left m cursor learned).2 = false → learned = false) := by
  induction n generalizing left m cursor learned with
  | zero => exact ⟨allowChange_none m ifindex _, id⟩
  | succ n ih =>
    cases left with
    | zero => exact ⟨allowChange_none m ifindex _, id⟩
    | succ left =>
      obtain ⟨al, hal, hother, hsilent⟩ :=
        dnsProcessResponseAnswer_allow now m d cursor ifindex flags
      unfold answerLoop
      dsimp only
      split
      · refine ⟨⟨al, hal, hother, fun h => hsilent ?_⟩, fun h => ?_⟩
        · exact (Bool.or_eq_false_iff.1 h).2
        · exact (Bool.or_eq_false_iff.1 h).1
      rename_i cursor' _
      rw [hal]
      obtain ⟨⟨al', hal', hother', hsilent'⟩, hl⟩ := ih left (m.setAllow al) cursor'
        (learned || (dnsProcessResponseAnswer now m d cursor ifindex flags).learned)
      refine ⟨⟨al', hal', fun j hj => (hother' j hj).trans (hother j hj), fun h => ?_⟩,
        fun h => (Bool.or_eq_false_iff.1 (hl h)).1⟩
      exact (hsilent' h).trans (hsilent (Bool.or_eq_false_iff.1 (hl h)).2)

/-- A response changes the allow lists and the tracked queries of the device `ifindex` only, and
what it learns it learns through a tracked query of that device. -/
structure AnswerChange (m : Maps) (ifindex : UInt32)
    (al : KMap UInt32 (Trie NetPolicyValueV2)) (tr : KMap DnsQueryTrackKey DnsQueryTrackValue)
    (learned : Option DnsQueryTrackKey) : Prop where
  allow : ∀ j, j ≠ ifindex → al j = m.allowOutV2 j
  silent : learned = none → al = m.allowOutV2
  track : tr = m.dnsQueryTrack ∨ ∃ key, tr = m.dnsQueryTrack.del key
  learned : ∀ key, learned = some key → key.ifindex = ifindex ∧ ∃ v, m.dnsQueryTrack key = some v

lemma answerChange_none (m : Maps) (ifindex : UInt32) :
    AnswerChange m ifindex m.allowOutV2 m.dnsQueryTrack none :=
  ⟨fun _ _ => rfl, fun _ => rfl, .inl rfl, fun _ h => by cases h⟩

lemma dnsHandleResponse_change (m : Maps) (d : List UInt8)
    (ifindex serverIp : UInt32) (sourcePort : UInt16) :
    ∃ al tr, (dnsHandleResponse now m d ifindex serverIp sourcePort).1 =
        (m.setAllow al).setTrack tr ∧
      AnswerChange m ifindex al tr (dnsHandleResponse now m d ifindex serverIp sourcePort).2 := by
  have hnone : ∃ al tr, m = (m.setAllow al).setTrack tr ∧ AnswerChange m ifindex al tr none :=
    ⟨_, _, rfl, answerChange_none m ifindex⟩
  unfold dnsHandleResponse
  split
  · exact hnone
  split
  · exact hnone
  rename_i hdr _
  split
  · exact hnone
  split
  · exact hnone
  rename_i cursor question hash _
  split
  · exact hnone
  dsimp only
  split
  · exact hnone
  rename_i query hq
  set key : DnsQueryTrackKey := ⟨ifindex, serverIp, sourcePort, hdr.id, hash⟩
  have hkey : ∀ (b : Bool) key', (if b then some key else none) = some key' →
      key'.ifindex = ifindex ∧ ∃ v, m.dnsQueryTrack key' = some v := by
    intro b key' hb
    cases b
    · simp at hb
    · cases hb
      exact ⟨rfl, query, hq⟩
  split
  · exact ⟨_, _, rfl, fun _ _ => rfl, fun _ => rfl, .inr ⟨key, rfl⟩, hkey false⟩
  split
  · exact ⟨_, _, rfl, fun _ _ => rfl, fun _ => rfl, .inr ⟨key, rfl⟩, hkey false⟩
  rename_i ancount _
  obtain ⟨⟨al, hal, hother, hsilent⟩, -⟩ := answerLoop_allow now d ifindex query.flags
    dnsMaxResponseAnswers ancount.toNat m cursor false
  rw [hal]
  exact ⟨al, _, rfl, hother, fun h => hsilent (by simpa using h), .inr ⟨key, rfl⟩, hkey _⟩

/-- The session of the packet is updated in place, and if the packet is delivered, it goes to the
device of the session, which an answer in it concerns as well. -/
def Delivered (m : Maps) (out : WorldOut) : Prop :=
  ∃ k s s' al tr, m.egressSessions k = some s ∧ s'.binding = s.binding ∧
    (out.via = none ∨ (out.via = some k ∧ out.act = .redirect s.vmIfindex false)) ∧
    out.maps = ((m.setAllow al).setTrack tr).setEgress (m.egressSessions.set k s') ∧
    AnswerChange m s.vmIfindex al tr out.learned

lemma lookupSession_egress {ikey : SessionKey} (h : lookupSession m ikey = some (k, s)) :
    m.egressSessions k = some s := by
  simp only [lookupSession, Option.bind_eq_some_iff, Option.map_eq_some_iff, Prod.mk.injEq] at h
  obtain ⟨_, -, _, hs, rfl, rfl⟩ := h
  exact hs

lemma deliver_delivered (skb : Skb)
    {al : KMap UInt32 (Trie NetPolicyValueV2)} {tr : KMap DnsQueryTrackKey DnsQueryTrackValue}
    {learned : Option DnsQueryTrackKey} (hk : m.egressSessions k = some s)
    (hb : s'.binding = s.binding) (ha : AnswerChange m s.vmIfindex al tr learned) :
    Delivered m (deliver ((m.setAllow al).setTrack tr) skb k s' learned) := by
  have htap : s'.vmIfindex = s.vmIfindex := congrArg NatSession.Binding.vmIfindex hb
  refine ⟨k, s, s', al, tr, hk, hb, ?_, ?_, ?_⟩
  all_goals unfold deliver; dsimp only; split
  · exact .inr ⟨rfl, by rw [htap]⟩
  · exact .inl rfl
  · rfl
  · rfl
  · exact ha
  · exact ha

lemma udpNatSession_step (m : Maps) (skb : Skb) (l3 : IpHdr) (l4 : UdpHdr) :
    (∃ act, udpNatSession now m skb l3 l4 = .just m act) ∨
      Delivered m (udpNatSession now m skb l3 l4) := by
  unfold udpNatSession
  dsimp only
  split
  · exact .inl ⟨_, rfl⟩
  rename_i k s hlook
  have hk := lookupSession_egress hlook
  have hb := updateUdpSession_binding .reply s now.ns
  split
  · split
    · obtain ⟨al, tr, hm, ha⟩ :=
        dnsHandleResponse_change now m skb.data s.vmIfindex l3.saddr s.vmPort
      -- the answer leaves the session tables alone, so the same session is found again
      have hagain := hlook
      rw [show lookupSession m _ = lookupSession ((m.setAllow al).setTrack tr) _ from rfl]
        at hagain
      simp only [hm, udpFinish, hagain]
      exact .inr (deliver_delivered skb hk hb ha)
    · exact .inl ⟨_, rfl⟩
  · simp only [udpFinish, hlook]
    exact .inr (deliver_delivered skb hk hb (answerChange_none m _))

/-- **A run of `from_world`** leaves the maps alone, or updates one session in place and perhaps
learns an answer for its device. -/
theorem fromWorld_step (env : Env) (now : Ktime) (m : Maps) (skb : Skb) :
    (∃ act, fromWorld env now m skb = .just m act) ∨ Delivered m (fromWorld env now m skb) := by
  unfold fromWorld
  split
  · exact .inl ⟨_, rfl⟩
  split
  · exact .inl ⟨_, rfl⟩
  split
  · -- TCP
    unfold tcpFromWorld
    split
    · exact .inl ⟨_, rfl⟩
    split
    · exact .inl ⟨_, rfl⟩
    unfold tcpNatSession
    split
    · exact .inl ⟨_, rfl⟩
    rename_i k s hlook
    exact .inr (deliver_delivered skb (lookupSession_egress hlook)
      (updateSession_binding _ _ _ _ _ _ _) (answerChange_none m _))
  split
  · -- UDP
    split
    · exact .inl ⟨_, rfl⟩
    · exact udpNatSession_step _ _ _ _ _
  split
  · -- ICMP
    split
    · exact .inl ⟨_, rfl⟩
    unfold icmpNatSession
    split
    · exact .inl ⟨_, rfl⟩
    split
    · exact .inl ⟨_, rfl⟩
    rename_i k s hlook
    exact .inr (deliver_delivered skb (lookupSession_egress hlook)
      (updateIcmpSession_binding _ _ _) (answerChange_none m _))
  · exact .inl ⟨_, rfl⟩

end CubeSandbox.Vs
