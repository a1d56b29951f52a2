import CubeSandbox.NatStep
import CubeSandbox.Runs
import CubeSandbox.TapModel

/-!
Runs in which devices are registered while packets flow.

Beside the maps, the state carries a history that no program reads: registrations are
numbered in the order in which they are made, and with each session and each tracked query
goes the number of the registration whose packet made it.
-/

namespace CubeSandbox.TapRun

open Vs Tap Pol GoText

/-- The registration that opened a session, and whether the policy then allowed its destination. -/
structure Origin where
  reg : Nat
  allowed : Bool
  deriving DecidableEq

structure St where
  maps : Maps
  pc : ReapPc
  /-- The number of the next registration. -/
  next : Nat
  /-- The registration on a device. -/
  reg : KMap UInt32 Nat
  opened : KMap SessionKey Origin
  asked : KMap DnsQueryTrackKey Nat

inductive Ev
  | add (ifindex ip : UInt32) (id : Bytes) (version : UInt32) (opts : MvmOptions)
  | upsert (ifindex ip : UInt32) (id : Bytes) (version : UInt32) (opts : MvmOptions)
  | upsertMeta (ifindex ip : UInt32) (id : Bytes) (version : UInt32)
  | prepare (ifindex : UInt32)
  | del (ifindex ip : UInt32)
  | cube (now : Ktime) (skb : Skb) (scratch : DnsScratch)
  | world (now : Ktime) (skb : Skb)
  | reap (ev : ReapEv)
  | reapTrack (now : Ktime)

def reapDnsQueryTrack (now : UInt64) (m : Maps) : Maps :=
  m.setTrack (m.dnsQueryTrack.keep fun _ value => now < value.expiresAtNs)

/-- A call that may register a device, under the next number unless the name is refused; whether the
registration lasts is seen in the maps. -/
def register (s : St) (ifindex : UInt32) (id : Bytes) (m : Maps) : St :=
  if id.length ≤ maxIdLength then
    { s with
      maps := m
      next := s.next + 1
      reg := if (m.ifindexToMvmmeta ifindex).isSome then s.reg.set ifindex s.next
        else s.reg.del ifindex }
  else { s with maps := m }

/-- The session that a packet opens and its query are of the registration on its device. -/
def cubeStep (env : Env) (s : St) (now : Ktime) (skb : Skb) (scratch : DnsScratch) : St :=
  let out := fromCube env now s.maps skb scratch
  let reg := (s.reg skb.ifindex).getD 0
  { s with
    maps := out.maps
    opened := match out.created with
      | some k => s.opened.set k ⟨reg, sessionPolicyAllowed env now s.maps skb.ifindex k.dstIp⟩
      | none => s.opened
    asked := match out.tracked with
      | some key => s.asked.set key reg
      | none => s.asked }

def step (env : Env) (s : St) : Ev → Option St
  | .add ifindex ip id version opts =>
    some (register s ifindex id (addTapDevice s.maps ifindex ip id version opts).1)
  | .upsert ifindex ip id version opts =>
    some (register s ifindex id (upsertTapDevice s.maps ifindex ip id version opts).1)
  | .upsertMeta ifindex ip id version =>
    some (register s ifindex id (upsertTapDeviceMeta s.maps ifindex ip id version).1)
  | .prepare ifindex => some { s with maps := (prepareTapDevicePolicy s.maps ifindex).1 }
  | .del ifindex ip =>
    some { s with maps := (delTapDevice s.maps ifindex ip).1, reg := s.reg.del ifindex }
  | .cube now skb scratch => some (cubeStep env s now skb scratch)
  | .world now skb => some { s with maps := (fromWorld env now s.maps skb).maps }
  | .reap ev => (reapStep s.maps s.pc ev).map fun (m, pc) => { s with maps := m, pc := pc }
  | .reapTrack now => some { s with maps := reapDnsQueryTrack now.ns s.maps }

/-- Every session and every query of the later maps was there before, on the same device. -/
structure Inherited (m m' : Maps) : Prop where
  sess : ∀ k se', m'.egressSessions k = some se' →
    ∃ se, m.egressSessions k = some se ∧ se'.vmIfindex = se.vmIfindex
  query : ∀ key v', m'.dnsQueryTrack key = some v' → ∃ v, m.dnsQueryTrack key = some v

variable {m : Maps} {k : SessionKey} {skb : Skb} {env : Env} {now : Ktime} {scratch : DnsScratch}

lemma Inherited.rfl : Inherited m m :=
  ⟨fun _ se h => ⟨se, h, Eq.refl _⟩, fun _ v h => ⟨v, h⟩⟩

lemma Inherited.of_flows {m' : Maps} (h : flows m' = flows m) : Inherited m m' := by
  have he : m'.egressSessions = m.egressSessions := congrArg Flows.egress h
  have ht : m'.dnsQueryTrack = m.dnsQueryTrack := congrArg Flows.track h
  exact ⟨fun _ se hk => ⟨se, he ▸ hk, Eq.refl _⟩, fun _ v hk => ⟨v, ht ▸ hk⟩⟩

lemma set_inherited {e : KMap SessionKey NatSession} {k0 : SessionKey} {se0 se1 : NatSession}
    (hk0 : e k0 = some se0) (hb : se1.binding = se0.binding) (k : SessionKey) (se' : NatSession)
    (h : e.set k0 se1 k = some se') : ∃ se, e k = some se ∧ se'.vmIfindex = se.vmIfindex := by
  obtain ⟨rfl, rfl⟩ | ⟨-, h⟩ := KMap.set_eq_some.1 h
  · exact ⟨se0, hk0, congrArg NatSession.Binding.vmIfindex hb⟩
  · exact ⟨se', h, rfl⟩

lemma fromWorld_inherited (env : Env) (now : Ktime) (m : Maps) (skb : Skb) :
    Inherited m (fromWorld env now m skb).maps := by
  obtain ⟨act, hact⟩ | ⟨k0, se0, se1, al, tr, hk0, hb, -, hm, ha⟩ := fromWorld_step env now m skb
  · rw [hact]; exact .rfl
  rw [hm]
  refine ⟨fun k se' h => set_inherited hk0 hb k se' h, fun key v h => ?_⟩
  obtain rfl | ⟨key0, rfl⟩ := ha.track
  · exact ⟨v, h⟩
  · exact ⟨v, (KMap.del_eq_some.1 h).2⟩

lemma fromWorld_meta (env : Env) (now : Ktime) (m : Maps) (skb : Skb) :
    (fromWorld env now m skb).maps.ifindexToMvmmeta = m.ifindexToMvmmeta := by
  obtain ⟨act, hact⟩ | ⟨k0, se0, se1, al, tr, -, -, -, hm, -⟩ := fromWorld_step env now m skb
  · rw [hact]; rfl
  · rw [hm]; rfl

lemma reapStep_inherited {m' : Maps} {pc pc' : ReapPc} {ev : ReapEv}
    (h : reapStep m pc ev = some (m', pc')) :
    Inherited m m' ∧ m'.ifindexToMvmmeta = m.ifindexToMvmmeta := by
  unfold reapStep at h
  split at h
  · cases h; exact ⟨.rfl, rfl⟩
  · obtain ⟨_, -, h⟩ := Option.map_eq_some_iff.1 h
    cases h; exact ⟨.rfl, rfl⟩
  · cases h; exact ⟨.rfl, rfl⟩
  · cases h
    exact ⟨⟨fun k se hk => ⟨se, hk, rfl⟩, fun _ v hk => ⟨v, hk⟩⟩, rfl⟩
  · cases h
    exact ⟨⟨fun k se hk => ⟨se, (KMap.del_eq_some.1 hk).2, rfl⟩, fun _ v hk => ⟨v, hk⟩⟩, rfl⟩
  · cases h

/-- The steps that bring no session, query or registration. -/
def Ev.quiet : Ev → Bool
  | .prepare _ | .world _ _ | .reap _ | .reapTrack _ => true
  | _ => false

lemma step_quiet {s s' : St} {ev : Ev} (hq : ev.quiet) (h : step env s ev = some s') :
    ∃ m' pc, s' = { s with maps := m', pc := pc } ∧ Inherited s.maps m' ∧
      ∀ tap, regOf m' tap = regOf s.maps tap := by
  cases ev with
  | prepare tap =>
    cases h
    have hp := prepareTapDevicePolicy_policyOnly s.maps tap
    exact ⟨_, _, rfl, .of_flows hp.flows, hp.reg⟩
  | world now skb =>
    cases h
    refine ⟨_, _, rfl, fromWorld_inherited env now s.maps skb, fun tap => ?_⟩
    rw [regOf, fromWorld_meta]
    rfl
  | reap ev =>
    obtain ⟨⟨m, pc⟩, hr, rfl⟩ := Option.map_eq_some_iff.1 h
    obtain ⟨hi, hmeta⟩ := reapStep_inherited hr
    exact ⟨_, _, rfl, hi, fun tap => by rw [regOf, hmeta]; rfl⟩
  | reapTrack now =>
    cases h
    refine ⟨_, _, rfl, ⟨fun _ se h => ⟨se, h, rfl⟩, fun _ v h => ?_⟩, fun _ => rfl⟩
    simp only [reapDnsQueryTrack, Maps.setTrack_dnsQueryTrack, KMap.keep_eq_some] at h
    exact ⟨v, h.1⟩
  | _ => cases hq

/-- A session was there before and its origin stands, or the packet opened it, under the key of the
sandbox and with the consent of its policy. -/
inductive SessFrom (s s' : St) (skb : Skb) (k : SessionKey) (se' : NatSession) : Prop
  | old (se : NatSession) (hk : s.maps.egressSessions k = some se)
      (htap : se'.vmIfindex = se.vmIfindex) (ho : s'.opened k = s.opened k)
  | new (mt : MvmMeta) (hmt : s.maps.ifindexToMvmmeta skb.ifindex = some mt) (hown : Owns mt k)
      (htap : se'.vmIfindex = skb.ifindex)
      (ho : s'.opened k = some ⟨(s.reg skb.ifindex).getD 0, true⟩)

lemma closed_inherited {mt : MvmMeta} {k0 : SessionKey} {e : KMap SessionKey NatSession}
    {i : KMap SessionKey IngressSession} {se : NatSession} (hc : Closed m mt skb k0 e i)
    (h : e k = some se) : m.egressSessions k = some se := by
  cases hc with
  | absent _ => exact h
  | closed _ _ _ => exact (KMap.del_eq_some.1 h).2

lemma cubeStep_maps (env : Env) (s : St) (now : Ktime) (skb : Skb) (scratch : DnsScratch) :
    (cubeStep env s now skb scratch).maps.ifindexToMvmmeta = s.maps.ifindexToMvmmeta := by
  obtain ⟨act, hact⟩ | ⟨mt, q, -, -, sl, e, i, -, hm, -⟩ :=
    fromCube_step env now s.maps skb scratch
  · simp [cubeStep, hact, CubeOut.just]
  · simp only [cubeStep, hm]
    rfl

lemma cubeStep_sessions {s : St} {se' : NatSession}
    (h : (cubeStep env s now skb scratch).maps.egressSessions k = some se') :
    SessFrom s (cubeStep env s now skb scratch) skb k se' := by
  obtain ⟨act, hact⟩ | ⟨mt, q, hmt, -, sl, e, i, -, hm, hch⟩ :=
    fromCube_step env now s.maps skb scratch
  · simp only [cubeStep, hact, CubeOut.just] at h ⊢
    exact .old se' h rfl rfl
  simp only [cubeStep, hm, Maps.setIngress_egressSessions, Maps.setEgress_egressSessions] at h
  have hopened : (cubeStep env s now skb scratch).opened =
      match (fromCube env now s.maps skb scratch).created with
      | some k => s.opened.set k ⟨(s.reg skb.ifindex).getD 0,
          sessionPolicyAllowed env now s.maps skb.ifindex k.dstIp⟩
      | none => s.opened := rfl
  have hold : ∀ k0 e i, Closed (s.maps.setTrack q) mt skb k0 e i → ∀ se, e k = some se →
      s.maps.egressSessions k = some se := fun _ _ _ hc _ h =>
    (closed_inherited hc h : (s.maps.setTrack q).egressSessions k = _)
  generalize (cubeStep env s now skb scratch) = s' at hopened ⊢
  generalize (fromCube env now s.maps skb scratch).via = via,
    (fromCube env now s.maps skb scratch).created = created at hch hopened
  cases hch with
  | keep => exact .old se' h rfl (congrFun hopened k)
  | touch k0 se0 se1 _ hown hk hb hvia =>
    obtain ⟨se, hse, htap⟩ := set_inherited hk hb k se' h
    exact .old se hse htap (congrFun hopened k)
  | opened k0 se0 e i _ hown hc hs hvia =>
    obtain ⟨rfl, rfl⟩ | ⟨hne, h⟩ := KMap.set_eq_some.1 h
    · refine .new mt hmt hown hs.tap ?_
      rw [hopened]
      exact (KMap.set_self _ _ _).trans (congrArg (fun b => some (Origin.mk _ b)) hs.allowed)
    refine .old se' (hold _ _ _ hc _ h) rfl ?_
    rw [hopened]
    exact KMap.set_ne _ _ hne
  | closed k0 e i hown hc => exact .old se' (hold _ _ _ hc _ h) rfl (congrFun hopened k)
  | leaked k0 ip port e i hown hc hbad hfree =>
    exact .old se' (hold _ _ _ hc _ h) rfl (congrFun hopened k)

lemma fromCube_via (h : (fromCube env now m skb scratch).via = some k) :
    ∃ mt se', m.ifindexToMvmmeta skb.ifindex = some mt ∧ Owns mt k ∧
      (fromCube env now m skb scratch).maps.egressSessions k = some se' := by
  obtain ⟨act, hact⟩ | ⟨mt, q, hmt, -, sl, e, i, -, hm, hch⟩ := fromCube_step env now m skb scratch
  · simp [hact, CubeOut.just] at h
  rw [hm]
  simp only [h] at hch
  generalize (fromCube env now m skb scratch).created = created at hch
  generalize hv : some k = via at hch
  cases hch with
  | keep => cases hv
  | touch k0 se0 se1 _ hown hk hb hvia =>
    obtain rfl | rfl := hvia
    · cases hv
    · cases hv
      exact ⟨mt, se1, hmt, hown, KMap.set_self _ _ _⟩
  | opened k0 se0 e i _ hown hc hs hvia =>
    obtain rfl | rfl := hvia
    · cases hv
    · cases hv
      exact ⟨mt, se0, hmt, hown, KMap.set_self _ _ _⟩
  | closed k0 e i hown hc => cases hv
  | leaked k0 ip port e i hown hc hbad hfree => cases hv

lemma cubeStep_queries {s : St} {key : DnsQueryTrackKey} {v' : DnsQueryTrackValue}
    (h : (cubeStep env s now skb scratch).maps.dnsQueryTrack key = some v') :
    (∃ v, s.maps.dnsQueryTrack key = some v ∧
        (cubeStep env s now skb scratch).asked key = s.asked key) ∨
      (key.ifindex = skb.ifindex ∧ (s.maps.ifindexToMvmmeta skb.ifindex).isSome ∧
        (cubeStep env s now skb scratch).asked key = some ((s.reg skb.ifindex).getD 0)) := by
  obtain ⟨act, hact⟩ | ⟨mt, q, hmt, htrack, sl, e, i, -, hm, -⟩ :=
    fromCube_step env now s.maps skb scratch
  · simp only [cubeStep, hact, CubeOut.just] at h ⊢
    exact .inl ⟨v', h, trivial⟩
  simp only [cubeStep, hm, Maps.setIngress_dnsQueryTrack, Maps.setEgress_dnsQueryTrack,
    Maps.setSlots_dnsQueryTrack, Maps.setTrack_dnsQueryTrack] at h ⊢
  obtain ⟨hnone, rfl⟩ | ⟨key0, v0, hsome, htap, rfl⟩ := htrack
  · simp only [hnone]
    exact .inl ⟨v', h, trivial⟩
  simp only [hsome]
  obtain ⟨rfl, rfl⟩ | ⟨hne, h⟩ := KMap.set_eq_some.1 h
  · exact .inr ⟨htap, by simp [hmt], KMap.set_self _ _ _⟩
  · exact .inl ⟨v', h, KMap.set_ne _ _ hne⟩

end CubeSandbox.TapRun
