import CubeSandbox.TapIso

/-!
Versions of registrations across restarts of the agent (`registerCubeVSTap`,
`upsertCubeVSTap`, `upsertCubeVSTapMeta` of `local_service.go`).

A session key holds the address and the version of the sandbox. The agent draws versions from
a counter in memory, which starts again at zero when the agent restarts, while the sessions
are in pinned maps and stay. A registration whose address and version are those of an old
session inherits that session, and with it a verdict that was made under another policy.
-/

namespace CubeSandbox.TapFresh

open Vs Tap TapRun Runs Pol GoText Option NatPair

structure St where
  vs : TapRun.St
  /-- `localService.version`, the version given out last. -/
  version : UInt32

/-- Packets and the reapers. -/
inductive Flow
  | cube (now : Ktime) (skb : Skb) (scratch : DnsScratch)
  | world (now : Ktime) (skb : Skb)
  | reap (ev : ReapEv)
  | reapTrack (now : Ktime)

def Flow.ev : Flow → TapRun.Ev
  | .cube now skb scratch => .cube now skb scratch
  | .world now skb => .world now skb
  | .reap ev => .reap ev
  | .reapTrack now => .reapTrack now

inductive Ev
  | registerCubeVsTap (ifindex ip : UInt32) (sandboxId : Bytes) (opts : MvmOptions)
  | upsertCubeVsTap (ifindex ip : UInt32) (sandboxId : Bytes) (opts : MvmOptions)
  | upsertCubeVsTapMeta (ifindex ip : UInt32) (sandboxId : Bytes)
  | prepare (ifindex : UInt32)
  | cleanupCubeVsTap (ifindex ip : UInt32)
  | flow (f : Flow)
  | restart

/-- A step of the agent or of the packet programs. A restart loses the counter and the place of the
session reaper. -/
def step (env : Env) (s : St) : Ev → Option St
  | .registerCubeVsTap ifindex ip id opts =>
    let version := s.version + 1
    (TapRun.step env s.vs (.add ifindex ip id version opts)).map (⟨·, version⟩)
  | .upsertCubeVsTap ifindex ip id opts =>
    let version := s.version + 1
    (TapRun.step env s.vs (.upsert ifindex ip id version opts)).map (⟨·, version⟩)
  | .upsertCubeVsTapMeta ifindex ip id =>
    let version := s.version + 1
    (TapRun.step env s.vs (.upsertMeta ifindex ip id version)).map (⟨·, version⟩)
  | .prepare ifindex => (TapRun.step env s.vs (.prepare ifindex)).map (⟨·, s.version⟩)
  | .cleanupCubeVsTap ifindex ip => (TapRun.step env s.vs (.del ifindex ip)).map (⟨·, s.version⟩)
  | .flow f => (TapRun.step env s.vs f.ev).map (⟨·, s.version⟩)
  | .restart => some ⟨{ s.vs with pc := .idle }, 0⟩

def start (m : Maps) : St := ⟨TapIso.start m, 0⟩

/-- Neither a session nor another device carries the address with the version. -/
def Unused (m : Maps) (tap ip version : UInt32) : Prop :=
  (∀ k se, m.egressSessions k = some se → ¬ (k.srcIp = ip ∧ k.version = version)) ∧
    ∀ j, j ≠ tap → regOf m j ≠ some (ip, version)

/-- A registration is made under an address and version that are not in use. -/
def FreshVersion (s : St) : Ev → Prop
  | .registerCubeVsTap tap ip _ _ => Unused s.vs.maps tap ip (s.version + 1)
  | .upsertCubeVsTap tap ip _ _ => Unused s.vs.maps tap ip (s.version + 1)
  | .upsertCubeVsTapMeta tap ip _ => Unused s.vs.maps tap ip (s.version + 1)
  | _ => True

/-- A packet is forwarded through a session that the sender's own registration opened, when its
policy allowed the destination. -/
def OwnSession (env : Env) (s : TapRun.St) (now : Ktime) (skb : Skb) (scratch : DnsScratch) :
    Prop :=
  ∀ k, (fromCube env now s.maps skb scratch).via = some k → ∃ r, s.reg skb.ifindex = some r ∧
      (cubeStep env s now skb scratch).opened k = some ⟨r, true⟩

structure Inv (s : TapRun.St) : Prop where
  sess : ∀ k se, s.maps.egressSessions k = some se → ∃ r, s.opened k = some ⟨r, true⟩ ∧
    ∀ tap, regOf s.maps tap = some (k.srcIp, k.version) → s.reg tap = some r
  uniq : ∀ tap tap' p, regOf s.maps tap = some p → regOf s.maps tap' = some p → tap = tap'
  reg : ∀ tap, (s.maps.ifindexToMvmmeta tap).isSome → (s.reg tap).isSome

lemma regOf_of_owns {m : Maps} {tap : UInt32} {mt : MvmMeta} {k : SessionKey}
    (hmt : m.ifindexToMvmmeta tap = some mt) (hown : Owns mt k) :
    regOf m tap = some (k.srcIp, k.version) := by
  simp [regOf, hmt, hown.1, hown.2]

variable {s : TapRun.St} {m' : Maps} {env : Env}

section

variable (h : Inv s)
include h

lemma Inv.inherited {pc : ReapPc} (hi : Inherited s.maps m')
    (hreg : ∀ tap, regOf m' tap = regOf s.maps tap) :
    Inv { s with maps := m', pc := pc } where
  sess k se' hk := by
    obtain ⟨se, hk, -⟩ := hi.sess k se' hk
    obtain ⟨r, ho, hr⟩ := h.sess k se hk
    exact ⟨r, ho, fun tap ht => hr tap (hreg tap ▸ ht)⟩
  uniq tap tap' p ht ht' := h.uniq tap tap' p (hreg tap ▸ ht) (hreg tap' ▸ ht')
  reg tap hsome := h.reg tap (isSome_of_regOf (hreg tap) ▸ hsome)

lemma Inv.call {tap ip version : UInt32} {reg' : KMap UInt32 Nat} {next : Nat}
    {reg : Option (UInt32 × UInt32)}
    (hu : reg = none ∨ reg = some (ip, version) ∧ Unused s.maps tap ip version)
    (hs : CallStep s.maps m' tap reg) (hother : ∀ j, j ≠ tap → reg' j = s.reg j)
    (hself : reg = none ∨ (reg' tap).isSome) :
    Inv { s with maps := m', next := next, reg := reg' } where
  sess k se' hk := by
    obtain ⟨se, hk, -⟩ := (Inherited.of_flows hs.flows).sess k se' hk
    obtain ⟨r, ho, hr⟩ := h.sess k se hk
    refine ⟨r, ho, fun j hj => ?_⟩
    by_cases hjt : j = tap
    · subst hjt
      rw [hs.self] at hj
      subst hj
      obtain hu | ⟨hu, hunused⟩ := hu
      · cases hu
      · obtain ⟨h1, h2⟩ := Prod.mk.inj (some.inj hu)
        exact absurd ⟨h1, h2⟩ (hunused.1 k se hk)
    · exact (hother j hjt).trans (hr j (hs.other j hjt ▸ hj))
  uniq j j' p hj hj' := by
    -- of two devices with one pair, at most one is the device of the call
    have hclash : ∀ i i', i ≠ tap → i' = tap → regOf m' i = some p → regOf m' i' = some p →
        False := by
      rintro i _ hi rfl hp hp'
      rw [hs.self] at hp'
      rw [hs.other i hi] at hp
      subst hp'
      obtain hu | ⟨hu, hunused⟩ := hu
      · cases hu
      · cases hu
        exact hunused.2 i hi hp
    by_cases h1 : j = tap <;> by_cases h2 : j' = tap
    · rw [h1, h2]
    · exact (hclash j' j h2 h1 hj' hj).elim
    · exact (hclash j j' h1 h2 hj hj').elim
    · exact h.uniq j j' p (hs.other j h1 ▸ hj) (hs.other j' h2 ▸ hj')
  reg j hsome := by
    by_cases hjt : j = tap
    · subst hjt
      obtain rfl | hself := hself
      · have := hs.self
        simp only [regOf, map_eq_none_iff] at this
        simp [this] at hsome
      · exact hself
    · dsimp only
      rw [hother j hjt]
      exact h.reg j (isSome_of_regOf (hs.other j hjt) ▸ hsome)

lemma Inv.register {tap ip version : UInt32} {id : Bytes}
    (hu : Unused s.maps tap ip version) (hr : Registers s.maps m' tap ip version id) :
    Inv (register s tap id m') := by
  unfold TapRun.register
  split
  · rename_i hid
    obtain ⟨reg, hreg, hs⟩ := hr.ok hid
    refine h.call (hreg.imp_right fun he => ⟨he, hu⟩) hs (fun j hj => ?_) ?_
    · split
      · exact KMap.set_ne _ _ hj
      · exact KMap.del_ne _ hj
    refine hreg.imp_right fun he => ?_
    have := hs.self
    simp only [regOf, he, map_eq_some_iff] at this
    obtain ⟨mt, hmt, -⟩ := this
    simp [hmt]
  · rename_i hid
    rwa [hr.tooLong hid]

lemma Inv.cube (now : Ktime) (skb : Skb) (scratch : DnsScratch) :
    Inv (cubeStep env s now skb scratch) := by
  have hreg : ∀ tap, regOf (cubeStep env s now skb scratch).maps tap = regOf s.maps tap :=
    fun tap => by rw [regOf, cubeStep_maps]; rfl
  refine ⟨fun k se' hk => ?_, fun tap tap' p ht ht' => ?_, fun tap hsome => ?_⟩
  · cases cubeStep_sessions hk with
    | old se hk htap ho =>
      obtain ⟨r, ho', hr⟩ := h.sess k se hk
      exact ⟨r, ho.trans ho', fun tap ht => hr tap (hreg tap ▸ ht)⟩
    | new mt hmt hown htap ho =>
      obtain ⟨r, hr⟩ := isSome_iff_exists.1 (h.reg skb.ifindex (by simp [hmt]))
      simp only [hr, getD_some] at ho
      refine ⟨r, ho, fun tap ht => ?_⟩
      rw [hreg] at ht
      obtain rfl := h.uniq tap skb.ifindex _ ht (regOf_of_owns hmt hown)
      exact hr
  · rw [hreg] at ht ht'
    exact h.uniq tap tap' p ht ht'
  · rw [cubeStep_maps] at hsome
    exact h.reg tap hsome

lemma flow_inv {s' : TapRun.St} (f : Flow) (hstep : TapRun.step env s f.ev = some s') : Inv s' := by
  cases f with
  | cube now skb scratch => cases hstep; exact h.cube now skb scratch
  | world | reap | reapTrack =>
    obtain ⟨m', pc, rfl, hi, hreg⟩ := step_quiet rfl hstep
    exact h.inherited hi hreg

end

lemma step_inv (env : Env) (s : St) (ev : Ev) (s' : St) (h : Inv s.vs) (hok : FreshVersion s ev)
    (hstep : step env s ev = some s') : Inv s'.vs := by
  cases ev with
  | registerCubeVsTap tap ip id opts =>
    cases hstep
    exact h.register hok (addTapDevice_registers s.vs.maps tap ip (s.version + 1) id opts)
  | upsertCubeVsTap tap ip id opts =>
    cases hstep
    exact h.register hok (upsertTapDevice_registers s.vs.maps tap ip (s.version + 1) id opts)
  | upsertCubeVsTapMeta tap ip id =>
    cases hstep
    exact h.register hok (upsertTapDeviceMeta_registers s.vs.maps tap ip (s.version + 1) id)
  | prepare tap =>
    cases hstep
    have hp := prepareTapDevicePolicy_policyOnly s.vs.maps tap
    exact h.inherited (.of_flows hp.flows) hp.reg
  | cleanupCubeVsTap tap ip =>
    cases hstep
    exact h.call (.inl rfl : none = none ∨ none = some (ip, (0 : UInt32)) ∧ _)
      (delTapDevice_step s.vs.maps tap ip) (fun j hj => KMap.del_ne _ hj) (.inl rfl)
  | flow f =>
    obtain ⟨t, ht, rfl⟩ := map_eq_some_iff.1 hstep
    exact flow_inv h f ht
  | restart =>
    cases hstep
    exact h.inherited .rfl fun _ => rfl

lemma Inv.ownSession (h : Inv s) (now : Ktime) (skb : Skb) (scratch : DnsScratch) :
    OwnSession env s now skb scratch := by
  intro k hvia
  obtain ⟨mt, se', hmt, hown, hk⟩ := fromCube_via hvia
  obtain ⟨r, ho, hr⟩ := (h.cube now skb scratch).sess k se' hk
  refine ⟨r, hr skb.ifindex ?_, ho⟩
  rw [regOf, cubeStep_maps]
  exact regOf_of_owns hmt hown

/-- **No packet travels through a session of another registration** if each registration gets an
address and version that are not in use. -/
theorem forwarded_through_own_session (env : Env) (m : Maps) (es : List Ev) (s : St)
    (hm : TapIso.Blank m) (hmeets : Meets (step env) FreshVersion (start m) es)
    (hrun : exec (step env) (start m) es = some s) (now : Ktime) (skb : Skb)
    (scratch : DnsScratch) : OwnSession env s.vs now skb scratch := by
  have hinit : Inv (start m).vs := by
    refine ⟨?_, ?_, ?_⟩
    · intro k se hk; simp [start, TapIso.start, hm.2.1] at hk
    · intro tap tap' p ht; simp [start, TapIso.start, regOf, hm.1] at ht
    · intro tap hsome; simp [start, TapIso.start, hm.1] at hsome
  have hstep : ∀ s e s', (fun s : St => Inv s.vs) s → FreshVersion s e → step env s e = some s' →
      (fun s : St => Inv s.vs) s' := step_inv env
  have hinv : Inv s.vs := exec_inv hstep hinit hmeets hrun
  exact hinv.ownSession now skb scratch

/-- A sandbox is registered on device 7. -/
def join (allowInternetAccess : Bool) : Ev :=
  .registerCubeVsTap 7 0x0200000a [] ⟨some allowInternetAccess, none, none, none⟩

def segment : Skb := NatPair.demoSegment true false

def connect : Ev := .flow (.cube (.ofNs 1) segment NatPair.demoScratch)

/-- A sandbox that goes on sending after a restart uses its own session. -/
theorem own_session_after_restart :
    ∃ s, exec (step demoEnv) (start TapIso.freshMaps) [join true, connect, .restart] = some s ∧
      (fromCube demoEnv (.ofNs 2) s.vs.maps segment demoScratch).via = some demoKey ∧
      OwnSession demoEnv s.vs (.ofNs 2) segment demoScratch := by
  refine leads (fun s => (fromCube demoEnv (.ofNs 2) s.vs.maps segment demoScratch).via)
    (some demoKey) (by decide +kernel) fun s hs hvia => ?_
  refine ⟨hvia, forwarded_through_own_session demoEnv TapIso.freshMaps _ s
    ⟨rfl, rfl, rfl⟩ ?_ hs _ _ _⟩
  have hunused : Unused TapIso.freshMaps 7 0x0200000a (0 + 1) :=
    ⟨fun _ _ h => (by cases h), fun _ _ h => (by cases h)⟩
  exact ⟨hunused, fun _ _ => ⟨trivial, fun _ _ => ⟨trivial, fun _ _ => trivial⟩⟩⟩

/-- After a restart a sandbox that may not reach the Internet gets the address and version of one
that could, and a packet of it is forwarded through the old session. -/
theorem denied_packet_forwarded : TapIso.Blank TapIso.freshMaps ∧
      ∃ s, exec (step demoEnv) (start TapIso.freshMaps) [.prepare 7, join true, connect,
          .cleanupCubeVsTap 7 0x0200000a, .restart, .prepare 7, join false] = some s ∧
        sessionPolicyAllowed demoEnv (.ofNs 2) s.vs.maps 7 0x08080808 = false ∧
        ¬ OwnSession demoEnv s.vs (.ofNs 2) segment demoScratch := by
  refine ⟨⟨rfl, rfl, rfl⟩, leads (fun s =>
      (sessionPolicyAllowed demoEnv (.ofNs 2) s.vs.maps 7 0x08080808,
        (fromCube demoEnv (.ofNs 2) s.vs.maps segment demoScratch).via,
        (cubeStep demoEnv s.vs (.ofNs 2) segment demoScratch).opened demoKey, s.vs.reg 7))
    (false, some demoKey, some ⟨0, true⟩, some 1) (by decide +kernel) fun s _ hout => ?_⟩
  simp only [Prod.mk.injEq] at hout
  obtain ⟨hdenied, hvia, hopened, hreg⟩ := hout
  refine ⟨hdenied, fun h => ?_⟩
  obtain ⟨r, hr, ho⟩ := h demoKey hvia
  cases hreg.symm.trans hr
  cases hopened.symm.trans ho

end CubeSandbox.TapFresh
