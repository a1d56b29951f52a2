import CubeSandbox.NatPair
import CubeSandbox.TapRun

/-!
Replies reach the sandbox that asked for them.

`from_world` finds a session by the remote endpoint and the node's port, and a tracked query by
the device of that session. Neither is compared with the registration that is now on the
device. So replies are isolated as long as a registration begins and ends on a device
without sessions and tracked queries; a session that outlives its registration is served to the
next one.
-/

namespace CubeSandbox.TapIso

open Vs Tap TapRun Runs Pol Option

/-- Maps without devices, sessions and queries. -/
def Blank (m : Maps) : Prop :=
  m.ifindexToMvmmeta = .empty ∧ m.egressSessions = .empty ∧ m.dnsQueryTrack = .empty

def start (m : Maps) : St := ⟨m, .idle, 0, .empty, .empty, .empty⟩

/-- No session leads to the device and no query of it is tracked. -/
def Vacant (m : Maps) (tap : UInt32) : Prop :=
  (∀ k se, m.egressSessions k = some se → se.vmIfindex ≠ tap) ∧
    ∀ key v, m.dnsQueryTrack key = some v → key.ifindex ≠ tap

/-- A registration begins or ends on a vacant device. -/
def Clean (s : St) : Ev → Prop
  | .add tap _ _ _ _ => Vacant s.maps tap
  | .upsert tap _ _ _ _ => Vacant s.maps tap
  | .upsertMeta tap _ _ _ => Vacant s.maps tap
  | .del tap _ => Vacant s.maps tap
  | _ => True

/-- A packet is delivered to the device where the registration that opened its session now is, and
an allow list changes only by the answer to a query of the registration on its device. -/
def Isolated (env : Env) (s : St) (now : Ktime) (skb : Skb) : Prop :=
  let out := fromWorld env now s.maps skb
  (∀ k, out.via = some k → ∃ tap o, out.act = .redirect tap false ∧
      s.opened k = some o ∧ s.reg tap = some o.reg) ∧
    ∀ tap, out.maps.allowOutV2 tap ≠ s.maps.allowOutV2 tap →
      ∃ key r, out.learned = some key ∧ key.ifindex = tap ∧
        s.asked key = some r ∧ s.reg tap = some r

/-- What a session or query carries is the registration on its device. -/
structure Inv (s : St) : Prop where
  sess : ∀ k se, s.maps.egressSessions k = some se →
    ∃ o, s.opened k = some o ∧ s.reg se.vmIfindex = some o.reg
  query : ∀ key v, s.maps.dnsQueryTrack key = some v →
    ∃ r, s.asked key = some r ∧ s.reg key.ifindex = some r
  reg : ∀ tap, (s.maps.ifindexToMvmmeta tap).isSome → (s.reg tap).isSome

variable {s : St}

section

variable (h : Inv s)
include h

lemma Inv.inherited {m' : Maps} {pc : ReapPc} (hi : Inherited s.maps m')
    (hreg : ∀ tap, regOf m' tap = regOf s.maps tap) :
    Inv { s with maps := m', pc := pc } where
  sess k se' hk := by
    obtain ⟨se, hk, htap⟩ := hi.sess k se' hk
    rw [htap]
    exact h.sess k se hk
  query key v' hk := by
    obtain ⟨v, hk⟩ := hi.query key v' hk
    exact h.query key v hk
  reg tap hsome := h.reg tap (isSome_of_regOf (hreg tap) ▸ hsome)

/-- The device of a tap comes or goes, without a session or a query of its own. -/
lemma Inv.reregister {tap : UInt32} {m' : Maps} {reg' : KMap UInt32 Nat} {next : Nat}
    (hv : Vacant s.maps tap) (hflows : flows m' = flows s.maps)
    (hother : ∀ j, j ≠ tap → regOf m' j = regOf s.maps j)
    (hreg : ∀ j, j ≠ tap → reg' j = s.reg j)
    (hself : (m'.ifindexToMvmmeta tap).isSome → (reg' tap).isSome) :
    Inv { s with maps := m', reg := reg', next := next } := by
  have hi := Inherited.of_flows hflows
  refine ⟨fun k se' hk => ?_, fun key v' hk => ?_, fun j hsome => ?_⟩
  · obtain ⟨se, hk, htap⟩ := hi.sess k se' hk
    obtain ⟨o, ho, hr⟩ := h.sess k se hk
    refine ⟨o, ho, ?_⟩
    rw [htap]
    exact (hreg _ (hv.1 k se hk)).trans hr
  · obtain ⟨v, hk⟩ := hi.query key v' hk
    obtain ⟨r, hr, hr'⟩ := h.query key v hk
    exact ⟨r, hr, (hreg _ (hv.2 key v hk)).trans hr'⟩
  · by_cases hj : j = tap
    · subst hj
      exact hself hsome
    dsimp only
    rw [hreg j hj]
    exact h.reg j (isSome_of_regOf (hother j hj) ▸ hsome)

lemma Inv.register {tap ip version : UInt32} {id : GoText.Bytes} {m' : Maps}
    (hv : Vacant s.maps tap) (hr : Registers s.maps m' tap ip version id) :
    Inv (register s tap id m') := by
  unfold TapRun.register
  split
  · rename_i hid
    obtain ⟨reg, -, hs⟩ := hr.ok hid
    refine h.reregister hv hs.flows hs.other (fun j hj => ?_) fun hsome => ?_
    · split
      · exact KMap.set_ne _ _ hj
      · exact KMap.del_ne _ hj
    · rw [if_pos hsome, KMap.set_self]
      rfl
  · rename_i hid
    rwa [hr.tooLong hid]

lemma Inv.del {tap ip : UInt32} (hv : Vacant s.maps tap) :
    Inv { s with maps := (delTapDevice s.maps tap ip).1, reg := s.reg.del tap } := by
  have hstep := delTapDevice_step s.maps tap ip
  refine h.reregister hv hstep.flows hstep.other (fun j hj => KMap.del_ne _ hj) fun hsome => ?_
  have hself := hstep.self
  simp only [regOf, map_eq_none_iff] at hself
  simp [hself] at hsome

lemma Inv.cube {env : Env} (now : Ktime) (skb : Skb) (scratch : DnsScratch) :
    Inv (cubeStep env s now skb scratch) where
  sess k se' hk := by
    cases cubeStep_sessions hk with
    | old se hk htap ho =>
      rw [htap, ho]
      exact h.sess k se hk
    | new mt hmt hown htap ho =>
      obtain ⟨r, hr⟩ := isSome_iff_exists.1 (h.reg skb.ifindex (by simp [hmt]))
      rw [htap]
      refine ⟨_, ho, ?_⟩
      change s.reg skb.ifindex = _
      simp [hr]
  query key v' hk := by
    obtain ⟨v, hk, ho⟩ | ⟨htap, hsome, ho⟩ := cubeStep_queries hk
    · rw [ho]
      exact h.query key v hk
    obtain ⟨r, hr⟩ := isSome_iff_exists.1 (h.reg skb.ifindex hsome)
    refine ⟨_, ho, ?_⟩
    change s.reg key.ifindex = _
    simp [htap, hr]
  reg tap hsome := by
    rw [cubeStep_maps] at hsome
    exact h.reg tap hsome

end

lemma step_inv (env : Env) (s : St) (ev : Ev) (s' : St) (h : Inv s) (hok : Clean s ev)
    (hstep : step env s ev = some s') : Inv s' := by
  cases ev with
  | add tap ip id version opts =>
    cases hstep
    exact h.register hok (addTapDevice_registers s.maps tap ip version id opts)
  | upsert tap ip id version opts =>
    cases hstep
    exact h.register hok (upsertTapDevice_registers s.maps tap ip version id opts)
  | upsertMeta tap ip id version =>
    cases hstep
    exact h.register hok (upsertTapDeviceMeta_registers s.maps tap ip version id)
  | del tap ip => cases hstep; exact h.del hok
  | cube now skb scratch => cases hstep; exact h.cube now skb scratch
  | prepare | world | reap | reapTrack =>
    obtain ⟨m', pc, rfl, hi, hreg⟩ := step_quiet rfl hstep
    exact h.inherited hi hreg

lemma Inv.isolated {env : Env} (h : Inv s) (now : Ktime) (skb : Skb) : Isolated env s now skb := by
  unfold Isolated
  obtain ⟨act, hact⟩ | ⟨k0, se, se', al, tr, hk0, -, hvia, hm, ha⟩ :=
    fromWorld_step env now s.maps skb
  · simp [hact, WorldOut.just]
  refine ⟨fun k hk => ?_, fun tap hne => ?_⟩
  · obtain hnone | ⟨hsome, hact⟩ := hvia
    · rw [hnone] at hk; cases hk
    cases hsome.symm.trans hk
    obtain ⟨o, ho, hr⟩ := h.sess k0 se hk0
    exact ⟨se.vmIfindex, o, hact, ho, hr⟩
  rw [hm] at hne
  have hne' : al tap ≠ s.maps.allowOutV2 tap := hne
  cases hl : (fromWorld env now s.maps skb).learned with
  | none => exact absurd (congrFun (ha.silent hl) tap) hne'
  | some key =>
    obtain ⟨htap, v, hv⟩ := ha.learned key hl
    obtain ⟨r, hr, hr'⟩ := h.query key v hv
    have : tap = se.vmIfindex := by
      by_contra hother
      exact hne' (ha.allow tap hother)
    subst this
    exact ⟨key, r, rfl, htap, hr, htap ▸ hr'⟩

/-- **Replies are isolated** if registrations begin and end on vacant devices. -/
theorem replies_isolated (env : Env) (m : Maps) (es : List Ev) (s : St) (hm : Blank m)
    (hmeets : Meets (step env) Clean (start m) es)
    (hrun : exec (step env) (start m) es = some s) (now : Ktime) (skb : Skb) :
    Isolated env s now skb := by
  have hinit : Inv (start m) := by
    refine ⟨?_, ?_, ?_⟩
    · intro k se hk; simp [start, hm.2.1] at hk
    · intro key v hk; simp [start, hm.2.2] at hk
    · intro tap hsome; simp [start, hm.1] at hsome
  exact (exec_inv (step_inv env) hinit hmeets hrun).isolated now skb

def freshMaps : Maps := Maps.init NatPair.demoSlots

def noOptions : MvmOptions := ⟨none, none, none, none⟩

/-- A sandbox is registered on device 7. -/
def join (ip version : UInt32) : Ev := .add 7 ip [] version noOptions

def connect : Ev := .cube (.ofNs 1) (NatPair.demoSegment true false) NatPair.demoScratch

def answer : Skb :=
  { NatPair.demoSegment true false with
    ifindex := 2
    l3 := some ⟨5, 40, 0, ipprotoTcp, 0x08080808, 0x020a8709⟩
    l4 := .tcp ⟨htons 8080, htons 30000, 5, true, true, false, false⟩ }

/-- The first sandbox gets its answer, and the theorem applies. -/
theorem first_reply_isolated :
    ∃ s, exec (step NatPair.demoEnv) (start freshMaps) [join 0x0200000a 1, connect] = some s ∧
      (fromWorld NatPair.demoEnv (.ofNs 2) s.maps answer).via = some NatPair.demoKey ∧
      Isolated NatPair.demoEnv s (.ofNs 2) answer := by
  refine leads (fun s => (fromWorld NatPair.demoEnv (.ofNs 2) s.maps answer).via)
    (some NatPair.demoKey) (by decide +kernel) fun s hs hvia => ?_
  refine ⟨hvia, replies_isolated NatPair.demoEnv freshMaps _ s ⟨rfl, rfl, rfl⟩ ?_ hs _ _⟩
  have hvacant : Vacant freshMaps 7 := ⟨fun _ _ h => (by cases h), fun _ _ h => (by cases h)⟩
  exact ⟨hvacant, fun _ _ => ⟨trivial, fun _ _ => trivial⟩⟩

/-- The answer to the first sandbox is delivered to the second one, although its device was
cleaned. -/
theorem stale_reply_delivered : Blank freshMaps ∧
      ∃ s, exec (step NatPair.demoEnv) (start freshMaps) [.prepare 7, join 0x0200000a 1, connect,
          .del 7 0x0200000a, .prepare 7, join 0x0300000a 2] = some s ∧
        ¬ Isolated NatPair.demoEnv s (.ofNs 2) answer := by
  refine ⟨⟨rfl, rfl, rfl⟩, leads (fun s =>
      let out := fromWorld NatPair.demoEnv (.ofNs 2) s.maps answer
      (out.via, out.act, s.opened NatPair.demoKey, s.reg 7))
    (some NatPair.demoKey, .redirect 7 false, some ⟨0, true⟩, some 1) (by decide +kernel)
    fun s _ hout h => ?_⟩
  simp only [Prod.mk.injEq] at hout
  obtain ⟨hvia, hact, hopened, hreg⟩ := hout
  obtain ⟨tap, o, hact', ho, hr⟩ := h.1 NatPair.demoKey hvia
  cases hact.symm.trans hact'
  cases hopened.symm.trans ho
  cases hreg.symm.trans hr

end CubeSandbox.TapIso
