import CubeSandbox.NatStep
import CubeSandbox.Runs

/-!
The two session tables mirror each other.

Packets and the steps of the reaper are interleaved freely. The invariant allows one
exception: between its two deletions the reaper has hidden the session it is removing. What
breaks the pairing is a guest that reopens exactly that session in between, because the
second deletion is then made by key and removes the new session.
-/

namespace CubeSandbox.NatPair

open Vs Runs Option
open KMap (set_eq_some set_self set_ne del_ne del_eq_some)

/-- The two tables are inverse to each other, apart from a hidden session. -/
structure PairInv (e : KMap SessionKey NatSession) (i : KMap SessionKey IngressSession)
    (hidden : Option SessionKey) : Prop where
  out : ∀ k s, e k = some s → hidden ≠ some k →
    i (mirrorKey k s.nodeIp s.nodePort) = some (ingressOf k)
  back : ∀ ik is, i ik = some is → ∃ k s, e k = some s ∧ hidden ≠ some k ∧
    ik = mirrorKey k s.nodeIp s.nodePort ∧ is = ingressOf k

variable {k : SessionKey}

lemma key_of_mirror {k' : SessionKey} {ip ip' : UInt32} {p p' : UInt16}
    (hm : mirrorKey k ip p = mirrorKey k' ip' p') (hi : ingressOf k = ingressOf k') : k = k' := by
  simp only [mirrorKey, ingressOf, SessionKey.mk.injEq, IngressSession.mk.injEq] at hm hi
  obtain ⟨h1, -, h2, -, -, h3⟩ := hm
  obtain ⟨h4, h5, h6⟩ := hi
  cases k; cases k'
  simp_all

section
variable {e : KMap SessionKey NatSession} {i : KMap SessionKey IngressSession}
  {hidden : Option SessionKey} {k : SessionKey} {s s' : NatSession}

lemma mirror_of_binding (hb : s'.binding = s.binding) :
    mirrorKey k s'.nodeIp s'.nodePort = mirrorKey k s.nodeIp s.nodePort := by
  have h1 : s'.nodeIp = s.nodeIp := congrArg NatSession.Binding.nodeIp hb
  have h2 : s'.nodePort = s.nodePort := congrArg NatSession.Binding.nodePort hb
  rw [h1, h2]

section

variable (h : PairInv e i hidden)
include h

lemma PairInv.mirror_ne {k' : SessionKey} (hk : e k = some s)
    (hk' : e k' = some s') (hh : hidden ≠ some k) (hh' : hidden ≠ some k') (hne : k' ≠ k) :
    mirrorKey k' s'.nodeIp s'.nodePort ≠ mirrorKey k s.nodeIp s.nodePort := by
  intro hm
  have h1 := h.out k s hk hh
  have h2 := h.out k' s' hk' hh'
  rw [hm, h1] at h2
  exact hne (key_of_mirror hm (some.inj h2).symm)

lemma PairInv.touch (hk : e k = some s) (hb : s'.binding = s.binding) :
    PairInv (e.set k s') i hidden where
  out k1 s1 h1 hh := by
    obtain ⟨rfl, rfl⟩ | ⟨-, h1⟩ := set_eq_some.1 h1
    · rw [mirror_of_binding hb]; exact h.out _ _ hk hh
    · exact h.out _ _ h1 hh
  back ik is hi := by
    obtain ⟨k1, s1, h1, hh, rfl, rfl⟩ := h.back ik is hi
    by_cases hkk : k1 = k
    · subst hkk
      cases h1.symm.trans hk
      exact ⟨k1, s', set_self _ _ _, hh, (mirror_of_binding hb).symm, rfl⟩
    · exact ⟨k1, s1, by rw [set_ne _ _ hkk]; exact h1, hh, rfl, rfl⟩

lemma PairInv.opened (hk : e k = none)
    (hfree : i (mirrorKey k s.nodeIp s.nodePort) = none) (hh : hidden ≠ some k) :
    PairInv (e.set k s) (i.set (mirrorKey k s.nodeIp s.nodePort) (ingressOf k)) hidden where
  out k1 s1 h1 hh1 := by
    obtain ⟨rfl, rfl⟩ | ⟨-, h1⟩ := set_eq_some.1 h1
    · exact set_self _ _ _
    have hi := h.out _ _ h1 hh1
    rwa [set_ne _ _ fun hm => by rw [hm, hfree] at hi; cases hi]
  back ik is hi := by
    obtain ⟨rfl, rfl⟩ | ⟨-, hi⟩ := set_eq_some.1 hi
    · exact ⟨k, s, set_self _ _ _, hh, rfl, rfl⟩
    obtain ⟨k1, s1, h1, hh1, rfl, rfl⟩ := h.back _ _ hi
    have hne : k1 ≠ k := fun hkk => by rw [hkk, hk] at h1; cases h1
    exact ⟨k1, s1, by rw [set_ne _ _ hne]; exact h1, hh1, rfl, rfl⟩

end

lemma PairInv.hide (h : PairInv e i none) (hk : e k = some s) :
    PairInv e (i.del (mirrorKey k s.nodeIp s.nodePort)) (some k) where
  out k1 s1 h1 hh := by
    have hne : k1 ≠ k := fun hkk => hh (by rw [hkk])
    rw [del_ne _ (h.mirror_ne hk h1 (by simp) (by simp) hne)]
    exact h.out _ _ h1 (by simp)
  back ik is hi := by
    obtain ⟨hne, hi⟩ := del_eq_some.1 hi
    obtain ⟨k1, s1, h1, -, rfl, rfl⟩ := h.back _ _ hi
    refine ⟨k1, s1, h1, fun hkk => hne ?_, rfl, rfl⟩
    cases hkk
    rw [some.inj (h1.symm.trans hk)]

lemma PairInv.drop (h : PairInv e i (some k)) : PairInv (e.del k) i none where
  out k1 s1 h1 _ := by
    obtain ⟨hne, h1⟩ := del_eq_some.1 h1
    exact h.out _ _ h1 fun hkk => hne (some.inj hkk).symm
  back ik is hi := by
    obtain ⟨k1, s1, h1, hh, rfl, rfl⟩ := h.back _ _ hi
    have hne : k1 ≠ k := fun hkk => hh (by rw [hkk])
    exact ⟨k1, s1, del_eq_some.2 ⟨hne, h1⟩, by simp, rfl, rfl⟩

lemma PairInv.close (h : PairInv e i hidden) (hk : e k = some s) (hh : hidden ≠ some k) :
    PairInv (e.del k) (i.del (mirrorKey k s.nodeIp s.nodePort)) hidden where
  out k1 s1 h1 hh1 := by
    obtain ⟨hne, h1⟩ := del_eq_some.1 h1
    rw [del_ne _ (h.mirror_ne hk h1 hh hh1 hne)]
    exact h.out _ _ h1 hh1
  back ik is hi := by
    obtain ⟨hne, hi⟩ := del_eq_some.1 hi
    obtain ⟨k1, s1, h1, hh1, rfl, rfl⟩ := h.back _ _ hi
    refine ⟨k1, s1, del_eq_some.2 ⟨fun hkk => hne ?_, h1⟩, hh1, rfl, rfl⟩
    subst hkk
    rw [some.inj (h1.symm.trans hk)]

end

structure St where
  maps : Maps
  pc : ReapPc

inductive Ev
  | cube (now : Ktime) (skb : Skb) (scratch : DnsScratch)
  | world (now : Ktime) (skb : Skb)
  | reap (ev : ReapEv)

/-- One packet, or one step of the reaper. -/
def step (env : Env) (s : St) : Ev → Option St
  | .cube now skb scratch => some ⟨(fromCube env now s.maps skb scratch).maps, s.pc⟩
  | .world now skb => some ⟨(fromWorld env now s.maps skb).maps, s.pc⟩
  | .reap ev => (reapStep s.maps s.pc ev).map fun (m, pc) => ⟨m, pc⟩

/-- The session that the reaper has read and not yet finished removing. -/
def held : ReapPc → Option (SessionKey × NatSession)
  | .delIngress _ k s => some (k, s)
  | .delEgress _ k s => some (k, s)
  | _ => none

/-- The session whose mirror the reaper has already removed. -/
def hidden : ReapPc → Option SessionKey
  | .delEgress _ k _ => some k
  | _ => none

/-- The packet reopens the session that the reaper is removing. -/
def reopensHeld (s : St) (skb : Skb) : Bool :=
  match s.maps.ifindexToMvmmeta skb.ifindex, held s.pc with
  | some mt, some (k, _) => reusedKey s.maps mt skb == some k
  | _, _ => false

/-- The step leaves alone the session that the reaper is removing. -/
def Undisturbed (s : St) : Ev → Prop
  | .cube _ skb _ => reopensHeld s skb = false
  | _ => True

instance (s : St) : (ev : Ev) → Decidable (Undisturbed s ev)
  | .cube _ skb _ => inferInstanceAs (Decidable (reopensHeld s skb = false))
  | .world _ _ => .isTrue trivial
  | .reap _ => .isTrue trivial

/-- Ingress entries and sessions mirror each other one to one, and no two sessions to one remote
endpoint share a source address and port. -/
structure Paired (m : Maps) : Prop where
  ingress : ∀ ik is, m.ingressSessions ik = some is →
    ∃! k, ∃ s, m.egressSessions k = some s ∧ ik = mirrorKey k s.nodeIp s.nodePort
  egress : ∀ k s, m.egressSessions k = some s →
    ∃ is, m.ingressSessions (mirrorKey k s.nodeIp s.nodePort) = some is
  distinct : ∀ k k' s s', m.egressSessions k = some s → m.egressSessions k' = some s' → k ≠ k' →
    k.protocol = k'.protocol → k.dstIp = k'.dstIp → k.dstPort = k'.dstPort →
    ¬ (s.nodeIp = s'.nodeIp ∧ s.nodePort = s'.nodePort)

structure Inv (s : St) : Prop where
  slots : SlotsOk s.maps
  pair : PairInv s.maps.egressSessions s.maps.ingressSessions (hidden s.pc)
  held : ∀ k v, held s.pc = some (k, v) →
    ∃ sess, s.maps.egressSessions k = some sess ∧ sess.binding = v.binding

lemma hidden_held {pc : ReapPc} (h : hidden pc = some k) : ∃ v, held pc = some (k, v) := by
  cases pc <;> simp_all [hidden, held]

variable {s : St}

lemma Inv.not_hidden (h : Inv s) (hk : s.maps.egressSessions k = none) : hidden s.pc ≠ some k := by
  intro hh
  obtain ⟨v, hv⟩ := hidden_held hh
  obtain ⟨sess, hs, -⟩ := h.held k v hv
  rw [hk] at hs
  cases hs

variable {m : Maps} {skb : Skb}

lemma slotsOk_of_kept {sl : Fin maxSnatIps → SnatIp} (h : SlotsOk m)
    (hk : SlotsKept m.snatIplist sl) : ∀ i, (sl i).ip ≠ 0 ∧ (sl i).maxPort ≠ 0 :=
  fun i => ⟨(hk i).1 ▸ (h i).1, (hk i).2 (h i).2⟩

lemma held_touch {e : KMap SessionKey NatSession} {s s' v : NatSession}
    (hk : e k = some s) (hb : s'.binding = s.binding) {k1 : SessionKey}
    (h : ∃ sess, e k1 = some sess ∧ sess.binding = v.binding) :
    ∃ sess, e.set k s' k1 = some sess ∧ sess.binding = v.binding := by
  obtain ⟨sess, hs, hsb⟩ := h
  by_cases hkk : k1 = k
  · subst hkk
    cases hs.symm.trans hk
    exact ⟨s', set_self _ _ _, hb.trans hsb⟩
  · exact ⟨sess, by rw [set_ne _ _ hkk]; exact hs, hsb⟩

lemma closed_inv (h : Inv s) {mt : MvmMeta}
    {e : KMap SessionKey NatSession} {i : KMap SessionKey IngressSession}
    (hmt : s.maps.ifindexToMvmmeta skb.ifindex = some mt) (hok : reopensHeld s skb = false)
    (hc : Closed s.maps mt skb k e i) :
    e k = none ∧ hidden s.pc ≠ some k ∧ PairInv e i (hidden s.pc) ∧
      ∀ k1 v, held s.pc = some (k1, v) → k1 ≠ k ∧ ∃ sess, e k1 = some sess ∧
        sess.binding = v.binding := by
  cases hc with
  | absent hk =>
    refine ⟨hk, h.not_hidden hk, h.pair, fun k1 v hv => ?_⟩
    obtain ⟨sess, hs, hb⟩ := h.held k1 v hv
    refine ⟨?_, sess, hs, hb⟩
    rintro rfl
    rw [hk] at hs
    cases hs
  | closed sess hk hre =>
    have hheld : ∀ k1 v, held s.pc = some (k1, v) → k1 ≠ k := by
      rintro k1 v hv rfl
      simp [reopensHeld, hmt, hv, hre] at hok
    have hh : hidden s.pc ≠ some k := fun hh =>
      have ⟨v, hv⟩ := hidden_held hh
      hheld k v hv rfl
    refine ⟨KMap.del_self _ _, hh, h.pair.close hk hh, fun k1 v hv => ⟨hheld k1 v hv, ?_⟩⟩
    obtain ⟨sess1, hs, hb⟩ := h.held k1 v hv
    exact ⟨sess1, del_eq_some.2 ⟨hheld k1 v hv, hs⟩, hb⟩

lemma cube_inv {env : Env} {now : Ktime} {scratch : DnsScratch} (h : Inv s)
    (hok : Undisturbed s (.cube now skb scratch)) :
    Inv ⟨(fromCube env now s.maps skb scratch).maps, s.pc⟩ := by
  obtain ⟨act, hact⟩ | ⟨mt, q, hmt, -, sl, e, i, hsl, hm, hch⟩ :=
    fromCube_step env now s.maps skb scratch
  · rw [hact]; exact h
  rw [hm]
  have hslots := slotsOk_of_kept h.slots hsl
  -- recording a query does not concern the sessions
  have h1 : Inv ⟨s.maps.setTrack q, s.pc⟩ := ⟨h.slots, h.pair, h.held⟩
  generalize (fromCube env now s.maps skb scratch).via = via,
    (fromCube env now s.maps skb scratch).created = created at hch
  cases hch with
  | keep => exact ⟨hslots, h.pair, h.held⟩
  | touch k se se' via hown hk hb hvia =>
    exact ⟨hslots, h.pair.touch hk hb, fun k1 v hv => held_touch hk hb (h.held k1 v hv)⟩
  | opened k se e i via hown hc hs hvia =>
    obtain ⟨hk, hh, hp, hheld⟩ := closed_inv h1 hmt hok hc
    refine ⟨hslots, hp.opened hk hs.free hh, fun k1 v hv => ?_⟩
    obtain ⟨hne, sess, hs1, hb⟩ := hheld k1 v hv
    exact ⟨sess, by simpa [set_ne _ _ hne] using hs1, hb⟩
  | closed k e i hown hc =>
    obtain ⟨-, -, hp, hheld⟩ := closed_inv h1 hmt hok hc
    exact ⟨hslots, hp, fun k1 v hv => (hheld k1 v hv).2⟩
  | leaked k ip port e i hown hc hbad hfree => exact absurd h.slots hbad

lemma world_inv {env : Env} {now : Ktime} (h : Inv s) :
    Inv ⟨(fromWorld env now s.maps skb).maps, s.pc⟩ := by
  obtain ⟨act, hact⟩ | ⟨k, se, se', al, tr, hk, hb, -, hm, -⟩ := fromWorld_step env now s.maps skb
  · rw [hact]; exact h
  · rw [hm]
    exact ⟨h.slots, h.pair.touch hk hb, fun k1 v hv => held_touch hk hb (h.held k1 v hv)⟩

lemma reap_inv {ev : ReapEv} {pc : ReapPc} (h : Inv s)
    (hstep : reapStep s.maps s.pc ev = some (m, pc)) : Inv ⟨m, pc⟩ := by
  obtain ⟨maps, pc0⟩ := s
  obtain ⟨hslots, hpair, hheld⟩ := h
  have hnone : ∀ k v, held ReapPc.idle = some (k, v) →
      ∃ sess, maps.egressSessions k = some sess ∧ sess.binding = v.binding := by simp [held]
  cases pc0 with
  | idle =>
    cases ev with
    | start now =>
      cases hstep
      exact ⟨hslots, hpair, hnone⟩
    | read k => cases hstep
    | delete => cases hstep
    | finish => cases hstep
  | scan now =>
    cases ev with
    | read k =>
      obtain ⟨sess, hk, heq⟩ := map_eq_some_iff.1 hstep
      cases heq
      split
      · refine ⟨hslots, hpair, fun k1 v hv => ?_⟩
        cases hv
        exact ⟨sess, hk, rfl⟩
      · exact ⟨hslots, hpair, hnone⟩
    | finish =>
      cases hstep
      exact ⟨hslots, hpair, hnone⟩
    | start now => cases hstep
    | delete => cases hstep
  | delIngress now k v =>
    cases ev with
    | delete =>
      cases hstep
      obtain ⟨sess, hk, hb⟩ := hheld k v rfl
      have hp := hpair.hide hk
      rw [mirror_of_binding hb] at hp
      exact ⟨hslots, hp, hheld⟩
    | start now => cases hstep
    | read k => cases hstep
    | finish => cases hstep
  | delEgress now k v =>
    cases ev with
    | delete =>
      cases hstep
      exact ⟨hslots, PairInv.drop hpair, by simp [held]⟩
    | start now => cases hstep
    | read k => cases hstep
    | finish => cases hstep

lemma step_inv (env : Env) (s : St) (ev : Ev) (s' : St) (h : Inv s) (hok : Undisturbed s ev)
    (hstep : step env s ev = some s') : Inv s' := by
  cases ev with
  | cube now skb scratch => cases hstep; exact cube_inv h hok
  | world now skb => cases hstep; exact world_inv h
  | reap ev =>
    obtain ⟨⟨m, pc⟩, hr, rfl⟩ := map_eq_some_iff.1 hstep
    exact reap_inv h hr

lemma PairInv.paired (h : PairInv m.egressSessions m.ingressSessions none) : Paired m where
  ingress ik is hi := by
    obtain ⟨k, s, hk, -, hik, his⟩ := h.back ik is hi
    refine ⟨k, ⟨s, hk, hik⟩, ?_⟩
    rintro k' ⟨s', hk', hik'⟩
    have hi' := h.out k' s' hk' (by simp)
    rw [← hik', hi, his] at hi'
    exact (key_of_mirror (hik.symm.trans hik') (some.inj hi')).symm
  egress k s hk := ⟨_, h.out k s hk (by simp)⟩
  distinct k k' s s' hk hk' hne hproto hip hport hsame := by
    refine h.mirror_ne hk hk' (by simp) (by simp) hne.symm ?_
    simp [mirrorKey, hproto, hip, hport, hsame.1, hsame.2]

/-- **The tables are paired between passes** of the reaper, if no guest reopens the very session
that the reaper is removing. -/
theorem paired_between_passes (env : Env) (m : Maps) (es : List Ev) (s : St)
    (hempty : m.egressSessions = .empty ∧ m.ingressSessions = .empty) (hslots : SlotsOk m)
    (hmeets : Meets (step env) Undisturbed ⟨m, .idle⟩ es)
    (hrun : exec (step env) ⟨m, .idle⟩ es = some s) (hidle : s.pc = .idle) : Paired s.maps := by
  have hinit : Inv ⟨m, .idle⟩ := by
    refine ⟨hslots, ⟨?_, ?_⟩, by simp [held]⟩
    · intro k s hk; simp [hempty.1] at hk
    · intro ik is hi; simp [hempty.2] at hi
  have hinv := exec_inv (step_inv env) hinit hmeets hrun
  have hp := hinv.pair
  rw [hidle] at hp
  exact PairInv.paired hp

/-- The constants of the node in the runs below. -/
def demoEnv : Env := ⟨0x0644fea9, 0x0544fea9, 216, 0x020a8709, 2, true⟩

def demoSlots : Fin maxSnatIps → SnatIp := fun _ => ⟨2, 0x020a8709, maxPortStart⟩

/-- One sandbox, with version 1, on device 7. -/
def demoMaps : Maps :=
  { Maps.init demoSlots with ifindexToMvmmeta := KMap.set .empty 7 ⟨1, 0x0200000a, 0⟩ }

/-- A TCP segment of that sandbox. -/
def demoSegment (syn rst : Bool) : Skb where
  ifindex := 7
  etherType := ethPIp
  l3 := some ⟨5, 40, 0, ipprotoTcp, 0, 0x08080808⟩
  l4 := .tcp ⟨htons 40000, htons 8080, 5, syn, false, false, rst⟩
  data := []
  arpRequest := false
  gso := false
  rewriteOk := true
  sockEstablished := false
  tailCallsOk := true

def demoScratch : DnsScratch := ⟨fun _ => 0, 0, fun _ => 0⟩

def demoKey : SessionKey := ⟨0x0200000a, 0x08080808, htons 40000, htons 8080, 1, ipprotoTcp⟩

/-- A connection is opened and reset, and its session expires. -/
def expireRun : List Ev :=
  [.cube (.ofNs 1) (demoSegment true false) demoScratch,
    .cube (.ofNs 2) (demoSegment false true) demoScratch,
    .reap (.start (.ofNs 20000000000)), .reap (.read demoKey)]

/-- The guest asks for a connection from the same port. -/
def reopen : Ev := .cube (.ofNs 20000000001) (demoSegment true false) demoScratch

def deleteRun : List Ev := [.reap .delete, .reap .delete, .reap .finish]

/-- When the guest comes after the two deletions, the theorem applies. -/
theorem paired_after_late_reopen :
    ∃ s, exec (step demoEnv) ⟨demoMaps, .idle⟩ (expireRun ++ deleteRun ++ [reopen]) = some s ∧
      Paired s.maps :=
  ⟨_, rfl, paired_between_passes demoEnv demoMaps (expireRun ++ deleteRun ++ [reopen]) _
    ⟨rfl, rfl⟩ (by decide) (by decide) rfl rfl⟩

/-- If the guest comes before them, its new session is deleted and the mirror stays for ever: the
reaper only walks over the egress table. -/
theorem early_reopen_leaves_orphan :
    (demoMaps.egressSessions = .empty ∧ demoMaps.ingressSessions = .empty) ∧ SlotsOk demoMaps ∧
      ∃ s, exec (step demoEnv) ⟨demoMaps, .idle⟩ (expireRun ++ [reopen] ++ deleteRun) = some s ∧
        s.pc = .idle ∧ ¬ Paired s.maps := by
  refine ⟨⟨rfl, rfl⟩, by decide, _, rfl, rfl, fun hp => ?_⟩
  obtain ⟨k, ⟨s, hk, -⟩, -⟩ := hp.ingress (mirrorKey demoKey 0x020a8709 (htons 30001)) _ rfl
  -- every write of the run to the egress table was made at the one key
  have hnone : ∀ (a b c : NatSession) (k : SessionKey), (((((KMap.empty.set demoKey a).set
      demoKey b).del demoKey).set demoKey c).del demoKey) k = none := by
    intro a b c k
    by_cases hkk : k = demoKey <;> simp [KMap.set, KMap.del, KMap.empty, hkk]
  cases (hnone _ _ _ k).symm.trans hk

end CubeSandbox.NatPair
