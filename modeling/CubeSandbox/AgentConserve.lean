import CubeSandbox.AgentIds

/-!
Conservation of TAP devices in the network agent.

Each program of the service is verified against the tokens it holds: a device that it has taken
out of a container is put into a container or destroyed on every path, and an id whose guard it
holds ends with a committed state and its file or with neither. Interleaving then comes from the
logic.
-/

namespace CubeSandbox.Agent

open Conc Multiset Runs

/-! ### Programs that leave the accounts alone -/

variable {a : Act}

section
variable {α β : Type} {r : Multiset Tok} {Q : β → Multiset Tok → Prop}

/-- The program takes minor actions only. -/
abbrev Minor (p : Task α) : Prop := Within Act.minor (fun _ => True) p

lemma within_act (ha : a.minor) : Minor (act a) :=
  .perform ha fun _ => trivial

lemma within_then {ψ : β → Prop} {f : a.Ans → Task β} (ha : a.minor)
    (hf : ∀ v, Within Act.minor ψ (f v)) : Within Act.minor ψ (act a >>= f) :=
  (within_act ha).bind fun v _ => hf v

lemma within_andThen {p q : Task Bool} (hp : Minor p) (hq : Minor q) : Minor (andThen p q) := by
  refine hp.bind fun b _ => ?_
  cases b
  · exact .ret trivial
  · exact hq

lemma Keeps.after {p : Task α} {φ : α → Prop} {f : α → Task β} (hp : Within Act.minor φ p)
    (hf : ∀ v, φ v → Keeps (f v) r Q) : Keeps (p >>= f) r Q := by
  refine (Safe.of_within (fun _ ha => Owned.minor ha) hp).bind fun v r' h => ?_
  obtain ⟨hv, rfl⟩ := h
  exact hf v hv

lemma Keeps.then {f : a.Ans → Task β} (ha : a.minor) (hf : ∀ v, Keeps (f v) r Q) :
    Keeps (act a >>= f) r Q := Keeps.after (within_act ha) fun v _ => hf v

end

variable (n : Nat) (bindIp : GoText.Bytes) (i : Ifindex) (ip : Ip) (id : SandboxId) (t : TapDevice)
  (fromPool : Bool)

lemma within_delPortMapping (l h : UInt16) : Minor (delPortMapping i l h) :=
  within_andThen (within_act trivial) (within_act trivial)

lemma within_addPortMapping (l h : UInt16) : Minor (addPortMapping i l h) :=
  within_andThen (within_act trivial) (within_act trivial)

lemma within_clearLoop (ms : List PortMapping) : Minor (clearLoop i ms) := by
  induction ms with
  | nil => exact .ret trivial
  | cons m ms ih =>
    refine (within_delPortMapping i m.container m.host).bind fun b _ => ?_
    cases b
    · exact ih.bind fun _ _ => .ret trivial
    · exact within_then trivial fun _ => ih

lemma within_clearPortMappings :
    Within Act.minor (fun v => v.1.key = t.key) (clearPortMappings t) :=
  (within_clearLoop t.index t.portMappings).bind fun _ _ => .ret rfl

lemma within_delTapDevice : Minor (delTapDevice i ip) := by
  have hpol : Minor (andThen (cleanupNetPolicy i) (cleanupDnsAllow i)) :=
    within_andThen (within_andThen (within_act trivial) (within_act trivial)) (within_act trivial)
  refine hpol.bind fun b _ => ?_
  cases b
  · exact .ret trivial
  refine within_then trivial fun v => ?_
  cases v
  · exact within_act trivial
  · exact .ret trivial
  · exact .ret trivial

lemma within_cleanupCubeVSTap : Minor (cleanupCubeVSTap i ip) :=
  (within_delTapDevice i ip).bind fun _ _ => .ret trivial

lemma within_clearAndCleanup : Within Act.minor (fun v => v.1.key = t.key) (clearAndCleanup t) :=
  (within_clearPortMappings t).bind fun v hv =>
    (within_cleanupCubeVSTap v.1.index v.1.ip).bind fun _ _ => .ret hv

lemma within_prepareTapForPool : Minor (prepareTapForPool t) :=
  within_andThen (within_andThen (within_act trivial) (within_act trivial)) <|
    within_andThen (within_act trivial) (within_act trivial)

lemma within_choosePort (p : Int32) : Minor (choosePort p) := by
  unfold choosePort
  split
  · exact within_act trivial
  · exact within_then trivial fun _ => .ret trivial

lemma within_configureFailed : Within Act.minor (fun v => v.1.key = t.key) (configureFailed t) :=
  (within_clearPortMappings t).bind fun _ hv => .ret hv

lemma within_configureLoop (actual ms : List PortMapping) :
    Within Act.minor (fun v => v.1.key = t.key) (configureLoop bindIp t actual ms) := by
  induction ms generalizing t actual with
  | nil => exact .ret rfl
  | cons m ms ih =>
    refine (within_choosePort m.hostPort).bind fun p _ => ?_
    cases p with
    | none => exact within_configureFailed t
    | some p =>
      refine (within_addPortMapping t.index m.container p).bind fun b _ => ?_
      cases b
      · -- the mapping could not be made
        simp only [Bool.false_eq_true, if_false]
        split
        · exact within_then trivial fun _ => within_configureFailed t
        · exact within_configureFailed t
      · exact ih { t with portMappings := actual ++ [_] } (actual ++ [_])

lemma within_dropOldIp (old : Option DeviceMeta) (ip : Ip) : Minor (dropOldIp old ip) := by
  unfold dropOldIp
  dsimp only
  split
  · exact within_then trivial fun _ => .ret trivial
  · exact .ret trivial

lemma within_upsertTapDeviceMeta (version : UInt32) :
    Minor (upsertTapDeviceMeta i ip id version) := by
  unfold upsertTapDeviceMeta
  split
  · exact .ret trivial
  refine within_then trivial fun v => ?_
  cases v with
  | none => exact .ret trivial
  | some old =>
    exact within_andThen (within_act trivial) <|
      within_andThen (within_dropOldIp old ip) (within_act trivial)

lemma within_setDnsPolicyFlags (flags : UInt8) : Minor (setDnsPolicyFlags i flags) := by
  refine within_then trivial fun v => ?_
  split
  · split
    · exact .ret trivial
    · exact within_act trivial
  · exact .ret trivial

lemma within_putPolicy (empty : Bool) (op : PolicyOp) : Minor (putPolicy i empty op) := by
  unfold putPolicy
  split
  · exact .ret trivial
  · exact within_act trivial

lemma within_applyNetPolicy (opts : Pol.MvmOptions) : Minor (applyNetPolicy i opts) := by
  unfold applyNetPolicy
  split
  · exact .ret trivial
  refine within_andThen (within_putPolicy i _ _) <| within_andThen (within_putPolicy i _ _) <|
    within_andThen (within_putPolicy i _ _) ?_
  split
  · exact .ret trivial
  · exact within_setDnsPolicyFlags i _

lemma within_addTapDevice (version : UInt32) (opts : Pol.MvmOptions) :
    Minor (addTapDevice i ip id version opts) := by
  refine (within_upsertTapDeviceMeta i ip id version).bind fun b _ => ?_
  cases b
  · exact .ret trivial
  refine (within_applyNetPolicy i opts).bind fun b _ => ?_
  cases b
  · exact (within_delTapDevice i ip).bind fun _ _ => .ret trivial
  · exact .ret trivial

variable (req : EnsureRequest)

lemma within_registerCubeVSTap : Minor (registerCubeVSTap t req) :=
  within_then trivial fun v => within_addTapDevice t.index t.ip req.sandboxId v _

lemma within_waitForInflightCreation (handle : SandboxId) :
    Minor (waitForInflightCreation id handle) := by
  refine within_then trivial fun v => ?_
  cases v with
  | none => exact .ret trivial
  | some ch => exact within_act trivial

/-! ### Programs that hold a device -/

lemma tok_eq {t u : TapDevice} (h : u.key = t.key) : u.tok = t.tok := by
  obtain ⟨hip, hindex⟩ := Prod.mk.inj h
  rw [TapDevice.tok, hip, hindex, TapDevice.tok]

lemma keeps_prepareAndStageTapForPool : Keeps (prepareAndStageTapForPool t) {t.tok} fun v r =>
      v = none ∧ r = 0 ∨ ∃ e u, v = some (e, u) ∧ u.key = t.key ∧ r = {u.tok} := by
  refine Keeps.after (within_clearPortMappings t) fun v hv => ?_
  rcases v with ⟨u, cleared⟩
  have htok : t.tok = u.tok := (tok_eq hv).symm
  rw [htok]
  cases cleared
  · exact .ret (.inr ⟨_, u, rfl, hv, rfl⟩)
  refine Keeps.after (within_prepareTapForPool u) fun b _ => ?_
  cases b
  · exact .ret (.inr ⟨_, u, rfl, hv, rfl⟩)
  · exact (keeps_stageTapForPool u).bind fun _ r hr => .ret (.inl ⟨rfl, hr⟩)

lemma keeps_enqueuePrepareFailedTap (e : TapErr) :
    Spends (enqueuePrepareFailedTap t e) {t.tok} := by
  cases e
  · exact keeps_requeuePreparePoolFailure t
  · exact keeps_enqueueAbnormal t _

lemma keeps_recycleTap : Spends (recycleTap t) {t.tok} := by
  refine (keeps_prepareAndStageTapForPool t).bind ?_
  rintro v r (⟨rfl, rfl⟩ | ⟨e, u, rfl, -, rfl⟩)
  · exact .ret rfl
  · exact keeps_enqueuePrepareFailedTap u e

lemma keeps_prepareOrRequeue : Spends (prepareOrRequeue t) {t.tok} := by
  refine (keeps_prepareAndStageTapForPool t).bind ?_
  rintro v r (⟨rfl, rfl⟩ | ⟨e, u, rfl, -, rfl⟩)
  · exact .ret rfl
  · exact keeps_requeuePreparePoolFailure u

lemma keeps_destroyAndRelease : Spends (destroyAndRelease i ip) {.tap ip i} := by
  refine (keeps_destroyTap ip i).seq fun _ => ?_
  exact keeps_releaseIp ip

lemma keeps_releaseAcquiredTap : Spends (releaseAcquiredTap t fromPool) {t.tok} := by
  cases fromPool
  · exact keeps_destroyAndRelease t.index t.ip
  · exact keeps_recycleTap t

lemma keeps_rollback : Spends (rollback t fromPool) {t.tok} := by
  refine Keeps.after (within_clearAndCleanup t) fun v hv => ?_
  rcases v with ⟨u, cleaned⟩
  have htok : t.tok = u.tok := (tok_eq hv).symm
  rw [htok]
  cases cleaned
  · exact keeps_enqueueAbnormal u _
  · exact keeps_releaseAcquiredTap u fromPool

/-! ### The pool and the abnormal devices -/

lemma keeps_createPoolTap : Spends createPoolTap 0 := by
  refine keeps_allocateIp.bind ?_
  rintro v r (⟨rfl, rfl⟩ | ⟨ip, rfl, rfl⟩)
  · exact .ret rfl
  refine (keeps_newTap ip).bind ?_
  rintro v r (⟨rfl, rfl⟩ | ⟨t, rfl, rfl, rfl⟩)
  · exact (keeps_releaseIp ip).ended
  refine (keeps_prepareAndStageTapForPool t).bind ?_
  rintro v r (⟨rfl, rfl⟩ | ⟨e, u, rfl, hu, rfl⟩)
  · exact .ret rfl
  have hip : u.tok = .tap t.ip u.index := by rw [TapDevice.tok, (Prod.mk.inj hu).1]
  rw [hip]
  exact (keeps_destroyAndRelease u.index t.ip).ended

lemma keeps_createPoolTaps : Spends (createPoolTaps n) 0 := by
  induction n with
  | zero => exact .ret rfl
  | succ n ih =>
    refine keeps_createPoolTap.seq fun b => ?_
    cases b
    · exact .ret rfl
    · exact ih

lemma keeps_ensureTapInventory : Spends (ensureTapInventory n) 0 := by
  unfold ensureTapInventory
  split
  · exact .ret rfl
  refine Keeps.then trivial fun v => ?_
  cases v with
  | none => exact .ret rfl
  | some taps => exact keeps_createPoolTaps _

lemma keeps_tryRecoverAbnormalTap : Keeps (tryRecoverAbnormalTap t) {t.tok} fun v r =>
      (∃ u, v = .ok u ∧ u.key = t.key ∧ r = {t.tok}) ∨ v = .error false ∧ r = {t.tok} ∨
        v = .error true ∧ r = {.addr t.ip} := by
  refine (keeps_restoreTap t).bind ?_
  rintro v r (⟨u, rfl, hu, rfl⟩ | ⟨rfl, rfl⟩ | ⟨rfl, rfl⟩)
  · dsimp only
    split
    · refine Keeps.after (within_clearPortMappings u) fun v hv => ?_
      rcases v with ⟨u', cleared⟩
      cases cleared
      · exact .ret (.inr (.inl ⟨rfl, rfl⟩))
      refine Keeps.after (within_cleanupCubeVSTap u'.index u'.ip) fun b _ => ?_
      cases b
      · exact .ret (.inr (.inl ⟨rfl, rfl⟩))
      · exact .ret (.inl ⟨u', rfl, hv.trans hu, rfl⟩)
    · exact .ret (.inl ⟨u, rfl, hu, rfl⟩)
  · exact .ret (.inr (.inl ⟨rfl, rfl⟩))
  · exact .ret (.inr (.inr ⟨rfl, rfl⟩))

lemma keeps_handleAbnormalTap : Spends (handleAbnormalTap t) {t.tok} := by
  unfold handleAbnormalTap
  split
  · exact (keeps_prepareOrRequeue t).ended
  refine (keeps_tryRecoverAbnormalTap t).bind ?_
  rintro v r (⟨u, rfl, hu, rfl⟩ | ⟨rfl, rfl⟩ | ⟨rfl, rfl⟩)
  · rw [← tok_eq hu]
    exact (keeps_prepareOrRequeue u).ended
  · exact (keeps_recoveryFailed t).ended
  · exact (keeps_recoveryFailed_missing t).ended

lemma keeps_handleAbnormalTaps (tapInitNum n : Nat) (released : Bool) :
    Spends (handleAbnormalTaps tapInitNum n released) 0 := by
  have hdone : ∀ released : Bool, Keeps (if released = true then ensureTapInventory tapInitNum
      else pure ()) 0 fun _ r => r = 0 := by
    intro released
    cases released
    · exact .ret rfl
    · exact keeps_ensureTapInventory tapInitNum
  induction n generalizing released with
  | zero => exact hdone released
  | succ n ih =>
    refine keeps_dequeueAbnormal.bind ?_
    rintro v r (⟨rfl, rfl⟩ | ⟨t, rfl, rfl⟩)
    · exact hdone released
    · refine (keeps_handleAbnormalTap t).seq fun missing => ?_
      exact ih _

/-! ### Creation and release -/

lemma keeps_cleanupConflictingTap :
    Keeps (cleanupConflictingTap ip) {.addr ip} fun _ r => r = {.addr ip} := by
  refine (keeps_listCubeTaps_addr ip).bind fun v r h => ?_
  obtain ⟨rfl, hfree⟩ := h
  cases v with
  | none => exact .ret rfl
  | some l =>
    have hnone : (l.find? fun e => e.2 = ip) = none := by
      simpa using fun i x hx => hfree l rfl (i, x) hx
    simp only [hnone]
    exact .ret rfl

lemma keeps_createTap : Keeps (createTap ip) {.addr ip} fun v r =>
      v = none ∧ r = 0 ∨ ∃ t, v = some t ∧ r = {t.tok} := by
  refine (keeps_cleanupConflictingTap ip).seq fun b => ?_
  cases b
  · exact (keeps_releaseIp ip).bind fun _ r hr => .ret (.inl ⟨rfl, hr⟩)
  refine (keeps_newTap ip).bind ?_
  rintro v r (⟨rfl, rfl⟩ | ⟨t, rfl, rfl, rfl⟩)
  · exact (keeps_releaseIp ip).bind fun _ r hr => .ret (.inl ⟨rfl, hr⟩)
  refine Keeps.after (within_prepareTapForPool t) fun b _ => ?_
  cases b
  · exact (keeps_destroyAndRelease t.index t.ip).bind fun _ r hr => .ret (.inl ⟨rfl, hr⟩)
  · exact .ret (.inr ⟨t, rfl, rfl⟩)

lemma keeps_acquireTap :
    Keeps acquireTap 0 fun v r => v = none ∧ r = 0 ∨ ∃ t b, v = some (t, b) ∧ r = {t.tok} := by
  refine keeps_dequeueTap.bind ?_
  rintro v r (⟨rfl, rfl⟩ | ⟨t, rfl, rfl⟩)
  · refine keeps_allocateIp.bind ?_
    rintro v r (⟨rfl, rfl⟩ | ⟨ip, rfl, rfl⟩)
    · exact .ret (.inl ⟨rfl, rfl⟩)
    refine (keeps_createTap ip).bind ?_
    rintro v r (⟨rfl, rfl⟩ | ⟨t, rfl, rfl⟩)
    · exact .ret (.inl ⟨rfl, rfl⟩)
    · exact .ret (.inr ⟨t, false, rfl, rfl⟩)
  · exact .ret (.inr ⟨t, true, rfl, rfl⟩)

/-- A creation ends with the guard alone, or with a state, its file and its device. -/
def Created (id : SandboxId) (v : Option ManagedState) (r : Multiset Tok) : Prop :=
  v = none ∧ r = {.creating id none} ∨
    ∃ st, v = some st ∧ st.persisted.sandboxId = id ∧ StateOk id st ∧
      r = {.creating id (some st.persisted)} + {.tap st.key.1 st.key.2}

lemma keeps_finishState (actual : List PortMapping) :
    Keeps (finishState t fromPool req actual) ({.creating req.sandboxId none} + {t.tok})
      (Created req.sandboxId) := by
  -- every failure undoes what was done with the device
  have hback : Keeps (rollback t fromPool >>= fun _ => (pure none : Task (Option ManagedState)))
      ({.creating req.sandboxId none} + {t.tok}) (Created req.sandboxId) := by
    rw [add_comm]
    refine (keeps_rollback t fromPool).call fun _ r hr => ?_
    subst hr
    exact .ret (.inl ⟨rfl, zero_add _⟩)
  refine Keeps.after (within_registerCubeVSTap t req) fun b _ => ?_
  cases b
  · exact hback
  refine (keeps_save (newState t req actual).persisted).call ?_
  rintro v r (⟨rfl, rfl⟩ | ⟨rfl, rfl⟩)
  · refine .ret (.inr ⟨newState t req actual, rfl, rfl, ⟨rfl, fun u hu => ?_⟩, rfl⟩)
    cases hu
    rfl
  · exact hback

lemma keeps_createState :
    Keeps (createState bindIp req) {.creating req.sandboxId none} (Created req.sandboxId) := by
  refine Keeps.then trivial fun b => ?_
  cases b
  · exact .ret (.inl ⟨rfl, rfl⟩)
  rw [← zero_add {Tok.creating req.sandboxId none}]
  refine keeps_acquireTap.call ?_
  rintro v r (⟨rfl, rfl⟩ | ⟨t, fromPool, rfl, rfl⟩)
  · exact .ret (.inl ⟨rfl, zero_add _⟩)
  refine Keeps.after (within_configureLoop bindIp t [] _) fun v hv => ?_
  rcases v with ⟨u, res⟩
  have htok : t.tok = u.tok := (tok_eq hv).symm
  rw [htok]
  match res with
  | .ok actual =>
    rw [add_comm]
    exact keeps_finishState u fromPool req actual
  | .error .cleanup =>
    refine (keeps_enqueueAbnormal u _).call fun _ r hr => ?_
    subst hr
    exact .ret (.inl ⟨rfl, zero_add _⟩)
  | .error .plain =>
    refine (keeps_releaseAcquiredTap u fromPool).call fun _ r hr => ?_
    subst hr
    exact .ret (.inl ⟨rfl, zero_add _⟩)

lemma keeps_ensureNetwork : Spends (ensureNetwork bindIp req) 0 := by
  refine (keeps_ensureEnter req.sandboxId).bind ?_
  rintro v r (⟨⟨st, rfl⟩, rfl⟩ | ⟨⟨ch, rfl⟩, rfl⟩ | ⟨⟨ch, rfl⟩, rfl⟩)
  · exact .ret rfl
  · refine Keeps.then trivial fun _ => ?_
    exact Keeps.then trivial fun _ => .ret rfl
  refine (keeps_createState bindIp req).bind ?_
  rintro v r (⟨rfl, rfl⟩ | ⟨st, rfl, hid, hst, rfl⟩)
  · exact (keeps_ensureExit_none _).ended
  · rw [← hid] at hst ⊢
    exact (keeps_ensureExit_some st hst).ended

lemma keeps_releaseState (st : ManagedState) (hst : StateOk st.persisted.sandboxId st) :
    Keeps (releaseState st)
      ({.releasing st.persisted.sandboxId st.persisted} + {.tap st.key.1 st.key.2})
      fun v r => v.2 = true ∧ r = 0 ∨ v.2 = false ∧ v.1.persisted = st.persisted ∧
        StateOk v.1.persisted.sandboxId v.1 ∧
        r = {.releasing st.persisted.sandboxId st.persisted} + {.tap st.key.1 st.key.2} := by
  have hrec : st.tapRecord.key = st.key := by
    unfold ManagedState.tapRecord
    split
    · rfl
    · rename_i t ht; exact hst.tap_eq t ht
  refine Keeps.after (within_clearPortMappings st.tapRecord) fun v hv => ?_
  rcases v with ⟨t, cleared⟩
  have hkey : t.key = st.key := hv.trans hrec
  have hok : StateOk st.persisted.sandboxId { st with tap := some t } :=
    ⟨rfl, fun u hu => by cases hu; exact hkey⟩
  cases cleared
  · exact .ret (.inr ⟨rfl, rfl, hok, rfl⟩)
  refine Keeps.after (within_cleanupCubeVSTap _ _) fun b _ => ?_
  cases b
  · exact .ret (.inr ⟨rfl, rfl, hok, rfl⟩)
  refine (keeps_deleteFile st.persisted st.persisted.sandboxId).call ?_
  rintro v r (⟨rfl, rfl⟩ | ⟨rfl, rfl⟩)
  · have htok : Tok.tap st.key.1 st.key.2 = t.tok := by rw [← hkey]; rfl
    rw [zero_add, htok]
    exact (keeps_recycleTap t).bind fun _ r hr => .ret (.inl ⟨rfl, hr⟩)
  · exact .ret (.inr ⟨rfl, rfl, hok, rfl⟩)

lemma keeps_releaseNetwork (handle : SandboxId) : Spends (releaseNetwork id handle) 0 := by
  refine Keeps.after (within_waitForInflightCreation id handle) fun _ _ => ?_
  refine (keeps_takeState id handle).bind ?_
  rintro v r (⟨rfl, rfl⟩ | ⟨st, rfl, hst, rfl⟩)
  · exact .ret rfl
  refine (keeps_releaseState st hst).bind fun v r h => ?_
  rcases v with ⟨st', released⟩
  rcases h with ⟨rfl, rfl⟩ | ⟨rfl, hp, hok, rfl⟩
  · exact .ret rfl
  have hkey : st.key = st'.key := by rw [ManagedState.key, ManagedState.key, hp]
  rw [← hp, hkey]
  exact (keeps_putBack st' hok).ended

/-- What holds of the service between operations. -/
structure Conserved (w : World) : Prop where
  /-- A device of the host has exactly one record. -/
  device : ∀ i ip, w.links.get i = some ip → w.tracked.count (ip, i) = 1
  /-- There are no records of other devices. -/
  tracked : ∀ i ip, (ip, i) ∈ w.tracked → w.links.get i = some ip
  /-- The addresses in use are those of the devices, -/
  address : ∀ ip, w.allocator.Allocated ip ↔ ∃ i, w.links.get i = some ip
  /-- each of which has its own. -/
  single : ∀ i j ip, w.links.get i = some ip → w.links.get j = some ip → i = j
  /-- The files are those of the committed states. -/
  file : ∀ id f, w.files.get id = some f ↔ ∃ st, w.states.get id = some st ∧ f = some st.persisted

lemma Owned.conserved {w : World} (h : Owned w 0) : Conserved w := by
  have howned : owned w 0 = w.tracked := by simp [owned]
  have hips : ownedIps w 0 = w.tracked.map Prod.fst := by simp [ownedIps, howned]
  obtain ⟨hn, hu, hl, -⟩ := h.taps
  rw [hips] at hn
  simp only [hips] at hu
  simp only [howned] at hl
  have hinj := inj_on_of_nodup_map hn
  refine ⟨fun i ip hi => ?_, fun i ip hm => (hl i ip).2 hm, fun ip => ?_, fun i j ip hi hj => ?_,
    fun id f => ?_⟩
  · exact count_eq_one_of_mem (.of_map _ hn) ((hl i ip).1 hi)
  · rw [hu ip, mem_map]
    constructor
    · rintro ⟨⟨x, i⟩, hm, rfl⟩
      exact ⟨i, (hl i x).2 hm⟩
    · rintro ⟨i, hi⟩
      exact ⟨(ip, i), (hl i ip).1 hi, rfl⟩
  · exact (Prod.mk.inj (hinj _ ((hl i ip).1 hi) _ ((hl j ip).1 hj) rfl)).2
  rw [h.ids.files id f]
  simp only [zero_bind, add_zero, World.stateFiles, mem_map, Prod.exists,
    Tbl.mem_pairs, Prod.mk.injEq]
  constructor
  · rintro ⟨x, st, hx, rfl, rfl⟩
    exact ⟨st, hx, rfl⟩
  · rintro ⟨st, hst, rfl⟩
    exact ⟨id, st, hst, rfl, rfl⟩

lemma owned_fresh (cfg : Config) : Owned (World.fresh cfg) 0 := by
  have howned : owned (World.fresh cfg) 0 = 0 := rfl
  have hips : ownedIps (World.fresh cfg) 0 = 0 := rfl
  refine ⟨⟨by rw [hips]; exact nodup_zero, fun ip => ?_, fun i ip => ?_, ?_⟩, ?_⟩
  · rw [hips]
    refine iff_of_false ?_ (notMem_zero _)
    exact @IpAllocator.not_allocated_new cfg.cidr cfg.mask cfg.keepLast cfg.mask_ok ip
  · rw [howned]
    exact iff_of_false (by simp [World.fresh]) (notMem_zero _)
  · simp [World.fresh]
  · exact ⟨nodup_zero, fun id f => iff_of_false (by simp [World.fresh])
      (notMem_zero _), fun id => iff_of_false (by simp [World.fresh])
      (notMem_zero _), rfl, by simp [World.fresh]⟩

/-- Operations of a service that stays up. -/
def stays (_ : World) (op : Op) : Prop := op ≠ .restart

instance (w : World) (op : Op) : Decidable (stays w op) :=
  inferInstanceAs (Decidable (op ≠ .restart))

lemma keeps_program (cfg : Config) {op : Op} (h : op ≠ .restart) : Spends (program cfg op) 0 := by
  cases op with
  | ensure req => exact (keeps_ensureNetwork _ req).ended
  | release id handle => exact (keeps_releaseNetwork id handle).ended
  | maintain n => exact keeps_handleAbnormalTaps _ n false
  | warmup => exact keeps_ensureTapInventory _
  | restart => exact absurd rfl h

lemma machine_start {w w' : World} {op : Op} {p : Task Unit} (hop : op ≠ .restart)
    (h : machine.start w op = some (w', p)) : w' = w ∧ p = program w.cfg op := by
  cases op <;> simp only [machine, Option.ite_none_right_eq_some, Option.some.injEq,
    Prod.mk.injEq] at h
  case restart => exact absurd rfl hop
  all_goals exact ⟨h.2.1.symm, h.2.2.symm⟩

lemma owned_step {c c' : Conf} {e : Event} (h : Sound machine Owned Careful c)
    (hok : Machine.onEv Careful stays c e) (hstep : step c e = some c') :
    Sound machine Owned Careful c' := by
  refine sound_step ?_ h hok hstep
  intro w R op w' p hI hop _ hs
  obtain ⟨rfl, rfl⟩ := machine_start hop hs
  exact ⟨0, by rwa [zero_add], keeps_program _ hop⟩

/-- **Conservation.** In every interleaving in which no deletion of a device fails, no device or
file is left half made, and no creation of a sandbox begins while its release is on its way, the
accounts hold whenever no operation is in flight. -/
theorem taps_conserved {w : World} {es : List Event} {c : Conf} (hw : Owned w 0)
    (hm : Runs.Meets step (Machine.onEv Careful stays) ⟨w, []⟩ es)
    (h : exec step ⟨w, []⟩ es = some c) (hq : c.Quiet) : Conserved c.world := by
  have hsound : Sound machine Owned Careful c :=
    exec_inv (fun _ _ _ => owned_step) (.start hw rfl) hm h
  exact (hsound.of_quiet hq).conserved

def demoCfg : Config := ⟨0x0a000000, 24, by decide, 0, [20000], [], 0⟩

def demoConf : Conf := ⟨.fresh demoCfg, []⟩

def goes (n : Nat) (os : List Out) : List Event := os.map (.go n)

def demoEnsure : Event := .start (.ensure ⟨[1], [], none⟩)

/-- A creation up to the device, then up to the state file, when the host has the devices `l`. -/
def deviceMade (l : List (Ifindex × Ip)) (i : Ifindex) : List Out :=
  [.ok, .ok, .ok, .ok, .links l, .made i, .ok, .ok, .ok, .ok, .ok, .ok, .ok, .ok]

/-- A creation, and a release that fails at the file and succeeds when it is tried again. -/
def demoRun : List Event :=
  demoEnsure :: goes 0 (deviceMade [] 7 ++ [.ok, .ok]) ++
    [.start (.release [1] [])] ++ goes 1 [.ok, .ok, .ok, .ok, .ok, .ok, .ok, .fail, .ok] ++
    [.start (.release [1] [])] ++
    goes 2 [.ok, .ok, .ok, .ok, .ok, .ok, .ok, .ok, .ok, .ok, .cut 0, .ok]

theorem released_tap_conserved :
    ∃ c, exec step demoConf demoRun = some c ∧ c.world.abnormalTapPool.length = 1 ∧
      Conserved c.world := by
  refine leads (fun c => (c.world.abnormalTapPool.length, decide c.Quiet)) (1, true)
    (by decide +kernel) fun c hc hout => ?_
  simp only [Prod.mk.injEq, decide_eq_true_eq] at hout
  exact ⟨hout.1, taps_conserved (owned_fresh demoCfg) (by decide +kernel) hc hout.2⟩

/-- A device without a record, or a file or a state without the other. -/
def World.leaks (w : World) : Bool :=
  (w.links.toPairs.any fun e => (e.2, e.1) ∉ w.tracked) ||
    (w.files.toPairs.any fun e => (w.states.get e.1).isNone) ||
    w.states.toPairs.any fun e => (w.files.get e.1).isNone

lemma not_conserved_of_leaks {w : World} (h : w.leaks = true) : ¬ Conserved w := by
  intro hc
  simp only [World.leaks, Bool.or_eq_true, List.any_eq_true, decide_eq_true_eq] at h
  rcases h with (⟨⟨i, ip⟩, hm, hout⟩ | ⟨⟨id, f⟩, hm, hout⟩) | ⟨⟨id, st⟩, hm, hout⟩
  · have hcount := hc.device i ip (Tbl.mem_pairs.1 (mem_coe.2 hm))
    rw [count_eq_zero_of_notMem hout] at hcount
    simp at hcount
  · obtain ⟨st, hst, -⟩ := (hc.file id f).1 (Tbl.mem_pairs.1 (mem_coe.2 hm))
    simp [hst] at hout
  · have hfile := (hc.file id _).2 ⟨st, Tbl.mem_pairs.1 (mem_coe.2 hm), rfl⟩
    simp [hfile] at hout

/-- A sandbox is created again while its release is on its way. -/
def overlapRun : List Event :=
  demoEnsure :: goes 0 (deviceMade [] 7 ++ [.ok, .ok]) ++
    .start (.release [1] []) :: goes 1 [.ok, .ok] ++
    demoEnsure :: goes 2 (deviceMade [(7, 0x0a000002)] 8 ++ [.ok, .ok]) ++
    goes 1 [.ok, .ok, .ok, .ok, .ok, .ok, .ok, .ok, .ok, .ok, .ok]

/-- The state file cannot be written, and the new device cannot be deleted. -/
def undeletedRun : List Event :=
  demoEnsure :: goes 0 (deviceMade [] 7 ++ [.fail, .ok, .ok, .ok, .ok, .ok, .fail, .ok, .ok])

def cutOffRun : List Event :=
  demoEnsure :: goes 0 (deviceMade [] 7 ++ [.truncated, .ok, .ok, .ok, .ok, .ok, .ok, .ok, .ok])

/-- The setup of the new device fails, and so does its deletion. -/
def halfMadeRun : List Event :=
  demoEnsure :: goes 0 [.ok, .ok, .ok, .ok, .links [], .left 7, .ok, .ok]

lemma leaking_runs : ∀ es ∈ [overlapRun, undeletedRun, cutOffRun, halfMadeRun],
      ∃ c, exec step demoConf es = some c ∧ c.Quiet ∧ ¬ Conserved c.world := by
  have hruns : ∀ es ∈ [overlapRun, undeletedRun, cutOffRun, halfMadeRun],
      (exec step demoConf es).map (fun c => (decide c.Quiet, c.world.leaks)) =
        some (true, true) := by decide +kernel
  intro es hes
  obtain ⟨c, hc, hout⟩ := Option.map_eq_some_iff.1 (hruns es hes)
  simp only [Prod.mk.injEq, decide_eq_true_eq] at hout
  exact ⟨c, hc, hout.1, not_conserved_of_leaks hout.2⟩

theorem taps_not_conserved :
    ¬ ∀ (es : List Event) (c : Conf), exec step demoConf es = some c → c.Quiet →
      Conserved c.world := by
  intro hall
  obtain ⟨c, hc, hquiet, hleak⟩ := leaking_runs overlapRun (by simp)
  exact hleak (hall _ c hc hquiet)

end CubeSandbox.Agent
