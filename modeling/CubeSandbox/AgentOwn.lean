import CubeSandbox.AgentRecover

/-!
Who owns what while the agent works.

A device is in one of the containers of the service or held by one thread, an address is used by
a device or held by a thread that is about to make or has just lost one, and a sandbox id is
committed, being created or being released. Threads hold tokens; the invariant says that
containers and tokens together account for every device, address and file exactly once. Each
action is then a move of tokens.
-/

namespace CubeSandbox.Agent

open Conc Multiset Tbl Option

inductive Tok
  | tap (ip : Ip) (i : Ifindex)
  | addr (ip : Ip)
  /-- The guard of a creation, and the file once it is saved. -/
  | creating (id : SandboxId) (saved : Option PersistedState)
  | releasing (id : SandboxId) (st : PersistedState)

namespace Tok

def taps : Tok → Multiset (Ip × Ifindex)
  | tap ip i => {(ip, i)}
  | _ => 0

def addrs : Tok → Multiset Ip
  | addr ip => {ip}
  | _ => 0

def creatingIds : Tok → Multiset SandboxId
  | creating id _ => {id}
  | _ => 0

def releasingIds : Tok → Multiset SandboxId
  | releasing id _ => {id}
  | _ => 0

def files : Tok → Multiset (SandboxId × FileContent)
  | creating id (some st) => {(id, some st)}
  | releasing id st => {(id, some st)}
  | _ => 0

end Tok

def TapDevice.key (t : TapDevice) : Ip × Ifindex := (t.ip, t.index)

def ManagedState.key (st : ManagedState) : Ip × Ifindex :=
  (st.persisted.sandboxIp, st.persisted.tapIfIndex)

namespace World

variable (w : World)

def stateTaps : Multiset (Ip × Ifindex) := w.states.pairs.map fun e => e.2.key
def poolTaps : Multiset (Ip × Ifindex) := map TapDevice.key w.tapPool
def abnormalTaps : Multiset (Ip × Ifindex) := map TapDevice.key w.abnormalTapPool
def quarantineTaps : Multiset (Ip × Ifindex) := w.quarantinedTaps.pairs.map fun e => e.2.key

/-- The devices in the containers of the service. -/
def tracked : Multiset (Ip × Ifindex) :=
  w.stateTaps + w.poolTaps + w.abnormalTaps + w.quarantineTaps

/-- The files that the committed states should have. -/
def stateFiles : Multiset (SandboxId × FileContent) :=
  w.states.pairs.map fun e => (e.1, some e.2.persisted)

end World

/-- The devices in containers and hands. -/
def owned (w : World) (R : Multiset Tok) : Multiset (Ip × Ifindex) := w.tracked + R.bind Tok.taps

/-- The addresses of those devices, and those in hands. -/
def ownedIps (w : World) (R : Multiset Tok) : Multiset Ip :=
  (owned w R).map Prod.fst + R.bind Tok.addrs

structure TapsOk (w : World) (R : Multiset Tok) : Prop where
  nodup : (ownedIps w R).Nodup
  used : ∀ ip, w.allocator.Allocated ip ↔ ip ∈ ownedIps w R
  links : ∀ i ip, w.links.get i = some ip ↔ (ip, i) ∈ owned w R
  named : ∀ ip t, w.quarantinedTaps.get ip = some t → t.ip = ip

/-- The record of a state is that of its device. -/
structure StateOk (id : SandboxId) (st : ManagedState) : Prop where
  id_eq : st.persisted.sandboxId = id
  tap_eq : ∀ t, st.tap = some t → t.key = st.key

structure IdsOk (w : World) (R : Multiset Tok) : Prop where
  nodup : (w.states.pairs.map Prod.fst + R.bind Tok.creatingIds + R.bind Tok.releasingIds).Nodup
  files : ∀ id f, w.files.get id = some f ↔ (id, f) ∈ w.stateFiles + R.bind Tok.files
  creating : ∀ id, (w.creating.get id).isSome ↔ id ∈ R.bind Tok.creatingIds
  releasing : (w.releasing : Multiset SandboxId) = R.bind Tok.releasingIds
  states : ∀ id st, w.states.get id = some st → StateOk id st

structure Owned (w : World) (R : Multiset Tok) : Prop where
  taps : TapsOk w R
  ids : IdsOk w R

/-- Deletions of devices succeed, a state file is written or left alone, and no creation of a
sandbox begins while its release is on its way. -/
def Careful (w : World) : Act → Out → Prop
  | .destroyTap _, .fail => False
  | .newTap _, .left _ => False
  | .save _, .truncated => False
  | .ensureEnter id, _ => id ∉ w.releasing
  | _, _ => True

instance (w : World) : ∀ a o, Decidable (Careful w a o) := by
  intro a o
  unfold Careful
  split <;> infer_instance

abbrev Keeps {α : Type} (p : Task α) (r : Multiset Tok) (Q : α → Multiset Tok → Prop) : Prop :=
  Safe machine Owned Careful p r Q

/-- The program ends with empty hands. -/
abbrev Spends {α : Type} (p : Task α) (r : Multiset Tok) : Prop := Keeps p r fun _ r => r = 0

/-! ### Accounts -/

section
variable {w w' : World} {R R' : Multiset Tok}

lemma TapsOk.move (h : TapsOk w R) (hlinks : w'.links = w.links)
    (halloc : w'.allocator = w.allocator) (howned : owned w' R' = owned w R)
    (haddrs : R'.bind Tok.addrs = R.bind Tok.addrs)
    (hnamed : ∀ ip t, w'.quarantinedTaps.get ip = some t → t.ip = ip) : TapsOk w' R' := by
  have hips : ownedIps w' R' = ownedIps w R := by rw [ownedIps, ownedIps, howned, haddrs]
  exact ⟨hips ▸ h.nodup, fun ip => by rw [halloc, hips]; exact h.used ip,
    fun i ip => by rw [hlinks, howned]; exact h.links i ip, hnamed⟩

lemma Owned.same (h : Owned w R) (hlinks : w'.links = w.links)
    (halloc : w'.allocator = w.allocator) (hstates : w'.states = w.states)
    (hpool : w'.tapPool = w.tapPool) (habn : w'.abnormalTapPool = w.abnormalTapPool)
    (hq : w'.quarantinedTaps = w.quarantinedTaps) (hfiles : w'.files = w.files)
    (hcr : w'.creating = w.creating) (hrel : w'.releasing = w.releasing) : Owned w' R := by
  have howned : owned w' R = owned w R := by
    simp only [owned, World.tracked, World.stateTaps, World.poolTaps, World.abnormalTaps,
      World.quarantineTaps, hstates, hpool, habn, hq]
  refine ⟨h.taps.move hlinks halloc howned rfl (hq ▸ h.taps.named), ?_⟩
  obtain ⟨hn, hf, hc, hr, hs⟩ := h.ids
  exact ⟨hstates ▸ hn, by simpa only [World.stateFiles, hstates, hfiles] using hf, hcr ▸ hc,
    hrel ▸ hr, hstates ▸ hs⟩

lemma IdsOk.same (h : IdsOk w R) (hstates : w'.states = w.states) (hfiles : w'.files = w.files)
    (hcr : w'.creating = w.creating) (hrel : w'.releasing = w.releasing)
    (hc : R'.bind Tok.creatingIds = R.bind Tok.creatingIds)
    (hr : R'.bind Tok.releasingIds = R.bind Tok.releasingIds)
    (hf : R'.bind Tok.files = R.bind Tok.files) : IdsOk w' R' := by
  obtain ⟨hn, hfs, hcs, hrs, hs⟩ := h
  exact ⟨by rwa [hstates, hc, hr], by simpa only [World.stateFiles, hstates, hfiles, hf] using hfs,
    by rwa [hcr, hc], by rwa [hrel, hr], hstates ▸ hs⟩

variable {F : Multiset Tok} {i : Ifindex}

lemma owned_tok {ip : Ip} : owned w ({.tap ip i} + F) = (ip, i) ::ₘ owned w F := by
  simp [owned, Tok.taps]

lemma TapsOk.notMem {ip : Ip} (h : TapsOk w ({.tap ip i} + F)) : ip ∉ ownedIps w F := by
  have hn := h.nodup
  rw [ownedIps, owned_tok] at hn
  simp only [map_cons, add_bind, singleton_bind, Tok.addrs, zero_add, cons_add, nodup_cons] at hn
  exact hn.1

lemma TapsOk.quarantine_none {ip : Ip}
    (h : TapsOk w ({.tap ip i} + F)) : w.quarantinedTaps.get ip = none := by
  by_contra hne
  obtain ⟨t, ht⟩ := ne_none_iff_exists'.1 hne
  refine h.notMem ?_
  have hip := h.named ip t ht
  have hmem : t.key ∈ owned w F := by
    refine mem_add.2 (.inl (mem_add.2 (.inr ?_)))
    exact mem_map.2 ⟨(ip, t), mem_pairs.2 ht, rfl⟩
  exact mem_add.2 (.inl (mem_map.2 ⟨_, hmem, hip⟩))

end

/-! ### Actions on devices -/

def TapDevice.tok (t : TapDevice) : Tok := .tap t.ip t.index

variable (t : TapDevice)

lemma own_eq {α : Type} {w w' : World} {v v' : α} {o : Out} (h : own w v o = some (w', v')) :
    w' = w ∧ v' = v := by
  cases o <;> simp_all [own]

lemma call_eq {w w1 w' : World} {o : Out} {b : Bool} (h : call w w1 o = some (w', b)) :
    b = true ∧ w' = w1 ∨ b = false ∧ w' = w := by
  cases o <;> simp_all [call]

structure PoolsOnly (w w' : World) : Prop where
  links : w'.links = w.links
  allocator : w'.allocator = w.allocator
  states : w'.states = w.states
  files : w'.files = w.files
  creating : w'.creating = w.creating
  releasing : w'.releasing = w.releasing

section
variable {w w' : World} {F : Multiset Tok} {ip : Ip} {i : Ifindex}

lemma Owned.give (h : Owned w ({.tap ip i} + F)) (hw : PoolsOnly w w')
    (htracked : w'.tracked = {(ip, i)} + w.tracked)
    (hnamed : ∀ ip t, w'.quarantinedTaps.get ip = some t → t.ip = ip) : Owned w' (0 + F) := by
  refine ⟨h.taps.move hw.links hw.allocator ?_ (by simp [Tok.addrs]) hnamed,
    h.ids.same hw.states hw.files hw.creating hw.releasing (by simp [Tok.creatingIds])
      (by simp [Tok.releasingIds]) (by simp [Tok.files])⟩
  rw [owned_tok, owned, htracked, zero_add, owned, singleton_add, cons_add]

lemma Owned.take (h : Owned w (0 + F)) (hw : PoolsOnly w w')
    (htracked : w.tracked = {(ip, i)} + w'.tracked)
    (hnamed : ∀ ip t, w'.quarantinedTaps.get ip = some t → t.ip = ip) :
    Owned w' ({.tap ip i} + F) := by
  refine ⟨h.taps.move hw.links hw.allocator ?_ (by simp [Tok.addrs]) hnamed,
    h.ids.same hw.states hw.files hw.creating hw.releasing (by simp [Tok.creatingIds])
      (by simp [Tok.releasingIds]) (by simp [Tok.files])⟩
  rw [owned_tok, owned, owned, htracked, zero_add, singleton_add, cons_add]

end

lemma keeps_dequeueTap :
    Keeps (act .dequeueTap) 0 fun v r => v = none ∧ r = 0 ∨ ∃ t, v = some t ∧ r = {t.tok} := by
  intro w F o w' v hI _ hact
  obtain ⟨rfl, rfl⟩ := own_eq hact
  unfold World.dequeueTap
  split
  · exact ⟨0, hI, .inl ⟨rfl, rfl⟩⟩
  rename_i t rest hp
  refine ⟨{t.tok}, hI.take ⟨rfl, rfl, rfl, rfl, rfl, rfl⟩ ?_ hI.taps.named, .inr ⟨t, rfl, rfl⟩⟩
  have hpool : w.poolTaps = {t.key} + map TapDevice.key rest := by
    rw [World.poolTaps, hp]; rfl
  rw [World.tracked, hpool]
  change _ = {t.key} + (w.stateTaps + map TapDevice.key rest + w.abnormalTaps +
    w.quarantineTaps)
  abel

lemma keeps_dequeueAbnormal : Keeps (act .dequeueAbnormal) 0 fun v r =>
      v = none ∧ r = 0 ∨ ∃ t, v = some t ∧ r = {t.tok} := by
  intro w F o w' v hI _ hact
  obtain ⟨rfl, rfl⟩ := own_eq hact
  unfold World.dequeueAbnormal
  split
  · exact ⟨0, hI, .inl ⟨rfl, rfl⟩⟩
  rename_i t rest hp
  refine ⟨{t.tok}, hI.take ⟨rfl, rfl, rfl, rfl, rfl, rfl⟩ ?_ hI.taps.named, .inr ⟨t, rfl, rfl⟩⟩
  have hpool : w.abnormalTaps = {t.key} + map TapDevice.key rest := by
    rw [World.abnormalTaps, hp]; rfl
  rw [World.tracked, hpool]
  change _ = {t.key} + (w.stateTaps + w.poolTaps + map TapDevice.key rest +
    w.quarantineTaps)
  abel

lemma map_key_snoc (l : List TapDevice) (t : TapDevice) :
    map TapDevice.key (l ++ [t] : List TapDevice) =
      {t.key} + map TapDevice.key (l : List TapDevice) := by
  rw [← coe_add, map_add, add_comm]; rfl

lemma keeps_stageTapForPool : Spends (act (.stageTapForPool t)) {t.tok} := by
  intro w F o w' v hI _ hact
  obtain ⟨rfl, -⟩ := own_eq hact
  have hq : (w.quarantinedTaps.del t.ip).pairs = w.quarantinedTaps.pairs :=
    pairs_del_of_none hI.taps.quarantine_none
  refine ⟨0, hI.give ⟨rfl, rfl, rfl, rfl, rfl, rfl⟩ ?_ fun ip u hu => ?_, rfl⟩
  · change w.stateTaps + map TapDevice.key (w.tapPool ++ [_] : List TapDevice) +
      w.abnormalTaps + (w.quarantinedTaps.del t.ip).pairs.map (fun e => e.2.key) = _
    rw [map_key_snoc, hq]
    change w.stateTaps + ({(t.ip, t.index)} + w.poolTaps) + w.abnormalTaps + w.quarantineTaps = _
    rw [World.tracked]
    abel
  · exact hI.taps.named ip u (get_del_eq_some.1 hu).2

lemma Owned.toAbnormal {w : World} {F : Multiset Tok} {t u : TapDevice}
    (hI : Owned w ({t.tok} + F)) (hu : u.key = t.key) :
    Owned { w with abnormalTapPool := w.abnormalTapPool ++ [u] } (0 + F) := by
  refine hI.give ⟨rfl, rfl, rfl, rfl, rfl, rfl⟩ ?_ hI.taps.named
  change w.stateTaps + w.poolTaps + map TapDevice.key (w.abnormalTapPool ++ [u]) +
    w.quarantineTaps = _
  rw [map_key_snoc, hu, World.tracked]
  change w.stateTaps + w.poolTaps + ({(t.ip, t.index)} + w.abnormalTaps) + w.quarantineTaps = _
  abel

lemma Owned.toQuarantine {w : World} {F : Multiset Tok} {t u : TapDevice}
    (hI : Owned w ({t.tok} + F)) (hu : u.key = t.key) :
    Owned { w with quarantinedTaps := w.quarantinedTaps.put t.ip u } (0 + F) := by
  refine hI.give ⟨rfl, rfl, rfl, rfl, rfl, rfl⟩ ?_ fun ip v hv => ?_
  · change w.stateTaps + w.poolTaps + w.abnormalTaps +
      (w.quarantinedTaps.put t.ip u).pairs.map (fun e => e.2.key) = _
    rw [pairs_put hI.taps.quarantine_none, map_cons, ← singleton_add, hu, World.tracked]
    abel
  · rcases get_put_eq_some.1 hv with ⟨rfl, rfl⟩ | ⟨-, hv⟩
    · exact congrArg Prod.fst hu
    · exact hI.taps.named ip v hv

lemma keeps_enqueueAbnormal (stage : Stage) : Spends (act (.enqueueAbnormal t stage)) {t.tok} := by
  intro w F o w' v hI _ hact
  obtain ⟨rfl, -⟩ := own_eq hact
  exact ⟨0, hI.toAbnormal rfl, rfl⟩

lemma keeps_requeuePreparePoolFailure : Spends (act (.requeuePreparePoolFailure t)) {t.tok} := by
  intro w F o w' v hI _ hact
  obtain ⟨rfl, -⟩ := own_eq hact
  refine ⟨0, ?_, rfl⟩
  unfold World.requeuePreparePoolFailure
  dsimp only
  split
  · exact hI.toQuarantine rfl
  · exact hI.toAbnormal rfl

lemma keeps_recoveryFailed : Spends (act (.recoveryFailed t false)) {t.tok} := by
  intro w F o w' v hI _ hact
  obtain ⟨rfl, -⟩ := own_eq hact
  refine ⟨0, ?_, rfl⟩
  unfold World.recoveryFailed
  simp only [Bool.false_eq_true, if_false]
  split
  · exact hI.toQuarantine rfl
  · exact hI.toAbnormal rfl

/-! ### Actions on addresses and links -/

section
variable {w : World} {F : Multiset Tok} {ip : Ip} {i : Ifindex}

lemma owned_addr : owned w ({.addr ip} + F) = owned w F := by simp [owned, Tok.taps]

lemma ownedIps_addr : ownedIps w ({.addr ip} + F) = ip ::ₘ ownedIps w F := by
  rw [ownedIps, owned_addr]; simp [ownedIps, Tok.addrs]

lemma ownedIps_tok : ownedIps w ({.tap ip i} + F) = ip ::ₘ ownedIps w F := by
  rw [ownedIps, owned_tok]; simp [ownedIps, Tok.addrs]

lemma TapsOk.linkByName_eq (h : TapsOk w ({.tap ip i} + F)) : w.linkByName ip = some i := by
  have hlink : w.links.get i = some ip := (h.links i ip).2 (by rw [owned_tok]; simp)
  cases hj : w.linkByName ip with
  | none => exact absurd hlink (keyOf_eq_none hj i)
  | some j =>
    have hmem := (h.links j ip).1 (keyOf_eq_some hj)
    rw [owned_tok, mem_cons] at hmem
    rcases hmem with heq | hmem
    · rw [(Prod.mk.inj heq).2]
    · exact absurd (mem_add.2 (.inl (mem_map.2 ⟨_, hmem, rfl⟩))) h.notMem

lemma Owned.loseLink (h : Owned w ({.tap ip i} + F)) :
    Owned (w.setLinks (w.links.del i)) ({.addr ip} + F) := by
  refine ⟨⟨?_, fun x => ?_, fun j x => ?_, h.taps.named⟩, h.ids.same rfl rfl rfl rfl
    (by simp [Tok.creatingIds]) (by simp [Tok.releasingIds]) (by simp [Tok.files])⟩
  · have := h.taps.nodup
    rw [ownedIps_tok] at this
    rwa [ownedIps_addr]
  · have := h.taps.used x
    rw [ownedIps_tok] at this
    rwa [ownedIps_addr]
  change (w.links.del i).get j = some x ↔ _
  rw [get_del_eq_some, h.taps.links j x, owned_tok, mem_cons, owned_addr]
  constructor
  · rintro ⟨hne, heq | hmem⟩
    · exact absurd (Prod.mk.inj heq).2 hne
    · exact hmem
  intro hmem
  refine ⟨?_, .inr hmem⟩
  rintro rfl
  -- two names of one device would be two addresses of one entry
  have h1 := (h.taps.links j x).2 (by rw [owned_tok]; exact mem_cons_of_mem hmem)
  have h2 := (h.taps.links j ip).2 (by rw [owned_tok]; exact mem_cons_self _ _)
  cases h1.symm.trans h2
  exact h.taps.notMem (mem_add.2 (.inl (mem_map.2 ⟨_, hmem, rfl⟩)))

lemma Owned.releaseIp (h : Owned w ({.addr ip} + F)) :
    Owned (w.setAllocator (w.allocator.release ip)) (0 + F) := by
  have hn := h.taps.nodup
  rw [ownedIps_addr, nodup_cons] at hn
  refine ⟨⟨?_, fun x => ?_, fun j x => ?_, h.taps.named⟩, h.ids.same rfl rfl rfl rfl
    (by simp [Tok.creatingIds]) (by simp [Tok.releasingIds]) (by simp [Tok.files])⟩
  · rw [zero_add]; exact hn.2
  · change (w.allocator.release ip).Allocated x ↔ _
    rw [IpAllocator.allocated_release, h.taps.used x, ownedIps_addr, mem_cons, zero_add]
    constructor
    · rintro ⟨hne, heq | hmem⟩
      · exact absurd heq hne
      · exact hmem
    · exact fun hmem => ⟨fun he => hn.1 (he ▸ hmem), .inr hmem⟩
  · have := h.taps.links j x
    rw [owned_addr] at this
    rwa [zero_add]

end

lemma keeps_allocateIp :
    Keeps (act .allocateIp) 0 fun v r => v = none ∧ r = 0 ∨ ∃ ip, v = some ip ∧ r = {.addr ip} := by
  intro w F o w' v hI _ hact
  obtain ⟨rfl, rfl⟩ := own_eq hact
  rcases halloc : w.allocator.allocate with ⟨_ | ip, a⟩
  · refine ⟨0, ⟨⟨hI.taps.nodup, fun x => ?_, hI.taps.links, hI.taps.named⟩,
      hI.ids.same rfl rfl rfl rfl rfl rfl rfl⟩, .inl ⟨rfl, rfl⟩⟩
    exact (IpAllocator.allocate_none halloc x).trans (hI.taps.used x)
  obtain ⟨hfree, hused⟩ := IpAllocator.allocate_some halloc
  refine ⟨{.addr ip}, ⟨⟨?_, fun x => ?_, fun j x => ?_, hI.taps.named⟩, hI.ids.same rfl rfl rfl
    rfl (by simp [Tok.creatingIds]) (by simp [Tok.releasingIds]) (by simp [Tok.files])⟩,
    .inr ⟨ip, rfl, rfl⟩⟩
  · rw [ownedIps_addr, nodup_cons]
    have hn := hI.taps.nodup
    rw [zero_add] at hn
    refine ⟨fun hmem => hfree ((hI.taps.used ip).2 ?_), hn⟩
    rw [zero_add]; exact hmem
  · rw [ownedIps_addr, mem_cons]
    refine (hused x).trans (or_congr_right ?_)
    have := hI.taps.used x
    rwa [zero_add] at this
  · rw [owned_addr]
    have := hI.taps.links j x
    rwa [zero_add] at this

variable (ip : Ip)

lemma keeps_releaseIp : Spends (act (.releaseIp ip)) {.addr ip} := by
  intro w F o w' v hI _ hact
  obtain ⟨rfl, -⟩ := own_eq hact
  exact ⟨0, hI.releaseIp, rfl⟩

lemma keeps_recoveryFailed_missing : Spends (act (.recoveryFailed t true)) {.addr t.ip} := by
  intro w F o w' v hI _ hact
  obtain ⟨rfl, -⟩ := own_eq hact
  exact ⟨0, hI.releaseIp, rfl⟩

lemma keeps_newTap : Keeps (act (.newTap ip)) {.addr ip} fun v r =>
      v = none ∧ r = {.addr ip} ∨ ∃ t, v = some t ∧ t.ip = ip ∧ r = {t.tok} := by
  intro w F o w' v hI hok hact
  change runNewTap w ip o = _ at hact
  cases o <;> simp only [runNewTap, reduceCtorEq] at hact
  case fail =>
    cases hact
    exact ⟨_, hI, .inl ⟨rfl, rfl⟩⟩
  case made i =>
    obtain ⟨w1, hw1, rfl, rfl⟩ := acted_map hact
    unfold World.addLink at hw1
    split at hw1 <;> cases hw1
    rename_i hfree
    have hnone : w.links.get i = none := by simpa using hfree.1
    refine ⟨{.tap ip i}, ⟨⟨?_, fun x => ?_, fun j x => ?_, hI.taps.named⟩, hI.ids.same rfl rfl rfl
      rfl (by simp [Tok.creatingIds]) (by simp [Tok.releasingIds]) (by simp [Tok.files])⟩,
      .inr ⟨_, rfl, rfl, rfl⟩⟩
    · have := hI.taps.nodup
      rw [ownedIps_addr] at this
      rwa [ownedIps_tok]
    · have := hI.taps.used x
      rw [ownedIps_addr] at this
      rwa [ownedIps_tok]
    change (w.links.put i ip).get j = some x ↔ _
    have hlinks := hI.taps.links j x
    rw [owned_addr] at hlinks
    rw [get_put_eq_some, hlinks, owned_tok, mem_cons, Prod.mk.injEq]
    constructor
    · rintro (⟨rfl, rfl⟩ | ⟨-, hmem⟩)
      · exact .inl ⟨rfl, rfl⟩
      · exact .inr hmem
    rintro (⟨rfl, rfl⟩ | hmem)
    · exact .inl ⟨rfl, rfl⟩
    refine .inr ⟨?_, hmem⟩
    rintro rfl
    rw [hlinks.2 hmem] at hnone
    simp at hnone
  case left i => exact absurd hok (by simp [Careful])

lemma keeps_destroyTap (i : Ifindex) :
    Keeps (act (.destroyTap i)) {.tap ip i} fun _ r => r = {.addr ip} := by
  intro w F o w' v hI hok hact
  change runDestroyTap w i o = _ at hact
  cases o <;> simp only [runDestroyTap, reduceCtorEq] at hact
  case fail => exact absurd hok (by simp [Careful])
  case ok =>
    obtain ⟨-, rfl, -⟩ := acted_if hact
    exact ⟨_, hI.loseLink, rfl⟩

lemma keeps_restoreTap : Keeps (act (.restoreTap t)) {t.tok} fun v r =>
      (∃ u, v = .ok u ∧ u.key = t.key ∧ r = {t.tok}) ∨ v = .error false ∧ r = {t.tok} ∨
        v = .error true ∧ r = {.addr t.ip} := by
  intro w F o w' v hI _ hact
  change runRestoreTap w t o = _ at hact
  have hlink := hI.taps.linkByName_eq
  cases o <;> simp only [runRestoreTap, reduceCtorEq] at hact
  case fail =>
    cases hact
    exact ⟨_, hI, .inr (.inl ⟨rfl, rfl⟩)⟩
  case missing =>
    cases hact
    refine ⟨{.addr t.ip}, ?_, .inr (.inr ⟨rfl, rfl⟩)⟩
    simp only [World.dropLink, hlink]
    exact hI.loseLink
  case restored b =>
    simp only [hlink, map_some, some.injEq, Prod.mk.injEq] at hact
    obtain ⟨rfl, rfl⟩ := hact
    exact ⟨_, hI, .inl ⟨_, rfl, rfl, rfl⟩⟩

lemma keeps_listCubeTaps_addr : Keeps (act .listCubeTaps) {.addr ip} fun v r =>
      r = {.addr ip} ∧ ∀ l, v = some l → ∀ e ∈ l, e.2 ≠ ip := by
  intro w F o w' v hI _ hact
  change runListCubeTaps w o = _ at hact
  cases o <;> simp only [runListCubeTaps, reduceCtorEq] at hact
  case fail =>
    cases hact
    exact ⟨_, hI, rfl, by simp⟩
  case links l =>
    obtain ⟨hperm, rfl, rfl⟩ := acted_if hact
    refine ⟨_, hI, rfl, fun l' hl' e he hip => ?_⟩
    cases hl'
    have hmem : (e.1, e.2) ∈ w.links.pairs :=
      mem_coe.2 ((List.isPerm_iff.1 hperm).subset he)
    have hlink := (hI.taps.links e.1 e.2).1 (mem_pairs.1 hmem)
    have hn := hI.taps.nodup
    rw [ownedIps_addr, nodup_cons] at hn
    rw [owned_addr, hip] at hlink
    exact hn.1 (mem_add.2 (.inl (mem_map.2 ⟨_, hlink, rfl⟩)))

/-! ### Actions on sandbox ids -/

section
variable {w : World} {F : Multiset Tok}

lemma ids_split {t : Tok} {id : SandboxId} (ht : t.creatingIds + t.releasingIds = {id}) :
    w.states.pairs.map Prod.fst + ({t} + F).bind Tok.creatingIds +
      ({t} + F).bind Tok.releasingIds = id ::ₘ
        (w.states.pairs.map Prod.fst + F.bind Tok.creatingIds + F.bind Tok.releasingIds) := by
  rw [add_bind, add_bind, singleton_bind, singleton_bind, ← singleton_add, ← ht]
  abel

lemma IdsOk.exclusive {t : Tok} (h : IdsOk w ({t} + F)) (id : SandboxId)
    (ht : t.creatingIds + t.releasingIds = {id}) :
    w.states.get id = none ∧ id ∉ F.bind Tok.creatingIds ∧ id ∉ F.bind Tok.releasingIds := by
  have hn := h.nodup
  rw [ids_split ht, nodup_cons] at hn
  simp only [mem_add, not_or] at hn
  refine ⟨?_, hn.1.1.2, hn.1.2⟩
  by_contra hne
  obtain ⟨st, hst⟩ := ne_none_iff_exists'.1 hne
  exact hn.1.1.1 (mem_map.2 ⟨(id, st), mem_pairs.2 hst, rfl⟩)

end

end CubeSandbox.Agent
