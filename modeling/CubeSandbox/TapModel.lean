import CubeSandbox.PolModel

/-!
Registration of TAP devices and their policies (`tap.go`, `applyNetPolicy` of `netpolicy.go`,
`applyDNSAllow` of `dnspolicy.go`).

A call returns the maps it leaves and whether it succeeded: what was written before an error
stays. Pinned maps can be opened and are not full, so that the errors left are those of the
options, of a missing key and of a prefix that is too long for its trie.
-/

namespace CubeSandbox.Tap

open Vs Lpm GoText Pol

def maxIdLength : Nat := 64
def netPolicyValueStatic : UInt32 := 1

inductive VsErr
  | tooLong
  | policy (e : PolErr)
  | noKey (map : String)
  | update (source : Bytes)
  deriving DecidableEq

abbrev Res := Except VsErr Unit

def andThen (r : Maps × Res) (f : Maps → Maps × Res) : Maps × Res :=
  match r.2 with
  | .ok () => f r.1
  | .error e => (r.1, .error e)

/-! ### Inner maps -/

section
variable {V E : Type}

/-- `ensureInnerMapWithFactory`. -/
def ensureInner (outer : KMap UInt32 (Trie V)) (ifindex : UInt32) : KMap UInt32 (Trie V) :=
  if (outer ifindex).isSome then outer else outer.set ifindex .empty

/-- `flushInnerMapWithValue`: every key that the iteration meets is deleted. -/
def flushInner (outer : KMap UInt32 (Trie V)) (ifindex : UInt32) : KMap UInt32 (Trie V) :=
  if (outer ifindex).isSome then outer.set ifindex .empty else outer

/-- Insert entries until one is refused. -/
def insertAll (put : Trie V → E → Except VsErr (Trie V)) : Trie V → List E → Trie V × Res
  | inner, [] => (inner, .ok ())
  | inner, e :: es =>
    match put inner e with
    | .ok inner => insertAll put inner es
    | .error err => (inner, .error err)

/-- Insert entries into the inner map of an interface. -/
def populate (put : Trie V → E → Except VsErr (Trie V)) (outer : KMap UInt32 (Trie V))
    (ifindex : UInt32) (entries : List E) : KMap UInt32 (Trie V) × Res :=
  match outer ifindex with
  | none => (outer, .error (.noKey "inner map"))
  | some inner =>
    let (inner, r) := insertAll put inner entries
    (outer.set ifindex inner, r)

end

/-- The kernel refuses a prefix that is longer than an address. -/
def fits (key : LpmKey) : Bool := key.prefixlen ≤ 32

/-- One entry of `populateInnerMap`. -/
def putDeny (inner : Trie UInt32) (entry : DenyEntry) : Except VsErr (Trie UInt32) :=
  if fits entry.key then .ok (inner.set entry.key.bits netPolicyValueStatic)
  else .error (.update entry.source)

/-- One entry of `populateAllowOutInnerMap`. The lookup answers with the longest prefix of the key,
not only with the key itself. -/
def putAllow (inner : Trie NetPolicyValueV2) (entry : Flagged LpmKey) :
    Except VsErr (Trie NetPolicyValueV2) :=
  if fits entry.key then
    let old := ((lookup inner entry.key.bits).map (·.flags)).getD 0
    .ok (inner.set entry.key.bits ⟨0, entry.flags ||| old⟩)
  else .error (.update entry.source)

/-- `updateDNSAllowRule`, with a lookup of the same kind. -/
def putDns (inner : Trie DnsAllowValue) (rule : Flagged Bytes) :
    Except VsErr (Trie DnsAllowValue) :=
  let old := ((lookup inner (bits rule.key)).map (·.flags)).getD 0
  .ok (inner.set (bits rule.key) { ruleValue rule with flags := rule.flags ||| old })

/-! ### Policies -/

@[simps] def setDeny (m : Maps) (d : KMap UInt32 (Trie UInt32)) : Maps := { m with denyOut := d }

@[simps] def setDns (m : Maps) (d : KMap UInt32 (Trie DnsAllowValue)) : Maps :=
  { m with dnsAllow := d }

@[simps] def setMeta (m : Maps) (t : KMap UInt32 MvmMeta) : Maps := { m with ifindexToMvmmeta := t }

@[simps] def setIps (m : Maps) (t : KMap UInt32 UInt32) : Maps := { m with mvmipToIfindex := t }

/-- The inner maps that `AttachFilter` creates. -/
def initNetPolicy (m : Maps) (ifindex : UInt32) : Maps :=
  setDns (setDeny (m.setAllow (ensureInner m.allowOutV2 ifindex)) (ensureInner m.denyOut ifindex))
    (ensureInner m.dnsAllow ifindex)

/-- `cleanupNetPolicy` and `cleanupDNSAllow`, which every caller runs together. -/
def cleanupPolicy (m : Maps) (ifindex : UInt32) : Maps :=
  setDns (setDeny (m.setAllow (flushInner m.allowOutV2 ifindex)) (flushInner m.denyOut ifindex))
    (flushInner m.dnsAllow ifindex)

def prepareTapDevicePolicy (m : Maps) (ifindex : UInt32) : Maps × Res :=
  let m := cleanupPolicy m ifindex
  let (deny, r) := populate putDeny (ensureInner m.denyOut ifindex) ifindex
    alwaysDeniedSandboxEntries
  (setDeny m deny, r)

/-- The inner map of a policy, emptied first when it is to be replaced. -/
def applyInner {V E : Type} (put : Trie V → E → Except VsErr (Trie V))
    (outer : KMap UInt32 (Trie V)) (ifindex : UInt32) (entries : List E) (replace : Bool) :
    KMap UInt32 (Trie V) × Res :=
  if replace || !entries.isEmpty then
    let outer := ensureInner outer ifindex
    populate put (if replace then flushInner outer ifindex else outer) ifindex entries
  else (outer, .ok ())

def applyAllowOut (m : Maps) (ifindex : UInt32) (entries : List (Flagged LpmKey))
    (replace : Bool) : Maps × Res :=
  let (allow, r) := applyInner putAllow m.allowOutV2 ifindex entries replace
  (m.setAllow allow, r)

/-- An empty list that replaces does not create the inner map, unlike in the other tries. -/
def applyDnsAllow (m : Maps) (ifindex : UInt32) (rules : List (Flagged Bytes))
    (replace : Bool) : Maps × Res :=
  if rules.isEmpty then
    (if replace then setDns m (flushInner m.dnsAllow ifindex) else m, .ok ())
  else
    let (dns, r) := applyInner putDns m.dnsAllow ifindex rules replace
    (setDns m dns, r)

def applyDenyOut (m : Maps) (ifindex : UInt32) (entries : List DenyEntry) (replace : Bool) :
    Maps × Res :=
  let (deny, r) := applyInner putDeny m.denyOut ifindex entries replace
  (setDeny m deny, r)

def setDnsPolicyFlags (m : Maps) (ifindex : UInt32) (flags : UInt8) : Maps × Res :=
  match m.ifindexToMvmmeta ifindex with
  | none => (m, .error (.noKey "ifindex_to_mvmmeta"))
  | some mt =>
    if mt.dnsPolicyFlags = flags then (m, .ok ())
    else (setMeta m (m.ifindexToMvmmeta.set ifindex { mt with dnsPolicyFlags := flags }), .ok ())

def applyPlan (m : Maps) (ifindex : UInt32) (plan : NetPolicyPlan) (replace : Bool) : Maps × Res :=
  let denyOutEntries :=
    if replace then effectiveDenyOutEntriesForReplace plan else plan.denyOutEntries
  andThen (applyAllowOut m ifindex plan.allowOutEntries replace) fun m =>
  andThen (applyDnsAllow m ifindex plan.dnsAllowRules replace) fun m =>
  andThen (applyDenyOut m ifindex denyOutEntries replace) fun m =>
  if !replace && plan.dnsPolicyFlags == 0 then (m, .ok ())
  else setDnsPolicyFlags m ifindex plan.dnsPolicyFlags

def applyNetPolicyWithMode (m : Maps) (ifindex : UInt32) (opts : MvmOptions) (replace : Bool) :
    Maps × Res :=
  match buildNetPolicyPlan opts with
  | .error e => (m, .error (.policy e))
  | .ok plan => applyPlan m ifindex plan replace

/-- Flags of an earlier registration of the interface are taken over. -/
def upsertTapDeviceMeta (m : Maps) (ifindex ip : UInt32) (id : Bytes) (version : UInt32) :
    Maps × Res :=
  if id.length > maxIdLength then (m, .error .tooLong)
  else
    let old := m.ifindexToMvmmeta ifindex
    let oldMvmIp := (old.map (·.ip)).getD 0
    let flags := (old.map (·.dnsPolicyFlags)).getD 0
    let m := setMeta m (m.ifindexToMvmmeta.set ifindex ⟨version, ip, flags⟩)
    let ips := if oldMvmIp ≠ 0 ∧ oldMvmIp ≠ ip then m.mvmipToIfindex.del oldMvmIp
      else m.mvmipToIfindex
    (setIps m (ips.set ip ifindex), .ok ())

def delTapDevice (m : Maps) (ifindex ip : UInt32) : Maps × Res :=
  let m := cleanupPolicy m ifindex
  if (m.ifindexToMvmmeta ifindex).isNone then (m, .error (.noKey "ifindex_to_mvmmeta"))
  else
    let m := setMeta m (m.ifindexToMvmmeta.del ifindex)
    if (m.mvmipToIfindex ip).isNone then (m, .error (.noKey "mvmip_to_ifindex"))
    else (setIps m (m.mvmipToIfindex.del ip), .ok ())

/-- A policy that cannot be applied takes the registration with it. -/
def addTapDevice (m : Maps) (ifindex ip : UInt32) (id : Bytes) (version : UInt32)
    (opts : MvmOptions) : Maps × Res :=
  andThen (upsertTapDeviceMeta m ifindex ip id version) fun m =>
  match applyNetPolicyWithMode m ifindex opts false with
  | (m, .ok ()) => (m, .ok ())
  | (m, .error e) => ((delTapDevice m ifindex ip).1, .error e)

/-- Unlike `addTapDevice`, the registration stays when the policy is refused. -/
def upsertTapDevice (m : Maps) (ifindex ip : UInt32) (id : Bytes) (version : UInt32)
    (opts : MvmOptions) : Maps × Res :=
  andThen (upsertTapDeviceMeta m ifindex ip id version) fun m =>
  applyNetPolicyWithMode m ifindex opts true

/-!
### What a call can change

Calls never touch the sessions, the tracked queries and the source addresses. Whatever becomes
of the policy of a device, its registration, read as the address and the version that the
packet programs put into their keys, changes only where a call says so.
-/

/-- The address and version under which a device is registered. -/
def regOf (m : Maps) (ifindex : UInt32) : Option (UInt32 × UInt32) :=
  (m.ifindexToMvmmeta ifindex).map fun mt => (mt.ip, mt.version)

variable {m m' : Maps} {id : Bytes}

lemma isSome_of_regOf {j : UInt32} (h : regOf m' j = regOf m j) :
    (m'.ifindexToMvmmeta j).isSome = (m.ifindexToMvmmeta j).isSome := by
  have := congrArg Option.isSome h
  simpa only [regOf, Option.isSome_map] using this

/-- The parts that the packet programs write. -/
structure Flows where
  egress : KMap SessionKey NatSession
  ingress : KMap SessionKey IngressSession
  slots : Fin maxSnatIps → SnatIp
  track : KMap DnsQueryTrackKey DnsQueryTrackValue

def flows (m : Maps) : Flows :=
  ⟨m.egressSessions, m.ingressSessions, m.snatIplist, m.dnsQueryTrack⟩

structure PolicyOnly (m m' : Maps) : Prop where
  flows : flows m' = flows m
  reg : ∀ j, regOf m' j = regOf m j

lemma PolicyOnly.rfl : PolicyOnly m m := ⟨Eq.refl _, fun _ => Eq.refl _⟩

lemma PolicyOnly.trans {m'' : Maps} (h : PolicyOnly m m') (h' : PolicyOnly m' m'') :
    PolicyOnly m m'' :=
  ⟨h'.flows.trans h.flows, fun j => (h'.reg j).trans (h.reg j)⟩

lemma andThen_policyOnly {r : Maps × Res} {f : Maps → Maps × Res} (hr : PolicyOnly m r.1)
    (hf : ∀ m', PolicyOnly m' (f m').1) : PolicyOnly m (andThen r f).1 := by
  unfold andThen
  split
  · exact hr.trans (hf _)
  · exact hr

lemma setDnsPolicyFlags_policyOnly (m : Maps) (ifindex : UInt32) (flags : UInt8) :
    PolicyOnly m (setDnsPolicyFlags m ifindex flags).1 := by
  unfold setDnsPolicyFlags
  split
  · exact .rfl
  rename_i mt hmt
  split
  · exact .rfl
  refine ⟨Eq.refl _, fun j => ?_⟩
  by_cases hj : j = ifindex
  · subst hj; simp [regOf, hmt]
  · simp [regOf, KMap.set_ne _ _ hj]

lemma prepareTapDevicePolicy_policyOnly (m : Maps) (ifindex : UInt32) :
    PolicyOnly m (prepareTapDevicePolicy m ifindex).1 := ⟨Eq.refl _, fun _ => Eq.refl _⟩

lemma applyNetPolicyWithMode_policyOnly (m : Maps) (ifindex : UInt32) (opts : MvmOptions)
    (replace : Bool) : PolicyOnly m (applyNetPolicyWithMode m ifindex opts replace).1 := by
  unfold applyNetPolicyWithMode
  split
  · exact .rfl
  refine andThen_policyOnly ⟨Eq.refl _, fun _ => Eq.refl _⟩ fun m => ?_
  refine andThen_policyOnly ?_ fun m => ?_
  · unfold applyDnsAllow
    repeat' split
    all_goals exact ⟨Eq.refl _, fun _ => Eq.refl _⟩
  refine andThen_policyOnly ⟨Eq.refl _, fun _ => Eq.refl _⟩ fun m => ?_
  split
  · exact .rfl
  · exact setDnsPolicyFlags_policyOnly _ _ _

/-- The registrations after a call on one device. -/
structure CallStep (m m' : Maps) (ifindex : UInt32) (reg : Option (UInt32 × UInt32)) : Prop where
  flows : flows m' = flows m
  self : regOf m' ifindex = reg
  other : ∀ j, j ≠ ifindex → regOf m' j = regOf m j

lemma CallStep.policy {m'' : Maps} {ifindex : UInt32} {reg : Option (UInt32 × UInt32)}
    (h : CallStep m m' ifindex reg) (hp : PolicyOnly m' m'') : CallStep m m'' ifindex reg :=
  ⟨hp.flows.trans h.flows, (hp.reg _).trans h.self, fun j hj => (hp.reg j).trans (h.other j hj)⟩

lemma upsertTapDeviceMeta_step (m : Maps) (ifindex ip version : UInt32)
    (hid : id.length ≤ maxIdLength) :
    ∃ m', upsertTapDeviceMeta m ifindex ip id version = (m', .ok ()) ∧
      CallStep m m' ifindex (some (ip, version)) := by
  simp only [upsertTapDeviceMeta, if_neg (not_lt.2 hid)]
  refine ⟨_, rfl, rfl, by simp [regOf], fun j hj => ?_⟩
  simp [regOf, KMap.set_ne _ _ hj]

lemma upsertTapDeviceMeta_tooLong {ifindex ip : UInt32} {version : UInt32}
    (hid : ¬ id.length ≤ maxIdLength) :
    upsertTapDeviceMeta m ifindex ip id version = (m, .error .tooLong) := by
  simp only [upsertTapDeviceMeta, if_pos (not_le.1 hid)]

lemma delTapDevice_step (m : Maps) (ifindex ip : UInt32) :
    CallStep m (delTapDevice m ifindex ip).1 ifindex none := by
  have hc : PolicyOnly m (cleanupPolicy m ifindex) := ⟨Eq.refl _, fun _ => Eq.refl _⟩
  unfold delTapDevice
  dsimp only
  split
  · rename_i hnone
    exact ⟨hc.flows, by simpa [regOf] using hnone, fun j _ => hc.reg j⟩
  have hother : ∀ j, j ≠ ifindex → regOf (setMeta (cleanupPolicy m ifindex)
      ((cleanupPolicy m ifindex).ifindexToMvmmeta.del ifindex)) j = regOf m j := by
    intro j hj
    rw [← hc.reg j]
    simp [regOf, KMap.del_ne _ hj]
  split
  · exact ⟨hc.flows, by simp [regOf], hother⟩
  · exact ⟨hc.flows, by simp [regOf], hother⟩

/-- A call registers a device or leaves it unregistered, and refuses a long name. -/
structure Registers (m m' : Maps) (ifindex ip version : UInt32) (id : Bytes) : Prop where
  ok : id.length ≤ maxIdLength → ∃ reg, (reg = none ∨ reg = some (ip, version)) ∧
    CallStep m m' ifindex reg
  tooLong : ¬ id.length ≤ maxIdLength → m' = m

section

variable (m : Maps) (ifindex ip version : UInt32) (id : Bytes)

lemma upsertTapDeviceMeta_registers :
    Registers m (upsertTapDeviceMeta m ifindex ip id version).1 ifindex ip version id := by
  refine ⟨fun hid => ?_, fun hid => by rw [upsertTapDeviceMeta_tooLong hid]⟩
  obtain ⟨m', hm', hs⟩ := upsertTapDeviceMeta_step m ifindex ip version hid
  rw [hm']
  exact ⟨_, .inr rfl, hs⟩

/-- **Adding a device** leaves it unregistered if its policy is refused. -/
lemma addTapDevice_registers (opts : MvmOptions) :
    Registers m (addTapDevice m ifindex ip id version opts).1 ifindex ip version id := by
  refine ⟨fun hid => ?_, fun hid => ?_⟩
  case refine_2 => simp only [addTapDevice, upsertTapDeviceMeta_tooLong hid, andThen]
  obtain ⟨m1, hm1, hstep⟩ := upsertTapDeviceMeta_step m ifindex ip version hid
  have hpol := applyNetPolicyWithMode_policyOnly m1 ifindex opts false
  simp only [addTapDevice, andThen, hm1]
  split
  · rename_i m2 h2
    rw [h2] at hpol
    exact ⟨_, .inr rfl, hstep.policy hpol⟩
  rename_i m2 err h2
  rw [h2] at hpol
  have hdel := delTapDevice_step m2 ifindex ip
  have hall := hstep.policy hpol
  exact ⟨none, .inl rfl, hdel.flows.trans hall.flows, hdel.self,
    fun j hj => (hdel.other j hj).trans (hall.other j hj)⟩

lemma upsertTapDevice_registers (opts : MvmOptions) :
    Registers m (upsertTapDevice m ifindex ip id version opts).1 ifindex ip version id := by
  refine ⟨fun hid => ?_, fun hid => ?_⟩
  case refine_2 => simp only [upsertTapDevice, upsertTapDeviceMeta_tooLong hid, andThen]
  obtain ⟨m1, hm1, hstep⟩ := upsertTapDeviceMeta_step m ifindex ip version hid
  simp only [upsertTapDevice, andThen, hm1]
  exact ⟨_, .inr rfl, hstep.policy (applyNetPolicyWithMode_policyOnly m1 ifindex opts true)⟩

end

end CubeSandbox.Tap
