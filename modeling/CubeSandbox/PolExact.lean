import CubeSandbox.DnsParse
import CubeSandbox.NatModel
import CubeSandbox.PolInstall
import CubeSandbox.Runs

/-!
The egress decision of a device is the one its policy means.

After the policy was installed, addresses are learned from DNS answers, the clock advances and
the reaper removes what has expired (`dns_reaper.go`). Whatever happens, an address is allowed
if it is the gateway, lies in an allowed block, was learned and has not expired, or lies in no
denied block. The exception are IPv6 targets: they are stored as keys that match IPv4 addresses.
-/

namespace CubeSandbox.PolExact

open Vs Lpm GoText Pol Tap Runs List

structure St where
  maps : Maps
  clock : Ktime
  /-- The expiry that was learned last for an address on the device. -/
  learned : KMap UInt32 Nat

inductive Ev
  | learn (ifindex ip ttl : UInt32) (flags : UInt8)
  | advance (now : Ktime)
  | reap

def netPolicyValueV2Expired (value : NetPolicyValueV2) (now : UInt64) : Bool :=
  value.expiresAtNs != 0 && value.expiresAtNs ≤ now

/-- `reapDNSLearnedPolicies`: a pass over the inner maps of all devices. -/
def reapDnsLearnedPolicies (m : Maps) (now : UInt64) : Maps :=
  m.setAllow fun ifindex => (m.allowOutV2 ifindex).map fun inner =>
    inner.keep fun _ value => !netPolicyValueV2Expired value now

/-- An answer with a time to live is learned at the present time. -/
def step (tap : UInt32) (s : St) : Ev → Option St
  | .learn ifindex ip ttl flags =>
    some { s with
      maps := dnsLearnResponseIp s.clock s.maps ifindex ip (answerTtl ttl) flags
      learned := if ifindex = tap then
          s.learned.set ip (s.clock.ns.toNat + max ttl.toNat 300 * 10 ^ 9)
        else s.learned }
  | .advance now => if s.clock.ns ≤ now.ns then some { s with clock := now } else none
  | .reap => some { s with maps := reapDnsLearnedPolicies s.maps s.clock.ns }

def start (m : Maps) (now : Ktime) : St := ⟨m, now, .empty⟩

/-! ### The meaning of options -/

def Allowed (opts : MvmOptions) (d : UInt32) : Prop :=
  ∃ t ∈ allowTargets opts, inTarget t d = true

def Denied (opts : MvmOptions) (d : UInt32) : Prop :=
  ∃ t ∈ effectiveDenyTargets opts, inTarget t d = true

/-- The decision for an address at a time is the one that the options mean. -/
def Exact (env : Env) (opts : MvmOptions) (tap : UInt32) (s : St) (now : Ktime) (d : UInt32) :
    Prop :=
  sessionPolicyAllowed env now s.maps tap d = true ↔ d = env.mvmGatewayIp ∨ Allowed opts d ∨
      (∃ e, s.learned d = some e ∧ now.ns.toNat < e) ∨ ¬ Denied opts d

def MisreadAllowed (opts : MvmOptions) (d : UInt32) : Prop :=
  ∃ t ∈ allowTargets opts, misread t d = true

def MisreadDenied (opts : MvmOptions) (d : UInt32) : Prop :=
  ∃ t ∈ effectiveDenyTargets opts, misread t d = true

/-- Outside the allowed blocks the keys of IPv6 targets allow no denied address and deny no other,
unless they allow it too. -/
def Harmless (env : Env) (opts : MvmOptions) : Prop :=
  ∀ d, d ≠ env.mvmGatewayIp → ¬ Allowed opts d → (Denied opts d → ¬ MisreadAllowed opts d) ∧
      (¬ Denied opts d → MisreadDenied opts d → MisreadAllowed opts d)

variable {env : Env} {plan : NetPolicyPlan} {tap : UInt32}

lemma harmless_of_blocks {opts : MvmOptions}
    (h : ∀ t ∈ allowTargets opts ++ effectiveDenyTargets opts,
      (block t).isSome ∨ (parseCidrKey t).toOption = none) : Harmless env opts := by
  have hmis : ∀ t ∈ allowTargets opts ++ effectiveDenyTargets opts, ∀ d, misread t d = false := by
    intro t ht d
    rcases h t ht with h | h
    · simp [misread, Option.isNone_eq_false_iff.2 h]
    · simp [misread, h]
  intro d _ _
  refine ⟨fun _ hm => ?_, fun _ hm => ?_⟩
  · obtain ⟨t, ht, hd⟩ := hm
    rw [hmis t (mem_append_left _ ht) d] at hd
    cases hd
  obtain ⟨t, ht, hd⟩ := hm
  rw [hmis t (mem_append_right _ ht) d] at hd
  cases hd

/-! ### The allow trie along a run -/

def expiry (v : NetPolicyValueV2) : Nat := v.expiresAtNs.toNat

/-- The prefixes of the static entries of a plan. -/
def Static (plan : NetPolicyPlan) (p : List Bool) : Prop :=
  ∃ e ∈ plan.allowOutEntries, e.key.bits = p

lemma ipBytes_injective : Function.Injective ipBytes := by
  intro a b h
  have hbyte : ∀ n : Nat, n < 4 → a.toNat / 256 ^ n % 256 = b.toNat / 256 ^ n % 256 := by
    simp only [ipBytes, cons.injEq, and_true, ← UInt8.toNat_inj, UInt32.toNat_toUInt8,
      UInt32.toNat_shiftRight, Nat.shiftRight_eq_div_pow] at h
    intro n hn
    interval_cases n
    · simpa using h.1
    · simpa using h.2.1
    · simpa using h.2.2.1
    · simpa using h.2.2.2
  have h0 := hbyte 0 (by omega)
  have h1 := hbyte 1 (by omega)
  have h2 := hbyte 2 (by omega)
  have h3 := hbyte 3 (by omega)
  have ha := a.toNat_lt
  have hb := b.toNat_lt
  apply UInt32.toNat_inj.1
  omega

lemma ipBits_injective : Function.Injective ipBits := bits_injective.comp ipBytes_injective

lemma host_bits (ip : UInt32) : (LpmKey.mk 32 ip).bits = ipBits ip :=
  take_of_length_le (by simp)

lemma answerTtl_toNat (ttl : UInt32) : (answerTtl ttl).toNat = max ttl.toNat 300 := by
  unfold answerTtl
  split
  · rename_i h
    have : ttl.toNat < 300 := UInt32.lt_iff_toNat_lt.1 h
    rw [max_eq_right this.le]
    rfl
  · rename_i h
    have : ¬ ttl.toNat < 300 := fun hlt => h (UInt32.lt_iff_toNat_lt.2 hlt)
    rw [max_eq_left (not_lt.1 this)]

lemma expiry_toNat (now : Ktime) (ttl : UInt32) :
    (now.ns + ttl.toUInt64 * nsecPerSec).toNat = now.ns.toNat + ttl.toNat * 10 ^ 9 := by
  have hnow := now.bound
  have httl := ttl.toNat_lt
  have hmul : (ttl.toUInt64 * nsecPerSec).toNat = ttl.toNat * 10 ^ 9 := by
    rw [UInt64.toNat_mul, UInt32.toNat_toUInt64, Nat.mod_eq_of_lt]
    · rfl
    · change ttl.toNat * 1000000000 < 2 ^ 64
      omega
  rw [UInt64.toNat_add, hmul, Nat.mod_eq_of_lt (by omega)]

lemma expiry_learnedValue (now : Ktime) (ttl : UInt32) (flags : UInt8)
    (old : Option NetPolicyValueV2) :
    expiry (learnedValue now ttl flags old) =
      if old.any (fun v => expiry v == 0) then 0 else now.ns.toNat + ttl.toNat * 10 ^ 9 := by
  cases old with
  | none => exact expiry_toNat now ttl
  | some v =>
    have hzero : v.expiresAtNs = 0 ↔ expiry v = 0 := UInt64.toNat_inj.symm
    by_cases h0 : expiry v = 0
    · simp [learnedValue, expiry, hzero.2 h0]
    have hne : ¬ v.expiresAtNs = 0 := fun h => h0 (hzero.1 h)
    simp only [learnedValue, beq_iff_eq, hne, h0, if_false, Option.any_some]
    exact expiry_toNat now ttl

/-- The allow trie keeps static and learned entries apart; the deny trie is the one installed. -/
def Inv (plan : NetPolicyPlan) (tap : UInt32) (deny : Option (Trie UInt32)) (s : St) : Prop :=
  ∃ t learned, s.maps.allowOutV2 tap = some t ∧
    Live expiry 32 (Static plan) t learned s.clock.ns.toNat ∧
    (∀ d, learned (ipBits d) = s.learned d) ∧ s.maps.denyOut tap = deny

lemma learn_inv {deny : Option (Trie UInt32)} {s s' : St} {ifindex ip ttl : UInt32} {flags : UInt8}
    (h : Inv plan tap deny s) (hstep : step tap s (.learn ifindex ip ttl flags) = some s') :
    Inv plan tap deny s' := by
  obtain ⟨t, learned, ht, hlive, hl, hdeny⟩ := h
  cases hstep
  by_cases htap : ifindex = tap
  · subst htap
    have he : s.clock.ns.toNat + max ttl.toNat 300 * 10 ^ 9 ≠ 0 := by
      have := le_max_right ttl.toNat 300
      omega
    have hval := expiry_learnedValue s.clock (answerTtl ttl) flags (lookup t (ipBits ip))
    rw [answerTtl_toNat] at hval
    simp only [dnsLearnResponseIp, ht, host_bits, if_true]
    refine ⟨_, _, KMap.set_self _ _ _, hlive.learn (ipBits_length ip) he hval, fun d => ?_, hdeny⟩
    by_cases hd : d = ip
    · subst hd
      simp
    · dsimp only
      rw [KMap.set_ne _ _ hd, KMap.set_ne _ _ (ipBits_injective.ne hd), hl]
  · have hother : (dnsLearnResponseIp s.clock s.maps ifindex ip (answerTtl ttl) flags).allowOutV2
        tap = some t := by
      unfold dnsLearnResponseIp
      split
      · exact ht
      · exact (KMap.set_ne _ _ (Ne.symm htap)).trans ht
    have hdeny' : (dnsLearnResponseIp s.clock s.maps ifindex ip (answerTtl ttl) flags).denyOut
        tap = deny := by
      unfold dnsLearnResponseIp
      split <;> exact hdeny
    simp only [if_neg htap]
    exact ⟨t, learned, hother, hlive, hl, hdeny'⟩

lemma step_inv (plan : NetPolicyPlan) (tap : UInt32) (deny : Option (Trie UInt32)) (s : St)
    (ev : Ev) (s' : St) (h : Inv plan tap deny s) (hstep : step tap s ev = some s') :
    Inv plan tap deny s' := by
  cases ev with
  | learn ifindex ip ttl flags => exact learn_inv h hstep
  | advance now =>
    obtain ⟨t, learned, ht, hlive, hl, hdeny⟩ := h
    rw [step] at hstep
    split at hstep <;> cases hstep
    rename_i hle
    exact ⟨t, learned, ht, hlive.advance (UInt64.le_iff_toNat_le.1 hle), hl, hdeny⟩
  | reap =>
    obtain ⟨t, learned, ht, hlive, hl, hdeny⟩ := h
    cases hstep
    have halive : ∀ (_ : List Bool) (v : NetPolicyValueV2),
        (!netPolicyValueV2Expired v s.clock.ns) = true ↔
          expiry v = 0 ∨ s.clock.ns.toNat < expiry v := by
      intro _ v
      simp only [netPolicyValueV2Expired, expiry, Bool.not_and, Bool.or_eq_true,
        Bool.not_eq_true', bne_eq_false_iff_eq, decide_eq_false_iff_not,
        UInt64.le_iff_toNat_le, not_le, ← UInt64.toNat_inj]
      rfl
    exact ⟨_, learned, congrArg (Option.map _) ht, hlive.reap halive, hl, hdeny⟩

/-! ### The decision -/

lemma covers_static (d : UInt32) :
    Covers (Static plan) (ipBits d) ↔ ∃ e ∈ plan.allowOutEntries, keyMatches e.key d = true := by
  simp only [Covers, Static, keyMatches, isPrefixOf_iff_prefix]
  constructor
  · rintro ⟨_, ⟨e, he, rfl⟩, hp⟩
    exact ⟨e, he, hp⟩
  · rintro ⟨e, he, hp⟩
    exact ⟨_, ⟨e, he, rfl⟩, hp⟩

/-- What `session_policy_allowed` decides with given tries. -/
lemma sessionPolicyAllowed_iff {now : Ktime} {m : Maps} {d : UInt32} {t : Trie NetPolicyValueV2}
    {td : Trie UInt32} (ht : m.allowOutV2 tap = some t) (htd : m.denyOut tap = some td) :
    sessionPolicyAllowed env now m tap d = true ↔ d = env.mvmGatewayIp ∨
      (∃ v, lookup t (ipBits d) = some v ∧ (expiry v = 0 ∨ now.ns.toNat < expiry v)) ∨
        lookup td (ipBits d) = none := by
  have hlive : (lookup t (ipBits d)).any (fun v => v.expiresAtNs == 0 || v.expiresAtNs > now.ns) =
      true ↔ ∃ v, lookup t (ipBits d) = some v ∧ (expiry v = 0 ∨ now.ns.toNat < expiry v) := by
    cases lookup t (ipBits d) with
    | none => simp
    | some v => simp [expiry, ← UInt64.toNat_inj, UInt64.lt_iff_toNat_lt]
  simp only [sessionPolicyAllowed, ht, htd, Option.bind_some, host_bits]
  rw [← hlive]
  by_cases hgw : d = env.mvmGatewayIp
  · simp [hgw]
  · cases lookup td (ipBits d) <;> simp [hgw]

lemma decision_of_inv {opts : MvmOptions} {td : Trie UInt32} {s : St} {now : Ktime}
    (hplan : buildNetPolicyPlan opts = .ok plan) (htd : ∀ p, (td p).isSome ↔
      ∃ e ∈ plan.denyOutEntries ++ alwaysDeniedSandboxEntries, e.key.bits = p)
    (h : Inv plan tap (some td) s) (hnow : s.clock.ns ≤ now.ns) (d : UInt32) :
    sessionPolicyAllowed env now s.maps tap d = true ↔ d = env.mvmGatewayIp ∨
      (Allowed opts d ∨ MisreadAllowed opts d) ∨ (∃ e, s.learned d = some e ∧ now.ns.toNat < e) ∨
          ¬ (Denied opts d ∨ MisreadDenied opts d) := by
  obtain ⟨t, learned, ht, hlive, hl, hdeny⟩ := h
  have hallow : Covers (Static plan) (ipBits d) ↔ Allowed opts d ∨ MisreadAllowed opts d := by
    rw [covers_static, allow_entries_match hplan]
    simp only [Allowed, MisreadAllowed, and_or_left, exists_or]
  have hdenied : lookup td (ipBits d) = none ↔ ¬ (Denied opts d ∨ MisreadDenied opts d) := by
    have hmatch := deny_entries_match hplan d
    simp only [and_or_left, exists_or] at hmatch
    rw [Denied, MisreadDenied, ← hmatch, lookup_eq_none_iff]
    constructor
    · rintro hnone ⟨e, he, hm⟩
      have hsome := (htd e.key.bits).2 ⟨e, he, rfl⟩
      rw [hnone _ (List.isPrefixOf_iff_prefix.1 hm)] at hsome
      cases hsome
    intro hno p hp
    by_contra hne
    obtain ⟨e, he, rfl⟩ := (htd p).1 (Option.isSome_iff_ne_none.2 hne)
    exact hno ⟨e, he, isPrefixOf_iff_prefix.2 hp⟩
  rw [sessionPolicyAllowed_iff ht hdeny, hlive.alive_iff (ipBits_length d)
    (UInt64.le_iff_toNat_le.1 hnow), hallow, hdenied, hl, or_assoc]

/-- **The egress decision is exact**, whatever was learned, forgotten and expired, exactly if the
IPv6 targets of the policy are harmless. -/
theorem egress_exact_iff_harmless (env : Env) (m0 m : Maps) (tap ip : UInt32) (id : Bytes)
    (version : UInt32) (opts : MvmOptions) (upsert : Bool) (now0 : Ktime)
    (h : install m0 tap ip id version opts upsert = (m, .ok ())) :
    (∀ es s, exec (step tap) (start m now0) es = some s →
      ∀ (now : Ktime) (d : UInt32), s.clock.ns ≤ now.ns → Exact env opts tap s now d) ↔
      Harmless env opts := by
  obtain ⟨plan, hplan, hinst⟩ := installed_of_ok h
  obtain ⟨t, ht, hins⟩ := hinst.allow
  obtain ⟨td, htd, hdom⟩ := hinst.deny
  obtain ⟨hperm, hstored⟩ := insertAll_stored putAllow_stores hins (by simp)
  have hstart : Inv plan tap (some td) (start m now0) := by
    refine ⟨t, .empty, ht, Live.init (fun p v hv => ⟨?_, ?_⟩) (fun p hp => ?_) _, fun _ => rfl, htd⟩
    · exact UInt64.toNat_inj.2 (hperm p v hv)
    · have hsome := (hstored p).1 (Option.isSome_iff_exists.2 ⟨v, hv⟩)
      exact hsome.resolve_left (by simp)
    · exact Option.isSome_iff_exists.1 ((hstored p).2 (.inr hp))
  constructor
  · intro hexact d hgw hna
    -- at the start nothing is learned yet
    have hnow : (start m now0).clock.ns ≤ now0.ns := UInt64.le_refl _
    have hdec : sessionPolicyAllowed env now0 (start m now0).maps tap d = true ↔ _ :=
      decision_of_inv hplan hdom hstart hnow d
    have hd := hexact [] (start m now0) rfl now0 d hnow
    have hnl : ¬ ∃ e, (start m now0).learned d = some e ∧ now0.ns.toNat < e := by
      rintro ⟨e, he, -⟩
      cases he
    rw [Exact, hdec] at hd
    simp only [hgw, hna, hnl, false_or] at hd
    exact ⟨fun hden hmis => (hd.1 (.inl hmis)) hden,
      fun hden hmis => (hd.2 hden).resolve_right fun hno => hno (.inr hmis)⟩
  intro hharm es s hrun now d hnow
  have hinv := exec_inv' (step_inv plan tap (some td)) hstart hrun
  rw [Exact, decision_of_inv hplan hdom hinv hnow d]
  by_cases hgw : d = env.mvmGatewayIp
  · simp [hgw]
  by_cases hallow : Allowed opts d
  · simp [hallow]
  obtain ⟨hden, hopen⟩ := hharm d hgw hallow
  by_cases hdenied : Denied opts d
  · simp [hgw, hallow, hdenied, hden hdenied]
  by_cases hmis : MisreadDenied opts d
  · simp [hdenied, hopen hdenied hmis]
  · simp [hdenied, hmis]

def demoEnv : Env := ⟨0x0644fea9, 0x0544fea9, 216, 0x020a8709, 2, true⟩

def blankMaps : Maps := Maps.init fun _ => ⟨2, 0x020a8709, maxPortStart⟩

/-- One network is allowed and everything else is denied. -/
def closedOptions : MvmOptions := ⟨some false, some [ascii "93.184.216.0/24"], none, none⟩

/-- The IPv6 Internet is denied. -/
def noIpv6Options : MvmOptions := ⟨none, none, none, some [ascii "::/0"]⟩

theorem closed_options_exact :
    ∃ m, install blankMaps 7 0x0200000a [] 1 closedOptions false = (m, .ok ()) ∧
      ∀ es s, exec (step 7) (start m (.ofNs 1)) es = some s →
        ∀ (now : Ktime) (d : UInt32), s.clock.ns ≤ now.ns →
          Exact demoEnv closedOptions 7 s now d := by
  have hok : (install blankMaps 7 0x0200000a [] 1 closedOptions false).2 = .ok () := by
    decide +kernel
  have hblocks : ∀ t ∈ allowTargets closedOptions ++ effectiveDenyTargets closedOptions,
      (block t).isSome ∨ (parseCidrKey t).toOption = none := by decide +kernel
  rcases hinst : install blankMaps 7 0x0200000a [] 1 closedOptions false with ⟨m, r⟩
  rw [hinst] at hok
  obtain rfl : r = .ok () := hok
  exact ⟨m, rfl, (egress_exact_iff_harmless demoEnv blankMaps m 7 0x0200000a [] 1 closedOptions
    false (.ofNs 1) hinst).2 (harmless_of_blocks hblocks)⟩

/-- The deny list holds no IPv4 block, and yet every IPv4 address is denied. -/
theorem ipv6_block_denies_ipv4 :
    ∃ m, install blankMaps 7 0x0200000a [] 1 noIpv6Options false = (m, .ok ()) ∧
      sessionPolicyAllowed demoEnv (.ofNs 1) m 7 0x08080808 = false ∧
      ¬ Exact demoEnv noIpv6Options 7 (start m (.ofNs 1)) (.ofNs 1) 0x08080808 := by
  have hrun : (install blankMaps 7 0x0200000a [] 1 noIpv6Options false).2 = .ok () ∧
      sessionPolicyAllowed demoEnv (.ofNs 1)
        (install blankMaps 7 0x0200000a [] 1 noIpv6Options false).1 7 0x08080808 = false := by
    decide +kernel
  have hnot : ¬ Denied noIpv6Options 0x08080808 := by
    unfold Denied
    decide +kernel
  rcases hinst : install blankMaps 7 0x0200000a [] 1 noIpv6Options false with ⟨m, r⟩
  rw [hinst] at hrun
  obtain ⟨hr, hdenied⟩ := hrun
  obtain rfl : r = .ok () := hr
  refine ⟨m, rfl, hdenied, fun h => ?_⟩
  have := h.2 (.inr (.inr (.inr hnot)))
  rw [show (start m (.ofNs 1)).maps = m from rfl, hdenied] at this
  cases this

end CubeSandbox.PolExact
