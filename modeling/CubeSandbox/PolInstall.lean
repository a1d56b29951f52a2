import CubeSandbox.PolMean

/-!
The tries of a device whose policy was installed.

A device is attached, cleaned and then added or refreshed with its options. If the call
succeeds, its allow trie and its DNS trie are those that the entries of the plan build from
nothing, on both ways, and its deny trie stores the entries of the plan and the private ranges.
-/

namespace CubeSandbox.Tap

open Vs Lpm GoText Pol List

/-- Attach the device, clean its policy, and register it with options. -/
def install (m : Maps) (tap ip : UInt32) (id : Bytes) (version : UInt32) (opts : MvmOptions)
    (upsert : Bool) : Maps × Res :=
  let m := (prepareTapDevicePolicy (initNetPolicy m tap) tap).1
  if upsert then upsertTapDevice m tap ip id version opts
  else addTapDevice m tap ip id version opts

section
variable {V E : Type} {put : Trie V → E → Except VsErr (Trie V)} {key : E → List Bool}
  {Q : V → Prop}

lemma insertAll_stored (hput : ∀ t e t', put t e = .ok t' → ∃ v, Q v ∧ t' = t.set (key e) v)
    {t t' : Trie V} {es : List E} (h : insertAll put t es = (t', .ok ()))
    (ht : ∀ p v, t p = some v → Q v) :
    (∀ p v, t' p = some v → Q v) ∧ ∀ p, (t' p).isSome ↔ (t p).isSome ∨ ∃ e ∈ es, key e = p := by
  induction es generalizing t with
  | nil =>
    cases h
    exact ⟨ht, fun p => by simp⟩
  | cons e es ih =>
    rw [insertAll] at h
    cases hp : put t e with
    | error err => simp [hp] at h
    | ok t1 =>
      rw [hp] at h
      obtain ⟨v, hv, rfl⟩ := hput t e t1 hp
      have ht1 : ∀ p w, t.set (key e) v p = some w → Q w := by
        intro p w hw
        obtain ⟨-, rfl⟩ | ⟨-, hw⟩ := KMap.set_eq_some.1 hw
        · exact hv
        · exact ht p w hw
      obtain ⟨hQ, hdom⟩ := ih h ht1
      refine ⟨hQ, fun p => ?_⟩
      rw [hdom]
      by_cases hpk : p = key e
      · subst hpk
        simp
      · rw [KMap.set_ne _ _ hpk, exists_mem_cons_iff]
        simp [Ne.symm hpk]

end

variable (t : Trie UInt32)

lemma putDeny_stores (e : DenyEntry) (t' : Trie UInt32)
    (h : putDeny t e = .ok t') : ∃ v, True ∧ t' = t.set e.key.bits v := by
  unfold putDeny at h
  split at h
  · exact ⟨_, trivial, (Except.ok.inj h).symm⟩
  · cases h

lemma putAllow_stores (t : Trie NetPolicyValueV2) (e : Flagged LpmKey) (t' : Trie NetPolicyValueV2)
    (h : putAllow t e = .ok t') :
    ∃ v, v.expiresAtNs = 0 ∧ t' = t.set e.key.bits v := by
  unfold putAllow at h
  split at h
  · exact ⟨_, rfl, (Except.ok.inj h).symm⟩
  · cases h

/-! ### Inner maps -/

variable {tap : UInt32} {replace : Bool} {m m' : Maps} {plan : NetPolicyPlan} {mt : MvmMeta}

section
variable {V E : Type} {outer : KMap UInt32 (Trie V)}

lemma ensureInner_of_some {t : Trie V} (h : outer tap = some t) :
    ensureInner outer tap = outer := by simp [ensureInner, h]

lemma flushInner_self {t : Trie V} (h : outer tap = some t) :
    flushInner outer tap tap = some .empty := by simp [flushInner, h]

lemma applyInner_ok {put : Trie V → E → Except VsErr (Trie V)} {outer' : KMap UInt32 (Trie V)}
    {es : List E} {t : Trie V} (ht : outer tap = some t)
    (h : applyInner put outer tap es replace = (outer', .ok ())) :
    ∃ t', outer' tap = some t' ∧
      insertAll put (if replace then .empty else t) es = (t', .ok ()) := by
  unfold applyInner at h
  split at h
  · rw [ensureInner_of_some ht] at h
    have hinner : (if replace then flushInner outer tap else outer) tap =
        some (if replace then .empty else t) := by
      cases replace
      · exact ht
      · exact flushInner_self ht
    simp only [populate, hinner] at h
    obtain ⟨rfl, hr⟩ := Prod.mk.inj h
    exact ⟨_, KMap.set_self _ _ _, Prod.ext rfl hr⟩
  · rename_i hempty
    cases h
    simp only [Bool.or_eq_true, not_or, Bool.not_eq_true, Bool.not_eq_false',
      List.isEmpty_iff] at hempty
    obtain ⟨rfl, rfl⟩ := hempty
    exact ⟨t, ht, rfl⟩

end

lemma andThen_ok {r : Maps × Res} {f : Maps → Maps × Res} (h : andThen r f = (m, .ok ())) :
    ∃ m1, r = (m1, .ok ()) ∧ f m1 = (m, .ok ()) := by
  obtain ⟨m1, e | ⟨⟩⟩ := r
  · cases (Prod.mk.inj h).2
  · exact ⟨m1, rfl, h⟩

/-! ### A clean device -/

/-- A device whose tries are empty but for the private ranges. -/
structure Prepared (m : Maps) (tap : UInt32) : Prop where
  allow : m.allowOutV2 tap = some .empty
  dns : m.dnsAllow tap = some .empty
  deny : ∃ t, m.denyOut tap = some t ∧
    ∀ p, (t p).isSome ↔ ∃ e ∈ alwaysDeniedSandboxEntries, e.key.bits = p

lemma ensureInner_self (V : Type) (outer : KMap UInt32 (Trie V)) (tap : UInt32) :
    ∃ t, ensureInner outer tap tap = some t := by
  unfold ensureInner
  split
  · rename_i h
    exact Option.isSome_iff_exists.1 h
  · exact ⟨_, KMap.set_self _ _ _⟩

lemma insertAll_alwaysDenied :
    ∃ t', insertAll putDeny t alwaysDeniedSandboxEntries = (t', .ok ()) := by
  have hfits : ∀ e ∈ alwaysDeniedSandboxEntries, fits e.key = true := by decide +kernel
  generalize alwaysDeniedSandboxEntries = es at hfits
  induction es generalizing t with
  | nil => exact ⟨t, rfl⟩
  | cons e es ih =>
    rw [insertAll, putDeny, if_pos (hfits e mem_cons_self)]
    exact ih _ fun e' he' => hfits e' (mem_cons_of_mem _ he')

lemma prepareTapDevicePolicy_deny {t : Trie UInt32} (h : m.denyOut tap = some t) :
    ∃ t', (prepareTapDevicePolicy m tap).1.denyOut tap = some t' ∧
      insertAll putDeny .empty alwaysDeniedSandboxEntries = (t', .ok ()) := by
  have hflush := flushInner_self h
  obtain ⟨t', ht'⟩ := insertAll_alwaysDenied .empty
  refine ⟨t', ?_, ht'⟩
  change (populate putDeny (ensureInner (flushInner m.denyOut tap) tap) tap
    alwaysDeniedSandboxEntries).1 tap = _
  rw [ensureInner_of_some hflush, populate, hflush]
  simp only [ht', KMap.set_self]

lemma prepared_of_init (m : Maps) (tap : UInt32) :
    Prepared (prepareTapDevicePolicy (initNetPolicy m tap) tap).1 tap := by
  obtain ⟨ta, hta⟩ := ensureInner_self _ m.allowOutV2 tap
  obtain ⟨tn, htn⟩ := ensureInner_self _ m.dnsAllow tap
  obtain ⟨td, htd⟩ := ensureInner_self _ m.denyOut tap
  have hinit : (initNetPolicy m tap).denyOut tap = some td := htd
  obtain ⟨t', ht', hins⟩ := prepareTapDevicePolicy_deny hinit
  refine ⟨flushInner_self hta, flushInner_self htn, t', ht', fun p => ?_⟩
  rw [(insertAll_stored putDeny_stores hins (by simp)).2 p]
  simp

/-! ### The installed policy -/

/-- What a successful registration leaves on a clean device. -/
structure Installed (m : Maps) (tap ip version : UInt32) (plan : NetPolicyPlan) : Prop where
  allow : ∃ t, m.allowOutV2 tap = some t ∧
    insertAll putAllow .empty plan.allowOutEntries = (t, .ok ())
  dns : ∃ t, m.dnsAllow tap = some t ∧ insertAll putDns .empty plan.dnsAllowRules = (t, .ok ())
  deny : ∃ t, m.denyOut tap = some t ∧
    ∀ p, (t p).isSome ↔ ∃ e ∈ plan.denyOutEntries ++ alwaysDeniedSandboxEntries, e.key.bits = p
  registered : ∃ mt, m.ifindexToMvmmeta tap = some mt ∧ mt.ip = ip ∧ mt.version = version ∧
    (plan.dnsPolicyFlags ≠ 0 → mt.dnsPolicyFlags = plan.dnsPolicyFlags)

lemma applyDnsAllow_ok {rules : List (Flagged Bytes)}
    (h : applyDnsAllow m tap rules replace = (m', .ok ())) (hdns : m.dnsAllow tap = some .empty) :
    ∃ dns t, m' = setDns m dns ∧ dns tap = some t ∧
      insertAll putDns .empty rules = (t, .ok ()) := by
  unfold applyDnsAllow at h
  split at h
  · rename_i hempty
    obtain rfl := isEmpty_iff.1 hempty
    cases h
    cases replace
    · exact ⟨m.dnsAllow, .empty, rfl, hdns, rfl⟩
    · exact ⟨_, .empty, rfl, flushInner_self hdns, rfl⟩
  rcases happ : applyInner putDns m.dnsAllow tap rules replace with ⟨dns, r⟩
  rw [happ] at h
  cases h
  obtain ⟨t, ht, hins⟩ := applyInner_ok hdns happ
  rw [ite_self] at hins
  exact ⟨dns, t, rfl, ht, hins⟩

/-- The keys of the deny trie are the same whether or not the private ranges were there before. -/
lemma applyDenyOut_ok {t0 : Trie UInt32} (hdeny : m.denyOut tap = some t0)
    (ht0 : ∀ p, (t0 p).isSome ↔ ∃ e ∈ alwaysDeniedSandboxEntries, e.key.bits = p)
    (h : applyDenyOut m tap (if replace then effectiveDenyOutEntriesForReplace plan
      else plan.denyOutEntries) replace = (m', .ok ())) :
    ∃ deny t, m' = setDeny m deny ∧ deny tap = some t ∧ ∀ p, (t p).isSome ↔
        ∃ e ∈ plan.denyOutEntries ++ alwaysDeniedSandboxEntries, e.key.bits = p := by
  unfold applyDenyOut at h
  rcases happ : applyInner putDeny m.denyOut tap (if replace then
    effectiveDenyOutEntriesForReplace plan else plan.denyOutEntries) replace with ⟨deny, r⟩
  rw [happ] at h
  cases h
  obtain ⟨t, ht, hins⟩ := applyInner_ok hdeny happ
  refine ⟨deny, t, rfl, ht, fun p => ?_⟩
  rw [(insertAll_stored putDeny_stores hins (by simp)).2 p]
  cases replace with
  | false =>
    simp only [Bool.false_eq_true, if_false, ht0, mem_append, or_and_right, exists_or]
    exact or_comm
  | true =>
    -- the list without repetitions has the same keys
    have hkeys := appendDeny_keys plan.denyOutEntries alwaysDeniedSandboxEntries
    have hbits : ∀ es : List DenyEntry, (∃ e ∈ es, e.key.bits = p) ↔
        ∃ k, (∃ e ∈ es, e.key = k) ∧ k.bits = p := by
      intro es
      constructor
      · rintro ⟨e, he, hp⟩
        exact ⟨e.key, ⟨e, he, rfl⟩, hp⟩
      · rintro ⟨_, ⟨e, he, rfl⟩, hp⟩
        exact ⟨e, he, hp⟩
    simp only [if_true, KMap.empty_apply, Option.isSome_none, Bool.false_eq_true, false_or,
      effectiveDenyOutEntriesForReplace]
    rw [hbits, hbits]
    simp only [hkeys, mem_append, or_and_right, exists_or]

lemma setDnsPolicyFlags_ok {flags : UInt8} (hmt : m.ifindexToMvmmeta tap = some mt)
    (h : setDnsPolicyFlags m tap flags = (m', .ok ())) :
    ∃ metas, m' = setMeta m metas ∧ metas tap = some { mt with dnsPolicyFlags := flags } := by
  simp only [setDnsPolicyFlags, hmt] at h
  split at h
  · rename_i hflags
    cases h
    exact ⟨m.ifindexToMvmmeta, rfl, by rw [hmt, ← hflags]⟩
  · cases h
    exact ⟨_, rfl, KMap.set_self _ _ _⟩

lemma applyPlan_ok (hm : Prepared m tap) (hmt : m.ifindexToMvmmeta tap = some mt)
    (h : applyPlan m tap plan replace = (m', .ok ())) : Installed m' tap mt.ip mt.version plan := by
  unfold applyPlan at h
  obtain ⟨m1, h1, h⟩ := andThen_ok h
  obtain ⟨m2, h2, h⟩ := andThen_ok h
  obtain ⟨m3, h3, h⟩ := andThen_ok h
  -- the allow trie
  unfold applyAllowOut at h1
  rcases happ : applyInner putAllow m.allowOutV2 tap plan.allowOutEntries replace with ⟨allow, r⟩
  rw [happ] at h1
  cases h1
  obtain ⟨ta, hta, hins⟩ := applyInner_ok hm.allow happ
  rw [ite_self] at hins
  -- the other two tries and the flags
  obtain ⟨dns, tn, rfl, htn, hinsn⟩ := applyDnsAllow_ok h2 hm.dns
  obtain ⟨t0, ht0, hdom0⟩ := hm.deny
  have ht0' : (setDns (m.setAllow allow) dns).denyOut tap = some t0 := ht0
  obtain ⟨deny, td, rfl, htd, hdom⟩ := applyDenyOut_ok ht0' hdom0 h3
  split at h
  · rename_i hflags
    cases h
    simp only [Bool.and_eq_true, Bool.not_eq_true', beq_iff_eq] at hflags
    exact ⟨⟨ta, hta, hins⟩, ⟨tn, htn, hinsn⟩, ⟨td, htd, hdom⟩, mt, hmt, rfl, rfl,
      fun hne => absurd hflags.2 hne⟩
  · have hmt' : (setDeny (setDns (m.setAllow allow) dns) deny).ifindexToMvmmeta tap = some mt := hmt
    obtain ⟨metas, rfl, hmetas⟩ := setDnsPolicyFlags_ok hmt' h
    exact ⟨⟨ta, hta, hins⟩, ⟨tn, htn, hinsn⟩, ⟨td, htd, hdom⟩, _, hmetas, rfl, rfl, fun _ => rfl⟩

lemma upsertTapDeviceMeta_prepared {ip : UInt32} {id : Bytes} {version : UInt32}
    (hm : Prepared m tap) (h : upsertTapDeviceMeta m tap ip id version = (m', .ok ())) :
    Prepared m' tap ∧ ∃ mt, m'.ifindexToMvmmeta tap = some mt ∧ mt.ip = ip ∧
      mt.version = version := by
  unfold upsertTapDeviceMeta at h
  split at h
  · cases (Prod.mk.inj h).2
  · cases h
    exact ⟨⟨hm.allow, hm.dns, hm.deny⟩, _, KMap.set_self _ _ _, rfl, rfl⟩

lemma applyNetPolicyWithMode_ok {opts : MvmOptions} (hm : Prepared m tap)
    (hmt : m.ifindexToMvmmeta tap = some mt)
    (h : applyNetPolicyWithMode m tap opts replace = (m', .ok ())) :
    ∃ plan, buildNetPolicyPlan opts = .ok plan ∧ Installed m' tap mt.ip mt.version plan := by
  unfold applyNetPolicyWithMode at h
  split at h
  · cases (Prod.mk.inj h).2
  · rename_i plan hplan
    exact ⟨plan, hplan, applyPlan_ok hm hmt h⟩

/-- **What installing a policy leaves behind**, on both ways. -/
theorem installed_of_ok {m m' : Maps} {tap ip : UInt32} {id : Bytes} {version : UInt32}
    {opts : MvmOptions} {upsert : Bool}
    (h : install m tap ip id version opts upsert = (m', .ok ())) :
    ∃ plan, buildNetPolicyPlan opts = .ok plan ∧ Installed m' tap ip version plan := by
  have hm := prepared_of_init m tap
  unfold install at h
  split at h
  · obtain ⟨m1, h1, h2⟩ := andThen_ok h
    obtain ⟨hm1, mt, hmt, rfl, rfl⟩ := upsertTapDeviceMeta_prepared hm h1
    exact applyNetPolicyWithMode_ok hm1 hmt h2
  obtain ⟨m1, h1, h2⟩ := andThen_ok h
  obtain ⟨hm1, mt, hmt, rfl, rfl⟩ := upsertTapDeviceMeta_prepared hm h1
  split at h2
  · rename_i m2 h3
    cases h2
    exact applyNetPolicyWithMode_ok hm1 hmt h3
  · cases (Prod.mk.inj h2).2

/-! ### When a policy is installed -/

section
variable {V E : Type} {put : Trie V → E → Except VsErr (Trie V)} {can : E → Prop}

section

variable (hput : ∀ t e, (∃ t', put t e = .ok t') ↔ can e)
include hput

/-- If refusals do not depend on the trie, insertion succeeds exactly if nothing is refused. -/
lemma insertAll_ok_iff (t : Trie V)
    (es : List E) : (insertAll put t es).2 = .ok () ↔ ∀ e ∈ es, can e := by
  induction es generalizing t with
  | nil => simp [insertAll]
  | cons e es ih =>
    rw [insertAll, forall_mem_cons, ← hput t e]
    cases hp : put t e with
    | error err => simp
    | ok t1 => simp [ih]

lemma applyInner_ok_iff
    (outer : KMap UInt32 (Trie V)) (tap : UInt32) (es : List E) (replace : Bool) :
    (applyInner put outer tap es replace).2 = .ok () ↔ ∀ e ∈ es, can e := by
  unfold applyInner
  split
  · obtain ⟨t, ht⟩ := ensureInner_self V outer tap
    have hinner : ∃ t', (if replace then flushInner (ensureInner outer tap) tap
        else ensureInner outer tap) tap = some t' := by
      cases replace
      · exact ⟨t, ht⟩
      · exact ⟨.empty, flushInner_self ht⟩
    obtain ⟨t', ht'⟩ := hinner
    simp only [populate, ht']
    exact insertAll_ok_iff hput t' es
  · rename_i hempty
    simp only [Bool.or_eq_true, not_or, Bool.not_eq_true, Bool.not_eq_false',
      List.isEmpty_iff] at hempty
    simp [hempty.2]

end

end

lemma andThen_ok_iff (r : Maps × Res) (f : Maps → Maps × Res) :
    (andThen r f).2 = .ok () ↔ r.2 = .ok () ∧ (f r.1).2 = .ok () := by
  obtain ⟨m, e | ⟨⟩⟩ := r <;> simp [andThen]

lemma putAllow_ok_iff (t : Trie NetPolicyValueV2) (e : Flagged LpmKey) :
    (∃ t', putAllow t e = .ok t') ↔ fits e.key = true := by
  unfold putAllow
  split <;> simp_all

lemma putDeny_ok_iff (e : DenyEntry) : (∃ t', putDeny t e = .ok t') ↔ fits e.key = true := by
  unfold putDeny
  split <;> simp_all

lemma applyDnsAllow_ok_iff (m : Maps) (tap : UInt32) (rules : List (Flagged Bytes))
    (replace : Bool) : (applyDnsAllow m tap rules replace).2 = .ok () := by
  unfold applyDnsAllow
  split
  · rfl
  have hput : ∀ (t : Trie DnsAllowValue) (e : Flagged Bytes),
      (∃ t', putDns t e = .ok t') ↔ True := by
    simp [putDns]
  exact (applyInner_ok_iff hput m.dnsAllow tap rules replace).2 fun _ _ => trivial

lemma deny_fits_iff (plan : NetPolicyPlan) (replace : Bool) :
    (∀ e ∈ if replace then effectiveDenyOutEntriesForReplace plan else plan.denyOutEntries,
      fits e.key = true) ↔ ∀ e ∈ plan.denyOutEntries, fits e.key = true := by
  cases replace with
  | false => rfl
  | true =>
    have hprivate : ∀ e ∈ alwaysDeniedSandboxEntries, fits e.key = true := by decide +kernel
    have hkeys := appendDeny_keys plan.denyOutEntries alwaysDeniedSandboxEntries
    constructor
    · intro h e he
      obtain ⟨e', he', hk⟩ := (hkeys e.key).2 (.inl ⟨e, he, rfl⟩)
      exact hk ▸ h e' he'
    intro h e he
    obtain ⟨e', he', hk⟩ | ⟨e', he', hk⟩ := (hkeys e.key).1 ⟨e, he, rfl⟩
    · exact hk ▸ h e' he'
    · exact hk ▸ hprivate e' he'

lemma applyPlan_ok_iff (replace : Bool) (hmt : m.ifindexToMvmmeta tap = some mt) :
    (applyPlan m tap plan replace).2 = .ok () ↔ (∀ e ∈ plan.allowOutEntries, fits e.key = true) ∧
        ∀ e ∈ plan.denyOutEntries, fits e.key = true := by
  have hdns : ∀ m', (applyDnsAllow m' tap plan.dnsAllowRules replace).1.ifindexToMvmmeta =
      m'.ifindexToMvmmeta := by
    intro m'
    unfold applyDnsAllow
    split
    · cases replace <;> rfl
    · rfl
  have hflags : ∀ m', m'.ifindexToMvmmeta tap = some mt →
      (if !replace && plan.dnsPolicyFlags == 0 then (m', .ok ())
        else setDnsPolicyFlags m' tap plan.dnsPolicyFlags).2 = (.ok () : Res) := by
    intro m' hm'
    split
    · rfl
    · simp only [setDnsPolicyFlags, hm']
      split <;> rfl
  unfold applyPlan
  rw [andThen_ok_iff, andThen_ok_iff, andThen_ok_iff, ← deny_fits_iff plan replace,
    ← applyInner_ok_iff putAllow_ok_iff m.allowOutV2 tap plan.allowOutEntries replace]
  refine and_congr_right fun _ => ?_
  rw [and_iff_right (applyDnsAllow_ok_iff _ _ _ _), and_iff_left (hflags _ ?_)]
  · exact applyInner_ok_iff putDeny_ok_iff _ tap _ replace
  change (applyDnsAllow _ tap plan.dnsAllowRules replace).1.ifindexToMvmmeta tap = some mt
  rwa [hdns]

/-- **When a policy is installed**: the identifier is short, the options are accepted and no block
is longer than an address. -/
theorem install_ok_iff (m : Maps) (tap ip : UInt32) (id : Bytes) (version : UInt32)
    (opts : MvmOptions) (upsert : Bool) :
    (install m tap ip id version opts upsert).2 = .ok () ↔
      id.length ≤ maxIdLength ∧ ∃ plan, buildNetPolicyPlan opts = .ok plan ∧
        (∀ e ∈ plan.allowOutEntries, fits e.key = true) ∧
          ∀ e ∈ plan.denyOutEntries, fits e.key = true := by
  have hmeta : ∀ m', (upsertTapDeviceMeta m' tap ip id version).2 = .ok () ↔
      id.length ≤ maxIdLength := by
    intro m'
    unfold upsertTapDeviceMeta
    split <;> simp_all
  have hpolicy : ∀ (m' : Maps) (replace : Bool), id.length ≤ maxIdLength →
      ((applyNetPolicyWithMode (upsertTapDeviceMeta m' tap ip id version).1 tap opts replace).2 =
        .ok () ↔ ∃ plan, buildNetPolicyPlan opts = .ok plan ∧
          (∀ e ∈ plan.allowOutEntries, fits e.key = true) ∧
            ∀ e ∈ plan.denyOutEntries, fits e.key = true) := by
    intro m' replace hid
    have hreg : ∃ mt, (upsertTapDeviceMeta m' tap ip id version).1.ifindexToMvmmeta tap =
        some mt := by
      rw [upsertTapDeviceMeta, if_neg (not_lt.2 hid)]
      exact ⟨_, KMap.set_self _ _ _⟩
    obtain ⟨mt, hmt⟩ := hreg
    unfold applyNetPolicyWithMode
    cases hplan : buildNetPolicyPlan opts with
    | error e => simp
    | ok plan => simpa using applyPlan_ok_iff replace hmt
  unfold install
  split
  · rw [upsertTapDevice, andThen_ok_iff, hmeta]
    exact and_congr_right fun hid => hpolicy _ _ hid
  rw [addTapDevice, andThen_ok_iff, hmeta]
  refine and_congr_right fun hid => ?_
  rw [← hpolicy _ false hid]
  split
  · rename_i h
    rw [h]
  · rename_i h
    rw [h]

/-- **Allowed blocks, DNS rules and denied keys** do not depend on what was there before, nor on the
way they are installed: the same options are accepted, and leave the same ones. -/
theorem install_history_free (m m' : Maps) (tap ip : UInt32) (id : Bytes) (version : UInt32)
    (opts : MvmOptions) (upsert upsert' : Bool) :
    let one := install m tap ip id version opts upsert
    let other := install m' tap ip id version opts upsert'
    (one.2 = .ok () ↔ other.2 = .ok ()) ∧ (one.2 = .ok () →
      one.1.allowOutV2 tap = other.1.allowOutV2 tap ∧ one.1.dnsAllow tap = other.1.dnsAllow tap ∧
      ∃ t t', one.1.denyOut tap = some t ∧ other.1.denyOut tap = some t' ∧
        ∀ p, (t p).isSome ↔ (t' p).isSome) := by
  intro one other
  have hiff : one.2 = .ok () ↔ other.2 = .ok () :=
    (install_ok_iff m tap ip id version opts upsert).trans
      (install_ok_iff m' tap ip id version opts upsert').symm
  refine ⟨hiff, fun hok => ?_⟩
  obtain ⟨plan, hplan, h⟩ := installed_of_ok (Prod.ext rfl hok)
  obtain ⟨plan', hplan', h'⟩ := installed_of_ok (Prod.ext rfl (hiff.1 hok))
  cases hplan.symm.trans hplan'
  obtain ⟨ta, hta, hallow⟩ := h.allow
  obtain ⟨ta', hta', hallow'⟩ := h'.allow
  cases hallow.symm.trans hallow'
  obtain ⟨tn, htn, hdns⟩ := h.dns
  obtain ⟨tn', htn', hdns'⟩ := h'.dns
  cases hdns.symm.trans hdns'
  obtain ⟨t, ht, hkeys⟩ := h.deny
  obtain ⟨t', ht', hkeys'⟩ := h'.deny
  exact ⟨hta.trans hta'.symm, htn.trans htn'.symm, t, t', ht, ht',
    fun p => (hkeys p).trans (hkeys' p).symm⟩

end CubeSandbox.Tap
