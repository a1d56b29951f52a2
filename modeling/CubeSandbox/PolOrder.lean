import CubeSandbox.DnsFull
import CubeSandbox.FlagTrie
import CubeSandbox.PolExact

/-!
The order of the lists of a policy.

The lists are rearranged: entries are permuted or repeated. The same blocks and rules are
installed then, but an entry takes over the flags that the lookup of its key finds, and that may
be those of a shorter entry that was listed earlier. The decisions stay the same exactly if no
destination and no name has a plain entry as its nearest one below an entry of both lists.
-/

namespace CubeSandbox.PolOrder

open Vs Lpm GoText Pol Tap PolExact List
open Option (map_some bind_some isSome_map isSome_iff_exists getD_some)

/-! ### Options and decisions -/

/-- The lists of allowed targets are permuted or have entries repeated. -/
structure Rearranged (opts opts' : MvmOptions) : Prop where
  internet : opts'.allowInternetAccess = opts.allowInternetAccess
  deny : opts'.denyOut = opts.denyOut
  allow : ∀ t, t ∈ opts'.allowOut.getD [] ↔ t ∈ opts.allowOut.getD []
  l7 : ∀ t, t ∈ opts'.l7AllowOut.getD [] ↔ t ∈ opts.l7AllowOut.getD []

/-- The name of a query, as its labels. -/
structure IsName (ls : List Bytes) : Prop where
  plain : PlainLabels ls
  notRoot : ls ≠ []
  short : (encode ls).length ≤ 255

/-- The key of the buffer that holds the bytes of a name. -/
def questionOf (key : Bytes) : DnsAllowKey := ⟨8 * key.length, fun i => key.getD i 0⟩

/-- The flags that a query for a name is tracked with, if it is. -/
def trackedFlags (m : Maps) (tap : UInt32) (ls : List Bytes) : Option UInt8 := do
  let mvmMeta ← m.ifindexToMvmmeta tap
  let innerMap ← m.dnsAllow tap
  if dnsPolicyEnabled mvmMeta then
    (dnsAllowMatchValue innerMap (questionOf (questionKey ls))).map (·.flags)
  else none

/-- Two sets of maps decide alike about every destination and every name. -/
structure SameDecisions (tap : UInt32) (m m' : Maps) : Prop where
  allow : ∀ env now d, sessionPolicyAllowed env now m' tap d = sessionPolicyAllowed env now m tap d
  redirect : ∀ now d l4,
    shouldRedirectToL7Proxy now m' tap d l4 = shouldRedirectToL7Proxy now m tap d l4
  tracked : ∀ ls, IsName ls → trackedFlags m' tap ls = trackedFlags m tap ls

def blocksOf (targets : List Bytes) : List Bytes :=
  targets.filterMap fun t => (splitTarget t).toOption.bind Sum.getLeft?

/-- The key of a source; all sources of an accepted policy have one. -/
def keyOf {K : Type} [Inhabited K] (parse : Bytes → Except PolErr K) (source : Bytes) : K :=
  (parse source).toOption.getD default

instance : Inhabited LpmKey := ⟨⟨0, 0⟩⟩

def plainBlocks (opts : MvmOptions) : List LpmKey :=
  (blocksOf (opts.allowOut.getD [])).map (keyOf parseCidrKey)

def l7Blocks (opts : MvmOptions) : List LpmKey :=
  (blocksOf (opts.l7AllowOut.getD [])).map (keyOf parseCidrKey)

def plainNames (opts : MvmOptions) : List Bytes :=
  (domainsOf (opts.allowOut.getD [])).map (keyOf makeDnsAllowKey)

def l7Names (opts : MvmOptions) : List Bytes :=
  (domainsOf (opts.l7AllowOut.getD [])).map (keyOf makeDnsAllowKey)

/-- No destination and no name has a nearest entry of the plain list alone while an entry of both
lists covers it too. -/
structure Steady (opts : MvmOptions) : Prop where
  blocks : ∀ d, Settled LpmKey.bits (plainBlocks opts) (l7Blocks opts) (ipBits d)
  names : ∀ ls, IsName ls → Settled bits (plainNames opts) (l7Names opts) (bits (questionKey ls))

variable {opts opts' : MvmOptions}

lemma steady_of_disjoint (hb : ∀ k ∈ plainBlocks opts, k ∉ l7Blocks opts)
    (hn : ∀ k ∈ plainNames opts, k ∉ l7Names opts) : Steady opts :=
  ⟨fun _ _ _ _ g hg hgf => absurd hgf (hb g hg), fun _ _ _ _ _ g hg hgf => absurd hgf (hn g hg)⟩

/-! ### Accepted options -/

variable {ts plain l7 : List Bytes}

lemma split_eq {r : List Bytes × List Bytes}
    (h : splitAllowOutTargets ts = .ok r) : r = (blocksOf ts, domainsOf ts) :=
  Prod.ext (splitAllowOutTargets_eq h).1 (splitAllowOutTargets_eq h).2

lemma split_ok_iff :
    (∃ r, splitAllowOutTargets ts = .ok r) ↔ ∀ t ∈ ts, ∃ r, splitTarget t = .ok r := by
  induction ts with
  | nil => simp [splitAllowOutTargets]
  | cons t ts ih =>
    rw [forall_mem_cons, ← ih]
    constructor
    · rintro ⟨r, h⟩
      rw [splitAllowOutTargets] at h
      obtain ⟨r1, hr1, h⟩ := ok_of_bind h
      obtain ⟨r2, hr2, -⟩ := ok_of_bind h
      exact ⟨⟨r1, hr1⟩, r2, hr2⟩
    rintro ⟨⟨r1, hr1⟩, ⟨cs, ds⟩, hr2⟩
    rw [splitAllowOutTargets, hr1, hr2]
    cases r1
    · exact ⟨_, rfl⟩
    · exact ⟨_, rfl⟩

section
variable {K : Type} [DecidableEq K] {parse : Bytes → Except PolErr K}

lemma mergeAll_ok_iff (flags : UInt8) (entries : List (Flagged K)) (sources : List Bytes) :
    (∃ es, mergeAll parse flags entries sources = .ok es) ↔
      ∀ s ∈ sources, ∃ k, parse s = .ok k := by
  induction sources generalizing entries with
  | nil => simp [mergeAll]
  | cons s rest ih =>
    rw [forall_mem_cons]
    cases hs : parse s with
    | error e => simp [mergeAll, hs, bind, Except.bind]
    | ok k => simpa [mergeAll, hs, bind, Except.bind] using ih _

lemma buildFlagged_ok_iff :
    (∃ es, buildFlagged parse plain l7 = .ok es) ↔ ∀ s ∈ plain ++ l7, ∃ k, parse s = .ok k := by
  rw [forall_mem_append, ← mergeAll_ok_iff 0 []]
  constructor
  · rintro ⟨es, h⟩
    obtain ⟨first, h1, h2⟩ := ok_of_bind h
    exact ⟨⟨first, h1⟩, (mergeAll_ok_iff _ _ _).1 ⟨es, h2⟩⟩
  rintro ⟨⟨first, h1⟩, h2⟩
  obtain ⟨es, h⟩ := (mergeAll_ok_iff flagL7Required first l7).2 h2
  exact ⟨es, by rw [buildFlagged, h1]; exact h⟩

variable [Inhabited K]

omit [DecidableEq K] in
lemma parse_keyOf {s : Bytes} (h : ∃ k, parse s = .ok k) : parse s = .ok (keyOf parse s) := by
  obtain ⟨k, hk⟩ := h
  simp [keyOf, hk, Except.toOption]

lemma built_entries {es : List (Flagged K)} (h : buildFlagged parse plain l7 = .ok es) :
    es.map (fun e => (e.key, e.flags)) =
      (plain.map (keyOf parse) ++ l7.map (keyOf parse)).eraseDups.map fun k =>
        (k, if k ∈ l7.map (keyOf parse) then flagL7Required else 0) := by
  rw [← map_append]
  exact buildFlagged_entries
    (fun s hs => parse_keyOf (buildFlagged_ok_iff.1 ⟨es, h⟩ s hs)) h

lemma built_rearranged {plain' l7' : List Bytes} {es : List (Flagged K)}
    (hp : ∀ s, s ∈ plain' ↔ s ∈ plain) (hl : ∀ s, s ∈ l7' ↔ s ∈ l7)
    (h : buildFlagged parse plain l7 = .ok es) :
    ∃ es', buildFlagged parse plain' l7' = .ok es' ∧ es'.length = es.length ∧
      ∀ k, k ∈ es'.map (·.key) ↔ k ∈ es.map (·.key) := by
  have hmem : ∀ s, s ∈ plain' ++ l7' ↔ s ∈ plain ++ l7 := by simp [hp, hl]
  obtain ⟨es', h'⟩ := buildFlagged_ok_iff.2 fun s hs =>
    buildFlagged_ok_iff.1 ⟨es, h⟩ s ((hmem s).1 hs)
  have hkeys : ∀ {plain l7 : List Bytes} {es : List (Flagged K)},
      buildFlagged parse plain l7 = .ok es →
        es.map (·.key) = ((plain ++ l7).map (keyOf parse)).eraseDups := by
    intro plain l7 es h
    have hfst := congrArg (List.map Prod.fst) (built_entries h)
    simpa [map_map, Function.comp_def] using hfst
  have hsame : ∀ k, k ∈ es'.map (·.key) ↔ k ∈ es.map (·.key) := by
    intro k
    rw [hkeys h, hkeys h', mem_eraseDups, mem_eraseDups, mem_map, mem_map]
    simp only [hmem]
  refine ⟨es', h', ?_, hsame⟩
  have hperm : (es'.map (·.key)).Perm (es.map (·.key)) := by
    refine (perm_ext_iff_of_nodup ?_ ?_).2 hsame
    · rw [hkeys h']
      exact eraseDups_nodup _
    · rw [hkeys h]
      exact eraseDups_nodup _
  simpa using hperm.length_eq

end

lemma mem_blocksOf {ts' : List Bytes} (h : ∀ t, t ∈ ts' ↔ t ∈ ts) (s : Bytes) :
    s ∈ blocksOf ts' ↔ s ∈ blocksOf ts := by
  simp only [blocksOf, mem_filterMap, h]

lemma mem_domainsOf {ts' : List Bytes} (h : ∀ t, t ∈ ts' ↔ t ∈ ts) (s : Bytes) :
    s ∈ domainsOf ts' ↔ s ∈ domainsOf ts := by
  simp only [domainsOf, mem_filterMap, h]

lemma plan_rearranged {plan : NetPolicyPlan}
    (hr : Rearranged opts opts') (h : buildNetPolicyPlan opts = .ok plan) :
    ∃ plan', buildNetPolicyPlan opts' = .ok plan' ∧ plan'.denyOutEntries = plan.denyOutEntries ∧
      ∀ k, k ∈ plan'.allowOutEntries.map (·.key) ↔ k ∈ plan.allowOutEntries.map (·.key) := by
  obtain ⟨r1, h1, h⟩ := ok_of_bind h
  obtain ⟨r2, h2, h⟩ := ok_of_bind h
  obtain rfl := split_eq h1
  obtain rfl := split_eq h2
  obtain ⟨entries, h3, h⟩ := ok_of_bind h
  obtain ⟨rules, h4, h⟩ := ok_of_bind h
  obtain ⟨deny, h5, h⟩ := ok_of_bind h
  obtain ⟨_, hvalid, h⟩ := ok_of_bind h
  cases h
  have hsplit : ∀ {ts ts' : List Bytes}, (∀ t, t ∈ ts' ↔ t ∈ ts) →
      splitAllowOutTargets ts = .ok (blocksOf ts, domainsOf ts) →
      splitAllowOutTargets ts' = .ok (blocksOf ts', domainsOf ts') := by
    intro ts ts' hts hok
    obtain ⟨r, hr⟩ := split_ok_iff.2 fun t ht => split_ok_iff.1 ⟨_, hok⟩ t ((hts t).1 ht)
    rw [hr, split_eq hr]
  obtain ⟨entries', h3', hlen, hkeys⟩ :=
    built_rearranged (mem_blocksOf hr.allow) (mem_blocksOf hr.l7) h3
  obtain ⟨rules', h4', hlen', -⟩ :=
    built_rearranged (mem_domainsOf hr.allow) (mem_domainsOf hr.l7) h4
  have hdeny : denyTargets opts' = denyTargets opts := by
    simp only [denyTargets, hr.internet, hr.deny]
  let plan' : NetPolicyPlan :=
    ⟨entries', rules', deny, dnsPolicyFlagsForDomains (domainsOf (opts'.allowOut.getD []))
      (domainsOf (opts'.l7AllowOut.getD []))⟩
  refine ⟨plan', ?_, rfl, hkeys⟩
  have hvalid' : validateNetPolicyPlan plan' = .ok () := by
    simpa only [validateNetPolicyPlan, plan', hlen, hlen', effectiveDenyOutEntriesForReplace]
      using hvalid
  have h3'' : buildAllowOutPolicyEntries (blocksOf (opts'.allowOut.getD []))
      (blocksOf (opts'.l7AllowOut.getD [])) = .ok entries' := h3'
  have h4'' : buildDnsAllowRules (domainsOf (opts'.allowOut.getD []))
      (domainsOf (opts'.l7AllowOut.getD [])) = .ok rules' := h4'
  simp only [buildNetPolicyPlan, hsplit hr.allow h1, hsplit hr.l7 h2, h3'', h4'', hdeny, h5, bind,
    Except.bind]
  rw [hvalid']
  rfl

/-- **Rearranged options are installed whenever the options are.** -/
lemma install_rearranged {m0 m : Maps} {tap ip : UInt32} {id : Bytes} {version : UInt32}
    {upsert : Bool} (hr : Rearranged opts opts')
    (h : install m0 tap ip id version opts upsert = (m, .ok ())) :
    ∃ m', install m0 tap ip id version opts' upsert = (m', .ok ()) := by
  obtain ⟨hid, plan, hplan, hallow, hdeny⟩ :=
    (install_ok_iff m0 tap ip id version opts upsert).1 (by rw [h])
  obtain ⟨plan', hplan', hsame, hkeys⟩ := plan_rearranged hr hplan
  have hfits : ∀ e ∈ plan'.allowOutEntries, fits e.key = true := by
    intro e he
    obtain ⟨e0, he0, hk⟩ := mem_map.1 ((hkeys e.key).1 (mem_map_of_mem he))
    exact hk ▸ hallow e0 he0
  have hok := (install_ok_iff m0 tap ip id version opts' upsert).2
    ⟨hid, plan', hplan', hfits, hsame ▸ hdeny⟩
  exact ⟨_, Prod.ext rfl hok⟩

/-! ### The tries of installed options -/

/-- The flags of an entry with or without the proxy. -/
def flag (b : Bool) : UInt8 := if b then flagL7Required else 0

lemma flag_or (a b : Bool) : flag a ||| flag b = flag (a || b) := by
  cases a <;> cases b <;> rfl

lemma flag_injective : Function.Injective flag := by
  intro a b h
  cases a <;> cases b <;> first | rfl | cases h

section
variable {K V : Type} [DecidableEq K] {put : Trie V → Flagged K → Except VsErr (Trie V)}
  {flagsOf : V → UInt8} {bitsOf : K → List Bool} {flagged : List K}

lemma insertAll_flags (hput : ∀ t e t', put t e = .ok t' → ∃ v, t' = t.set (bitsOf e.key) v ∧
      flagsOf v = e.flags ||| ((lookup t (bitsOf e.key)).map flagsOf).getD 0)
    {es : List (Flagged K)} {ks : List K}
    (hes : es.map (fun e => (e.key, e.flags)) =
      ks.map fun k => (k, if k ∈ flagged then flagL7Required else 0))
    {t t' : Trie V} {u : Trie Bool} (htu : ∀ p, (t p).map flagsOf = (u p).map flag)
    (h : insertAll put t es = (t', .ok ())) (p : List Bool) :
    (t' p).map flagsOf =
      (grow u (ks.map fun k => (bitsOf k, decide (k ∈ flagged))) p).map flag := by
  induction es generalizing ks t u with
  | nil =>
    obtain rfl : ks = [] := by simpa using hes.symm
    cases h
    exact htu p
  | cons e es ih =>
    rcases ks with _ | ⟨k, ks⟩
    · cases hes
    obtain ⟨hhead, htail⟩ := List.cons.inj hes
    obtain ⟨rfl, hflags⟩ := Prod.mk.inj hhead
    rw [insertAll] at h
    cases hp : put t e with
    | error err => simp [hp] at h
    | ok t1 =>
      rw [hp] at h
      obtain ⟨v, rfl, hv⟩ := hput t e t1 hp
      refine ih htail (fun q => ?_) h
      have hlook : (lookup t (bitsOf e.key)).map flagsOf = (lookup u (bitsOf e.key)).map flag := by
        rw [← lookup_map, ← lookup_map]
        exact lookup_congr fun q _ => htu q
      by_cases hq : q = bitsOf e.key
      · subst hq
        have hown : e.flags = flag (decide (e.key ∈ flagged)) := by
          rw [hflags]
          simp [flag]
        rw [inherit, KMap.set_self, KMap.set_self, map_some, map_some, hv, hlook, hown]
        cases lookup u (bitsOf e.key) with
        | none => exact congrArg some (flag_or _ false)
        | some b => exact congrArg some (flag_or _ b)
      · rw [inherit, KMap.set_ne _ _ hq, KMap.set_ne _ _ hq]
        exact htu q

end

lemma putAllow_flags (t : Trie NetPolicyValueV2) (e : Flagged LpmKey)
    (t' : Trie NetPolicyValueV2) (h : putAllow t e = .ok t') :
    ∃ v, t' = t.set e.key.bits v ∧
      v.flags = e.flags ||| ((lookup t e.key.bits).map (·.flags)).getD 0 := by
  unfold putAllow at h
  split at h
  · exact ⟨_, (Except.ok.inj h).symm, rfl⟩
  · cases h

lemma putDns_flags (t : Trie DnsAllowValue) (e : Flagged Bytes) (t' : Trie DnsAllowValue)
    (h : putDns t e = .ok t') :
    ∃ v, t' = t.set (bits e.key) v ∧
      v.flags = e.flags ||| ((lookup t (bits e.key)).map (·.flags)).getD 0 :=
  ⟨_, (Except.ok.inj h).symm, rfl⟩

section
variable {m0 m : Maps} {tap ip : UInt32} {id : Bytes} {version : UInt32} {opts : MvmOptions}
  {upsert : Bool}

lemma questionOf_bits {key : Bytes} (hkey : key.length ≤ maxDnsNameLen) :
    (questionOf key).bits = bits key := by
  have hlen : key.length ≤ (List.ofFn (questionOf key).name).length := by
    rwa [length_ofFn]
  have htake : (List.ofFn (questionOf key).name).take key.length = key := by
    refine ext_getElem (length_take_of_le hlen) fun i hi hi' => ?_
    rw [getElem_take, List.getElem_ofFn]
    exact (getElem_eq_getD 0).symm
  rw [DnsAllowKey.bits]
  change (bits (List.ofFn (questionOf key).name)).take (8 * key.length) = bits key
  rw [bits_take _ hlen, htake]

lemma match_rule {key : Bytes} (h0 : 0 < key.length) (hkey : key.length ≤ maxDnsNameLen) :
    dnsAllowMatchValue (trieOf (ruleFlags opts) (ruleList opts)) (questionOf key) =
      lookup (trieOf (ruleFlags opts) (ruleList opts)) (bits key) := by
  have hlen : (questionOf key).prefixlen = 8 * key.length := rfl
  have hshape : ¬ ((questionOf key).prefixlen = 0 ∨
      (questionOf key).prefixlen > maxDnsNameLen * 8 ∨ (questionOf key).prefixlen % 8 ≠ 0) := by
    rw [hlen]
    omega
  rw [dnsAllowMatchValue, if_neg hshape, questionOf_bits hkey]
  cases hl : lookup (trieOf (ruleFlags opts) (ruleList opts)) (bits key) with
  | none => rfl
  | some v =>
    obtain ⟨r, hr, hv⟩ := lookup_trieOf.1 hl
    obtain ⟨hne, hle⟩ := stored_checks (fun t ht => ruleList_valid ht) hr.mem hv hr.isPre
    rw [Option.filter_some, if_pos]
    simp only [hlen, Nat.mul_div_cancel_left _ (by omega : 0 < 8), Bool.and_eq_true, bne_iff_ne,
      decide_eq_true_eq]
    exact ⟨hne, hle⟩

variable (h : install m0 tap ip id version opts upsert = (m, .ok ()))
include h

/-- The entries are static, and their flags are those that the two lists of blocks grow. -/
lemma installed_allow : ∃ t, m.allowOutV2 tap = some t ∧ (∀ p v, t p = some v → v.expiresAtNs = 0) ∧
      ∀ key, (lookup t key).map (·.flags) =
        (lookup (grow .empty (listed LpmKey.bits (plainBlocks opts) (l7Blocks opts))) key).map
          flag := by
  obtain ⟨plan, hplan, hinst⟩ := installed_of_ok h
  obtain ⟨t, ht, hins⟩ := hinst.allow
  obtain ⟨cs1, ds1, cs2, ds2, hp⟩ := planned_of_ok hplan
  cases split_eq hp.allow
  cases split_eq hp.l7
  refine ⟨t, ht, (insertAll_stored putAllow_stores hins (by simp)).1, fun key => ?_⟩
  rw [← lookup_map, ← lookup_map]
  exact lookup_congr fun p _ =>
    insertAll_flags putAllow_flags (built_entries hp.entries) (fun _ => rfl) hins p

lemma installed_names : ∃ t, m.dnsAllow tap = some t ∧ ∀ key, (lookup t key).map (·.flags) =
      (lookup (grow .empty (listed bits (plainNames opts) (l7Names opts))) key).map flag := by
  obtain ⟨plan, hplan, hinst⟩ := installed_of_ok h
  obtain ⟨t, ht, hins⟩ := hinst.dns
  obtain ⟨cs1, ds1, cs2, ds2, hp⟩ := planned_of_ok hplan
  obtain rfl := splitAllowOutTargets_domains hp.allow
  obtain rfl := splitAllowOutTargets_domains hp.l7
  refine ⟨t, ht, fun key => ?_⟩
  rw [← lookup_map, ← lookup_map]
  exact lookup_congr fun p _ =>
    insertAll_flags putDns_flags (built_entries hp.rules) (fun _ => rfl) hins p

lemma redirect_iff (now : Ktime) (d : UInt32) (l4 : TcpHdr) :
    shouldRedirectToL7Proxy now m tap d l4 = true ↔ (l4.dest = htons 80 ∨ l4.dest = htons 443) ∧
        lookup (grow .empty (listed LpmKey.bits (plainBlocks opts) (l7Blocks opts))) (ipBits d) =
          some true := by
  obtain ⟨t, ht, hstatic, hflags⟩ := installed_allow h
  have hd := hflags (ipBits d)
  simp only [shouldRedirectToL7Proxy, ht, bind_some, host_bits]
  split
  · rename_i hport
    simp only [Bool.and_eq_true, bne_iff_ne] at hport
    simp [hport.1, hport.2]
  rename_i hport
  have hport' : l4.dest = htons 80 ∨ l4.dest = htons 443 := by
    simpa [imp_iff_not_or] using hport
  cases hl : lookup t (ipBits d) with
  | none =>
    rw [hl] at hd
    simp [Option.map_eq_none_iff.1 hd.symm]
  | some v =>
    obtain ⟨p, -, hp, -⟩ := lookup_eq_some_iff.1 hl
    rw [hl, map_some] at hd
    obtain ⟨b, hb, hv⟩ := Option.map_eq_some_iff.1 hd.symm
    simp only [hb, hstatic p v hp, ← hv, hport', true_and]
    cases b <;> simp [flag, flagL7Required, netPolicyFlagL7Required]

lemma tracked_eq {ls : List Bytes} (hls : IsName ls) :
    trackedFlags m tap ls = (lookup (grow .empty (listed bits (plainNames opts) (l7Names opts)))
        (bits (questionKey ls))).map flag := by
  obtain ⟨t, ht, hflags⟩ := installed_names h
  obtain ⟨htrie, hmeta⟩ := installed_dns h
  cases ht.symm.trans htrie
  obtain ⟨plan, -, hinst⟩ := installed_of_ok h
  obtain ⟨mt, hmt, -⟩ := hinst.registered
  have hlen : (questionKey ls).length ≤ maxDnsNameLen := by
    have hwire := encode_length hls.notRoot
    have hshort := hls.short
    have h256 : maxDnsNameLen = 256 := rfl
    simp only [questionKey, length_append, length_reverse, length_singleton]
    omega
  have hpos : 0 < (questionKey ls).length := by simp [questionKey]
  rw [← hflags]
  simp only [trackedFlags, hmt, htrie, Option.bind_eq_bind, bind_some, match_rule hpos hlen]
  by_cases hrules : ruleList opts = []
  · -- without rules nothing is found, whatever the flags of the device are
    have hnone : lookup (trieOf (ruleFlags opts) (ruleList opts)) (bits (questionKey ls)) =
        none := by
      rw [hrules]
      exact lookup_eq_none_iff.2 fun _ _ => rfl
    simp [hnone]
  · obtain ⟨mt', hmt', hne⟩ := hmeta hrules
    cases hmt.symm.trans hmt'
    simp [dnsPolicyEnabled, hne]

lemma allowed_iff {plan : NetPolicyPlan} (hplan : buildNetPolicyPlan opts = .ok plan) (env : Env)
    (now : Ktime) (d : UInt32) :
    sessionPolicyAllowed env now m tap d = true ↔ d = env.mvmGatewayIp ∨
      (∃ k ∈ plainBlocks opts ++ l7Blocks opts, k.bits <+: ipBits d) ∨
        ∀ e ∈ plan.denyOutEntries ++ alwaysDeniedSandboxEntries, ¬ e.key.bits <+: ipBits d := by
  obtain ⟨t, ht, hstatic, hflags⟩ := installed_allow h
  obtain ⟨plan', hplan', hinst⟩ := installed_of_ok h
  cases hplan.symm.trans hplan'
  obtain ⟨td, htd, hdom⟩ := hinst.deny
  have hfound : (∃ v, lookup t (ipBits d) = some v ∧ (expiry v = 0 ∨ now.ns.toNat < expiry v)) ↔
      ∃ k ∈ plainBlocks opts ++ l7Blocks opts, k.bits <+: ipBits d := by
    have hsome : (lookup t (ipBits d)).isSome ↔
        ∃ k ∈ plainBlocks opts ++ l7Blocks opts, k.bits <+: ipBits d := by
      rw [← isSome_map (f := (·.flags)), hflags, isSome_map]
      constructor
      · intro hs
        obtain ⟨b, hb⟩ := isSome_iff_exists.1 hs
        obtain ⟨e, he, -⟩ := lookup_grow_listed.1 hb
        exact ⟨e, he.mem, he.covers⟩
      rintro ⟨k, hk, hkd⟩
      obtain ⟨b, hb⟩ := isSome_iff_exists.1 (grow_listed_isSome.2 ⟨k, hk, rfl⟩)
      obtain ⟨w, hw⟩ := lookup_isSome_of_stored hkd hb
      exact isSome_iff_exists.2 ⟨w, hw⟩
    rw [← hsome]
    constructor
    · rintro ⟨v, hv, -⟩
      exact isSome_iff_exists.2 ⟨v, hv⟩
    intro hs
    obtain ⟨v, hv⟩ := isSome_iff_exists.1 hs
    obtain ⟨p, -, hp, -⟩ := lookup_eq_some_iff.1 hv
    exact ⟨v, hv, .inl (by simp [expiry, hstatic p v hp])⟩
  have hdenied : lookup td (ipBits d) = none ↔
      ∀ e ∈ plan.denyOutEntries ++ alwaysDeniedSandboxEntries, ¬ e.key.bits <+: ipBits d := by
    rw [lookup_eq_none_iff]
    constructor
    · intro hnone e he hpre
      have hs := (hdom e.key.bits).2 ⟨e, he, rfl⟩
      rw [hnone _ hpre] at hs
      cases hs
    intro hno p hp
    by_contra hne
    obtain ⟨e, he, rfl⟩ := (hdom p).1 (Option.isSome_iff_ne_none.2 hne)
    exact hno e he hp
  rw [sessionPolicyAllowed_iff ht htd, hfound, hdenied]

end

section
variable {opts opts' : MvmOptions}

section

variable (hr : Rearranged opts opts')
include hr

lemma Rearranged.mem_plainBlocks (k : LpmKey) : k ∈ plainBlocks opts' ↔ k ∈ plainBlocks opts := by
  simp only [plainBlocks, mem_map, mem_blocksOf hr.allow]

lemma Rearranged.mem_l7Blocks (k : LpmKey) : k ∈ l7Blocks opts' ↔ k ∈ l7Blocks opts := by
  simp only [l7Blocks, mem_map, mem_blocksOf hr.l7]

lemma Rearranged.mem_plainNames (k : Bytes) : k ∈ plainNames opts' ↔ k ∈ plainNames opts := by
  simp only [plainNames, mem_map, mem_domainsOf hr.allow]

lemma Rearranged.mem_l7Names (k : Bytes) : k ∈ l7Names opts' ↔ k ∈ l7Names opts := by
  simp only [l7Names, mem_map, mem_domainsOf hr.l7]

end

/-- Options with a target of the plain list repeated at its front. -/
def repeated (opts : MvmOptions) (t : Bytes) : MvmOptions :=
  { opts with allowOut := some (t :: opts.allowOut.getD []) }

lemma rearranged_repeated {t : Bytes} (ht : t ∈ opts.allowOut.getD []) :
    Rearranged opts (repeated opts t) := by
  refine ⟨rfl, rfl, fun s => ?_, fun _ => Iff.rfl⟩
  simp only [repeated, getD_some, mem_cons]
  exact ⟨fun h => h.elim (fun h => h ▸ ht) id, .inr⟩

lemma Rearranged.trans {opts'' : MvmOptions} (h : Rearranged opts opts')
    (h' : Rearranged opts' opts'') : Rearranged opts opts'' :=
  ⟨h'.internet.trans h.internet, h'.deny.trans h.deny, fun t => (h'.allow t).trans (h.allow t),
    fun t => (h'.l7 t).trans (h.l7 t)⟩

end

/-! ### The order of the lists -/

/-- A segment to the port of plain HTTP. -/
def toHttp : TcpHdr := ⟨0, htons 80, 5, true, false, false, false⟩

section
variable {m0 m : Maps} {tap ip : UInt32} {id : Bytes} {version : UInt32} {opts : MvmOptions}
  {upsert : Bool}

lemma same_of_steady (h : install m0 tap ip id version opts upsert = (m, .ok ()))
    (hs : Steady opts) {m' : Maps} (hr : Rearranged opts opts')
    (h' : install m0 tap ip id version opts' upsert = (m', .ok ())) : SameDecisions tap m m' := by
  refine ⟨fun env now d => ?_, fun now d l4 => ?_, fun ls hls => ?_⟩
  · obtain ⟨plan, hplan, -⟩ := installed_of_ok h
    obtain ⟨plan', hplan', hdeny, -⟩ := plan_rearranged hr hplan
    rw [Bool.eq_iff_iff, allowed_iff h hplan, allowed_iff h' hplan', hdeny]
    simp only [mem_append, hr.mem_plainBlocks, hr.mem_l7Blocks]
  · rw [Bool.eq_iff_iff, redirect_iff h, redirect_iff h',
      lookup_order_free hr.mem_plainBlocks hr.mem_l7Blocks (hs.blocks d)]
  · rw [tracked_eq h hls, tracked_eq h' hls,
      lookup_order_free hr.mem_plainNames hr.mem_l7Names (hs.names ls hls)]

/-- Every rearrangement decides as the options do. -/
def OrderFree (m0 m : Maps) (tap ip : UInt32) (id : Bytes) (version : UInt32) (opts : MvmOptions)
    (upsert : Bool) : Prop :=
  ∀ opts', Rearranged opts opts' → ∃ m',
    install m0 tap ip id version opts' upsert = (m', .ok ()) ∧ SameDecisions tap m m'

section

variable (h : OrderFree m0 m tap ip id version opts upsert)
include h

/-- The keys of one kind of target. -/
lemma OrderFree.settled {A K : Type} [DecidableEq K] {bitsOf : K → List Bool} {key : List Bool}
    {f : Bytes → Option A} {g : A → K} {P : Prop}
    (hread : ∀ o m', install m0 tap ip id version o upsert = (m', .ok ()) →
      SameDecisions tap m m' →
      (lookup (grow .empty (listed bitsOf (((o.allowOut.getD []).filterMap f).map g)
        (((o.l7AllowOut.getD []).filterMap f).map g))) key = some true ↔ P)) :
    Settled bitsOf (((opts.allowOut.getD []).filterMap f).map g)
      (((opts.l7AllowOut.getD []).filterMap f).map g) key := by
  by_contra hset
  obtain ⟨e, he, k, hk, hfalse, htrue⟩ := lookup_order_dependent hset
  simp only [mem_map, mem_filterMap] at he hk
  obtain ⟨ce, ⟨te, hte, hle⟩, rfl⟩ := he
  obtain ⟨ck, ⟨tk, htk, hlk⟩, rfl⟩ := hk
  have hr1 : Rearranged opts (repeated opts te) := rearranged_repeated hte
  have hr2 : Rearranged opts (repeated (repeated opts te) tk) :=
    hr1.trans (rearranged_repeated ((hr1.allow tk).2 htk))
  obtain ⟨m1, h1, hs1⟩ := h _ hr1
  obtain ⟨m2, h2, hs2⟩ := h _ hr2
  have hread1 := hread _ _ h1 hs1
  have hread2 := hread _ _ h2 hs2
  simp only [repeated, getD_some, filterMap_cons, hle, hlk, map_cons] at hread1 hread2
  rw [hfalse] at hread1
  rw [htrue] at hread2
  cases hread1.2 (hread2.1 rfl)

lemma steady_blocks (d : UInt32) :
    Settled LpmKey.bits (plainBlocks opts) (l7Blocks opts) (ipBits d) :=
  h.settled (P := shouldRedirectToL7Proxy (.ofNs 0) m tap d toHttp = true) fun o m' h' hs => by
    rw [← hs.redirect, redirect_iff h']
    exact (and_iff_right (.inl rfl)).symm

lemma steady_names {ls : List Bytes} (hls : IsName ls) :
    Settled bits (plainNames opts) (l7Names opts) (bits (questionKey ls)) :=
  h.settled (P := trackedFlags m tap ls = some (flag true)) fun o m' h' hs => by
    rw [← hs.tracked ls hls, tracked_eq h' hls]
    exact ((Option.map_injective flag_injective).eq_iff (b := some true)).symm

end

/-- **The decisions do not depend on the order of the lists** exactly if the policy is steady. -/
theorem order_free_iff_steady (h : install m0 tap ip id version opts upsert = (m, .ok ())) :
    OrderFree m0 m tap ip id version opts upsert ↔ Steady opts := by
  constructor
  · exact fun hfree => ⟨steady_blocks hfree, fun ls hls => steady_names hfree hls⟩
  intro hs opts' hr
  obtain ⟨m', h'⟩ := install_rearranged hr h
  exact ⟨m', h', same_of_steady h hs hr h'⟩

end

/-- A network is allowed and a part of it goes through the proxy. -/
def apartOptions : MvmOptions :=
  ⟨some false, some [ascii "9.0.0.0/8", ascii "*.qq.com"], some [ascii "9.1.0.0/16"], none⟩

theorem apart_options_order_free :
    ∃ m, install blankMaps 7 0x0200000a [] 1 apartOptions false = (m, .ok ()) ∧
      OrderFree blankMaps m 7 0x0200000a [] 1 apartOptions false := by
  have hok : (install blankMaps 7 0x0200000a [] 1 apartOptions false).2 = .ok () := by
    decide +kernel
  rcases hinst : install blankMaps 7 0x0200000a [] 1 apartOptions false with ⟨m, r⟩
  rw [hinst] at hok
  obtain rfl : r = .ok () := hok
  have hb : ∀ k ∈ plainBlocks apartOptions, k ∉ l7Blocks apartOptions := by decide +kernel
  have hn : ∀ k ∈ plainNames apartOptions, k ∉ l7Names apartOptions := by decide +kernel
  exact ⟨m, rfl, (order_free_iff_steady hinst).2 (steady_of_disjoint hb hn)⟩

/-- A network goes through the proxy and is listed as allowed too; a part of it is allowed. -/
def mixedBlocks (first second : Bytes) : MvmOptions :=
  ⟨some false, some [first, second], some [ascii "9.0.0.0/8"], none⟩

lemma mixedBlocks_swapped (first second : Bytes) :
    Rearranged (mixedBlocks first second) (mixedBlocks second first) := by
  refine ⟨rfl, rfl, fun t => ?_, fun _ => Iff.rfl⟩
  simp only [mixedBlocks, getD_some, mem_cons, not_mem_nil, or_false]
  exact or_comm

/-- Whether a connection to `9.1.0.1` goes to the proxy. -/
def proxied (opts : MvmOptions) : Bool :=
  shouldRedirectToL7Proxy (.ofNs 0) (install blankMaps 7 0x0200000a [] 1 opts false).1 7 0x01000109
    toHttp

/-- It depends on which of two blocks is listed first. -/
theorem order_decides_redirect :
    ¬ ∀ (m0 m : Maps) (tap ip : UInt32) (id : Bytes) (version : UInt32) (opts : MvmOptions)
      (upsert : Bool), install m0 tap ip id version opts upsert = (m, .ok ()) →
        OrderFree m0 m tap ip id version opts upsert := by
  intro h
  have hok : (install blankMaps 7 0x0200000a [] 1
      (mixedBlocks (ascii "9.0.0.0/8") (ascii "9.1.0.0/16")) false).2 = .ok () := by
    decide +kernel
  have hyes : proxied (mixedBlocks (ascii "9.0.0.0/8") (ascii "9.1.0.0/16")) = true := by
    decide +kernel
  have hno : proxied (mixedBlocks (ascii "9.1.0.0/16") (ascii "9.0.0.0/8")) = false := by
    decide +kernel
  generalize ascii "9.0.0.0/8" = wide at hok hyes hno
  generalize ascii "9.1.0.0/16" = narrow at hok hyes hno
  unfold proxied at hyes hno
  rcases hinst : install blankMaps 7 0x0200000a [] 1 (mixedBlocks wide narrow) false with ⟨m, r⟩
  rw [hinst] at hok hyes
  obtain rfl : r = .ok () := hok
  obtain ⟨m', h', hsame⟩ := h _ _ _ _ _ _ _ _ hinst _ (mixedBlocks_swapped wide narrow)
  rw [h'] at hno
  have hred := hsame.redirect (.ofNs 0) 0x01000109 toHttp
  rw [hyes, hno] at hred
  cases hred

end CubeSandbox.PolOrder
