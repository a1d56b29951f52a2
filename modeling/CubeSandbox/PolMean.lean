import CubeSandbox.TapModel

/-!
What the targets of a policy mean, and which keys are stored for them.

The meaning of a block is the one of Go's `net` package: an address lies in a block if the
masked address is the network, and an IPv6 block holds no IPv4 address. For an IPv4 target the
stored key matches exactly the addresses of the block. For an IPv6 block it does not: the
key is made of the last four bytes of the network and of its prefix length.
-/

namespace CubeSandbox.Pol

open Vs Lpm GoText List

lemma ok_of_bind {ε α β : Type} {r : Except ε α} {next : α → Except ε β} {res : β}
    (h : r.bind next = .ok res) : ∃ mid, r = .ok mid ∧ next mid = .ok res := by
  rcases r with err | mid
  · simp [Except.bind] at h
  · exact ⟨mid, rfl, h⟩

variable {n : Nat} {b s : Bytes}

lemma byteBits_maskByte (hn : n ≤ 8) (b : UInt8) :
    byteBits (maskByte n b) = (byteBits b).take n ++ replicate (8 - n) false := by
  have hand : ∀ c : UInt8, byteBits (b &&& c) = (byteBits b).zipWith (· && ·) (byteBits c) := by
    intro c
    simp [byteBits]
  have hmask : ∀ n < 8, byteBits (~~~((255 : UInt8) >>> n.toUInt8)) =
      replicate n true ++ replicate (8 - n) false := by decide
  rcases Nat.lt_or_ge n 8 with hlt | hge
  · rw [maskByte, if_neg (by omega), hand, hmask n hlt]
    interval_cases n <;> simp [byteBits]
  · obtain rfl : n = 8 := by omega
    simp [maskByte, byteBits]

lemma maskByte_of_le (hn : 8 ≤ n) (b : UInt8) : maskByte n b = b := by
  simp [maskByte, hn]

/-- Two strings agree under a mask exactly if their bits agree up to its length. -/
theorem maskBytes_eq_iff {n : Nat} {bs cs : Bytes} (hlen : bs.length = cs.length) :
    maskBytes n bs = maskBytes n cs ↔ (bits bs).take n = (bits cs).take n := by
  induction bs generalizing n cs with
  | nil =>
    obtain rfl := eq_nil_of_length_eq_zero hlen.symm
    simp
  | cons b bs ih =>
    obtain _ | ⟨c, cs⟩ := cs
    · simp at hlen
    have hlen' : bs.length = cs.length := by simpa using hlen
    rw [maskBytes, maskBytes, cons.injEq, ih hlen', bits_cons, bits_cons, take_append,
      take_append, byteBits_length, byteBits_length]
    have hhead : maskByte n b = maskByte n c ↔ (byteBits b).take n = (byteBits c).take n := by
      rcases Nat.le_total n 8 with hn | hn
      · rw [← byteBits_injective.eq_iff, byteBits_maskByte hn, byteBits_maskByte hn,
          append_left_inj]
      · rw [maskByte_of_le hn, maskByte_of_le hn, take_of_length_le (by simpa using hn),
          take_of_length_le (by simpa using hn), byteBits_injective.eq_iff]
    rw [hhead]
    constructor
    · rintro ⟨h1, h2⟩
      rw [h1, h2]
    · exact fun h => append_inj h (by simp)

lemma take_maskBytes (n : Nat) (bs : Bytes) :
    (bits (maskBytes n bs)).take n = (bits bs).take n := by
  induction bs generalizing n with
  | nil => rfl
  | cons b bs ih =>
    rw [maskBytes, bits_cons, bits_cons, take_append, take_append, byteBits_length,
      byteBits_length, ih]
    rcases Nat.le_total n 8 with hn | hn
    · rw [byteBits_maskByte hn, take_append, take_take, min_self, length_take,
        byteBits_length, Nat.min_eq_left hn, Nat.sub_self, take_zero, append_nil]
    · rw [maskByte_of_le hn]

lemma maskBytes_length (n : Nat) (bs : Bytes) : (maskBytes n bs).length = bs.length := by
  induction bs generalizing n with
  | nil => rfl
  | cons b bs ih => simp [maskBytes, ih]

lemma ipBytes_ipToUint32 (a b c d : UInt8) : ipBytes (ipToUint32 [a, b, c, d]) = [a, b, c, d] := by
  simp only [ipBytes, ipToUint32, length_cons, length_nil, Nat.reduceAdd, Nat.reduceEqDiff,
    if_false, getD_cons_zero, getD_cons_succ, cons.injEq, and_true]
  refine ⟨?_, ?_, ?_, ?_⟩
  all_goals
    apply UInt8.toBitVec_inj.1
    ext i hi
    simp
    try grind
/-! ### The meaning of a target -/

/-- The network and prefix length of an IPv4 target, also one that is written as IPv6. -/
def block (target : Bytes) : Option (Bytes × Nat) :=
  match parseCIDR target with
  | some (.v4 _, net) => some (net.ip, net.ones)
  | some (.v6 _, _) => none
  | none => ((parseIP target).bind to4).map fun ip => (ip, 32)

/-- The address lies in the block of the target. -/
def inTarget (target : Bytes) (d : UInt32) : Bool :=
  (block target).any fun (net, n) => maskBytes n (ipBytes d) == net

def keyMatches (key : LpmKey) (d : UInt32) : Bool := key.bits.isPrefixOf (ipBits d)

/-- The target is no IPv4 target, but the key that is stored for it matches the address. -/
def misread (target : Bytes) (d : UInt32) : Bool :=
  (block target).isNone && (parseCidrKey target).toOption.any fun key => keyMatches key d

lemma parseAddr_v4 (h : parseAddr s = some (.v4 b)) : b.length = 4 := by
  unfold parseAddr at h
  split at h
  · obtain ⟨b', hb, heq⟩ := Option.map_eq_some_iff.1 h
    cases heq
    unfold parseIPv4 at hb
    split at hb <;> try cases hb
    simp only [Option.bind_eq_bind, Option.bind_eq_some_iff, Option.pure_def,
      Option.some.injEq] at hb
    obtain ⟨_, -, _, -, _, -, _, -, rfl⟩ := hb
    rfl
  · split at h <;> try cases h
    obtain ⟨_, -, heq⟩ := Option.map_eq_some_iff.1 h
    cases heq
  · cases h

lemma parseCIDR_v4 {net : IPNet} (h : parseCIDR s = some (.v4 b, net)) :
    b.length = 4 ∧ net.ip = maskBytes net.ones b ∧ net.ones ≤ 32 := by
  unfold parseCIDR at h
  dsimp only at h
  split_ifs at h
  simp only [Option.bind_eq_bind, Option.bind_eq_some_iff, Option.pure_def, Option.some.injEq,
    Prod.mk.injEq] at h
  obtain ⟨a, ha, n, hn, rfl, rfl⟩ := h
  refine ⟨parseAddr_v4 ha, rfl, ?_⟩
  unfold maskLen at hn
  split at hn <;> cases hn
  rename_i hle
  exact hle.2.2

lemma to4_eq_some {ip : Bytes} (h : to4 ip = some b) : ip.length = 16 ∧ b = ip.drop 12 := by
  unfold to4 at h
  split at h
  · rename_i hlen
    exact ⟨hlen.1, (Option.some.inj h).symm⟩
  · cases h

lemma key_bits (hb : b.length = 4) (hn : n ≤ 32) :
    (LpmKey.mk n.toUInt32 (ipToUint32 b)).bits = (bits b).take n := by
  obtain ⟨b1, b2, b3, b4, rfl⟩ : ∃ b1 b2 b3 b4, b = [b1, b2, b3, b4] := by
    match b, hb with
    | [b1, b2, b3, b4], _ => exact ⟨b1, b2, b3, b4, rfl⟩
  have hn' : (n.toUInt32).toNat = n := by
    simpa [Nat.toUInt32] using Nat.mod_eq_of_lt (by omega : n < 4294967296)
  rw [LpmKey.bits, ipBits, ipBytes_ipToUint32, hn']

lemma keyMatches_mk (hb : b.length = 4) (hn : n ≤ 32) (d : UInt32) :
    keyMatches ⟨n.toUInt32, ipToUint32 b⟩ d = true ↔ maskBytes n (ipBytes d) = maskBytes n b := by
  have hlen : (bits b).length = (ipBits d).length := by simp [hb]
  rw [keyMatches, isPrefixOf_iff_prefix, key_bits hb hn,
    maskBytes_eq_iff (by rw [hb]; rfl), prefix_iff_eq_take, length_take, hlen,
    ipBits_length, Nat.min_eq_left hn, eq_comm]
  rfl

lemma maskBytes_idem (n : Nat) (bs : Bytes) : maskBytes n (maskBytes n bs) = maskBytes n bs :=
  (maskBytes_eq_iff (maskBytes_length n bs)).2 (take_maskBytes n bs)

lemma maskBytes_self (hb : b.length = 4) : maskBytes 32 b = b := by
  have h := take_maskBytes 32 b
  rw [take_of_length_le (by simp [maskBytes_length, hb]), take_of_length_le (by simp [hb])] at h
  exact bits_injective h

variable {target : Bytes}

lemma keyMatches_of_block {key : LpmKey} {b : Bytes × Nat}
    (hb : block target = some b) (hkey : parseCidrKey target = .ok key) (d : UInt32) :
    keyMatches key d = true ↔ inTarget target d = true := by
  simp only [inTarget, hb, Option.any_some, beq_iff_eq]
  unfold block at hb
  unfold parseCidrKey at hkey
  split at hb
  · rename_i b4 net hnet
    cases hb
    rw [hnet] at hkey
    cases hkey
    obtain ⟨hlen, hip, hones⟩ := parseCIDR_v4 hnet
    have hlen' : net.ip.length = 4 := by rw [hip, maskBytes_length, hlen]
    rw [keyMatches_mk hlen' hones, hip, maskBytes_idem]
  · cases hb
  rename_i hnone
  obtain ⟨b4, hb4, rfl⟩ := Option.map_eq_some_iff.1 hb
  obtain ⟨ip, hip, hto4⟩ := Option.bind_eq_some_iff.1 hb4
  obtain ⟨hlen, rfl⟩ := to4_eq_some hto4
  rw [hnone, hip] at hkey
  cases hkey
  -- the word of sixteen bytes is the word of the last four
  have hword : ipToUint32 ip = ipToUint32 (ip.drop 12) := by
    simp [ipToUint32, hlen]
  have hlen' : (ip.drop 12).length = 4 := by simp [hlen]
  rw [hword]
  refine (keyMatches_mk hlen' (le_refl 32) d).trans ?_
  rw [maskBytes_self hlen']

/-- **The key of a target** matches the addresses of the target and those it is misread for. -/
theorem keyMatches_iff {key : LpmKey} (hkey : parseCidrKey target = .ok key) (d : UInt32) :
    keyMatches key d = true ↔ inTarget target d = true ∨ misread target d = true := by
  cases hb : block target with
  | some b => simp [keyMatches_of_block hb hkey d, misread, hb]
  | none => simp [inTarget, misread, hb, hkey, Except.toOption]

/-! ### The entries of a plan -/

section
variable {K : Type} [DecidableEq K]

lemma merge_keys (entries : List (Flagged K)) (key : K) (flags : UInt8) (source : Bytes) (k : K) :
    (∃ e ∈ merge entries key flags source, e.key = k) ↔ (∃ e ∈ entries, e.key = k) ∨ key = k := by
  unfold merge
  split
  · rename_i hany
    obtain ⟨e0, he0, hkey⟩ := any_eq_true.1 hany
    have hkey' : e0.key = key := by simpa using hkey
    have hsame : ∀ e : Flagged K,
        (if e.key = key then { e with flags := e.flags ||| flags } else e).key = e.key := by
      intro e; split <;> rfl
    simp only [mem_map, exists_exists_and_eq_and, hsame]
    constructor
    · exact .inl
    rintro (h | rfl)
    · exact h
    · exact ⟨e0, he0, hkey'⟩
  · simp [or_and_right, exists_or]

lemma mergeAll_keys {parse : Bytes → Except PolErr K} {flags : UInt8}
    {entries entries' : List (Flagged K)} {sources : List Bytes}
    (h : mergeAll parse flags entries sources = .ok entries') (k : K) :
    (∃ e ∈ entries', e.key = k) ↔
      (∃ e ∈ entries, e.key = k) ∨ ∃ source ∈ sources, parse source = .ok k := by
  induction sources generalizing entries with
  | nil =>
    cases h
    simp
  | cons source rest ih =>
    rw [mergeAll] at h
    obtain ⟨key, hkey, h⟩ := ok_of_bind h
    rw [ih h, merge_keys, or_assoc]
    simp [hkey]

lemma buildFlagged_keys {parse : Bytes → Except PolErr K} {plain l7 : List Bytes}
    {entries : List (Flagged K)} (h : buildFlagged parse plain l7 = .ok entries) (k : K) :
    (∃ e ∈ entries, e.key = k) ↔ ∃ source ∈ plain ++ l7, parse source = .ok k := by
  obtain ⟨entries1, h1, h2⟩ := ok_of_bind h
  rw [mergeAll_keys h2, mergeAll_keys h1]
  simp [or_and_right, exists_or]

end

lemma buildDeny_keys {cidrs : List Bytes} {entries : List DenyEntry}
    (h : buildDenyOutPolicyEntries cidrs = .ok entries) (k : LpmKey) :
    (∃ e ∈ entries, e.key = k) ↔ ∃ cidr ∈ cidrs, parseCidrKey cidr = .ok k := by
  induction cidrs generalizing entries with
  | nil =>
    cases h
    simp
  | cons cidr rest ih =>
    rw [buildDenyOutPolicyEntries] at h
    obtain ⟨key, hkey, h⟩ := ok_of_bind h
    obtain ⟨entries', h', h⟩ := ok_of_bind h
    cases h
    have := ih h'
    by_cases hk : key = k
    · subst hk
      simp [hkey]
    rw [exists_mem_cons_iff, exists_mem_cons_iff, ← this, hkey]
    simp only [hk, Except.ok.injEq, false_or]
    constructor
    · rintro ⟨e, he, rfl⟩
      exact ⟨e, (mem_filter.1 he).1, rfl⟩
    · rintro ⟨e, he, rfl⟩
      exact ⟨e, mem_filter.2 ⟨he, by simpa using Ne.symm hk⟩, rfl⟩

lemma appendDeny_keys (dst src : List DenyEntry) (k : LpmKey) :
    (∃ e ∈ appendDenyOutPolicyEntries dst src, e.key = k) ↔
      (∃ e ∈ dst, e.key = k) ∨ ∃ e ∈ src, e.key = k := by
  unfold appendDenyOutPolicyEntries
  induction src generalizing dst with
  | nil => simp
  | cons e src ih =>
    rw [foldl_cons, ih]
    split
    · rename_i hany
      obtain ⟨e0, he0, hkey⟩ := any_eq_true.1 hany
      have hkey' : e0.key = e.key := by simpa using hkey
      rw [exists_mem_cons_iff]
      constructor
      · rintro (h | h)
        · exact .inl h
        · exact .inr (.inr h)
      rintro (h | rfl | h)
      · exact .inl h
      · exact .inl ⟨e0, he0, hkey'⟩
      · exact .inr h
    · simp only [mem_append, mem_singleton, exists_mem_cons_iff, or_and_right,
        exists_or, exists_eq_left, or_assoc]

lemma alwaysDenied_ok :
    buildDenyOutPolicyEntries alwaysDeniedSandboxCidrs = .ok alwaysDeniedSandboxEntries := by
  have hok : (buildDenyOutPolicyEntries alwaysDeniedSandboxCidrs).toOption.isSome := by
    decide +kernel
  unfold alwaysDeniedSandboxEntries
  cases h : buildDenyOutPolicyEntries alwaysDeniedSandboxCidrs with
  | ok entries => rfl
  | error e => simp [h, Except.toOption] at hok

lemma exists_key {d : UInt32} (h : inTarget target d = true ∨ misread target d = true) :
    ∃ key, parseCidrKey target = .ok key := by
  cases hkey : parseCidrKey target with
  | ok key => exact ⟨key, rfl⟩
  | error e =>
    have hnone : parseCIDR target = none ∧ parseIP target = none := by
      unfold parseCidrKey at hkey
      split at hkey
      · cases hkey
      rename_i hcidr
      split at hkey <;> try cases hkey
      rename_i hip
      exact ⟨hcidr, hip⟩
    simp [inTarget, misread, block, hnone.1, hnone.2, hkey, Except.toOption] at h

lemma matches_targets {targets : List Bytes} (d : UInt32) :
    (∃ key, (∃ t ∈ targets, parseCidrKey t = .ok key) ∧ keyMatches key d = true) ↔
      ∃ t ∈ targets, inTarget t d = true ∨ misread t d = true := by
  constructor
  · rintro ⟨key, ⟨t, ht, hkey⟩, hm⟩
    exact ⟨t, ht, (keyMatches_iff hkey d).1 hm⟩
  rintro ⟨t, ht, h⟩
  obtain ⟨key, hkey⟩ := exists_key h
  exact ⟨key, ⟨t, ht, hkey⟩, (keyMatches_iff hkey d).2 h⟩

/-! ### Targets of the allow lists -/

lemma parseCIDR_of_not_mem (h : 47 ∉ s) : parseCIDR s = none := by
  have htake : s.takeWhile (· != 47) = s :=
    takeWhile_eq_self_iff.2 fun b hb => by simpa using fun hb' : b = 47 => h (hb' ▸ hb)
  simp [parseCIDR, htake]

lemma splitTarget_inl {t c : Bytes} (h : splitTarget t = .ok (.inl c)) : c = trimSpace t := by
  unfold splitTarget at h
  dsimp only at h
  split_ifs at h with h1 h2
  · exact (Sum.inl.inj (Except.ok.inj h)).symm
  · cases h

lemma splitTarget_inr {t c : Bytes} (h : splitTarget t = .ok (.inr c)) :
    c = trimSpace t ∧ isDnsAllowTarget c = true ∧
      ∀ d, inTarget c d = false ∧ misread c d = false := by
  unfold splitTarget at h
  dsimp only at h
  split_ifs at h with h1 h2 h3 h4 h5
  · cases h
  cases h
  refine ⟨rfl, by simpa using h5, fun d => ?_⟩
  have hcidr : parseCIDR (trimSpace t) = none := parseCIDR_of_not_mem (by simpa using h3)
  have hip : parseIP (trimSpace t) = none := by
    simp only [Bool.or_eq_true, not_or, Bool.not_eq_true, Option.isSome_eq_false_iff,
      Option.isNone_iff_eq_none] at h4
    exact h4.1
  simp [inTarget, misread, block, parseCidrKey, hcidr, hip, Except.toOption]

lemma splitAllowOutTargets_spec {ts cs ds : List Bytes}
    (h : splitAllowOutTargets ts = .ok (cs, ds)) :
    (∀ c, c ∈ cs ↔ ∃ t ∈ ts, splitTarget t = .ok (.inl c)) ∧
      (∀ c, c ∈ ds ↔ ∃ t ∈ ts, splitTarget t = .ok (.inr c)) ∧
      ∀ t ∈ ts, ∃ r, splitTarget t = .ok r := by
  induction ts generalizing cs ds with
  | nil =>
    cases h
    simp
  | cons t ts ih =>
    rw [splitAllowOutTargets] at h
    obtain ⟨r, hr, h⟩ := ok_of_bind h
    obtain ⟨⟨cs', ds'⟩, hsplit, h⟩ := ok_of_bind h
    obtain ⟨hcs, hds, hall⟩ := ih hsplit
    have hall' : ∀ t' ∈ t :: ts, ∃ r, splitTarget t' = .ok r := by
      intro t' ht'
      rcases mem_cons.1 ht' with rfl | ht'
      · exact ⟨r, hr⟩
      · exact hall t' ht'
    cases r with
    | inl c0 =>
      cases h
      refine ⟨fun c => ?_, fun c => ?_, hall'⟩
      · simp [hcs, hr, eq_comm]
      · simp [hds, hr]
    | inr c0 =>
      cases h
      refine ⟨fun c => ?_, fun c => ?_, hall'⟩
      · simp [hcs, hr]
      · simp [hds, hr, eq_comm]

lemma split_means {ts cs ds : List Bytes} (h : splitAllowOutTargets ts = .ok (cs, ds))
    (d : UInt32) :
    (∃ c ∈ cs, inTarget c d = true ∨ misread c d = true) ↔
      ∃ t ∈ ts, inTarget (trimSpace t) d = true ∨ misread (trimSpace t) d = true := by
  obtain ⟨hcs, -, hall⟩ := splitAllowOutTargets_spec h
  constructor
  · rintro ⟨c, hc, hm⟩
    obtain ⟨t, ht, hr⟩ := (hcs c).1 hc
    obtain rfl := splitTarget_inl hr
    exact ⟨t, ht, hm⟩
  rintro ⟨t, ht, hm⟩
  obtain ⟨r, hr⟩ := hall t ht
  cases r with
  | inl c =>
    obtain rfl := splitTarget_inl hr
    exact ⟨_, (hcs _).2 ⟨t, ht, hr⟩, hm⟩
  | inr c =>
    obtain ⟨rfl, -, hnone⟩ := splitTarget_inr hr
    obtain ⟨h1, h2⟩ := hnone d
    simp [h1, h2] at hm

/-- The steps of a plan that was accepted. -/
structure Planned (opts : MvmOptions) (plan : NetPolicyPlan) (cs1 ds1 cs2 ds2 : List Bytes) :
    Prop where
  allow : splitAllowOutTargets (opts.allowOut.getD []) = .ok (cs1, ds1)
  l7 : splitAllowOutTargets (opts.l7AllowOut.getD []) = .ok (cs2, ds2)
  entries : buildAllowOutPolicyEntries cs1 cs2 = .ok plan.allowOutEntries
  rules : buildDnsAllowRules ds1 ds2 = .ok plan.dnsAllowRules
  deny : buildDenyOutPolicyEntries (denyTargets opts) = .ok plan.denyOutEntries
  flags : plan.dnsPolicyFlags = dnsPolicyFlagsForDomains ds1 ds2

variable {opts : MvmOptions} {plan : NetPolicyPlan}

lemma planned_of_ok (h : buildNetPolicyPlan opts = .ok plan) :
    ∃ cs1 ds1 cs2 ds2, Planned opts plan cs1 ds1 cs2 ds2 := by
  obtain ⟨⟨cs1, ds1⟩, h1, h⟩ := ok_of_bind h
  obtain ⟨⟨cs2, ds2⟩, h2, h⟩ := ok_of_bind h
  obtain ⟨entries, h3, h⟩ := ok_of_bind h
  obtain ⟨rules, h4, h⟩ := ok_of_bind h
  obtain ⟨deny, h5, h⟩ := ok_of_bind h
  obtain ⟨_, -, h⟩ := ok_of_bind h
  cases h
  exact ⟨cs1, ds1, cs2, ds2, h1, h2, h3, h4, h5, rfl⟩

/-- The targets of the allow lists, as they are read. -/
def allowTargets (opts : MvmOptions) : List Bytes :=
  (opts.allowOut.getD [] ++ opts.l7AllowOut.getD []).map trimSpace

/-- The targets that are denied: those of the options and the private ranges. -/
def effectiveDenyTargets (opts : MvmOptions) : List Bytes :=
  denyTargets opts ++ alwaysDeniedSandboxCidrs

/-- **The allow entries of a plan** match what the targets mean and what they are misread for. -/
theorem allow_entries_match (h : buildNetPolicyPlan opts = .ok plan) (d : UInt32) :
    (∃ e ∈ plan.allowOutEntries, keyMatches e.key d = true) ↔
      ∃ t ∈ allowTargets opts, inTarget t d = true ∨ misread t d = true := by
  obtain ⟨cs1, ds1, cs2, ds2, hp⟩ := planned_of_ok h
  have hkeys := buildFlagged_keys hp.entries
  calc (∃ e ∈ plan.allowOutEntries, keyMatches e.key d = true)
      ↔ ∃ key, (∃ e ∈ plan.allowOutEntries, e.key = key) ∧ keyMatches key d = true := by
        constructor
        · rintro ⟨e, he, hm⟩
          exact ⟨e.key, ⟨e, he, rfl⟩, hm⟩
        · rintro ⟨_, ⟨e, he, rfl⟩, hm⟩
          exact ⟨e, he, hm⟩
    _ ↔ ∃ t ∈ cs1 ++ cs2, inTarget t d = true ∨ misread t d = true := by
        simp only [hkeys]
        exact matches_targets d
    _ ↔ ∃ t ∈ allowTargets opts, inTarget t d = true ∨ misread t d = true := by
        have h1 := split_means hp.allow d
        have h2 := split_means hp.l7 d
        simp only [mem_append, or_and_right (c := inTarget _ d = true ∨ _), exists_or, h1, h2]
        simp [allowTargets, or_and_right, exists_or]

/-- The deny entries match what the targets mean and what they are misread for. -/
theorem deny_entries_match (h : buildNetPolicyPlan opts = .ok plan) (d : UInt32) :
    (∃ e ∈ plan.denyOutEntries ++ alwaysDeniedSandboxEntries, keyMatches e.key d = true) ↔
      ∃ t ∈ effectiveDenyTargets opts, inTarget t d = true ∨ misread t d = true := by
  obtain ⟨cs1, ds1, cs2, ds2, hp⟩ := planned_of_ok h
  have hkeys : ∀ key, (∃ e ∈ plan.denyOutEntries ++ alwaysDeniedSandboxEntries, e.key = key) ↔
      ∃ t ∈ effectiveDenyTargets opts, parseCidrKey t = .ok key := by
    intro key
    have h1 := buildDeny_keys hp.deny key
    have h2 := buildDeny_keys alwaysDenied_ok key
    simp only [mem_append, or_and_right, exists_or, h1, h2, effectiveDenyTargets]
  rw [← matches_targets d]
  simp only [← hkeys]
  constructor
  · rintro ⟨e, he, hm⟩
    exact ⟨e.key, ⟨e, he, rfl⟩, hm⟩
  · rintro ⟨_, ⟨e, he, rfl⟩, hm⟩
    exact ⟨e, he, hm⟩

end CubeSandbox.Pol
