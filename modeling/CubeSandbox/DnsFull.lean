import CubeSandbox.DnsSound

/-!
A query for a permitted name is recorded with the flags of the most specific rule.

The pipeline always hands the whole key to the lookup, and the lookup finds the most specific
rule. But a rule is stored with the flags that its key finds in the trie besides its own, so
that it takes over the flags of the nearest wildcard that was stored before it, which may
have taken over flags itself.
-/

namespace CubeSandbox.DnsFull

open Vs Lpm GoText Dotted Pol Tap DnsSound List Option

variable {r s : Rule} {ls : List Bytes}

lemma matches_suffix (h : r.Matches ls) : r.labels <:+ ls := by
  unfold Rule.Matches at h
  split at h
  · obtain ⟨c, -, rfl⟩ := h
    exact suffix_append _ _
  · rw [h]

lemma key_length_le_iff (hr : r.Valid) (hs : s.Valid) (hrl : r.labels <:+ ls)
    (hsl : s.labels <:+ ls) : s.key.length ≤ r.key.length ↔ s.labels.length ≤ r.labels.length := by
  have hkey : ∀ t : Rule, t.key.length = (join 46 t.labels).length + 1 := by
    intro t
    simp [Rule.key]
  -- a list that is longer by some labels has a longer text
  have hgrow : ∀ {a b : List Bytes}, a ≠ [] → a <:+ b →
      a.length < b.length → (join (46 : UInt8) a).length < (join 46 b).length := by
    rintro a b ha ⟨c, rfl⟩ hlt
    have hc : c ≠ [] := by
      rintro rfl
      exact absurd hlt (by simp)
    rw [join_append 46 hc ha, length_append, length_cons]
    omega
  rw [hkey, hkey]
  rcases Nat.lt_trichotomy s.labels.length r.labels.length with hlt | heq | hgt
  · have := hgrow hs.ne (suffix_of_suffix_length_le hsl hrl (Nat.le_of_lt hlt)) hlt
    omega
  · have hsame : s.labels = r.labels :=
      (suffix_of_suffix_length_le hsl hrl (Nat.le_of_eq heq)).eq_of_length heq
    simp [hsame]
  · have := hgrow hr.ne (suffix_of_suffix_length_le hrl hsl (Nat.le_of_lt hgt)) hgt
    omega

/-- The most specific of the rules that match a name. -/
structure MostSpecific (rs : List Rule) (ls : List Bytes) (r : Rule) : Prop where
  mem : r ∈ rs
  here : r.Matches ls
  most : ∀ s ∈ rs, s.Matches ls → s.labels.length ≤ r.labels.length

/-! ### Flags that are taken over -/

/-- The nearest rule that covers `r` and stands before it in the list. -/
structure NearestCover (rs : List Rule) (r s : Rule) : Prop where
  mem : s ∈ rs
  before : rs.idxOf s < rs.idxOf r
  wildcard : s.wildcard = true
  covers : s.Matches r.labels
  nearest : ∀ s' ∈ rs, rs.idxOf s' < rs.idxOf r → s'.wildcard = true → s'.Matches r.labels →
    s'.labels.length ≤ s.labels.length

/-- No rule on the way up from `r`, over the nearest covers that stand before, requires the
proxy unless `r` itself does. -/
def KeepsFlags (opts : MvmOptions) (r : Rule) : Prop :=
  ∀ s, Relation.TransGen (NearestCover (ruleList opts)) r s → s ∈ l7Rules opts → r ∈ l7Rules opts

section
variable {f : Rule → UInt8} {rs : List Rule}

lemma nearestCover_last (hrs : ∀ t ∈ rs, t.Valid) (hr : r.Valid) (hnew : r ∉ rs) :
    NearestCover (rs ++ [r]) r s ↔ Longest rs r.key s := by
  have hidx : ∀ t, (rs ++ [r]).idxOf t < (rs ++ [r]).idxOf r ↔ t ∈ rs := by
    intro t
    have hr' : (rs ++ [r]).idxOf r = rs.length := by
      rw [idxOf_append_of_notMem hnew]
      simp
    rw [hr']
    constructor
    · intro hlt
      by_contra ht
      rw [idxOf_append_of_notMem ht] at hlt
      omega
    · intro ht
      rw [idxOf_append_of_mem ht]
      exact idxOf_lt_length_of_mem ht
  have hcover : ∀ t ∈ rs, t.key <+: r.key ↔ t.wildcard = true ∧ t.Matches r.labels := by
    intro t ht
    rw [(hrs t ht).key_prefix_key hr]
    have hne : t ≠ r := by
      rintro rfl
      exact hnew ht
    simp [hne]
  have hlen : ∀ t ∈ rs, t.key <+: r.key → ∀ u ∈ rs, u.key <+: r.key →
      (u.key.length ≤ t.key.length ↔ u.labels.length ≤ t.labels.length) := by
    intro t ht htk u hu huk
    exact key_length_le_iff (hrs t ht) (hrs u hu) (matches_suffix ((hcover t ht).1 htk).2)
      (matches_suffix ((hcover u hu).1 huk).2)
  constructor
  · rintro ⟨-, hbefore, hw, hm, hnear⟩
    have hs := (hidx s).1 hbefore
    have hsk := (hcover s hs).2 ⟨hw, hm⟩
    refine ⟨hs, hsk, fun t ht htk => (hlen s hs hsk t ht htk).2 ?_⟩
    obtain ⟨htw, htm⟩ := (hcover t ht).1 htk
    exact hnear t (mem_append_left _ ht) ((hidx t).2 ht) htw htm
  rintro ⟨hs, hsk, hlong⟩
  obtain ⟨hw, hm⟩ := (hcover s hs).1 hsk
  refine ⟨mem_append_left _ hs, (hidx s).2 hs, hw, hm, fun t _ htb htw htm => ?_⟩
  have ht := (hidx t).1 htb
  have htk := (hcover t ht).2 ⟨htw, htm⟩
  exact (hlen s hs hsk t ht htk).1 (hlong t ht htk)

lemma nearestCover_snoc {new : Rule} (hr : r ∈ rs) :
    NearestCover (rs ++ [new]) r s ↔ NearestCover rs r s := by
  have hidx : ∀ t, (rs ++ [new]).idxOf t < (rs ++ [new]).idxOf r ↔ rs.idxOf t < rs.idxOf r := by
    intro t
    rw [idxOf_append_of_mem hr]
    by_cases ht : t ∈ rs
    · rw [idxOf_append_of_mem ht]
    have hlt := idxOf_lt_length_of_mem hr
    rw [idxOf_append_of_notMem ht, idxOf_of_notMem ht]
    omega
  have hmem : ∀ t, rs.idxOf t < rs.idxOf r → t ∈ rs := by
    intro t hlt
    exact idxOf_lt_length_iff.1 (hlt.trans (idxOf_lt_length_of_mem hr))
  constructor
  · rintro ⟨-, hb, hw, hm, hnear⟩
    refine ⟨hmem s ((hidx s).1 hb), (hidx s).1 hb, hw, hm, fun t ht htb => ?_⟩
    exact hnear t (mem_append_left _ ht) ((hidx t).2 htb)
  rintro ⟨hs, hb, hw, hm, hnear⟩
  refine ⟨mem_append_left _ hs, (hidx s).2 hb, hw, hm, fun t _ htb => ?_⟩
  exact hnear t (hmem t ((hidx t).1 htb)) ((hidx t).1 htb)

lemma mem_of_transGen (h : Relation.TransGen (NearestCover rs) r s) : s ∈ rs := by
  cases h with
  | single h => exact h.mem
  | tail _ h => exact h.mem

lemma transGen_snoc {new : Rule} (hr : r ∈ rs) :
    Relation.TransGen (NearestCover (rs ++ [new])) r s ↔
      Relation.TransGen (NearestCover rs) r s := by
  constructor
  · intro h
    induction h with
    | single h => exact .single ((nearestCover_snoc hr).1 h)
    | tail _ h ih => exact ih.tail ((nearestCover_snoc (mem_of_transGen ih)).1 h)
  intro h
  induction h with
  | single h => exact .single ((nearestCover_snoc hr).2 h)
  | tail hab h ih => exact ih.tail ((nearestCover_snoc (mem_of_transGen hab)).2 h)

lemma Longest.unique {k : Bytes} (hrs : ∀ t ∈ rs, t.Valid) (hr : Longest rs k r)
    (hs : Longest rs k s) : r = s := by
  have hlen : r.key.length = s.key.length :=
    Nat.le_antisymm (hs.longest r hr.mem hr.isPre) (hr.longest s hs.mem hs.isPre)
  have hkey : r.key = s.key :=
    (prefix_of_prefix_length_le hr.isPre hs.isPre (Nat.le_of_eq hlen)).eq_of_length hlen
  exact (hrs r hr.mem).key_inj (hrs s hs.mem) hkey

/-- What is above the rule stored last: the rule that its key finds, and what is above that one. -/
lemma transGen_last {u : Rule} (hrs : ∀ t ∈ rs, t.Valid) (hr : r.Valid) (hnew : r ∉ rs)
    (hs : Longest rs r.key s) :
    Relation.TransGen (NearestCover (rs ++ [r])) r u ↔
      u = s ∨ Relation.TransGen (NearestCover rs) s u := by
  rw [Relation.TransGen.head'_iff]
  constructor
  · rintro ⟨b, hb, hbu⟩
    obtain rfl := Longest.unique hrs ((nearestCover_last hrs hr hnew).1 hb) hs
    obtain rfl | h := Relation.reflTransGen_iff_eq_or_transGen.1 hbu
    · exact .inl rfl
    · exact .inr ((transGen_snoc hs.mem).1 h)
  · rintro (rfl | h)
    · exact ⟨u, (nearestCover_last hrs hr hnew).2 hs, .refl⟩
    · exact ⟨s, (nearestCover_last hrs hr hnew).2 hs, ((transGen_snoc hs.mem).2 h).to_reflTransGen⟩

lemma or_le_iff {a b g : UInt8} : (a ||| b) ||| g = g ↔ a ||| g = g ∧ b ||| g = g := by
  constructor
  · intro h
    constructor
    · rw [← h, UInt8.or_assoc, ← UInt8.or_assoc a a, UInt8.or_self]
    · rw [← h, UInt8.or_comm a b, UInt8.or_assoc, ← UInt8.or_assoc b b, UInt8.or_self]
  · rintro ⟨ha, hb⟩
    rw [UInt8.or_assoc, hb, ha]

/-- **The flags in the trie** lie within `g` exactly if those of the rule and all above it do. -/
theorem stored_flags_le (hnodup : rs.Nodup) (hrs : ∀ t ∈ rs, t.Valid) {r : Rule} (hr : r ∈ rs)
    {v : DnsAllowValue} (hv : trieOf f rs (bits r.key) = some v) (g : UInt8) :
    v.flags ||| g = g ↔
      f r ||| g = g ∧ ∀ s, Relation.TransGen (NearestCover rs) r s → f s ||| g = g := by
  induction rs using List.reverseRecOn generalizing r v with
  | nil => cases hr
  | append_singleton rs new ih =>
    have hsplit := nodup_append.1 hnodup
    have hnew : new ∉ rs := fun h => hsplit.2.2 new h new (by simp) rfl
    have hrs' : ∀ t ∈ rs, t.Valid := fun t ht => hrs t (mem_append_left _ ht)
    have hnewv : new.Valid := hrs new (by simp)
    rw [trieOf_snoc, putRule] at hv
    by_cases hrn : r = new
    · -- the rule that was stored last
      subst hrn
      rw [KMap.set_self] at hv
      cases hv
      cases hold : lookup (trieOf f rs) (bits r.key) with
      | none =>
        have hnone : ∀ s, ¬ Relation.TransGen (NearestCover (rs ++ [r])) r s := by
          intro s hs
          obtain ⟨b, hb, -⟩ := Relation.TransGen.head'_iff.1 hs
          have hlong := (nearestCover_last hrs' hnewv hnew).1 hb
          obtain ⟨w, hw⟩ := trieOf_stored.2 ⟨b, hlong.mem, rfl⟩
          rw [lookup_trieOf.2 ⟨b, hlong, hw⟩] at hold
          cases hold
        simp [hnone]
      | some old =>
        obtain ⟨s, hs, hsv⟩ := lookup_trieOf.1 hold
        have hrec := ih hsplit.1 hrs' hs.mem hsv
        simp only [map_some, getD_some, or_le_iff, hrec,
          transGen_last hrs' hnewv hnew hs, forall_eq_or_imp]
    · -- a rule that was there before
      have hmem : r ∈ rs := (mem_append.1 hr).resolve_right (by simpa using hrn)
      have hkey : bits r.key ≠ bits new.key := fun h =>
        hrn ((hrs' r hmem).key_inj hnewv (bits_injective h))
      rw [KMap.set_ne _ _ hkey] at hv
      rw [ih hsplit.1 hrs' hmem hv]
      simp only [transGen_snoc hmem]

end

/-! ### A parser of whole names -/

/-- Labels behind their lengths, up to the empty one. -/
def wholeName : Nat → List UInt8 → Option (List Bytes)
  | 0, _ => none
  | _ + 1, [] => none
  | n + 1, c :: s =>
    if c = 0 then some []
    else if 63 < c ∨ s.length < c.toNat then none
    else (wholeName n (s.drop c.toNat)).map (s.take c.toNat :: ·)

/-- The reversed lower-case text of the name in the question, closed by a NUL. -/
def wholeKey (d : List UInt8) : Option Bytes :=
  (wholeName 128 (d.drop dnsHdrLen)).map fun ls =>
    (join 46 (ls.map (·.map dnsQnameLower))).reverse ++ [0]

lemma wholeName_encode (hls : PlainLabels ls) {n : Nat} (hn : ls.length < n)
    (rest : List UInt8) : wholeName n (encode ls ++ rest) = some ls := by
  induction ls generalizing n with
  | nil =>
    obtain ⟨n, rfl⟩ : ∃ n', n = n' + 1 := ⟨n - 1, by omega⟩
    rfl
  | cons l ls ih =>
    obtain ⟨n, rfl⟩ : ∃ n', n = n' + 1 := ⟨n - 1, by omega⟩
    obtain ⟨hl, hls'⟩ := plainLabels_cons.1 hls
    obtain ⟨hlen, h0, -⟩ := plain_length hl
    have hfits : ¬ (63 < l.length.toUInt8 ∨
        (l ++ (encode ls ++ rest)).length < l.length.toUInt8.toNat) := by
      rw [UInt8.lt_iff_toNat_lt, hlen, length_append]
      have : (63 : UInt8).toNat = 63 := rfl
      omega
    rw [encode_cons, cons_append, append_assoc, wholeName, if_neg h0, if_neg hfits, hlen,
      drop_left, take_left, ih hls' (by simpa using hn)]
    rfl

lemma wholeKey_asked {d : List UInt8} (h : Asked d ls)
    (hwire : (encode ls).length ≤ 255) : wholeKey d = some (questionKey ls) := by
  obtain ⟨rest, hd⟩ := h.question
  have hfew := encode_length_ge h.plain
  rw [wholeKey, hd, wholeName_encode h.plain (by omega)]
  rfl

/-! ### The record of a query -/

/-- The pipeline hands on the key of the whole name, and the query is recorded with flags. -/
def Recorded (env : Env) (now : Ktime) (m : Maps) (skb : Skb) (scratch : DnsScratch) (l3 : IpHdr)
    (udp : UdpHdr) (ls : List Bytes) (flags : UInt8) : Prop :=
  ∃ st q hdr key, wholeKey skb.data = some key ∧
    dnsHandleQuery m skb scratch skb.ifindex = .finish st q ∧ Complete st q key ∧
    loadHeader skb.data = some hdr ∧
    (fromCube env now m skb scratch).tracked = some (trackKey skb l3 udp hdr ls) ∧
    (fromCube env now m skb scratch).maps.dnsQueryTrack (trackKey skb l3 udp hdr ls) =
      some ⟨now.ns + dnsQueryTrackTtlNs, flags⟩

lemma Recorded.flags_eq {env : Env} {now : Ktime} {m : Maps} {skb : Skb} {scratch : DnsScratch}
    {l3 : IpHdr} {udp : UdpHdr} {a b : UInt8}
    (ha : Recorded env now m skb scratch l3 udp ls a)
    (hb : Recorded env now m skb scratch l3 udp ls b) : a = b := by
  obtain ⟨_, _, hdr, _, _, _, _, hload, _, hva⟩ := ha
  obtain ⟨_, _, hdr', _, _, _, _, hload', _, hvb⟩ := hb
  cases hload.symm.trans hload'
  exact congrArg DnsQueryTrackValue.flags (some.inj (hva.symm.trans hvb))

section
variable {opts : MvmOptions} {ls : List Bytes}

lemma longest_iff_mostSpecific (hne : ls ≠ []) (hfree : ∀ l ∈ ls, 46 ∉ l ∧ 0 ∉ l) :
    Longest (ruleList opts) (questionKey ls) r ↔
      MostSpecific (ruleList opts) (lowerLabels ls) r := by
  have hmatch : ∀ t ∈ ruleList opts, t.key <+: questionKey ls ↔ t.Matches (lowerLabels ls) := by
    intro t ht
    rw [matches_lower_iff (ruleList_valid ht) hne, textMatches_iff, and_iff_left]
    exact fun l hl => hfree l (mem_of_mem_lastOf hl)
  constructor
  · rintro ⟨hr, hpre, hlong⟩
    refine ⟨hr, (hmatch r hr).1 hpre, fun s hs hsm => ?_⟩
    exact (key_length_le_iff (ruleList_valid hr) (ruleList_valid hs)
      (matches_suffix ((hmatch r hr).1 hpre)) (matches_suffix hsm)).1
        (hlong s hs ((hmatch s hs).2 hsm))
  rintro ⟨hr, hm, hmost⟩
  refine ⟨hr, (hmatch r hr).2 hm, fun s hs hsk => ?_⟩
  have hsm := (hmatch s hs).1 hsk
  exact (key_length_le_iff (ruleList_valid hr) (ruleList_valid hs) (matches_suffix hm)
    (matches_suffix hsm)).2 (hmost s hs hsm)

lemma stored_own_flags_iff (hr : r ∈ ruleList opts) {v : DnsAllowValue}
    (hv : trieOf (ruleFlags opts) (ruleList opts) (bits r.key) = some v) :
    v.flags = ruleFlags opts r ↔ KeepsFlags opts r := by
  have hnd : (ruleList opts).Nodup := eraseDups_nodup _
  have hle := stored_flags_le hnd (fun t ht => ruleList_valid ht) hr hv
  have hown : ruleFlags opts r ||| v.flags = v.flags := ((hle v.flags).1 (UInt8.or_self)).1
  have hsub : v.flags = ruleFlags opts r ↔ v.flags ||| ruleFlags opts r = ruleFlags opts r := by
    constructor
    · intro h
      rw [h, UInt8.or_self]
    · intro h
      rw [← h, UInt8.or_comm, hown]
  have hflags : ∀ s, ruleFlags opts s ||| ruleFlags opts r = ruleFlags opts r ↔
      (s ∈ l7Rules opts → r ∈ l7Rules opts) := by
    intro s
    unfold ruleFlags
    split <;> split <;> simp_all [flagL7Required]
  rw [hsub, hle, and_iff_right (UInt8.or_self), KeepsFlags]
  simp only [hflags]

lemma recorded_stored {m0 m1 : Maps} {tap ip : UInt32} {id : Bytes} {version : UInt32}
    {upsert : Bool} (h : install m0 tap ip id version opts upsert = (m1, .ok ()))
    (hwire : (encode ls).length ≤ 255) (hr : Longest (ruleList opts) (questionKey ls) r)
    {v : DnsAllowValue} (hv : trieOf (ruleFlags opts) (ruleList opts) (bits r.key) = some v)
    (env : Env) (now : Ktime) (m : Maps) (skb : Skb) (scratch : DnsScratch) (l3 : IpHdr)
    (udp : UdpHdr) (hm : m.dnsAllow tap = m1.dnsAllow tap) (htap : skb.ifindex = tap)
    (hto : ToDns env m skb l3 udp) (hls : Asked skb.data ls) :
    Recorded env now m skb scratch l3 udp ls v.flags := by
  obtain ⟨h0, hle⟩ := stored_checks (fun t ht => ruleList_valid ht) hr.mem hv hr.isPre
  have htrie : m.dnsAllow skb.ifindex = some (trieOf (ruleFlags opts) (ruleList opts)) := by
    rw [htap, hm, (installed_dns h).1]
  have hshort : (encode ls).length ≤ maxDnsNameLen := hwire.trans (by decide)
  obtain ⟨st, q, hdr, hq, hcomplete, hload, htracked, hvalue⟩ :=
    hto.recorded now scratch hls hshort htrie (lookup_trieOf.2 ⟨r, hr, hv⟩) h0 hle
  exact ⟨st, q, hdr, _, wholeKey_asked hls hwire, hq, hcomplete, hload, htracked, hvalue⟩

end

/-- **DNS completeness**: every query for a plain name that a rule matches is recorded under the key
of the whole name with the flags of the most specific rule, exactly if that rule takes no flags
over. -/
theorem recorded_with_own_flags_iff {m0 m1 : Maps} {tap ip : UInt32} {id : Bytes}
    {version : UInt32} {opts : MvmOptions} {upsert : Bool}
    (h : install m0 tap ip id version opts upsert = (m1, .ok ())) {ls : List Bytes}
    (hls : PlainLabels ls) (hfree : ∀ l ∈ ls, 46 ∉ l ∧ 0 ∉ l)
    (hwire : (encode ls).length ≤ 255)
    (hmatch : ∃ r ∈ ruleList opts, r.Matches (lowerLabels ls)) :
    (∃ r, MostSpecific (ruleList opts) (lowerLabels ls) r ∧
      ∀ env now m skb scratch l3 udp, m.dnsAllow tap = m1.dnsAllow tap → skb.ifindex = tap →
        ToDns env m skb l3 udp → Asked skb.data ls →
        Recorded env now m skb scratch l3 udp ls (ruleFlags opts r)) ↔
      ∀ r, MostSpecific (ruleList opts) (lowerLabels ls) r → KeepsFlags opts r := by
  obtain ⟨r0, hr0, hm0⟩ := hmatch
  have hne : ls ≠ [] := by
    rintro rfl
    exact (ruleList_valid hr0).ne (suffix_nil.1 (matches_suffix hm0))
  -- the rule that the lookup finds, which is the most specific one
  have hpre := textMatches_iff.1 ((matches_lower_iff (ruleList_valid hr0) hne).1 hm0).1
  obtain ⟨r, v, hr, hv⟩ := exists_longest (f := ruleFlags opts) hr0 hpre
  have hspec := (longest_iff_mostSpecific hne hfree).1 hr
  have honly : ∀ s, MostSpecific (ruleList opts) (lowerLabels ls) s → s = r := fun s hs =>
    Longest.unique (fun t ht => ruleList_valid ht) ((longest_iff_mostSpecific hne hfree).2 hs) hr
  have hstored := recorded_stored h hwire hr hv
  constructor
  · rintro ⟨s, hs, hall⟩ s' hs'
    obtain rfl := honly s hs
    obtain rfl := honly s' hs'
    have hlen : (message ls).length = dnsHdrLen + (encode ls).length + 4 := by
      simp only [message, length_append, length_cons, length_nil, dnsHdrLen]
    have hto : ToDns NatPair.demoEnv m1 (queryPacket tap (message ls)) _ _ :=
      queryPacket_toDns (by omega) (by unfold dnsHdrLen at hlen; omega)
        ((installed_dns h).2 (ne_nil_of_mem hr0))
    have hasked : Asked (queryPacket tap (message ls)).data ls := by
      simpa [queryPacket] using message_asked hls hne
    have hown := hall _ (.ofNs 0) _ _ NatPair.demoScratch _ _ rfl rfl hto hasked
    have hflags := (hstored _ _ _ _ _ _ _ rfl rfl hto hasked).flags_eq hown
    exact (stored_own_flags_iff hr.mem hv).1 hflags
  · intro hkeeps
    have hflags := (stored_own_flags_iff hr.mem hv).2 (hkeeps r hspec)
    refine ⟨r, hspec, fun env now m skb scratch l3 udp hm htap hto hasked => ?_⟩
    rw [← hflags]
    exact hstored env now m skb scratch l3 udp hm htap hto hasked

theorem subdomain_recorded : ∃ m, install noMaps 7 0x0200000a [] 1 demoOptions false = (m, .ok ()) ∧
      ∃ r, MostSpecific (ruleList demoOptions) [ascii "a", ascii "cube", ascii "app"] r ∧
        ∀ env now m' skb scratch l3 udp, m'.dnsAllow 7 = m.dnsAllow 7 → skb.ifindex = 7 →
          ToDns env m' skb l3 udp → Asked skb.data [ascii "A", ascii "cube", ascii "app"] →
          Recorded env now m' skb scratch l3 udp [ascii "A", ascii "cube", ascii "app"]
            (ruleFlags demoOptions r) := by
  have hok : (install noMaps 7 0x0200000a [] 1 demoOptions false).2 = .ok () := by
    decide +kernel
  have hl7 : l7Rules demoOptions = [] := rfl
  rcases hinst : install noMaps 7 0x0200000a [] 1 demoOptions false with ⟨m, r⟩
  rw [hinst] at hok
  obtain rfl : r = .ok () := hok
  have hmatch : ∃ r ∈ ruleList demoOptions,
      r.Matches (lowerLabels [ascii "A", ascii "cube", ascii "app"]) := by
    rw [demoOptions_rules]
    decide +kernel
  have hplain : PlainLabels [ascii "A", ascii "cube", ascii "app"] := by
    unfold PlainLabels
    decide
  refine ⟨m, rfl, (recorded_with_own_flags_iff hinst hplain (by decide) (by decide) hmatch).2 ?_⟩
  intro r _ s _ hs
  rw [hl7] at hs
  cases hs

/-- Subdomains of a domain go through the proxy, but for one of them. -/
def mixedOptions (allowOut : List Bytes) : MvmOptions :=
  ⟨none, some allowOut, some [ascii "*.qq.com"], some [ascii "0.0.0.0/0"]⟩

/-- The flags that a query for `a.qq.com` is recorded with. -/
def flagsOfQuery (opts : MvmOptions) : Option UInt8 :=
  let out := fromCube NatPair.demoEnv (.ofNs 1) (install noMaps 7 0x0200000a [] 1 opts false).1
    (queryPacket 7 (message [ascii "a", ascii "qq", ascii "com"])) NatPair.demoScratch
  (out.tracked.bind out.maps.dnsQueryTrack).map (·.flags)

/-- The rule of `a.qq.com` does not require the proxy, but it is recorded with the flags of the
wildcard if that one is listed first. -/
theorem wildcard_flags_taken_over : let first := mixedOptions [ascii "*.qq.com", ascii "a.qq.com"]
    let last := mixedOptions [ascii "a.qq.com", ascii "*.qq.com"]
    let rule : Rule := ⟨false, [ascii "a", ascii "qq", ascii "com"]⟩
    ((install noMaps 7 0x0200000a [] 1 first false).2 = .ok () ∧
      MostSpecific (ruleList first) [ascii "a", ascii "qq", ascii "com"] rule ∧
      ruleFlags first rule = 0 ∧ flagsOfQuery first = some 1) ∧
      ((install noMaps 7 0x0200000a [] 1 last false).2 = .ok () ∧
        ruleFlags last rule = 0 ∧ flagsOfQuery last = some 0) := by
  refine ⟨⟨by decide +kernel, ⟨by decide +kernel, by decide +kernel, by decide +kernel⟩,
    by decide +kernel, by decide +kernel⟩, by decide +kernel, by decide +kernel,
    by decide +kernel⟩

end CubeSandbox.DnsFull
