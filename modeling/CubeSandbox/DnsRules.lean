import CubeSandbox.PolInstall
import CubeSandbox.DnsTrack

/-!
The domain rules of a policy, as lists of labels.

A rule is exact or a wildcard, and matches names by their labels. The trie knows only the
reversed text of a rule with a closing byte. This module relates the two: which rules the
options hold, under which keys they are stored, and what a key that is a prefix of the key
of a name says about labels.
-/

namespace CubeSandbox.Pol

open Vs Lpm GoText Dotted List

structure Rule where
  wildcard : Bool
  labels : List Bytes
  deriving DecidableEq

/-- The rule of a domain: a star before the first dot makes a wildcard. -/
def domainRule : Bytes → Rule
  | 42 :: 46 :: rest => ⟨true, rest.splitOn 46⟩
  | domain => ⟨false, domain.splitOn 46⟩

/-- The rule that an accepted target stands for. -/
def ruleOf (target : Bytes) : Rule := domainRule (toLower (trimSuffix target 46))

/-- A name has the labels of an exact rule, or labels before those of a wildcard. -/
def Rule.Matches (r : Rule) (ls : List Bytes) : Prop :=
  if r.wildcard then ∃ c, c ≠ [] ∧ ls = c ++ r.labels else ls = r.labels

variable {ls ts : List Bytes}

lemma extends_iff_suffix {a : List Bytes} :
    (∃ c, c ≠ [] ∧ ls = c ++ a) ↔ a <:+ ls ∧ a.length < ls.length := by
  constructor
  · rintro ⟨c, hc, rfl⟩
    refine ⟨suffix_append _ _, ?_⟩
    rw [length_append]
    have := length_pos_iff.2 hc
    omega
  · rintro ⟨⟨c, rfl⟩, hlen⟩
    refine ⟨c, ?_, rfl⟩
    rintro rfl
    exact absurd hlen (by simp)

instance (r : Rule) (ls : List Bytes) : Decidable (r.Matches ls) :=
  decidable_of_iff (if r.wildcard then r.labels <:+ ls ∧ r.labels.length < ls.length
    else ls = r.labels) (by rw [Rule.Matches, extends_iff_suffix])

/-- The byte that closes the key: subdomains go on with a dot. -/
def Rule.closing (r : Rule) : UInt8 := if r.wildcard then 46 else 0

def Rule.key (r : Rule) : Bytes := (join 46 r.labels).reverse ++ [r.closing]

structure Rule.Valid (r : Rule) : Prop where
  ne : r.labels ≠ []
  noDot : ∀ l ∈ r.labels, 46 ∉ l
  noNul : ∀ l ∈ r.labels, 0 ∉ l
  short : (join 46 r.labels).length < maxDnsNameLen - 1

/-! ### Keys of accepted targets -/

lemma isValidLabel_bytes {l : Bytes} (h : isValidLabel l = true) {b : UInt8} (hb : b ∈ l) :
    b ≠ 46 ∧ b ≠ 0 ∧ b ≠ 42 := by
  simp only [isValidLabel, Bool.and_eq_true, all_eq_true] at h
  have hch := h.1.1.2 b hb
  refine ⟨?_, ?_, ?_⟩ <;> rintro rfl <;> revert hch <;> decide

lemma validDomain_bytes {domain : Bytes} (h : isValidDnsDomainName domain = true) {b : UInt8}
    (hb : b ∈ domain) : b ≠ 0 ∧ b ≠ 42 := by
  have hjoin : join 46 (domain.splitOn 46) = domain := intercalate_splitOn 46
  rw [← hjoin] at hb
  obtain rfl | ⟨l, hl, hb⟩ := mem_join 46 hb
  · decide
  · exact (isValidLabel_bytes (all_eq_true.1 h l hl) hb).2

lemma valid_of_domain {wildcard : Bool} {domain : Bytes} (h : isValidDnsDomainName domain = true)
    (hlen : domain.length < maxDnsNameLen - 1) : (⟨wildcard, domain.splitOn 46⟩ : Rule).Valid where
  ne := splitOn_ne_nil 46 domain
  noDot l hl hmem := (isValidLabel_bytes (all_eq_true.1 h l hl) hmem).1 rfl
  noNul l hl hmem := (isValidLabel_bytes (all_eq_true.1 h l hl) hmem).2.1 rfl
  short := by
    have hjoin : join 46 (domain.splitOn 46) = domain := intercalate_splitOn 46
    rwa [hjoin]

/-- **The key of an accepted target** is the one of its rule. -/
theorem makeDnsAllowKey_ruleOf {target : Bytes} (h : isDnsAllowTarget target = true) :
    (ruleOf target).Valid ∧ makeDnsAllowKey target = .ok (ruleOf target).key := by
  unfold isDnsAllowTarget at h
  unfold ruleOf makeDnsAllowKey
  dsimp only at h ⊢
  generalize toLower (trimSuffix target 46) = domain at h
  split at h
  · rename_i rest
    simp only [Bool.and_eq_true, bne_iff_ne, ne_eq, decide_eq_true_eq] at h
    obtain ⟨⟨hne, hlen⟩, hvalid⟩ := h
    refine ⟨valid_of_domain hvalid hlen, ?_⟩
    have hstar : rest.count 42 = 0 :=
      count_eq_zero.2 fun hmem => (validDomain_bytes hvalid hmem).2 rfl
    have hjoin : join 46 (rest.splitOn 46) = rest := intercalate_splitOn 46
    have hlen' : rest.length < 255 := hlen
    simp [domainRule, Rule.key, Rule.closing, hjoin, hstar, hne, hlen']
  rename_i hshape
  split_ifs at h
  rename_i hstar
  simp only [Bool.and_eq_true, bne_iff_ne, ne_eq, decide_eq_true_eq] at h
  obtain ⟨⟨hne, hlen⟩, hvalid⟩ := h
  have hrule : domainRule domain = ⟨false, domain.splitOn 46⟩ := by
    unfold domainRule
    split
    · rename_i rest
      exact absurd rfl (hshape rest)
    · rfl
  rw [hrule]
  refine ⟨valid_of_domain hvalid hlen, ?_⟩
  have hjoin : join 46 (domain.splitOn 46) = domain := intercalate_splitOn 46
  have hlen' : ¬ 255 ≤ length domain := Nat.not_le.2 hlen
  have hstar' : 42 ∉ domain := by simpa using hstar
  simp [Rule.key, Rule.closing, hjoin, hne, hstar', hlen']

lemma key_prefix_iff {a b : Bytes} {c z : UInt8} :
    a.reverse ++ [c] <+: b.reverse ++ [z] ↔ (∃ u, b = u ++ c :: a) ∨ (c = z ∧ b = a) := by
  have hrev : a.reverse ++ [c] <+: b.reverse ++ [z] ↔ c :: a <:+ z :: b := by
    rw [← reverse_cons, ← reverse_cons, reverse_prefix]
  rw [hrev, suffix_cons_iff, or_comm]
  constructor
  · rintro (⟨u, h⟩ | h)
    · exact .inl ⟨u, h.symm⟩
    · cases h
      exact .inr ⟨rfl, rfl⟩
  · rintro (⟨u, rfl⟩ | ⟨rfl, rfl⟩)
    · exact .inl ⟨u, rfl⟩
    · exact .inr rfl

/-- **A rule matches a name** exactly if its key is a prefix of the name's key and the last labels
of the name, as many as the rule has, hold neither dots nor NULs. -/
theorem Rule.Valid.matches_iff {r : Rule} (h : r.Valid) (hls : ls ≠ []) :
    r.Matches ls ↔ r.key <+: (join 46 ls).reverse ++ [0] ∧
      ∀ l ∈ lastOf ls r.labels, 46 ∉ l ∧ 0 ∉ l := by
  rw [Rule.key, key_prefix_iff, Rule.Matches, Rule.closing]
  cases r.wildcard with
  | false =>
    simp only [Bool.false_eq_true, if_false, true_and]
    rw [Dotted.eq_iff (46 : UInt8) (by decide) h.ne h.noDot h.noNul hls, or_comm]
  | true =>
    have hne : ¬ ((46 : UInt8) = 0) := by decide
    simp only [if_true, hne, false_and, or_false]
    constructor
    · rintro ⟨c, hc, rfl⟩
      rw [lastOf_append]
      exact ⟨⟨join 46 c, join_append 46 hc h.ne⟩, fun l hl => ⟨h.noDot l hl, h.noNul l hl⟩⟩
    · rintro ⟨htext, hfree⟩
      exact (extends_iff 46 h.ne h.noDot).2 ⟨htext, fun l hl => (hfree l hl).1⟩

lemma mem_of_mem_lastOf {a : List Bytes} {l : Bytes} (h : l ∈ lastOf ls a) : l ∈ ls :=
  mem_of_mem_drop h

variable {r s : Rule} {k : Bytes}

lemma Rule.Valid.ext (hs : s.Valid) (hr : r.Valid) (hc : s.closing = r.closing)
    (ht : join 46 s.labels = join 46 r.labels) : s = r := by
  obtain ⟨ws, ls⟩ := s
  obtain ⟨wr, lr⟩ := r
  obtain rfl : ls = lr := join_inj 46 hs.ne hr.ne hs.noDot hr.noDot ht
  have hw : ws = wr := by
    cases ws <;> cases wr <;> first | rfl | simp [Rule.closing] at hc
  rw [hw]

lemma Rule.Valid.key_inj (hs : s.Valid) (hr : r.Valid) (h : s.key = r.key) : s = r := by
  obtain ⟨ht, hc⟩ := append_inj' h rfl
  exact hs.ext hr (cons.inj hc).1 (reverse_injective ht)

/-- A key is a prefix of another exactly if it is that of a wildcard that matches the other rule. -/
lemma Rule.Valid.key_prefix_key (hs : s.Valid) (hr : r.Valid) :
    s.key <+: r.key ↔ s = r ∨ (s.wildcard = true ∧ s.Matches r.labels) := by
  rw [Rule.key, Rule.key, key_prefix_iff]
  constructor
  · rintro (⟨u, hu⟩ | ⟨hc, ht⟩)
    · right
      cases hw : s.wildcard with
      | false =>
        -- the closing NUL would lie in a label
        have hmem : (0 : UInt8) ∈ join 46 r.labels := by
          rw [hu]
          simp [Rule.closing, hw]
        obtain h | ⟨l, hl, h⟩ := mem_join 46 hmem
        · exact absurd h (by decide)
        · exact absurd h (hr.noNul l hl)
      | true =>
        refine ⟨rfl, ?_⟩
        rw [Rule.Matches, if_pos hw]
        refine (extends_iff 46 hs.ne hs.noDot).2 ⟨⟨u, ?_⟩, fun l hl => ?_⟩
        · rw [hu, Rule.closing, if_pos hw]
        · exact hr.noDot l (mem_of_mem_lastOf hl)
    · exact .inl (hs.ext hr hc ht.symm)
  · rintro (rfl | ⟨hw, hmatch⟩)
    · exact .inr ⟨rfl, rfl⟩
    rw [Rule.Matches, if_pos hw] at hmatch
    obtain ⟨c, hc, hlabels⟩ := hmatch
    refine .inl ⟨join 46 c, ?_⟩
    rw [hlabels, join_append 46 hc hs.ne, Rule.closing, if_pos hw]

/-! ### The rules of options -/

def domainsOf (targets : List Bytes) : List Bytes :=
  targets.filterMap fun t => (splitTarget t).toOption.bind Sum.getRight?

def plainRules (opts : MvmOptions) : List Rule := (domainsOf (opts.allowOut.getD [])).map ruleOf

/-- The rules whose connections go through the proxy. -/
def l7Rules (opts : MvmOptions) : List Rule := (domainsOf (opts.l7AllowOut.getD [])).map ruleOf

/-- The rules of the options in the order in which they are listed, each one once. -/
def ruleList (opts : MvmOptions) : List Rule := (plainRules opts ++ l7Rules opts).eraseDups

def ruleFlags (opts : MvmOptions) (r : Rule) : UInt8 :=
  if r ∈ l7Rules opts then flagL7Required else 0

lemma splitAllowOutTargets_eq {cs ds : List Bytes} (h : splitAllowOutTargets ts = .ok (cs, ds)) :
    cs = ts.filterMap (fun t => (splitTarget t).toOption.bind Sum.getLeft?) ∧
      ds = domainsOf ts := by
  induction ts generalizing cs ds with
  | nil =>
    cases h
    exact ⟨rfl, rfl⟩
  | cons t ts ih =>
    rw [splitAllowOutTargets] at h
    obtain ⟨r, hr, h⟩ := ok_of_bind h
    obtain ⟨⟨cs', ds'⟩, hsplit, h⟩ := ok_of_bind h
    obtain ⟨hcs, hds⟩ := ih hsplit
    cases r with
    | inl c =>
      cases h
      rw [hcs, hds, domainsOf, domainsOf, filterMap_cons_some (by rw [hr]; rfl),
        filterMap_cons_none (by rw [hr]; rfl)]
      exact ⟨rfl, rfl⟩
    | inr c =>
      cases h
      rw [hcs, hds, domainsOf, domainsOf, filterMap_cons_none (by rw [hr]; rfl),
        filterMap_cons_some (by rw [hr]; rfl)]
      exact ⟨rfl, rfl⟩

lemma splitAllowOutTargets_domains {cs ds : List Bytes}
    (h : splitAllowOutTargets ts = .ok (cs, ds)) : ds = domainsOf ts :=
  (splitAllowOutTargets_eq h).2

lemma domainsOf_accepted {d : Bytes} (h : d ∈ domainsOf ts) : isDnsAllowTarget d = true := by
  obtain ⟨t, -, ht⟩ := mem_filterMap.1 h
  obtain ⟨r, hr, hd⟩ := Option.bind_eq_some_iff.1 ht
  cases hsplit : splitTarget t with
  | error e => simp [hsplit, Except.toOption] at hr
  | ok r' =>
    obtain rfl : r' = r := by simpa [hsplit, Except.toOption] using hr
    cases r' with
    | inl c => cases hd
    | inr c =>
      cases hd
      exact (splitTarget_inr hsplit).2.1

variable {opts : MvmOptions}

lemma mem_listed (h : r ∈ plainRules opts ++ l7Rules opts) : r.Valid := by
  obtain h | h := mem_append.1 h
  all_goals
    obtain ⟨d, hd, rfl⟩ := mem_map.1 h
    exact (makeDnsAllowKey_ruleOf (domainsOf_accepted hd)).1

lemma mem_ruleList : r ∈ ruleList opts ↔ r ∈ plainRules opts ++ l7Rules opts := mem_eraseDups

lemma ruleList_valid (h : r ∈ ruleList opts) : r.Valid :=
  mem_listed (mem_ruleList.1 h)

/-! ### The order and the flags of merged entries -/

section
variable {α β : Type} [DecidableEq α] [DecidableEq β]

lemma eraseDups_snoc (l : List α) (a : α) :
    (l ++ [a]).eraseDups = if a ∈ l then l.eraseDups else l.eraseDups ++ [a] := by
  rw [eraseDups_append]
  by_cases h : a ∈ l <;> simp [removeAll, h, eraseDups_cons]

lemma eraseDups_nodup (l : List α) : l.eraseDups.Nodup := by
  induction l using reverseRecOn with
  | nil => exact nodup_nil
  | append_singleton l a ih =>
    rw [eraseDups_snoc]
    split
    · exact ih
    rename_i h
    refine nodup_append.2 ⟨ih, nodup_singleton a, ?_⟩
    rintro b hb _ hc rfl
    rw [mem_singleton.1 hc] at hb
    exact h (mem_eraseDups.1 hb)

lemma eraseDups_map {f : α → β} (l : List α) (hf : ∀ a ∈ l, ∀ b ∈ l, f a = f b → a = b) :
    (l.map f).eraseDups = l.eraseDups.map f := by
  induction l using reverseRecOn with
  | nil => rfl
  | append_singleton l a ih =>
    have hl : ∀ b ∈ l, ∀ c ∈ l, f b = f c → b = c := fun b hb c hc =>
      hf b (mem_append_left _ hb) c (mem_append_left _ hc)
    have hmem : f a ∈ l.map f ↔ a ∈ l := by
      constructor
      · intro h
        obtain ⟨b, hb, hab⟩ := mem_map.1 h
        rwa [← hf b (mem_append_left _ hb) a (by simp) hab]
      · exact mem_map_of_mem
    rw [map_append, map_singleton, eraseDups_snoc, eraseDups_snoc, ih hl]
    simp only [hmem]
    split <;> simp

variable {parse : Bytes → Except PolErr α} {keyOf : Bytes → α} {flags : UInt8}

lemma merge_map_key (entries : List (Flagged α)) (key : α) (flags : UInt8) (source : Bytes) :
    (merge entries key flags source).map (·.key) =
      if key ∈ entries.map (·.key) then entries.map (·.key) else entries.map (·.key) ++ [key] := by
  have hany : (entries.any fun e => e.key == key) = true ↔ key ∈ entries.map (·.key) := by
    simp [any_eq_true]
  have hsame : ∀ e : Flagged α,
      (if e.key = key then { e with flags := e.flags ||| flags } else e).key = e.key := by
    intro e; split <;> rfl
  unfold merge
  by_cases h : key ∈ entries.map (·.key)
  · rw [if_pos (hany.2 h), if_pos h, map_map]
    exact map_congr_left fun e _ => hsame e
  · rw [if_neg (mt hany.1 h), if_neg h]
    simp

variable {entries : List (Flagged α)}

/-- The keys that are done have the flags. -/
def Marked (flags : UInt8) (done : List α) (entries : List (Flagged α)) : Prop :=
  ∀ e ∈ entries, e.flags = if e.key ∈ done then flags else 0

lemma merge_marked (done : List α) (entries) (source : Bytes) (hdone : Marked flags done entries) :
    Marked flags (done ++ [keyOf source]) (merge entries (keyOf source) flags source) := by
  generalize keyOf source = key
  intro e he
  unfold merge at he
  split at he
  · obtain ⟨e0, he0, rfl⟩ := mem_map.1 he
    have h0 := hdone e0 he0
    by_cases hk : e0.key = key
    · simp only [h0, hk, mem_append, mem_singleton, or_true, if_true]
      split <;> simp
    · rw [if_neg hk, h0]
      simp [hk]
  rename_i hany
  obtain hold | hnew := mem_append.1 he
  · have hk : e.key ≠ key := fun hk => hany (any_eq_true.2 ⟨e, hold, by simp [hk]⟩)
    rw [hdone e hold]
    simp [hk]
  · obtain rfl := mem_singleton.1 hnew
    simp

lemma mergeAll_inv {I : List α → List (Flagged α) → Prop}
    (hstep : ∀ done entries s, I done entries →
      I (done ++ [keyOf s]) (merge entries (keyOf s) flags s))
    {entries' : List (Flagged α)} (done : List α) {sources : List Bytes}
    (hkeys : ∀ s ∈ sources, parse s = .ok (keyOf s)) (hdone : I done entries)
    (h : mergeAll parse flags entries sources = .ok entries') :
    I (done ++ sources.map keyOf) entries' := by
  induction sources generalizing entries done with
  | nil =>
    cases h
    simpa using hdone
  | cons s rest ih =>
    rw [mergeAll] at h
    obtain ⟨key, hkey, h⟩ := ok_of_bind h
    cases (hkeys s mem_cons_self).symm.trans hkey
    have := ih _ (fun s' hs' => hkeys s' (mem_cons_of_mem _ hs')) (hstep _ _ s hdone) h
    simpa using this

/-- **The entries of two lists** are in the order of their first sources, flagged if a source is in
the second list. -/
theorem buildFlagged_entries {plain l7 : List Bytes}
    (hkeys : ∀ s ∈ plain ++ l7, parse s = .ok (keyOf s))
    (h : buildFlagged parse plain l7 = .ok entries) :
    entries.map (fun e => (e.key, e.flags)) = ((plain ++ l7).map keyOf).eraseDups.map fun k =>
        (k, if k ∈ l7.map keyOf then flagL7Required else 0) := by
  obtain ⟨first, h1, h2⟩ := ok_of_bind h
  have hk1 : ∀ s ∈ plain, parse s = .ok (keyOf s) := fun s hs =>
    hkeys s (mem_append_left _ hs)
  have hk2 : ∀ s ∈ l7, parse s = .ok (keyOf s) := fun s hs => hkeys s (mem_append_right _ hs)
  have hkey : ∀ flags done entries s, entries.map (·.key) = done.eraseDups →
      (merge entries (keyOf s) flags s).map (·.key) = (done ++ [keyOf s]).eraseDups := by
    intro flags done entries s hdone
    rw [merge_map_key, eraseDups_snoc, hdone]
    simp only [mem_eraseDups]
  have horder := mergeAll_inv (hkey _) _ hk2 (mergeAll_inv (hkey _) [] hk1 rfl h1) h2
  have hzero := mergeAll_inv (I := Marked 0) merge_marked [] hk1 (fun e he => by cases he) h1
  have hflags := mergeAll_inv (I := Marked _) merge_marked [] hk2
    (fun e he => by rw [hzero e he]; simp) h2
  rw [map_append, ← nil_append (plain.map keyOf), ← horder, map_map]
  refine map_congr_left fun e he => ?_
  rw [hflags e he, nil_append]
  rfl

end

/-! ### The trie of the rules -/

/-- A rule is stored with its own flags and those that its key finds in the trie. -/
def putRule (f : Rule → UInt8) (t : Trie DnsAllowValue) (r : Rule) : Trie DnsAllowValue :=
  t.set (bits r.key)
    ⟨r.key.length.toUInt32, f r ||| ((lookup t (bits r.key)).map (·.flags)).getD 0⟩

def trieOf (f : Rule → UInt8) (rs : List Rule) : Trie DnsAllowValue := rs.foldl (putRule f) .empty

lemma trieOf_snoc (f : Rule → UInt8) (rs : List Rule) (r : Rule) :
    trieOf f (rs ++ [r]) = putRule f (trieOf f rs) r := by
  simp [trieOf]

lemma insertAll_putDns {f : Rule → UInt8} {es : List (Flagged Bytes)} {rs : List Rule}
    (h : es.map (fun e => (e.key, e.flags)) = rs.map fun r => (r.key, f r))
    (t : Trie DnsAllowValue) :
    Tap.insertAll Tap.putDns t es = (rs.foldl (putRule f) t, .ok ()) := by
  induction es generalizing rs t with
  | nil =>
    obtain rfl : rs = [] := by simpa using h.symm
    rfl
  | cons e es ih =>
    rcases rs with _ | ⟨r, rs⟩
    · cases h
    obtain ⟨hhead, htail⟩ := cons.inj h
    obtain ⟨hkey, hflags⟩ := Prod.mk.inj hhead
    have hput : Tap.putDns t e = .ok (putRule f t r) := by
      simp only [Tap.putDns, putRule, ruleValue, hkey, hflags]
    rw [Tap.insertAll, hput]
    exact ih htail _

lemma plan_rules {plan : NetPolicyPlan} (h : buildNetPolicyPlan opts = .ok plan) :
    plan.dnsAllowRules.map (fun e => (e.key, e.flags)) =
      (ruleList opts).map fun r => (r.key, ruleFlags opts r) := by
  obtain ⟨cs1, ds1, cs2, ds2, hp⟩ := planned_of_ok h
  obtain rfl := splitAllowOutTargets_domains hp.allow
  obtain rfl := splitAllowOutTargets_domains hp.l7
  have hkey : ∀ d ∈ domainsOf (opts.allowOut.getD []) ++ domainsOf (opts.l7AllowOut.getD []),
      makeDnsAllowKey d = .ok (ruleOf d).key := by
    intro d hd
    obtain hd | hd := mem_append.1 hd
    all_goals exact (makeDnsAllowKey_ruleOf (domainsOf_accepted hd)).2
  have hinj : ∀ a ∈ plainRules opts ++ l7Rules opts, ∀ b ∈ plainRules opts ++ l7Rules opts,
      a.key = b.key → a = b := fun a ha b hb => (mem_listed ha).key_inj (mem_listed hb)
  have hl7 : (domainsOf (opts.l7AllowOut.getD [])).map (fun d => (ruleOf d).key) =
      (l7Rules opts).map Rule.key := by
    rw [l7Rules, map_map]
    rfl
  have hall : (domainsOf (opts.allowOut.getD []) ++ domainsOf (opts.l7AllowOut.getD [])).map
      (fun d => (ruleOf d).key) = (plainRules opts ++ l7Rules opts).map Rule.key := by
    simp only [plainRules, l7Rules, map_append, map_map]
    rfl
  rw [buildFlagged_entries hkey hp.rules, hl7, hall, eraseDups_map _ hinj, map_map]
  refine map_congr_left fun r hr => ?_
  have hmem : r.key ∈ (l7Rules opts).map Rule.key ↔ r ∈ l7Rules opts := by
    constructor
    · intro hk
      obtain ⟨r', hr', hkk⟩ := mem_map.1 hk
      rwa [← hinj r' (mem_append_right _ hr') r (mem_ruleList.1 hr) hkk]
    · exact mem_map_of_mem
  simp only [Function.comp_apply, ruleFlags, hmem]

/-- **The DNS trie of accepted options** is the one of their rules. -/
theorem installed_trie {plan : NetPolicyPlan}
    (h : buildNetPolicyPlan opts = .ok plan) {t : Trie DnsAllowValue} {r : Tap.Res}
    (ht : Tap.insertAll Tap.putDns .empty plan.dnsAllowRules = (t, r)) :
    t = trieOf (ruleFlags opts) (ruleList opts) := by
  rw [insertAll_putDns (plan_rules h)] at ht
  exact (Prod.mk.inj ht).1.symm

section
variable {f : Rule → UInt8} {rs : List Rule}

lemma trieOf_stored {p : List Bool} : (∀ v, trieOf f rs p = some v →
      ∃ r ∈ rs, bits r.key = p ∧ v.nameLen = r.key.length.toUInt32) ∧
      ((∃ r ∈ rs, bits r.key = p) → ∃ v, trieOf f rs p = some v) := by
  induction rs using reverseRecOn with
  | nil => simp [trieOf]
  | append_singleton rs r ih =>
    rw [trieOf_snoc, putRule]
    constructor
    · intro v hv
      obtain ⟨rfl, rfl⟩ | ⟨-, hv⟩ := KMap.set_eq_some.1 hv
      · exact ⟨r, by simp, rfl, rfl⟩
      · obtain ⟨r', hr', h⟩ := ih.1 v hv
        exact ⟨r', mem_append_left _ hr', h⟩
    rintro ⟨r', hr', hp⟩
    by_cases hk : p = bits r.key
    · subst hk
      exact ⟨_, KMap.set_self _ _ _⟩
    rw [KMap.set_ne _ _ hk]
    obtain hr' | hr' := mem_append.1 hr'
    · exact ih.2 ⟨r', hr', hp⟩
    · obtain rfl := mem_singleton.1 hr'
      exact absurd hp.symm hk

/-- The rule that a lookup finds: the one with the longest key that is a prefix. -/
structure Longest (rs : List Rule) (k : Bytes) (r : Rule) : Prop where
  mem : r ∈ rs
  isPre : r.key <+: k
  longest : ∀ s ∈ rs, s.key <+: k → s.key.length ≤ r.key.length

lemma lookup_trieOf {v : DnsAllowValue} : lookup (trieOf f rs) (bits k) = some v ↔
      ∃ r, Longest rs k r ∧ trieOf f rs (bits r.key) = some v := by
  rw [lookup_eq_some_iff]
  constructor
  · rintro ⟨p, hp, hv, hmax⟩
    obtain ⟨r, hr, rfl, -⟩ := trieOf_stored.1 v hv
    refine ⟨r, ⟨hr, bits_prefix_iff.1 hp, fun s hs hsk => ?_⟩, hv⟩
    by_contra hlt
    obtain ⟨w, hw⟩ := trieOf_stored.2 ⟨s, hs, rfl⟩
    have hnone := hmax (bits s.key) (bits_prefix_iff.2 hsk) (by
      rw [bits_length, bits_length]
      omega)
    rw [hnone] at hw
    cases hw
  · rintro ⟨r, hr, hv⟩
    refine ⟨bits r.key, bits_prefix_iff.2 hr.isPre, hv, fun q hq hlt => ?_⟩
    by_contra hne
    obtain ⟨w, hw⟩ := Option.ne_none_iff_exists'.1 hne
    obtain ⟨s, hs, rfl, -⟩ := trieOf_stored.1 w hw
    have := hr.longest s hs (bits_prefix_iff.1 hq)
    rw [bits_length, bits_length] at hlt
    omega

lemma exists_longest (hr : r ∈ rs) (hk : r.key <+: k) :
    ∃ s v, Longest rs k s ∧ trieOf f rs (bits s.key) = some v := by
  obtain ⟨v, hv⟩ := trieOf_stored.2 ⟨r, hr, rfl⟩
  obtain ⟨w, hw⟩ := lookup_isSome_of_stored (bits_prefix_iff.2 hk) hv
  obtain ⟨s, hs, hsv⟩ := lookup_trieOf.1 hw
  exact ⟨s, w, hs, hsv⟩

lemma stored_len (hr : r.Valid) (hk : r.key <+: k) :
    r.key.length.toUInt32 ≠ 0 ∧ r.key.length.toUInt32.toNat ≤ k.length := by
  have hshort := hr.short
  have hlen : r.key.length = (join 46 r.labels).length + 1 := by simp [Rule.key]
  have hnat : r.key.length.toUInt32.toNat = r.key.length := by
    have h256 : maxDnsNameLen = 256 := rfl
    simp only [Nat.toUInt32_eq, UInt32.toNat_ofNat']
    omega
  refine ⟨fun h0 => ?_, by rw [hnat]; exact hk.length_le⟩
  have hzero := congrArg UInt32.toNat h0
  rw [hnat, hlen] at hzero
  exact absurd hzero (Nat.succ_ne_zero _)

end

lemma stored_checks {f : Rule → UInt8} {rs : List Rule} (hrs : ∀ t ∈ rs, t.Valid) (hr : r ∈ rs)
    {v : DnsAllowValue} (hv : trieOf f rs (bits r.key) = some v) (hk : r.key <+: k) :
    v.nameLen ≠ 0 ∧ v.nameLen.toNat ≤ k.length := by
  obtain ⟨s, hs, hkey, hlen⟩ := trieOf_stored.1 v hv
  obtain rfl := (hrs s hs).key_inj (hrs r hr) (bits_injective hkey)
  rw [hlen]
  exact stored_len (hrs s hs) hk

section
variable {m0 m1 : Maps} {tap ip : UInt32} {id : Bytes} {version : UInt32} {opts : MvmOptions}
  {upsert : Bool}

lemma installed_dns (h : Tap.install m0 tap ip id version opts upsert = (m1, .ok ())) :
    m1.dnsAllow tap = some (trieOf (ruleFlags opts) (ruleList opts)) ∧ (ruleList opts ≠ [] →
        ∃ mt, m1.ifindexToMvmmeta tap = some mt ∧ mt.dnsPolicyFlags ≠ 0) := by
  obtain ⟨plan, hplan, hinst⟩ := Tap.installed_of_ok h
  obtain ⟨t, ht, hins⟩ := hinst.dns
  refine ⟨by rw [ht, installed_trie hplan hins], fun hrules => ?_⟩
  obtain ⟨mt, hmt, -, -, hflags⟩ := hinst.registered
  obtain ⟨cs1, ds1, cs2, ds2, hp⟩ := planned_of_ok hplan
  have hone : plan.dnsPolicyFlags = 1 := by
    rw [hp.flags, dnsPolicyFlagsForDomains, if_neg]
    intro hzero
    obtain ⟨h1, h2⟩ := Nat.add_eq_zero_iff.1 hzero
    apply hrules
    rw [ruleList, plainRules, l7Rules, ← splitAllowOutTargets_domains hp.allow,
      ← splitAllowOutTargets_domains hp.l7, length_eq_zero_iff.1 h1,
      length_eq_zero_iff.1 h2]
    rfl
  have hne : plan.dnsPolicyFlags ≠ 0 := by
    rw [hone]
    decide
  exact ⟨mt, hmt, by rw [hflags hne]; exact hne⟩

end

end CubeSandbox.Pol
