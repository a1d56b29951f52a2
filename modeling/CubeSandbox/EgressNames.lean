import CubeSandbox.DnsRules
import CubeSandbox.EgressModel

/-!
The names of an egress rule, as the datapath and as the proxy understand them.

The network agent cleans the pattern of a rule before it hands it to cubevs: white space, a
closing dot and a port go, and letters become small. CubeEgress gets the pattern as it was
written and only ignores the case of ASCII letters. The two mean the same names exactly if there
was nothing to clean.
-/

namespace CubeSandbox.Egress

open GoText Pol Vs Dotted List

def isLetter (b : UInt8) : Bool := (65 ≤ b && b ≤ 90) || (97 ≤ b && b ≤ 122)

def isNameByte (b : UInt8) : Bool := isLetter b || isDigit b || b == 45 || b == 95

/-- The bytes of a pattern that needs no cleaning. -/
def isPlainByte (b : UInt8) : Bool := isNameByte b || b == 46 || b == 42

def isGraphic (b : UInt8) : Bool := 33 ≤ b && b ≤ 126

variable (n : Nat) (b : UInt8)

lemma isPlainByte_asciiLower : isPlainByte (asciiLower b) = isPlainByte b := by
  unfold isPlainByte isNameByte isLetter isDigit asciiLower
  grind

lemma isGraphic_of_plain : isPlainByte b = true → isGraphic b = true := by
  simp [isPlainByte, isNameByte, isLetter, isDigit, isGraphic, UInt8.le_iff_toNat_le,
    ← UInt8.toNat_inj]
  omega

lemma plain_ne : isPlainByte b = true → b ≠ 47 ∧ b ≠ 58 ∧ b ≠ 37 ∧ b ≠ 0 ∧ b < 0x80 := by
  simp [isPlainByte, isNameByte, isLetter, isDigit, UInt8.le_iff_toNat_le, UInt8.lt_iff_toNat_lt,
    ← UInt8.toNat_inj]
  omega

lemma asciiLower_idem : asciiLower (asciiLower b) = asciiLower b := by
  unfold asciiLower
  grind

lemma asciiLower_eq_iff {c : UInt8} (hb : isDigit b = true ∨ b = 46 ∨ b = 0) :
    asciiLower c = b ↔ c = b := by
  unfold isDigit at hb
  unfold asciiLower
  grind

lemma digit_plain : isDigit b = true → isPlainByte b = true := by
  unfold isPlainByte isNameByte
  grind

lemma labelByte_plain :
    (isAlphaNum b || b == 45) = true → isNameByte b = true ∧ asciiLower b = b ∧ b ≠ 42 := by
  unfold isAlphaNum isNameByte isLetter isDigit asciiLower
  grind

lemma white_not_graphic : ∀ w ∈ whiteSpace, w ≠ [] ∧ ∀ b ∈ w, isGraphic b = false := by
  decide +kernel

/-! ### Cleaning of text that needs none -/

variable {s l h t p : Bytes}

lemma stripWords_self {words : List Bytes}
    (hw : ∀ w ∈ words, w ≠ [] ∧ ∀ b ∈ w, isGraphic b = false) (hs : ∀ b ∈ s, isGraphic b = true) :
    stripWords words n s = s := by
  cases n with
  | zero => rfl
  | succ n =>
    have hnone : (words.find? fun w => w.isPrefixOf s) = none := by
      refine find?_eq_none.2 fun w hmem hpre => ?_
      obtain ⟨hne, hbytes⟩ := hw w hmem
      obtain ⟨b, w', rfl⟩ := exists_cons_of_ne_nil hne
      have hsub := (List.isPrefixOf_iff_prefix.1 hpre).subset
      have hb := hs b (hsub mem_cons_self)
      rw [hbytes b mem_cons_self] at hb
      cases hb
    simp only [stripWords, hnone]

variable {b : UInt8}

lemma mem_stripWords {words : List Bytes} (hb : isGraphic b = true)
    (hw : ∀ w ∈ words, w ≠ [] ∧ ∀ c ∈ w, isGraphic c = false) (n : Nat) (h : b ∈ s) :
    b ∈ stripWords words n s := by
  induction n generalizing s with
  | zero => exact h
  | succ n ih =>
    simp only [stripWords]
    split
    · rename_i w hfind
      have hmem := mem_of_find?_eq_some hfind
      have hpre : w.isPrefixOf s = true := by simpa using find?_some hfind
      obtain ⟨t, rfl⟩ := isPrefixOf_iff_prefix.1 hpre
      refine ih ?_
      rw [drop_left]
      refine (mem_append.1 h).resolve_left fun hbw => ?_
      rw [(hw w hmem).2 b hbw] at hb
      cases hb
    · exact h

lemma white_reverse : ∀ w ∈ whiteSpace.map reverse, w ≠ [] ∧ ∀ b ∈ w, isGraphic b = false := by
  intro w hw
  obtain ⟨u, hu, rfl⟩ := mem_map.1 hw
  obtain ⟨hne, hbytes⟩ := white_not_graphic u hu
  exact ⟨by simpa using hne, fun b hb => hbytes b (mem_reverse.1 hb)⟩

lemma trimSpace_self (hs : ∀ b ∈ s, isGraphic b = true) : trimSpace s = s := by
  have hrev : ∀ b ∈ s.reverse, isGraphic b = true := fun b hb => hs b (mem_reverse.1 hb)
  simp only [trimSpace, stripWords_self _ white_not_graphic hs,
    stripWords_self _ white_reverse hrev, reverse_reverse]

lemma mem_trimSpace (hb : isGraphic b = true) (h : b ∈ s) : b ∈ trimSpace s := by
  refine mem_reverse.2 (mem_stripWords hb white_reverse _ (mem_reverse.2 ?_))
  exact mem_stripWords hb white_not_graphic _ h

lemma trimSuffix_self (h : s.getLast? ≠ some b) : trimSuffix s b = s :=
  if_neg h

lemma toLower_ascii (h : ∀ b ∈ s, b < 0x80) : toLower s = lower s := by
  induction s with
  | nil => rfl
  | cons b s ih =>
    have hb := h b mem_cons_self
    have hs := ih fun c hc => h c (mem_cons_of_mem _ hc)
    unfold toLower
    split
    · rename_i heq
      cases heq
      exact absurd hb (by decide)
    · rename_i heq
      cases heq
      exact absurd hb (by decide)
    · rename_i heq
      cases heq
      rw [hs]
      rfl
    · rename_i heq
      cases heq

/-- A pattern that needs no cleaning. -/
def Plain (p : Bytes) : Prop := (∀ b ∈ p, isPlainByte b = true) ∧ p.getLast? ≠ some 46

instance (p : Bytes) : Decidable (Plain p) :=
  inferInstanceAs (Decidable ((∀ b ∈ p, isPlainByte b = true) ∧ p.getLast? ≠ some 46))

lemma Plain.ascii (h : Plain p) : ∀ b ∈ p, b < 0x80 :=
  fun b hb => (plain_ne b (h.1 b hb)).2.2.2.2

lemma Plain.trimSpace_eq (h : Plain p) : trimSpace p = p :=
  trimSpace_self fun b hb => isGraphic_of_plain b (h.1 b hb)

lemma Plain.toLower_eq (h : Plain p) : toLower (trimSuffix p 46) = lower p := by
  rw [trimSuffix_self h.2, toLower_ascii h.ascii]

lemma lower_lower (s : Bytes) : lower (lower s) = lower s := by
  simp [lower, asciiLower_idem]

lemma runeLen_ascii (h : b < 0x80) : runeLen (b :: s) = 1 := by
  simp [runeLen, h]

lemma replaceInvalid_ascii (hn : s.length ≤ n)
    (h : (∀ b ∈ s, b < 0x80) ∨ ∀ b ∈ replaceInvalid n s, b < 0x80) : replaceInvalid n s = s := by
  induction n generalizing s with
  | zero =>
    obtain rfl := length_eq_zero_iff.1 (Nat.le_zero.1 hn)
    rfl
  | succ n ih =>
    rcases s with _ | ⟨b, s⟩
    · rfl
    have hlen : s.length ≤ n := by simpa using hn
    simp only [replaceInvalid] at h ⊢
    have hb : b < 0x80 := by
      rcases h with h | h
      · exact h b mem_cons_self
      split at h
      · exact absurd (h 0xef (by simp)) (by decide)
      rename_i hlen
      obtain ⟨k, hk⟩ := Nat.exists_eq_succ_of_ne_zero hlen
      exact h b (by simp [hk])
    rw [runeLen_ascii hb] at h ⊢
    simp only [Nat.one_ne_zero, if_false, take_succ_cons, take_zero,
      drop_succ_cons, drop_zero, cons_append, nil_append] at h ⊢
    rw [ih hlen]
    rcases h with h | h
    · exact .inl fun c hc => h c (mem_cons_of_mem _ hc)
    · exact .inr fun c hc => h c (mem_cons_of_mem _ hc)

lemma jsonText_ascii (h : (∀ b ∈ s, b < 0x80) ∨ ∀ b ∈ jsonText s, b < 0x80) :
    jsonText s = s := replaceInvalid_ascii _ le_rfl h

/-- A name of labels, which is not an address in dotted form. -/
def isHostname (h : Bytes) : Bool :=
  (h.splitOn 46).all (fun l => l != [] && l.length ≤ 63 && l.all isNameByte) && h.length ≤ 253 &&
    !isDottedDecimalLikeTarget h

section
variable {h : Bytes}

lemma isHostname_label (hh : isHostname h = true) (hl : l ∈ h.splitOn 46) :
    l ≠ [] ∧ ∀ b ∈ l, isNameByte b = true := by
  simp only [isHostname, Bool.and_eq_true, all_eq_true, bne_iff_ne] at hh
  exact ⟨(hh.1.1 l hl).1.1, (hh.1.1 l hl).2⟩

lemma join_splitOn (s : Bytes) : join 46 (s.splitOn 46) = s := intercalate_splitOn 46

lemma isHostname_plain (hh : isHostname h = true) (hb : b ∈ h) : isPlainByte b = true := by
  rw [← join_splitOn h] at hb
  obtain rfl | ⟨l, hl, hb⟩ := mem_join 46 hb
  · decide
  · simp [isPlainByte, (isHostname_label hh hl).2 b hb]

lemma getLast_ne_dot (hs : ∀ l ∈ s.splitOn 46, l ≠ [] ∧ 46 ∉ l) : s.getLast? ≠ some 46 := by
  obtain hnil | ⟨c, l, hcl⟩ := eq_nil_or_concat' (s.splitOn 46)
  · exact absurd hnil (splitOn_ne_nil 46 s)
  obtain ⟨hne, hdot⟩ := hs l (by rw [hcl]; simp)
  have hlast : s.getLast? = l.getLast? := by
    rw [← join_splitOn s, hcl]
    rcases eq_or_ne c [] with rfl | hc
    · simp
    rw [join_append 46 hc (by simp), join_singleton, getLast?_append, getLast?_cons]
    obtain ⟨b, hb⟩ := getLast?_isSome.2 hne |> Option.isSome_iff_exists.1
    simp [hb]
  rw [hlast]
  exact fun h => hdot (mem_of_getLast? h)

lemma isHostname_last (hh : isHostname h = true) : h.getLast? ≠ some 46 := by
  refine getLast_ne_dot fun l hl => ⟨(isHostname_label hh hl).1, fun hmem => ?_⟩
  have := (isHostname_label hh hl).2 46 hmem
  exact absurd this (by decide)

end

/-! ### What the proxy matches -/

lemma mem_lower (h : b ∈ s) : asciiLower b ∈ lower s :=
  mem_map_of_mem h

lemma getLast_lower (h : (lower s).getLast? = some 46) : s.getLast? = some 46 := by
  rw [lower, getLast?_map] at h
  obtain ⟨b, hb, hdot⟩ := Option.map_eq_some_iff.1 h
  rw [hb, (asciiLower_eq_iff 46 (by simp)).1 hdot]

/-- `domain_match` ignores the case of a pattern. -/
lemma domainMatch_lower (p : Bytes) (v : Option Bytes) :
    domainMatch (lower p) v = domainMatch p v := by
  cases v <;> simp [domainMatch, lower_lower]

lemma domainMatch_plain {q : Bytes} (hh : isHostname h = true)
    (hm : domainMatch q (some h) = true) : Plain q := by
  have hbytes : ∀ b ∈ lower h, isPlainByte b = true := by
    intro b hb
    obtain ⟨c, hc, rfl⟩ := mem_map.1 hb
    rw [isPlainByte_asciiLower]
    exact isHostname_plain hh hc
  have hlast : (lower h).getLast? ≠ some 46 := fun hl => isHostname_last hh (getLast_lower hl)
  simp only [domainMatch] at hm
  split at hm
  · rename_i hstar
    have hsuffix : (lower q).drop 1 <:+ lower h := by simpa [suffixMatch] using hm
    obtain ⟨b, rest, hq⟩ : ∃ b rest, lower q = 42 :: b :: rest := by
      rcases hq : lower q with _ | ⟨a, _ | ⟨b, rest⟩⟩
      · simp [hq] at hstar
      · simp [hq] at hstar
      · have ha : a = 42 := by simpa [hq] using (cons.inj (hq ▸ hstar.1)).1
        exact ⟨b, rest, by rw [ha]⟩
    rw [hq] at hsuffix
    constructor
    · intro c hc
      have hmem := mem_lower hc
      rw [hq, mem_cons] at hmem
      rw [← isPlainByte_asciiLower]
      rcases hmem with heq | hmem
      · rw [heq]; decide
      · exact hbytes _ (hsuffix.subset hmem)
    intro hl
    have hl' : (lower q).getLast? = some 46 := by
      rw [lower, getLast?_map, hl]; rfl
    obtain ⟨u, hu⟩ := hsuffix
    refine hlast ?_
    rw [← hu, drop_succ_cons, drop_zero, getLast?_append]
    rw [hq, getLast?_cons_cons] at hl'
    rw [hl']; rfl
  · have heq : lower q = lower h := by simpa using hm
    constructor
    · intro b hb
      rw [← isPlainByte_asciiLower]
      exact hbytes _ (heq ▸ mem_lower hb)
    intro hl
    refine hlast ?_
    rw [← heq, lower, getLast?_map, hl]
    rfl

/-! ### Targets that are names -/

/-- What the checks of the agent say about a name. -/
structure NameTarget (t : Bytes) : Prop where
  valid : isValidL7DomainName t = true
  notAddress : isDottedDecimalLikeTarget t = false

lemma NameTarget.shape (h : NameTarget t) :
    ∃ (wild : Bool) (body : Bytes), t = (if wild then [42, 46] else []) ++ body ∧ body ≠ [] ∧
      t.length < 254 ∧ isValidDnsDomainName body = true := by
  have hv := h.valid
  unfold isValidL7DomainName at hv
  split_ifs at hv with hlen hstar hwild
  · simp only [not_or, Classical.not_not, not_le] at hwild
    refine ⟨true, t.drop 2, ?_, ?_, by omega, hv⟩
    · rw [if_pos rfl, ← hwild.2.1, take_append_drop]
    intro hnil
    have := congrArg length hnil
    rw [length_drop, length_nil] at this
    omega
  · simp only [not_or, not_le] at hlen
    exact ⟨false, t, rfl, hlen.1, by omega, hv⟩

lemma label_bytes (h : isValidLabel l = true) (hb : b ∈ l) :
    isNameByte b = true ∧ asciiLower b = b ∧ b ≠ 42 := by
  simp only [isValidLabel, Bool.and_eq_true, all_eq_true] at h
  exact labelByte_plain b (h.1.1.2 b hb)

lemma label_ne (h : isValidLabel l = true) : l ≠ [] ∧ l.length ≤ 63 ∧ 46 ∉ l := by
  refine ⟨?_, ?_, fun hdot => (isValidLabel_bytes h hdot).1 rfl⟩
  all_goals
    simp only [isValidLabel, Bool.and_eq_true, bne_iff_ne, ne_eq, decide_eq_true_eq] at h
    tauto

lemma domain_bytes {d : Bytes} (h : isValidDnsDomainName d = true) (hb : b ∈ d) :
    isPlainByte b = true ∧ asciiLower b = b ∧ b ≠ 42 := by
  rw [← join_splitOn d] at hb
  obtain rfl | ⟨l, hl, hb⟩ := mem_join 46 hb
  · decide
  · obtain ⟨hname, hlow, hne⟩ := label_bytes (all_eq_true.1 h l hl) hb
    exact ⟨by simp [isPlainByte, hname], hlow, hne⟩

lemma not_wildcard {d : Bytes} (h : isValidDnsDomainName d = true) :
    ¬ (d.take 2 = [42, 46] ∧ d.length > 2) := by
  rintro ⟨htake, -⟩
  have : (42 : UInt8) ∈ d.take 2 := by rw [htake]; simp
  exact (domain_bytes h (mem_of_mem_take this)).2.2 rfl

section
variable {t : Bytes}

lemma NameTarget.bytes (h : NameTarget t) (hb : b ∈ t) :
    isPlainByte b = true ∧ asciiLower b = b := by
  obtain ⟨wild, body, rfl, -, -, hbody⟩ := h.shape
  rcases mem_append.1 hb with hb | hb
  · cases wild
    · simp at hb
    rcases mem_cons.1 hb with rfl | hb
    · decide
    · obtain rfl := mem_singleton.1 hb
      decide
  · exact ⟨(domain_bytes hbody hb).1, (domain_bytes hbody hb).2.1⟩

lemma NameTarget.lower_eq (h : NameTarget t) : lower t = t :=
  (map_congr_left fun _ hb => (h.bytes hb).2).trans (map_id t)

lemma NameTarget.last (h : NameTarget t) : t.getLast? ≠ some 46 := by
  obtain ⟨wild, body, rfl, hne, -, hbody⟩ := h.shape
  have hlast : body.getLast? ≠ some 46 := getLast_ne_dot fun l hl =>
    ⟨(label_ne (all_eq_true.1 hbody l hl)).1, (label_ne (all_eq_true.1 hbody l hl)).2.2⟩
  obtain ⟨b, hb⟩ := Option.isSome_iff_exists.1 (getLast?_isSome.2 hne)
  rw [getLast?_append, hb]
  simpa [hb] using hlast

lemma NameTarget.plain (h : NameTarget t) : Plain t := ⟨fun _ hb => (h.bytes hb).1, h.last⟩

lemma dotted_of_parseIPv4 {b : Bytes} (h : parseIPv4 s = some b) (hlast : s.getLast? ≠ some 46) :
    isDottedDecimalLikeTarget s = true := by
  have hoctet : ∀ {x : Bytes} {n : UInt8}, octet x = some n →
      (x != [] && x.all isDigit) = true := by
    intro x n hx
    unfold octet at hx
    split at hx <;> try cases hx
    rename_i hcond
    simp [hcond.1, hcond.2.1]
  unfold parseIPv4 at h
  unfold isDottedDecimalLikeTarget
  rw [trimSuffix_self hlast]
  split at h <;> try cases h
  rename_i w x y z heq
  simp only [Option.bind_eq_bind, Option.bind_eq_some_iff] at h
  obtain ⟨a1, h1, a2, h2, a3, h3, a4, h4, -⟩ := h
  simp only [heq, length_cons, length_nil, all_cons, all_nil, hoctet h1,
    hoctet h2, hoctet h3, hoctet h4]
  rfl

lemma parseIP_none (h : Plain s) (hdotted : isDottedDecimalLikeTarget s = false) :
    parseIP s = none := by
  have hv4 : parseIPv4 s = none := by
    cases hp : parseIPv4 s with
    | none => rfl
    | some b => rw [dotted_of_parseIPv4 hp h.2] at hdotted; cases hdotted
  unfold parseIP parseAddr
  split
  · rw [hv4]; rfl
  · rename_i hfind
    have := plain_ne 58 (h.1 58 (mem_of_find?_eq_some hfind))
    exact absurd rfl this.2.1
  · rfl

lemma NameTarget.split (h : NameTarget t) : splitTarget t = .ok (.inr t) := by
  have hslash : t.contains 47 = false := by
    simpa using fun hmem => (plain_ne 47 (h.plain.1 47 hmem)).1 rfl
  have hip : parseIP t = none := parseIP_none h.plain h.notAddress
  have hne : t ≠ [] := by
    obtain ⟨wild, body, rfl, hne, -⟩ := h.shape
    simp [hne]
  have hdns : isDnsAllowTarget t = true := by
    unfold isDnsAllowTarget
    rw [h.plain.toLower_eq, h.lower_eq]
    obtain ⟨wild, body, rfl, hbody, hlen, hvalid⟩ := h.shape
    have hshort : body.length < 255 := by
      rw [length_append] at hlen
      omega
    have hstar : ∀ b ∈ body, b ≠ 42 := fun b hb => (domain_bytes hvalid hb).2.2
    cases wild
    · simp only [Bool.false_eq_true, if_false, nil_append]
      split
      · exact absurd rfl (hstar 42 (by simp))
      · rw [if_neg (by simpa using fun hmem => hstar 42 hmem rfl)]
        simpa [hbody, hvalid] using hshort
    · simpa [hbody, hvalid] using hshort
  unfold splitTarget
  simp only [h.plain.trimSpace_eq, if_neg hne, isIPv4Target, hslash, hip, h.notAddress, hdns]
  rfl

end

/-- The key of the target's rule is a prefix of the key of the query. -/
def Covers (target h : Bytes) : Prop :=
  ∃ domain key, splitTarget target = .ok (.inr domain) ∧ makeDnsAllowKey domain = .ok key ∧
    key <+: (h.map dnsQnameLower).reverse ++ [0]

lemma covers_iff_key (ht : NameTarget t) :
    Covers t h ↔ (domainRule t).key <+: (lower h).reverse ++ [0] := by
  have hrule : ruleOf t = domainRule t := by rw [ruleOf, ht.plain.toLower_eq, ht.lower_eq]
  have hdns : isDnsAllowTarget t = true := (splitTarget_inr ht.split).2.1
  have hkey := (makeDnsAllowKey_ruleOf hdns).2
  rw [hrule] at hkey
  constructor
  · rintro ⟨domain, key, hsplit, hmake, hpre⟩
    cases ht.split.symm.trans hsplit
    cases hkey.symm.trans hmake
    exact hpre
  · exact fun hpre => ⟨t, _, ht.split, hkey, hpre⟩

/-- **cubevs and the proxy match a cleaned name alike.** -/
lemma covers_iff_domainMatch (ht : NameTarget t) (h0 : 0 ∉ h) :
    Covers t h ↔ domainMatch t (some h) = true := by
  have hnul : (0 : UInt8) ∉ lower h := by
    intro hmem
    obtain ⟨b, hb, heq⟩ := mem_map.1 hmem
    exact h0 ((asciiLower_eq_iff 0 (by simp)).1 heq ▸ hb)
  rw [covers_iff_key ht]
  simp only [domainMatch, ht.lower_eq]
  obtain ⟨wild, body, rfl, hne, -, hvalid⟩ := ht.shape
  cases wild
  · have hrule : domainRule body = ⟨false, body.splitOn 46⟩ := by
      unfold domainRule
      split
      · exact absurd rfl (domain_bytes hvalid (b := 42) (by simp)).2.2
      · rfl
    simp only [Bool.false_eq_true, if_false, nil_append, hrule, Rule.key, Rule.closing,
      join_splitOn, key_prefix_iff, if_neg (not_wildcard hvalid), true_and, decide_eq_true_eq]
    constructor
    · rintro (⟨u, hu⟩ | heq)
      · exact absurd (hu ▸ by simp : (0 : UInt8) ∈ lower h) hnul
      · exact heq.symm
    · exact fun heq => .inr heq.symm
  · have hlen : (42 :: 46 :: body).length > 2 := by
      have := length_pos_iff.2 hne
      simp only [length_cons]
      omega
    have hrule : domainRule (42 :: 46 :: body) = ⟨true, body.splitOn 46⟩ := rfl
    simp only [if_true, cons_append, nil_append, hrule, Rule.key, Rule.closing,
      join_splitOn, key_prefix_iff, take_succ_cons, take_zero, hlen, and_self,
      drop_succ_cons, drop_zero, suffixMatch, isSuffixOf_iff_suffix]
    constructor
    · rintro (⟨u, hu⟩ | ⟨hdot, -⟩)
      · exact ⟨u, hu.symm⟩
      · exact absurd hdot (by decide)
    · rintro ⟨u, hu⟩
      exact .inl ⟨u, hu.symm⟩

lemma NameTarget.exists_hostname (ht : NameTarget t) :
    ∃ h, isHostname h = true ∧ domainMatch t (some h) = true := by
  have hlow := ht.lower_eq
  have hdec := ht.notAddress
  obtain ⟨wild, body, rfl, hne, hlen, hvalid⟩ := ht.shape
  have hlabel : ∀ l ∈ body.splitOn 46,
      (l != [] && decide (l.length ≤ 63) && l.all isNameByte) = true := by
    intro l hl
    obtain ⟨hnil, hshort, -⟩ := label_ne (all_eq_true.1 hvalid l hl)
    have hbytes := fun b hb => (label_bytes (all_eq_true.1 hvalid l hl) (b := b) hb).1
    simp only [Bool.and_eq_true, bne_iff_ne, ne_eq, decide_eq_true_eq, all_eq_true]
    exact ⟨⟨hnil, hshort⟩, hbytes⟩
  cases wild
  · -- an exact name covers itself
    refine ⟨body, ?_, ?_⟩
    · simp only [isHostname, Bool.and_eq_true, decide_eq_true_eq, Bool.not_eq_true']
      exact ⟨⟨all_eq_true.2 hlabel, Nat.lt_succ_iff.1 hlen⟩, hdec⟩
    have hlow' : lower body = body := hlow
    simp [domainMatch, hlow', not_wildcard hvalid]
  -- a wildcard covers the names with one more label
  have hsplit : (97 :: 46 :: body).splitOn 46 = [97] :: body.splitOn 46 := by
    have hjoin : 97 :: 46 :: body = join 46 ([97] :: body.splitOn 46) := by
      rw [join_cons 46 (splitOn_ne_nil 46 body), join_splitOn]
      rfl
    rw [hjoin]
    refine splitOn_intercalate 46 (fun l hl => ?_) (by simp)
    rcases mem_cons.1 hl with rfl | hl
    · decide
    · exact (label_ne (all_eq_true.1 hvalid l hl)).2.2
  refine ⟨97 :: 46 :: body, ?_, ?_⟩
  · have hlast : (97 :: 46 :: body).getLast? ≠ some 46 := by
      have := ht.last
      obtain ⟨c, cs, rfl⟩ := exists_cons_of_ne_nil hne
      simpa using this
    have hdec : isDottedDecimalLikeTarget (97 :: 46 :: body) = false := by
      simp only [isDottedDecimalLikeTarget, trimSuffix_self hlast, hsplit, all_cons]
      simp [isDigit]
    have hshort : body.length + 2 ≤ 253 := by
      have : ((if true = true then [42, 46] else []) ++ body).length = body.length + 2 := by simp
      omega
    simp only [isHostname, hsplit, hdec, all_cons, all_eq_true.2 hlabel]
    simp [isNameByte, isLetter]
    omega
  · have hbody : body.map asciiLower = body := by
      simp only [if_true, lower, map_append] at hlow
      exact (append_inj' hlow (by simp)).2
    have hpattern : lower ([42, 46] ++ body) = 42 :: 46 :: body := by
      simp [lower, hbody, asciiLower]
    have hvalue : lower (97 :: 46 :: body) = 97 :: 46 :: body := by
      simp [lower, hbody, asciiLower]
    have hpos := length_pos_iff.2 hne
    simp only [if_true, domainMatch, hpattern, hvalue]
    rw [if_pos ⟨rfl, by simpa using hpos⟩]
    simp [suffixMatch]

/-! ### Targets that are addresses -/

/-- A host that is written as an address or as a block. -/
def isAddress (x : Bytes) : Bool := (parseIP x).isSome || x.contains 47

/-- What the agent makes of a `Host` pattern: an IPv4 address or block, or a name. -/
lemma normalizeL7HostTarget_cases (h : normalizeL7HostTarget p = some t) :
    (isAddress (hostPart (trimSpace p)) = true ∧
        ((∃ ip : Bytes, ip.length = 4 ∧ t = dotted ip) ∨ 47 ∈ t)) ∨
      (isAddress (hostPart (trimSpace p)) = false ∧
        normalizeL7DomainTarget (hostPart (trimSpace p)) = some t) := by
  unfold normalizeL7HostTarget at h
  generalize hostPart (trimSpace p) = x at h
  split_ifs at h
  cases hip : parseIP x with
  | some ip =>
    simp only [hip] at h
    obtain ⟨b, hb, rfl⟩ := Option.map_eq_some_iff.1 h
    have hlen : b.length = 4 := by
      unfold to4 at hb
      split at hb <;> cases hb
      rename_i hcond
      rw [length_drop, hcond.1]
    exact .inl ⟨by simp [isAddress, hip], .inl ⟨b, hlen, by rw [ipString, if_pos hlen]⟩⟩
  | none =>
    simp only [hip] at h
    split at h
    · rename_i hslash
      left
      refine ⟨by rw [isAddress, hslash, Bool.or_true], .inr ?_⟩
      split at h <;> try cases h
      split at h <;> cases h
      unfold ipNetString
      split
      · simp
      · split <;> simp
    · rename_i hslash
      right
      split at h <;> try cases h
      exact ⟨by simpa [isAddress, hip] using hslash, h⟩

lemma decimalText_digits : decimalText n ≠ [] ∧ ∀ b ∈ decimalText n, isDigit b = true := by
  constructor
  · simp [decimalText, ascii, Nat.toDigits_ne_nil]
  intro b hb
  obtain ⟨c, hc, rfl⟩ := mem_map.1 hb
  rw [String.toList_ofList] at hc
  have hd := Char.isDigit_iff_toNat.1 (Nat.isDigit_of_mem_toDigits (by decide) (by decide) hc)
  have h0 : '0'.toNat = 48 := rfl
  have h9 : '9'.toNat = 57 := rfl
  have hbyte : c.toNat.toUInt8.toNat = c.toNat := Nat.mod_eq_of_lt (by omega)
  simp only [isDigit, Bool.and_eq_true, decide_eq_true_eq, UInt8.le_iff_toNat_le, hbyte]
  exact ⟨hd.1, hd.2⟩

lemma dotted_spec {ip : Bytes} (hlen : ip.length = 4) :
    (∀ b ∈ dotted ip, isGraphic b = true) ∧ isDottedDecimalLikeTarget (dotted ip) = true := by
  have hlabel : ∀ l ∈ ip.map fun b => decimalText b.toNat, l ≠ [] ∧ ∀ c ∈ l, isDigit c = true := by
    intro l hl
    obtain ⟨b, -, rfl⟩ := mem_map.1 hl
    exact decimalText_digits b.toNat
  have hdot : ∀ l ∈ ip.map fun b => decimalText b.toNat, (46 : UInt8) ∉ l :=
    fun l hl hmem => absurd ((hlabel l hl).2 46 hmem) (by decide)
  have hne : (ip.map fun b => decimalText b.toNat) ≠ [] := by
    intro hnil
    rw [map_eq_nil_iff.1 hnil] at hlen
    cases hlen
  have hsplit : (dotted ip).splitOn 46 = ip.map fun b => decimalText b.toNat :=
    splitOn_intercalate 46 hdot hne
  have hlast : (dotted ip).getLast? ≠ some 46 := by
    refine getLast_ne_dot fun l hl => ?_
    rw [hsplit] at hl
    exact ⟨(hlabel l hl).1, hdot l hl⟩
  constructor
  · intro b hb
    refine isGraphic_of_plain b ?_
    obtain rfl | ⟨l, hl, hb⟩ := mem_join 46 hb
    · decide
    · exact digit_plain b ((hlabel l hl).2 b hb)
  · rw [isDottedDecimalLikeTarget, trimSuffix_self hlast, hsplit, length_map, hlen]
    simp only [BEq.rfl, Bool.true_and, all_eq_true, Bool.and_eq_true, bne_iff_ne]
    exact hlabel

lemma not_covers_address
    (ht : (∃ ip : Bytes, ip.length = 4 ∧ t = dotted ip) ∨ 47 ∈ t) : ¬ Covers t h := by
  rintro ⟨domain, key, hsplit, -, -⟩
  unfold splitTarget at hsplit
  rcases ht with ⟨ip, hlen, rfl⟩ | hslash
  · obtain ⟨hgraphic, hdec⟩ := dotted_spec hlen
    simp only [trimSpace_self hgraphic, hdec, Bool.or_true, if_true] at hsplit
    split_ifs at hsplit
    cases hsplit
  have hcontains : (trimSpace t).contains 47 = true := by
    simpa using mem_trimSpace (by decide) hslash
  simp only [hcontains, if_true] at hsplit
  split_ifs at hsplit
  cases hsplit

lemma Plain.hostPart_eq (h : Plain p) : hostPart (trimSpace p) = p := by
  have hcolon : (58 : UInt8) ∉ p := fun hmem => (plain_ne 58 (h.1 58 hmem)).2.1 rfl
  rw [h.trimSpace_eq, hostPart, splitHostPort, if_pos hcolon]
  rfl

lemma plain_of_domainMatch (hh : isHostname h = true)
    (hm : domainMatch (jsonText p) (some h) = true) : Plain p ∧ jsonText p = p := by
  have hplain := domainMatch_plain hh hm
  have heq : jsonText p = p := jsonText_ascii (.inr hplain.ascii)
  exact ⟨heq ▸ hplain, heq⟩

lemma nameTarget_of_normalize (h : normalizeL7DomainTarget p = some t) :
    NameTarget t ∧ (Plain p → t = lower p) := by
  unfold normalizeL7DomainTarget at h
  dsimp only at h
  split_ifs at h
  rename_i hcond
  cases h
  simp only [Bool.or_eq_true, not_or, Bool.not_eq_true, Bool.not_eq_eq_eq_not,
    Bool.not_true, Bool.not_eq_false] at hcond
  refine ⟨⟨by simpa using hcond.2, hcond.1⟩, fun hp => ?_⟩
  rw [hp.trimSpace_eq, hp.toLower_eq]

/-- **Agreement on one name**, where the target is what the agent makes of the host of a pattern. -/
lemma agree_iff_plain {x : Bytes} (hx : Plain p → x = p) (ht : normalizeL7DomainTarget x = some t) :
    (∀ h, isHostname h = true → (Covers t h ↔ domainMatch (jsonText p) (some h) = true)) ↔
      Plain p := by
  obtain ⟨hname, hlower⟩ := nameTarget_of_normalize ht
  have h0 : ∀ {h}, isHostname h = true → (0 : UInt8) ∉ h :=
    fun hh hmem => (plain_ne 0 (isHostname_plain hh hmem)).2.2.2.1 rfl
  constructor
  · intro hagree
    obtain ⟨h, hh, hm⟩ := hname.exists_hostname
    have hcovers := (covers_iff_domainMatch hname (h0 hh)).2 hm
    exact (plain_of_domainMatch hh ((hagree h hh).1 hcovers)).1
  intro hp h hh
  obtain rfl := hx hp
  rw [covers_iff_domainMatch hname (h0 hh), hlower hp, domainMatch_lower,
    jsonText_ascii (.inl hp.ascii)]

lemma not_match_address (hp : isAddress (hostPart (trimSpace p)) = true)
    (hh : isHostname h = true) : ¬ domainMatch (jsonText p) (some h) = true := by
  intro hm
  obtain ⟨hplain, heq⟩ := plain_of_domainMatch hh hm
  rw [hplain.hostPart_eq, isAddress, Bool.or_eq_true] at hp
  rcases hp with hip | hslash
  · have hdec : isDottedDecimalLikeTarget p = true := by
      by_contra hne
      rw [parseIP_none hplain (by simpa using hne)] at hip
      cases hip
    -- an address matches itself only
    have hdigit : ∀ b ∈ p, isDigit b = true ∨ b = 46 ∨ b = 0 := by
      intro b hb
      simp only [isDottedDecimalLikeTarget, trimSuffix_self hplain.2, Bool.and_eq_true,
        all_eq_true] at hdec
      rw [← join_splitOn p] at hb
      obtain rfl | ⟨l, hl, hb⟩ := mem_join 46 hb
      · exact .inr (.inl rfl)
      · exact .inl ((hdec.2 l hl).2 b hb)
    have hself : lower p = p :=
      (map_congr_left fun b hb => (asciiLower_eq_iff b (hdigit b hb)).2 rfl).trans (map_id p)
    rw [heq] at hm
    simp only [domainMatch, hself] at hm
    split at hm
    · rename_i hstar
      have : (42 : UInt8) ∈ p.take 2 := by rw [hstar.1]; simp
      exact absurd (hdigit 42 (mem_of_mem_take this)) (by decide)
    have hlh : p = lower h := by simpa using hm
    have hph : h = p := by
      have hmap : h.map asciiLower = p := hlh.symm
      have hlen : h.length = p.length := by rw [← hmap, length_map]
      refine ext_getElem hlen fun i h1 h2 => ?_
      have hi : asciiLower h[i] = p[i] := by
        simp only [← hmap, getElem_map]
      exact (asciiLower_eq_iff _ (hdigit _ (getElem_mem h2))).1 hi
    simp only [isHostname, hph, hdec, Bool.not_true, Bool.and_false] at hh
    cases hh
  · have hmem : (47 : UInt8) ∈ p := by simpa using hslash
    exact (plain_ne 47 (hplain.1 47 hmem)).1 rfl

inductive Field
  | sni
  | host

namespace Field

def pattern (m : EgressRuleMatch) : Field → Option Bytes
  | sni => m.sni
  | host => m.host

def wire (m : WireMatch) : Field → Option Bytes
  | sni => m.sni
  | host => m.host

def normalize (p : Bytes) : Field → Option Bytes
  | sni => normalizeL7DomainTarget p
  | host => normalizeL7HostTarget p

/-- The pattern needs no cleaning, or stands for addresses and not for names. -/
def Clean (p : Bytes) : Field → Prop
  | sni => Plain p
  | host => Plain p ∨ isAddress (hostPart (trimSpace p)) = true

end Field

lemma mem_foldl_distinct (ts acc : List Bytes) (t : Bytes) : t ∈ ts.foldl (fun targets target =>
      if target ∈ targets then targets else targets ++ [target]) acc ↔ t ∈ acc ∨ t ∈ ts := by
  induction ts generalizing acc with
  | nil => simp
  | cons x ts ih =>
    rw [foldl_cons, ih, mem_cons]
    split
    · rename_i hx
      constructor
      · tauto
      · rintro (h | rfl | h) <;> tauto
    · rw [mem_append, mem_singleton, or_assoc]

variable {f : Field}

lemma mem_extractL7AllowOutTargets {rules : List (Option EgressRule)} {r : EgressRule}
    {m : EgressRuleMatch} (hr : some r ∈ rules)
    (hm : r.match' = some m) (hp : f.pattern m = some p) (ht : f.normalize p = some t) :
    t ∈ extractL7AllowOutTargetsFromRules rules := by
  have hmem : t ∈ ruleTargets r := by
    rw [ruleTargets, hm]
    cases f
    · have hsni : m.sni = some p := hp
      have ht' : normalizeL7DomainTarget p = some t := ht
      simp [hsni, ht']
    have hhost : m.host = some p := hp
    have ht' : normalizeL7HostTarget p = some t := ht
    simp [hhost, ht']
  refine (mem_foldl_distinct _ _ _).2 (.inr (mem_flatMap.2 ⟨r, ?_, hmem⟩))
  exact mem_filterMap.2 ⟨some r, hr, rfl⟩

lemma mem_renderEgressPolicy {rules : List (Option EgressRule)} {sandboxId : Bytes}
    {policy : WirePolicy}
    (hpolicy : renderEgressPolicy sandboxId (toEgressInput rules) = some policy)
    {r : EgressRule} {m : EgressRuleMatch} (hr : some r ∈ rules)
    (hm : r.match' = some m) (hp : f.pattern m = some p) :
    ∃ w ∈ policy.rules, w.id = jsonText r.name ∧ f.wire w.match' = some (jsonText p) := by
  obtain ⟨body, hbody, rfl⟩ := Option.map_eq_some_iff.1 hpolicy
  have hmem : r ∈ rules.filterMap id := mem_filterMap.2 ⟨some r, hr, rfl⟩
  have hne : ((rules.filterMap id).map fun r : EgressRule =>
      (⟨r.name, r.match', r.action.map toActionInput⟩ : RuleInput)) ≠ [] := by
    intro hnil
    rw [map_eq_nil_iff.1 hnil] at hmem
    cases hmem
  simp only [toEgressInput, if_neg hne, buildPolicyBody] at hbody
  cases hbody
  refine ⟨_, mem_map.2 ⟨_, mem_map.2 ⟨_, mem_map.2 ⟨r, hmem, rfl⟩, rfl⟩, rfl⟩, rfl, ?_⟩
  cases f
  · have hsni : m.sni = some p := hp
    simp [Field.wire, renderRule, renderMatch, hm, hsni]
  · have hhost : m.host = some p := hp
    simp [Field.wire, renderRule, renderMatch, hm, hhost]

/-- **Agreement on the pattern of a field.** -/
lemma agree_iff_clean (ht : f.normalize p = some t) :
    (∀ h, isHostname h = true → (Covers t h ↔ domainMatch (jsonText p) (some h) = true)) ↔
      f.Clean p := by
  cases f
  · exact agree_iff_plain (fun _ => rfl) ht
  rcases normalizeL7HostTarget_cases ht with ⟨haddr, hform⟩ | ⟨haddr, hname⟩
  · refine iff_of_true (fun h hh => ?_) (.inr haddr)
    exact iff_of_false (not_covers_address hform) (not_match_address haddr hh)
  · rw [agree_iff_plain (fun hp => hp.hostPart_eq) hname]
    simp [Field.Clean, haddr]

/-- **The datapath and the proxy agree on names** exactly if the pattern needs no cleaning: the
target handed to cubevs and the pattern pushed to CubeEgress mean the same hostnames. -/
theorem names_agree_iff {rules : List (Option EgressRule)} {sandboxId : Bytes} {policy : WirePolicy}
    (hpolicy : renderEgressPolicy sandboxId (toEgressInput rules) = some policy)
    {r : EgressRule} {m : EgressRuleMatch} {f : Field} {p t : Bytes} (hr : some r ∈ rules)
    (hm : r.match' = some m) (hp : f.pattern m = some p) (ht : f.normalize p = some t) :
    t ∈ extractL7AllowOutTargetsFromRules rules ∧
      ∃ w ∈ policy.rules, w.id = jsonText r.name ∧ ∃ q, f.wire w.match' = some q ∧
        ((∀ h, isHostname h = true → (Covers t h ↔ domainMatch q (some h) = true)) ↔
          f.Clean p) := by
  refine ⟨mem_extractL7AllowOutTargets hr hm hp ht, ?_⟩
  obtain ⟨w, hw, hid, hq⟩ := mem_renderEgressPolicy hpolicy hr hm hp
  exact ⟨w, hw, hid, jsonText p, hq, agree_iff_clean ht⟩

/-- A rule with one pattern, which allows. -/
def demoRule (name : Bytes) (m : EgressRuleMatch) : EgressRule :=
  ⟨name, some m, some ⟨true, none, []⟩⟩

def demoRules : List (Option EgressRule) :=
  [some (demoRule (ascii "api") { sni := some (ascii "*.API.example.com") })]

lemma validatePolicy_ok {p : WirePolicy} (h : (validatePolicy p).toBool = true) :
    validatePolicy p = .ok () := by
  cases hv : validatePolicy p with
  | error e => rw [hv] at h; cases h
  | ok u => rfl

theorem wildcard_names_agree :
    ∃ policy, renderEgressPolicy (ascii "10.0.0.2") (toEgressInput demoRules) = some policy ∧
      validatePolicy policy = .ok () ∧
      ∃ w ∈ policy.rules, ∃ q, w.match'.sni = some q ∧ ∀ h, isHostname h = true →
        (Covers (ascii "*.api.example.com") h ↔ domainMatch q (some h) = true) := by
  have hrun : (renderEgressPolicy (ascii "10.0.0.2") (toEgressInput demoRules)).map
      (fun policy => (validatePolicy policy).toBool) = some true := by decide +kernel
  obtain ⟨policy, hpolicy, hvalid⟩ := Option.map_eq_some_iff.1 hrun
  have hclean : Plain (ascii "*.API.example.com") := by decide +kernel
  obtain ⟨-, w, hw, -, q, hq, hagree⟩ := names_agree_iff hpolicy
    (r := demoRule (ascii "api") { sni := some (ascii "*.API.example.com") }) (f := .sni)
    (t := ascii "*.api.example.com") (mem_singleton.2 rfl) rfl rfl (by decide +kernel)
  exact ⟨policy, hpolicy, validatePolicy_ok hvalid, w, hw, q, hq, hagree.2 hclean⟩

/-- A port and a closing dot, which the agent takes away. -/
def untidyRules : List (Option EgressRule) :=
  [some (demoRule (ascii "gateway") { host := some (ascii "Gateway.Example.COM:8443") }),
    some (demoRule (ascii "api") { sni := some (ascii "API.Example.COM.") })]

/-- Otherwise cubevs lets a name through that no rule of the proxy matches. -/
theorem untidy_names_disagree :
    ∃ policy, renderEgressPolicy (ascii "10.0.0.2") (toEgressInput untidyRules) = some policy ∧
      validatePolicy policy = .ok () ∧
      extractL7AllowOutTargetsFromRules untidyRules =
        [ascii "gateway.example.com", ascii "api.example.com"] ∧
      ∀ h ∈ [ascii "gateway.example.com", ascii "api.example.com"],
        isHostname h = true ∧ Covers h h ∧ ∀ w ∈ policy.rules, ∀ f : Field, ∀ q,
          f.wire w.match' = some q → ¬ domainMatch q (some h) = true := by
  have hrun : (renderEgressPolicy (ascii "10.0.0.2") (toEgressInput untidyRules)).map
      (fun policy => ((validatePolicy policy).toBool,
        policy.rules.map fun w => (w.match'.sni, w.match'.host))) =
      some (true, [(none, some (ascii "Gateway.Example.COM:8443")),
        (some (ascii "API.Example.COM."), none)]) := by decide +kernel
  obtain ⟨policy, hpolicy, hout⟩ := Option.map_eq_some_iff.1 hrun
  obtain ⟨hvalid, hwires⟩ := Prod.mk.inj hout
  refine ⟨policy, hpolicy, validatePolicy_ok hvalid, by decide +kernel, fun h hh => ?_⟩
  have hname : NameTarget h ∧ isHostname h = true ∧ 0 ∉ h ∧ domainMatch h (some h) = true := by
    revert h
    have hall : ∀ h ∈ [ascii "gateway.example.com", ascii "api.example.com"],
        isValidL7DomainName h = true ∧ isDottedDecimalLikeTarget h = false ∧
          isHostname h = true ∧ 0 ∉ h ∧ domainMatch h (some h) = true := by decide +kernel
    intro h hh
    obtain ⟨h1, h2, h3, h4, h5⟩ := hall h hh
    exact ⟨⟨h1, h2⟩, h3, h4, h5⟩
  obtain ⟨hn, hhost, h0, hself⟩ := hname
  refine ⟨hhost, (covers_iff_domainMatch hn h0).2 hself, fun w hw f q hq => ?_⟩
  have hpair : (w.match'.sni, w.match'.host) ∈
      [(none, some (ascii "Gateway.Example.COM:8443")), (some (ascii "API.Example.COM."), none)] :=
    hwires ▸ mem_map.2 ⟨w, hw, rfl⟩
  have hq' : q = ascii "Gateway.Example.COM:8443" ∨ q = ascii "API.Example.COM." := by
    cases f <;> simp only [Field.wire] at hq <;> simp_all
  have hall : ∀ h ∈ [ascii "gateway.example.com", ascii "api.example.com"],
      domainMatch (ascii "Gateway.Example.COM:8443") (some h) = false ∧
        domainMatch (ascii "API.Example.COM.") (some h) = false := by decide +kernel
  rcases hq' with rfl | rfl
  · rw [(hall h hh).1]; decide
  · rw [(hall h hh).2]; decide

end CubeSandbox.Egress
