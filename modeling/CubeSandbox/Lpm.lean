import Mathlib

/-!
Hash maps of a kernel, and longest-prefix matching.

A map is a partial function, read by application. The two updates are the ones a program can ask
the kernel for: the plain one overwrites, the other one refuses a key that is present. A trie is a
map from bit strings; the lookup of a key returns the value of the longest stored prefix of the key.
Keys that are byte strings are read with the most significant bit of a byte first.
-/

namespace CubeSandbox

/-- A map from keys to values, read by application. -/
abbrev KMap (K V : Type) := K → Option V

namespace KMap

variable {K V : Type}

def empty : KMap K V := fun _ => none

def keep (m : KMap K V) (p : K → V → Bool) : KMap K V := fun x => (m x).filter (p x)

@[simp] lemma empty_apply (k : K) : (empty : KMap K V) k = none := rfl

variable {m : KMap K V} {x k : K}

lemma keep_eq_some {p : K → V → Bool} {w : V} : m.keep p x = some w ↔ m x = some w ∧ p x w := by
  simp [keep, Option.filter_eq_some_iff]

variable [DecidableEq K]

/-- Update, whether or not the key is present. -/
def set (m : KMap K V) (k : K) (v : V) : KMap K V := fun x => if x = k then some v else m x

/-- Update of a key that must not be present. -/
def setNew (m : KMap K V) (k : K) (v : V) : Option (KMap K V) :=
  if (m k).isSome then none else some (m.set k v)

def del (m : KMap K V) (k : K) : KMap K V := fun x => if x = k then none else m x

@[simp] lemma set_self (m : KMap K V) (k : K) (v : V) : m.set k v k = some v := by simp [set]

lemma set_ne (m : KMap K V) (v : V) (h : x ≠ k) : m.set k v x = m x := by simp [set, h]

@[simp] lemma del_self (m : KMap K V) (k : K) : m.del k k = none := by simp [del]

lemma del_ne (m : KMap K V) (h : x ≠ k) : m.del k x = m x := by simp [del, h]

lemma set_eq_some {v w : V} : m.set k v x = some w ↔ (x = k ∧ v = w) ∨ (x ≠ k ∧ m x = some w) := by
  by_cases h : x = k <;> simp [set, h]

lemma del_of_none (h : m k = none) : m.del k = m := by
  funext x
  by_cases hx : x = k <;> simp [del, hx, h]

lemma del_eq_some {w : V} : m.del k x = some w ↔ x ≠ k ∧ m x = some w := by
  by_cases h : x = k <;> simp [del, h]

lemma setNew_eq_some {m' : KMap K V} {v : V} :
    m.setNew k v = some m' ↔ m k = none ∧ m' = m.set k v := by
  unfold setNew
  cases h : m k with
  | none => simp [eq_comm]
  | some w => simp

end KMap

namespace Lpm

open List Option

variable {V : Type}

/-- What is stored in a trie, by the bits of the stored prefix. -/
abbrev Trie (V : Type) := KMap (List Bool) V

/-- The value of the longest stored prefix of a key. -/
def lookup : Trie V → List Bool → Option V
  | t, [] => t []
  | t, b :: bs => (lookup (fun p => t (b :: p)) bs).or (t [])

@[simp] lemma lookup_nil (t : Trie V) : lookup t [] = t [] := rfl

lemma lookup_cons (t : Trie V) (b : Bool) (bs : List Bool) :
    lookup t (b :: bs) = (lookup (fun p => t (b :: p)) bs).or (t []) := rfl

variable {t : Trie V} {key : List Bool}

lemma lookup_congr {u : Trie V} (h : ∀ p, p <+: key → t p = u p) : lookup t key = lookup u key := by
  induction key generalizing t u with
  | nil => exact h [] prefix_rfl
  | cons b bs ih =>
    rw [lookup_cons, lookup_cons, h [] nil_prefix,
      ih (fun p hp => h (b :: p) (cons_prefix_cons.2 ⟨rfl, hp⟩))]

lemma lookup_eq_none_iff : lookup t key = none ↔ ∀ p, p <+: key → t p = none := by
  induction key generalizing t with
  | nil => simp
  | cons b bs ih =>
    rw [lookup_cons, or_eq_none_iff, ih]
    constructor
    · rintro ⟨h1, h2⟩ p hp
      rcases p with _ | ⟨c, p⟩
      · exact h2
      · obtain ⟨rfl, hp'⟩ := cons_prefix_cons.1 hp
        exact h1 p hp'
    · intro h
      exact ⟨fun p hp => h _ (cons_prefix_cons.2 ⟨rfl, hp⟩), h [] nil_prefix⟩

/-- **What a lookup returns**: the value of a stored prefix such that no longer one is stored. -/
theorem lookup_eq_some_iff {t : Trie V} {key : List Bool} {v : V} : lookup t key = some v ↔
      ∃ p, p <+: key ∧ t p = some v ∧ ∀ q, q <+: key → p.length < q.length → t q = none := by
  induction key generalizing t with
  | nil => simp
  | cons b bs ih =>
    rw [lookup_cons, or_eq_some_iff, ih, lookup_eq_none_iff]
    constructor
    · rintro (⟨p, hp, hv, hmax⟩ | ⟨hnone, hv⟩)
      · refine ⟨b :: p, cons_prefix_cons.2 ⟨rfl, hp⟩, hv, fun q hq hlt => ?_⟩
        rcases q with _ | ⟨c, q⟩
        · simp at hlt
        · obtain ⟨rfl, hq'⟩ := cons_prefix_cons.1 hq
          exact hmax q hq' (by simpa using hlt)
      refine ⟨[], nil_prefix, hv, fun q hq hlt => ?_⟩
      rcases q with _ | ⟨c, q⟩
      · simp at hlt
      · obtain ⟨rfl, hq'⟩ := cons_prefix_cons.1 hq
        exact hnone q hq'
    · rintro ⟨p, hp, hv, hmax⟩
      rcases p with _ | ⟨c, p⟩
      · exact .inr ⟨fun q hq => hmax _ (cons_prefix_cons.2 ⟨rfl, hq⟩) (by simp), hv⟩
      obtain ⟨rfl, hp'⟩ := cons_prefix_cons.1 hp
      refine .inl ⟨p, hp', hv, fun q hq hlt => ?_⟩
      exact hmax _ (cons_prefix_cons.2 ⟨rfl, hq⟩) (by simpa using hlt)

lemma lookup_of_stored {v : V} (h : t key = some v) : lookup t key = some v :=
  lookup_eq_some_iff.2 ⟨key, prefix_rfl, h, fun _ hq hlt => by
    have := hq.length_le; omega⟩

lemma lookup_isSome_of_stored {p : List Bool} {v : V} (hp : p <+: key) (h : t p = some v) :
    ∃ w, lookup t key = some w := by
  rw [← ne_none_iff_exists']
  intro hn
  simp [lookup_eq_none_iff.1 hn p hp] at h

lemma prefix_unique {p q : List Bool} (hp : p <+: key) (hq : q <+: key) (h : p.length = q.length) :
    p = q :=
  (prefix_of_prefix_length_le hp hq h.le).eq_of_length h

/-! ### Byte strings -/

/-- The bits of a byte, the most significant one first. -/
def byteBits (b : UInt8) : List Bool :=
  [b.toNat.testBit 7, b.toNat.testBit 6, b.toNat.testBit 5, b.toNat.testBit 4,
    b.toNat.testBit 3, b.toNat.testBit 2, b.toNat.testBit 1, b.toNat.testBit 0]

def bits (bs : List UInt8) : List Bool := bs.flatMap byteBits

@[simp] lemma byteBits_length (b : UInt8) : (byteBits b).length = 8 := rfl

@[simp] lemma bits_nil : bits [] = [] := rfl

@[simp] lemma bits_cons (b : UInt8) (bs : List UInt8) : bits (b :: bs) = byteBits b ++ bits bs :=
  rfl

lemma bits_append (bs cs : List UInt8) : bits (bs ++ cs) = bits bs ++ bits cs := by
  simp [bits]

@[simp] lemma bits_length (bs : List UInt8) : (bits bs).length = 8 * bs.length := by
  induction bs with
  | nil => rfl
  | cons b bs ih => simp [ih]; omega

lemma byteBits_injective : Function.Injective byteBits := by
  intro b c h
  have hbit : ∀ i < 8, b.toNat.testBit i = c.toNat.testBit i := by
    simp only [byteBits, cons.injEq, and_true] at h
    intro i hi
    interval_cases i <;> tauto
  apply UInt8.toNat_inj.1
  apply Nat.eq_of_testBit_eq
  intro i
  rcases Nat.lt_or_ge i 8 with hi | hi
  · exact hbit i hi
  have hpow : 2 ^ 8 ≤ 2 ^ i := Nat.pow_le_pow_right (by omega) hi
  rw [Nat.testBit_lt_two_pow (lt_of_lt_of_le b.toNat_lt hpow),
    Nat.testBit_lt_two_pow (lt_of_lt_of_le c.toNat_lt hpow)]

/-- **Byte strings and their bits have the same prefixes.** -/
theorem bits_prefix_iff {bs cs : List UInt8} : bits bs <+: bits cs ↔ bs <+: cs := by
  induction bs generalizing cs with
  | nil => simp
  | cons b bs ih =>
    rcases cs with _ | ⟨c, cs⟩
    · simp [byteBits]
    rw [bits_cons, bits_cons, cons_prefix_cons]
    constructor
    · intro h
      have hb : byteBits b = byteBits c :=
        prefix_unique ((prefix_append _ _).trans h) (prefix_append _ _) rfl
      rw [hb, prefix_append_right_inj] at h
      exact ⟨byteBits_injective hb, ih.1 h⟩
    · rintro ⟨rfl, h⟩
      exact (prefix_append_right_inj _).2 (ih.2 h)

lemma bits_injective : Function.Injective bits := by
  intro bs cs h
  have h1 : bs <+: cs := bits_prefix_iff.1 (h ▸ prefix_rfl)
  have h2 : cs <+: bs := bits_prefix_iff.1 (h ▸ prefix_rfl)
  exact h1.eq_of_length_le h2.length_le

/-!
### Permanent entries and entries that expire

Permanent prefixes are inserted once. Later, whole keys are learned with a time of expiry: the
new entry inherits permanence from what the lookup of the key finds, and otherwise expires.
The invariant keeps the two kinds apart, so that an entry that expires never stands between a
key and a permanent prefix of it.
-/

section Expiry

def Covers (S : List Bool → Prop) (key : List Bool) : Prop := ∃ q, S q ∧ q <+: key

variable {key : List Bool}

lemma Covers.mono {S : List Bool → Prop} {p : List Bool} (h : Covers S p) (hp : p <+: key) :
    Covers S key :=
  let ⟨q, hq, hqp⟩ := h
  ⟨q, hq, hqp.trans hp⟩

/-- A value with expiry zero is permanent. -/
structure Live (expiry : V → Nat) (len : Nat) (S : List Bool → Prop) (t : Trie V)
    (learned : KMap (List Bool) Nat) (clock : Nat) : Prop where
  perm : ∀ p v, t p = some v → expiry v = 0 → Covers S p
  temp : ∀ p v, t p = some v → expiry v ≠ 0 →
    p.length = len ∧ learned p = some (expiry v) ∧ ¬ Covers S p
  stored : ∀ p, S p → ∃ v, t p = some v ∧ expiry v = 0
  kept : ∀ key e, learned key = some e → clock < e → ¬ Covers S key →
    ∃ v, t key = some v ∧ expiry v = e

section
variable {expiry : V → Nat} {len : Nat} {S : List Bool → Prop} {t : Trie V}
  {learned : KMap (List Bool) Nat} {clock : Nat}

section

variable (h : Live expiry len S t learned clock)
include h

lemma Live.lookup_covered (hc : Covers S key) : ∃ v, lookup t key = some v ∧ expiry v = 0 := by
  obtain ⟨q, hq, hqk⟩ := hc
  obtain ⟨v0, hv0, -⟩ := h.stored q hq
  obtain ⟨v, hv⟩ := lookup_isSome_of_stored hqk hv0
  refine ⟨v, hv, ?_⟩
  by_contra hne
  obtain ⟨p, hp, hpv, hmax⟩ := lookup_eq_some_iff.1 hv
  -- the prefix found is at least as long as the permanent one, so it is covered by it
  have hlen : q.length ≤ p.length := by
    by_contra hlt
    rw [hmax q hqk (not_le.1 hlt)] at hv0
    cases hv0
  exact (h.temp p v hpv hne).2.2 ⟨q, hq, prefix_of_prefix_length_le hqk hp hlen⟩

lemma Live.lookup_not_covered {v : V}
    (hlen : key.length = len) (hc : ¬ Covers S key) (hv : lookup t key = some v) :
    learned key = some (expiry v) ∧ expiry v ≠ 0 := by
  obtain ⟨p, hp, hpv, -⟩ := lookup_eq_some_iff.1 hv
  by_cases h0 : expiry v = 0
  · exact absurd ((h.perm p v hpv h0).mono hp) hc
  obtain ⟨hpl, hl, -⟩ := h.temp p v hpv h0
  rw [← prefix_unique hp prefix_rfl (hpl.trans hlen.symm)]
  exact ⟨hl, h0⟩

/-- **What a trie answers**: a key is alive exactly if a permanent prefix covers it, or it was
learned and has not expired. -/
theorem Live.alive_iff {key : List Bool} {now : Nat}
    (hlen : key.length = len) (hnow : clock ≤ now) :
    (∃ v, lookup t key = some v ∧ (expiry v = 0 ∨ now < expiry v)) ↔
      Covers S key ∨ ∃ e, learned key = some e ∧ now < e := by
  constructor
  · rintro ⟨v, hv, halive⟩
    by_cases hc : Covers S key
    · exact .inl hc
    · obtain ⟨hl, hne⟩ := h.lookup_not_covered hlen hc hv
      exact .inr ⟨_, hl, halive.resolve_left hne⟩
  rintro (hc | ⟨e, he, hlt⟩)
  · obtain ⟨v, hv, h0⟩ := h.lookup_covered hc
    exact ⟨v, hv, .inl h0⟩
  by_cases hc : Covers S key
  · obtain ⟨v, hv, h0⟩ := h.lookup_covered hc
    exact ⟨v, hv, .inl h0⟩
  · obtain ⟨v, hv, hve⟩ := h.kept key e he (lt_of_le_of_lt hnow hlt) hc
    exact ⟨v, lookup_of_stored hv, .inr (hve ▸ hlt)⟩

end

lemma Live.init (hperm : ∀ p v, t p = some v → expiry v = 0 ∧ S p)
    (hstored : ∀ p, S p → ∃ v, t p = some v) (clock : Nat) :
    Live expiry len S t KMap.empty clock where
  perm p v hv _ := ⟨p, (hperm p v hv).2, prefix_rfl⟩
  temp p v hv hne := absurd (hperm p v hv).1 hne
  stored p hp :=
    let ⟨v, hv⟩ := hstored p hp
    ⟨v, hv, (hperm p v hv).1⟩
  kept key e he := by cases he

section

variable (h : Live expiry len S t learned clock)
include h

lemma Live.learn {e : Nat} {v : V} (hlen : key.length = len) (he : e ≠ 0)
    (hv : expiry v = if (lookup t key).any (fun old => expiry old == 0) then 0 else e) :
    Live expiry len S (t.set key v) (learned.set key e) clock := by
  -- the new value is permanent exactly if the key is covered
  have hcov : Covers S key → expiry v = 0 := by
    intro hc
    obtain ⟨old, hold, h0⟩ := h.lookup_covered hc
    simp [hv, hold, h0]
  have hunc : ¬ Covers S key → expiry v = e := by
    intro hc
    rw [hv]
    cases hold : lookup t key with
    | none => rfl
    | some old =>
      have hne := (h.lookup_not_covered hlen hc hold).2
      simp [hne]
  refine ⟨fun p w hw h0 => ?_, fun p w hw hne => ?_, fun p hp => ?_, fun k e' he' hlt hc => ?_⟩
  · obtain ⟨rfl, rfl⟩ | ⟨-, hw⟩ := KMap.set_eq_some.1 hw
    · by_contra hc
      exact he ((hunc hc).symm.trans h0)
    · exact h.perm p w hw h0
  · obtain ⟨rfl, rfl⟩ | ⟨hpk, hw⟩ := KMap.set_eq_some.1 hw
    · have hc : ¬ Covers S p := fun hc => hne (hcov hc)
      exact ⟨hlen, by rw [KMap.set_self, hunc hc], hc⟩
    · rw [KMap.set_ne _ _ hpk]
      exact h.temp p w hw hne
  · by_cases hpk : p = key
    · subst hpk
      exact ⟨v, KMap.set_self _ _ _, hcov ⟨p, hp, prefix_rfl⟩⟩
    · rw [KMap.set_ne _ _ hpk]
      exact h.stored p hp
  · obtain ⟨rfl, rfl⟩ | ⟨hne, he'⟩ := KMap.set_eq_some.1 he'
    · exact ⟨v, KMap.set_self _ _ _, hunc hc⟩
    · rw [KMap.set_ne _ _ hne]
      exact h.kept k e' he' hlt hc

lemma Live.reap {alive : List Bool → V → Bool}
    (halive : ∀ p v, alive p v = true ↔ expiry v = 0 ∨ clock < expiry v) :
    Live expiry len S (t.keep alive) learned clock where
  perm p v hv := h.perm p v (KMap.keep_eq_some.1 hv).1
  temp p v hv := h.temp p v (KMap.keep_eq_some.1 hv).1
  stored p hp := by
    obtain ⟨v, hv, h0⟩ := h.stored p hp
    exact ⟨v, KMap.keep_eq_some.2 ⟨hv, (halive p v).2 (.inl h0)⟩, h0⟩
  kept key e he hlt hc := by
    obtain ⟨v, hv, hve⟩ := h.kept key e he hlt hc
    exact ⟨v, KMap.keep_eq_some.2 ⟨hv, (halive key v).2 (.inr (hve ▸ hlt))⟩, hve⟩

lemma Live.advance {clock' : Nat} (hle : clock ≤ clock') : Live expiry len S t learned clock' :=
  ⟨h.perm, h.temp, h.stored, fun key e he hlt hc => h.kept key e he (lt_of_le_of_lt hle hlt) hc⟩

end

end

end Expiry

end Lpm

end CubeSandbox
