import CubeSandbox.Lpm

/-!
Tries of flags that are built one entry after another, where an entry takes over the flag that
the lookup of its own key finds.

The lookup may find the entry of a shorter key. So an entry below one with the flag gets the
flag if it comes later and not if it comes earlier. Entries come from two lists: a plain one,
and one that gives the flag; the keys of the plain list come first, each once.
-/

namespace CubeSandbox.Lpm

open List
open KMap (set_ne set_self)

lemma lookup_map {V W : Type} (f : V → W) (t : Trie V) (key : List Bool) :
    lookup (fun p => (t p).map f) key = (lookup t key).map f := by
  induction key generalizing t with
  | nil => rfl
  | cons b bs ih =>
    rw [lookup_cons, lookup_cons, ih]
    cases lookup (fun p => t (b :: p)) bs <;> rfl

def inherit (t : Trie Bool) (e : List Bool × Bool) : Trie Bool :=
  t.set e.1 (e.2 || (lookup t e.1).getD false)

def grow (t : Trie Bool) (es : List (List Bool × Bool)) : Trie Bool := es.foldl inherit t

variable (es : List (List Bool × Bool))

section
variable {t : Trie Bool} {p : List Bool}

@[simp] lemma grow_nil : grow t [] = t := rfl

@[simp] lemma grow_cons (e : List Bool × Bool) (es : List (List Bool × Bool)) :
    grow t (e :: es) = grow (inherit t e) es := rfl

lemma grow_append (fs : List (List Bool × Bool)) :
    grow t (es ++ fs) = grow (grow t es) fs := foldl_append

lemma grow_isSome : (grow t es p).isSome ↔ (t p).isSome ∨ ∃ e ∈ es, e.1 = p := by
  induction es generalizing t with
  | nil => simp
  | cons e es ih =>
    rw [grow_cons, ih, inherit, exists_mem_cons_iff]
    by_cases hp : p = e.1
    · subst hp
      simp
    · rw [set_ne _ _ hp]
      simp [Ne.symm hp]

lemma grow_true (h : t p = some true) : grow t es p = some true := by
  induction es generalizing t with
  | nil => exact h
  | cons e es ih =>
    refine ih ?_
    by_cases hp : p = e.1
    · subst hp
      rw [inherit, set_self, lookup_of_stored h]
      simp
    · rw [inherit, set_ne _ _ hp, h]

lemma grow_false (h : t p = some false) (hes : ∀ e ∈ es, e.1 = p → e.2 = false) :
    grow t es p = some false := by
  induction es generalizing t with
  | nil => exact h
  | cons e es ih =>
    refine ih ?_ fun e' he' => hes e' (mem_cons_of_mem _ he')
    by_cases hp : p = e.1
    · subst hp
      rw [inherit, set_self, lookup_of_stored h, hes e mem_cons_self rfl]
      rfl
    · rw [inherit, set_ne _ _ hp, h]

lemma grow_of_mem {es : List (List Bool × Bool)} (h : (p, true) ∈ es) :
    grow t es p = some true := by
  obtain ⟨as, bs, rfl⟩ := append_of_mem h
  rw [grow_append, grow_cons]
  refine grow_true bs ?_
  rw [inherit, set_self]
  rfl

lemma grow_unflagged {es : List (List Bool × Bool)} {key : List Bool}
    (ht : ∀ q, q <+: key → t q ≠ some true) (hes : ∀ e ∈ es, e.1 <+: key → e.2 = false) :
    ∀ q, q <+: key → grow t es q ≠ some true := by
  induction es generalizing t with
  | nil => exact ht
  | cons e es ih =>
    refine ih (fun q hq => ?_) fun e' he' => hes e' (mem_cons_of_mem _ he')
    by_cases hqe : q = e.1
    · subst hqe
      rw [inherit, set_self, hes e mem_cons_self hq, Bool.false_or]
      intro htrue
      cases hl : lookup t e.1 with
      | none => simp [hl] at htrue
      | some v =>
        obtain ⟨r, hr, hv, -⟩ := lookup_eq_some_iff.1 hl
        rw [hl] at htrue
        obtain rfl : v = true := by simpa using htrue
        exact ht r (hr.trans hq) hv
    · rw [inherit, set_ne _ _ hqe]
      exact ht q hq

end

variable {K : Type} (bitsOf : K → List Bool)

/-- An entry of one list is the longest one that covers a key. -/
structure Nearest (entries : List K) (key : List Bool) (e : K) : Prop where
  mem : e ∈ entries
  covers : bitsOf e <+: key
  longest : ∀ g ∈ entries, bitsOf g <+: key → (bitsOf g).length ≤ (bitsOf e).length

/-- If the nearest entry does not give the flag, no entry that covers the key is in both lists. -/
def Settled (plain flagged : List K) (key : List Bool) : Prop :=
  ∀ e, Nearest bitsOf (plain ++ flagged) key e → (∀ f ∈ flagged, bitsOf f ≠ bitsOf e) →
    ∀ g ∈ plain, g ∈ flagged → ¬ bitsOf g <+: key

/-- The entries of the two lists, each key once. -/
def listed [DecidableEq K] (plain flagged : List K) : List (List Bool × Bool) :=
  (plain ++ flagged).eraseDups.map fun k => (bitsOf k, decide (k ∈ flagged))

variable {bitsOf} {plain flagged : List K} {key : List Bool}

lemma Nearest.congr {entries entries' : List K} (h : ∀ k, k ∈ entries ↔ k ∈ entries') {e : K} :
    Nearest bitsOf entries key e ↔ Nearest bitsOf entries' key e :=
  ⟨fun ⟨hm, hc, hl⟩ => ⟨(h e).1 hm, hc, fun g hg => hl g ((h g).2 hg)⟩,
    fun ⟨hm, hc, hl⟩ => ⟨(h e).2 hm, hc, fun g hg => hl g ((h g).1 hg)⟩⟩

variable [DecidableEq K]

lemma listed_mem {x : List Bool × Bool} : x ∈ listed bitsOf plain flagged ↔
      ∃ k ∈ plain ++ flagged, x = (bitsOf k, decide (k ∈ flagged)) := by
  simp only [listed, mem_map, mem_eraseDups]
  exact exists_congr fun k => and_congr_right fun _ => eq_comm

lemma grow_listed_isSome {p : List Bool} : (grow .empty (listed bitsOf plain flagged) p).isSome ↔
      ∃ k ∈ plain ++ flagged, bitsOf k = p := by
  rw [grow_isSome]
  simp only [KMap.empty_apply, Option.isSome_none, Bool.false_eq_true, false_or, listed_mem]
  constructor
  · rintro ⟨_, ⟨k, hk, rfl⟩, hp⟩
    exact ⟨k, hk, hp⟩
  · rintro ⟨k, hk, hp⟩
    exact ⟨_, ⟨k, hk, rfl⟩, hp⟩

lemma lookup_grow_listed {b : Bool} :
    lookup (grow .empty (listed bitsOf plain flagged)) key = some b ↔
      ∃ e, Nearest bitsOf (plain ++ flagged) key e ∧
        grow .empty (listed bitsOf plain flagged) (bitsOf e) = some b := by
  rw [lookup_eq_some_iff]
  constructor
  · rintro ⟨p, hp, hv, hmax⟩
    obtain ⟨e, he, rfl⟩ := grow_listed_isSome.1 (Option.isSome_iff_exists.2 ⟨b, hv⟩)
    refine ⟨e, ⟨he, hp, fun g hg hgk => ?_⟩, hv⟩
    by_contra hlt
    have hsome : (grow .empty (listed bitsOf plain flagged) (bitsOf g)).isSome :=
      grow_listed_isSome.2 ⟨g, hg, rfl⟩
    rw [hmax _ hgk (not_le.1 hlt)] at hsome
    cases hsome
  · rintro ⟨e, he, hv⟩
    refine ⟨bitsOf e, he.covers, hv, fun q hq hlt => ?_⟩
    by_contra hne
    obtain ⟨g, hg, rfl⟩ := grow_listed_isSome.1 (Option.isSome_iff_ne_none.2 hne)
    exact absurd (he.longest g hg hq) (not_le.2 hlt)

/-- The nearest entry has the flag if its key is in the list that gives it; if not, and nothing that
covers the key is in both lists, it has none. -/
lemma grow_nearest (hset : Settled bitsOf plain flagged key) {e : K}
    (he : Nearest bitsOf (plain ++ flagged) key e) :
    grow .empty (listed bitsOf plain flagged) (bitsOf e) =
      some (decide (∃ f ∈ flagged, bitsOf f = bitsOf e)) := by
  by_cases hflag : ∃ f ∈ flagged, bitsOf f = bitsOf e
  · obtain ⟨f, hf, hfe⟩ := hflag
    rw [decide_eq_true ⟨f, hf, hfe⟩]
    refine grow_of_mem (listed_mem.2 ⟨f, mem_append_right _ hf, ?_⟩)
    rw [hfe, decide_eq_true hf]
  rw [decide_eq_false hflag]
  push Not at hflag
  have hboth := hset e he hflag
  -- the entries of the plain list come first, and none that covers the key has the flag
  let first := plain.eraseDups.map fun k => (bitsOf k, decide (k ∈ flagged))
  have hsplit : listed bitsOf plain flagged = first ++
      ((flagged.removeAll plain).eraseDups).map fun k => (bitsOf k, decide (k ∈ flagged)) := by
    rw [listed, eraseDups_append, map_append]
  have hfirst : ∀ x ∈ first, x.1 <+: key → x.2 = false := by
    intro x hx hxk
    obtain ⟨g, hg, rfl⟩ := mem_map.1 hx
    exact decide_eq_false fun hgf => hboth g (mem_eraseDups.1 hg) hgf hxk
  rw [hsplit, grow_append]
  refine grow_false _ ?_ ?_
  · have hmem : e ∈ plain :=
      (mem_append.1 he.mem).resolve_right fun h => hflag e h rfl
    have hsome : (grow .empty first (bitsOf e)).isSome :=
      (grow_isSome first).2
        (.inr ⟨_, mem_map_of_mem (mem_eraseDups.2 hmem), rfl⟩)
    obtain ⟨b, hb⟩ := Option.isSome_iff_exists.1 hsome
    cases b with
    | false => exact hb
    | true => exact absurd hb (grow_unflagged (by simp) hfirst (bitsOf e) he.covers)
  · intro x hx hxe
    obtain ⟨f, hf, rfl⟩ := mem_map.1 hx
    exact decide_eq_false fun hff => hflag f hff hxe

/-- **Where a key is settled, the order of the two lists does not matter.** -/
theorem lookup_order_free {plain' flagged' : List K} (hp : ∀ k, k ∈ plain' ↔ k ∈ plain)
    (hf : ∀ k, k ∈ flagged' ↔ k ∈ flagged) (hset : Settled bitsOf plain flagged key) :
    lookup (grow .empty (listed bitsOf plain' flagged')) key =
      lookup (grow .empty (listed bitsOf plain flagged)) key := by
  have hmem : ∀ k, k ∈ plain' ++ flagged' ↔ k ∈ plain ++ flagged := by
    simp [hp, hf]
  have hset' : Settled bitsOf plain' flagged' key := by
    intro e he hno g hg hgf
    exact hset e ((Nearest.congr hmem).1 he) (fun f hff => hno f ((hf f).2 hff)) g ((hp g).1 hg)
      ((hf g).1 hgf)
  apply Option.ext
  intro b
  rw [lookup_grow_listed, lookup_grow_listed]
  refine exists_congr fun e => ?_
  rw [Nearest.congr hmem]
  refine and_congr_right fun he => ?_
  rw [grow_nearest hset he, grow_nearest hset' ((Nearest.congr hmem).2 he)]
  simp only [hf]

/-- **Where a key is not settled, its flag depends on which entry is put first.** -/
theorem lookup_order_dependent (h : ¬ Settled bitsOf plain flagged key) : ∃ e ∈ plain, ∃ g ∈ plain,
      lookup (grow .empty (listed bitsOf (e :: plain) flagged)) key = some false ∧
      lookup (grow .empty (listed bitsOf (g :: e :: plain) flagged)) key = some true := by
  simp only [Settled, not_forall, not_not] at h
  obtain ⟨e, he, hno, g, hg, hgf, hgk⟩ := h
  have hef : e ∉ flagged := fun hef => hno e hef rfl
  have hep : e ∈ plain := (mem_append.1 he.mem).resolve_right hef
  have hge : bitsOf g <+: bitsOf e :=
    prefix_of_prefix_length_le hgk he.covers (he.longest g (mem_append_left _ hg) hgk)
  have hne : e ≠ g := fun h => hef (h ▸ hgf)
  have hmem1 : ∀ k, k ∈ (e :: plain) ++ flagged ↔ k ∈ plain ++ flagged := by
    intro k
    simp only [mem_append, mem_cons]
    constructor
    · rintro ((rfl | h) | h)
      exacts [.inl hep, .inl h, .inr h]
    · rintro (h | h)
      exacts [.inl (.inr h), .inr h]
  have hmem2 : ∀ k, k ∈ (g :: e :: plain) ++ flagged ↔ k ∈ plain ++ flagged := by
    intro k
    rw [cons_append, mem_cons, hmem1]
    exact ⟨fun h => h.elim (fun h => h ▸ mem_append_left _ hg) id, .inr⟩
  refine ⟨e, hep, g, hg, ?_, ?_⟩
  · refine lookup_grow_listed.2 ⟨e, (Nearest.congr hmem1).2 he, ?_⟩
    rw [listed, cons_append, eraseDups_cons, map_cons, grow_cons]
    refine grow_false _ ?_ ?_
    · rw [inherit, set_self, lookup_eq_none_iff.2 (by simp), decide_eq_false hef]
      rfl
    intro x hx hxe
    obtain ⟨f, -, rfl⟩ := mem_map.1 hx
    exact decide_eq_false fun hff => hno f hff hxe
  refine lookup_grow_listed.2 ⟨e, (Nearest.congr hmem2).2 he, ?_⟩
  rw [listed, cons_append, cons_append, eraseDups_cons,
    filter_cons_of_pos (by simpa using hne), eraseDups_cons, map_cons,
    map_cons, grow_cons, grow_cons]
  refine grow_true _ ?_
  have hfirst : inherit .empty (bitsOf g, decide (g ∈ flagged)) =
      KMap.empty.set (bitsOf g) true := by
    rw [inherit, decide_eq_true hgf]
    rfl
  have hfound : lookup (KMap.empty.set (bitsOf g) true) (bitsOf e) = some true := by
    refine lookup_eq_some_iff.2 ⟨bitsOf g, hge, set_self _ _ _, fun q _ hlt => ?_⟩
    rw [set_ne _ _ (by rintro rfl; omega)]
    rfl
  rw [hfirst, inherit, set_self, hfound]
  simp

end CubeSandbox.Lpm
