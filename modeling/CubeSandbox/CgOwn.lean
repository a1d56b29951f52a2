import CubeSandbox.CgModel

/-!
Who owns a cgroup.

A number that is allocated is owned by a row, by the dirty set or by a creation that has not
written its row yet, and by one of them only. Whoever cleans, releases or deletes a cgroup has
the right to do so from its owner, and a cgroup that was used is owned until it is clean.
-/

namespace CubeSandbox.Cgroup

open GoText Conc Option
open Multiset (filterMap_cons_some countP_cons filterMap_cons_none mem_cons_of_mem)
open List hiding filterMap_cons_some countP_cons filterMap_cons_none mem_cons_of_mem

variable {a : Alloc} {x : CgId} {groups : List CgId}

namespace Alloc

/-- The numbers in use are in the range, which fits into 16 bits. -/
structure Ok (a : Alloc) : Prop where
  upper : a.upper < 2 ^ 16
  store : ∀ x ∈ a.store, x ≤ a.upper

lemma ok_new (size : Nat) : (new size).Ok :=
  ⟨Nat.mod_lt _ (by decide), fun _ hx => absurd hx (not_mem_nil)⟩

lemma assign_eq_some {a' : Alloc} {id : Nat} (h : a.assign id = some a') :
    id ≤ a.upper ∧ id ∉ a.store ∧ a' = { a with store := id :: a.store } := by
  unfold assign at h
  split_ifs at h with h1 h2
  refine ⟨?_, h2, (some.inj h).symm⟩
  simpa [contains] using h1

lemma Ok.push (h : a.Ok) {id : Nat} (hid : id ≤ a.upper) :
    Ok { a with store := id :: a.store } := by
  refine ⟨h.upper, fun x hx => ?_⟩
  rcases mem_cons.1 hx with rfl | hx
  · exact hid
  · exact h.store x hx

lemma Ok.release (h : a.Ok) (id : Nat) : (a.release id).Ok :=
  ⟨h.upper, fun x hx => h.store x (mem_of_mem_filter hx)⟩

/-- An allocation takes a number that is not in use, or none; the range stays or grows. -/
structure Takes (a a' : Alloc) (id : Option Nat) : Prop where
  upper : a.upper ≤ a'.upper
  fresh : ∀ x ∈ id, x ∉ a.store ∧ x ≤ a'.upper
  store : a'.store = id.toList ++ a.store
  bound : a'.upper < 2 ^ 16

lemma search_spec (h : a.Ok) (start : Option Nat) (fuel c : Nat) :
    Takes a (a.search start fuel c).2 (a.search start fuel c).1 ∧
      (a.search start fuel c).2.upper = a.upper := by
  induction fuel generalizing c with
  | zero => exact ⟨⟨le_refl _, by simp [search], rfl, h.upper⟩, rfl⟩
  | succ fuel ih =>
    unfold search
    split
    · rename_i a' ha'
      obtain ⟨hc, hfree, rfl⟩ := assign_eq_some ha'
      refine ⟨⟨le_refl _, ?_, rfl, h.upper⟩, rfl⟩
      intro x hx
      cases hx
      exact ⟨hfree, hc⟩
    · split
      · exact ⟨⟨le_refl _, by simp, rfl, h.upper⟩, rfl⟩
      · exact ih _

lemma allocateIn_spec (h : a.Ok) :
    Takes a a.allocateIn.2 a.allocateIn.1 ∧ a.allocateIn.2.upper = a.upper := by
  unfold allocateIn
  split
  · exact ⟨⟨le_refl _, by simp, rfl, h.upper⟩, rfl⟩
  · exact search_spec h _ _ _

lemma Takes.ok {a' : Alloc} {id : Option Nat} (h : Takes a a' id) (ha : a.Ok) : a'.Ok := by
  refine ⟨h.bound, fun x hx => ?_⟩
  rw [h.store] at hx
  rcases mem_append.1 hx with hx | hx
  · exact (h.fresh x (by simpa using hx)).2
  · exact (ha.store x hx).trans h.upper

lemma allocate_spec (h : a.Ok) : Takes a a.allocate.2 a.allocate.1 ∧
      (a.allocateIn.1 ≠ none → a.allocate.2.upper = a.upper) := by
  have hin := allocateIn_spec h
  have hok := hin.1.ok h
  unfold allocate
  split
  · rename_i id a' heq
    rw [heq] at hin
    exact ⟨hin.1, fun _ => hin.2⟩
  rename_i a' heq
  rw [heq] at hin hok
  rw [heq]
  refine ⟨?_, fun hne => absurd rfl hne⟩
  have hstore : a'.store = a.store := hin.1.store
  split
  · exact hin.1
  rename_i a'' hexp
  unfold expand at hexp
  split_ifs at hexp with hmax
  cases hexp
  have hlarge : Ok { a' with upper := a'.upper + 1 } := by
    have hbound : a'.upper < 2 ^ 16 := hok.upper
    refine ⟨?_, fun x hx => (hok.store x hx).trans (Nat.le_succ _)⟩
    change a'.upper + 1 < 2 ^ 16
    omega
  have hagain := (allocateIn_spec hlarge).1
  refine ⟨?_, fun x hx => ?_, ?_, hagain.bound⟩
  · exact hin.1.upper.trans ((Nat.le_succ _).trans hagain.upper)
  · obtain ⟨hfree, hle⟩ := hagain.fresh x hx
    exact ⟨fun hmem => hfree (hstore ▸ hmem), hle⟩
  · rw [hagain.store, hstore]

end Alloc

section Pools

variable {w : World}

lemma poolOf_full {x : Nat} (hx : x < 2 ^ 16) (v2 : Bool) (numa : Nat) :
    poolOf (makeFullCgID x v2 numa) = poolIndex v2 numa ∧ shortOf (makeFullCgID x v2 numa) = x := by
  unfold poolOf shortOf makeFullCgID cgPoolIdLimit
  constructor
  · omega
  · omega

lemma eq_of_place {y : CgId} (hp : poolOf x = poolOf y) (hs : shortOf x = shortOf y) : x = y := by
  unfold poolOf shortOf at *
  rw [← Nat.div_add_mod x cgPoolIdLimit, ← Nat.div_add_mod y cgPoolIdLimit, hp, hs]

def World.PoolsOk (w : World) : Prop := ∀ a ∈ w.pools, a.Ok

lemma World.PoolsOk.inRange (h : w.PoolsOk) {id : CgId} (ha : w.allocated id) :
    w.inRange id = true := by
  obtain ⟨a, ha, hmem⟩ := ha
  have hok := h a (mem_of_getElem? ha)
  simpa [World.inRange, ha, Alloc.contains] using hok.store _ hmem

lemma allocated_release (w : World) (id x : CgId) :
    (w.allocatorRelease id).allocated x ↔ w.allocated x ∧ x ≠ id := by
  unfold World.allocated World.allocatorRelease
  rw [getElem?_modify]
  constructor
  · rintro ⟨a, ha, hmem⟩
    obtain ⟨b, hb, rfl⟩ := map_eq_some_iff.1 ha
    split at hmem
    · obtain ⟨hmem, hne⟩ := mem_filter.1 hmem
      refine ⟨⟨b, hb, hmem⟩, ?_⟩
      rintro rfl
      simp at hne
    rename_i hp
    refine ⟨⟨b, hb, hmem⟩, ?_⟩
    rintro rfl
    exact hp rfl
  · rintro ⟨⟨b, hb, hmem⟩, hne⟩
    refine ⟨if poolOf id = poolOf x then b.release (shortOf id) else b, by rw [hb]; rfl, ?_⟩
    by_cases hp : poolOf id = poolOf x
    · rw [if_pos hp]
      refine mem_filter.2 ⟨hmem, ?_⟩
      simpa using fun hs => hne (eq_of_place hp.symm hs)
    · rwa [if_neg hp]

lemma World.PoolsOk.release (h : w.PoolsOk) (id : CgId) : (w.allocatorRelease id).PoolsOk := by
  intro a ha
  obtain ⟨i, hi⟩ := mem_iff_getElem?.1 ha
  unfold World.allocatorRelease at hi
  rw [getElem?_modify] at hi
  obtain ⟨b, hb, rfl⟩ := map_eq_some_iff.1 hi
  have hok := h b (mem_of_getElem? hb)
  by_cases hp : poolOf id = i
  · rw [if_pos hp]
    exact hok.release _
  · rwa [if_neg hp]

lemma inRange_release (w : World) (id x : CgId) :
    (w.allocatorRelease id).inRange x = w.inRange x := by
  unfold World.inRange World.allocatorRelease
  rw [getElem?_modify]
  cases w.pools[poolOf x]? with
  | none => rfl
  | some a =>
    by_cases hp : poolOf id = poolOf x
    · simp only [if_pos hp]
      rfl
    · simp only [if_neg hp]
      rfl

end Pools

/-- How far an operation on a sandbox has come. -/
inductive OpSt
  | creating
  | holding (id : CgId)
  /-- The row is written. -/
  | named (id : CgId)
  | ended
  | destroying
  | taken (id : CgId)
  | cleaned (id : CgId)
  /-- The cgroup is put back. -/
  | closing

/-- An operation on a sandbox, or a tidy pass with what it still has to put back and to delete. -/
inductive Tok
  | op (sid : Sid) (st : OpSt)
  | sweep (wiped : Option CgId) (work toDelete : List CgId)

namespace Tok

def sid : Tok → Option Sid
  | op s _ => some s
  | sweep .. => none

def isSweep : Tok → Bool
  | op .. => false
  | sweep .. => true

/-- The cgroup that a creation holds before its row is written. -/
def held : Tok → Option CgId
  | op _ (.holding id) => some id
  | _ => none

/-- The cgroup that is known to be clean. -/
def spotless : Tok → Option CgId
  | op _ (.named id) | op _ (.cleaned id) => some id
  | sweep wiped _ _ => wiped
  | _ => none

end Tok

/-- The row of a sandbox owns its cgroup until a destruction has put it back. -/
def World.Owns (w : World) (s : Sid) (id : CgId) : Prop :=
  w.rows.get s = some id ∧ s ∉ w.released

def World.NotLive (w : World) (s : Sid) : Prop := ∀ id, (s, id) ∉ w.live

/-- Only a creation that has no row yet owns the cgroup. -/
structure World.Held (w : World) (id : CgId) : Prop where
  alloc : w.allocated id
  dirty : id ∉ w.dirtySet
  row : ∀ s, ¬ w.Owns s id

def Tok.Ok (w : World) : Tok → Prop
  | op s .creating => w.rows.get s = none
  | op s (.holding id) => w.rows.get s = none ∧ w.Held id
  | op s (.named id) => w.Owns s id ∧ id ∉ w.soiled
  | op _ .ended => True
  | op s .destroying => w.NotLive s
  | op s (.taken id) => w.NotLive s ∧ w.Owns s id
  | op s (.cleaned id) => w.NotLive s ∧ w.Owns s id ∧ id ∉ w.soiled
  | op s .closing => w.NotLive s ∧ s ∈ w.released
  | sweep wiped work toDelete =>
    (∀ x ∈ wiped, x ∈ w.dirtySet ∧ x ∉ w.soiled ∧ x ∉ work) ∧ (∀ x ∈ work, x ∈ w.dirtySet) ∧
      ∀ x ∈ toDelete, w.inRange x = false

structure Core (w : World) : Prop where
  pools : w.PoolsOk
  rowInj : ∀ s s' id, w.Owns s id → w.Owns s' id → s = s'
  rowDirty : ∀ s id, w.Owns s id → id ∉ w.dirtySet
  rowAlloc : ∀ s id, w.Owns s id → w.allocated id
  dirtyAlloc : ∀ id ∈ w.dirtySet, w.allocated id
  live : ∀ s id, (s, id) ∈ w.live → w.Owns s id
  soiled : ∀ id ∈ w.soiled, (∃ s, w.Owns s id) ∨ id ∈ w.dirtySet
  groups : w.groups.Nodup
  harmed : w.harmed = []
  stale : w.stale = []

/-- Each sandbox has one operation, and one tidy pass runs. -/
structure Inv (w : World) (R : Multiset Tok) : Prop where
  core : Core w
  ops : R.filterMap Tok.sid = w.busy
  busy : w.busy.Nodup
  sweeps : R.countP (fun t => t.isSweep = true) ≤ if w.tidying then 1 else 0
  toks : ∀ t ∈ R, t.Ok w
  once : ∀ s s' id, Tok.op s (.holding id) ∈ R → Tok.op s' (.holding id) ∈ R → s = s'
  released : ∀ s ∈ w.released, Tok.op s .closing ∈ R

section Frames

variable {w w' : World} {R F : Multiset Tok} {t t' u : Tok}

lemma Tok.Ok.frame (hu : u.Ok w) (hrow : ∀ s ∈ u.sid, w'.rows.get s = w.rows.get s)
    (hrel : ∀ s ∈ u.sid, s ∈ w'.released ↔ s ∈ w.released)
    (hlive : ∀ s ∈ u.sid, ∀ id, (s, id) ∈ w'.live → (s, id) ∈ w.live)
    (hclean : ∀ id ∈ u.spotless, id ∉ w.soiled → id ∉ w'.soiled)
    (hheld : ∀ id ∈ u.held, w.Held id → w'.Held id)
    (hdirty : u.isSweep = true → ∀ x ∈ w.dirtySet, x ∈ w'.dirtySet)
    (hrange : u.isSweep = true → ∀ x, w.inRange x = false → w'.inRange x = false) : u.Ok w' := by
  have howns (s : Sid) (hs : s ∈ u.sid) (id : CgId) (h : w.Owns s id) : w'.Owns s id :=
    ⟨(hrow s hs).trans h.1, fun hmem => h.2 ((hrel s hs).1 hmem)⟩
  have hdead (s : Sid) (hs : s ∈ u.sid) (h : w.NotLive s) : w'.NotLive s :=
    fun id hmem => h id (hlive s hs id hmem)
  cases u with
  | op s st =>
    cases st with
    | creating => exact (hrow s rfl).trans hu
    | holding id => exact ⟨(hrow s rfl).trans hu.1, hheld id rfl hu.2⟩
    | named id => exact ⟨howns s rfl id hu.1, hclean id rfl hu.2⟩
    | ended => trivial
    | destroying => exact hdead s rfl hu
    | taken id => exact ⟨hdead s rfl hu.1, howns s rfl id hu.2⟩
    | cleaned id => exact ⟨hdead s rfl hu.1, howns s rfl id hu.2.1, hclean id rfl hu.2.2⟩
    | closing => exact ⟨hdead s rfl hu.1, (hrel s rfl).2 hu.2⟩
  | sweep c L D =>
    obtain ⟨hc, hL, hD⟩ := hu
    exact ⟨fun x hx => ⟨hdirty rfl x (hc x hx).1, hclean x hx (hc x hx).2.1, (hc x hx).2.2⟩,
      fun x hx => hdirty rfl x (hL x hx), fun x hx => hrange rfl x (hD x hx)⟩

lemma Tok.Ok.same (hu : u.Ok w) (hrows : w'.rows = w.rows) (hrel : w'.released = w.released)
    (hpools : w'.pools = w.pools) (hdirty : w'.dirtySet = w.dirtySet)
    (hlive : ∀ e ∈ w'.live, e ∈ w.live) (hsoiled : ∀ x ∈ w'.soiled, x ∈ w.soiled) : u.Ok w' := by
  refine hu.frame (fun _ _ => by rw [hrows]) (fun _ _ => by rw [hrel]) (fun s _ id => hlive (s, id))
    (fun x _ hc hmem => hc (hsoiled x hmem)) (fun id _ hheld => ?_) (fun _ x hx => hdirty ▸ hx)
    fun _ x hx => by rwa [World.inRange, hpools]
  refine ⟨by rw [World.allocated, hpools]; exact hheld.alloc, hdirty ▸ hheld.dirty,
    fun s hown => ?_⟩
  exact hheld.row s ⟨hrows ▸ hown.1, hrel ▸ hown.2⟩

section

variable (h : Inv w (t ::ₘ F))
include h

lemma Inv.sid_ne {s : Sid} (ht : t.sid = some s) (hu : u ∈ F) : u.sid ≠ some s := by
  intro hus
  have hnd := h.busy
  rw [← Multiset.coe_nodup, ← h.ops, filterMap_cons_some _ _ _ ht, Multiset.nodup_cons] at hnd
  exact hnd.1 ((Multiset.mem_filterMap _ _).2 ⟨u, hu, hus⟩)

lemma Inv.alone (ht : t.isSweep = true) (hu : u ∈ F) : u.isSweep = false := by
  rw [Bool.eq_false_iff]
  intro hus
  have hone := h.sweeps
  rw [countP_cons, if_pos ht] at hone
  have hpos : 0 < F.countP (fun t => t.isSweep = true) := Multiset.countP_pos.2 ⟨u, hu, hus⟩
  split_ifs at hone <;> omega

lemma Inv.ok : t.Ok w := h.toks t (Multiset.mem_cons_self t F)

lemma Inv.step (hcore : Core w') (hsid : t'.sid = t.sid)
    (hsweep : t'.isSweep = t.isSweep) (hbusy : w'.busy = w.busy)
    (htidy : w'.tidying = w.tidying) (hothers : ∀ u ∈ F, u.Ok w') (hok : t'.Ok w')
    (honce : ∀ s id, t' = .op s (.holding id) → t = t' ∨ ∀ s', Tok.op s' (.holding id) ∉ F)
    (hrel : ∀ x ∈ w'.released, (x ∈ w.released ∧ t ≠ .op x .closing) ∨ t' = .op x .closing) :
    Inv w' (t' ::ₘ F) where
  core := hcore
  ops := by
    have hops := h.ops
    rw [hbusy, ← hops]
    cases hs : t.sid with
    | none =>
      rw [filterMap_cons_none _ _ hs, filterMap_cons_none _ _ (hsid.trans hs)]
    | some s =>
      rw [filterMap_cons_some _ _ _ hs, filterMap_cons_some _ _ _ (hsid.trans hs)]
  busy := hbusy ▸ h.busy
  sweeps := by
    have hsw := h.sweeps
    rw [countP_cons] at hsw ⊢
    rwa [hsweep, htidy]
  toks := by
    intro u hu
    rcases Multiset.mem_cons.1 hu with rfl | hu
    · exact hok
    · exact hothers u hu
  once := by
    have hF (s s' : Sid) (id : CgId) (h1 : Tok.op s (.holding id) ∈ F)
        (h2 : Tok.op s' (.holding id) ∈ F) : s = s' :=
      h.once s s' id (mem_cons_of_mem h1) (mem_cons_of_mem h2)
    have hmix (s s' : Sid) (id : CgId) (h1 : Tok.op s (.holding id) = t')
        (h2 : Tok.op s' (.holding id) ∈ F) : s = s' := by
      rcases honce s id h1.symm with heq | hnone
      · refine h.once s s' id ?_ (mem_cons_of_mem h2)
        rw [h1, heq]
        exact Multiset.mem_cons_self _ _
      · exact absurd h2 (hnone s')
    intro s s' id h1 h2
    rcases Multiset.mem_cons.1 h1 with h1 | h1 <;> rcases Multiset.mem_cons.1 h2 with h2 | h2
    · exact (Tok.op.inj (h1.trans h2.symm)).1
    · exact hmix s s' id h1 h2
    · exact (hmix s' s id h2 h1).symm
    · exact hF s s' id h1 h2
  released := by
    intro x hx
    rcases hrel x hx with ⟨hold, hne⟩ | heq
    · refine mem_cons_of_mem ?_
      exact (Multiset.mem_cons.1 (h.released x hold)).resolve_left fun heq => hne heq.symm
    · rw [heq]
      exact Multiset.mem_cons_self _ _

lemma Inv.not_released {s : Sid} (ht : t.sid = some s)
    (hne : t ≠ .op s .closing) : s ∉ w.released := by
  intro hmem
  rcases Multiset.mem_cons.1 (h.released s hmem) with heq | hF
  · exact hne heq.symm
  · exact h.sid_ne ht hF rfl

end

end Frames

section Creates

variable {w : World} {F : Multiset Tok} {s : Sid} {id : CgId}

lemma Inv.unowned {R : Multiset Tok} (h : Inv w R) (hfree : ¬ w.allocated id) :
    id ∉ w.dirtySet ∧ (∀ s, ¬ w.Owns s id) ∧ ∀ s, Tok.op s (.holding id) ∉ R :=
  ⟨fun hmem => hfree (h.core.dirtyAlloc id hmem), fun s hown => hfree (h.core.rowAlloc s id hown),
    fun _ hmem => hfree (h.toks _ hmem).2.alloc⟩

lemma allocateAct_spec (hok : w.PoolsOk) (v2 : Bool) (numa : Nat) :
    (allocateAct w v2 numa).1.PoolsOk ∧
    (∀ x, w.allocated x → (allocateAct w v2 numa).1.allocated x) ∧
    (∀ x ∈ (allocateAct w v2 numa).2, ¬ w.allocated x ∧ (allocateAct w v2 numa).1.allocated x) ∧
    ((∀ a ∈ w.pools[poolIndex v2 numa]?, a.allocateIn.1 ≠ none) →
      ∀ x, (allocateAct w v2 numa).1.inRange x = w.inRange x) := by
  unfold allocateAct
  split
  · exact ⟨hok, fun _ h => h, by simp, fun _ _ => rfl⟩
  rename_i a ha
  obtain ⟨htakes, hsame⟩ := a.allocate_spec (hok a (mem_of_getElem? ha))
  have hlen : poolIndex v2 numa < w.pools.length := (List.getElem?_eq_some_iff.1 ha).1
  have hget (x : CgId) : (w.pools.set (poolIndex v2 numa) a.allocate.2)[poolOf x]? =
      if poolIndex v2 numa = poolOf x then some a.allocate.2 else w.pools[poolOf x]? := by
    rw [getElem?_set]
    split_ifs <;> rfl
  refine ⟨?_, ?_, ?_, ?_⟩
  · intro b hb
    rcases mem_or_eq_of_mem_set hb with hb | rfl
    · exact hok b hb
    · exact htakes.ok (hok a (mem_of_getElem? ha))
  · rintro x ⟨b, hb, hmem⟩
    unfold World.allocated
    simp only [hget]
    by_cases hp : poolIndex v2 numa = poolOf x
    · rw [if_pos hp]
      rw [← hp, ha] at hb
      cases hb
      exact ⟨_, rfl, by rw [htakes.store]; exact mem_append_right _ hmem⟩
    · rw [if_neg hp]
      exact ⟨b, hb, hmem⟩
  · intro x hx
    obtain ⟨n, hn, rfl⟩ := map_eq_some_iff.1 hx
    obtain ⟨hfree, hle⟩ := htakes.fresh n hn
    obtain ⟨hp, hs⟩ := poolOf_full (lt_of_le_of_lt hle htakes.bound) v2 numa
    have hself := hget (makeFullCgID n v2 numa)
    rw [hp, if_pos rfl] at hself
    unfold World.allocated
    rw [hp, hs]
    constructor
    · rintro ⟨b, hb, hmem⟩
      rw [ha] at hb
      cases hb
      exact hfree hmem
    · refine ⟨_, hself, ?_⟩
      rw [htakes.store, hn]
      exact mem_cons_self
  · intro hfull x
    unfold World.inRange
    simp only [hget]
    by_cases hp : poolIndex v2 numa = poolOf x
    · have hupper := hsame (hfull a ha)
      rw [if_pos hp, ← hp, ha]
      simp only [any_some, Alloc.contains, hupper]
    · rw [if_neg hp]

lemma allocateAct_rest (w : World) (v2 : Bool) (numa : Nat) :
    ∃ pools, (allocateAct w v2 numa).1 = { w with pools := pools } := by
  unfold allocateAct
  split
  · exact ⟨_, rfl⟩
  · exact ⟨_, rfl⟩

/-- Where a creation is after an allocation. -/
def OpSt.got : Option CgId → OpSt
  | some id => .holding id
  | none => .creating

lemma Inv.allocate {v2 : Bool} {numa : Nat} (h : Inv w (.op s .creating ::ₘ F))
    (hst : w.tidying = true → ∀ a ∈ w.pools[poolIndex v2 numa]?, a.allocateIn.1 ≠ none) :
    Inv (allocateAct w v2 numa).1 (.op s (.got (allocateAct w v2 numa).2) ::ₘ F) := by
  obtain ⟨hpools, hmono, hnew, hrange⟩ := allocateAct_spec h.core.pools v2 numa
  obtain ⟨pools, hw⟩ := allocateAct_rest w v2 numa
  generalize (allocateAct w v2 numa).1 = w' at *
  subst hw
  have hcore : Core { w with pools := pools } :=
    { h.core with
      pools := hpools
      rowAlloc := fun s id hown => hmono id (h.core.rowAlloc s id hown)
      dirtyAlloc := fun id hid => hmono id (h.core.dirtyAlloc id hid) }
  have hothers : ∀ u ∈ F, u.Ok { w with pools := pools } := by
    intro u hu
    refine (h.toks u (mem_cons_of_mem hu)).frame (fun _ _ => rfl) (fun _ _ => Iff.rfl)
      (fun _ _ _ hl => hl) (fun _ _ hc => hc) (fun id _ hheld => ?_) (fun _ _ hd => hd) ?_
    · exact ⟨hmono id hheld.alloc, hheld.dirty, hheld.row⟩
    intro hsw x hx
    -- a tidy pass runs, so the range did not grow
    have htidy : w.tidying = true := by
      have hone := h.sweeps
      have hpos : 0 < (Tok.op s .creating ::ₘ F).countP (fun t => t.isSweep = true) :=
        Multiset.countP_pos.2 ⟨u, mem_cons_of_mem hu, hsw⟩
      by_contra hno
      rw [if_neg hno] at hone
      omega
    exact (hrange (hst htidy) x).trans hx
  have hrow : w.rows.get s = none := h.ok
  have hrel : ∀ x ∈ w.released, (x ∈ w.released ∧ Tok.op s .creating ≠ .op x .closing) :=
    fun x hx => ⟨hx, by simp⟩
  cases hid : (allocateAct w v2 numa).2 with
  | none =>
    exact h.step hcore rfl rfl rfl rfl hothers hrow (fun _ _ heq => by cases heq)
      fun x hx => .inl (hrel x hx)
  | some id =>
    obtain ⟨hfree, halloc⟩ := hnew id hid
    obtain ⟨hdirty, hown, hheld⟩ := h.unowned hfree
    refine h.step hcore rfl rfl rfl rfl hothers ⟨hrow, halloc, hdirty, hown⟩ ?_
      fun x hx => .inl (hrel x hx)
    intro s' id' heq
    cases heq
    exact .inr fun s' hmem => hheld s' (mem_cons_of_mem hmem)

lemma Held.release (h : w.Held x) (hne : x ≠ id) : (w.allocatorRelease id).Held x :=
  ⟨(allocated_release w id x).2 ⟨h.alloc, hne⟩, h.dirty, h.row⟩

lemma Inv.held_ne (h : Inv w (.op s (.holding id) ::ₘ F)) {u : Tok} (hu : u ∈ F) (hx : x ∈ u.held) :
    x ≠ id := by
  cases u with
  | op s' st =>
    cases st <;> simp only [Tok.held, mem_def, some.injEq, reduceCtorEq] at hx
    subst hx
    rintro rfl
    have heq := h.once s s' _ (Multiset.mem_cons_self _ _) (mem_cons_of_mem hu)
    exact h.sid_ne rfl hu (congrArg some heq.symm)
  | sweep => simp [Tok.held] at hx

lemma Inv.release (h : Inv w (.op s (.holding id) ::ₘ F)) :
    Inv (w.allocatorRelease id) (.op s .ended ::ₘ F) := by
  obtain ⟨-, halloc, hdirty, hrow⟩ := h.ok
  have hcore : Core (w.allocatorRelease id) :=
    { h.core with
      pools := h.core.pools.release id
      rowAlloc := by
        intro s' x hown
        refine (allocated_release w id x).2 ⟨h.core.rowAlloc s' x hown, ?_⟩
        rintro rfl
        exact hrow s' hown
      dirtyAlloc := by
        intro x hx
        refine (allocated_release w id x).2 ⟨h.core.dirtyAlloc x hx, ?_⟩
        rintro rfl
        exact hdirty hx }
  refine h.step hcore rfl rfl rfl rfl (fun u hu => ?_) trivial (by simp)
    fun x hx => .inl ⟨hx, by simp⟩
  refine (h.toks u (mem_cons_of_mem hu)).frame (fun _ _ => rfl) (fun _ _ => Iff.rfl)
    (fun _ _ _ hl => hl) (fun _ _ hc => hc) (fun x hx hheld => ?_) (fun _ _ hd => hd)
    fun _ x hx => (inRange_release w id x).trans hx
  exact Held.release hheld (h.held_ne hu hx)

lemma Inv.name (h : Inv w (.op s (.holding id) ::ₘ F)) :
    Inv { w with rows := w.rows.put s id } (.op s (.named id) ::ₘ F) := by
  obtain ⟨hnone, halloc, hdirty, hrow⟩ := h.ok
  have hrel : s ∉ w.released := h.not_released rfl (by simp)
  have howns (s' : Sid) (x : CgId) : World.Owns { w with rows := w.rows.put s id } s' x ↔
      (s' = s ∧ x = id) ∨ w.Owns s' x := by
    unfold World.Owns
    rw [Tbl.get_put_eq_some]
    by_cases hs : s' = s
    · subst hs
      simp [hrel, hnone, eq_comm]
    · simp [hs]
  have hcore : Core { w with rows := w.rows.put s id } :=
    { h.core with
      rowInj := by
        intro s1 s2 x h1 h2
        rcases (howns s1 x).1 h1 with ⟨e1, x1⟩ | k1 <;>
          rcases (howns s2 x).1 h2 with ⟨e2, x2⟩ | k2
        · exact e1.trans e2.symm
        · exact absurd (x1 ▸ k2) (hrow s2)
        · exact absurd (x2 ▸ k1) (hrow s1)
        · exact h.core.rowInj s1 s2 x k1 k2
      rowDirty := by
        intro s' x hown
        rcases (howns s' x).1 hown with ⟨-, rfl⟩ | hown
        · exact hdirty
        · exact h.core.rowDirty s' x hown
      rowAlloc := by
        intro s' x hown
        rcases (howns s' x).1 hown with ⟨-, rfl⟩ | hown
        · exact halloc
        · exact h.core.rowAlloc s' x hown
      live := fun s' x hl => (howns s' x).2 (.inr (h.core.live s' x hl))
      soiled := by
        intro x hx
        rcases h.core.soiled x hx with ⟨s', hown⟩ | hd
        · exact .inl ⟨s', (howns s' x).2 (.inr hown)⟩
        · exact .inr hd }
  have hclean : id ∉ w.soiled := by
    intro hmem
    rcases h.core.soiled id hmem with ⟨s', hown⟩ | hd
    · exact hrow s' hown
    · exact hdirty hd
  refine h.step hcore rfl rfl rfl rfl (fun u hu => ?_) ⟨(howns s id).2 (.inl ⟨rfl, rfl⟩), hclean⟩
    (by simp) fun x hx => .inl ⟨hx, by simp⟩
  refine (h.toks u (mem_cons_of_mem hu)).frame (fun s' hs' => ?_) (fun _ _ => Iff.rfl)
    (fun _ _ _ hl => hl) (fun _ _ hc => hc) (fun x hx hheld => ?_) (fun _ _ hd => hd)
    fun _ _ hr => hr
  · refine Tbl.get_put_ne _ _ ?_
    rintro rfl
    exact h.sid_ne rfl hu hs'
  refine ⟨hheld.alloc, hheld.dirty, fun s' hown => ?_⟩
  rcases (howns s' x).1 hown with ⟨-, heq⟩ | hown
  · exact h.held_ne hu hx heq
  · exact hheld.row s' hown

lemma Inv.handOut (h : Inv w (.op s (.named id) ::ₘ F)) : Inv { w with
      live := (s, id) :: w.live
      soiled := id :: w.soiled
      stale := if id ∈ w.soiled then id :: w.stale else w.stale } (.op s .ended ::ₘ F) := by
  obtain ⟨hown, hclean⟩ := h.ok
  have hcore : Core { w with
      live := (s, id) :: w.live
      soiled := id :: w.soiled
      stale := if id ∈ w.soiled then id :: w.stale else w.stale } :=
    { h.core with
      live := by
        intro s' x hl
        rcases mem_cons.1 hl with heq | hl
        · cases heq
          exact hown
        · exact h.core.live s' x hl
      soiled := by
        intro x hx
        rcases mem_cons.1 hx with rfl | hx
        · exact .inl ⟨s, hown⟩
        · exact h.core.soiled x hx
      stale := by
        rw [if_neg hclean]
        exact h.core.stale }
  refine h.step hcore rfl rfl rfl rfl (fun u hu => ?_) trivial (by simp)
    fun x hx => .inl ⟨hx, by simp⟩
  have hok := h.toks u (mem_cons_of_mem hu)
  refine hok.frame (fun _ _ => rfl) (fun _ _ => Iff.rfl) (fun s' hs' x hl => ?_)
    (fun x hx hc => ?_) (fun _ _ hheld => ⟨hheld.alloc, hheld.dirty, hheld.row⟩)
    (fun _ _ hd => hd) fun _ _ hr => hr
  · rcases mem_cons.1 hl with heq | hl
    · rw [(Prod.mk.inj heq).1] at hs'
      exact absurd hs' (h.sid_ne rfl hu)
    · exact hl
  -- a cgroup that is known to be clean is owned by another row or is dirty
  rw [mem_cons, not_or]
  refine ⟨?_, hc⟩
  rintro rfl
  cases u with
  | op s' st =>
    have hne : s' ≠ s := fun heq => h.sid_ne rfl hu (congrArg some heq)
    cases st <;> simp only [Tok.spotless, mem_def, some.injEq, reduceCtorEq] at hx
    · exact hne (h.core.rowInj s' s x (hx ▸ hok.1) hown)
    · exact hne (h.core.rowInj s' s x (hx ▸ hok.2.1) hown)
  | sweep c L D => exact h.core.rowDirty s x hown (hok.1 x hx).1

lemma Inv.soil (h : Inv w (.op s (.holding id) ::ₘ F)) :
    Inv { w with dirtySet := w.dirtySet.insert id } (.op s .ended ::ₘ F) := by
  obtain ⟨-, halloc, hdirty, hrow⟩ := h.ok
  have hcore : Core { w with dirtySet := w.dirtySet.insert id } :=
    { h.core with
      rowDirty := by
        intro s' x hown hmem
        rcases mem_insert_iff.1 hmem with rfl | hmem
        · exact hrow s' hown
        · exact h.core.rowDirty s' x hown hmem
      dirtyAlloc := by
        intro x hx
        rcases mem_insert_iff.1 hx with rfl | hx
        · exact halloc
        · exact h.core.dirtyAlloc x hx
      soiled := fun x hx => (h.core.soiled x hx).imp_right fun hd => mem_insert_of_mem hd }
  refine h.step hcore rfl rfl rfl rfl (fun u hu => ?_) trivial (by simp)
    fun x hx => .inl ⟨hx, by simp⟩
  refine (h.toks u (mem_cons_of_mem hu)).frame (fun _ _ => rfl) (fun _ _ => Iff.rfl)
    (fun _ _ _ hl => hl) (fun _ _ hc => hc)
    (fun x hx hheld => ⟨hheld.alloc, fun hmem => ?_, hheld.row⟩)
    (fun _ _ hd => mem_insert_of_mem hd) fun _ _ hr => hr
  rcases mem_insert_iff.1 hmem with heq | hmem
  · exact h.held_ne hu hx heq
  · exact hheld.dirty hmem

lemma filter_ne_self {l : List CgId} (h : id ∉ l) : (l.filter (· ≠ id)) = l :=
  filter_eq_self.2 fun x hx => by
    simpa using fun heq : x = id => h (heq ▸ hx)

/-- The end of `Put` for a creation that failed. -/
lemma Inv.settleHeld (h : Inv w (.op s (.holding id) ::ₘ F)) (clean : Bool) :
    Inv (w.settle none id clean) (.op s .ended ::ₘ F) := by
  cases clean with
  | true =>
    have hsame : w.settle none id true = w.allocatorRelease id := by
      simp only [World.settle, if_true, filter_ne_self h.ok.2.dirty]
      rfl
    rw [hsame]
    exact h.release
  | false => exact h.soil

end Creates

section Destroys

variable {w : World} {R F : Multiset Tok} {s : Sid} {id : CgId}

lemma touch_self (h : ∀ s, (s, id) ∉ w.live) : w.touch id = w := by
  have hnot : w.inUse id = false := by
    rw [Bool.eq_false_iff]
    intro huse
    obtain ⟨⟨s, x⟩, hmem, hx⟩ := any_eq_true.1 huse
    rw [beq_iff_eq] at hx
    exact h s (hx ▸ hmem)
  simp [World.touch, hnot]

lemma Inv.wash (h : Inv w R) {soiled : List CgId} (hnd : groups.Nodup)
    (hsub : ∀ x ∈ soiled, x ∈ w.soiled) : Inv { w with groups := groups, soiled := soiled } R := by
  refine { h with core := ?_, toks := ?_ }
  · exact { h.core with
      soiled := fun x hx => h.core.soiled x (hsub x hx)
      groups := hnd }
  · exact fun u hu => (h.toks u hu).same rfl rfl rfl rfl (fun _ he => he) hsub

lemma Inv.taken_idle (h : Inv w (.op s (.taken id) ::ₘ F)) : ∀ s', (s', id) ∉ w.live := by
  obtain ⟨hdead, hown⟩ := h.ok
  intro s' hl
  obtain rfl := h.core.rowInj s' s id (h.core.live s' id hl) hown
  exact hdead id hl

lemma Inv.outside_idle (h : Inv w R) (hid : w.inRange id = false) : ∀ s, (s, id) ∉ w.live := by
  intro s hl
  have hin := h.core.pools.inRange (h.core.rowAlloc s id (h.core.live s id hl))
  rw [hid] at hin
  cases hin

lemma Inv.goto {st st' : OpSt} (h : Inv w (.op s st ::ₘ F)) (hok : (Tok.op s st').Ok w)
    (hst : ∀ id, st' ≠ .holding id) (hcl : st ≠ .closing) : Inv w (.op s st' ::ₘ F) := by
  refine h.step h.core rfl rfl rfl rfl (fun u hu => h.toks u (mem_cons_of_mem hu)) hok
    (fun s' id heq => absurd (Tok.op.inj heq).2 (hst id)) fun x hx => .inl ⟨hx, fun heq => ?_⟩
  exact hcl (Tok.op.inj heq).2

lemma Inv.clean (h : Inv w (.op s (.taken id) ::ₘ F)) (hnd : groups.Nodup) :
    Inv { w with groups := groups, soiled := w.soiled.filter (· ≠ id) }
      (.op s (.cleaned id) ::ₘ F) :=
  (h.wash hnd fun _ => mem_of_mem_filter).goto ⟨h.ok.1, h.ok.2, by simp⟩ (by simp) (by simp)

lemma owns_released {s' : Sid} {ps : List Alloc} {ds : List CgId} :
    World.Owns { w with pools := ps, dirtySet := ds, released := s :: w.released } s' x ↔
      s' ≠ s ∧ w.Owns s' x := by
  unfold World.Owns
  simp only [mem_cons, not_or]
  tauto

lemma Inv.close {st : OpSt} (h : Inv w (.op s st ::ₘ F)) (hdead : w.NotLive s)
    (hown : w.Owns s id) (hst : st ≠ .closing) (ps : List Alloc) (ds : List CgId)
    (hpools : ∀ a ∈ ps, a.Ok)
    (halloc : ∀ x, x ≠ id → w.allocated x → World.allocated { w with pools := ps } x)
    (hdirty : ∀ x ∈ ds, x ∈ w.dirtySet ∨ (x = id ∧ World.allocated { w with pools := ps } x))
    (hkeep : ∀ x ∈ w.dirtySet, x ∈ ds) (hclean : id ∈ w.soiled → id ∈ ds)
    (hrange : ∀ x, World.inRange { w with pools := ps } x = w.inRange x) :
    Inv { w with pools := ps, dirtySet := ds, released := s :: w.released }
      (.op s .closing ::ₘ F) := by
  have hdne : ∀ x ∈ w.dirtySet, x ≠ id := by
    rintro x hx rfl
    exact h.core.rowDirty s x hown hx
  have hone : ∀ s' x, s' ≠ s → w.Owns s' x → x ≠ id := by
    rintro s' x hne hown' rfl
    exact hne (h.core.rowInj s' s x hown' hown)
  have hcore : Core { w with pools := ps, dirtySet := ds, released := s :: w.released } :=
    { h.core with
      pools := hpools
      rowInj := by
        intro s1 s2 x h1 h2
        exact h.core.rowInj s1 s2 x (owns_released.1 h1).2 (owns_released.1 h2).2
      rowDirty := by
        intro s' x hown' hmem
        obtain ⟨hne, hown'⟩ := owns_released.1 hown'
        rcases hdirty x hmem with hmem | ⟨rfl, -⟩
        · exact h.core.rowDirty s' x hown' hmem
        · exact hone s' x hne hown' rfl
      rowAlloc := by
        intro s' x hown'
        obtain ⟨hne, hown'⟩ := owns_released.1 hown'
        exact halloc x (hone s' x hne hown') (h.core.rowAlloc s' x hown')
      dirtyAlloc := by
        intro x hx
        rcases hdirty x hx with hx | ⟨-, hx⟩
        · exact halloc x (hdne x hx) (h.core.dirtyAlloc x hx)
        · exact hx
      live := by
        intro s' x hl
        refine owns_released.2 ⟨?_, h.core.live s' x hl⟩
        rintro rfl
        exact hdead x hl
      soiled := by
        intro x hx
        by_cases hxi : x = id
        · subst hxi
          exact .inr (hclean hx)
        rcases h.core.soiled x hx with ⟨s', hown'⟩ | hd
        · refine .inl ⟨s', owns_released.2 ⟨?_, hown'⟩⟩
          rintro rfl
          exact hxi (some.inj (hown'.1.symm.trans hown.1))
        · exact .inr (hkeep x hd) }
  refine h.step hcore rfl rfl rfl rfl (fun u hu => ?_) ⟨hdead, mem_cons_self⟩ (by simp) ?_
  · have hok := h.toks u (mem_cons_of_mem hu)
    refine hok.frame (fun _ _ => rfl) (fun s' hs' => ?_) (fun _ _ _ hl => hl) (fun _ _ hc => hc)
      (fun x _ hheld => ?_) (fun _ => hkeep) fun _ x hx => (hrange x).trans hx
    · have hne : s' ≠ s := by
        rintro rfl
        exact h.sid_ne rfl hu hs'
      simp [hne]
    have hne : x ≠ id := by
      rintro rfl
      exact hheld.row s hown
    refine ⟨halloc x hne hheld.alloc, fun hmem => ?_, fun s' hown' => ?_⟩
    · rcases hdirty x hmem with hmem | ⟨heq, -⟩
      · exact hheld.dirty hmem
      · exact hne heq
    · exact hheld.row s' (owns_released.1 hown').2
  · intro x hx
    rcases mem_cons.1 hx with rfl | hx
    · exact .inr rfl
    · exact .inl ⟨hx, fun heq => hst (Tok.op.inj heq).2⟩

/-- The end of `Put` for a cgroup that could not be cleaned. -/
lemma Inv.settleTaken (h : Inv w (.op s (.taken id) ::ₘ F)) :
    Inv (w.settle (some s) id false) (.op s .closing ::ₘ F) := by
  obtain ⟨hdead, hown⟩ := h.ok
  refine h.close hdead hown (by simp) w.pools (w.dirtySet.insert id) h.core.pools
    (fun _ _ ha => ha) (fun x hx => ?_) (fun _ => mem_insert_of_mem)
    (fun _ => mem_insert_self) fun _ => rfl
  rcases mem_insert_iff.1 hx with rfl | hx
  · exact .inr ⟨rfl, h.core.rowAlloc s x hown⟩
  · exact .inl hx

/-- The end of `Put` for a cgroup that is clean: its number is free. -/
lemma Inv.settleCleaned (h : Inv w (.op s (.cleaned id) ::ₘ F)) :
    Inv (w.settle (some s) id true) (.op s .closing ::ₘ F) := by
  obtain ⟨hdead, hown, hclean⟩ := h.ok
  have hdirty : w.dirtySet.filter (· ≠ id) = w.dirtySet :=
    filter_ne_self (h.core.rowDirty s id hown)
  refine h.close hdead hown (by simp) (w.allocatorRelease id).pools
    (w.dirtySet.filter (· ≠ id)) (h.core.pools.release id)
    (fun x hne ha => (allocated_release w id x).2 ⟨ha, hne⟩) (fun x hx => ?_) (fun x hx => ?_)
    (fun hmem => absurd hmem hclean) (inRange_release w id)
  · exact .inl (hdirty ▸ hx)
  · exact hdirty.symm ▸ hx

lemma Inv.forget (h : Inv w (.op s .closing ::ₘ F)) :
    Inv { w with rows := w.rows.del s, released := w.released.filter (· ≠ s) }
      (.op s .ended ::ₘ F) := by
  obtain ⟨hdead, hrel⟩ := h.ok
  have howns (s' : Sid) (x : CgId) : World.Owns
      { w with rows := w.rows.del s, released := w.released.filter (· ≠ s) } s' x ↔
      w.Owns s' x := by
    unfold World.Owns
    rw [Tbl.get_del_eq_some]
    by_cases hs : s' = s
    · subst hs
      simp [hrel]
    · simp [hs]
  have hcore : Core
      { w with rows := w.rows.del s, released := w.released.filter (· ≠ s) } :=
    { h.core with
      rowInj := fun s1 s2 x h1 h2 =>
        h.core.rowInj s1 s2 x ((howns s1 x).1 h1) ((howns s2 x).1 h2)
      rowDirty := fun s' x hown => h.core.rowDirty s' x ((howns s' x).1 hown)
      rowAlloc := fun s' x hown => h.core.rowAlloc s' x ((howns s' x).1 hown)
      live := fun s' x hl => (howns s' x).2 (h.core.live s' x hl)
      soiled := fun x hx => (h.core.soiled x hx).imp_left
        (Exists.imp fun s' => (howns s' x).2) }
  refine h.step hcore rfl rfl rfl rfl (fun u hu => ?_) trivial (by simp) fun x hx => ?_
  · have hok := h.toks u (mem_cons_of_mem hu)
    have hne : ∀ s' ∈ u.sid, s' ≠ s := by
      rintro s' hs' rfl
      exact h.sid_ne rfl hu hs'
    refine hok.frame (fun s' hs' => Tbl.get_del_ne _ (hne s' hs')) (fun s' hs' => ?_)
      (fun _ _ _ hl => hl) (fun _ _ hc => hc)
      (fun x _ hheld => ⟨hheld.alloc, hheld.dirty, fun s' hown => ?_⟩) (fun _ _ hd => hd)
      fun _ _ hr => hr
    · simp [hne s' hs']
    · exact hheld.row s' ((howns s' x).1 hown)
  · obtain ⟨hx, hne⟩ := mem_filter.1 hx
    refine .inl ⟨hx, fun heq => ?_⟩
    rw [(Tok.op.inj heq).1] at hne
    simp at hne

end Destroys

section Sweeps

variable {w : World} {R F : Multiset Tok} {c c' : Option CgId} {L L' D D' : List CgId} {id : CgId}

lemma Inv.sweepTo (h : Inv w (.sweep c L D ::ₘ F)) (hok : (Tok.sweep c' L' D').Ok w) :
    Inv w (.sweep c' L' D' ::ₘ F) :=
  h.step h.core rfl rfl rfl rfl (fun u hu => h.toks u (mem_cons_of_mem hu)) hok
    (by simp) fun x hx => .inl ⟨hx, by simp⟩

lemma Inv.sweepClean (h : Inv w (.sweep none L D ::ₘ F)) (hid : id ∈ L) (hnd : groups.Nodup) :
    Inv { w with groups := groups, soiled := w.soiled.filter (· ≠ id) }
      (.sweep (some id) (L.filter (· ≠ id)) D ::ₘ F) := by
  obtain ⟨-, hL, hD⟩ := h.ok
  refine (h.wash hnd fun _ => mem_of_mem_filter).sweepTo
    ⟨fun x hx => ?_, fun x hx => hL x (mem_of_mem_filter hx), hD⟩
  cases hx
  exact ⟨hL _ hid, by simp, by simp⟩

lemma Inv.settleSwept (h : Inv w (.sweep (some id) L D ::ₘ F)) :
    Inv (w.settle none id true) (.sweep none L D ::ₘ F) := by
  obtain ⟨hid, hL, hD⟩ := h.ok
  obtain ⟨hdirty, hclean, hrest⟩ := hid id rfl
  have hrelease (x : CgId) (ha : w.allocated x) (hne : x ≠ id) :
      (w.settle none id true).allocated x := (allocated_release w id x).2 ⟨ha, hne⟩
  have hcore : Core (w.settle none id true) :=
    { h.core with
      pools := h.core.pools.release id
      rowDirty := fun s x hown hmem => h.core.rowDirty s x hown (mem_of_mem_filter hmem)
      rowAlloc := by
        intro s x hown
        refine hrelease x (h.core.rowAlloc s x hown) ?_
        rintro rfl
        exact h.core.rowDirty s x hown hdirty
      dirtyAlloc := by
        intro x hx
        obtain ⟨hx, hne⟩ := mem_filter.1 hx
        exact hrelease x (h.core.dirtyAlloc x hx) (by simpa using hne)
      soiled := by
        intro x hx
        refine (h.core.soiled x hx).imp_right fun hd => mem_filter.2 ⟨hd, ?_⟩
        simpa using fun heq : x = id => hclean (heq ▸ hx) }
  refine h.step hcore rfl rfl rfl rfl (fun u hu => ?_) ⟨by simp, fun x hx => ?_, fun x hx => ?_⟩
    (by simp) fun x hx => .inl ⟨hx, by simp⟩
  · have hlone := h.alone rfl hu
    refine (h.toks u (mem_cons_of_mem hu)).frame (fun _ _ => rfl) (fun _ _ => Iff.rfl)
      (fun _ _ _ hl => hl) (fun _ _ hc => hc) (fun x _ hheld => ?_) ?_ ?_
    · refine ⟨hrelease x hheld.alloc ?_, fun hmem => ?_, hheld.row⟩
      · rintro rfl
        exact hheld.dirty hdirty
      · exact hheld.dirty (mem_of_mem_filter hmem)
    all_goals
      intro hsw
      rw [hlone] at hsw
      cases hsw
  · refine mem_filter.2 ⟨hL x hx, ?_⟩
    simpa using fun heq : x = id => hrest (heq ▸ hx)
  · exact (inRange_release w id x).trans (hD x hx)

lemma Inv.settleDirty (h : Inv w (.sweep none L D ::ₘ F)) (hid : id ∈ L) :
    w.settle none id false = w := by
  have hdirty : id ∈ w.dirtySet := h.ok.2.1 id hid
  simp only [World.settle, toList_none, nil_append, Bool.false_eq_true, if_false,
    insert_of_mem hdirty]

lemma Inv.tidied (h : Inv w (.sweep c L D ::ₘ F)) : Inv { w with tidying := false } F where
  core := { h.core with }
  ops := by
    have hops := h.ops
    rwa [filterMap_cons_none _ _ rfl] at hops
  busy := h.busy
  sweeps := by
    have hone := h.sweeps
    have hthis : (Tok.sweep c L D).isSweep = true := rfl
    rw [countP_cons, if_pos hthis] at hone
    split_ifs at hone <;> omega
  toks := fun u hu => (h.toks u (mem_cons_of_mem hu)).same rfl rfl rfl rfl
    (fun _ he => he) fun _ hx => hx
  once := fun s s' id h1 h2 =>
    h.once s s' id (mem_cons_of_mem h1) (mem_cons_of_mem h2)
  released := fun x hx =>
    (Multiset.mem_cons.1 (h.released x hx)).resolve_left (by simp)

end Sweeps

section Ends

variable {w : World} {R F : Multiset Tok} {s : Sid}

lemma Inv.leave {st : OpSt} (h : Inv w (.op s st ::ₘ F)) (hst : st ≠ .closing) :
    Inv { w with busy := w.busy.erase s } F where
  core := { h.core with }
  ops := by
    have hops := h.ops
    rw [filterMap_cons_some Tok.sid (.op s st) F rfl] at hops
    exact (coe_erase_of_eq_cons hops.symm).symm
  busy := h.busy.erase s
  sweeps := by
    have hone := h.sweeps
    rwa [Multiset.countP_cons_of_neg _ (by simp [Tok.isSweep])] at hone
  toks := fun u hu => (h.toks u (mem_cons_of_mem hu)).same rfl rfl rfl rfl
    (fun _ he => he) fun _ hx => hx
  once := fun s s' id h1 h2 =>
    h.once s s' id (mem_cons_of_mem h1) (mem_cons_of_mem h2)
  released := fun x hx => (Multiset.mem_cons.1 (h.released x hx)).resolve_left
    fun heq => hst (Tok.op.inj heq).2.symm

lemma Inv.enter (st : OpSt) (h : Inv w R) (hs : s ∉ w.busy) {live : List (Sid × CgId)}
    (hlive : ∀ e ∈ live, e ∈ w.live)
    (hok : (Tok.op s st).Ok { w with busy := s :: w.busy, live := live })
    (hst : ∀ id, st ≠ .holding id) :
    Inv { w with busy := s :: w.busy, live := live } (.op s st ::ₘ R) where
  core := { h.core with live := fun s' x hl => h.core.live s' x (hlive _ hl) }
  ops := by
    rw [filterMap_cons_some Tok.sid (.op s st) R rfl, h.ops]
    rfl
  busy := nodup_cons.2 ⟨hs, h.busy⟩
  sweeps := by
    rw [Multiset.countP_cons_of_neg _ (by simp [Tok.isSweep])]
    exact h.sweeps
  toks := by
    intro u hu
    rcases Multiset.mem_cons.1 hu with rfl | hu
    · exact hok
    · exact (h.toks u hu).same rfl rfl rfl rfl hlive fun _ hx => hx
  once := by
    have hold : ∀ {s' id}, Tok.op s' (.holding id) ∈ Tok.op s st ::ₘ R →
        Tok.op s' (.holding id) ∈ R := fun hmem =>
      (Multiset.mem_cons.1 hmem).resolve_left fun heq => hst _ (Tok.op.inj heq).2.symm
    exact fun s s' id h1 h2 => h.once s s' id (hold h1) (hold h2)
  released := fun x hx => mem_cons_of_mem (h.released x hx)

lemma Inv.beginTidy (h : Inv w R) (hno : w.tidying = false) :
    Inv { w with tidying := true } (.sweep none [] [] ::ₘ R) where
  core := { h.core with }
  ops := by
    rw [filterMap_cons_none _ _ rfl]
    exact h.ops
  busy := h.busy
  sweeps := by
    have hnone := h.sweeps
    have hthis : (Tok.sweep none [] []).isSweep = true := rfl
    rw [hno] at hnone
    rw [countP_cons, if_pos hthis]
    exact Nat.succ_le_succ hnone
  toks := by
    intro u hu
    rcases Multiset.mem_cons.1 hu with rfl | hu
    · exact ⟨by simp, by simp, by simp⟩
    · exact (h.toks u hu).same rfl rfl rfl rfl (fun _ he => he) fun _ hx => hx
  once := by
    have hold : ∀ {s' id}, Tok.op s' (.holding id) ∈ Tok.sweep none [] [] ::ₘ R →
        Tok.op s' (.holding id) ∈ R := fun hmem =>
      (Multiset.mem_cons.1 hmem).resolve_left (by simp)
    exact fun s s' id h1 h2 => h.once s s' id (hold h1) (hold h2)
  released := fun x hx => mem_cons_of_mem (h.released x hx)

end Ends

end CubeSandbox.Cgroup
