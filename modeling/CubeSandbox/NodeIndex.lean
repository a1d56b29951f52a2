import CubeSandbox.NodeCache
import CubeSandbox.Runs

/-!
The sorted lists of nodes against the cache: each healthy node is in the list of its instance
type and in no other, as long as no healthy node changes its type and no event names a node by
another type than the one it is listed under.
-/

namespace CubeSandbox.NodeCache

open GoText Tbl List Runs

/-! ### Removing from a slice -/

section Slices

variable {α : Type} {p : α → Bool}

lemma removeFrom_skip {m i len : Nat} {arr : List α} (k : Nat)
    (h : ∀ j, i ≤ j → j < i + k → (arr[j]?).any p = false) :
    removeFrom p (k + m) i arr len = removeFrom p m (i + k) arr len := by
  induction k generalizing i with
  | zero => simp
  | succ k ih =>
    have hi : ¬ (arr[i]?).any p = true := by simp [h i (le_refl i) (by omega)]
    rw [Nat.succ_add, removeFrom, if_neg hi, ih fun j hj hlt => h j (by omega) (by omega)]
    congr 1
    omega

lemma removeFrom_done {i len : Nat} {arr : List α} (k : Nat)
    (h : ∀ j, i ≤ j → j < i + k → (arr[j]?).any p = false) :
    removeFrom p k i arr len = .ok (arr.take len) := removeFrom_skip (m := 0) k h

lemma any_eq_false_of_mem {l : List α} (h : ∀ x ∈ l, p x = false) (j : Nat) :
    (l[j]?).any p = false := by
  cases hj : l[j]? with
  | none => rfl
  | some x => exact h x (mem_of_getElem? hj)

lemma remove_of_not_mem {l : List α} (h : ∀ x ∈ l, p x = false) : remove p l = .ok l := by
  rw [remove, removeFrom_done _ fun j _ _ => any_eq_false_of_mem h j, take_length]

lemma remove_of_once {a b : List α} {x : α} (hx : p x = true) (ha : ∀ y ∈ a, p y = false)
    (hb : ∀ y ∈ b, p y = false) : remove p (a ++ x :: b) = .ok (a ++ b) := by
  have hlen : (a ++ x :: b).length = a.length + (b.length + 1) := by simp
  have hskip : ∀ j, 0 ≤ j → j < 0 + a.length → ((a ++ x :: b)[j]?).any p = false := by
    intro j _ hj
    rw [getElem?_append_left (by omega)]
    exact any_eq_false_of_mem ha j
  have hmatch : ((a ++ x :: b)[0 + a.length]?).any p = true := by
    simp [hx]
  have hin : 0 + a.length + 1 ≤ (a ++ x :: b).length := by
    rw [hlen]
    omega
  -- what the array holds behind the slice once the element is gone
  have hshift : shift (a ++ x :: b) (a ++ x :: b).length (0 + a.length) =
      a ++ b ++ (a ++ x :: b).drop ((a ++ x :: b).length - 1) := by
    rw [shift, take_length, Nat.zero_add, take_left' rfl, drop_append]
    simp
  rw [remove, hlen, removeFrom_skip _ hskip, removeFrom, if_pos hmatch, ← hlen, if_pos hin,
    hshift, removeFrom_done]
  · rw [take_append_of_le_length (by rw [hlen]; simp), take_of_length_le (by simp)]
  intro j hj hlt
  by_cases hjb : j < (a ++ b).length
  · rw [getElem?_append_left hjb, getElem?_append_right (by omega)]
    exact any_eq_false_of_mem hb _
  -- the last element of the array, which is one of those behind
  have hlast : (a ++ x :: b).drop ((a ++ x :: b).length - 1) = b.drop (b.length - 1) := by
    obtain ⟨n, hn⟩ : ∃ n, b.length = n + 1 := ⟨b.length - 1, by omega⟩
    rw [hlen, hn, show a.length + (n + 1 + 1) - 1 = a.length + (n + 1) by omega, drop_append]
    simp
  rw [getElem?_append_right (by omega), hlast]
  exact any_eq_false_of_mem (fun y hy => hb y (mem_of_mem_drop hy)) _

end Slices

/-! ### Lists and cache agree -/

variable {id : Bytes} {nodes : List Node}

section Worlds

variable {conf : Conf} {w w' : World} {k k' : Bytes} {l : List Nat} {p : Nat}

lemma list_setList : (w.setList k l).list k' = if k' = k then l else w.list k' := by
  unfold World.setList World.list
  rw [get_put]
  split <;> rfl

def World.Typed (w : World) (k : Bytes) : Prop := (w.lists.get k).isSome = true

lemma typed_setList (h : w.Typed k) : (w.setList k l).Typed k' ↔ w.Typed k' := by
  unfold World.Typed at *
  unfold World.setList
  rw [get_put]
  split_ifs with hk
  · simpa [hk] using h
  · rfl

lemma typeName_congr (h : ∀ k, w'.Typed k ↔ w.Typed k) (n : Node) :
    w'.typeName conf n = w.typeName conf n := by
  have hnone (k : Bytes) : (w'.lists.get k).isNone = (w.lists.get k).isNone := by
    have hk := h k
    unfold World.Typed at hk
    cases h1 : w'.lists.get k <;> cases h2 : w.lists.get k <;> simp [h1, h2] at hk ⊢
  simp only [World.typeName, hnone]

lemma typed_typeName (h : w.Typed defaultInstanceTypeName) (n : Node) :
    w.Typed (w.typeName conf n) := by
  simp only [World.typeName]
  generalize (if conf.typeOfLabel n.ossClusterLabel = [] then defaultInstanceTypeName
    else conf.typeOfLabel n.ossClusterLabel) = product
  split
  · exact h
  rename_i hp
  unfold World.Typed
  cases hget : w.lists.get product with
  | none => simp [hget] at hp
  | some l => rfl

/-- A cached, healthy node of a type. -/
def World.Belongs (conf : Conf) (w : World) (k : Bytes) (p : Nat) : Prop :=
  w.cache.get (w.obj p).id = some p ∧ (w.obj p).healthy = true ∧ w.typeName conf (w.obj p) = k

/-- The lists are what the cache says. -/
structure Kept (conf : Conf) (w : World) : Prop where
  typed : w.Typed defaultInstanceTypeName
  cached : ∀ id p, w.cache.get id = some p →
    p < w.objs.length ∧ (w.obj p).id = id ∧ (w.obj p).insID ≠ []
  nodup : ∀ k, (w.list k).Nodup
  lists : ∀ k p, p ∈ w.list k ↔ w.Belongs conf k p

/-- A change of one object, cached under an id or nowhere. -/
structure Touches (w w' : World) (p : Nat) (id : Bytes) : Prop where
  typed : ∀ k, w'.Typed k ↔ w.Typed k
  len : w.objs.length ≤ w'.objs.length
  obj : ∀ q, q ≠ p → w'.obj q = w.obj q
  cache : ∀ x, x ≠ id → w'.cache.get x = w.cache.get x
  old : ∀ q, w.cache.get id = some q → q = p
  new : ∀ q, w'.cache.get id = some q →
    q = p ∧ p < w'.objs.length ∧ (w'.obj p).id = id ∧ (w'.obj p).insID ≠ []
  free : ∀ x, x ≠ id → w.cache.get x ≠ some p

lemma Kept.change (h : Kept conf w) (ht : Touches w w' p id)
    (hnd : ∀ k, (w'.list k).Nodup) (hlist : ∀ k q, q ≠ p → (q ∈ w'.list k ↔ q ∈ w.list k))
    (hp : ∀ k, p ∈ w'.list k ↔ w'.Belongs conf k p) : Kept conf w' where
  typed := (ht.typed _).2 h.typed
  cached := by
    intro x q hx
    by_cases hxid : x = id
    · subst hxid
      obtain ⟨rfl, hrest⟩ := ht.new q hx
      exact hrest
    rw [ht.cache x hxid] at hx
    have hqp : q ≠ p := by
      rintro rfl
      exact ht.free x hxid hx
    obtain ⟨hlt, hrest⟩ := h.cached x q hx
    rw [ht.obj q hqp]
    exact ⟨lt_of_lt_of_le hlt ht.len, hrest⟩
  nodup := hnd
  lists := by
    intro k q
    by_cases hqp : q = p
    · subst hqp
      exact hp k
    rw [hlist k q hqp, h.lists]
    unfold World.Belongs
    rw [ht.obj q hqp, typeName_congr ht.typed]
    by_cases hq : (w.obj q).id = id
    · -- another object is not cached under this id
      have h1 : w.cache.get (w.obj q).id ≠ some q := fun hc => hqp (ht.old q (hq ▸ hc))
      have h2 : w'.cache.get (w.obj q).id ≠ some q := fun hc => hqp (ht.new q (hq ▸ hc)).1
      simp [h1, h2]
    · rw [ht.cache _ hq]

lemma Kept.relist (h : Kept conf w) (ht : Touches w w' p id) (hlists : w'.lists = w.lists)
    (hk : w.Typed k) (hnd : l.Nodup) (hother : ∀ q, q ≠ p → (q ∈ l ↔ q ∈ w.list k))
    (hin : p ∈ l ↔ w'.Belongs conf k p)
    (hout : ∀ k', k' ≠ k → (p ∈ w.list k' ↔ w'.Belongs conf k' p)) :
    Kept conf (w'.setList k l) ∧ Touches w (w'.setList k l) p id := by
  have hsame (k' : Bytes) : w'.list k' = w.list k' := by
    unfold World.list
    rw [hlists]
  have htk (k' : Bytes) : (w'.setList k l).Typed k' ↔ w'.Typed k' :=
    typed_setList ((ht.typed k).2 hk)
  have ht' : Touches w (w'.setList k l) p id :=
    { ht with typed := fun k' => (htk k').trans (ht.typed k') }
  have hbelongs (k' : Bytes) : (w'.setList k l).Belongs conf k' p ↔ w'.Belongs conf k' p := by
    unfold World.Belongs
    rw [typeName_congr htk]
    exact Iff.rfl
  refine ⟨h.change ht' (fun k' => ?_) (fun k' q hq => ?_) fun k' => ?_, ht'⟩
  · rw [list_setList, hsame]
    split_ifs
    · exact hnd
    · exact h.nodup k'
  · rw [list_setList, hsame]
    split_ifs with hkk
    · rw [hkk]
      exact hother q hq
    · exact Iff.rfl
  · rw [list_setList, hsame, hbelongs]
    split_ifs with hkk
    · rwa [hkk]
    · exact hout k' hkk

lemma Kept.eq_of_id (h : Kept conf w) {p q : Nat} (hp : p ∈ w.list k) (hq : q ∈ w.list k')
    (hid : (w.obj p).id = (w.obj q).id) : p = q := by
  have hp := ((h.lists k p).1 hp).1
  have hq := ((h.lists k' q).1 hq).1
  rw [hid, hq] at hp
  exact (Option.some.inj hp).symm

/-- `Remove` in a list in which ids tell the objects apart. -/
lemma removeIn_eq (hnd : (w.list k).Nodup)
    (hone : ∀ p ∈ w.list k, ∀ q ∈ w.list k, (w.obj p).id = id → (w.obj q).id = id → p = q) :
    removeIn w k id = .ok (w.setList k ((w.list k).filter fun p => (w.obj p).id ≠ id)) := by
  have hremove : remove (fun p => (w.obj p).id == id) (w.list k) =
      .ok ((w.list k).filter fun p => (w.obj p).id ≠ id) := by
    by_cases hex : ∃ p ∈ w.list k, (w.obj p).id = id
    · obtain ⟨p, hp, hpid⟩ := hex
      obtain ⟨a, b, hab⟩ := append_of_mem hp
      rw [hab] at hone hnd
      have hother : ∀ q ∈ a ++ b, (w.obj q).id ≠ id := by
        intro q hq hqid
        obtain rfl : p = q := hone p (by simp) q (by simp at hq ⊢; tauto) hpid hqid
        rw [nodup_middle, nodup_cons] at hnd
        exact hnd.1 hq
      rw [hab, remove_of_once (by simpa using hpid)
        (fun q hq => by simpa using hother q (mem_append_left _ hq))
        fun q hq => by simpa using hother q (mem_append_right _ hq)]
      have hfilter : (a ++ p :: b).filter (fun q => (w.obj q).id ≠ id) = a ++ b := by
        rw [filter_append, filter_cons_of_neg (by simpa using hpid), ← filter_append]
        exact filter_eq_self.2 fun q hq => by simpa using hother q hq
      rw [hfilter]
    · have hnone : ∀ p ∈ w.list k, (w.obj p).id ≠ id := fun p hp hpid => hex ⟨p, hp, hpid⟩
      rw [remove_of_not_mem fun p hp => by simpa using hnone p hp,
        filter_eq_self.2 fun p hp => by simpa using hnone p hp]
  rw [removeIn, hremove]

end Worlds

section Handlers

variable {conf : Conf} {w w' : World} {n : Node} {p : Nat}

/-- The node, if it is cached and healthy, is listed under the type of the given one. -/
def SameType (conf : Conf) (w : World) (n : Node) : Prop :=
  ∀ p, w.cache.get n.id = some p → (w.obj p).healthy = true →
    w.typeName conf (w.obj p) = w.typeName conf n

lemma obj_congr (h : w'.objs = w.objs) (q : Nat) : w'.obj q = w.obj q := by
  unfold World.obj
  rw [h]

lemma obj_append (w : World) (n : Node) (q : Nat) :
    (({ w with objs := w.objs ++ [n] } : World)).obj q =
      if q = w.objs.length then n else w.obj q := by
  unfold World.obj
  rw [getD_eq_getElem?_getD, getD_eq_getElem?_getD, getElem?_append]
  split_ifs with h1 h2 h2
  · omega
  · rfl
  · simp [h2]
  have hout : w.objs[q]? = none := getElem?_eq_none (by omega)
  have hlast : ([n])[q - w.objs.length]? = none := getElem?_eq_none (by simp; omega)
  rw [hout, hlast]

lemma obj_set (w : World) (hp : p < w.objs.length) (n : Node) (q : Nat) :
    (({ w with objs := w.objs.set p n } : World)).obj q = if q = p then n else w.obj q := by
  unfold World.obj
  rw [getD_eq_getElem?_getD, getD_eq_getElem?_getD, getElem?_set]
  by_cases h : q = p
  · subst h
    simp [hp]
  · simp [h, Ne.symm h]

/-- A handler ends, the lists stay what the cache says, and only the node is touched, which is then
of its type. -/
def Handled (conf : Conf) (w : World) (n : Node) (r : Result) : Prop :=
  ∃ w', r = .ok w' ∧ Kept conf w' ∧ SameType conf w' n ∧ ∃ p, Touches w w' p n.id

lemma SameType.after (hs : SameType conf w n) (ht : Touches w w' p id)
    (hid : n.id ≠ id) : SameType conf w' n := by
  intro q hq hh
  rw [ht.cache _ hid] at hq
  have hqp : q ≠ p := by
    rintro rfl
    exact ht.free _ hid hq
  rw [ht.obj q hqp] at hh ⊢
  rw [typeName_congr ht.typed, typeName_congr ht.typed]
  exact hs q hq hh

lemma SameType.congr {m : Node} (hs : SameType conf w n) (hid : m.id = n.id)
    (htype : w.typeName conf m = w.typeName conf n) : SameType conf w m := by
  intro q hq hh
  rw [hid] at hq
  exact (hs q hq hh).trans htype.symm

lemma Touches.sameType (ht : Touches w w' p n.id)
    (hp : w'.cache.get n.id = some p → (w'.obj p).healthy = true →
      w.typeName conf (w'.obj p) = w.typeName conf n) : SameType conf w' n := by
  intro q hq hh
  obtain ⟨rfl, -⟩ := ht.new q hq
  rw [typeName_congr ht.typed, typeName_congr ht.typed]
  exact hp hq hh

variable {l : List Nat}

lemma mem_sortByIndex : p ∈ w.sortByIndex l ↔ p ∈ l :=
  mem_insertionSort _

lemma nodup_sortByIndex : (w.sortByIndex l).Nodup ↔ l.Nodup :=
  (perm_insertionSort _ l).nodup_iff

section

variable (h : Kept conf w)
include h

lemma Kept.uncached (x : Bytes) : w.cache.get x ≠ some w.objs.length := fun hx =>
  absurd (h.cached _ _ hx).1 (lt_irrefl _)

lemma Kept.fresh (k : Bytes) : w.objs.length ∉ w.list k := fun hmem =>
  h.uncached _ ((h.lists k _).1 hmem).1

lemma Kept.addNodeCache (hid : n.insID ≠ []) (hnone : w.cache.get n.id = none) :
    Handled conf w n (.ok (addNodeCache conf w n)) := by
  let w1 : World := { w with objs := w.objs ++ [n], cache := w.cache.put n.id w.objs.length }
  have hobj (q : Nat) : w1.obj q = if q = w.objs.length then n else w.obj q := obj_append w n q
  have hself : w1.obj w.objs.length = n := by rw [hobj, if_pos rfl]
  have hcached : w1.cache.get n.id = some w.objs.length := get_put_self _ _ _
  have ht : Touches w w1 w.objs.length n.id := by
    refine ⟨fun _ => Iff.rfl, by simp [w1], fun q hq => by rw [hobj, if_neg hq],
      fun x hx => get_put_ne _ _ hx,
      fun q hq => by simp [hnone] at hq, fun q hq => ?_, fun x _ hx => ?_⟩
    · rw [hself]
      exact ⟨Option.some.inj (hq.symm.trans hcached), by simp [w1], rfl, hid⟩
    · exact h.uncached x hx
  have hbelongs (k : Bytes) : w1.Belongs conf k w.objs.length ↔
      n.healthy = true ∧ w1.typeName conf n = k := by
    unfold World.Belongs
    rw [hself, hcached]
    simp
  have hsame : ∀ w', w'.objs = w1.objs → Kept conf w' ∧ Touches w w' w.objs.length n.id →
      Handled conf w n (.ok w') := by
    rintro w' hobjs ⟨hk, ht'⟩
    refine ⟨w', rfl, hk, ht'.sameType fun _ _ => ?_, _, ht'⟩
    rw [obj_congr hobjs, hself]
  change Handled conf w n (.ok (appendSortedNodes conf w1 w.objs.length))
  unfold appendSortedNodes
  rw [hself]
  split_ifs with hh
  · have htk : w.Typed (w1.typeName conf n) := typed_typeName h.typed n
    refine hsame _ rfl (h.relist ht rfl htk ?_ (fun q hq => ?_) ?_ fun k' hk' => ?_)
    · rw [nodup_sortByIndex, ← concat_eq_append]
      exact (h.nodup _).concat (h.fresh _)
    · rw [mem_sortByIndex, mem_append, mem_singleton]
      exact ⟨fun hor => hor.resolve_right hq, .inl⟩
    · rw [mem_sortByIndex, mem_append, mem_singleton, hbelongs]
      exact iff_of_true (.inr rfl) ⟨hh, rfl⟩
    · rw [hbelongs]
      exact iff_of_false (h.fresh k') fun hb => hk' hb.2.symm
  · refine hsame _ rfl ⟨h.change ht h.nodup (fun _ _ _ => Iff.rfl) fun k => ?_, ht⟩
    rw [hbelongs]
    exact iff_of_false (h.fresh k) fun hb => hh hb.1

lemma Kept.leave {w1 : World} {k : Bytes} (ht : Touches w w1 p id)
    (hlists : w1.lists = w.lists) (hk : w.Typed k)
    (hin : ∀ k', p ∈ w.list k' → k' = k ∧ (w1.obj p).id = id) (hno : ∀ k, ¬ w1.Belongs conf k p) :
    ∃ w2, removeIn w1 k id = .ok w2 ∧ Kept conf w2 ∧ Touches w w2 p id ∧ w2.objs = w1.objs ∧
      w2.cache = w1.cache := by
  have hlist : w1.list k = w.list k := by
    unfold World.list
    rw [hlists]
  -- an object of the list that has the id is the one
  have hone : ∀ q ∈ w1.list k, (w1.obj q).id = id → q = p := by
    intro q hq hqid
    by_contra hqp
    rw [hlist] at hq
    rw [ht.obj q hqp] at hqid
    exact hqp (ht.old q (hqid ▸ ((h.lists k q).1 hq).1))
  refine ⟨_, removeIn_eq (by rw [hlist]; exact h.nodup k) fun a ha b hb hia hib =>
    (hone a ha hia).trans (hone b hb hib).symm, ?_⟩
  refine (and_assoc.1 ⟨h.relist ht hlists hk ?_ (fun q hq => ?_) ?_ fun k' hk' => ?_, rfl, rfl⟩)
  · rw [hlist]
    exact (h.nodup k).filter _
  · rw [mem_filter, hlist]
    refine ⟨And.left, fun hmem => ⟨hmem, ?_⟩⟩
    simpa using fun hqid => hq (hone q (by rwa [hlist]) hqid)
  · refine iff_of_false (fun hmem => ?_) (hno k)
    rw [mem_filter, hlist] at hmem
    simpa [(hin k hmem.1).2] using hmem.2
  · exact iff_of_false (fun hmem => hk' (hin k' hmem).1) (hno k')

lemma Kept.deleted (hs : SameType conf w n) :
    ∃ w', delNodeCache conf w n = .ok w' ∧ Kept conf w' ∧ (∃ p, Touches w w' p n.id) ∧
      w'.objs = w.objs ∧ w'.cache = w.cache.del n.id := by
  have hgone (q : Nat) : (w.cache.del n.id).get n.id ≠ some q := by simp
  have hkt : w.Typed (w.typeName conf n) := typed_typeName h.typed n
  cases hp : w.cache.get n.id with
  | none =>
    -- the object after the last one stands for none
    have ht : Touches w { w with cache := w.cache.del n.id } w.objs.length n.id :=
      ⟨fun _ => Iff.rfl, le_rfl, fun _ _ => rfl, fun x hx => get_del_ne _ hx,
        fun q hq => by simp [hp] at hq, fun q hq => absurd hq (hgone q), fun x _ => h.uncached x⟩
    obtain ⟨w', hrm, hk, ht', hrest⟩ := h.leave ht rfl hkt
      (fun k' hmem => absurd hmem (h.fresh k')) fun k' hb => h.uncached _ (get_del_eq_some.1 hb.1).2
    exact ⟨w', hrm, hk, ⟨_, ht'⟩, hrest⟩
  | some p =>
    obtain ⟨hlt, hid, hins⟩ := h.cached _ _ hp
    have ht : Touches w { w with cache := w.cache.del n.id } p n.id :=
      ⟨fun _ => Iff.rfl, le_rfl, fun _ _ => rfl, fun x hx => get_del_ne _ hx,
        fun q hq => Option.some.inj (hq.symm.trans hp), fun q hq => absurd hq (hgone q),
        fun x hx hxp => hx ((h.cached _ _ hxp).2.1.symm.trans hid)⟩
    have hin (k' : Bytes) (hmem : p ∈ w.list k') :
        k' = w.typeName conf n ∧ (w.obj p).id = n.id := by
      obtain ⟨-, hh, htype⟩ := (h.lists k' p).1 hmem
      exact ⟨htype.symm.trans (hs p hp hh), hid⟩
    have hno (k' : Bytes) : ¬ World.Belongs conf { w with cache := w.cache.del n.id } k' p := by
      intro hb
      have hcached : (w.cache.del n.id).get (w.obj p).id = some p := hb.1
      rw [hid] at hcached
      exact hgone p hcached
    obtain ⟨w', hrm, hk, ht', hrest⟩ := h.leave ht rfl hkt hin hno
    exact ⟨w', hrm, hk, ⟨_, ht'⟩, hrest⟩

lemma Kept.delNodeCache (hs : SameType conf w n) : Handled conf w n (delNodeCache conf w n) := by
  obtain ⟨w', hdel, hk, ⟨p, ht⟩, -, hcache⟩ := h.deleted hs
  refine ⟨w', hdel, hk, ht.sameType fun hp => ?_, p, ht⟩
  rw [hcache] at hp
  simp at hp

lemma Kept.touches_set (hp : w.cache.get id = some p) {old : Node}
    (hins : old.insID = (w.obj p).insID) :
    Touches w { w with objs := w.objs.set p old } p id ∧
      World.obj { w with objs := w.objs.set p old } p = old ∧ old.id = id := by
  obtain ⟨hlt, hid, hne⟩ := h.cached _ _ hp
  have hobj := obj_set w hlt old
  have hself : World.obj { w with objs := w.objs.set p old } p = old := by rw [hobj, if_pos rfl]
  have hidold : old.id = id := by
    rw [← hid]
    simp [Node.id, hins, hne]
  refine ⟨⟨fun _ => Iff.rfl, by simp, fun q hq => by rw [hobj, if_neg hq], fun _ _ => rfl,
    fun q hq => Option.some.inj (hq.symm.trans hp), fun q hq => ?_,
    fun x hx hxp => hx ((h.cached _ _ hxp).2.1.symm.trans hid)⟩, hself, hidold⟩
  rw [hself]
  exact ⟨Option.some.inj (hq.symm.trans hp), by simpa using hlt, hidold, hins ▸ hne⟩

lemma Kept.sicken (hp : w.cache.get n.id = some p)
    (hs : SameType conf w n) {old : Node} (hh : old.healthy = false)
    (hins : old.insID = (w.obj p).insID) :
    Handled conf w n
      (removeIn { w with objs := w.objs.set p old } (w.typeName conf n) n.id) := by
  obtain ⟨ht, hself, hidold⟩ := h.touches_set hp hins
  let w1 : World := { w with objs := w.objs.set p old }
  have hin (k' : Bytes) (hmem : p ∈ w.list k') : k' = w.typeName conf n ∧ (w1.obj p).id = n.id := by
    obtain ⟨-, hold, htype⟩ := (h.lists k' p).1 hmem
    rw [hself]
    exact ⟨htype.symm.trans (hs p hp hold), hidold⟩
  have hsick : (w1.obj p).healthy = false := by rw [hself, hh]
  obtain ⟨w', hrm, hk, ht', hobjs, -⟩ := h.leave ht rfl (typed_typeName h.typed n) hin
    fun k' hb => Bool.false_ne_true (hsick.symm.trans hb.2.1)
  refine ⟨w', hrm, hk, ht'.sameType fun _ hhealthy => ?_, p, ht'⟩
  rw [obj_congr hobjs, hsick] at hhealthy
  cases hhealthy

lemma Kept.downNodeCache (hs : SameType conf w n) (now : Int) :
    Handled conf w n (downNodeCache conf now w n) := by
  unfold NodeCache.downNodeCache
  cases hp : w.cache.get n.id with
  | none =>
    exact ⟨w, rfl, h, hs, w.objs.length, fun _ => Iff.rfl, le_rfl, fun _ _ => rfl,
      fun _ _ => rfl, fun q hq => by simp [hp] at hq, fun q hq => by simp [hp] at hq,
      fun x _ => h.uncached x⟩
  | some p => exact h.sicken hp hs rfl rfl

end

/-- `Add` looks for the id of the object. -/
lemma addTo_eq (hone : ∀ q ∈ l, (w.obj q).id = (w.obj p).id → q = p) :
    addTo w l p = if p ∈ l then l else l ++ [p] := by
  refine if_congr ⟨fun hin => ?_, fun hin => mem_map.2 ⟨p, hin, rfl⟩⟩ rfl rfl
  obtain ⟨q, hq, hid⟩ := mem_map.1 hin
  rwa [← hone q hq hid]

lemma Kept.updateNode (h : Kept conf w) (hp : w.cache.get n.id = some p)
    (hs : SameType conf w n) : Handled conf w n (updateSortedNodes conf
      { w with objs := w.objs.set p ((w.obj p).update n) } p) := by
  obtain ⟨ht, hself, hid⟩ := h.touches_set hp (rfl : ((w.obj p).update n).insID = _)
  let w1 : World := { w with objs := w.objs.set p ((w.obj p).update n) }
  have hid1 : (w1.obj p).id = n.id := by rw [hself, hid]
  have htype : w1.typeName conf (w1.obj p) = w.typeName conf n := by
    rw [hself]
    rfl
  change Handled conf w n (updateSortedNodes conf w1 p)
  simp only [updateSortedNodes]
  rw [htype, hid1]
  split_ifs with hh
  · -- healthy: the object is in the list already, or it is in none and joins this one
    have hbelongs (k : Bytes) : w1.Belongs conf k p ↔ w.typeName conf n = k := by
      unfold World.Belongs
      rw [hid1, htype]
      change w.cache.get n.id = _ ∧ _ ↔ _
      simp [hp, hh]
    have hadd : addTo w1 (w1.list (w.typeName conf n)) p = if p ∈ w.list (w.typeName conf n)
        then w.list (w.typeName conf n) else w.list (w.typeName conf n) ++ [p] := by
      refine addTo_eq fun q hq hqid => ?_
      by_contra hqp
      rw [hid1, ht.obj q hqp] at hqid
      exact hqp (ht.old q (hqid ▸ ((h.lists _ q).1 hq).1))
    have hlisted : ∀ w', w' = w1.setList (w.typeName conf n)
        (w1.sortByIndex (addTo w1 (w1.list (w.typeName conf n)) p)) →
        Kept conf w' ∧ Touches w w' p n.id → Handled conf w n (.ok w') := by
      rintro w' rfl ⟨hk, ht'⟩
      exact ⟨_, rfl, hk, ht'.sameType fun _ _ => htype, p, ht'⟩
    refine hlisted _ rfl (h.relist ht rfl (typed_typeName h.typed n) ?_ (fun q hq => ?_) ?_
      fun k' hk' => ?_)
    · rw [nodup_sortByIndex, hadd]
      split_ifs with hin
      · exact h.nodup _
      · rw [← concat_eq_append]
        exact (h.nodup _).concat hin
    · rw [mem_sortByIndex, hadd]
      split_ifs <;> simp [hq]
    · rw [mem_sortByIndex, hadd, hbelongs]
      split_ifs with hin <;> simp [hin]
    · rw [hbelongs]
      refine iff_of_false (fun hmem => hk' ?_) fun heq => hk' heq.symm
      obtain ⟨-, hold, htold⟩ := (h.lists k' p).1 hmem
      exact htold.symm.trans (hs p hp hold)
  · refine h.sicken hp hs ?_ rfl
    rw [← hself]
    simpa using hh

lemma Kept.upsertNode (h : Kept conf w) (hid : n.insID ≠ []) (hs : SameType conf w n) :
    Handled conf w n (upsertNode conf w n) := by
  unfold NodeCache.upsertNode
  cases hp : w.cache.get n.id with
  | none => exact h.addNodeCache hid hp
  | some p => exact h.updateNode hp hs

end Handlers

section Events

variable {conf : Conf} {w : World}

/-- The nodes of an event that have one id are of one type. -/
def OneType (conf : Conf) (w : World) (nodes : List Node) : Prop :=
  ∀ m ∈ nodes, ∀ n ∈ nodes, m.id = n.id → w.typeName conf m = w.typeName conf n

lemma Kept.foldlM {f : World → Node → Result}
    (hf : ∀ w, Kept conf w → ∀ n ∈ nodes, SameType conf w n → Handled conf w n (f w n))
    (h : Kept conf w) (hs : ∀ n ∈ nodes, SameType conf w n) (hone : OneType conf w nodes) :
    ∃ w', nodes.foldlM f w = .ok w' ∧ Kept conf w' := by
  induction nodes generalizing w with
  | nil => exact ⟨w, rfl, h⟩
  | cons n nodes ih =>
    obtain ⟨w1, hw1, hk1, hs1, p, ht⟩ := hf w h n (by simp) (hs n (by simp))
    have hrest : ∀ m ∈ nodes, SameType conf w1 m := by
      intro m hm
      by_cases hid : m.id = n.id
      · refine hs1.congr hid ?_
        rw [typeName_congr ht.typed, typeName_congr ht.typed]
        exact hone m (by simp [hm]) n (by simp) hid
      · exact (hs m (by simp [hm])).after ht hid
    have hone1 : OneType conf w1 nodes := by
      intro a ha b hb hab
      rw [typeName_congr ht.typed, typeName_congr ht.typed]
      exact hone a (by simp [ha]) b (by simp [hb]) hab
    obtain ⟨w2, hw2, hk2⟩ := ih (fun w hw m hm => hf w hw m (by simp [hm])) hk1 hrest hone1
    refine ⟨w2, ?_, hk2⟩
    rwa [foldlM_cons, hw1]

lemma Kept.load (h : Kept conf w) (hid : ∀ n ∈ nodes, n.insID ≠ [])
    (hnew : ∀ n ∈ nodes, w.cache.get n.id = none) (hnd : (nodes.map Node.id).Nodup) :
    Kept conf (nodes.foldl (NodeCache.addNodeCache conf) w) := by
  induction nodes generalizing w with
  | nil => exact h
  | cons n nodes ih =>
    rw [map_cons, nodup_cons] at hnd
    obtain ⟨w1, hw1, hk1, -, p, ht⟩ := h.addNodeCache (hid n (by simp)) (hnew n (by simp))
    rw [foldl_cons, Except.ok.inj hw1]
    refine ih hk1 (fun m hm => hid m (by simp [hm])) (fun m hm => ?_) hnd.2
    have hne : m.id ≠ n.id := fun heq => hnd.1 (mem_map.2 ⟨m, hm, heq⟩)
    rw [ht.cache _ hne]
    exact hnew m (by simp [hm])

lemma Kept.checkDirty {order : List Nat} (fromDb : List Bytes) (h : Kept conf w)
    (horder : ∀ p ∈ order, ∀ q, w.cache.get (w.obj p).id = some q → q = p) :
    ∃ w', order.foldlM (checkOne conf fromDb) w = .ok w' ∧ Kept conf w' := by
  induction order generalizing w with
  | nil => exact ⟨w, rfl, h⟩
  | cons p order ih =>
    have hone : ∃ w1, checkOne conf fromDb w p = .ok w1 ∧ Kept conf w1 ∧ w1.objs = w.objs ∧
        ∀ x q, w1.cache.get x = some q → w.cache.get x = some q := by
      unfold checkOne
      split_ifs
      · exact ⟨w, rfl, h, rfl, fun _ _ hx => hx⟩
      have hs : SameType conf w (w.obj p) := fun q hq _ => by rw [horder p (by simp) q hq]
      obtain ⟨w1, hdel, hk, -, hobjs, hcache⟩ := h.deleted hs
      refine ⟨w1, hdel, hk, hobjs, fun x q hx => ?_⟩
      rw [hcache] at hx
      exact (get_del_eq_some.1 hx).2
    obtain ⟨w1, hw1, hk1, hobjs, hcache⟩ := hone
    obtain ⟨w2, hw2, hk2⟩ := ih hk1 fun p hp q hq => by
      rw [obj_congr hobjs] at hq
      exact horder p (by simp [hp]) q (hcache _ _ hq)
    refine ⟨w2, ?_, hk2⟩
    rwa [foldlM_cons, hw1]

lemma Kept.mem_cached (h : Kept conf w) {p : Nat} (hp : p ∈ w.cached) :
    w.cache.get (w.obj p).id = some p := by
  obtain ⟨⟨id, q⟩, hq, rfl⟩ := mem_map.1 hp
  have hget : w.cache.get id = some q := mem_pairs.1 hq
  rwa [(h.cached id q hget).2.1]

/-- Nodes are loaded once, a deleted node is of the type that its bare id has, and an update or a
shutdown comes with the label by which the node is listed. Every node of the database has an
instance id. -/
def Settled (conf : Conf) (w : World) : Event → Prop
  | .load nodes => (∀ n ∈ nodes, n.insID ≠ [] ∧ w.cache.get n.id = none) ∧ (nodes.map Node.id).Nodup
  | .del insIDs => ∀ id ∈ insIDs, SameType conf w (bareNode id)
  | .upsert nodes => (∀ n ∈ nodes, n.insID ≠ [] ∧ SameType conf w n) ∧ OneType conf w nodes
  | .down nodes _ => (∀ n ∈ nodes, SameType conf w n) ∧ OneType conf w nodes
  | .sync nodes _ => (∀ n ∈ nodes, n.insID ≠ [] ∧ SameType conf w n) ∧ OneType conf w nodes

lemma Kept.upsert (h : Kept conf w) (hs : ∀ n ∈ nodes, n.insID ≠ [] ∧ SameType conf w n)
    (hone : OneType conf w nodes) :
    ∃ w', nodes.foldlM (NodeCache.upsertNode conf) w = .ok w' ∧ Kept conf w' :=
  h.foldlM (fun _ hw n hn hs' => hw.upsertNode (hs n hn).1 hs') (fun n hn => (hs n hn).2) hone

lemma Kept.handle {e : Event} (h : Kept conf w) (hok : Settled conf w e)
    (hpos : possible conf w e = true) : ∃ w', handle conf w e = .ok w' ∧ Kept conf w' := by
  cases e with
  | load nodes =>
    exact ⟨_, rfl, h.load (fun n hn => (hok.1 n hn).1) (fun n hn => (hok.1 n hn).2) hok.2⟩
  | del insIDs =>
    have hfold : insIDs.foldlM (fun w id => NodeCache.delNodeCache conf w (bareNode id)) w =
        (insIDs.map bareNode).foldlM (NodeCache.delNodeCache conf) w :=
      foldlM_map.symm
    simp only [NodeCache.handle]
    rw [hfold]
    refine h.foldlM (fun _ hw n _ hs => hw.delNodeCache hs) (fun n hn => ?_) fun a ha b hb hab => ?_
    · obtain ⟨id, hid, rfl⟩ := mem_map.1 hn
      exact hok id hid
    obtain ⟨x, -, rfl⟩ := mem_map.1 ha
    obtain ⟨y, -, rfl⟩ := mem_map.1 hb
    rfl
  | upsert nodes => exact h.upsert hok.1 hok.2
  | down nodes now => exact h.foldlM (fun _ hw n _ hs => hw.downNodeCache hs now) hok.1 hok.2
  | sync nodes order =>
    obtain ⟨w1, hw1, hk1⟩ := h.upsert hok.1 hok.2
    simp only [NodeCache.handle, NodeCache.possible, hw1, Result.world, decide_eq_true_eq] at hpos ⊢
    unfold NodeCache.checkDirty
    split_ifs
    · exact ⟨w1, rfl, hk1⟩
    · refine hk1.checkDirty _ fun p hp q hq => ?_
      exact Option.some.inj (hq.symm.trans (hk1.mem_cached (hpos.mem_iff.1 hp)))

/-- **The lists as the cache has them**: a healthy cached node is once in the list of its type and
in no other, and any other node is in none. -/
structure Indexed (conf : Conf) (w : World) : Prop where
  listed : ∀ id p, w.cache.get id = some p → (w.obj p).healthy = true →
    ∀ k, (w.ids (w.list k)).count id = if k = w.typeName conf (w.obj p) then 1 else 0
  absent : ∀ id, (∀ p, w.cache.get id = some p → (w.obj p).healthy = false) →
    ∀ k, id ∉ w.ids (w.list k)

lemma Kept.mem_ids (h : Kept conf w) {k : Bytes} : id ∈ w.ids (w.list k) ↔
    ∃ p, w.cache.get id = some p ∧ (w.obj p).healthy = true ∧ w.typeName conf (w.obj p) = k := by
  unfold World.ids
  rw [mem_map]
  constructor
  · rintro ⟨p, hp, rfl⟩
    exact ⟨p, (h.lists k p).1 hp⟩
  rintro ⟨p, hp, hrest⟩
  have hid := (h.cached id p hp).2.1
  exact ⟨p, (h.lists k p).2 ⟨by rw [hid, hp], hrest⟩, hid⟩

lemma Kept.indexed (h : Kept conf w) : Indexed conf w where
  listed := by
    intro id p hp hh k
    have hnd : (w.ids (w.list k)).Nodup :=
      (h.nodup k).map_on fun _ hp _ hq hid => h.eq_of_id hp hq hid
    rw [hnd.count]
    refine if_congr (h.mem_ids.trans ⟨?_, fun hk => ⟨p, hp, hh, hk.symm⟩⟩) rfl rfl
    rintro ⟨q, hq, -, rfl⟩
    rw [Option.some.inj (hq.symm.trans hp)]
  absent := by
    intro id hno k hmem
    obtain ⟨p, hp, hh, -⟩ := h.mem_ids.1 hmem
    rw [hno p hp] at hh
    cases hh

lemma kept_init (conf : Conf) : Kept conf (World.init conf) := by
  have hempty (types : List Bytes) (t : Tbl Bytes (List Nat))
      (ht : ∀ k l, t.get k = some l → l = []) :
      ∀ k l, (types.foldl (fun t k => t.put k []) t).get k = some l → l = [] := by
    induction types generalizing t with
    | nil => exact ht
    | cons x types ih =>
      refine ih _ fun k l hl => ?_
      obtain ⟨-, rfl⟩ | ⟨-, hl⟩ := get_put_eq_some.1 hl
      · rfl
      · exact ht k l hl
  have hdefault (types : List Bytes) (t : Tbl Bytes (List Nat))
      (ht : (t.get defaultInstanceTypeName).isSome = true) :
      ((types.foldl (fun t k => t.put k []) t).get defaultInstanceTypeName).isSome = true := by
    induction types generalizing t with
    | nil => exact ht
    | cons x types ih =>
      exact ih _ (Tbl.isSome_put ht)
  have hlist (k : Bytes) : (World.init conf).list k = [] := by
    unfold World.list
    cases hk : (World.init conf).lists.get k with
    | none => rfl
    | some l =>
      refine hempty conf.types _ (fun k l hl => ?_) k l hk
      obtain ⟨-, rfl⟩ | ⟨-, hl⟩ := get_put_eq_some.1 hl
      · rfl
      · simp at hl
  refine ⟨hdefault _ _ (by simp), fun id p hp => ?_, fun k => ?_, fun k p => ?_⟩
  · simp [World.init] at hp
  · rw [hlist]
    exact nodup_nil
  rw [hlist]
  refine iff_of_false (by simp) fun hb => ?_
  simp [World.Belongs, World.init] at hb

lemma kept_step {e : Event} {w' : World} (h : Kept conf w) (hok : Settled conf w e)
    (hstep : step conf w e = some w') : Kept conf w' := by
  unfold step at hstep
  split_ifs at hstep with hpos
  obtain ⟨w1, hw1, hk⟩ := h.handle hok hpos
  rw [hw1] at hstep
  exact Option.some.inj hstep ▸ hk

/-- **The node lists are right** if events keep the instance types of the nodes they are about. -/
theorem node_lists_indexed (conf : Conf) (es : List Event) (w : World)
    (hm : Runs.Meets (step conf) (Settled conf) (World.init conf) es)
    (h : exec (step conf) (World.init conf) es = some w) : Indexed conf w :=
  (exec_inv (fun _ _ _ hk hok hstep => kept_step hk hok hstep) (kept_init conf) hm h).indexed

end Events

instance (conf : Conf) (w : World) (n : Node) : Decidable (SameType conf w n) :=
  decidable_of_iff (∀ p ∈ (w.cache.get n.id).toList, (w.obj p).healthy = true →
    w.typeName conf (w.obj p) = w.typeName conf n) (by simp [SameType])

instance (conf : Conf) (w : World) (nodes : List Node) : Decidable (OneType conf w nodes) :=
  inferInstanceAs (Decidable (∀ m ∈ nodes, ∀ n ∈ nodes, m.id = n.id →
    w.typeName conf m = w.typeName conf n))

instance (conf : Conf) (w : World) : ∀ e, Decidable (Settled conf w e)
  | .load nodes => inferInstanceAs (Decidable ((∀ n ∈ nodes, n.insID ≠ [] ∧
      w.cache.get n.id = none) ∧ (nodes.map Node.id).Nodup))
  | .del insIDs => inferInstanceAs (Decidable (∀ id ∈ insIDs, SameType conf w (bareNode id)))
  | .upsert nodes => inferInstanceAs (Decidable ((∀ n ∈ nodes, n.insID ≠ [] ∧
      SameType conf w n) ∧ OneType conf w nodes))
  | .down nodes _ => inferInstanceAs (Decidable ((∀ n ∈ nodes, SameType conf w n) ∧
      OneType conf w nodes))
  | .sync nodes _ => inferInstanceAs (Decidable ((∀ n ∈ nodes, n.insID ≠ [] ∧
      SameType conf w n) ∧ OneType conf w nodes))

section Demo

def big : Bytes := ascii "big"

/-- Nodes with the label `b` are of the type `big`. -/
def demoConf : Conf := ⟨[big], (∅ : Tbl Bytes Bytes).put (ascii "b") big⟩

def demoNode (insID : String) (label : String) : Node :=
  ⟨0, ascii insID, [], ascii label, true, true, 0⟩

/-- Nodes of both types come and go, and a sync drops one of them. -/
def orderly : List Event :=
  [.load [demoNode "m" "", demoNode "n" "b"], .down [demoNode "n" "b"] 5,
    .upsert [demoNode "n" "b"], .del [ascii "m"], .sync [demoNode "o" ""] [2, 1]]

/-- **The condition is met** by such a run. -/
theorem orderly_indexed : ∃ w, exec (step demoConf) (World.init demoConf) orderly = some w ∧
    Indexed demoConf w := by
  have hsome : (exec (step demoConf) (World.init demoConf) orderly).isSome = true := by
    decide +kernel
  obtain ⟨w, hw⟩ := Option.isSome_iff_exists.1 hsome
  exact ⟨w, hw, node_lists_indexed demoConf orderly w (by decide +kernel) hw⟩

def relabelled : List Event := [.load [demoNode "n" "b"], .upsert [demoNode "n" ""]]

def deletedById : List Event := [.load [demoNode "n" "b"], .del [ascii "n"]]

def downRelabelled : List Event := [.load [demoNode "n" "b"], .down [demoNode "n" ""] 5]

/-- Whether the node is cached, whether it is healthy, and how often it is in each list. -/
def facts (w : World) : Bool × Bool × Nat × Nat :=
  ((w.cache.get (ascii "n")).isSome, (w.obj 0).healthy,
    (w.ids (w.list defaultInstanceTypeName)).count (ascii "n"),
    (w.ids (w.list big)).count (ascii "n"))

lemma stale_facts : [relabelled, deletedById, downRelabelled].map
      (fun es => (exec (step demoConf) (World.init demoConf) es).map facts) =
    [some (true, true, 1, 1), some (false, true, 0, 1), some (true, false, 0, 1)] := by
  decide +kernel

/-- **A deleted node stays in a list**: it is looked for in the default list only. -/
theorem deleted_node_listed : ¬ ∀ (conf : Conf) (es : List Event) (w : World),
    exec (step conf) (World.init conf) es = some w → Indexed conf w := by
  intro hall
  have hrun := (List.cons.inj (List.cons.inj stale_facts).2).1
  obtain ⟨w, hw, hfacts⟩ := Option.map_eq_some_iff.1 hrun
  have hcache : (w.cache.get (ascii "n")).isSome = false := congrArg Prod.fst hfacts
  have hcount : (w.ids (w.list big)).count (ascii "n") = 1 := congrArg (fun f => f.2.2.2) hfacts
  refine (hall demoConf _ w hw).absent (ascii "n") (fun p hp => ?_) big ?_
  · rw [hp] at hcache
    cases hcache
  · exact count_pos_iff.1 (by omega)

end Demo

end CubeSandbox.NodeCache
