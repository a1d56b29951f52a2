import Mathlib

/-!
Finite tables, and the multiset of their entries.

The multiset is what ownership is counted with: a new key adds one entry, and removing a key
takes exactly its entry away.
-/

namespace CubeSandbox

/-- A finite table with at most one value for each key. -/
abbrev Tbl (K V : Type) := AList fun _ : K => V

namespace Tbl

variable {K V : Type}

def toPairs (t : Tbl K V) : List (K × V) := t.entries.map fun e => (e.1, e.2)

def pairs (t : Tbl K V) : Multiset (K × V) := t.toPairs

@[simp] lemma pairs_empty : pairs (∅ : Tbl K V) = 0 := rfl

variable (t : Tbl K V)

lemma nodup_keys : (t.pairs.map Prod.fst).Nodup := by
  have h : (t.entries.map fun e => (e.1, e.2)).map Prod.fst = t.keys := by
    simp [AList.keys, List.keys]
  simpa [pairs, toPairs, h] using t.keys_nodup

lemma nodup_pairs : t.pairs.Nodup := Multiset.Nodup.of_map _ t.nodup_keys

variable [DecidableEq K]

/-- The instance of the library does not compute. -/
instance [DecidableEq V] : DecidableEq (Tbl K V) := fun s t =>
  decidable_of_iff (s.entries = t.entries) AList.ext_iff.symm

def get (t : Tbl K V) (k : K) : Option V := t.lookup k

/-- Update, whether or not the key is present. -/
def put (t : Tbl K V) (k : K) (v : V) : Tbl K V := t.insert k v

def del (t : Tbl K V) (k : K) : Tbl K V := t.erase k

/-- A key that has a value. -/
def keyOf [DecidableEq V] (t : Tbl K V) (v : V) : Option K :=
  (t.toPairs.find? fun e => e.2 = v).map Prod.fst

@[simp] lemma get_empty (k : K) : get (∅ : Tbl K V) k = none := rfl

@[simp] lemma get_put_self (k : K) (v : V) : (t.put k v).get k = some v :=
  AList.lookup_insert t

variable {k x : K}

lemma get_put_ne (v : V) (h : x ≠ k) : (t.put k v).get x = t.get x :=
  AList.lookup_insert_ne h

@[simp] lemma get_del_self (k : K) : (t.del k).get k = none :=
  AList.lookup_erase k t

lemma get_del_ne (h : x ≠ k) : (t.del k).get x = t.get x :=
  AList.lookup_erase_ne h

lemma get_put (v : V) : (t.put k v).get x = if x = k then some v else t.get x := by
  split_ifs with h
  · rw [h, get_put_self]
  · exact get_put_ne t v h

lemma get_del : (t.del k).get x = if x = k then none else t.get x := by
  split_ifs with h
  · rw [h, get_del_self]
  · exact get_del_ne t h

variable {t : Tbl K V} {v : V}

lemma isSome_put (h : (t.get x).isSome) : ((t.put k v).get x).isSome := by
  rw [get_put]
  split
  · rfl
  · exact h

lemma get_put_eq_some {w : V} :
    (t.put k v).get x = some w ↔ (x = k ∧ v = w) ∨ (x ≠ k ∧ t.get x = some w) := by
  rw [get_put]
  split_ifs with h <;> simp [h]

lemma get_del_eq_some {w : V} : (t.del k).get x = some w ↔ x ≠ k ∧ t.get x = some w := by
  rw [get_del]
  split_ifs with h <;> simp [h]

def delAll (t : Tbl K V) (ks : List K) : Tbl K V := ks.foldl del t

lemma get_delAll (ks : List K) (k : K) :
    (t.delAll ks).get k = if k ∈ ks then none else t.get k := by
  unfold delAll
  induction ks generalizing t with
  | nil => simp
  | cons x xs ih =>
    rw [List.foldl_cons, ih, get_del]
    by_cases hx : k = x <;> simp [hx]

lemma mem_pairs : (k, v) ∈ t.pairs ↔ t.get k = some v := by
  simp only [pairs, toPairs, Multiset.mem_coe, List.mem_map, Prod.mk.injEq]
  constructor
  · rintro ⟨⟨k', v'⟩, h, rfl, rfl⟩
    exact AList.mem_lookup_iff.2 h
  · exact fun h => ⟨⟨k, v⟩, AList.mem_lookup_iff.1 h, rfl, rfl⟩

lemma keyOf_eq_some [DecidableEq V] (h : t.keyOf v = some k) : t.get k = some v := by
  obtain ⟨⟨k', v'⟩, he, rfl⟩ := Option.map_eq_some_iff.1 h
  have hv : v' = v := by simpa using List.find?_some he
  exact mem_pairs.1 (hv ▸ Multiset.mem_coe.2 (List.mem_of_find?_eq_some he))

lemma keyOf_eq_none [DecidableEq V] (h : t.keyOf v = none) (k : K) : t.get k ≠ some v := by
  intro hk
  have hmem : (k, v) ∈ t.toPairs := mem_pairs.2 hk
  simp only [keyOf, Option.map_eq_none_iff, List.find?_eq_none] at h
  exact h _ hmem (by simp)

lemma pairs_put (h : t.get k = none) (v : V) : (t.put k v).pairs = (k, v) ::ₘ t.pairs := by
  rw [pairs, toPairs, put, AList.entries_insert_of_notMem (AList.lookup_eq_none.1 h)]
  rfl

lemma pairs_del (h : t.get k = some v) : t.pairs = (k, v) ::ₘ (t.del k).pairs := by
  rw [← pairs_put (get_del_self t k)]
  refine (Multiset.Nodup.ext (nodup_pairs _) (nodup_pairs _)).2 fun ⟨k', v'⟩ => ?_
  rw [mem_pairs, mem_pairs]
  by_cases hk : k' = k
  · subst hk; rw [get_put_self, h]
  · rw [get_put_ne _ _ hk, get_del_ne _ hk]

lemma pairs_del_of_none (h : t.get k = none) : (t.del k).pairs = t.pairs := by
  refine (Multiset.Nodup.ext (nodup_pairs _) (nodup_pairs _)).2 fun ⟨k', v'⟩ => ?_
  rw [mem_pairs, mem_pairs, get_del_eq_some]
  refine and_iff_right_of_imp fun hk' => ?_
  rintro rfl
  simp [h] at hk'

end Tbl

end CubeSandbox
