import CubeSandbox.Faults
import CubeSandbox.GoText
import CubeSandbox.VsTypes

/-!
Removal of a TAP device from the kernel maps (`DelTAPDevice` of `tap.go`, the flushes of
`netpolicy.go` and `dnspolicy.go`, `cleanupCubeVSTap` of `local_service.go`), where every call
into the kernel may fail.

A removal stops at its first error and is tried again later. Nothing else changes the maps
meanwhile, so that the iterator of a flush meets each key once: the kernel starts over at the
first key when the one it last returned is gone.
-/

namespace CubeSandbox.TapRemoval

open Vs GoText Sys Tbl

/-- The maps that a removal touches; an inner map stands for what its identifier leads to. -/
structure Kernel where
  allowOutV2 : Tbl UInt32 (Tbl LpmKey NetPolicyValueV2)
  denyOut : Tbl UInt32 (Tbl LpmKey UInt32)
  dnsAllow : Tbl UInt32 (Tbl Bytes DnsAllowValue)
  ifindexToMvmMetadata : Tbl UInt32 MvmMeta
  mvmIpToIfindex : Tbl UInt32 UInt32

/-- A pinned map: its name and where it stands in the kernel. -/
structure Pinned (V : Type) where
  name : String
  get : Kernel → Tbl UInt32 V
  set : Kernel → Tbl UInt32 V → Kernel
  get_set : ∀ k t, get (set k t) = t := by intros; rfl
  set_set : ∀ k t t', set (set k t) t' = set k t' := by intros; rfl
  set_get : ∀ k, set k (get k) = k := by intros; rfl

def mapAllowOutV2 : Pinned (Tbl LpmKey NetPolicyValueV2) where
  name := "allow_out_v2"
  get := Kernel.allowOutV2
  set k t := { k with allowOutV2 := t }

def mapDenyOut : Pinned (Tbl LpmKey UInt32) where
  name := "deny_out"
  get := Kernel.denyOut
  set k t := { k with denyOut := t }

def mapDnsAllow : Pinned (Tbl Bytes DnsAllowValue) where
  name := "dns_allow"
  get := Kernel.dnsAllow
  set k t := { k with dnsAllow := t }

def mapIfindexToMvmMetadata : Pinned MvmMeta where
  name := "ifindex_to_mvmmeta"
  get := Kernel.ifindexToMvmMetadata
  set k t := { k with ifindexToMvmMetadata := t }

def mapMvmIpToIfindex : Pinned UInt32 where
  name := "mvmip_to_ifindex"
  get := Kernel.mvmIpToIfindex
  set k t := { k with mvmIpToIfindex := t }

section
variable {K V : Type} [DecidableEq K]

/-- A call that does nothing to the maps. -/
def touch : Sys Kernel Unit := call fun k => .ok ((), k)

def loadPinnedMap (name : String) : Sys Kernel Unit :=
  wrapErr "ebpf.LoadPinnedMap failed: " (", name: " ++ name) touch

def lookup (m : Pinned V) (key : UInt32) : Sys Kernel V :=
  call fun k =>
    match (m.get k).get key with
    | some v => .ok (v, k)
    | none => .error .keyNotExist

def delete (m : Pinned V) (key : UInt32) : Sys Kernel Unit :=
  call fun k =>
    match (m.get k).get key with
    | some _ => .ok ((), m.set k ((m.get k).del key))
    | none => .error .keyNotExist

/-- A deletion in an inner map, through the handle that `NewMapFromID` gave. -/
def deleteInner (m : Pinned (Tbl K V)) (ifindex : UInt32) (key : K) : Sys Kernel Unit :=
  call fun k =>
    match (m.get k).get ifindex with
    | some inner =>
      match inner.get key with
      | some _ => .ok ((), m.set k ((m.get k).put ifindex (inner.del key)))
      | none => .error .keyNotExist
    | none => .error .keyNotExist

def newMapFromId : Sys Kernel Unit := wrapErr "ebpf.NewMapFromID failed: " ", id" touch

/-- The loop of a flush over the keys still to come. The call that finds the end can fail as
well. -/
def flushLoop (m : Pinned (Tbl K V)) (ifindex : UInt32) (what : String) : List K → Sys Kernel Unit
  | [] => wrapErr (what ++ " iterate failed: ") "" touch
  | key :: keys => do
    wrapErr (what ++ " iterate failed: ") "" touch
    wrapErr (what ++ " delete failed: ") "" (allowMissing (deleteInner m ifindex key))
    flushLoop m ifindex what keys

def flushInnerMapWithValue (m : Pinned (Tbl K V)) (ifindex : UInt32) : Sys Kernel Unit := do
  match ← attempt (lookup m ifindex) with
  | .error e => if e.isKeyNotExist then return () else throw (.wrap "map.Lookup failed: " e "")
  | .ok inner =>
    newMapFromId
    flushLoop m ifindex "inner map" inner.keys

end

/-- Both tries of a policy; their inner maps stay. -/
def cleanupNetPolicy (ifindex : UInt32) : Sys Kernel Unit := do
  loadPinnedMap mapAllowOutV2.name
  wrapErr ("flush " ++ mapAllowOutV2.name ++ " failed: ") ""
    (flushInnerMapWithValue mapAllowOutV2 ifindex)
  loadPinnedMap mapDenyOut.name
  flushInnerMapWithValue mapDenyOut ifindex

/-- "Clears the sandbox DNS allow inner map while keeping it preallocated." -/
def cleanupDnsAllow (ifindex : UInt32) : Sys Kernel Unit := do
  loadPinnedMap mapDnsAllow.name
  match ← attempt (wrapErr "map.Lookup failed: " "" (lookup mapDnsAllow ifindex)) with
  | .error e => if e.isKeyNotExist then return () else throw e
  | .ok inner =>
    newMapFromId
    flushLoop mapDnsAllow ifindex "dns allow" inner.keys

/-- A missing key is an error here, and the second map is not reached after one. -/
def delTapDevice (ifindex ip : UInt32) : Sys Kernel Unit := do
  cleanupNetPolicy ifindex
  cleanupDnsAllow ifindex
  loadPinnedMap mapIfindexToMvmMetadata.name
  wrapErr "map.Delete failed: " (", name: " ++ mapIfindexToMvmMetadata.name)
    (delete mapIfindexToMvmMetadata ifindex)
  loadPinnedMap mapMvmIpToIfindex.name
  wrapErr "map.Delete failed: " (", name: " ++ mapMvmIpToIfindex.name)
    (delete mapMvmIpToIfindex ip)

def cleanupCubeVSTap (ifindex ip : UInt32) : Sys Kernel Unit :=
  allowMissing (delTapDevice ifindex ip)

/-- The maps after attempts whose calls went as the list says, whatever each one returned. -/
def attempts (ifindex ip : UInt32) (k : Kernel) (fates : List Fate) : Kernel :=
  fates.foldl (fun k w => (cleanupCubeVSTap ifindex ip).after k w) k

/-- An error that does not say that a key is missing. -/
def Hard (e : GoErr) (_ : Kernel) : Prop := e.isKeyNotExist = false

/-- The inner map of an interface, if there is one, has no entry. -/
def Emptied {K V : Type} [DecidableEq K] (t : Tbl UInt32 (Tbl K V)) (ifindex : UInt32) : Prop :=
  ∀ inner, t.get ifindex = some inner → ∀ key, inner.get key = none

lemma touch_ends (k : Kernel) : Ends touch k (fun _ k' => k' = k) Hard := by
  refine .call (fun t => rfl) nofun fun a k' h => ?_
  cases h
  rfl

variable {k : Kernel}

lemma wrapErr_hard {A : Type} {p : Sys Kernel A} {Q : A → Kernel → Prop} {before after : String}
    (h : Ends p k Q Hard) : Ends (wrapErr before after p) k Q Hard :=
  .wrapErr (h.mono (fun _ _ hq => hq) fun _ _ he => he)

lemma loadPinnedMap_ends (name : String) (k : Kernel) :
    Ends (loadPinnedMap name) k (fun _ k' => k' = k) Hard :=
  wrapErr_hard (touch_ends k)

lemma newMapFromId_ends (k : Kernel) : Ends newMapFromId k (fun _ k' => k' = k) Hard :=
  wrapErr_hard (touch_ends k)

lemma lookup_ends {V : Type} (m : Pinned V) (k : Kernel) (key : UInt32) :
    Ends (lookup m key) k (fun v k' => k' = k ∧ (m.get k).get key = some v)
      (fun e k' => k' = k ∧ (e.isKeyNotExist = true → (m.get k).get key = none)) := by
  refine .call (fun t => ⟨rfl, nofun⟩) ?_ ?_
  · intro e he
    cases hg : (m.get k).get key with
    | some v => simp [hg] at he
    | none => exact ⟨rfl, fun _ => rfl⟩
  intro a k' h
  cases hg : (m.get k).get key with
  | none => simp [hg] at h
  | some v =>
    simp only [hg, Except.ok.injEq, Prod.mk.injEq] at h
    obtain ⟨rfl, rfl⟩ := h
    exact ⟨rfl, rfl⟩

lemma delete_ends {V : Type} (m : Pinned V) (key : UInt32) (k : Kernel) : Ends (delete m key) k
      (fun _ k' => (m.get k).get key ≠ none ∧ k' = m.set k ((m.get k).del key))
      (fun e k' => k' = k ∧ (e.isKeyNotExist = true → (m.get k).get key = none)) := by
  refine .call (fun t => ⟨rfl, nofun⟩) ?_ ?_
  · intro e he
    cases hg : (m.get k).get key with
    | some v => simp [hg] at he
    | none => exact ⟨rfl, fun _ => rfl⟩
  intro a k' h
  cases hg : (m.get k).get key with
  | none => simp [hg] at h
  | some v =>
    simp only [hg, Except.ok.injEq, Prod.mk.injEq] at h
    exact ⟨nofun, h.2.symm⟩

section
variable {K V : Type} [DecidableEq K] {m : Pinned (Tbl K V)} {ifindex : UInt32} {inner : Tbl K V}

lemma deleteInner_ends (key : K) (hin : (m.get k).get ifindex = some inner) :
    Ends (allowMissing (deleteInner m ifindex key)) k
      (fun _ k' => ∃ t inner', k' = m.set k t ∧ t.get ifindex = some inner' ∧
        ∀ x, inner'.get x = if x = key then none else inner.get x) Hard := by
  refine .allowMissing (.call (fun t => rfl) ?_ ?_)
  · intro e he
    simp only [hin] at he
    cases hk : inner.get key with
    | some v => simp [hk] at he
    | none =>
      simp only [hk, Except.error.injEq] at he
      subst he
      refine ⟨m.get k, inner, (m.set_get k).symm, hin, fun x => ?_⟩
      by_cases hx : x = key
      · simp [hx, hk]
      · simp [hx]
  · intro a k' h
    simp only [hin] at h
    cases hk : inner.get key with
    | none => simp [hk] at h
    | some v =>
      simp only [hk, Except.ok.injEq, Prod.mk.injEq] at h
      exact ⟨_, inner.del key, h.2.symm, get_put_self _ _ _, fun x => get_del _⟩

lemma flushLoop_ends (what : String) (keys : List K)
    (hin : (m.get k).get ifindex = some inner) (hkeys : ∀ x, inner.get x ≠ none → x ∈ keys) :
    Ends (flushLoop m ifindex what keys) k
      (fun _ k' => ∃ t, k' = m.set k t ∧ Emptied t ifindex) Hard := by
  induction keys generalizing k inner with
  | nil =>
    refine (wrapErr_hard (touch_ends k)).mono ?_ fun _ _ he => he
    rintro _ _ rfl
    refine ⟨_, (m.set_get _).symm, fun inner' h' key => ?_⟩
    cases hin.symm.trans h'
    by_contra hne
    cases hkeys key hne
  | cons key keys ih =>
    refine (wrapErr_hard (touch_ends k)).bind ?_
    rintro _ _ rfl
    refine (wrapErr_hard (deleteInner_ends key hin)).bind ?_
    rintro _ _ ⟨t, inner', rfl, ht, hget⟩
    have hrest : ∀ x, inner'.get x ≠ none → x ∈ keys := by
      intro x hx
      rw [hget] at hx
      by_cases hxk : x = key
      · simp [hxk] at hx
      · rw [if_neg hxk] at hx
        exact (List.mem_cons.1 (hkeys x hx)).resolve_left hxk
    refine (ih ((m.get_set _ t).symm ▸ ht) hrest).mono ?_ fun _ _ he => he
    rintro _ _ ⟨t', rfl, ht'⟩
    exact ⟨t', m.set_set _ _ _, ht'⟩

lemma mem_keys_of_get (x : K) (h : inner.get x ≠ none) : x ∈ inner.keys :=
  AList.lookup_isSome.1 (Option.isSome_iff_ne_none.2 h)

lemma emptied_of_none {t : Tbl UInt32 (Tbl K V)} (h : t.get ifindex = none) :
    Emptied t ifindex := by
  intro inner hin
  rw [h] at hin
  cases hin

lemma flushInnerMapWithValue_ends (m : Pinned (Tbl K V)) (k : Kernel) (ifindex : UInt32) :
    Ends (flushInnerMapWithValue m ifindex) k
      (fun _ k' => ∃ t, k' = m.set k t ∧ Emptied t ifindex) Hard := by
  refine (lookup_ends m k ifindex).attempt.bind fun r k' hr => ?_
  cases r with
  | error e =>
    obtain ⟨rfl, he⟩ := hr
    by_cases hm : e.isKeyNotExist
    · simp only [hm, if_true]
      exact .pure ⟨_, (m.set_get _).symm, emptied_of_none (he hm)⟩
    · simp only [hm]
      exact .throw (by simpa [Hard, GoErr.isKeyNotExist] using hm)
  | ok inner =>
    obtain ⟨rfl, hin⟩ := hr
    refine (newMapFromId_ends _).bind ?_
    rintro _ _ rfl
    exact flushLoop_ends _ _ hin mem_keys_of_get

end

lemma cleanupNetPolicy_ends (ifindex : UInt32) (k : Kernel) : Ends (cleanupNetPolicy ifindex) k
      (fun _ k' => ∃ allow deny, k' = { k with allowOutV2 := allow, denyOut := deny } ∧
        Emptied allow ifindex ∧ Emptied deny ifindex) Hard := by
  refine (loadPinnedMap_ends _ k).bind ?_
  rintro _ _ rfl
  refine (wrapErr_hard (flushInnerMapWithValue_ends mapAllowOutV2 _ ifindex)).bind ?_
  rintro _ _ ⟨allow, rfl, hallow⟩
  refine (loadPinnedMap_ends _ _).bind ?_
  rintro _ _ rfl
  refine (flushInnerMapWithValue_ends mapDenyOut _ ifindex).mono ?_ fun _ _ he => he
  rintro _ _ ⟨deny, rfl, hdeny⟩
  exact ⟨allow, deny, rfl, hallow, hdeny⟩

lemma cleanupDnsAllow_ends (ifindex : UInt32) (k : Kernel) : Ends (cleanupDnsAllow ifindex) k
      (fun _ k' => ∃ dns, k' = { k with dnsAllow := dns } ∧ Emptied dns ifindex) Hard := by
  refine (loadPinnedMap_ends _ k).bind ?_
  rintro _ _ rfl
  refine (Ends.wrapErr (E := fun e k' => k' = _ ∧
    (e.isKeyNotExist = true → (mapDnsAllow.get _).get ifindex = none))
    (lookup_ends mapDnsAllow _ ifindex)).attempt.bind fun r k' hr => ?_
  cases r with
  | error e =>
    obtain ⟨rfl, he⟩ := hr
    by_cases hm : e.isKeyNotExist
    · simp only [hm, if_true]
      exact .pure ⟨_, rfl, emptied_of_none (he hm)⟩
    · simp only [hm]
      exact .throw (by simpa [Hard] using hm)
  | ok inner =>
    obtain ⟨rfl, hin⟩ := hr
    refine (newMapFromId_ends _).bind ?_
    rintro _ _ rfl
    exact flushLoop_ends _ _ hin mem_keys_of_get

/-- What a removal has done when it returns no error. -/
structure Removed (ifindex ip : UInt32) (k k' : Kernel) : Prop where
  unregistered : k'.ifindexToMvmMetadata.get ifindex = none
  allow : Emptied k'.allowOutV2 ifindex
  deny : Emptied k'.denyOut ifindex
  dns : Emptied k'.dnsAllow ifindex
  address : k.ifindexToMvmMetadata.get ifindex ≠ none → k'.mvmIpToIfindex.get ip = none

lemma cleanupCubeVSTap_ends (ifindex ip : UInt32) (k : Kernel) :
    Ends (cleanupCubeVSTap ifindex ip) k (fun _ k' => Removed ifindex ip k k')
      (fun _ _ => True) := by
  refine .allowMissing ?_
  have hhard : ∀ e k', Hard e k' → if e.isKeyNotExist then Removed ifindex ip k k' else True := by
    intro e k' he
    simp [show e.isKeyNotExist = false from he]
  refine ((cleanupNetPolicy_ends ifindex k).mono (fun _ _ h => h) hhard).bind ?_
  rintro _ _ ⟨allow, deny, rfl, hallow, hdeny⟩
  refine ((cleanupDnsAllow_ends ifindex _).mono (fun _ _ h => h) hhard).bind ?_
  rintro _ _ ⟨dns, rfl, hdns⟩
  refine ((loadPinnedMap_ends _ _).mono (fun _ _ h => h) hhard).bind ?_
  rintro _ _ rfl
  refine (Ends.wrapErr ((delete_ends mapIfindexToMvmMetadata ifindex _).mono (fun _ _ h => h)
    ?_)).bind ?_
  · -- the registration was gone already: the second map is not looked at
    rintro e _ ⟨rfl, he⟩
    by_cases hm : e.isKeyNotExist
    · have hnone : k.ifindexToMvmMetadata.get ifindex = none := he hm
      simp only [GoErr.isKeyNotExist, hm, if_true]
      exact ⟨hnone, hallow, hdeny, hdns, fun h => absurd hnone h⟩
    · simp [GoErr.isKeyNotExist, hm]
  rintro _ _ ⟨-, rfl⟩
  refine ((loadPinnedMap_ends _ _).mono (fun _ _ h => h) hhard).bind ?_
  rintro _ _ rfl
  refine Ends.wrapErr ((delete_ends mapMvmIpToIfindex ip _).mono ?_ ?_)
  · rintro _ _ ⟨-, rfl⟩
    exact ⟨get_del_self _ _, hallow, hdeny, hdns, fun _ => get_del_self _ _⟩
  rintro e _ ⟨rfl, he⟩
  by_cases hm : e.isKeyNotExist
  · simp only [GoErr.isKeyNotExist, hm, if_true]
    exact ⟨get_del_self _ _, hallow, hdeny, hdns, fun _ => he hm⟩
  · simp [GoErr.isKeyNotExist, hm]

/-- **A removal that is tried until it returns no error leaves no registration and no policy
entry**, whatever failed before. The address is gone too if the registration was still there when
the last attempt began. -/
theorem cleanup_complete_under_retry (ifindex ip : UInt32) (k k' : Kernel) (fates : List Fate)
    (w w' : Fate)
    (h : cleanupCubeVSTap ifindex ip (attempts ifindex ip k fates, w) = .ok () (k', w')) :
    Removed ifindex ip (attempts ifindex ip k fates) k' :=
  (cleanupCubeVSTap_ends ifindex ip _).ok h

/-- The maps agree but for one interface and one address. -/
structure Beside (ifindex ip : UInt32) (k k' : Kernel) : Prop where
  allow : ∀ j ≠ ifindex, k'.allowOutV2.get j = k.allowOutV2.get j
  deny : ∀ j ≠ ifindex, k'.denyOut.get j = k.denyOut.get j
  dns : ∀ j ≠ ifindex, k'.dnsAllow.get j = k.dnsAllow.get j
  registration : ∀ j ≠ ifindex, k'.ifindexToMvmMetadata.get j = k.ifindexToMvmMetadata.get j
  address : ∀ j ≠ ip, k'.mvmIpToIfindex.get j = k.mvmIpToIfindex.get j

section
variable {K V : Type} [DecidableEq K] {I : Kernel → Prop} {ifindex ip : UInt32}

lemma touch_keeps {before after : String} : Keeps I (wrapErr before after touch) :=
  .wrapErr (.call fun _ _ _ hf => by cases hf; exact id) _ _

lemma lookup_keeps (m : Pinned V) : Keeps I (lookup m ifindex) := .call fun _ _ _ hf => by
  split at hf <;> cases hf
  exact id

lemma delete_keeps {m : Pinned V} (hm : ∀ k, I k → I (m.set k ((m.get k).del ifindex))) :
    Keeps I (delete m ifindex) := .call fun k _ _ hf => by
  split at hf <;> cases hf
  exact hm k

variable {m : Pinned (Tbl K V)} (hm : ∀ k t, I k → I (m.set k ((m.get k).put ifindex t)))
include hm

lemma flushLoop_keeps (what : String) (keys : List K) :
    Keeps I (flushLoop m ifindex what keys) := by
  induction keys with
  | nil => exact touch_keeps
  | cons key keys ih =>
    refine touch_keeps.bind fun _ => (Keeps.wrapErr ?_ _ _).bind fun _ => ih
    refine .allowMissing (.call fun k _ _ hf => ?_)
    split at hf <;> try cases hf
    split at hf <;> cases hf
    exact hm k _

lemma flush_keeps {p : Sys Kernel (Tbl K V)} {f : Except GoErr (Tbl K V) → Sys Kernel Unit}
    (hp : Keeps I p) {what : String} {e' : GoErr → GoErr}
    (hok : ∀ t, f (.ok t) = do newMapFromId; flushLoop m ifindex what t.keys)
    (herr : ∀ e, f (.error e) = if e.isKeyNotExist then pure () else throw (e' e)) :
    Keeps I (attempt p >>= f) := by
  refine fun k hk => (hp k hk).attempt.bind fun r k' hr => ?_
  cases r with
  | ok => exact hok _ ▸ (touch_keeps.bind fun _ => flushLoop_keeps hm _ _) k' hr
  | error e =>
    rw [herr]
    split
    exacts [.pure hr, .throw hr]

end

lemma cleanupCubeVSTap_keeps (ifindex ip : UInt32) (k : Kernel) :
    Keeps (Beside ifindex ip k) (cleanupCubeVSTap ifindex ip) := by
  refine .allowMissing (.bind ?_ fun _ => .bind ?_ fun _ => touch_keeps.bind fun _ =>
    ((delete_keeps ?_).wrapErr _ _).bind fun _ => touch_keeps.bind fun _ =>
      (delete_keeps ?_).wrapErr _ _)
  · refine touch_keeps.bind fun _ =>
      ((flush_keeps ?_ (lookup_keeps mapAllowOutV2) (fun _ => rfl) fun _ => rfl).wrapErr _ _).bind
        fun _ => touch_keeps.bind fun _ =>
          flush_keeps ?_ (lookup_keeps mapDenyOut) (fun _ => rfl) fun _ => rfl
    · exact fun _ _ h => ⟨fun j hj => (get_put_ne _ _ hj).trans (h.1 j hj), h.2, h.3, h.4, h.5⟩
    · exact fun _ _ h => ⟨h.1, fun j hj => (get_put_ne _ _ hj).trans (h.2 j hj), h.3, h.4, h.5⟩
  · refine touch_keeps.bind fun _ => flush_keeps ?_ ((lookup_keeps mapDnsAllow).wrapErr _ _)
      (fun _ => rfl) fun _ => rfl
    exact fun _ _ h => ⟨h.1, h.2, fun j hj => (get_put_ne _ _ hj).trans (h.3 j hj), h.4, h.5⟩
  · exact fun _ h => ⟨h.1, h.2, h.3, fun j hj => (get_del_ne _ hj).trans (h.4 j hj), h.5⟩
  · exact fun _ h => ⟨h.1, h.2, h.3, h.4, fun j hj => (get_del_ne _ hj).trans (h.5 j hj)⟩

/-- **Removals touch no other interface and no other address**, whatever fails in them. -/
theorem others_untouched (ifindex ip : UInt32) (k : Kernel) (fates : List Fate) :
    Beside ifindex ip k (attempts ifindex ip k fates) := by
  have hrun : ∀ k', Beside ifindex ip k k' →
      Beside ifindex ip k (attempts ifindex ip k' fates) := by
    induction fates with
    | nil => exact fun _ => id
    | cons w fates ih => exact fun k' h => ih _ ((cleanupCubeVSTap_keeps _ _ k).after h w)
  exact hrun k ⟨fun _ _ => rfl, fun _ _ => rfl, fun _ _ => rfl, fun _ _ => rfl, fun _ _ => rfl⟩

/-- Nothing of the interface is left, its inner maps included. -/
structure Gone (ifindex ip : UInt32) (k : Kernel) : Prop where
  unregistered : k.ifindexToMvmMetadata.get ifindex = none
  address : k.mvmIpToIfindex.get ip = none
  allow : k.allowOutV2.get ifindex = none
  deny : k.denyOut.get ifindex = none
  dns : k.dnsAllow.get ifindex = none

/-- A registered interface with one address that it may reach. -/
def registered : Kernel where
  allowOutV2 := (∅ : Tbl _ _).put 7 ((∅ : Tbl _ _).put ⟨32, 0x08080808⟩ ⟨0, 0⟩)
  denyOut := (∅ : Tbl _ _).put 7 ∅
  dnsAllow := (∅ : Tbl _ _).put 7 ∅
  ifindexToMvmMetadata := (∅ : Tbl _ _).put 7 ⟨1, 0x0a00a8c0, 0⟩
  mvmIpToIfindex := (∅ : Tbl _ _).put 0x0a00a8c0 7

/-- An attempt whose first `n` calls work and whose next one fails. -/
def failsAfter (n : Nat) : Fate := List.replicate n none ++ [some "input/output error"]

theorem cleanup_after_failed_delete :
    ∃ k', cleanupCubeVSTap 7 0x0a00a8c0 (attempts 7 0x0a00a8c0 registered [failsAfter 15], []) =
        .ok () (k', []) ∧
      Removed 7 0x0a00a8c0 (attempts 7 0x0a00a8c0 registered [failsAfter 15]) k' :=
  ⟨_, rfl, cleanup_complete_under_retry 7 0x0a00a8c0 registered _ [failsAfter 15] [] [] rfl⟩

/-- The inner maps of a removed interface stay for its next use. -/
theorem inner_maps_remain :
    ¬ ∀ (ifindex ip : UInt32) (k k' : Kernel) (fates : List Fate) (w w' : Fate),
      cleanupCubeVSTap ifindex ip (attempts ifindex ip k fates, w) = .ok () (k', w') →
      Gone ifindex ip k' := by
  intro h
  have hgone := h 7 0x0a00a8c0 registered _ [] [] [] rfl
  exact absurd hgone.deny (by decide)

/-- The registration is deleted and the address is not: the next attempt takes the missing
registration for success. -/
theorem address_survives_retry :
    ∃ k', cleanupCubeVSTap 7 0x0a00a8c0 (attempts 7 0x0a00a8c0 registered [failsAfter 17], []) =
        .ok () (k', []) ∧
      k'.mvmIpToIfindex.get 0x0a00a8c0 = some 7 :=
  ⟨_, rfl, by decide⟩

end CubeSandbox.TapRemoval
