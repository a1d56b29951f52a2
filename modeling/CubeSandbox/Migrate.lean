import CubeSandbox.GoText
import CubeSandbox.Runs
import CubeSandbox.Tbl

/-!
Start-ups that migrate one database (`CubeDB/migrate`).

`Run` compares the recorded fingerprints with its own files before it waits for the session lock of
goose, and records what it has applied after it has given the lock back. Between these steps other
processes run, and a process may crash. What a process is told by its check is still true under the
lock only if nothing was applied in between, and only of versions that have a fingerprint.
-/

namespace CubeSandbox.Migrate

open GoText Runs List Option Tbl

abbrev Version := Nat

/-- The files of a process. A tree with two files of one version is refused before anything else. -/
abbrev Tree := Tbl Version Bytes

inductive Mismatch
  /-- The applied file is missing from the migrations tree. -/
  | missing (version : Version)
  /-- The content changed since it was applied. -/
  | changed (version : Version)
  deriving DecidableEq

inductive RunErr
  | ensureTable
  | currentlyApplied
  | loadStored
  | fingerprintMismatch (mismatches : List Mismatch)
  | gooseUp
  | recordOne
  deriving DecidableEq

/-- Where `Run` is: waiting with the versions that its check has seen, in `Up` with those still to
apply and those applied, or recording the latter. -/
inductive Pc
  | ensureTable
  | currentlyApplied
  | loadStored (applied : List Version)
  | waiting (applied : List Version)
  | up (pending applied : List Version)
  | record (results : List Version) (upErr : Bool)
  | returned (err : Option RunErr)
  | crashed
  deriving DecidableEq

structure Call where
  tree : Tree
  /-- `CUBEMASTER_MIGRATION_SKIP_FINGERPRINT_CHECK`. -/
  skip : Bool
  pc : Pc

/-- A step works, or fails with or without its effect on the database. -/
inductive Outcome
  | ok
  | failed (done : Bool)
  deriving DecidableEq

def Outcome.done : Outcome → Bool
  | ok => true
  | failed done => done

variable {S : Type}

structure World (S : Type) where
  /-- The versions of `goose_db_version`, with the content that each was applied with. -/
  applied : Tbl Version Bytes
  /-- `t_cubemaster_migration_fingerprint`. -/
  stored : Tbl Version S
  /-- The process with the session lock. -/
  lock : Option Nat
  calls : List Call

def World.start : World S := ⟨∅, ∅, none, []⟩

def versions (t : Tbl Version Bytes) : List Version := t.toPairs.map Prod.fst

def World.setPc (w : World S) (i : Nat) (c : Call) (pc : Pc) : World S :=
  { w with calls := w.calls.set i { c with pc := pc } }

/-- What goose applies, in its order. -/
def pendingOf (tree : Tree) (applied : Tbl Version Bytes) : List Version :=
  ((versions tree).filter fun v => (applied.get v).isNone).insertionSort (· ≤ ·)

section

variable [DecidableEq S] (sum : Bytes → S)

/-- The loop of `preflightFingerprints`. -/
def mismatches (tree : Tree) (applied : List Version) (stored : Tbl Version S) : List Mismatch :=
  stored.toPairs.filterMap fun x =>
    if x.1 ∉ applied then none
    else match tree.get x.1 with
      | none => some (.missing x.1)
      | some content => if sum content = x.2 then none else some (.changed x.1)

/-- The next step of `Run`. -/
def advance (w : World S) (i : Nat) (c : Call) (o : Outcome) : Option (World S) :=
  match c.pc with
  | .ensureTable =>
    some <| w.setPc i c <| if o ≠ .ok then .returned (some .ensureTable)
      else if c.skip then .waiting [] else .currentlyApplied
  | .currentlyApplied =>
    some <| w.setPc i c <|
      if o ≠ .ok then .returned (some .currentlyApplied) else .loadStored (versions w.applied)
  | .loadStored applied =>
    some <| w.setPc i c <| if o ≠ .ok then .returned (some .loadStored)
      else if mismatches sum c.tree applied w.stored = [] then .waiting applied
      else .returned (some (.fingerprintMismatch (mismatches sum c.tree applied w.stored)))
  | .waiting _ =>
    if o ≠ .ok then some (w.setPc i c (.record [] true))
    else if w.lock = none then
      some { w.setPc i c (.up (pendingOf c.tree w.applied) []) with lock := some i }
    else none
  | .up [] applied => some { w.setPc i c (.record applied (o ≠ .ok)) with lock := none }
  | .up (v :: pending) applied =>
    let db := if o.done then (c.tree.get v).elim w.applied (w.applied.put v) else w.applied
    if o = .ok then some { w.setPc i c (.up pending (applied ++ [v])) with applied := db }
    -- the results of a partial error are the versions applied before
    else some { w.setPc i c (.record applied true) with applied := db, lock := none }
  | .record [] upErr => some (w.setPc i c (.returned (if upErr then some .gooseUp else none)))
  | .record (v :: results) upErr =>
    let db :=
      if o.done then (c.tree.get v).elim w.stored fun content => w.stored.put v (sum content)
      else w.stored
    some { w.setPc i c (if o = .ok then .record results upErr else .returned (some .recordOne)) with
      stored := db }
  | .returned _ | .crashed => none

inductive Event
  | run (tree : Tree) (skip : Bool)
  | go (i : Nat) (o : Outcome)
  /-- The session of a process that crashes ends, and its lock with it. -/
  | crash (i : Nat)

def step (w : World S) : Event → Option (World S)
  | .run tree skip => some { w with calls := w.calls ++ [⟨tree, skip, .ensureTable⟩] }
  | .go i o => (w.calls[i]?).bind fun c => advance sum w i c o
  | .crash i => (w.calls[i]?).map fun c =>
    { w.setPc i c .crashed with lock := if w.lock = some i then none else w.lock }

/-- **No drift is silent**: for a run that returned without an error and without the bypass, every
applied version with a file in its tree was applied with that content. -/
def Faithful (w : World S) : Prop :=
  ∀ c ∈ w.calls, c.skip = false → c.pc = .returned none → ∀ v content applied,
    c.tree.get v = some content → w.applied.get v = some applied → applied = content

/-- The applied versions that a tree has with another content. -/
def drift (tree : Tree) (applied : Tbl Version Bytes) : List Version :=
  (versions applied).filter fun v => tree.get v ≠ none ∧ tree.get v ≠ applied.get v

/-- Of a version that has drifted: a process that lists it finds its fingerprint, which is not that
of its own file, and when the process gets the lock the version was not applied since. -/
def Ready (w : World S) (c : Call) : Prop :=
  match c.pc with
  | .currentlyApplied => ∀ v ∈ drift c.tree w.applied, (w.stored.get v).isSome = true
  | .loadStored _ =>
    ∀ v ∈ drift c.tree w.applied, (w.applied.get v).map sum ≠ (c.tree.get v).map sum
  | .waiting seen => c.skip = false → ∀ v ∈ drift c.tree w.applied, v ∈ seen
  | _ => True

def Orderly (w : World S) : Event → Prop
  | .go i o => o = .ok → ∀ c ∈ w.calls[i]?, Ready sum w c
  | _ => True

instance (w : World S) (c : Call) : Decidable (Ready sum w c) := by
  obtain ⟨tree, skip, pc⟩ := c
  rcases pc <;> unfold Ready <;> infer_instance

instance (w : World S) (e : Event) : Decidable (Orderly sum w e) := by
  rcases e <;> unfold Orderly <;> infer_instance

end

def Pc.isUp : Pc → Bool
  | .up _ _ => true
  | _ => false

/-- The version is applied as it is in the tree, if the tree has it. -/
def Same (w : World S) (c : Call) (v : Version) : Prop :=
  ∀ content, c.tree.get v = some content → w.applied.get v = some content

/-- The whole tree is applied as it is. -/
def Whole (w : World S) (c : Call) : Prop := ∀ v, Same w c v

/-- These versions are applied as they are in the tree. -/
def Own (w : World S) (c : Call) (vs : List Version) : Prop :=
  ∀ v ∈ vs, ∃ content, c.tree.get v = some content ∧ w.applied.get v = some content

def Knows (w : World S) (c : Call) : Prop :=
  match c.pc with
  | .loadStored applied => ∀ v ∈ applied, (w.stored.get v).isSome = true ∨ Same w c v
  | .waiting seen => c.skip = false → ∀ v ∈ seen, Same w c v
  | .up pending applied =>
    pending.Nodup ∧
      (∀ v ∈ pending, (c.tree.get v).isSome = true ∧ w.applied.get v = none) ∧ Own w c applied ∧
      (c.skip = false → ∀ v content, c.tree.get v = some content →
        v ∈ pending ∨ w.applied.get v = some content)
  | .record results upErr => Own w c results ∧ (c.skip = false → upErr = false → Whole w c)
  | .returned none => c.skip = false → Whole w c
  | _ => True

structure Inv (sum : Bytes → S) (w : World S) : Prop where
  stored : ∀ v s, w.stored.get v = some s → ∃ content, w.applied.get v = some content ∧
    s = sum content
  lock : ∀ (i : Nat) (c : Call), w.calls[i]? = some c → c.pc.isUp = true → w.lock = some i
  knows : ∀ c ∈ w.calls, Knows w c

structure Grows (w w' : World S) : Prop where
  applied : ∀ v content, w.applied.get v = some content → w'.applied.get v = some content
  stored : ∀ v, (w.stored.get v).isSome = true → (w'.stored.get v).isSome = true

variable {v : Version} {pc : Pc} {content : Bytes} {o : Outcome}

section

variable {sum : Bytes → S} {w w' : World S} {i : Nat} {c : Call}

lemma Own.grow (hg : Grows w w') {vs : List Version} (h : Own w c vs) : Own w' c vs := by
  intro v hv
  obtain ⟨content, ht, ha⟩ := h v hv
  exact ⟨content, ht, hg.applied v content ha⟩

lemma Whole.grow (hg : Grows w w') (h : Whole w c) : Whole w' c :=
  fun v content ht => hg.applied v content (h v content ht)

/-- What a process knows stays true while the tables grow; one in `Up` needs them to itself. -/
lemma Knows.grow (hg : Grows w w') (hup : c.pc.isUp = true → w'.applied = w.applied)
    (h : Knows w c) : Knows w' c := by
  unfold Knows at h ⊢
  split at h
  · exact fun v hv => (h v hv).imp (hg.stored v) fun hsame b ht => hg.applied v b (hsame b ht)
  · exact fun hs v hv content ht => hg.applied v content (h hs v hv content ht)
  · rename_i hpc
    obtain ⟨hnd, hnone, hown, hrest⟩ := h
    rw [hup (by rw [hpc]; rfl)]
    exact ⟨hnd, hnone, hown.grow hg, hrest⟩
  · exact ⟨h.1.grow hg, fun hs hu => (h.2 hs hu).grow hg⟩
  · exact fun hs => (h hs).grow hg
  · trivial

lemma mem_versions {t : Tbl Version Bytes} (h : t.get v = some content) : v ∈ versions t :=
  mem_map.2 ⟨(v, content), Multiset.mem_coe.1 (mem_pairs.2 h), rfl⟩

lemma isSome_of_mem_versions {t : Tbl Version Bytes} (h : v ∈ versions t) :
    (t.get v).isSome = true := by
  obtain ⟨⟨x, content⟩, hx, rfl⟩ := mem_map.1 h
  rw [mem_pairs.1 (Multiset.mem_coe.2 hx)]
  rfl

lemma mem_pendingOf {tree : Tree} {applied : Tbl Version Bytes} :
    v ∈ pendingOf tree applied ↔ v ∈ versions tree ∧ applied.get v = none := by
  rw [pendingOf, mem_insertionSort, mem_filter, isNone_iff_eq_none]

lemma nodup_pendingOf (tree : Tree) (applied : Tbl Version Bytes) :
    (pendingOf tree applied).Nodup := by
  have hnd : (versions tree).Nodup := Multiset.coe_nodup.1 tree.nodup_keys
  exact (perm_insertionSort _ _).nodup_iff.2 (hnd.filter _)

lemma inv_start : Inv sum (World.start : World S) := ⟨nofun, nofun, nofun⟩

lemma Inv.faithful (hi : Inv sum w) : Faithful w := by
  intro c hc hs hpc v content applied ht ha
  have hk := hi.knows c hc
  rw [Knows, hpc] at hk
  exact some.inj (ha.symm.trans (hk hs v content ht))

variable (hi : Inv sum w) (hc : w.calls[i]? = some c)
include hi hc

lemma Inv.goOn (hcalls : w'.calls = w.calls.set i { c with pc := pc }) (hg : Grows w w')
    (hstored : ∀ v s, w'.stored.get v = some s → ∃ content, w'.applied.get v = some content ∧
      s = sum content) (happlied : w'.applied = w.applied ∨ w.lock = some i)
    (hlock : ∀ j, j ≠ i → w.lock = some j → w'.lock = some j)
    (hup : pc.isUp = true → w'.lock = some i) (hknows : Knows w' { c with pc := pc }) :
    Inv sum w' := by
  refine ⟨hstored, fun j d hd hdu => ?_, fun d hd => ?_⟩
  · rw [hcalls] at hd
    rcases Slots.set_cases hc hd with ⟨rfl, rfl⟩ | ⟨hj, hd⟩
    · exact hup hdu
    · exact hlock j hj (hi.lock j d hd hdu)
  rw [hcalls] at hd
  rcases Slots.mem_set_cases hc hd with rfl | ⟨j, hj, hd⟩
  · exact hknows
  refine (hi.knows d (mem_of_getElem? hd)).grow hg fun hdu => ?_
  refine happlied.resolve_right fun hl => hj ?_
  exact some.inj ((hi.lock j d hd hdu).symm.trans hl)

/-- A process goes on outside of `Up` with the tables as they are. -/
lemma Inv.leave {lock : Option Nat} (hlock : ∀ j, j ≠ i → w.lock = some j → lock = some j)
    (hup : pc.isUp = false) (hknows : Knows w { c with pc := pc }) :
    Inv sum { w.setPc i c pc with lock := lock } := by
  refine hi.goOn hc rfl ⟨fun _ _ h => h, fun _ h => h⟩ hi.stored (.inl rfl) hlock (fun h => ?_) ?_
  · rw [hup] at h
    cases h
  · exact hknows.grow ⟨fun _ _ h => h, fun _ h => h⟩ fun _ => rfl

lemma Inv.walk (hup : pc.isUp = false) (hknows : Knows w { c with pc := pc }) :
    Inv sum (w.setPc i c pc) :=
  hi.leave hc (fun _ _ h => h) hup hknows

/-- Only the process with the lock loses it. -/
lemma Inv.unlock (hup : c.pc.isUp = true) (j : Nat) (hj : j ≠ i) (h : w.lock = some j) :
    (none : Option Nat) = some j := by
  rw [hi.lock i c hc hup] at h
  exact absurd (some.inj h).symm hj

/-- **A version is applied** by the process with the lock. -/
lemma Inv.apply {pending applied : List Version} (hpc : c.pc = .up (v :: pending) applied)
    (ht : c.tree.get v = some content) {lock : Option Nat}
    (hlock : ∀ j, j ≠ i → w.lock = some j → lock = some j) (hup : pc.isUp = true → lock = some i)
    (hknows : ∀ w' : World S, w'.applied = w.applied.put v content → w'.stored = w.stored →
      Grows w w' → Knows w' { c with pc := pc }) :
    Inv sum { w.setPc i c pc with applied := w.applied.put v content, lock := lock } := by
  have hk := hi.knows c (mem_of_getElem? hc)
  rw [Knows, hpc] at hk
  have hv : w.applied.get v = none := (hk.2.1 v mem_cons_self).2
  have hg : Grows w
      { w.setPc i c pc with applied := w.applied.put v content, lock := lock } := by
    refine ⟨fun x b hx => ?_, fun _ h => h⟩
    rw [get_put_ne, hx]
    rintro rfl
    rw [hv] at hx
    cases hx
  refine hi.goOn hc rfl hg (fun x s hs => ?_) (.inr (hi.lock i c hc (by rw [hpc]; rfl))) hlock hup
    (hknows _ rfl rfl hg)
  obtain ⟨b, hb, rfl⟩ := hi.stored x s hs
  exact ⟨b, hg.applied x b hb, rfl⟩

omit hi hc in
lemma same_of_notMem_drift (ha : w.applied.get v ≠ none) (hv : v ∉ drift c.tree w.applied) :
    Same w c v := by
  obtain ⟨applied, ha⟩ := Option.ne_none_iff_exists'.1 ha
  intro content ht
  by_contra hne
  refine hv (mem_filter.2 ⟨mem_versions ha, decide_eq_true ⟨by simp [ht], fun heq => hne ?_⟩⟩)
  rw [← heq, ht]

lemma inv_lock {seen : List Version} (hpc : c.pc = .waiting seen)
    (hok : c.skip = false → ∀ v ∈ drift c.tree w.applied, v ∈ seen) (hfree : w.lock = none) :
    Inv sum { w.setPc i c (.up (pendingOf c.tree w.applied) []) with lock := some i } := by
  have hk := hi.knows c (mem_of_getElem? hc)
  rw [Knows, hpc] at hk
  refine hi.goOn hc rfl ⟨fun _ _ h => h, fun _ h => h⟩ hi.stored (.inl rfl) (fun j _ h => ?_)
    (fun _ => rfl) ⟨nodup_pendingOf _ _, fun v hv => ?_, nofun, fun hs v content ht => ?_⟩
  · rw [hfree] at h
    cases h
  · obtain ⟨hv, hnone⟩ := mem_pendingOf.1 hv
    exact ⟨isSome_of_mem_versions hv, hnone⟩
  · cases ha : w.applied.get v with
    | none => exact .inl (mem_pendingOf.2 ⟨mem_versions ht, ha⟩)
    | some applied =>
      have hsame : Same w c v := by
        by_cases hv : v ∈ drift c.tree w.applied
        · exact hk hs v (hok hs v hv)
        · exact same_of_notMem_drift (by simp [ha]) hv
      exact .inr (ha ▸ hsame content ht)

variable [DecidableEq S]

omit hc in
/-- A check that finds nothing: what it has seen is applied with the content of the tree. -/
lemma content_of_checked {seen : List Version}
    (hok : ∀ v ∈ drift c.tree w.applied, (w.applied.get v).map sum ≠ (c.tree.get v).map sum)
    (hseen : ∀ v ∈ seen, (w.stored.get v).isSome = true ∨ Same w c v)
    (hnone : mismatches sum c.tree seen w.stored = []) : ∀ v ∈ seen, Same w c v := by
  intro v hv
  refine (hseen v hv).elim (fun hsome content ht => ?_) id
  obtain ⟨s, hs⟩ := isSome_iff_exists.1 hsome
  obtain ⟨applied, ha, rfl⟩ := hi.stored v s hs
  have hx := filterMap_eq_nil_iff.1 hnone (v, sum applied)
    (Multiset.mem_coe.1 (mem_pairs.2 hs))
  simp only [hv, not_true_eq_false, if_false, ht, ite_eq_left_iff, reduceCtorEq, imp_false,
    not_not] at hx
  refine same_of_notMem_drift (by simp [ha]) (fun hd => hok v hd ?_) content ht
  rw [ha, ht, map_some, map_some, hx]

lemma inv_up {pending applied : List Version} (hpc : c.pc = .up (v :: pending) applied)
    (h : advance sum w i c o = some w') : Inv sum w' := by
  have hk := hi.knows c (mem_of_getElem? hc)
  rw [Knows, hpc] at hk
  obtain ⟨hnd, hpend, hown, hrest⟩ := hk
  obtain ⟨content, ht⟩ := isSome_iff_exists.1 (hpend v mem_cons_self).1
  have hin : c.pc.isUp = true := by rw [hpc]; rfl
  simp only [advance, hpc, ht, elim_some] at h
  cases o with
  | ok =>
    cases h
    refine hi.apply hc hpc ht (fun j _ h => h) (fun _ => hi.lock i c hc hin) fun w' ha _ hg => ?_
    obtain ⟨hv, hnd⟩ := nodup_cons.1 hnd
    refine ⟨hnd, fun x hx => ⟨(hpend x (mem_cons_of_mem v hx)).1, ?_⟩, fun x hx => ?_,
      fun hs x b hx => ?_⟩
    · rw [ha, get_put_ne _ _ (by rintro rfl; exact hv hx)]
      exact (hpend x (mem_cons_of_mem v hx)).2
    · rcases mem_append.1 hx with hx | hx
      · exact hown.grow hg x hx
      · obtain rfl := mem_singleton.1 hx
        exact ⟨content, ht, by rw [ha, get_put_self]⟩
    rcases hrest hs x b hx with hx' | hx'
    · rcases mem_cons.1 hx' with rfl | hx'
      · cases ht.symm.trans hx
        exact .inr (by rw [ha, get_put_self])
      · exact .inl hx'
    · exact .inr (hg.applied x b hx')
  | failed done =>
    have hlock := hi.unlock hc hin
    cases done with
    | true =>
      cases h
      exact hi.apply hc hpc ht hlock (by simp [Pc.isUp]) fun w' _ _ hg => ⟨hown.grow hg, by simp⟩
    | false =>
      cases h
      exact hi.leave hc hlock rfl ⟨hown, by simp⟩

lemma inv_record {results : List Version} {upErr : Bool}
    (hpc : c.pc = .record (v :: results) upErr) (h : advance sum w i c o = some w') :
    Inv sum w' := by
  have hk := hi.knows c (mem_of_getElem? hc)
  rw [Knows, hpc] at hk
  obtain ⟨content, ht, ha⟩ := hk.1 v mem_cons_self
  have hown : Own w c results := fun x hx => hk.1 x (mem_cons_of_mem v hx)
  simp only [advance, hpc, ht, elim_some] at h
  cases h
  set pc := if o = .ok then Pc.record results upErr else .returned (some .recordOne) with hnext
  have hup : pc.isUp = false := by rw [hnext]; split_ifs <;> rfl
  have hknows : ∀ w' : World S, w'.applied = w.applied → Knows w' { c with pc := pc } := by
    intro w' hw
    rw [hnext]
    split_ifs
    · exact ⟨fun x hx => hw ▸ hown x hx, fun hs hu x b hx => hw ▸ hk.2 hs hu x b hx⟩
    · trivial
  refine hi.goOn hc rfl ⟨fun _ _ h => h, fun x hx => ?_⟩ (fun x s hs => ?_) (.inl rfl)
    (fun _ _ h => h) (fun h => absurd h (by simp [hup])) (hknows _ rfl)
  · cases o.done with
    | false => exact hx
    | true =>
      by_cases hxv : x = v
      · subst hxv
        simp
      · simpa [get_put_ne _ _ hxv] using hx
  cases ho : o.done with
  | false =>
    simp only [ho] at hs
    exact hi.stored x s hs
  | true =>
    simp only [ho, if_true] at hs
    rcases get_put_eq_some.1 hs with ⟨rfl, rfl⟩ | ⟨-, hs⟩
    · exact ⟨content, ha, rfl⟩
    · exact hi.stored x s hs

lemma inv_advance (hok : Orderly sum w (.go i o)) (h : advance sum w i c o = some w') :
    Inv sum w' := by
  have hk := hi.knows c (mem_of_getElem? hc)
  replace hok : o = .ok → Ready sum w c := fun ho => hok ho c hc
  obtain ⟨tree, skip, pc⟩ := c
  cases pc with
  | ensureTable =>
    cases h
    refine hi.walk hc ?_ ?_
    · split_ifs <;> rfl
    split_ifs
    · trivial
    · exact fun _ _ => nofun
    · trivial
  | currentlyApplied =>
    cases h
    refine hi.walk hc ?_ ?_
    · split_ifs <;> rfl
    split_ifs with ho
    · trivial
    · intro v hv
      by_cases hd : v ∈ drift tree w.applied
      · exact .inl (hok (not_not.1 ho) v hd)
      · refine .inr (same_of_notMem_drift ?_ hd)
        exact isSome_iff_ne_none.1 (isSome_of_mem_versions hv)
  | loadStored seen =>
    cases h
    refine hi.walk hc ?_ ?_
    · split_ifs <;> rfl
    split_ifs with ho hm
    · trivial
    · exact fun _ => content_of_checked hi (hok (not_not.1 ho)) hk hm
    · trivial
  | waiting seen =>
    simp only [advance] at h
    split_ifs at h with ho hfree
    · cases h
      exact hi.walk hc rfl ⟨nofun, fun _ h => nomatch h⟩
    · cases h
      exact inv_lock hi hc rfl (hok (not_not.1 ho)) hfree
  | up pending applied =>
    cases pending with
    | cons v pending => exact inv_up hi hc rfl h
    | nil =>
      cases h
      refine hi.leave hc (hi.unlock hc rfl) rfl ⟨hk.2.2.1, fun hs _ v b ht => ?_⟩
      exact (hk.2.2.2 hs v b ht).resolve_left not_mem_nil
  | record results upErr =>
    cases results with
    | cons v results => exact inv_record hi hc rfl h
    | nil =>
      cases h
      refine hi.walk hc rfl ?_
      cases upErr with
      | true => trivial
      | false => exact fun hs => hk.2 hs rfl
  | returned err => cases h
  | crashed => cases h

omit hi hc in
lemma inv_step (w : World S) (e : Event) (w' : World S) (hi : Inv sum w) (hok : Orderly sum w e)
    (h : step sum w e = some w') : Inv sum w' := by
  cases e with
  | run tree skip =>
    cases h
    refine ⟨hi.stored, fun j d hd hdu => ?_, fun d hd => ?_⟩
    · rcases Slots.append_cases hd with ⟨-, rfl⟩ | ⟨-, hd⟩
      · cases hdu
      · exact hi.lock j d hd hdu
    rcases mem_append.1 hd with hd | hd
    · exact (hi.knows d hd).grow ⟨fun _ _ h => h, fun _ h => h⟩ fun _ => rfl
    · obtain rfl := mem_singleton.1 hd
      trivial
  | go i o =>
    obtain ⟨c, hc, h⟩ := bind_eq_some_iff.1 h
    exact inv_advance hi hc hok h
  | crash i =>
    obtain ⟨c, hc, rfl⟩ := map_eq_some_iff.1 h
    refine hi.leave hc (fun j hj hl => ?_) rfl trivial
    rw [hl, if_neg fun h => hj (some.inj h)]

end

/-- **Drift is never silent** in every run in which each process finds the fingerprint of what has
drifted, and nothing drifts between its check and its turn. -/
theorem drift_never_silent [DecidableEq S] {sum : Bytes → S} (es : List Event) (w : World S)
    (hm : Meets (step sum) (Orderly sum) World.start es)
    (h : exec (step sum) World.start es = some w) : Faithful w :=
  (exec_inv inv_step inv_start hm h).faithful

/-- How the runs without the bypass stand, with version `1` in their trees and in the database. -/
def World.facts (w : World S) : List (Pc × Option Bytes × Option Bytes) :=
  (w.calls.filter (!·.skip)).map fun c => (c.pc, c.tree.get 1, w.applied.get 1)

lemma not_faithful_of_facts {w : World S} {applied : Bytes} (hne : applied ≠ content)
    (h : (.returned none, some content, some applied) ∈ w.facts) : ¬ Faithful w := by
  intro hf
  obtain ⟨c, hc, hx⟩ := mem_map.1 h
  obtain ⟨hc, hs⟩ := mem_filter.1 hc
  simp only [Prod.mk.injEq] at hx
  exact hne (hf c hc (by simpa using hs) hx.1 1 content applied hx.2.1 hx.2.2)

/-- All steps of a start-up that finds `n` versions to apply. -/
def whole (i n : Nat) : List Event := replicate (6 + 2 * n) (.go i .ok)

def tree : Tree := (∅ : Tree).put 1 (ascii "a")

/-- Another content for version `1`. -/
def drifted : Tree := (∅ : Tree).put 1 (ascii "b")

/-- A start-up on the empty database, one with a further version, and one with a changed file. -/
def orderlyRun : List Event :=
  .run tree false :: whole 0 1 ++ .run (tree.put 2 (ascii "c")) false :: whole 1 1 ++
    .run drifted false :: replicate 3 (.go 2 .ok)

theorem changed_file_refused : ∃ w, exec (step id) World.start orderlyRun = some w ∧
      w.calls.map Call.pc = [.returned none, .returned none,
        .returned (some (.fingerprintMismatch [.missing 2, .changed 1]))] ∧ Faithful w := by
  have hm : Meets (step id) (Orderly id) (World.start : World Bytes) orderlyRun := by
    decide +kernel
  refine leads (·.calls.map Call.pc) [.returned none, .returned none,
    .returned (some (.fingerprintMismatch [.missing 2, .changed 1]))]
    (by decide +kernel) fun w hw hf => ?_
  exact ⟨hf, drift_never_silent orderlyRun w hm hw⟩

/-- The version is applied by another process after the check. -/
def overlapRun : List Event :=
  .run drifted false :: replicate 3 (.go 0 .ok) ++ .run tree false :: whole 1 1 ++
    replicate 3 (.go 0 .ok)

/-- The process that has applied the version crashes before it records. -/
def crashRun : List Event :=
  .run tree false :: replicate 6 (.go 0 .ok) ++ .crash 0 :: .run drifted false :: whole 1 0

/-- **Drift is silent**: a process succeeds whose file is not what was applied. -/
theorem drift_silent :
    (∃ w, exec (step id) (World.start : World Bytes) overlapRun = some w ∧ ¬ Faithful w) ∧
    ∃ w, exec (step id) (World.start : World Bytes) crashRun = some w ∧ ¬ Faithful w := by
  have hne : ascii "a" ≠ ascii "b" := by decide
  refine ⟨leads World.facts [(.returned none, some (ascii "b"), some (ascii "a")),
      (.returned none, some (ascii "a"), some (ascii "a"))] (by decide +kernel) fun w _ hf => ?_,
    leads World.facts [(.crashed, some (ascii "a"), some (ascii "a")),
      (.returned none, some (ascii "b"), some (ascii "a"))] (by decide +kernel) fun w _ hf => ?_⟩
  all_goals
    apply not_faithful_of_facts hne
    simp [hf]

end CubeSandbox.Migrate
