import CubeSandbox.CgOwn

/-!
Runs of the cgroup plugin: as long as rows are deleted, operations on one sandbox do not overlap
and restarts find nothing half done, a cgroup belongs to one sandbox, is not cleaned or deleted
while in use, and is clean when it is handed out.
-/

namespace CubeSandbox.Cgroup

open GoText Conc List Option Runs

variable {D L dirtyWork : List CgId}

section Triples

variable {α : Type} {s : Sid} {id : CgId}

abbrev Keeps (p : Task α) (r : Multiset Tok) (Q : α → Multiset Tok → Prop) : Prop :=
  Safe machine Inv Steady p r Q

lemma keeps_createCgroup (id : CgId) (r : Multiset Tok) :
    Keeps (createCgroup id) r fun _ r' => r' = r := by
  have hexist : Keeps (act (.isExist id)) r fun _ r' => r' = r :=
    Safe.perform fun w F o w' v hI _ hact => by
      cases hact
      exact ⟨r, hI, rfl⟩
  refine hexist.seq fun there => ?_
  split
  · exact .ret rfl
  refine .act fun w F o w' v hI _ hact => ?_
  cases o with
  | ok =>
    cases hact
    exact hI.wash hI.core.groups.insert fun _ hx => hx
  | fail =>
    cases hact
    exact hI

/-- What a creation owns after `Get`. -/
def gotten (s : Sid) : Option CgId → Multiset Tok
  | none => {.op s .ended}
  | some id => {.op s (.holding id)}

lemma keeps_get (s : Sid) (usePoolV2 : Bool) (numa : Nat) :
    Keeps (get usePoolV2 numa) {.op s .creating} fun v r => r = gotten s v := by
  have hallocate : Keeps (act (.allocate usePoolV2 numa)) {.op s .creating}
      fun v r => r = gotten s v := by
    refine .act fun w F o w' v hI hok hact => ?_
    have hget : allocateAct w usePoolV2 numa = (w', v) := some.inj hact
    have hnext := Inv.allocate hI hok
    rw [hget] at hnext
    cases v with
    | none =>
      have hended : (Tok.op s .ended).Ok w' := trivial
      exact hnext.goto hended (by simp) (by simp [OpSt.got])
    | some id => exact hnext
  refine hallocate.seq fun v => ?_
  cases v with
  | none => exact .ret rfl
  | some id =>
    refine (keeps_createCgroup id _).seq fun made => ?_
    split
    · exact .ret rfl
    · have hrelease : Keeps (act (.release id)) {.op s (.holding id)}
          fun _ r => r = {.op s .ended} := .does (fun _ _ => rfl) fun w F hI => Inv.release hI
      exact hrelease.bind fun _ r hr => .ret hr

lemma clean_cases {w w' : World} {o : Outcome} {clean : Bool}
    (hidle : ∀ s, (s, id) ∉ w.live) (hact : perform (.cleanForReuse id) w o = some (w', clean)) :
    (clean = true ∧ w' = { w with
      groups := w.groups.insert id, soiled := w.soiled.filter (· ≠ id) }) ∨
    (clean = false ∧ w' = w) := by
  cases o with
  | ok =>
    simp only [perform, touch_self hidle] at hact
    cases hact
    exact .inl ⟨rfl, rfl⟩
  | fail =>
    simp only [perform, touch_self hidle] at hact
    cases hact
    exact .inr ⟨rfl, rfl⟩

/-- `Put` of a creation that could not write its row. -/
lemma keeps_putHeld (s : Sid) (id : CgId) :
    Keeps (put none id) {.op s (.holding id)} fun _ r => r = {.op s .ended} := by
  have hclean : Keeps (act (.cleanForReuse id)) {.op s (.holding id)}
      fun _ r => r = {.op s (.holding id)} := by
    refine .act fun w F o w' v hI _ hact => ?_
    have hidle : ∀ s', (s', id) ∉ w.live := fun s' hl =>
      (Inv.ok hI).2.row s' (hI.core.live s' id hl)
    rcases clean_cases hidle hact with ⟨-, rfl⟩ | ⟨-, rfl⟩
    · exact hI.wash hI.core.groups.insert fun _ => mem_of_mem_filter
    · exact hI
  refine hclean.seq fun clean => ?_
  refine .does (fun _ _ => rfl) fun w F hI => ?_
  exact Inv.settleHeld hI clean

lemma keeps_putTaken (s : Sid) (id : CgId) :
    Keeps (put (some s) id) {.op s (.taken id)} fun _ r => r = {.op s .closing} := by
  have hclean : Keeps (act (.cleanForReuse id)) {.op s (.taken id)}
      fun v r => r = if v then {.op s (.cleaned id)} else {.op s (.taken id)} := by
    refine .act fun w F o w' v hI _ hact => ?_
    rcases clean_cases (Inv.taken_idle hI) hact with ⟨rfl, rfl⟩ | ⟨rfl, rfl⟩
    · exact Inv.clean hI hI.core.groups.insert
    · exact hI
  refine hclean.seq fun clean => ?_
  refine .does (fun _ _ => rfl) fun w F hI => ?_
  cases clean with
  | true => exact Inv.settleCleaned hI
  | false => exact Inv.settleTaken hI

lemma keeps_putDirty (hid : id ∈ L) : Keeps (put none id) {.sweep none L D}
      fun _ r => r = {.sweep none (L.filter (· ≠ id)) D} := by
  have hclean : Keeps (act (.cleanForReuse id)) {.sweep none L D}
      fun v r => r = if v then {.sweep (some id) (L.filter (· ≠ id)) D} else {.sweep none L D} := by
    refine .act fun w F o w' v hI _ hact => ?_
    have hdirty : id ∈ w.dirtySet := (Inv.ok hI).2.1 id hid
    have hidle : ∀ s, (s, id) ∉ w.live := fun s hl =>
      hI.core.rowDirty s id (hI.core.live s id hl) hdirty
    rcases clean_cases hidle hact with ⟨rfl, rfl⟩ | ⟨rfl, rfl⟩
    · exact Inv.sweepClean hI hid hI.core.groups.insert
    · exact hI
  refine hclean.seq fun clean => ?_
  refine .does (fun _ _ => rfl) fun w F hI => ?_
  cases clean with
  | true => exact Inv.settleSwept hI
  | false =>
    obtain ⟨hnone, hL, hD⟩ := hI.ok
    have hsame : w.settle none id false = w := hI.settleDirty hid
    rw [hsame]
    exact hI.sweepTo ⟨by simp, fun x hx => hL x (mem_of_mem_filter hx), hD⟩

lemma keeps_createNew (s : Sid) (usePoolV2 : Bool) (numa : Nat) :
    Keeps (createNew s usePoolV2 numa) {.op s .creating} fun _ r => r = {.op s .ended} := by
  refine (keeps_get s usePoolV2 numa).seq fun v => ?_
  cases v with
  | none => exact .ret rfl
  | some id =>
    have hset : Keeps (act (.dbSet s id)) {.op s (.holding id)}
        fun saved r => r = if saved then {.op s (.named id)} else {.op s (.holding id)} := by
      refine .act fun w F o w' v hI _ hact => ?_
      cases o with
      | ok =>
        cases hact
        exact Inv.name hI
      | fail =>
        cases hact
        exact hI
    refine hset.seq fun saved => ?_
    cases saved with
    | true =>
      refine .does (fun _ _ => rfl) fun w F hI => ?_
      exact Inv.handOut hI
    | false => exact keeps_putHeld s id

lemma keeps_leave {st : OpSt} (hst : st ≠ .closing) :
    Keeps (act (.leave s)) {.op s st} fun _ r => r = 0 := by
  refine .does (fun _ _ => rfl) fun w F hI => ?_
  rw [zero_add]
  exact Inv.leave hI hst

lemma keeps_create (s : Sid) (isCreateSnapshot usePoolV2 : Bool) (numa : Nat) :
    Keeps (create s isCreateSnapshot usePoolV2 numa) {.op s .creating} fun _ r => r = 0 := by
  have hcheck : Keeps (alreadyExists s isCreateSnapshot) {.op s .creating}
      fun _ r => r = {.op s .creating} := by
    unfold alreadyExists
    split
    · refine .bind (Q := fun _ r => r = {.op s .creating}) ?_ fun row r hr => ?_
      · refine .act fun w F o w' v hI _ hact => ?_
        cases o <;> cases hact <;> exact hI
      · split <;> exact .ret hr
    · exact .ret rfl
  refine hcheck.seq fun refused => ?_
  split
  · exact keeps_leave (by simp)
  · refine (keeps_createNew s usePoolV2 numa).seq fun _ => ?_
    exact keeps_leave (by simp)

/-- What a destruction owns after it has read the row. -/
def seen (s : Sid) : Except Unit (Option CgId) → Multiset Tok
  | .ok (some id) => {.op s (.taken id)}
  | _ => {.op s .ended}

lemma keeps_destroyRow (s : Sid) :
    Keeps (destroyRow s) {.op s .destroying} fun _ r => r = {.op s .ended} := by
  have hread : Keeps (act (.dbGet s)) {.op s .destroying} fun v r => r = seen s v := by
    refine .act fun w F o w' v hI _ hact => ?_
    have hdead : w.NotLive s := hI.ok
    have hrel : s ∉ w.released := hI.not_released rfl (by simp)
    have hended : Inv w (.op s .ended ::ₘ F) := hI.goto trivial (by simp) (by simp)
    cases o with
    | ok =>
      cases hact
      cases hrow : w.rows.get s with
      | none => exact hended
      | some id => exact hI.goto ⟨hdead, hrow, hrel⟩ (by simp) (by simp)
    | fail =>
      cases hact
      exact hended
  refine hread.seq fun v => ?_
  match v with
  | .ok (some id) =>
    refine (keeps_putTaken s id).seq fun _ => ?_
    refine .bind (Q := fun _ r => r = {.op s .ended}) ?_ fun _ r hr => .ret hr
    refine .act fun w F o w' v hI hok hact => ?_
    obtain rfl : o = .ok := hok
    cases hact
    exact Inv.forget hI
  | .ok none => exact .ret rfl
  | .error _ => exact .ret rfl

lemma keeps_destroy (s : Sid) : Keeps (destroy s) {.op s .destroying} fun _ r => r = 0 := by
  refine (keeps_destroyRow s).seq fun _ => ?_
  exact keeps_leave (by simp)

lemma keeps_sift {ids : List CgId} (hnd : ids.Nodup) (hL : ∀ x ∈ ids, x ∈ dirtyWork → x ∈ L) :
    Keeps (sift dirtyWork ids D) {.sweep none L D} fun D' r =>
      ∃ L', r = {.sweep none L' D'} ∧ ∀ x ∈ L, x ∉ ids → x ∈ L' := by
  induction ids generalizing L D with
  | nil => exact .ret ⟨L, rfl, fun _ hx _ => hx⟩
  | cons id ids ih =>
    obtain ⟨hid, hnd⟩ := nodup_cons.1 hnd
    unfold sift
    split
    · rename_i hwork
      refine (keeps_putDirty (hL id mem_cons_self hwork)).seq fun _ => ?_
      refine (ih hnd fun x hx hxw => ?_).mono fun D' r hr => ?_
      · refine mem_filter.2 ⟨hL x (mem_cons_of_mem _ hx) hxw, ?_⟩
        simpa using fun heq : x = id => hid (heq ▸ hx)
      obtain ⟨L', rfl, hkeep⟩ := hr
      refine ⟨L', rfl, fun x hx hne => ?_⟩
      obtain ⟨hxid, hxids⟩ := not_or.1 (mt mem_cons.2 hne)
      exact hkeep x (mem_filter.2 ⟨hx, by simpa using hxid⟩) hxids
    have hrange : Keeps (act (.inRange id)) {.sweep none L D} fun known r =>
        r = {.sweep none L (if known then D else D ++ [id])} := by
      refine .act fun w F o w' v hI _ hact => ?_
      obtain ⟨rfl, hknown⟩ := acted hact
      obtain ⟨hc, hwork, hD⟩ := hI.ok
      refine hI.sweepTo ⟨by simp, hwork, fun x hx => ?_⟩
      cases v with
      | true => exact hD x hx
      | false =>
        rcases mem_append.1 hx with hx | hx
        · exact hD x hx
        · rwa [mem_singleton.1 hx]
    refine hrange.seq fun known => ?_
    refine (ih hnd fun x hx hxw => hL x (mem_cons_of_mem _ hx) hxw).mono fun D' r hr => ?_
    obtain ⟨L', rfl, hkeep⟩ := hr
    exact ⟨L', rfl, fun x hx hne => hkeep x hx (not_or.1 (mt mem_cons.2 hne)).2⟩

lemma keeps_deleteAll {ids : List CgId} (hD : ∀ x ∈ ids, x ∈ D) :
    Keeps (deleteAll ids) {.sweep none L D} fun _ r => r = {.sweep none L D} := by
  induction ids with
  | nil => exact .ret rfl
  | cons id ids ih =>
    refine .bind (Q := fun _ r => r = {.sweep none L D}) ?_ fun _ r hr => ?_
    · refine .act fun w F o w' v hI _ hact => ?_
      have hout : w.inRange id = false := (Inv.ok hI).2.2 id (hD id mem_cons_self)
      have htouch : w.touch id = w := touch_self (hI.outside_idle hout)
      cases o with
      | ok =>
        simp only [machine, perform, htouch] at hact
        cases hact
        exact hI.wash (hI.core.groups.filter _) fun _ => mem_of_mem_filter
      | fail =>
        simp only [machine, perform, htouch] at hact
        cases hact
        exact hI
    · subst hr
      exact ih fun x hx => hD x (mem_cons_of_mem _ hx)

lemma keeps_tidyPool {pool : Nat} (hL : ∀ x ∈ dirtyWork, poolOf x = pool → x ∈ L) :
    Keeps (tidyPool dirtyWork pool) {.sweep none L D} fun _ r =>
      ∃ L' D', r = {.sweep none L' D'} ∧ ∀ x ∈ L, poolOf x ≠ pool → x ∈ L' := by
  have hlist : Keeps (act (.list pool)) {.sweep none L D} fun v r => r = {.sweep none L []} ∧
      ∀ ids, v = .ok ids → ids.Nodup ∧ ∀ x ∈ ids, poolOf x = pool := by
    refine .perform fun w F o w' v hI _ hact => ⟨_, ?_, rfl, ?_⟩
    · have hnext : Inv w (.sweep none L [] ::ₘ F) := hI.sweepTo ⟨by simp, hI.ok.2.1, by simp⟩
      cases o <;> cases hact <;> exact hnext
    rintro ids rfl
    cases o with
    | ok =>
      obtain ⟨-, hids⟩ := acted hact
      cases hids
      exact ⟨hI.core.groups.filter _, fun x hx => by simpa using (mem_filter.1 hx).2⟩
    | fail => cases (acted hact).2
  refine hlist.bind fun v r hr => ?_
  obtain ⟨rfl, hids⟩ := hr
  cases v with
  | error _ => exact .ret ⟨L, [], rfl, fun _ hx _ => hx⟩
  | ok ids =>
    obtain ⟨hnd, hpool⟩ := hids ids rfl
    refine (keeps_sift hnd fun x hx hxw => hL x hxw (hpool x hx)).bind fun toDelete r hr => ?_
    obtain ⟨L', rfl, hkeep⟩ := hr
    refine (keeps_deleteAll fun _ hx => hx).bind fun _ r hr => ?_
    refine .ret ⟨L', toDelete, hr, fun x hx hne => hkeep x hx fun hmem => ?_⟩
    exact hne (hpool x hmem)

lemma keeps_tidyPoolV2 {pools : List Nat} (hnd : pools.Nodup)
    (hL : ∀ x ∈ dirtyWork, poolOf x ∈ pools → x ∈ L) :
    Keeps (tidyPoolV2 dirtyWork pools) {.sweep none L D} fun _ r =>
      ∃ L' D', r = {.sweep none L' D'} := by
  induction pools generalizing L D with
  | nil => exact .ret ⟨L, D, rfl⟩
  | cons pool pools ih =>
    obtain ⟨hnew, hnd⟩ := nodup_cons.1 hnd
    refine (keeps_tidyPool fun x hx hp => hL x hx (hp ▸ mem_cons_self)).bind
      fun listed r hr => ?_
    obtain ⟨L', D', rfl, hkeep⟩ := hr
    split
    · refine ih hnd fun x hx hp => hkeep x (hL x hx (mem_cons_of_mem _ hp)) ?_
      rintro rfl
      exact hnew hp
    · exact .ret ⟨L', D', rfl⟩

lemma keeps_tidy (pools : Nat) : Keeps (tidy pools) {.sweep none [] []} fun _ r => r = 0 := by
  have hcopy : Keeps (act .copyDirty) {.sweep none [] []}
      fun dirtyWork r => r = {.sweep none dirtyWork []} := by
    refine .does (fun _ _ => rfl) fun w F hI => ?_
    exact Inv.sweepTo hI ⟨by simp, fun _ hx => hx, by simp⟩
  refine hcopy.seq fun dirtyWork => ?_
  refine (keeps_tidyPool fun x hx _ => hx).bind fun _ r hr => ?_
  obtain ⟨L, D, rfl, hkeep⟩ := hr
  have hnd : ((range pools).drop 1).Nodup := nodup_range.sublist (drop_sublist 1 _)
  refine (keeps_tidyPoolV2 hnd fun x hx hp => hkeep x hx ?_).bind fun _ r hr => ?_
  · intro hzero
    rw [hzero] at hp
    cases pools with
    | zero => simp at hp
    | succ n => simp [range_succ_eq_map] at hp
  · obtain ⟨L', D', rfl⟩ := hr
    refine .does (fun _ _ => rfl) fun w F hI => ?_
    rw [zero_add]
    exact Inv.tidied hI

end Triples

/-- A number is assigned in its pool. -/
def Has (pools : List Alloc) (id : CgId) : Prop :=
  ∃ a, pools[poolOf id]? = some a ∧ shortOf id ∈ a.store

lemma Alloc.Ok.expandTo {a : Alloc} (h : a.Ok) {n : Nat} (hn : n < 2 ^ 16) :
    (a.expandTo n).Ok ∧ n ≤ (a.expandTo n).upper ∧ (a.expandTo n).store = a.store := by
  unfold Alloc.expandTo
  split
  · exact ⟨⟨hn, fun x hx => (h.store x hx).trans (le_of_lt ‹_›)⟩, le_refl _, rfl⟩
  · exact ⟨h, not_lt.1 ‹_›, rfl⟩

lemma Alloc.Ok.readBack {a : Alloc} (h : a.Ok) {n : Nat} (hn : n < 2 ^ 16) :
    (((a.expandTo n).assign n).getD (a.expandTo n)).Ok ∧
      ∀ x, x = n ∨ x ∈ a.store → x ∈ (((a.expandTo n).assign n).getD (a.expandTo n)).store := by
  obtain ⟨hok, hle, hstore⟩ := h.expandTo hn
  rw [← hstore]
  generalize a.expandTo n = b at *
  cases hassign : b.assign n with
  | some b' =>
    obtain ⟨-, -, rfl⟩ := Alloc.assign_eq_some hassign
    exact ⟨hok.push hle, fun x hx => mem_cons.2 hx⟩
  | none =>
    have hmem : n ∈ b.store := by
      by_contra hfree
      simp [Alloc.assign, Alloc.contains, hle, hfree] at hassign
    refine ⟨hok, ?_⟩
    rintro x (rfl | hx)
    · exact hmem
    · exact hx

lemma shortOf_lt (id : CgId) : shortOf id < 2 ^ 16 := Nat.mod_lt _ (by decide)

lemma initialAssign_spec {ps : List Alloc} (hok : ∀ a ∈ ps, a.Ok) {id : CgId}
    (hread : poolOf id = 0 → shortOf id ≤ 2 ^ 15 - 1) :
    (∀ a ∈ initialAssign ps id, a.Ok) ∧ (initialAssign ps id).length = ps.length ∧
      (poolOf id < ps.length → Has (initialAssign ps id) id) ∧
      ∀ x, Has ps x → Has (initialAssign ps id) x := by
  have hno : ¬ (poolOf id = 0 ∧ shortOf id > 2 ^ 15 - 1) := fun h => not_lt.2 (hread h.1) h.2
  unfold initialAssign Has
  rw [if_neg hno]
  refine ⟨fun a ha => ?_, length_modify _ _ _, fun hlt => ?_, fun x hx => ?_⟩
  · obtain ⟨i, hi⟩ := mem_iff_getElem?.1 ha
    rw [getElem?_modify] at hi
    obtain ⟨b, hb, rfl⟩ := map_eq_some_iff.1 hi
    have hbok := hok b (mem_of_getElem? hb)
    split_ifs
    · exact (hbok.readBack (shortOf_lt id)).1
    · exact hbok
  · have hb := getElem?_eq_getElem hlt
    rw [getElem?_modify, hb]
    simp only [if_true, Option.map_eq_map, Option.map_some]
    refine ⟨_, rfl, ?_⟩
    exact ((hok _ (mem_of_getElem? hb)).readBack (shortOf_lt id)).2 _ (.inl rfl)
  · obtain ⟨b, hb, hmem⟩ := hx
    rw [getElem?_modify, hb]
    refine ⟨_, rfl, ?_⟩
    split_ifs
    · exact ((hok b (mem_of_getElem? hb)).readBack (shortOf_lt id)).2 _ (.inr hmem)
    · exact hmem

lemma readRows_spec (rows : List (Sid × CgId)) (ps : List Alloc) (hok : ∀ a ∈ ps, a.Ok)
    (hread : ∀ e ∈ rows, poolOf e.2 = 0 → shortOf e.2 ≤ 2 ^ 15 - 1)
    (hpool : ∀ e ∈ rows, poolOf e.2 < ps.length) :
    (∀ a ∈ rows.foldl (fun ps e => initialAssign ps e.2) ps, a.Ok) ∧
      ∀ x, Has ps x ∨ (∃ e ∈ rows, e.2 = x) →
        Has (rows.foldl (fun ps e => initialAssign ps e.2) ps) x := by
  induction rows generalizing ps with
  | nil =>
    refine ⟨hok, fun x hx => hx.resolve_right ?_⟩
    rintro ⟨e, he, -⟩
    exact not_mem_nil he
  | cons e rows ih =>
    obtain ⟨hok', hlen, hthis, hold⟩ := initialAssign_spec hok (hread e mem_cons_self)
    obtain ⟨hall, hhas⟩ := ih _ hok' (fun e' he' => hread e' (mem_cons_of_mem _ he'))
      fun e' he' => by
        rw [hlen]
        exact hpool e' (mem_cons_of_mem _ he')
    refine ⟨hall, fun x hx => hhas x ?_⟩
    rcases hx with hx | ⟨e', he', rfl⟩
    · exact .inl (hold x hx)
    rcases mem_cons.1 he' with rfl | he'
    · exact .inl (hthis (hpool e' mem_cons_self))
    · exact .inr ⟨e', he', rfl⟩

lemma nodup_foldl_insert (created : List CgId) {gs : List CgId} (h : gs.Nodup) :
    (created.foldl (fun gs id => gs.insert id) gs).Nodup := by
  induction created generalizing gs with
  | nil => exact h
  | cons id created ih => exact ih h.insert

lemma Inv.restart {w : World} {R : Multiset Tok} (h : Inv w R) (hs : Settled w) (size : Nat)
    (created : List CgId) : Inv (w.restart size created) 0 := by
  obtain ⟨hdirty, hrel, hread⟩ := hs
  have howns (s : Sid) (x : CgId) (hrow : w.rows.get s = some x) : w.Owns s x :=
    ⟨hrow, by rw [hrel]; exact not_mem_nil⟩
  have hpool : ∀ e ∈ w.rows.toPairs, poolOf e.2 < (w.pools.map fun _ => Alloc.new size).length := by
    rintro ⟨s, x⟩ he
    obtain ⟨a, ha, -⟩ := h.core.rowAlloc s x (howns s x (Tbl.mem_pairs.1 he))
    rw [length_map]
    exact (List.getElem?_eq_some_iff.1 ha).1
  obtain ⟨hok, hhas⟩ := readRows_spec w.rows.toPairs (w.pools.map fun _ => Alloc.new size)
    (fun a ha => by
      obtain ⟨-, -, rfl⟩ := mem_map.1 ha
      exact Alloc.ok_new size) hread hpool
  refine ⟨?_, rfl, nodup_nil, Nat.zero_le _, by simp, by simp, ?_⟩
  · exact {
      pools := hok
      rowInj := fun s s' x h1 h2 =>
        h.core.rowInj s s' x (howns s x h1.1) (howns s' x h2.1)
      rowDirty := fun _ _ _ => not_mem_nil
      rowAlloc := fun s x hown => hhas x (.inr ⟨(s, x), Tbl.mem_pairs.2 hown.1, rfl⟩)
      dirtyAlloc := fun x hx => absurd hx not_mem_nil
      live := fun s x hl => ⟨(h.core.live s x hl).1, not_mem_nil⟩
      soiled := by
        intro x hx
        rcases h.core.soiled x hx with ⟨s, hown⟩ | hd
        · exact .inl ⟨s, hown.1, not_mem_nil⟩
        · rw [hdirty] at hd
          exact absurd hd not_mem_nil
      groups := nodup_foldl_insert created h.core.groups
      harmed := h.core.harmed
      stale := h.core.stale }
  · exact fun x hx => absurd hx not_mem_nil

lemma inv_init (nodes size : Nat) : Inv (World.init nodes size) 0 := by
  have hnone (s : Sid) (x : CgId) : ¬ (World.init nodes size).Owns s x := fun h => by
    simp [World.init, World.Owns] at h
  refine ⟨?_, rfl, nodup_nil, Nat.zero_le _, by simp, by simp, by simp [World.init]⟩
  exact {
    pools := fun a ha => by
      rw [eq_of_mem_replicate ha]
      exact Alloc.ok_new size
    rowInj := fun s _ x h => absurd h (hnone s x)
    rowDirty := fun s x h => absurd h (hnone s x)
    rowAlloc := fun s x h => absurd h (hnone s x)
    dirtyAlloc := fun x hx => absurd hx not_mem_nil
    live := fun _ _ hl => absurd hl not_mem_nil
    soiled := fun x hx => absurd hx not_mem_nil
    groups := nodup_nil
    harmed := rfl
    stale := rfl }

lemma inv_startOp {w w' : World} {R : Multiset Tok} {op : Op} {p : Task Unit} (hI : Inv w R)
    (hok : Apart w op) (h : startOp w op = some (w', p)) :
    ∃ r, Inv w' (r + R) ∧ Keeps p r fun _ r' => r' = 0 := by
  cases op with
  | create s isCreateSnapshot usePoolV2 numa =>
    cases h
    exact ⟨{.op s .creating}, Inv.enter .creating hI hok.1 (fun _ he => he) hok.2 (by simp),
      keeps_create s isCreateSnapshot usePoolV2 numa⟩
  | destroy s =>
    cases h
    refine ⟨{.op s .destroying}, ?_, keeps_destroy s⟩
    refine Inv.enter .destroying hI hok (fun _ => mem_of_mem_filter) ?_ (by simp)
    intro id hmem
    simpa using (mem_filter.1 hmem).2
  | tidy =>
    cases h
    exact ⟨{.sweep none [] []}, hI.beginTidy hok, keeps_tidy _⟩

lemma step_sound {c c' : Conf} {e : Event} (hs : Sound machine Inv Steady c) (hok : Orderly c e)
    (h : step c e = some c') : Sound machine Inv Steady c' := by
  cases e with
  | ev e =>
    exact sound_step (fun _ _ _ _ _ hI hstart _ h => inv_startOp hI hstart h) hs hok h
  | restart size created =>
    cases h
    obtain ⟨rs, -, hI⟩ := hs
    exact Sound.start (hI.restart hok size created) rfl

/-- **A cgroup belongs to one sandbox, is left alone in use, and is clean when handed out.** -/
theorem cgroup_exclusive (nodes size : Nat) (es : List Event) (c : Conf)
    (hm : Runs.Meets step Orderly (begin nodes size) es)
    (h : exec step (begin nodes size) es = some c) : Exclusive c.world := by
  have hsound : Sound machine Inv Steady c :=
    exec_inv (fun _ _ _ hs hok hstep => step_sound hs hok hstep)
      (Sound.start (inv_init nodes size) rfl) hm h
  obtain ⟨rs, -, hI⟩ := hsound
  exact ⟨fun s s' id h1 h2 => hI.core.rowInj s s' id (hI.core.live s id h1) (hI.core.live s' id h2),
    hI.core.harmed, hI.core.stale⟩

def goes (n : Nat) (os : List Outcome) : List Event := os.map fun o => .ev (.go n o)

def oks (n : Nat) : List Outcome := replicate n .ok

def starts (op : Op) : Event := .ev (.start op)

/-- A cgroup is left dirty, tidied and used again; another one is in use across a restart. -/
def orderly : List Event :=
  starts (.create [97] false false 0) :: goes 0 (oks 6) ++
    starts (.create [98] true true 0) :: goes 1 (oks 7) ++
    starts (.destroy [97]) :: goes 2 [.ok, .fail, .ok, .ok, .ok] ++
    starts .tidy :: goes 3 (oks 7) ++
    starts (.create [99] false false 0) :: goes 4 (oks 5) ++ [.restart 0 []]

theorem orderly_exclusive : ∃ c, exec step (begin 1 0) orderly = some c ∧
      c.world.live = [([99], 0), ([98], 2 ^ 16)] ∧ Exclusive c.world := by
  refine leads (fun c => c.world.live) [([99], 0), ([98], 2 ^ 16)]
    (by decide +kernel) fun c hc hlive => ?_
  exact ⟨hlive, cgroup_exclusive 1 0 _ c (by decide +kernel) hc⟩

/-- A dirty cgroup is forgotten by a restart. -/
def dirtyForgotten : List Event :=
  starts (.create [97] false false 0) :: goes 0 (oks 6) ++
    starts (.destroy [97]) :: goes 1 [.ok, .fail, .ok, .ok, .ok] ++ [.restart 0 []] ++
    starts (.create [98] false false 0) :: goes 0 (oks 5)

/-- A sandbox is destroyed twice at once, and its cgroup goes to another one meanwhile. -/
def destroyedTwice : List Event :=
  starts (.create [97] false false 0) :: goes 0 (oks 6) ++
    starts (.destroy [97]) :: starts (.destroy [97]) :: goes 1 (oks 1) ++ goes 2 (oks 5) ++
    starts (.create [98] false false 0) :: goes 3 (oks 5) ++ goes 1 (oks 4) ++
    starts (.create [99] false false 0) :: goes 4 (oks 5)

/-- The row could not be deleted, and the destruction is repeated. -/
def rowKept : List Event :=
  starts (.create [97] false false 0) :: goes 0 (oks 6) ++
    starts (.destroy [97]) :: goes 1 [.ok, .ok, .ok, .fail, .ok] ++
    starts (.create [98] false false 0) :: goes 2 (oks 5) ++
    starts (.destroy [97]) :: goes 3 (oks 5)

/-- A tidy pass works from a copy of the dirty set that another one has emptied. -/
def tidiedTwice : List Event :=
  starts (.create [97] false false 0) :: goes 0 (oks 6) ++
    starts (.destroy [97]) :: goes 1 [.ok, .fail, .ok, .ok, .ok] ++
    starts .tidy :: goes 2 (oks 2) ++ starts .tidy :: goes 3 (oks 5) ++
    starts (.create [98] false false 0) :: goes 4 (oks 5) ++ goes 2 (oks 1)

/-- The range grows over a cgroup that a tidy pass has found outside of it. -/
def grownMeanwhile : List Event :=
  starts (.create [97] false false 0) :: goes 0 (oks 6) ++
    starts (.create [98] false false 0) :: goes 1 (oks 6) ++
    starts (.destroy [98]) :: goes 2 (oks 5) ++ [.restart 0 []] ++
    starts .tidy :: goes 0 (oks 4) ++ starts (.create [99] false false 0) :: goes 1 (oks 5) ++
    goes 0 (oks 1)

/-- The cgroups in use, those harmed, and those handed out unclean. -/
def facts (c : Conf) : List CgId × List CgId × List CgId :=
  (c.world.live.map Prod.snd, c.world.harmed, c.world.stale)

lemma shared_cgroups : [dirtyForgotten, destroyedTwice, rowKept, tidiedTwice, grownMeanwhile].map
      (fun es => (exec step (begin 0 0) es).map facts) =
    [some ([0], [], [0]), some ([0, 0], [0], []), some ([0], [0], []), some ([0], [0], []),
      some ([1, 0], [1], [])] := by
  decide +kernel

theorem cgroup_shared : ¬ ∀ (nodes size : Nat) (es : List Event) (c : Conf),
      exec step (begin nodes size) es = some c → Exclusive c.world := by
  intro hall
  have hrun := (cons.inj (cons.inj shared_cgroups).2).1
  obtain ⟨c, hc, hfacts⟩ := map_eq_some_iff.1 hrun
  have hharmed : c.world.harmed = [0] := congrArg (fun f => f.2.1) hfacts
  have hnone := (hall 0 0 _ c hc).harmed
  rw [hharmed] at hnone
  cases hnone

end CubeSandbox.Cgroup
