import CubeSandbox.AgentOwn

/-!
Sandbox ids change hands: the critical sections of creation and release, and the state files.
-/

namespace CubeSandbox.Agent

open Conc Multiset Tbl Option

variable {w : World} {F : Multiset Tok} {t : Tok} {id : SandboxId}

lemma owned_other (ht : t.taps = 0) : owned w ({t} + F) = owned w F := by
  rw [owned, add_bind, singleton_bind, ht, zero_add, owned]

lemma keeps_ensureEnter (id : SandboxId) : Keeps (act (.ensureEnter id)) 0 fun v r =>
      (∃ st, v = .existing st) ∧ r = 0 ∨ (∃ ch, v = .wait ch) ∧ r = 0 ∨
        (∃ ch, v = .creator ch) ∧ r = {.creating id none} := by
  intro w F o w' v hI hok hact
  obtain ⟨rfl, rfl⟩ := own_eq hact
  have hrel : id ∉ w.releasing := hok
  unfold World.ensureEnter
  split
  · exact ⟨0, hI, .inl ⟨⟨_, rfl⟩, rfl⟩⟩
  rename_i hst
  split
  · exact ⟨0, hI, .inr (.inl ⟨⟨_, rfl⟩, rfl⟩)⟩
  rename_i hcr
  refine ⟨{.creating id none}, ⟨?_, ?_⟩, .inr (.inr ⟨⟨_, rfl⟩, rfl⟩)⟩
  · exact hI.taps.move rfl rfl (by simp [owned, Tok.taps]; rfl) (by simp [Tok.addrs]) hI.taps.named
  obtain ⟨hn, hf, hc, hr, hs⟩ := hI.ids
  rw [zero_add] at hn hf hc hr
  have hfree : id ∉ w.states.pairs.map Prod.fst := by
    intro hmem
    obtain ⟨⟨x, st⟩, hx, rfl⟩ := mem_map.1 hmem
    simp [mem_pairs.1 hx] at hst
  have hnc : id ∉ F.bind Tok.creatingIds := fun h => by
    have := (hc id).2 h
    simp [hcr] at this
  have hnr : id ∉ F.bind Tok.releasingIds := by
    rw [← hr]; exact hrel
  refine ⟨?_, fun x f => ?_, fun x => ?_, ?_, hs⟩
  · rw [ids_split rfl, nodup_cons]
    simp only [mem_add, not_or]
    exact ⟨⟨⟨hfree, hnc⟩, hnr⟩, hn⟩
  · have hfiles : ({.creating id none} + F).bind Tok.files = F.bind Tok.files := by
      simp [Tok.files]
    rw [hfiles]; exact hf x f
  · simp only [add_bind, singleton_bind, Tok.creatingIds, mem_add, mem_singleton]
    by_cases hx : x = id
    · subst hx; simp
    · rw [get_put_ne _ _ hx, hc x]; simp [hx]
  · rw [hr]; simp [Tok.releasingIds]

lemma creating_del {saved : Option PersistedState} (h : IdsOk w ({.creating id saved} + F))
    (x : SandboxId) : ((w.creating.del id).get x).isSome ↔ x ∈ F.bind Tok.creatingIds := by
  have hex := h.exclusive id (by simp [Tok.creatingIds, Tok.releasingIds])
  have hc := h.creating x
  simp only [add_bind, singleton_bind, Tok.creatingIds, mem_add, mem_singleton] at hc
  by_cases hx : x = id
  · subst hx; simpa using hex.2.1
  · rw [get_del_ne _ hx, hc]; simp [hx]

lemma keeps_ensureExit_none (id : SandboxId) :
    Spends (act (.ensureExit id none)) {.creating id none} := by
  intro w F o w' v hI _ hact
  obtain ⟨rfl, -⟩ := own_eq hact
  refine ⟨0, ⟨?_, ?_⟩, rfl⟩
  · exact hI.taps.move rfl rfl (by simp [owned, Tok.taps]; rfl) (by simp [Tok.addrs]) hI.taps.named
  have hcr := creating_del hI.ids
  obtain ⟨hn, hf, -, hr, hs⟩ := hI.ids
  refine ⟨?_, fun x f => ?_, fun x => ?_, ?_, hs⟩
  · rw [ids_split rfl, nodup_cons] at hn
    rw [zero_add]
    exact hn.2
  · have hfiles : ({.creating id none} + F).bind Tok.files = F.bind Tok.files := by
      simp [Tok.files]
    have := hf x f
    rw [hfiles] at this
    rwa [zero_add]
  · rw [zero_add]; exact hcr x
  · change (w.releasing : Multiset SandboxId) = _
    rw [hr]; simp [Tok.releasingIds]

lemma pairs_commit (h : w.states.get id = none) (st : ManagedState) :
    ({ w with states := w.states.put id st } : World).stateTaps = st.key ::ₘ w.stateTaps ∧
      ({ w with states := w.states.put id st } : World).stateFiles =
        (id, some st.persisted) ::ₘ w.stateFiles := by
  simp only [World.stateTaps, World.stateFiles, pairs_put h, map_cons, and_self]

lemma states_put {st : ManagedState} (h : ∀ x s, w.states.get x = some s → StateOk x s)
    (hst : StateOk id st) : ∀ x s, (w.states.put id st).get x = some s → StateOk x s := by
  intro x s hx
  rcases get_put_eq_some.1 hx with ⟨rfl, rfl⟩ | ⟨-, hx⟩
  · exact hst
  · exact h x s hx

/-- **Committing.** The token of an id and a device become the state of the id. -/
lemma Owned.commit {st : ManagedState} {cr : Tbl SandboxId Nat} {rel : List SandboxId}
    (h : Owned w ({t} + {.tap st.key.1 st.key.2} + F)) (ht : t.creatingIds + t.releasingIds = {id})
    (htaps : t.taps = 0) (haddrs : t.addrs = 0) (hfiles : t.files = {(id, some st.persisted)})
    (hst : StateOk id st) (hcr : ∀ x, (cr.get x).isSome ↔ x ∈ F.bind Tok.creatingIds)
    (hrel : (rel : Multiset SandboxId) = F.bind Tok.releasingIds) :
    Owned { w with states := w.states.put id st, creating := cr, releasing := rel } (0 + F) := by
  rw [add_assoc] at h
  obtain ⟨hnone, -, -⟩ := h.ids.exclusive id ht
  obtain ⟨hstaps, hsfiles⟩ := pairs_commit hnone st
  refine ⟨h.taps.move rfl rfl ?_ ?_ h.taps.named, ?_, fun x f => ?_, ?_, ?_, ?_⟩
  · -- the device moves from the hand into the states
    rw [owned_other htaps, owned_tok, zero_add]
    change ({ w with states := w.states.put id st } : World).stateTaps + w.poolTaps +
      w.abnormalTaps + w.quarantineTaps + F.bind Tok.taps = _
    rw [hstaps]
    simp only [cons_add]
    rfl
  · have hnone : ({t} + ({.tap st.key.1 st.key.2} + F)).bind Tok.addrs = F.bind Tok.addrs := by
      rw [add_bind, singleton_bind, haddrs]; simp [Tok.addrs]
    rw [hnone, zero_add]
  · have hn := h.ids.nodup
    rw [pairs_put hnone, map_cons, zero_add]
    rw [ids_split ht] at hn
    simpa only [add_bind, singleton_bind, Tok.creatingIds, Tok.releasingIds, zero_add, cons_add]
      using hn
  · have hf := h.ids.files x f
    change w.files.get x = some f ↔
      (x, f) ∈ ({ w with states := w.states.put id st } : World).stateFiles + _
    rw [hf, hsfiles, add_bind, singleton_bind, hfiles, zero_add]
    simp only [add_bind, singleton_bind, Tok.files, mem_add,
      mem_cons, mem_singleton, notMem_zero, false_or]
    tauto
  · rw [zero_add]; exact hcr
  · rw [zero_add]; exact hrel
  · exact states_put h.ids.states hst

lemma keeps_ensureExit_some (st : ManagedState) (hst : StateOk st.persisted.sandboxId st) :
    Keeps (act (.ensureExit st.persisted.sandboxId (some st)))
      ({.creating st.persisted.sandboxId (some st.persisted)} + {.tap st.key.1 st.key.2})
      fun _ r => r = 0 := by
  intro w F o w' v hI _ hact
  obtain ⟨rfl, -⟩ := own_eq hact
  refine ⟨0, hI.commit (by simp [Tok.creatingIds, Tok.releasingIds]) rfl rfl rfl hst ?_ ?_, rfl⟩
  · intro x
    have := creating_del (add_assoc _ _ F ▸ hI.ids) x
    simpa only [add_bind, singleton_bind, Tok.creatingIds, zero_add] using this
  · rw [hI.ids.releasing]
    simp [Tok.releasingIds]

lemma keeps_putBack (st : ManagedState) (hst : StateOk st.persisted.sandboxId st) :
    Keeps (act (.putBack st))
      ({.releasing st.persisted.sandboxId st.persisted} + {.tap st.key.1 st.key.2})
      fun _ r => r = 0 := by
  intro w F o w' v hI _ hact
  obtain ⟨rfl, -⟩ := own_eq hact
  refine ⟨0, hI.commit (by simp [Tok.creatingIds, Tok.releasingIds]) rfl rfl rfl hst ?_ ?_, rfl⟩
  · intro x
    have := hI.ids.creating x
    simpa only [add_bind, singleton_bind, Tok.creatingIds, zero_add] using this
  have hrel := hI.ids.releasing
  refine coe_erase_of_eq_cons (hrel.trans ?_)
  simp [Tok.releasingIds]

lemma keeps_takeState (id handle : SandboxId) : Keeps (act (.takeState id handle)) 0 fun v r =>
      v = none ∧ r = 0 ∨ ∃ st, v = some st ∧ StateOk st.persisted.sandboxId st ∧
        r = {.releasing st.persisted.sandboxId st.persisted} + {.tap st.key.1 st.key.2} := by
  intro w F o w' v hI _ hact
  obtain ⟨rfl, rfl⟩ := own_eq hact
  unfold World.takeState
  split
  · exact ⟨0, hI, .inl ⟨rfl, rfl⟩⟩
  rename_i st hlookup
  -- whatever it was looked up by, the state stands under its own id
  have hget : w.states.get st.persisted.sandboxId = some st := by
    have hfind : ∃ x, w.states.get x = some st := by
      unfold World.lookupState at hlookup
      split at hlookup
      · exact ⟨_, hlookup⟩
      · split at hlookup <;> try cases hlookup
        exact ⟨_, hlookup⟩
    obtain ⟨x, hx⟩ := hfind
    rwa [(hI.ids.states x st hx).id_eq]
  have hst := hI.ids.states _ st hget
  have hpairs := pairs_del hget
  refine ⟨_, ⟨?_, ?_⟩, .inr ⟨st, rfl, hst, rfl⟩⟩
  · refine hI.taps.move rfl rfl ?_ (by simp [Tok.addrs]) hI.taps.named
    have htaps : w.stateTaps = st.key ::ₘ
        (w.states.del st.persisted.sandboxId).pairs.map fun e => e.2.key := by
      rw [World.stateTaps, hpairs, map_cons]
    have htracked : w.tracked = st.key ::ₘ ((w.states.del st.persisted.sandboxId).pairs.map
        (fun e => e.2.key) + w.poolTaps + w.abnormalTaps + w.quarantineTaps) := by
      rw [World.tracked, htaps]
      simp only [cons_add]
    rw [add_assoc, owned_other rfl, owned_tok, zero_add, owned, owned, htracked, cons_add]
    rfl
  obtain ⟨hn, hf, hc, hr, hs⟩ := hI.ids
  refine ⟨?_, fun x f => ?_, fun x => ?_, ?_, fun x s hx => hs x s (get_del_eq_some.1 hx).2⟩
  · rw [hpairs, map_cons] at hn
    refine (congrArg Multiset.Nodup ?_).mpr hn
    simp [Tok.creatingIds, Tok.releasingIds]
  · rw [hf x f]
    have hfiles : w.stateFiles = (st.persisted.sandboxId, some st.persisted) ::ₘ
        (w.states.del st.persisted.sandboxId).pairs.map fun e => (e.1, some e.2.persisted) := by
      rw [World.stateFiles, hpairs, map_cons]
    rw [hfiles]
    simp only [add_bind, singleton_bind, Tok.files, mem_add,
      mem_cons, mem_singleton, World.stateFiles, notMem_zero, or_false]
    tauto
  · rw [hc x]
    simp only [add_bind, singleton_bind, Tok.creatingIds, zero_add]
  · rw [← cons_coe, hr]
    simp [Tok.releasingIds]

lemma IdsOk.no_other_file (h : IdsOk w ({t} + F)) (id : SandboxId)
    (ht : t.creatingIds + t.releasingIds = {id}) (f : FileContent) :
    (id, f) ∉ w.stateFiles + F.bind Tok.files := by
  obtain ⟨hnone, hnc, hnr⟩ := h.exclusive id ht
  intro hmem
  rcases mem_add.1 hmem with hmem | hmem
  · obtain ⟨⟨y, s⟩, hy, heq⟩ := mem_map.1 hmem
    cases heq
    simp [mem_pairs.1 hy] at hnone
  obtain ⟨u, hu, hmem⟩ := mem_bind.1 hmem
  cases u with
  | tap ip i => simp [Tok.files] at hmem
  | addr ip => simp [Tok.files] at hmem
  | creating y saved =>
    cases saved with
    | none => simp [Tok.files] at hmem
    | some s =>
      simp only [Tok.files, mem_singleton, Prod.mk.injEq] at hmem
      exact hnc (mem_bind.2 ⟨_, hu, by simp [Tok.creatingIds, hmem.1]⟩)
  | releasing y s =>
    simp only [Tok.files, mem_singleton, Prod.mk.injEq] at hmem
    exact hnr (mem_bind.2 ⟨_, hu, by simp [Tok.releasingIds, hmem.1]⟩)

lemma keeps_save (st : PersistedState) :
    Keeps (act (.save st)) {.creating st.sandboxId none} fun v r =>
      v = true ∧ r = {.creating st.sandboxId (some st)} ∨
        v = false ∧ r = {.creating st.sandboxId none} := by
  intro w F o w' v hI hok hact
  change runSave w st o = _ at hact
  cases o <;> simp only [runSave, reduceCtorEq] at hact
  case fail =>
    cases hact
    exact ⟨_, hI, .inr ⟨rfl, rfl⟩⟩
  case truncated => exact absurd hok (by simp [Careful])
  case ok =>
    obtain ⟨-, rfl, rfl⟩ := acted_if hact
    refine ⟨{.creating st.sandboxId (some st)}, ⟨?_, ?_⟩, .inl ⟨rfl, rfl⟩⟩
    · exact hI.taps.move rfl rfl (by simp [owned, Tok.taps]; rfl) (by simp [Tok.addrs])
        hI.taps.named
    have hexcl := hI.ids.no_other_file st.sandboxId
      (by simp [Tok.creatingIds, Tok.releasingIds])
    have hcreate : ∀ saved, ({Tok.creating st.sandboxId saved} + F).bind Tok.creatingIds =
        st.sandboxId ::ₘ F.bind Tok.creatingIds := fun saved => by simp [Tok.creatingIds]
    have hrelease : ∀ saved, ({Tok.creating st.sandboxId saved} + F).bind Tok.releasingIds =
        F.bind Tok.releasingIds := fun saved => by simp [Tok.releasingIds]
    obtain ⟨hn, hf, hc, hr, hs⟩ := hI.ids
    rw [hcreate, hrelease] at hn
    rw [hrelease] at hr
    refine ⟨?_, fun x f => ?_, fun x => ?_, ?_, hs⟩
    · rw [hcreate, hrelease]; exact hn
    · change (w.files.put st.sandboxId (some st)).get x = some f ↔ (x, f) ∈ w.stateFiles + _
      have hother := hexcl f
      have hold : w.files.get x = some f ↔ (x, f) ∈ w.stateFiles + F.bind Tok.files := by
        rw [hf x f]; simp [Tok.files]
      rw [get_put_eq_some, hold]
      simp only [add_bind, singleton_bind, Tok.files, mem_add, mem_singleton, Prod.mk.injEq]
      by_cases hx : x = st.sandboxId
      · subst hx
        rw [mem_add] at hother
        tauto
      · simp [hx]
    · have := hc x
      rw [hcreate] at this
      rwa [hcreate]
    · change (w.releasing : Multiset SandboxId) = _
      rw [hr, hrelease]

lemma keeps_deleteFile (st : PersistedState) (id : SandboxId) :
    Keeps (act (.deleteFile id)) {.releasing id st} fun v r =>
      v = true ∧ r = 0 ∨ v = false ∧ r = {.releasing id st} := by
  intro w F o w' v hI _ hact
  change runDeleteFile w id o = _ at hact
  cases o <;> simp only [runDeleteFile, reduceCtorEq] at hact
  case fail =>
    cases hact
    exact ⟨_, hI, .inr ⟨rfl, rfl⟩⟩
  case ok =>
    obtain ⟨-, rfl, rfl⟩ := acted_if hact
    have hexcl := hI.ids.no_other_file id (by simp [Tok.creatingIds, Tok.releasingIds])
    refine ⟨0, ⟨?_, ?_⟩, .inl ⟨rfl, rfl⟩⟩
    · exact hI.taps.move rfl rfl (by simp [owned, Tok.taps]; rfl) (by simp [Tok.addrs])
        hI.taps.named
    obtain ⟨hn, hf, hc, hr, hs⟩ := hI.ids
    refine ⟨?_, fun x f => ?_, fun x => ?_, ?_, hs⟩
    · rw [ids_split (zero_add {id}), nodup_cons] at hn
      rw [zero_add]
      exact hn.2
    · change (w.files.del id).get x = some f ↔ (x, f) ∈ w.stateFiles + _
      have hother := hexcl f
      rw [get_del_eq_some, hf x f, zero_add]
      simp only [add_bind, singleton_bind, Tok.files, mem_add, mem_singleton, Prod.mk.injEq]
      by_cases hx : x = id
      · subst hx
        rw [mem_add] at hother
        tauto
      · simp [hx]
    · have := hc x
      simp only [add_bind, singleton_bind, Tok.creatingIds, zero_add] at this
      rwa [zero_add]
    · refine coe_erase_of_eq_cons (hr.trans ?_)
      simp [Tok.releasingIds]

/-- Actions on the maps of cubevs, on ports and versions, and actions that only look. -/
def Act.minor : Act → Prop
  | .awaitDone _ | .inflight .. | .getState _ | .serve | .checkTapConflict _ | .allocatePort
  | .releasePort _ | .assignPort _ | .nextVersion | .ensureHostRoute | .listCubeTaps
  | .addArpEntry | .attachFilter | .remoteUpdate .. | .remoteDelete _ | .localUpdate ..
  | .localDelete _ | .listPortMapping | .deviceLookup _ | .deviceUpdate .. | .deviceDelete _
  | .listTapDevices | .ipUpdate .. | .ipDelete _ | .policy .. | .loadAll => True
  | _ => False

/-- The parts of the state that the accounts are about. -/
structure SameAccounts (w w' : World) : Prop where
  links : w'.links = w.links
  allocator : w'.allocator = w.allocator
  states : w'.states = w.states
  tapPool : w'.tapPool = w.tapPool
  abnormal : w'.abnormalTapPool = w.abnormalTapPool
  quarantine : w'.quarantinedTaps = w.quarantinedTaps
  files : w'.files = w.files
  creating : w'.creating = w.creating
  releasing : w'.releasing = w.releasing

lemma SameAccounts.refl (w : World) : SameAccounts w w :=
  ⟨rfl, rfl, rfl, rfl, rfl, rfl, rfl, rfl, rfl⟩

lemma SameAccounts.cube (w : World) (c : CubeVs) : SameAccounts w (w.setCube c) :=
  ⟨rfl, rfl, rfl, rfl, rfl, rfl, rfl, rfl, rfl⟩

lemma minor_same {a : Act} (ha : a.minor) {w' : World} {o : Out} {v : a.Ans}
    (h : Act.run a w o = some (w', v)) : SameAccounts w w' := by
  cases a <;> simp only [Act.minor] at ha
  all_goals simp only [Act.run] at h
  case awaitDone ch =>
    split at h <;> try cases h
    obtain ⟨rfl, -⟩ := own_eq h; exact .refl _
  case listCubeTaps => cases o <;> grind [runListCubeTaps, SameAccounts.refl]
  case listPortMapping => cases o <;> grind [runListPortMapping, SameAccounts.refl]
  case deviceLookup i => cases o <;> grind [runDeviceLookup, SameAccounts.refl]
  case listTapDevices => cases o <;> grind [runListTapDevices, SameAccounts.refl]
  case loadAll => cases o <;> grind [runLoadAll, SameAccounts.refl]
  case deviceDelete i =>
    cases o <;> simp only [delete, reduceCtorEq, some.injEq] at h
    · split at h <;> (cases h; exact .cube w _)
    · cases h; exact .refl _
  case ipDelete ip =>
    cases o <;> simp only [delete, reduceCtorEq, some.injEq] at h
    · split at h <;> (cases h; exact .cube w _)
    · cases h; exact .refl _
  case policy i op =>
    cases o <;> simp only [runPolicy, reduceCtorEq, some.injEq, map_eq_some_iff] at h
    · cases h; exact .cube w _
    · obtain ⟨_, -, h⟩ := h
      cases h; exact .cube w _
    · obtain ⟨_, -, h⟩ := h
      cases h; exact .cube w _
  all_goals first
    | (obtain ⟨rfl, -⟩ := own_eq h; exact ⟨rfl, rfl, rfl, rfl, rfl, rfl, rfl, rfl, rfl⟩)
    | (rcases call_eq h with ⟨-, rfl⟩ | ⟨-, rfl⟩ <;>
        exact ⟨rfl, rfl, rfl, rfl, rfl, rfl, rfl, rfl, rfl⟩)

lemma Owned.minor {a : Act} (ha : a.minor) (w : World) (R : Multiset Tok) (o : Out) (w' : World)
    (v : a.Ans) (hI : Owned w R) (_ : Careful w a o) (h : machine.act a w o = some (w', v)) :
    Owned w' R := by
  have hs := minor_same ha h
  exact hI.same hs.links hs.allocator hs.states hs.tapPool hs.abnormal hs.quarantine hs.files
    hs.creating hs.releasing

end CubeSandbox.Agent
