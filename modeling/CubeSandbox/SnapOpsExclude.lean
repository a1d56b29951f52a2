import CubeSandbox.SnapOpsModel

/-!
Snapshot operations exclude each other.

What a call has checked under its locks stays true until it inserts its job, since a job that
would make it false is inserted by a call that shares one of the locks. A call at work is on a
job that is running, and no other call is on that job.
-/

namespace CubeSandbox.SnapOps

open GoText Runs List Slots Option

/-- The job is the one of the call. -/
structure Job.Fits (j : Job) (c : Call) : Prop where
  req : j.req = c.req
  sandbox : j.sandbox = c.work.sandbox
  snapshot : ∀ s, c.work.snapshot = some s → j.snapshot = s

/-- What a call has found out at a place in its section. -/
structure Checked (w : World) (c : Call) : Prop where
  req : ∀ j ∈ w.jobs, j.req ≠ c.req
  known : ∀ s, c.work.snapshot = some s → s ∈ w.snapshots
  sandbox : ∀ j ∈ w.jobs, j.Active → j.sandbox.isSome → j.sandbox ≠ c.work.sandbox
  snapshot : ∀ j ∈ w.jobs, j.Active → some j.snapshot ≠ c.work.snapshot

def Passed (w : World) (c : Call) : Prop :=
  match c.pc with
  | .checkDefinition => ∀ j ∈ w.jobs, j.req ≠ c.req
  | .checkSandbox =>
    (∀ j ∈ w.jobs, j.req ≠ c.req) ∧ ∀ s, c.work.snapshot = some s → s ∈ w.snapshots
  | .checkSnapshot =>
    (∀ j ∈ w.jobs, j.req ≠ c.req) ∧ (∀ s, c.work.snapshot = some s → s ∈ w.snapshots) ∧
      ∀ j ∈ w.jobs, j.Active → j.sandbox.isSome → j.sandbox ≠ c.work.sandbox
  | .number => Checked w c
  | .insert _ => Checked w c
  | _ => True

structure Inv (w : World) : Prop where
  bound : ∀ j ∈ w.jobs, j.id < w.nextJob
  ids : ∀ j ∈ w.jobs, ∀ k ∈ w.jobs, j.id = k.id → j = k
  reqs : ∀ j ∈ w.jobs, ∀ k ∈ w.jobs, j.req = k.req → j = k
  sandbox : ∀ j ∈ w.jobs, ∀ k ∈ w.jobs, j.Active → k.Active → j.sandbox.isSome →
    j.sandbox = k.sandbox → j = k
  snapshot : ∀ j ∈ w.jobs, ∀ k ∈ w.jobs, j.Active → k.Active → j.snapshot = k.snapshot → j = k
  known : ∀ j ∈ w.jobs, j.snapshot ∈ w.snapshots
  defs : ∀ s d, w.defs.get s = some d → s ∈ w.snapshots
  pending : ∀ j ∈ w.jobs, j.status = .pending → j.req ∉ w.executed
  once : w.executed.Nodup
  apart : ∀ (i j : Nat) (c d : Call), i ≠ j → w.calls[i]? = some c → w.calls[j]? = some d →
    c.InSection → d.InSection → ¬ c.Meets d
  passed : ∀ c ∈ w.calls, Passed w c
  claim : ∀ c ∈ w.calls, ∀ id, c.pc = .claim id →
    id < w.nextJob ∧ ∀ j ∈ w.jobs, j.id = id → j.Fits c
  onJob : ∀ c ∈ w.calls, ∀ id, c.pc.onJob = some id →
    ∃ j ∈ w.jobs, j.id = id ∧ j.status = .running ∧ j.Fits c
  sole : ∀ (i j : Nat) (c d : Call) (id : Nat), w.calls[i]? = some c → w.calls[j]? = some d →
    c.pc.onJob = some id → d.pc.onJob = some id → i = j

lemma Inv.start : Inv World.start := by
  constructor <;> simp [World.start]

variable {c : Call}

lemma Call.Meets.symm {d : Call} (h : c.Meets d) : d.Meets c := by
  obtain ⟨k, hc, hd⟩ := h
  exact ⟨k, hd, hc⟩

lemma meets_of_req {d : Call} (h : c.req = d.req) : c.Meets d := by
  refine ⟨.request (trimSpace c.req), ?_, ?_⟩
  · cases hw : c.work <;> simp [Call.keys, hw]
  · rw [h]
    cases hw : d.work <;> simp [Call.keys, hw]

variable {s snap : Bytes} {id : Nat}

lemma sandbox_mem_keys (h : c.work.sandbox = some s) : .sandbox (trimSpace s) ∈ c.keys := by
  cases hw : c.work <;> simp_all [Call.keys, Work.sandbox]

lemma snapshot_mem_keys (h : c.work.snapshot = some s) : .snapshot (trimSpace s) ∈ c.keys := by
  cases hw : c.work <;> simp_all [Call.keys, Work.snapshot]

/-! ### Fewer jobs -/

/-- Some of the former jobs, with another status perhaps, and none has become active. -/
structure Shrinks (jobs jobs' : List Job) (f : Job → Job) : Prop where
  from_ : ∀ j' ∈ jobs', ∃ j ∈ jobs, f j = j'
  id : ∀ j, (f j).id = j.id
  req : ∀ j, (f j).req = j.req
  sandbox : ∀ j, (f j).sandbox = j.sandbox
  snapshot : ∀ j, (f j).snapshot = j.snapshot
  active : ∀ j ∈ jobs, (f j).Active → j.Active

section

variable {jobs jobs' : List Job} {f : Job → Job}

lemma Shrinks.inj (h : Shrinks jobs jobs' f) {P : Job → Job → Prop}
    (hp : ∀ j ∈ jobs, ∀ k ∈ jobs, P (f j) (f k) → j = k) :
    ∀ j ∈ jobs', ∀ k ∈ jobs', P j k → j = k := by
  intro j' hj' k' hk' hP
  obtain ⟨j, hj, rfl⟩ := h.from_ j' hj'
  obtain ⟨k, hk, rfl⟩ := h.from_ k' hk'
  rw [hp j hj k hk hP]

lemma shrinks_setStatus {st : Status}
    (hst : ∀ j ∈ jobs, j.id = id → (st = .pending ∨ st = .running) → j.Active) :
    Shrinks jobs (setStatus jobs id st)
      fun j => if j.id = id then { j with status := st } else j where
  from_ j' hj' := mem_map.1 hj'
  id j := by split_ifs <;> rfl
  req j := by split_ifs <;> rfl
  sandbox j := by split_ifs <;> rfl
  snapshot j := by split_ifs <;> rfl
  active j hj h := by
    by_cases hid : j.id = id
    · simp only [hid, if_true] at h
      exact hst j hj hid h
    · simpa only [hid, if_false] using h

lemma shrinks_subset (h : jobs' ⊆ jobs) : Shrinks jobs jobs' fun j => j where
  from_ j' hj' := ⟨j', h hj', rfl⟩
  id _ := rfl
  req _ := rfl
  sandbox _ := rfl
  snapshot _ := rfl
  active _ _ h := h

variable {w w' : World}

/-- What a call has checked stays true if each job was there, or is not in its way. -/
lemma Passed.mono (h : Passed w c) (hsub : w.snapshots ⊆ w'.snapshots)
    (hjobs : c.InSection → ∀ j' ∈ w'.jobs,
      (∃ j ∈ w.jobs, j'.req = j.req ∧ j'.sandbox = j.sandbox ∧ j'.snapshot = j.snapshot ∧
        (j'.Active → j.Active)) ∨
      (j'.req ≠ c.req ∧ (j'.sandbox.isSome → j'.sandbox ≠ c.work.sandbox) ∧
        ((∀ s, c.work.snapshot = some s → s ∈ w.snapshots) →
          some j'.snapshot ≠ c.work.snapshot))) : Passed w' c := by
  have hk : (∀ s, c.work.snapshot = some s → s ∈ w.snapshots) →
      ∀ s, c.work.snapshot = some s → s ∈ w'.snapshots := fun hk s hs => hsub (hk s hs)
  have hr : c.InSection → (∀ j ∈ w.jobs, j.req ≠ c.req) → ∀ j ∈ w'.jobs, j.req ≠ c.req := by
    intro hs h j' hj'
    rcases hjobs hs j' hj' with ⟨j, hj, hreq, -⟩ | ⟨hreq, -⟩
    · rw [hreq]
      exact h j hj
    · exact hreq
  have hb : c.InSection → (∀ j ∈ w.jobs, j.Active → j.sandbox.isSome → j.sandbox ≠ c.work.sandbox) →
      ∀ j ∈ w'.jobs, j.Active → j.sandbox.isSome → j.sandbox ≠ c.work.sandbox := by
    intro hs h j' hj' ha
    rcases hjobs hs j' hj' with ⟨j, hj, -, hsb, -, hact⟩ | ⟨-, hsb, -⟩
    · rw [hsb]
      exact h j hj (hact ha)
    · exact hsb
  have hc : c.InSection → Checked w c → Checked w' c := by
    intro hs h
    refine ⟨hr hs h.req, hk h.known, hb hs h.sandbox, fun j' hj' ha => ?_⟩
    rcases hjobs hs j' hj' with ⟨j, hj, -, -, hsn, hact⟩ | ⟨-, -, hsn⟩
    · rw [hsn]
      exact h.snapshot j hj (hact ha)
    · exact hsn h.known
  obtain ⟨p, r, work, pc⟩ := c
  cases pc with
  | checkDefinition => exact hr trivial h
  | checkSandbox => exact ⟨hr trivial h.1, hk h.2⟩
  | checkSnapshot => exact ⟨hr trivial h.1, hk h.2.1, hb trivial h.2.2⟩
  | number | insert => exact hc trivial h
  | _ => trivial

lemma Shrinks.passed (h : Shrinks w.jobs w'.jobs f)
    (hsnap : w.snapshots ⊆ w'.snapshots) (hc : Passed w c) : Passed w' c := by
  refine hc.mono hsnap fun _ j' hj' => ?_
  obtain ⟨j, hj, rfl⟩ := h.from_ j' hj'
  exact .inl ⟨j, hj, h.req j, h.sandbox j, h.snapshot j, h.active j hj⟩

lemma Passed.same (hc : Passed w c) (hjobs : w'.jobs = w.jobs)
    (hsnap : w'.snapshots = w.snapshots) : Passed w' c :=
  (shrinks_subset (hjobs ▸ .refl _)).passed (hsnap ▸ .refl _) hc

lemma Shrinks.fits (h : Shrinks jobs jobs' f) {j : Job} (hj : j.Fits c) : (f j).Fits c :=
  ⟨(h.req j).trans hj.req, (h.sandbox j).trans hj.sandbox,
    fun s hs => (h.snapshot j).trans (hj.snapshot s hs)⟩

end

lemma get_setDefStatus {defs : Tbl Bytes Definition} {st : DefStatus} {d : Definition}
    (h : (setDefStatus defs snap st).get s = some d) : ∃ d', defs.get s = some d' := by
  unfold setDefStatus at h
  split at h
  · exact ⟨d, h⟩
  rename_i d' hd
  rcases Tbl.get_put_eq_some.1 h with ⟨rfl, -⟩ | ⟨-, h⟩
  · exact ⟨d', hd⟩
  · exact ⟨d, h⟩

section

variable {w w' : World} {i : Nat} {c c' : Call}

section

variable (hi : Inv w)
include hi

section

variable (hc : w.calls[i]? = some c)
include hc

/-- **The rule for one call.** A call goes on, and no job is added. -/
lemma Inv.turn {f : Job → Job}
    (hcalls : w'.calls = w.calls.set i c') (hwork : c'.work = c.work) (hreq : c'.req = c.req)
    (hjobs : Shrinks w.jobs w'.jobs f) (hnext : w'.nextJob = w.nextJob)
    (hsnap : w'.snapshots = w.snapshots)
    (hdefs : ∀ s d, w'.defs.get s = some d → s ∈ w.snapshots)
    (hpend : ∀ j ∈ w'.jobs, j.status = .pending → j.req ∉ w'.executed)
    (honce : w'.executed.Nodup)
    (hsec : c'.InSection → c.InSection ∨ ∀ d ∈ w.calls, d.InSection → ¬ c.Meets d)
    (hpass : Passed w' c')
    (hclaim : ∀ id, c'.pc = .claim id → id < w.nextJob ∧ ∀ j ∈ w.jobs, j.id = id → j.Fits c)
    (hon : ∀ id, c'.pc.onJob = some id →
      (∃ j ∈ w'.jobs, j.id = id ∧ j.status = .running ∧ j.Fits c) ∧
      ∀ j d, j ≠ i → w.calls[j]? = some d → d.pc.onJob ≠ some id)
    (hrest : ∀ j d, j ≠ i → w.calls[j]? = some d → ∀ k ∈ w.jobs, d.pc.onJob = some k.id →
      k.status = .running → k ∈ w'.jobs) : Inv w' := by
  have hmeets : ∀ d, c'.Meets d ↔ c.Meets d := fun d => by
    simp only [Call.Meets, Call.keys, hwork, hreq]
  have hfits : ∀ j : Job, j.Fits c → j.Fits c' := fun j h =>
    ⟨h.req.trans hreq.symm, h.sandbox.trans (by rw [hwork]), fun s hs =>
      h.snapshot s (hwork ▸ hs)⟩
  -- the call that moved is apart from every other
  have hfree : ∀ j d, j ≠ i → w.calls[j]? = some d → c'.InSection → d.InSection →
      ¬ c'.Meets d := by
    intro j d hj hd hs hs' hm
    rcases hsec hs with h | h
    · exact hi.apart i j c d (Ne.symm hj) hc hd h hs' ((hmeets d).1 hm)
    · exact h d (mem_of_getElem? hd) hs' ((hmeets d).1 hm)
  exact {
    bound := fun j' hj' => by
      obtain ⟨j, hj, rfl⟩ := hjobs.from_ j' hj'
      rw [hjobs.id, hnext]
      exact hi.bound j hj
    ids := hjobs.inj (P := fun j k => j.id = k.id) fun j hj k hk h =>
      hi.ids j hj k hk (by rwa [hjobs.id, hjobs.id] at h)
    reqs := hjobs.inj (P := fun j k => j.req = k.req) fun j hj k hk h =>
      hi.reqs j hj k hk (by rwa [hjobs.req, hjobs.req] at h)
    sandbox := fun j' hj' k' hk' ha hb hs he => by
      obtain ⟨j, hj, rfl⟩ := hjobs.from_ j' hj'
      obtain ⟨k, hk, rfl⟩ := hjobs.from_ k' hk'
      rw [hjobs.sandbox, hjobs.sandbox] at he
      rw [hjobs.sandbox] at hs
      rw [hi.sandbox j hj k hk (hjobs.active j hj ha) (hjobs.active k hk hb) hs he]
    snapshot := fun j' hj' k' hk' ha hb he => by
      obtain ⟨j, hj, rfl⟩ := hjobs.from_ j' hj'
      obtain ⟨k, hk, rfl⟩ := hjobs.from_ k' hk'
      rw [hjobs.snapshot, hjobs.snapshot] at he
      rw [hi.snapshot j hj k hk (hjobs.active j hj ha) (hjobs.active k hk hb) he]
    known := fun j' hj' => by
      obtain ⟨j, hj, rfl⟩ := hjobs.from_ j' hj'
      rw [hjobs.snapshot, hsnap]
      exact hi.known j hj
    defs := fun s d h => hsnap ▸ hdefs s d h
    pending := hpend
    once := honce
    apart := fun j k a b hne ha hb hsa hsb hm => by
      rw [hcalls] at ha hb
      rcases set_cases hc ha with ⟨rfl, rfl⟩ | ⟨hj, ha'⟩ <;>
        rcases set_cases hc hb with ⟨rfl, rfl⟩ | ⟨hk, hb'⟩
      · exact hne rfl
      · exact hfree k b hk hb' hsa hsb hm
      · exact hfree j a hj ha' hsb hsa hm.symm
      · exact hi.apart j k a b hne ha' hb' hsa hsb hm
    passed := fun d hd => by
      rw [hcalls] at hd
      rcases mem_set_cases hc hd with rfl | ⟨j, -, hd⟩
      · exact hpass
      · exact hjobs.passed (hsnap ▸ List.Subset.refl _) (hi.passed d (mem_of_getElem? hd))
    claim := fun d hd id hid => by
      rw [hcalls] at hd
      rcases mem_set_cases hc hd with rfl | ⟨j, -, hd⟩
      · obtain ⟨h1, h2⟩ := hclaim id hid
        refine ⟨hnext ▸ h1, fun k' hk' hk => ?_⟩
        obtain ⟨k, hkm, rfl⟩ := hjobs.from_ k' hk'
        exact hfits _ (hjobs.fits (h2 k hkm ((hjobs.id k).symm.trans hk)))
      obtain ⟨h1, h2⟩ := hi.claim d (mem_of_getElem? hd) id hid
      refine ⟨hnext ▸ h1, fun k' hk' hk => ?_⟩
      obtain ⟨k, hkm, rfl⟩ := hjobs.from_ k' hk'
      exact hjobs.fits (h2 k hkm ((hjobs.id k).symm.trans hk))
    onJob := fun d hd id hid => by
      rw [hcalls] at hd
      rcases mem_set_cases hc hd with rfl | ⟨j, hj, hd⟩
      · obtain ⟨k, hk, h1, h2, h3⟩ := (hon id hid).1
        exact ⟨k, hk, h1, h2, hfits k h3⟩
      · obtain ⟨k, hk, rfl, hrun, hf⟩ := hi.onJob d (mem_of_getElem? hd) id hid
        exact ⟨k, hrest j d hj hd k hk hid hrun, rfl, hrun, hf⟩
    sole := fun j k a b id ha hb hja hjb => by
      rw [hcalls] at ha hb
      rcases set_cases hc ha with ⟨rfl, rfl⟩ | ⟨hj, ha'⟩ <;>
        rcases set_cases hc hb with ⟨rfl, rfl⟩ | ⟨hk, hb'⟩
      · rfl
      · exact absurd hjb ((hon id hja).2 k b hk hb')
      · exact absurd hja ((hon id hjb).2 j a hj ha')
      · exact hi.sole j k a b id ha' hb' hja hjb }

lemma Inv.walk {pc : Pc}
    {defs : Tbl Bytes Definition} (hdefs : ∀ s d, defs.get s = some d → s ∈ w.snapshots)
    (hsec : Call.InSection { c with pc := pc } →
      c.InSection ∨ ∀ d ∈ w.calls, d.InSection → ¬ c.Meets d)
    (hpass : Passed w { c with pc := pc })
    (hclaim : ∀ id, pc = .claim id → id < w.nextJob ∧ ∀ j ∈ w.jobs, j.id = id → j.Fits c)
    (hon : ∀ id, pc.onJob = some id → c.pc.onJob = some id) :
    Inv { w with defs := defs, calls := w.calls.set i { c with pc := pc } } := by
  refine hi.turn hc rfl rfl rfl (shrinks_subset (.refl _)) rfl rfl hdefs hi.pending hi.once hsec
    ?_ hclaim ?_ ?_
  · exact hpass.same rfl rfl
  · intro id hid
    refine ⟨hi.onJob c (mem_of_getElem? hc) id (hon id hid), fun j d hj hd h => ?_⟩
    exact hj (hi.sole j i d c id hd hc h (hon id hid))
  · exact fun _ _ _ _ k hk _ _ => hk

/-- **A job is inserted** by a call that has found no other in its way. -/
lemma Inv.insert {attempt : Nat}
    (hpc : c.pc = .insert attempt) (hfresh : c.work.operation = .create → snap ∉ w.snapshots)
    (hexec : c.req ∉ w.executed) :
    let jb := c.job w.nextJob attempt snap
    let snaps := if c.work.operation = .create then snap :: w.snapshots else w.snapshots
    let w' : World := { w with
      jobs := w.jobs ++ [jb]
      defs := c.define snap w.defs
      nextJob := w.nextJob + 1
      snapshots := snaps
      calls := w.calls.set i { c with pc := .claim w.nextJob } }
    Inv w' := by
  intro jb snaps w'
  have hmem := mem_of_getElem? hc
  have hck : Checked w c := by
    have := hi.passed c hmem
    simpa [Passed, hpc] using this
  have hsec : c.InSection := by simp [Call.InSection, hpc]
  have hjobs : ∀ k ∈ w.jobs ++ [jb], k ∈ w.jobs ∨ k = jb := fun k hk => by simpa using hk
  have hnew : ∀ k ∈ w.jobs, k.id ≠ jb.id := fun k hk => Nat.ne_of_lt (hi.bound k hk)
  -- the snapshot of the new job is that of the call, or a new one
  have hcreate : c.work.snapshot = none → c.work.operation = .create ∧ jb.snapshot = snap := by
    intro hs
    refine ⟨?_, by simp [jb, Call.job, hs]⟩
    cases hw : c.work <;> simp_all [Work.snapshot, Work.operation]
  have hgiven : ∀ s, c.work.snapshot = some s → jb.snapshot = s := fun s hs => by
    simp [jb, Call.job, hs]
  have hsnapshot : ∀ k ∈ w.jobs, k.Active → k.snapshot ≠ jb.snapshot := by
    intro k hk ha he
    cases hs : c.work.snapshot with
    | none =>
      obtain ⟨hop, hsn⟩ := hcreate hs
      exact hfresh hop (hsn ▸ he ▸ hi.known k hk)
    | some s => exact hck.snapshot k hk ha (by rw [he, hgiven s hs, hs])
  have hsub : w.snapshots ⊆ snaps := by
    dsimp only [snaps]
    split_ifs
    · exact subset_cons_self _ _
    · exact List.Subset.refl _
  have hknown : jb.snapshot ∈ snaps := by
    cases hs : c.work.snapshot with
    | none =>
      obtain ⟨hop, hsn⟩ := hcreate hs
      simp [snaps, hop, hsn]
    | some s => exact hgiven s hs ▸ hsub (hck.known s hs)
  -- what the other calls have checked is not about the new job
  have hothers : ∀ j d, j ≠ i → w.calls[j]? = some d → Passed w' d := by
    intro j d hj hd
    have hkeys : d.InSection → ¬ c.Meets d := fun hs =>
      hi.apart i j c d (Ne.symm hj) hc hd hsec hs
    refine (hi.passed d (mem_of_getElem? hd)).mono hsub fun hs k hk => ?_
    rcases hjobs k hk with hk | rfl
    · exact .inl ⟨k, hk, rfl, rfl, rfl, fun ha => ha⟩
    refine .inr ⟨fun h => hkeys hs (meets_of_req h), ?_, ?_⟩
    · intro hsome h
      obtain ⟨s, hs'⟩ := isSome_iff_exists.1 hsome
      exact hkeys hs ⟨_, sandbox_mem_keys hs', sandbox_mem_keys (h ▸ hs')⟩
    intro hk h
    cases hcs : c.work.snapshot with
    | none =>
      obtain ⟨hop, hsn⟩ := hcreate hcs
      exact hfresh hop (hk snap (by rw [← h, hsn]))
    | some s =>
      exact hkeys hs ⟨_, snapshot_mem_keys hcs,
        snapshot_mem_keys (by rw [← h, hgiven s hcs])⟩
  have hfits : jb.Fits { c with pc := .claim w.nextJob } :=
    ⟨rfl, rfl, fun s hs => hgiven s hs⟩
  exact {
    bound := fun k hk => by
      rcases hjobs k hk with hk | rfl
      · exact Nat.lt_succ_of_lt (hi.bound k hk)
      · exact Nat.lt_succ_self _
    ids := fun j hj k hk h => by
      rcases hjobs j hj with hj | rfl <;> rcases hjobs k hk with hk | rfl
      · exact hi.ids j hj k hk h
      · exact absurd h (hnew j hj)
      · exact absurd h.symm (hnew k hk)
      · rfl
    reqs := fun j hj k hk h => by
      rcases hjobs j hj with hj | rfl <;> rcases hjobs k hk with hk | rfl
      · exact hi.reqs j hj k hk h
      · exact absurd h (hck.req j hj)
      · exact absurd h.symm (hck.req k hk)
      · rfl
    sandbox := fun j hj k hk ha hb hs h => by
      rcases hjobs j hj with hj | rfl <;> rcases hjobs k hk with hk | rfl
      · exact hi.sandbox j hj k hk ha hb hs h
      · exact absurd h (hck.sandbox j hj ha hs)
      · exact absurd h.symm (hck.sandbox k hk hb (h ▸ hs))
      · rfl
    snapshot := fun j hj k hk ha hb h => by
      rcases hjobs j hj with hj | rfl <;> rcases hjobs k hk with hk | rfl
      · exact hi.snapshot j hj k hk ha hb h
      · exact absurd h (hsnapshot j hj ha)
      · exact absurd h.symm (hsnapshot k hk hb)
      · rfl
    known := fun k hk => by
      rcases hjobs k hk with hk | rfl
      · exact hsub (hi.known k hk)
      · exact hknown
    defs := fun s d h => by
      cases hw : c.work with
      | create sb =>
        simp only [w', Call.define, hw] at h
        rcases Tbl.get_put_eq_some.1 h with ⟨rfl, -⟩ | ⟨-, h⟩
        · simp [w', snaps, hw, Work.operation]
        · exact hsub (hi.defs s d h)
      | rollback sb x =>
        simp only [w', Call.define, hw] at h
        exact hsub (hi.defs s d h)
      | delete x =>
        simp only [w', Call.define, hw] at h
        obtain ⟨d', h'⟩ := get_setDefStatus h
        exact hsub (hi.defs s d' h')
    pending := fun k hk hp => by
      rcases hjobs k hk with hk | rfl
      · exact hi.pending k hk hp
      · exact hexec
    once := hi.once
    apart := fun j k a b hne ha hb hsa hsb hm => by
      rcases set_cases hc ha with ⟨rfl, rfl⟩ | ⟨hj, ha'⟩ <;>
        rcases set_cases hc hb with ⟨rfl, rfl⟩ | ⟨hk, hb'⟩
      · exact hne rfl
      · exact hsa
      · exact hsb
      · exact hi.apart j k a b hne ha' hb' hsa hsb hm
    passed := fun d hd => by
      rcases mem_set_cases hc hd with rfl | ⟨j, hj, hd⟩
      · trivial
      · exact hothers j d hj hd
    claim := fun d hd id hid => by
      rcases mem_set_cases hc hd with rfl | ⟨j, -, hd⟩
      · cases hid
        refine ⟨Nat.lt_succ_self _, fun k hk hkid => ?_⟩
        rcases hjobs k hk with hk | rfl
        · exact absurd hkid (hnew k hk)
        · exact hfits
      obtain ⟨h1, h2⟩ := hi.claim d (mem_of_getElem? hd) id hid
      refine ⟨Nat.lt_succ_of_lt h1, fun k hk hkid => ?_⟩
      rcases hjobs k hk with hk | rfl
      · exact h2 k hk hkid
      · exact absurd hkid.symm (Nat.ne_of_lt h1)
    onJob := fun d hd id hid => by
      rcases mem_set_cases hc hd with rfl | ⟨j, -, hd⟩
      · cases hid
      · obtain ⟨k, hk, h⟩ := hi.onJob d (mem_of_getElem? hd) id hid
        exact ⟨k, mem_append_left _ hk, h⟩
    sole := fun j k a b id ha hb hja hjb => by
      rcases set_cases hc ha with ⟨rfl, rfl⟩ | ⟨hj, ha'⟩
      · cases hja
      rcases set_cases hc hb with ⟨rfl, rfl⟩ | ⟨hk, hb'⟩
      · cases hjb
      · exact hi.sole j k a b id ha' hb' hja hjb }

/-- **A job is claimed**, and its work begins. -/
lemma Inv.claimed (hpc : c.pc = .claim id) {j : Job}
    (hj : j ∈ w.jobs) (hid : j.id = id) (hp : j.status = .pending) :
    Inv { w with
      jobs := setStatus w.jobs id .running
      executed := c.req :: w.executed
      calls := w.calls.set i { c with pc := .work id } } := by
  have hfit := (hi.claim c (mem_of_getElem? hc) id hpc).2 j hj hid
  have hact : ∀ k ∈ w.jobs, k.id = id → (Status.running = .pending ∨ Status.running = .running) →
      k.Active := fun k hk hkid _ => hi.ids k hk j hj (hkid.trans hid.symm) ▸ .inl hp
  have hrow : { j with status := .running } ∈ setStatus w.jobs id .running :=
    mem_map.2 ⟨j, hj, if_pos hid⟩
  -- no other call is on the job, since it was pending
  have hnone : ∀ (k : Nat) (d : Call), w.calls[k]? = some d → d.pc.onJob ≠ some id := by
    intro k d hd h
    obtain ⟨j', hj', hid', hrun, -⟩ := hi.onJob d (mem_of_getElem? hd) id h
    have := hi.ids j' hj' j hj (hid'.trans hid.symm)
    rw [this, hp] at hrun
    cases hrun
  refine hi.turn hc rfl rfl rfl (shrinks_setStatus hact) rfl rfl hi.defs ?_ ?_ (fun h => h.elim)
    trivial nofun ?_ ?_
  · intro k' hk' hpend
    obtain ⟨k, hk, rfl⟩ := mem_map.1 hk'
    split_ifs at hpend
    rename_i hkid
    rw [if_neg hkid, mem_cons]
    rintro (h | h)
    · exact hkid (hid ▸ congrArg Job.id (hi.reqs k hk j hj (h.trans hfit.req.symm)))
    · exact hi.pending k hk hpend h
  · refine nodup_cons.2 ⟨?_, hi.once⟩
    exact hfit.req ▸ hi.pending j hj hp
  · intro id' h
    cases h
    exact ⟨⟨_, hrow, hid, rfl, hfit.req, hfit.sandbox, hfit.snapshot⟩,
      fun k d _ hd => hnone k d hd⟩
  · intro k d _ hd m hm hon hrun
    have hne : m.id ≠ id := fun h => hnone k d hd (h ▸ hon)
    exact mem_map.2 ⟨m, hm, if_neg hne⟩

/-- **A job is marked** ready or failed by the call at work on it. -/
lemma Inv.finished (hpc : c.pc.onJob = some id) (ok : Bool) : Inv { w with
      jobs := setStatus w.jobs id (if ok then .ready else .failed)
      calls := w.calls.set i { c with pc := .done } } := by
  have hst : ∀ st : Status, (st = .pending ∨ st = .running) →
      st ≠ (if ok then .ready else .failed) := by
    rintro st (rfl | rfl) <;> cases ok <;> simp
  refine hi.turn hc rfl rfl rfl (shrinks_setStatus fun k _ _ h => absurd rfl (hst _ h)) rfl rfl
    hi.defs ?_ hi.once (fun h => h.elim) trivial nofun nofun ?_
  · intro k' hk' hpend
    obtain ⟨k, hk, rfl⟩ := mem_map.1 hk'
    by_cases hkid : k.id = id
    · rw [if_pos hkid] at hpend
      exact absurd hpend.symm (hst _ (.inl rfl))
    · rw [if_neg hkid] at hpend ⊢
      exact hi.pending k hk hpend
  · intro k d hk hd m hm hon hrun
    have hne : m.id ≠ id := fun h => hk (hi.sole k i d c id hd hc (h ▸ hon) hpc)
    exact mem_map.2 ⟨m, hm, if_neg hne⟩

/-- **The jobs of a snapshot are removed** by the call that deletes it. -/
lemma Inv.purged (hpc : c.pc.onJob = some id) (hw : c.work = .delete snap) : Inv { w with
      jobs := w.jobs.filter fun j => decide (j.snapshot ≠ snap)
      calls := w.calls.set i { c with pc := .done } } := by
  obtain ⟨j, hj, hid, hrun, hfit⟩ := hi.onJob c (mem_of_getElem? hc) id hpc
  have hsn : j.snapshot = snap := hfit.snapshot snap (by rw [hw]; rfl)
  refine hi.turn hc rfl rfl rfl (shrinks_subset (filter_subset_self _)) rfl rfl hi.defs ?_ hi.once
    (fun h => h.elim) trivial nofun nofun ?_
  · exact fun k hk hp => hi.pending k (mem_filter.1 hk).1 hp
  intro k d hk hd m hm hon hmrun
  refine mem_filter.2 ⟨hm, ?_⟩
  rw [decide_eq_true_eq]
  intro he
  -- two running jobs of one snapshot are one job, and one call
  have hmj := hi.snapshot m hm j hj (.inr hmrun) (.inr hrun) (he.trans hsn.symm)
  exact hk (hi.sole k i d c id hd hc (by rw [hon, hmj, hid]) hpc)

end

/-- Calls that wait or are done may come, or take the place of others. -/
lemma Inv.withCalls {calls : List Call} (h : ∀ (j : Nat) (d : Call),
    calls[j]? = some d → w.calls[j]? = some d ∨ d.pc = .waiting ∨ d.pc = .done) :
    Inv { w with calls := calls } := by
  have hold : ∀ {j : Nat} {d : Call}, calls[j]? = some d → d.pc ≠ .waiting ∧ d.pc ≠ .done →
      w.calls[j]? = some d := fun hd hne => (h _ _ hd).resolve_right fun e => e.elim hne.1 hne.2
  have hsec : ∀ {d : Call}, d.InSection → d.pc ≠ .waiting ∧ d.pc ≠ .done := by
    intro d hs
    constructor <;> intro e <;> simp [Call.InSection, e] at hs
  have hon : ∀ {d : Call} {id : Nat}, d.pc.onJob = some id → d.pc ≠ .waiting ∧ d.pc ≠ .done := by
    intro d id hid
    constructor <;> intro e <;> rw [e] at hid <;> cases hid
  exact { hi with
    apart := fun j k a b hne ha hb hsa hsb =>
      hi.apart j k a b hne (hold ha (hsec hsa)) (hold hb (hsec hsb)) hsa hsb
    passed := fun d hd => by
      obtain ⟨j, hj⟩ := mem_iff_getElem?.1 hd
      rcases h j d hj with hd | hpc | hpc
      · exact (hi.passed d (mem_of_getElem? hd)).same rfl rfl
      · simp [Passed, hpc]
      · simp [Passed, hpc]
    claim := fun d hd id hid => by
      obtain ⟨j, hj⟩ := mem_iff_getElem?.1 hd
      exact hi.claim d (mem_of_getElem? (hold hj (by simp [hid]))) id hid
    onJob := fun d hd id hid => by
      obtain ⟨j, hj⟩ := mem_iff_getElem?.1 hd
      exact hi.onJob d (mem_of_getElem? (hold hj (hon hid))) id hid
    sole := fun j k a b id ha hb hja hjb =>
      hi.sole j k a b id (hold ha (hon hja)) (hold hb (hon hjb)) hja hjb }

lemma Inv.submit (p : Nat) (req : Bytes) (work : Work) :
    Inv { w with calls := w.calls ++ [⟨p, req, work, .waiting⟩] } := by
  refine hi.withCalls fun j d hd => ?_
  rcases append_cases hd with ⟨-, rfl⟩ | ⟨-, hd⟩
  · exact .inr (.inl rfl)
  · exact .inl hd

lemma Inv.stop (p : Nat) : Inv { w with
      calls := w.calls.map fun c => if c.proc = p then { c with pc := .done } else c } := by
  refine hi.withCalls fun j d hd => ?_
  rw [getElem?_map, map_eq_some_iff] at hd
  obtain ⟨e, he, rfl⟩ := hd
  split_ifs
  · exact .inr (.inr rfl)
  · exact .inl he

end

end

lemma settled_defs {w : World} (hi : Inv w) {st : DefStatus} (s : Bytes) (d : Definition)
    (h : (settleDefs w.jobs w.defs id st).get s = some d) : s ∈ w.snapshots := by
  unfold settleDefs at h
  split at h
  · exact hi.defs s d h
  · obtain ⟨d', h'⟩ := get_setDefStatus h
    exact hi.defs s d' h'

lemma passed_afterDefinition {w : World} (hreq : ∀ j ∈ w.jobs, j.req ≠ c.req)
    (hknown : ∀ s, c.work.snapshot = some s → s ∈ w.snapshots) :
    Passed w { c with pc := c.work.afterDefinition } := by
  obtain ⟨p, r, work, pc⟩ := c
  cases work with
  | create sb => exact ⟨hreq, hknown⟩
  | rollback sb snap => exact ⟨hreq, hknown⟩
  | delete snap => exact ⟨hreq, hknown, fun j _ _ hs h => by rw [h] at hs; cases hs⟩

lemma passed_afterSandbox {w : World} (hreq : ∀ j ∈ w.jobs, j.req ≠ c.req)
    (hknown : ∀ s, c.work.snapshot = some s → s ∈ w.snapshots)
    (hsb : ∀ j ∈ w.jobs, j.Active → j.sandbox.isSome → j.sandbox ≠ c.work.sandbox) :
    Passed w { c with pc := c.work.afterSandbox } := by
  obtain ⟨p, r, work, pc⟩ := c
  cases work with
  | create sb => exact ⟨hreq, hknown, hsb, nofun⟩
  | rollback sb snap => exact ⟨hreq, hknown, hsb⟩
  | delete snap => exact ⟨hreq, hknown, hsb⟩

/-! ### What a step does -/

/-- The places before the number is taken. -/
def Pc.early : Pc → Bool
  | .waiting | .lookup | .checkDefinition | .checkSandbox | .checkSnapshot => true
  | _ => false

/-- What a call can do, with the event and the world that follows. -/
inductive Move (w : World) (i : Nat) (c : Call) : Event → World → Prop
  | enter (hpc : c.pc = .waiting) : Move w i c (.enter i) (w.setPc i c .lookup)
  | found {j : Job} (hpc : c.pc = .lookup) (hj : j ∈ w.jobs) (hreq : j.req = c.req)
      (hfits : j.fits c.work = true) : Move w i c (.lookup i) (w.setPc i c (.claim j.id))
  | fresh (hpc : c.pc = .lookup) (hreq : ∀ j ∈ w.jobs, j.req ≠ c.req) :
      Move w i c (.lookup i) (w.setPc i c c.work.afterLookup)
  | defined {d : Definition} (hpc : c.pc = .checkDefinition)
      (hd : c.work.snapshot.bind w.defs.get = some d) :
      Move w i c (.checkDefinition i) (w.setPc i c c.work.afterDefinition)
  | sandboxFree (hpc : c.pc = .checkSandbox)
      (hfree : ∀ j ∈ w.jobs, j.Active → j.sandbox.isSome → j.sandbox ≠ c.work.sandbox) :
      Move w i c (.checkSandbox i) (w.setPc i c c.work.afterSandbox)
  | snapshotFree (hpc : c.pc = .checkSnapshot)
      (hfree : ∀ j ∈ w.jobs, j.Active → some j.snapshot ≠ c.work.snapshot) :
      Move w i c (.checkSnapshot i) (w.setPc i c .number)
  | number (hpc : c.pc = .number) (attempt : Nat) :
      Move w i c (.number i) (w.setPc i c (.insert attempt))
  | insert {attempt : Nat} {snap : Bytes} (hpc : c.pc = .insert attempt)
      (hnew : c.work.operation = .create → snap ∉ w.snapshots) :
      Move w i c (.insert i snap) { w with
        jobs := w.jobs ++ [c.job w.nextJob attempt snap]
        defs := c.define snap w.defs
        nextJob := w.nextJob + 1
        snapshots := if c.work.operation = .create then snap :: w.snapshots else w.snapshots
        calls := w.calls.set i { c with pc := .claim w.nextJob } }
  | claim {j : Job} (hpc : c.pc = .claim j.id) (hj : j ∈ w.jobs) (hp : j.status = .pending) :
      Move w i c (.claim i) { w with
        jobs := setStatus w.jobs j.id .running
        executed := c.req :: w.executed
        calls := w.calls.set i { c with pc := .work j.id } }
  | settle {id : Nat} {ok : Bool} (hpc : c.pc = .work id) (hop : c.work.operation ≠ .rollback) :
      Move w i c (.settle i ok) { w with
        defs := settleDefs w.jobs w.defs id (if ok then .ready else .failed)
        calls := w.calls.set i { c with pc := .settled id ok } }
  | finish {id : Nat} {ok : Bool} (hpc : c.pc.onJob = some id) :
      Move w i c (.finish i ok) { w with
        jobs := setStatus w.jobs id (if ok then .ready else .failed)
        calls := w.calls.set i { c with pc := .done } }
  | dropDefinition {id : Nat} {snap : Bytes} (hpc : c.pc = .work id) (hw : c.work = .delete snap) :
      Move w i c (.dropDefinition i) { w with
        defs := w.defs.del snap
        calls := w.calls.set i { c with pc := .purge id } }
  | purge {id : Nat} {snap : Bytes} (hpc : c.pc = .purge id) (hw : c.work = .delete snap) :
      Move w i c (.purge i) { w with
        jobs := w.jobs.filter fun j => decide (j.snapshot ≠ snap)
        calls := w.calls.set i { c with pc := .done } }
  | done {e : Event} (he : e = .giveUp i ∨ ∀ id, c.pc ≠ .work id) :
      Move w i c e (w.setPc i c .done)

def Event.call : Event → Option Nat
  | .enter i | .lookup i | .checkDefinition i | .checkSandbox i | .checkSnapshot i | .number i
  | .insert i _ | .claim i | .settle i _ | .finish i _ | .dropDefinition i | .purge i
  | .giveUp i => some i
  | _ => none

section

variable {w w' : World} {e : Event} {i : Nat} {c : Call}

lemma exists_call (he : e.call = some i) (h : step w e = some w') : ∃ c, w.calls[i]? = some c := by
  cases hc : w.calls[i]? with
  | some c => exact ⟨c, rfl⟩
  | none =>
    cases e <;> cases he <;> simp [step, hc] at h

/-- **What a step of a call does.** -/
lemma move_of_step (he : e.call = some i) (hc : w.calls[i]? = some c) (h : step w e = some w') :
    Move w i c e w' := by
  have hend : ∀ {pc : Pc}, c.pc = pc → (∀ id, pc ≠ .work id) → Move w i c e (w.setPc i c .done) :=
    fun hpc hne => .done (.inr (hpc ▸ hne))
  cases e <;> cases he <;> simp only [step, hc] at h
  case enter =>
    split_ifs at h with hg
    cases h
    exact .enter hg.1
  case lookup =>
    split_ifs at h with hpc
    split at h
    · rename_i j hj
      cases h
      split_ifs with hf
      · exact .found hpc (mem_reverse.1 (mem_of_find?_eq_some hj))
          (by simpa using find?_some hj) hf
      · exact hend hpc nofun
    · rename_i hnone
      cases h
      exact .fresh hpc fun j hj => by
        simpa using find?_eq_none.1 hnone j (mem_reverse.2 hj)
  case checkDefinition =>
    split_ifs at h with hpc
    split at h
    · rename_i d hd
      cases h
      split_ifs
      · exact .defined hpc hd
      · exact hend hpc nofun
    · cases h
      exact hend hpc nofun
  case checkSandbox =>
    split at h <;> cases h
    rename_i hpc
    split_ifs with ha
    · exact hend hpc nofun
    · exact .sandboxFree hpc fun j hj h1 h2 h3 => ha ⟨j, hj, h1, h2, h3⟩
  case checkSnapshot =>
    split at h <;> cases h
    rename_i hpc
    split_ifs with ha
    · exact hend hpc nofun
    · exact .snapshotFree hpc fun j hj h1 h2 => ha ⟨j, hj, h1, h2⟩
  case number =>
    split_ifs at h with hpc
    cases h
    exact .number hpc _
  case insert =>
    split at h <;> try cases h
    rename_i attempt hpc
    split at h
    · cases h
    rename_i hg
    split at h
    · cases h
      exact hend hpc nofun
    · cases h
      exact .insert hpc fun hop hm => hg ⟨hop, hm⟩
  case claim =>
    split at h <;> try cases h
    rename_i id hpc
    split_ifs at h with hg
    · cases h
      obtain ⟨j, hj, rfl, hp⟩ := hg
      exact .claim hpc hj hp
    · cases h
      exact hend hpc nofun
  case settle =>
    split at h <;> try cases h
    rename_i id hpc
    split at h <;> cases h
    rename_i hg
    refine .settle hpc fun hr => ?_
    rw [hr] at hg
    rcases hg with hg | ⟨hg, -⟩ <;> cases hg
  case finish =>
    split at h
    · rename_i id ok' hpc
      split at h <;> cases h
      exact .finish (by rw [hpc]; rfl)
    · rename_i id hpc
      split at h <;> cases h
      exact .finish (by rw [hpc]; rfl)
    · cases h
  case dropDefinition =>
    split at h <;> cases h
    rename_i id snap hpc hw
    exact .dropDefinition hpc hw
  case purge =>
    split at h <;> cases h
    rename_i id snap hpc hw
    exact .purge hpc hw
  case giveUp =>
    cases h
    exact .done (.inl rfl)

end

lemma Inv.move {w w' : World} {e : Event} {i : Nat} (hi : Inv w)
    (hc : w.calls[i]? = some c) (hok : Orderly w e) (m : Move w i c e w') : Inv w' := by
  have hp := hi.passed c (mem_of_getElem? hc)
  cases m with
  | enter =>
    exact hi.walk hc hi.defs (fun _ => .inr fun d hd hs => hok c hc d hd hs) trivial nofun nofun
  | @found j hpc hj hreq hf =>
    refine hi.walk hc hi.defs (fun h => h.elim) trivial ?_ nofun
    rintro id hid
    cases hid
    refine ⟨hi.bound j hj, fun k hk hkid => ?_⟩
    rw [hi.ids k hk j hj hkid]
    simp only [Job.fits, Bool.and_eq_true, decide_eq_true_eq] at hf
    refine ⟨hreq, hf.1.2, fun s hs => ?_⟩
    simpa [hs] using hf.2
  | fresh hpc hreq =>
    refine hi.walk hc hi.defs (fun _ => .inl (by simp [Call.InSection, hpc])) ?_ ?_ ?_
    · cases c.work <;> simp [Passed, Work.afterLookup, Work.snapshot] <;> exact hreq
    · cases c.work <;> simp [Work.afterLookup]
    · cases c.work <;> simp [Work.afterLookup, Pc.onJob]
  | @defined d hpc hd =>
    rw [Passed, hpc] at hp
    refine hi.walk hc hi.defs (fun _ => .inl (by simp [Call.InSection, hpc])) ?_ ?_ ?_
    · refine passed_afterDefinition hp fun s hs => ?_
      rw [hs] at hd
      exact hi.defs s d hd
    · cases c.work <;> simp [Work.afterDefinition]
    · cases c.work <;> simp [Work.afterDefinition, Pc.onJob]
  | sandboxFree hpc hfree =>
    rw [Passed, hpc] at hp
    refine hi.walk hc hi.defs (fun _ => .inl (by simp [Call.InSection, hpc])) ?_ ?_ ?_
    · exact passed_afterSandbox hp.1 hp.2 hfree
    · cases c.work <;> simp [Work.afterSandbox]
    · cases c.work <;> simp [Work.afterSandbox, Pc.onJob]
  | snapshotFree hpc hfree =>
    rw [Passed, hpc] at hp
    exact hi.walk hc hi.defs (fun _ => .inl (by simp [Call.InSection, hpc]))
      ⟨hp.1, hp.2.1, hp.2.2, hfree⟩ nofun nofun
  | number hpc =>
    rw [Passed, hpc] at hp
    exact hi.walk hc hi.defs (fun _ => .inl (by simp [Call.InSection, hpc]))
      ⟨hp.req, hp.known, hp.sandbox, hp.snapshot⟩ nofun nofun
  | insert hpc hnew => exact hi.insert hc hpc hnew (hok c hc)
  | claim hpc hj hpend => exact hi.claimed hc hpc hj rfl hpend
  | settle hpc =>
    refine hi.walk hc (settled_defs hi) (fun h => h.elim) trivial nofun fun id' h => ?_
    rwa [hpc]
  | finish hpc => exact hi.finished hc hpc _
  | dropDefinition hpc hw =>
    refine hi.walk hc (fun s d h => hi.defs s d (Tbl.get_del_eq_some.1 h).2) (fun h => h.elim)
      trivial nofun fun id' h => ?_
    rwa [hpc]
  | purge hpc hw => exact hi.purged hc (by rw [hpc]; rfl) hw
  | done => exact hi.walk hc hi.defs (fun h => h.elim) trivial nofun nofun

lemma inv_step (w : World) (e : Event) (w' : World) (hi : Inv w) (hok : Orderly w e)
    (h : step w e = some w') : Inv w' := by
  cases he : e.call with
  | some i =>
    obtain ⟨c, hc⟩ := exists_call he h
    exact hi.move hc hok (move_of_step he hc h)
  | none =>
    cases e with
    | submit p req work =>
      cases h
      exact hi.submit p req work
    | stop p =>
      cases h
      exact hi.stop p
    | failDefinition snap =>
      simp only [step] at h
      split at h <;> try cases h
      split_ifs at h
      cases h
      exact { hi with
        defs := fun s d h => by
          obtain ⟨d', h'⟩ := get_setDefStatus h
          exact hi.defs s d' h'
        passed := fun c hc => (hi.passed c hc).same rfl rfl }
    | _ => cases he

lemma Inv.exclusive {w : World} (hi : Inv w) : Exclusive w where
  sandbox := hi.sandbox
  snapshot := hi.snapshot
  work i j c d hc hd hcon hdon h := by
    obtain ⟨m, hm⟩ := isSome_iff_exists.1 hcon
    obtain ⟨n, hn⟩ := isSome_iff_exists.1 hdon
    obtain ⟨a, ha, rfl, harun, haf⟩ := hi.onJob c (mem_of_getElem? hc) m hm
    obtain ⟨b, hb, rfl, hbrun, hbf⟩ := hi.onJob d (mem_of_getElem? hd) n hn
    have hab : a = b := by
      rcases h with ⟨hs, h⟩ | ⟨hs, h⟩
      · refine hi.sandbox a ha b hb (.inr harun) (.inr hbrun) (haf.sandbox ▸ hs) ?_
        rw [haf.sandbox, hbf.sandbox, h]
      obtain ⟨s, hs⟩ := isSome_iff_exists.1 hs
      refine hi.snapshot a ha b hb (.inr harun) (.inr hbrun) ?_
      rw [haf.snapshot s hs, hbf.snapshot s (h ▸ hs)]
    exact hi.sole i j c d b.id hc hd (hab ▸ hm) hn
  once := hi.once

/-- **Snapshot operations exclude each other** if the sections of different processes do not overlap
and no request is inserted anew after its work. -/
theorem snapshot_ops_exclusive (es : List Event) (w : World)
    (h : Meets step Orderly World.start es) (hw : exec step World.start es = some w) :
    Exclusive w :=
  (exec_inv inv_step Inv.start h hw).exclusive

def sb : Bytes := ascii "sb-1"
def snapA : Bytes := ascii "snap-a"
def snapB : Bytes := ascii "snap-b"

/-- The active jobs: number, sandbox, snapshot. -/
def World.actives (w : World) : List (Nat × Option Bytes × Bytes) :=
  (w.jobs.filter fun j => decide j.Active).map fun j => (j.id, j.sandbox, j.snapshot)

lemma World.mem_actives {w : World} {n : Nat} {s : Option Bytes} {x : Bytes}
    (h : (n, s, x) ∈ w.actives) :
    ∃ j ∈ w.jobs, j.Active ∧ j.id = n ∧ j.sandbox = s ∧ j.snapshot = x := by
  obtain ⟨j, hj, he⟩ := mem_map.1 h
  obtain ⟨hj, ha⟩ := mem_filter.1 hj
  cases he
  exact ⟨j, hj, by simpa using ha, rfl, rfl, rfl⟩

structure Facts where
  actives : List (Nat × Option Bytes × Bytes)
  executed : List Bytes
  deriving DecidableEq

def World.facts (w : World) : Facts := ⟨w.actives, w.executed⟩

def createRun : List Event :=
  [.submit 1 (ascii "r1") (.create sb), .enter 0, .lookup 0, .checkSandbox 0, .insert 0 snapA,
    .claim 0, .settle 0 true, .finish 0 true]

/-- A request comes again, another process rolls back, that comes again, and a delete is refused. -/
def tidyRun : List Event :=
  createRun ++
  [.submit 2 (ascii "r1") (.create sb), .enter 1, .lookup 1, .claim 1,
    .submit 2 (ascii "r2") (.rollback sb snapA), .enter 2, .lookup 2, .checkDefinition 2,
    .checkSandbox 2, .checkSnapshot 2, .number 2, .insert 2 [],
    .submit 1 (ascii "r2") (.rollback sb snapA), .enter 3, .lookup 3, .claim 3, .claim 2,
    .submit 1 (ascii "r3") (.delete snapA), .enter 4, .lookup 4, .checkDefinition 4,
    .checkSnapshot 4]

theorem tidy_exclusive : Meets step Orderly World.start tidyRun ∧
    ∃ w, exec step World.start tidyRun = some w ∧
      w.facts = ⟨[(1, some sb, snapA)], [ascii "r2", ascii "r1"]⟩ ∧ Exclusive w := by
  have hm : Meets step Orderly World.start tidyRun := by decide +kernel
  exact ⟨hm, leads World.facts _ (by decide +kernel) fun w hw hf =>
    ⟨hf, snapshot_ops_exclusive tidyRun w hm hw⟩⟩

def twoCreates : List Event :=
  [.submit 1 (ascii "r1") (.create sb), .submit 2 (ascii "r2") (.create sb), .enter 0, .enter 1,
    .lookup 0, .lookup 1, .checkSandbox 0, .checkSandbox 1, .insert 0 snapA, .insert 1 snapB]

/-- A rollback and a delete pass the check side by side; the delete takes its attempt number
later. -/
def rollbackAndDelete : List Event :=
  createRun ++
  [.submit 1 (ascii "r2") (.rollback sb snapA), .submit 2 (ascii "r3") (.delete snapA), .enter 1,
    .enter 2, .lookup 1, .lookup 2, .checkDefinition 1, .checkDefinition 2, .checkSandbox 1,
    .checkSnapshot 1, .checkSnapshot 2, .number 1, .insert 1 [], .number 2, .insert 2 []]

/-- The delete of a snapshot removes the job of its create, and the create comes again. -/
def createAgain : List Event :=
  createRun ++
  [.submit 1 (ascii "r2") (.delete snapA), .enter 1, .lookup 1, .checkDefinition 1,
    .checkSnapshot 1, .number 1, .insert 1 [], .claim 1, .dropDefinition 1, .purge 1,
    .submit 1 (ascii "r1") (.create sb), .enter 2, .lookup 2, .checkSandbox 2, .insert 2 snapB,
    .claim 2]

/-- **None of the three holds of every run.** -/
theorem snapshot_ops_overlap :
    (¬ ∀ es w, exec step World.start es = some w → ∀ j ∈ w.jobs, ∀ k ∈ w.jobs,
      j.Active → k.Active → j.sandbox.isSome → j.sandbox = k.sandbox → j = k) ∧
    (¬ ∀ es w, exec step World.start es = some w → ∀ j ∈ w.jobs, ∀ k ∈ w.jobs,
      j.Active → k.Active → j.snapshot = k.snapshot → j = k) ∧
    ¬ ∀ es w, exec step World.start es = some w → w.executed.Nodup := by
  refine ⟨fun h => ?_, fun h => ?_, fun h => ?_⟩
  · have hx : (exec step World.start twoCreates).map World.actives =
        some [(0, some sb, snapA), (1, some sb, snapB)] := by decide +kernel
    obtain ⟨w, hw, hf⟩ := map_eq_some_iff.1 hx
    obtain ⟨j, hj, hja, hj0, hjs, -⟩ := w.mem_actives (hf ▸ mem_cons_self)
    obtain ⟨k, hk, hka, hk1, hks, -⟩ :=
      w.mem_actives (hf ▸ mem_cons_of_mem _ mem_cons_self)
    have := h twoCreates w hw j hj k hk hja hka (hjs ▸ rfl) (hjs.trans hks.symm)
    rw [this, hk1] at hj0
    cases hj0
  · have hx : (exec step World.start rollbackAndDelete).map World.actives =
        some [(1, some sb, snapA), (2, none, snapA)] := by decide +kernel
    obtain ⟨w, hw, hf⟩ := map_eq_some_iff.1 hx
    obtain ⟨j, hj, hja, hj0, -, hjs⟩ := w.mem_actives (hf ▸ mem_cons_self)
    obtain ⟨k, hk, hka, hk1, -, hks⟩ :=
      w.mem_actives (hf ▸ mem_cons_of_mem _ mem_cons_self)
    have := h rollbackAndDelete w hw j hj k hk hja hka (hjs.trans hks.symm)
    rw [this, hk1] at hj0
    cases hj0
  · have hx : (exec step World.start createAgain).map World.executed =
        some [ascii "r1", ascii "r2", ascii "r1"] := by decide +kernel
    obtain ⟨w, hw, hf⟩ := map_eq_some_iff.1 hx
    have := h createAgain w hw
    rw [hf] at this
    exact absurd this (by decide)

end CubeSandbox.SnapOps
