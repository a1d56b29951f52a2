import CubeSandbox.SnapOpsModel

/-!
Snapshots in use (`pkg/templatecenter/snapshot_runtime_ref.go`, `snapshot_reconciler.go`,
`snapshot_ops.go`).

A sandbox that was created from a snapshot or rolled back to one is bound to it. The table of
active references is to know this: a create registers its reference after the node has made the
sandbox, a rollback attaches it after the node has rolled back, the destruction of a sandbox
releases it, and a pass of the reconciler makes it what the listing of a node says. A delete of a
snapshot looks for a reference before its job is inserted. The jobs are those of
`SnapOpsModel`.
-/

namespace CubeSandbox.SnapRef

open GoText

/-- A sandbox on its node. `bound` is the snapshot it was created from or rolled back to last,
`label` what Cubelet has written down as its runtime snapshot; a commit changes it too, and a resume
makes it invalid. A hidden sandbox is not listed. -/
structure Box where
  node : Nat
  bound : Option Bytes
  label : Option Bytes
  hidden : Bool

/-- `runtimeSnapshotBindingInvalidID`. -/
def invalidID : Bytes := ascii "invalid-runtime-restore-base"

/-- An active reference; its key is the sandbox. -/
structure Ref where
  snapshot : Bytes
  node : Nat
  gen : Nat
  attachedAt : Nat

/-- `snapshotRuntimeActiveVersionQuery` finds the row. -/
def Ref.SameVersion (a b : Ref) : Prop :=
  a.snapshot = b.snapshot ∧ a.gen = b.gen ∧ a.attachedAt = b.attachedAt

instance (a b : Ref) : Decidable (a.SameVersion b) := inferInstanceAs (Decidable (_ ∧ _))

def equalFold (a b : Bytes) : Bool := decide (a.map asciiLower = b.map asciiLower)

/-- The references that the reconciler derives from a listing of a node: sandbox and label. -/
def listing (boxes : Tbl Bytes Box) (node : Nat) : List (Bytes × Bytes) :=
  boxes.toPairs.filterMap fun x =>
    if x.2.node = node ∧ x.2.hidden = false then x.2.label.map fun l => (x.1, l) else none

section

variable (latest : Bool) (view : Tbl Bytes Ref) (node now : Nat)

/-- `attachObservedSnapshotRuntimeBindingTx`. The transaction sees the table as of its beginning or,
if `latest`, as it is. -/
def attachObserved (expected : Option Ref) (refs : Tbl Bytes Ref) (x : Bytes × Bytes) :
    Tbl Bytes Ref :=
  match (if latest then refs else view).get x.1 with
  | none => refs.put x.1 ⟨x.2, node, 0, now⟩
  | some current =>
    if ∃ e ∈ expected, current.SameVersion e then refs.put x.1 ⟨x.2, node, 0, now⟩ else refs

/-- One observed reference in `RefreshSnapshotRuntimeRefsFromNode`. -/
def observeOne (refs : Tbl Bytes Ref) (x : Bytes × Bytes) : Tbl Bytes Ref :=
  match (view.get x.1).filter fun r => decide (r.node = node) with
  | none => attachObserved latest view node now none refs x
  | some e =>
    if equalFold e.snapshot x.2 then
      match refs.get x.1 with
      | none => refs
      | some r =>
        if r.SameVersion e then refs.put x.1 { r with node := node, gen := 0 } else refs
    else attachObserved latest view node now (some e) refs x

/-- `detachObservedSnapshotRuntimeBindingTx`, for a row that was not observed. -/
def detachOne (observed : List (Bytes × Bytes)) (refs : Tbl Bytes Ref) (x : Bytes × Ref) :
    Tbl Bytes Ref :=
  if x.2.node = node ∧ x.1 ∉ observed.map Prod.fst then
    match refs.get x.1 with
    | none => refs
    | some r => if r.SameVersion x.2 then refs.del x.1 else refs
  else refs

/-- `RefreshSnapshotRuntimeRefsFromNode`, in a transaction that has read `view`. -/
def refresh (observed : List (Bytes × Bytes)) (refs : Tbl Bytes Ref) : Tbl Bytes Ref :=
  view.toPairs.foldl (detachOne node observed) (observed.foldl (observeOne latest view node now)
    refs)

end

/-- The snapshot and a node are chosen, the node has made the sandbox, the call is over. -/
inductive CreatePc
  | resolved | booted | done
  deriving DecidableEq

structure Create where
  proc : Nat
  sandbox : Bytes
  snapshot : Bytes
  node : Nat
  pc : CreatePc

/-- Where a pass of the reconciler over a node is. -/
inductive PassPc
  | listed (observed : List (Bytes × Bytes))
  | read (observed : List (Bytes × Bytes)) (view : Tbl Bytes Ref)
  | done

structure Pass where
  proc : Nat
  node : Nat
  pc : PassPc

/-- Beyond the place in `SnapOps`: a delete has found no reference; a rollback has its answer, has
attached its reference, or has failed at one of the two. -/
inductive Phase
  | checked
  | driven (node gen : Nat)
  | attached
  | lost
  deriving DecidableEq

structure World where
  ops : SnapOps.World
  phases : Tbl Nat Phase
  /-- The node of each sandbox that there has been. -/
  homes : Tbl Bytes Nat
  boxes : Tbl Bytes Box
  /-- The snapshots that a node has. -/
  files : List (Nat × Bytes)
  refs : Tbl Bytes Ref
  creates : List Create
  passes : List Pass
  /-- The cleanups that were sent while a sandbox was bound: snapshot and sandbox. -/
  harmed : List (Bytes × Bytes)
  /-- The references that a pass has removed while the sandbox was bound: sandbox and snapshot. -/
  dropped : List (Bytes × Bytes)

def World.start : World := ⟨.start, ∅, ∅, ∅, [], ∅, [], [], [], []⟩

/-- The sandboxes that are bound to a snapshot. -/
def boundTo (boxes : Tbl Bytes Box) (snap : Bytes) : List Bytes :=
  (boxes.toPairs.filter fun x => decide (x.2.bound = some snap)).map Prod.fst

/-- The references of bound sandboxes that are there before a change and not after it. -/
def lostRefs (boxes : Tbl Bytes Box) (refs refs' : Tbl Bytes Ref) : List (Bytes × Bytes) :=
  (refs.toPairs.filter fun x =>
    decide ((boxes.get x.1).bind Box.bound = some x.2.snapshot ∧
      (refs'.get x.1).map Ref.snapshot ≠ some x.2.snapshot)).map fun x => (x.1, x.2.snapshot)

/-- The answer to a rollback is success; or the machine is restored, but a later step fails and the
label stays; or the answer is lost. -/
inductive Outcome
  | success | failedLate | unanswered
  deriving DecidableEq

inductive Event
  | ops (e : SnapOps.Event)
  /-- A delete looks for references, behind its check of the active jobs. -/
  | checkRefs (i : Nat)
  /-- The node rolls a sandbox back. -/
  | drive (i gen : Nat) (out : Outcome)
  /-- A rollback attaches its reference, or fails to. -/
  | attach (i now : Nat) (ok : Bool)
  /-- A delete sends its cleanup to a node. -/
  | clean (i node : Nat)
  /-- The node commits a sandbox to the snapshot of a create job. -/
  | commit (i : Nat)
  /-- A sandbox is resumed from its pause image. -/
  | resume (sandbox : Bytes)
  /-- A sandbox that no snapshot is behind comes up. -/
  | spawn (sandbox : Bytes) (node : Nat) (label : Option Bytes) (hidden : Bool)
  | create (proc : Nat) (sandbox snapshot : Bytes) (node : Nat)
  /-- The node makes the sandbox of a create; the answer may be lost. -/
  | boot (k : Nat) (hidden ok : Bool)
  /-- A create registers its reference, or fails to. -/
  | register (k now : Nat) (ok : Bool)
  | destroy (sandbox : Bytes)
  /-- The hook behind a destruction releases the reference. (It also runs without one if the host
  is not cached, which is left out.) -/
  | release (sandbox : Bytes)
  /-- A pass gets the listing of a node; an error gives an empty listing. -/
  | list (proc node : Nat) (ok : Bool)
  | read (r : Nat)
  /-- The transaction of a pass is committed, or rolled back. -/
  | write (r now : Nat) (latest ok : Bool)
  | stop (proc : Nat)

/-- A delete takes its number when it has found no reference; a rollback ends well with its
reference attached, and not between the answer of the node and the reference. -/
def Allowed (w : World) : SnapOps.Event → Prop
  | .number i => ∀ c ∈ w.ops.calls[i]?, c.work.operation = .delete → w.phases.get i = some .checked
  | .finish i ok => ∀ c ∈ w.ops.calls[i]?, c.work.operation = .rollback →
      if ok then w.phases.get i = some .attached
      else w.phases.get i = none ∨ w.phases.get i = some .lost
  | .giveUp i => ∀ p ∈ w.phases.get i, p = .checked ∨ p = .attached ∨ p = .lost
  | .stop _ => False
  | _ => True

instance (w : World) : DecidablePred (Allowed w) := by
  intro e
  rcases e <;> unfold Allowed <;> infer_instance

def World.setPass (w : World) (r : Nat) (p : Pass) (pc : PassPc) : World :=
  { w with passes := w.passes.set r { p with pc := pc } }

/-- The snapshot that a create job is for. -/
def jobSnapshot (jobs : List SnapOps.Job) (id : Nat) : Option Bytes :=
  (jobs.find? fun j => decide (j.id = id)).map SnapOps.Job.snapshot

def step (w : World) : Event → Option World
  | .ops e =>
    if Allowed w e then
      match SnapOps.step w.ops e with
      | some ops => some { w with ops := ops }
      | none => none
    else none
  | .checkRefs i =>
    match w.ops.calls[i]? with
    | some c =>
      match c.pc, c.work with
      | .number, .delete snap =>
        if ∃ x ∈ w.refs.toPairs, x.2.snapshot = snap then
          some { w with ops := w.ops.setPc i c .done }
        else some { w with phases := w.phases.put i .checked }
      | _, _ => none
    | none => none
  | .drive i gen out =>
    match w.ops.calls[i]? with
    | some c =>
      match c.pc, c.work with
      | .work _, .rollback sb snap =>
        match w.boxes.get sb with
        | some b =>
          if w.phases.get i = none ∧ (b.node, snap) ∈ w.files then
            some { w with
              boxes := w.boxes.put sb { b with
                bound := some snap
                label := if out = .failedLate then b.label else some snap }
              phases := w.phases.put i (if out = .success then .driven b.node gen else .lost) }
          else none
        | none => none
      | _, _ => none
    | none => none
  | .attach i now ok =>
    match w.ops.calls[i]?, w.phases.get i with
    | some c, some (.driven node gen) =>
      match c.work with
      | .rollback sb snap =>
        if ok then
          some { w with
            refs := w.refs.put sb ⟨snap, node, gen, now⟩
            phases := w.phases.put i .attached }
        else some { w with phases := w.phases.put i .lost }
      | _ => none
    | _, _ => none
  | .clean i node =>
    match w.ops.calls[i]? with
    | some c =>
      match c.pc, c.work with
      | .work _, .delete snap =>
        some { w with
          files := w.files.filter fun x => decide (x ≠ (node, snap))
          harmed := (boundTo w.boxes snap).map (fun sb => (snap, sb)) ++ w.harmed }
      | _, _ => none
    | none => none
  | .commit i =>
    match w.ops.calls[i]? with
    | some c =>
      match c.pc, c.work with
      | .work id, .create sb =>
        match w.boxes.get sb, jobSnapshot w.ops.jobs id with
        | some b, some snap =>
          some { w with
            boxes := w.boxes.put sb { b with label := some snap }
            files := (b.node, snap) :: w.files }
        | _, _ => none
      | _, _ => none
    | none => none
  | .resume sb =>
    match w.boxes.get sb with
    | some b => some { w with boxes := w.boxes.put sb { b with label := some invalidID } }
    | none => none
  | .spawn sb node label hidden =>
    if w.homes.get sb = none then
      some { w with
        homes := w.homes.put sb node
        boxes := w.boxes.put sb ⟨node, none, label, hidden⟩ }
    else none
  | .create p sb snap node =>
    some { w with creates := w.creates ++ [⟨p, sb, snap, node, .resolved⟩] }
  | .boot k hidden ok =>
    match w.creates[k]? with
    | some c =>
      if c.pc = .resolved ∧ w.homes.get c.sandbox = none ∧ (c.node, c.snapshot) ∈ w.files then
        some { w with
          homes := w.homes.put c.sandbox c.node
          boxes := w.boxes.put c.sandbox ⟨c.node, some c.snapshot, some c.snapshot, hidden⟩
          creates := w.creates.set k { c with pc := if ok then .booted else .done } }
      else none
    | none => none
  | .register k now ok =>
    match w.creates[k]? with
    | some c =>
      if c.pc = .booted then
        some { w with
          refs := if ok then w.refs.put c.sandbox ⟨c.snapshot, c.node, 0, now⟩ else w.refs
          creates := w.creates.set k { c with pc := .done } }
      else none
    | none => none
  | .destroy sb => some { w with boxes := w.boxes.del sb }
  | .release sb =>
    if (w.homes.get sb).isSome ∧ w.boxes.get sb = none then
      some { w with refs := w.refs.del sb }
    else none
  | .list p node ok =>
    some { w with
      passes := w.passes ++ [⟨p, node, .listed (if ok then listing w.boxes node else [])⟩] }
  | .read r =>
    match w.passes[r]? with
    | some p =>
      match p.pc with
      | .listed observed => some (w.setPass r p (.read observed w.refs))
      | _ => none
    | none => none
  | .write r now latest ok =>
    match w.passes[r]? with
    | some p =>
      match p.pc with
      | .read observed view =>
        if ok then
          some { w with
            refs := refresh latest view p.node now observed w.refs
            passes := w.passes.set r { p with pc := .done }
            dropped :=
              lostRefs w.boxes w.refs (refresh latest view p.node now observed w.refs) ++
                w.dropped }
        else some (w.setPass r p .done)
      | _ => none
    | none => none
  | .stop p =>
    match SnapOps.step w.ops (.stop p) with
    | some ops =>
      some { w with
        ops := ops
        creates := w.creates.map fun c => if c.proc = p then { c with pc := .done } else c
        passes := w.passes.map fun x => if x.proc = p then { x with pc := .done } else x }
    | none => none

/-- **No snapshot in use is deleted**: no cleanup was sent while a sandbox was bound to it, and no
pass has removed the reference of a bound sandbox. -/
structure Safe (w : World) : Prop where
  harmed : w.harmed = []
  dropped : w.dropped = []

/-- The places of a delete between its look for references and its insert. -/
def beforeInsert : SnapOps.Pc → Bool
  | .number => true
  | .insert _ => true
  | _ => false

def atWork : SnapOps.Pc → Bool
  | .work _ => true
  | _ => false

/-- A delete has found no reference and has not ended: it is before its insert, its job waits, or it
is at work. -/
def Deleting (w : World) (snap : Bytes) : Prop :=
  (∃ i ∈ List.range w.ops.calls.length, ∃ c ∈ w.ops.calls[i]?, c.work = .delete snap ∧
    w.phases.get i = some .checked ∧ beforeInsert c.pc = true) ∨
  (∃ j ∈ w.ops.jobs, j.snapshot = snap ∧ j.sandbox = none ∧ j.status = .pending) ∨
  ∃ c ∈ w.ops.calls, c.work = .delete snap ∧ atWork c.pc = true

instance (w : World) (snap : Bytes) : Decidable (Deleting w snap) :=
  inferInstanceAs (Decidable (_ ∨ _ ∨ _))

/-- What a pass has seen of its node is how the sandboxes of the node are bound. -/
def Current (w : World) (node : Nat) (observed : List (Bytes × Bytes)) : Prop :=
  ∀ x ∈ w.boxes.toPairs, x.2.node = node → ∀ s ∈ x.2.bound,
    x.1 ∈ observed.map Prod.fst ∧ ∀ y ∈ observed, y.1 = x.1 → y.2 = s

def PassPc.observed : PassPc → List (Bytes × Bytes)
  | .listed o => o
  | .read o _ => o
  | .done => []

/-- A rollback waits to attach its reference. -/
def Phase.isDriven : Phase → Bool
  | .driven _ _ => true
  | _ => false

/-- When no snapshot in use is deleted. The sections of the jobs are kept apart; no node call of a
create or rollback has an effect without a successful answer, and none of their references fails
to be written, also not because the process stops; no sandbox is made from a snapshot while a
delete of it is past its look for references, and a delete does not look while a sandbox of the
snapshot waits for its reference; no sandbox is rolled back while it waits for that of its create;
and a pass commits its changes while what it has seen of the node is how the sandboxes are bound. -/
def Careful (w : World) : Event → Prop
  | .ops e => SnapOps.Orderly w.ops e
  | .checkRefs i => ∀ c ∈ w.ops.calls[i]?, ∀ k ∈ w.creates, k.pc = .booted →
      c.work ≠ .delete k.snapshot
  | .drive i _ out => out = .success ∧ ∀ c ∈ w.ops.calls[i]?, ∀ k ∈ w.creates, k.pc = .booted →
      c.work.sandbox ≠ some k.sandbox
  | .attach _ _ ok => ok = true
  | .boot k _ ok => ok = true ∧ ∀ c ∈ w.creates[k]?, ¬ Deleting w c.snapshot
  | .register _ _ ok => ok = true
  | .write r _ _ ok => ok = true → ∀ p ∈ w.passes[r]?, Current w p.node p.pc.observed
  | .stop p => (∀ k ∈ w.creates, k.proc = p → k.pc ≠ .booted) ∧
      ∀ i ∈ List.range w.ops.calls.length, ∀ c ∈ w.ops.calls[i]?, c.proc = p →
        ∀ x ∈ w.phases.get i, x.isDriven = false
  | _ => True

instance (w : World) (node : Nat) (observed : List (Bytes × Bytes)) :
    Decidable (Current w node observed) := inferInstanceAs (Decidable (∀ x ∈ _, _))

instance (w : World) : DecidablePred (Careful w) := by
  intro e
  cases e <;> unfold Careful <;> infer_instance

end CubeSandbox.SnapRef
