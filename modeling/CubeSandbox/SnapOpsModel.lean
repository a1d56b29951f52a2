import CubeSandbox.GoText
import CubeSandbox.Runs
import CubeSandbox.Tbl

/-!
The snapshot operations of CubeMaster (`pkg/templatecenter/snapshot_ops.go`).

A create, a rollback or a delete of a snapshot is submitted to one of several CubeMaster
processes that share a database. The submission looks for a job of the same request, checks
that no other operation is active, and inserts a job; then the job is claimed and worked on. Each
query is a step of its own. The locks of `withSnapshotWriteLocks` are those of one process; the
table of jobs has a unique index on request and operation and one on snapshot and attempt.
-/

namespace CubeSandbox.SnapOps

open GoText

inductive Work
  | create (sandbox : Bytes)
  | rollback (sandbox snapshot : Bytes)
  | delete (snapshot : Bytes)
  deriving DecidableEq

inductive Operation
  | create | rollback | delete
  deriving DecidableEq

def Work.operation : Work → Operation
  | .create _ => .create
  | .rollback _ _ => .rollback
  | .delete _ => .delete

inductive Status
  | pending | running | ready | failed
  deriving DecidableEq

/-- A row of the table of jobs. A delete has no sandbox. -/
structure Job where
  id : Nat
  req : Bytes
  operation : Operation
  sandbox : Option Bytes
  snapshot : Bytes
  attempt : Nat
  status : Status

def Job.Active (j : Job) : Prop := j.status = .pending ∨ j.status = .running

inductive DefStatus
  | creating | ready | failed | deleting
  deriving DecidableEq

structure Definition where
  status : DefStatus
  originSandbox : Bytes

/-- The locks of a process. -/
inductive Key
  | sandbox (id : Bytes)
  | snapshot (id : Bytes)
  | request (id : Bytes)
  deriving DecidableEq

/-- Where a call is: before and inside the section under the locks, before the claim, at work,
behind the update of the definition, before the removal of the jobs, at its end. -/
inductive Pc
  | waiting
  | lookup | checkDefinition | checkSandbox | checkSnapshot | number
  | insert (attempt : Nat)
  | claim (job : Nat)
  | work (job : Nat)
  | settled (job : Nat) (ok : Bool)
  | purge (job : Nat)
  | done
  deriving DecidableEq

structure Call where
  proc : Nat
  req : Bytes
  work : Work
  pc : Pc

def Call.keys (c : Call) : List Key :=
  match c.work with
  | .create sb => [.sandbox (trimSpace sb), .request (trimSpace c.req)]
  | .rollback sb snap =>
    [.sandbox (trimSpace sb), .snapshot (trimSpace snap), .request (trimSpace c.req)]
  | .delete snap => [.snapshot (trimSpace snap), .request (trimSpace c.req)]

def Call.InSection (c : Call) : Prop :=
  match c.pc with
  | .lookup | .checkDefinition | .checkSandbox | .checkSnapshot | .number | .insert _ => True
  | _ => False

structure World where
  jobs : List Job
  defs : Tbl Bytes Definition
  nextJob : Nat
  /-- The snapshot ids generated so far. -/
  snapshots : List Bytes
  calls : List Call
  /-- The requests whose work has begun, in order. -/
  executed : List Bytes

def World.start : World := ⟨[], ∅, 0, [], [], []⟩

/-- The first lookup goes on to these checks. -/
def Work.afterLookup : Work → Pc
  | .create _ => .checkSandbox
  | .rollback _ _ => .checkDefinition
  | .delete _ => .checkDefinition

def Work.afterDefinition : Work → Pc
  | .create _ => .checkSandbox
  | .rollback _ _ => .checkSandbox
  | .delete _ => .checkSnapshot

def Work.afterSandbox : Work → Pc
  | .create _ => .insert 1
  | .rollback _ _ => .checkSnapshot
  | .delete _ => .checkSnapshot

/-- A rollback needs a snapshot of the sandbox that is ready, a delete one that is neither being
made nor being deleted. -/
def Work.allows (d : Definition) : Work → Bool
  | .create _ => true
  | .rollback sb _ => decide (d.status = .ready) && decide (d.originSandbox = sb)
  | .delete _ => decide (d.status ≠ .creating) && decide (d.status ≠ .deleting)

def Work.sandbox : Work → Option Bytes
  | .create sb => some sb
  | .rollback sb _ => some sb
  | .delete _ => none

/-- The snapshot worked on; that of a create is generated. -/
def Work.snapshot : Work → Option Bytes
  | .create _ => none
  | .rollback _ snap => some snap
  | .delete snap => some snap

/-- The job of the request, as the payload of its row has it. -/
def Job.fits (j : Job) (w : Work) : Bool :=
  decide (j.operation = w.operation) && decide (j.sandbox = w.sandbox) &&
    (w.snapshot.all fun s => decide (j.snapshot = s))

/-- `nextSnapshotAttempt`. -/
def nextAttempt (jobs : List Job) (snap : Bytes) : Nat :=
  ((jobs.filter fun j => decide (j.snapshot = snap)).map Job.attempt).foldr max 0 + 1

/-- The unique indices refuse the row. -/
def Clashes (jobs : List Job) (j : Job) : Prop :=
  ∃ k ∈ jobs, (k.req = j.req ∧ k.operation = j.operation) ∨
    (k.snapshot = j.snapshot ∧ k.attempt = j.attempt)

instance (j : Job) : Decidable j.Active := inferInstanceAs (Decidable (_ ∨ _))

instance (jobs : List Job) (j : Job) : Decidable (Clashes jobs j) :=
  inferInstanceAs (Decidable (∃ k ∈ jobs, _))

instance (c : Call) : Decidable c.InSection := by
  unfold Call.InSection
  split <;> infer_instance

/-- The new row of a call, with the generated snapshot id for a create. -/
def Call.job (c : Call) (id attempt : Nat) (snap : Bytes) : Job where
  id := id
  req := c.req
  operation := c.work.operation
  sandbox := c.work.sandbox
  snapshot := c.work.snapshot.getD snap
  attempt := attempt
  status := .pending

def setDefStatus (defs : Tbl Bytes Definition) (snap : Bytes) (st : DefStatus) :
    Tbl Bytes Definition :=
  match defs.get snap with
  | none => defs
  | some d => defs.put snap { d with status := st }

/-- What the transaction of the insert does to the definitions. -/
def Call.define (c : Call) (snap : Bytes) (defs : Tbl Bytes Definition) : Tbl Bytes Definition :=
  match c.work with
  | .create sb => defs.put snap ⟨.creating, sb⟩
  | .rollback _ _ => defs
  | .delete x => setDefStatus defs x .deleting

def setStatus (jobs : List Job) (id : Nat) (st : Status) : List Job :=
  jobs.map fun j => if j.id = id then { j with status := st } else j

/-- The update of the definition that a job is about. -/
def settleDefs (jobs : List Job) (defs : Tbl Bytes Definition) (id : Nat) (st : DefStatus) :
    Tbl Bytes Definition :=
  match jobs.find? fun j => decide (j.id = id) with
  | none => defs
  | some j => setDefStatus defs j.snapshot st

inductive Event
  | submit (proc : Nat) (req : Bytes) (work : Work)
  | enter (i : Nat)
  | lookup (i : Nat)
  | checkDefinition (i : Nat)
  | checkSandbox (i : Nat)
  | checkSnapshot (i : Nat)
  | number (i : Nat)
  /-- The insert, with the snapshot id that a create has generated. -/
  | insert (i : Nat) (snap : Bytes)
  | claim (i : Nat)
  /-- The work of a create has ended, or that of a delete has failed; the definition is updated. -/
  | settle (i : Nat) (ok : Bool)
  /-- The job is marked ready or failed. -/
  | finish (i : Nat) (ok : Bool)
  /-- A delete has cleaned up the node and removes the definition. -/
  | dropDefinition (i : Nat)
  /-- A delete removes the jobs of the snapshot. -/
  | purge (i : Nat)
  /-- The call returns with an error, or its last update fails. -/
  | giveUp (i : Nat)
  | stop (proc : Nat)
  /-- The reconciler marks a definition failed. -/
  | failDefinition (snap : Bytes)

def World.setPc (w : World) (i : Nat) (c : Call) (pc : Pc) : World :=
  { w with calls := w.calls.set i { c with pc := pc } }

/-- The call shares a lock with another. -/
def Call.Meets (c d : Call) : Prop := ∃ k ∈ c.keys, k ∈ d.keys

instance (c d : Call) : Decidable (c.Meets d) := inferInstanceAs (Decidable (∃ k ∈ _, _))

def step (w : World) : Event → Option World
  | .submit p req work => some { w with calls := w.calls ++ [⟨p, req, work, .waiting⟩] }
  | .enter i =>
    match w.calls[i]? with
    | some c =>
      if c.pc = .waiting ∧ ∀ d ∈ w.calls, d.InSection → d.proc = c.proc → ¬ c.Meets d then
        some (w.setPc i c .lookup)
      else none
    | none => none
  | .lookup i =>
    match w.calls[i]? with
    | some c =>
      if c.pc = .lookup then
        match w.jobs.reverse.find? fun j => decide (j.req = c.req) with
        | some j =>
          some (w.setPc i c (if j.fits c.work then .claim j.id else .done))
        | none => some (w.setPc i c c.work.afterLookup)
      else none
    | none => none
  | .checkDefinition i =>
    match w.calls[i]? with
    | some c =>
      if c.pc = .checkDefinition then
        match c.work.snapshot.bind w.defs.get with
        | some d => some (w.setPc i c (if c.work.allows d then c.work.afterDefinition else .done))
        | none => some (w.setPc i c .done)
      else none
    | none => none
  | .checkSandbox i =>
    match w.calls[i]? with
    | some c =>
      if c.pc = .checkSandbox then
        some (w.setPc i c
          (if ∃ j ∈ w.jobs, j.Active ∧ j.sandbox.isSome ∧ j.sandbox = c.work.sandbox then .done
            else c.work.afterSandbox))
      else none
    | none => none
  | .checkSnapshot i =>
    match w.calls[i]? with
    | some c =>
      if c.pc = .checkSnapshot then
        some (w.setPc i c
          (if ∃ j ∈ w.jobs, j.Active ∧ some j.snapshot = c.work.snapshot then .done else .number))
      else none
    | none => none
  | .number i =>
    match w.calls[i]? with
    | some c =>
      if c.pc = .number then
        some (w.setPc i c (.insert (nextAttempt w.jobs (c.work.snapshot.getD []))))
      else none
    | none => none
  | .insert i snap =>
    match w.calls[i]? with
    | some c =>
      match c.pc with
      | .insert attempt =>
        if c.work.operation = .create ∧ snap ∈ w.snapshots then none
        else if Clashes w.jobs (c.job w.nextJob attempt snap) then some (w.setPc i c .done)
        else some { w with
          jobs := w.jobs ++ [c.job w.nextJob attempt snap]
          defs := c.define snap w.defs
          nextJob := w.nextJob + 1
          snapshots := if c.work.operation = .create then snap :: w.snapshots else w.snapshots
          calls := w.calls.set i { c with pc := .claim w.nextJob } }
      | _ => none
    | none => none
  | .claim i =>
    match w.calls[i]? with
    | some c =>
      match c.pc with
      | .claim id =>
        if ∃ j ∈ w.jobs, j.id = id ∧ j.status = .pending then
          some { w with
            jobs := setStatus w.jobs id .running
            executed := c.req :: w.executed
            calls := w.calls.set i { c with pc := .work id } }
        else some (w.setPc i c .done)
      | _ => none
    | none => none
  | .settle i ok =>
    match w.calls[i]? with
    | some c =>
      match c.pc with
      | .work id =>
        if c.work.operation = .create ∨ (c.work.operation = .delete ∧ ok = false) then
          some { w with
            defs := settleDefs w.jobs w.defs id (if ok then .ready else .failed)
            calls := w.calls.set i { c with pc := .settled id ok } }
        else none
      | _ => none
    | none => none
  | .finish i ok =>
    match w.calls[i]? with
    | some c =>
      match c.pc with
      | .settled id ok' =>
        if ok = ok' then
          some { w with
            jobs := setStatus w.jobs id (if ok then .ready else .failed)
            calls := w.calls.set i { c with pc := .done } }
        else none
      | .work id =>
        if c.work.operation = .rollback then
          some { w with
            jobs := setStatus w.jobs id (if ok then .ready else .failed)
            calls := w.calls.set i { c with pc := .done } }
        else none
      | _ => none
    | none => none
  | .dropDefinition i =>
    match w.calls[i]? with
    | some c =>
      match c.pc, c.work with
      | .work id, .delete snap =>
        some { w with
          defs := w.defs.del snap
          calls := w.calls.set i { c with pc := .purge id } }
      | _, _ => none
    | none => none
  | .purge i =>
    match w.calls[i]? with
    | some c =>
      match c.pc, c.work with
      | .purge _, .delete snap =>
        some { w with
          jobs := w.jobs.filter fun j => decide (j.snapshot ≠ snap)
          calls := w.calls.set i { c with pc := .done } }
      | _, _ => none
    | none => none
  | .giveUp i =>
    match w.calls[i]? with
    | some c => some (w.setPc i c .done)
    | none => none
  | .stop p =>
    some { w with calls := w.calls.map fun c => if c.proc = p then { c with pc := .done } else c }
  | .failDefinition snap =>
    match w.defs.get snap with
    | some d =>
      if d.status = .creating ∧ ∃ j ∈ w.jobs, j.Active ∧ j.snapshot = snap then none
      else some { w with defs := setDefStatus w.defs snap .failed }
    | none => none

/-- The call is at work on a job. -/
def Pc.onJob : Pc → Option Nat
  | .work id => some id
  | .settled id _ => some id
  | .purge id => some id
  | _ => none

/-- **Operations exclude each other**: a sandbox and a snapshot have at most one active job and one
call at work, and the work of a request is begun at most once. -/
structure Exclusive (w : World) : Prop where
  sandbox : ∀ j ∈ w.jobs, ∀ k ∈ w.jobs, j.Active → k.Active → j.sandbox.isSome →
    j.sandbox = k.sandbox → j = k
  snapshot : ∀ j ∈ w.jobs, ∀ k ∈ w.jobs, j.Active → k.Active → j.snapshot = k.snapshot → j = k
  work : ∀ (i j : Nat) (c d : Call), w.calls[i]? = some c → w.calls[j]? = some d →
    c.pc.onJob.isSome → d.pc.onJob.isSome →
    (c.work.sandbox.isSome ∧ c.work.sandbox = d.work.sandbox) ∨
      (c.work.snapshot.isSome ∧ c.work.snapshot = d.work.snapshot) → i = j
  once : w.executed.Nodup

/-- The sections of two processes that share a lock do not overlap, and a request whose work has
begun is not inserted again. -/
def Orderly (w : World) : Event → Prop
  | .enter i => ∀ c ∈ w.calls[i]?, ∀ d ∈ w.calls, d.InSection → ¬ c.Meets d
  | .insert i _ => ∀ c ∈ w.calls[i]?, c.req ∉ w.executed
  | _ => True

instance (w : World) : DecidablePred (Orderly w) := by
  intro e
  cases e <;> unfold Orderly <;> infer_instance

end CubeSandbox.SnapOps
