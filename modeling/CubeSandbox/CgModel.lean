import CubeSandbox.Conc
import CubeSandbox.GoText
import CubeSandbox.Tbl

/-!
The cgroups of the sandboxes on a node (`plugins/cube/internals/cgroup`, `pkg/allocator`).

A pool hands out the numbers of cgroups. Pool v1 has the numbers below `2 ^ 16`; the NUMA nodes
have pools of their own, and the number of a cgroup tells its pool. A sandbox's cgroup is a row
of a database. A cgroup that could not be cleaned waits in the dirty set. The pools and the
dirty set are lost when Cubelet restarts, and the pools are filled again from the rows.
-/

namespace CubeSandbox.Cgroup

open GoText Conc

abbrev Sid := Bytes

/-- An allocator over the numbers from zero to `upper`, with the position of its last search. -/
structure Alloc where
  upper : Nat
  cur : Option Nat
  store : List Nat

namespace Alloc

/-- `NewSimpleLinearRanger(0, uint16(size))`. -/
def new (size : Nat) : Alloc := ⟨size % 2 ^ 16, none, []⟩

def contains (a : Alloc) (id : Nat) : Bool := id ≤ a.upper

/-- The size of the range, as a number of 16 bits. -/
def cap (a : Alloc) : Nat := (a.upper + 1) % 2 ^ 16

def expand (a : Alloc) : Option Alloc :=
  if a.upper = 2 ^ 16 - 1 then none else some { a with upper := a.upper + 1 }

def expandTo (a : Alloc) (upper : Nat) : Alloc :=
  if a.upper < upper then { a with upper := upper } else a

def assign (a : Alloc) (id : Nat) : Option Alloc :=
  if a.contains id = false then none
  else if id ∈ a.store then none
  else some { a with store := id :: a.store }

def release (a : Alloc) (id : Nat) : Alloc := { a with store := a.store.filter (· ≠ id) }

/-- `moveCurForward`. -/
def forward (a : Alloc) (c : Nat) : Nat := if c = a.upper then 0 else c + 1

/-- The search of `allocate` from a position, until it is back where it started. -/
def search (a : Alloc) (start : Option Nat) : Nat → Nat → Option Nat × Alloc
  | 0, c => (none, { a with cur := some c })
  | fuel + 1, c =>
    match a.assign c with
    | some a' => (some c, { a' with cur := some c })
    | none =>
      if start = some c ∨ (start = none ∧ c = a.upper) then (none, { a with cur := some c })
      else search a start fuel (a.forward c)

def allocateIn (a : Alloc) : Option Nat × Alloc :=
  if a.cap ≤ a.store.length then (none, a)
  else
    let c := match a.cur with
      | none => 0
      | some c => a.forward c
    a.search a.cur (a.upper + 2) c

/-- `Allocate`, which makes an exhausted range one larger. -/
def allocate (a : Alloc) : Option Nat × Alloc :=
  match a.allocateIn with
  | (some id, a') => (some id, a')
  | (none, a') =>
    match a'.expand with
    | none => (none, a')
    | some a'' => a''.allocateIn

end Alloc

abbrev CgId := Nat

def cgPoolIdLimit : Nat := 2 ^ 16

/-- The pool of a number: v1, or that of a NUMA node. -/
def poolOf (fullCgID : CgId) : Nat := fullCgID / cgPoolIdLimit

def shortOf (fullCgID : CgId) : Nat := fullCgID % cgPoolIdLimit

def poolIndex (usePoolV2 : Bool) (numa : Nat) : Nat := if usePoolV2 then numa + 1 else 0

def makeFullCgID (id : Nat) (usePoolV2 : Bool) (numa : Nat) : CgId :=
  poolIndex usePoolV2 numa * cgPoolIdLimit + id

/-- The pools (v1 first), the dirty set, the rows and the cgroups that exist. As history: the
sandboxes that live and their cgroups, the cgroups used since they were clean, the sandboxes put
back whose row is still there, those with an operation in flight, whether a tidy pass runs, the
cgroups cleaned or deleted while in use, and those handed out unclean. -/
structure World where
  pools : List Alloc
  dirtySet : List CgId
  rows : Tbl Sid CgId
  groups : List CgId
  live : List (Sid × CgId)
  soiled : List CgId
  released : List Sid
  busy : List Sid
  tidying : Bool
  harmed : List CgId
  stale : List CgId

def World.inUse (w : World) (id : CgId) : Bool := w.live.any fun e => e.2 == id

def World.allocated (w : World) (id : CgId) : Prop :=
  ∃ a, w.pools[poolOf id]? = some a ∧ shortOf id ∈ a.store

/-- The answer of `cgRanger.Contains` in the pool of the number. -/
def World.inRange (w : World) (id : CgId) : Bool :=
  (w.pools[poolOf id]?).any fun a => a.contains (shortOf id)

def World.allocatorRelease (w : World) (id : CgId) : World :=
  { w with pools := w.pools.modify (poolOf id) fun a => a.release (shortOf id) }

/-- The cgroup is touched by a clean or a delete. -/
def World.touch (w : World) (id : CgId) : World :=
  { w with harmed := if w.inUse id then id :: w.harmed else w.harmed }

/-- The end of `Put`, under the lock. A destruction has still to delete the row. -/
def World.settle (w : World) (who : Option Sid) (id : CgId) (clean : Bool) : World :=
  let w := { w with released := who.toList ++ w.released }
  if clean then
    { w.allocatorRelease id with dirtySet := w.dirtySet.filter (· ≠ id) }
  else { w with dirtySet := w.dirtySet.insert id }

inductive Act
  | dbGet (sid : Sid)
  | dbSet (sid : Sid) (id : CgId)
  | dbDelete (sid : Sid)
  | allocate (usePoolV2 : Bool) (numa : Nat)
  | release (id : CgId)
  | isExist (id : CgId)
  | mkdir (id : CgId)
  /-- `CleanForReuse`. -/
  | cleanForReuse (id : CgId)
  | settle (who : Option Sid) (id : CgId) (clean : Bool)
  | copyDirty
  | list (pool : Nat)
  | inRange (id : CgId)
  | rmdir (id : CgId)
  /-- `Create` succeeds: the sandbox has the cgroup. -/
  | handOut (sid : Sid) (id : CgId)
  /-- An operation on a sandbox ends. -/
  | leave (sid : Sid)
  /-- A tidy pass ends. -/
  | tidied

@[reducible] def Act.Ans : Act → Type
  | .dbGet _ => Except Unit (Option CgId)
  | .dbSet .. | .dbDelete _ | .isExist _ | .mkdir _ | .cleanForReuse _ | .inRange _
  | .rmdir _ => Bool
  | .allocate .. => Option CgId
  | .release _ | .settle .. | .handOut .. | .leave _ | .tidied => Unit
  | .copyDirty => List CgId
  | .list _ => Except Unit (List CgId)

inductive Outcome
  | ok
  | fail
  deriving DecidableEq

def allocateAct (w : World) (usePoolV2 : Bool) (numa : Nat) : World × Option CgId :=
  match w.pools[poolIndex usePoolV2 numa]? with
  | none => (w, none)
  | some a =>
    ({ w with pools := w.pools.set (poolIndex usePoolV2 numa) a.allocate.2 },
      a.allocate.1.map fun id => makeFullCgID id usePoolV2 numa)

def perform : (a : Act) → World → Outcome → Option (World × a.Ans)
  | .dbGet sid, w, .ok => some (w, .ok (w.rows.get sid))
  | .dbGet _, w, .fail => some (w, .error ())
  | .dbSet sid id, w, .ok => some ({ w with rows := w.rows.put sid id }, true)
  | .dbSet _ _, w, .fail => some (w, false)
  | .dbDelete sid, w, .ok =>
    some ({ w with rows := w.rows.del sid, released := w.released.filter (· ≠ sid) }, true)
  | .dbDelete _, w, .fail => some (w, false)
  | .allocate usePoolV2 numa, w, _ => some (allocateAct w usePoolV2 numa)
  | .release id, w, _ => some (w.allocatorRelease id, ())
  | .isExist id, w, _ => some (w, w.groups.contains id)
  | .mkdir id, w, .ok => some ({ w with groups := w.groups.insert id }, true)
  | .mkdir _, w, .fail => some (w, false)
  -- a failed clean may have killed processes already
  | .cleanForReuse id, w, .ok =>
    some ({ w.touch id with
      groups := w.groups.insert id
      soiled := w.soiled.filter (· ≠ id) }, true)
  | .cleanForReuse id, w, .fail => some (w.touch id, false)
  | .settle who id clean, w, _ => some (w.settle who id clean, ())
  | .copyDirty, w, _ => some (w, w.dirtySet)
  | .list pool, w, .ok => some (w, .ok (w.groups.filter fun id => poolOf id = pool))
  | .list _, w, .fail => some (w, .error ())
  | .inRange id, w, _ => some (w, w.inRange id)
  | .rmdir id, w, .ok =>
    some ({ w.touch id with
      groups := w.groups.filter (· ≠ id)
      soiled := w.soiled.filter (· ≠ id) }, true)
  | .rmdir id, w, .fail => some (w.touch id, false)
  | .handOut sid id, w, _ =>
    some ({ w with
      live := (sid, id) :: w.live
      soiled := id :: w.soiled
      stale := if id ∈ w.soiled then id :: w.stale else w.stale }, ())
  | .leave sid, w, _ => some ({ w with busy := w.busy.erase sid }, ())
  | .tidied, w, _ => some ({ w with tidying := false }, ())

abbrev Task := Prog Act.Ans

def act (a : Act) : Task a.Ans := .perform a

def createCgroup (id : CgId) : Task Bool := do
  let there : Bool ← act (.isExist id)
  if there then return true else act (.mkdir id)

/-- `cgPool.Get`. -/
def get (usePoolV2 : Bool) (numa : Nat) : Task (Option CgId) := do
  match ← act (.allocate usePoolV2 numa) with
  | none => return none
  | some id =>
    let made : Bool ← createCgroup id
    if made then return some id
    else
      act (.release id)
      return none

/-- `cgPool.Put`. -/
def put (who : Option Sid) (id : CgId) : Task Unit := do
  let clean : Bool ← act (.cleanForReuse id)
  act (.settle who id clean)

/-- The check of `Create` for a sandbox that makes a snapshot: there is a row already. -/
def alreadyExists (sid : Sid) (isCreateSnapshot : Bool) : Task Bool :=
  if isCreateSnapshot then do
    match ← act (.dbGet sid) with
    | .ok (some _) => return true
    | _ => return false
  else pure false

def createNew (sid : Sid) (usePoolV2 : Bool) (numa : Nat) : Task Unit := do
  match ← get usePoolV2 numa with
  | none => return
  | some id =>
    let saved : Bool ← act (.dbSet sid id)
    if saved then act (.handOut sid id) else put none id

/-- `Create`. The source passes `false` for `usePoolV2`. -/
def create (sid : Sid) (isCreateSnapshot usePoolV2 : Bool) (numa : Nat) : Task Unit := do
  let refused : Bool ← alreadyExists sid isCreateSnapshot
  if refused then act (.leave sid)
  else
    createNew sid usePoolV2 numa
    act (.leave sid)

def destroyRow (sid : Sid) : Task Unit := do
  match ← act (.dbGet sid) with
  | .ok (some id) =>
    put (some sid) id
    let _ ← act (.dbDelete sid)
    return
  | _ => return

/-- `Destroy`, and `CleanUp` of a sandbox. -/
def destroy (sid : Sid) : Task Unit := do
  destroyRow sid
  act (.leave sid)

/-- The first loop over a pool: dirty cgroups are put back, those out of range will be deleted. -/
def sift (dirtyWork : List CgId) : List CgId → List CgId → Task (List CgId)
  | [], toDelete => return toDelete
  | id :: ids, toDelete =>
    if id ∈ dirtyWork then do
      put none id
      sift dirtyWork ids toDelete
    else do
      let known : Bool ← act (.inRange id)
      sift dirtyWork ids (if known then toDelete else toDelete ++ [id])

def deleteAll : List CgId → Task Unit
  | [] => return
  | id :: ids => do
    let _ ← act (.rmdir id)
    deleteAll ids

/-- One pool; whether its cgroups could be listed. -/
def tidyPool (dirtyWork : List CgId) (pool : Nat) : Task Bool := do
  match ← act (.list pool) with
  | .error _ => return false
  | .ok ids =>
    let toDelete ← sift dirtyWork ids []
    deleteAll toDelete
    return true

/-- `tidyPoolV2`: the pools of the nodes, up to one that cannot be listed. -/
def tidyPoolV2 (dirtyWork : List CgId) : List Nat → Task Unit
  | [] => return
  | pool :: pools => do
    let listed : Bool ← tidyPool dirtyWork pool
    if listed then tidyPoolV2 dirtyWork pools else return

/-- `Tidy`, the `CleanUp` without a sandbox. -/
def tidy (pools : Nat) : Task Unit := do
  let dirtyWork ← act .copyDirty
  let _ ← tidyPool dirtyWork 0
  tidyPoolV2 dirtyWork ((List.range pools).drop 1)
  act .tidied

/-- `initialAssign` of both pools: a number that has no place is left out. -/
def initialAssign (pools : List Alloc) (id : CgId) : List Alloc :=
  if poolOf id = 0 ∧ shortOf id > 2 ^ 15 - 1 then pools
  else
    pools.modify (poolOf id) fun a =>
      let a := a.expandTo (shortOf id)
      (a.assign (shortOf id)).getD a

/-- A new Cubelet over the same rows and cgroups: `init` of the pools. -/
def World.restart (w : World) (initialSize : Nat) (created : List CgId) : World :=
  let fresh := w.pools.map fun _ => Alloc.new initialSize
  let pools := w.rows.toPairs.foldl (fun ps e => initialAssign ps e.2) fresh
  { w with
    pools := pools
    dirtySet := []
    groups := created.foldl (fun gs id => gs.insert id) w.groups
    released := []
    busy := []
    tidying := false }

inductive Op
  | create (sid : Sid) (isCreateSnapshot usePoolV2 : Bool) (numa : Nat)
  | destroy (sid : Sid)
  | tidy

/-- A sandbox lives until its destruction begins. -/
def startOp (w : World) : Op → Option (World × Task Unit)
  | .create sid isCreateSnapshot usePoolV2 numa =>
    some ({ w with busy := sid :: w.busy }, create sid isCreateSnapshot usePoolV2 numa)
  | .destroy sid =>
    some ({ w with busy := sid :: w.busy, live := w.live.filter fun e => e.1 ≠ sid }, destroy sid)
  | .tidy => some ({ w with tidying := true }, tidy w.pools.length)

def machine : Machine Act.Ans World Outcome Op where
  act := perform
  start := startOp
  alone := fun _ => false

abbrev Conf := Config Act.Ans World

/-- What happens on the node: an operation starts or takes a step, or Cubelet restarts. -/
inductive Event
  | ev (e : Ev Outcome Op)
  | restart (initialSize : Nat) (created : List CgId)

def step (c : Conf) : Event → Option Conf
  | .ev e => machine.step c e
  | .restart initialSize created => some ⟨c.world.restart initialSize created, []⟩

/-- A node that has never run a sandbox, with this many NUMA nodes. -/
def World.init (nodes initialSize : Nat) : World :=
  ⟨List.replicate (nodes + 1) (Alloc.new initialSize), [], ∅, [], [], [], [], [], false, [], []⟩

def begin (nodes initialSize : Nat) : Conf := ⟨World.init nodes initialSize, []⟩

/-- A cgroup belongs to one sandbox, is left alone while in use and is clean when handed out. -/
structure Exclusive (w : World) : Prop where
  own : ∀ s s' id, (s, id) ∈ w.live → (s', id) ∈ w.live → s = s'
  harmed : w.harmed = []
  stale : w.stale = []

/-- A destruction's row is deleted, and while a tidy pass runs no range has to grow. -/
def Steady (w : World) : Act → Outcome → Prop
  | .dbDelete _, o => o = .ok
  | .allocate usePoolV2 numa, _ =>
    w.tidying = true → ∀ a ∈ w.pools[poolIndex usePoolV2 numa]?, a.allocateIn.1 ≠ none
  | _, _ => True

/-- Operations on one sandbox do not overlap, it is created once, and one tidy pass runs. -/
def Apart (w : World) : Op → Prop
  | .create sid _ _ _ => sid ∉ w.busy ∧ w.rows.get sid = none
  | .destroy sid => sid ∉ w.busy
  | .tidy => w.tidying = false

/-- Cubelet restarts while no cgroup is dirty, no destruction has still to delete its row, and the
rows of pool v1 have the numbers it reads back. -/
def Settled (w : World) : Prop :=
  w.dirtySet = [] ∧ w.released = [] ∧
    ∀ e ∈ w.rows.toPairs, poolOf e.2 = 0 → shortOf e.2 ≤ 2 ^ 15 - 1

def Orderly (c : Conf) : Event → Prop
  | .ev e => Machine.onEv Steady Apart c e
  | .restart _ _ => Settled c.world

instance (w : World) (a : Act) (o : Outcome) : Decidable (Steady w a o) := by
  unfold Steady
  split <;> infer_instance

instance (w : World) (op : Op) : Decidable (Apart w op) := by
  unfold Apart
  split <;> infer_instance

instance (c : Conf) : ∀ e, Decidable (Orderly c e)
  | .ev e => inferInstanceAs (Decidable (Machine.onEv Steady Apart c e))
  | .restart _ _ => by unfold Orderly Settled; infer_instance

end CubeSandbox.Cgroup
