import CubeSandbox.Conc
import CubeSandbox.GoText
import CubeSandbox.Tbl

/-!
The records of its sandboxes that Cubelet keeps (`pkg/store/cubebox`, `internals/cubes`): an
index in memory and the rows of a database, with the handlers of `services/cubebox` that write
them.

Each access to the index, each transaction of the database and each lock is an action. A record
has the containers of the sandbox. Its status, its labels and the runtime are left out: what a
handler asks them is answered by the environment.
-/

namespace CubeSandbox.Record

open GoText Conc

abbrev Id := Bytes

/-- A sandbox with its containers besides the first, which has the id of the sandbox. -/
abbrev Box := Id × List Id

/-- `crc32.ChecksumIEEE`, a byte. -/
def crcByte (crc : Nat) (b : UInt8) : Nat :=
  (List.range 8).foldl (fun c _ => if c % 2 = 1 then c / 2 ^^^ 0xEDB88320 else c / 2)
    (crc ^^^ b.toNat)

/-- The database file of a key. -/
def shard (key : Id) : Nat := (key.foldl crcByte 0xFFFFFFFF ^^^ 0xFFFFFFFF) % 10

def isFullID (s : Bytes) : Bool := s.length = 32 && s.all fun b => (hexDigit b).isSome

inductive Missing
  | notFound
  | ambiguous

/-- `sandboxid.Resolve`: an id, or a prefix of only one. -/
def resolve (key : Id) (ids : List Id) : Except Missing Id :=
  let k := toLower (trimSpace key)
  if k = [] then .error .notFound
  else
    match ids.find? fun c => c ≠ [] && toLower c = k with
    | some c => .ok c
    | none =>
      match ids.filter fun c => c ≠ [] && k.isPrefixOf (toLower c) with
      | [] => .error .notFound
      | [c] => .ok c
      | _ => .error .ambiguous

/-- What a writer relies on between its look and its write: nothing, the lock of a sandbox that it
has seen without a mark, or a lifecycle lock. -/
inductive Guard
  | free
  | event (b : Id)
  | life (key : Id)
  deriving DecidableEq

/-- The index, the rows and the database files with the bucket; the two kinds of locks, and the
sandboxes marked as deleted. As history: the ids given out, the creations in flight, the writers
between their look and their write, and the sandboxes that a destroy has deleted. -/
structure World where
  index : Tbl Id (List Id)
  rows : Tbl Id (List Id)
  buckets : List Nat
  boxes : List Id
  lives : List Id
  marked : List Id
  used : List Id
  creating : List Id
  windows : List (Id × Guard)
  destroyed : List Id

namespace World

def init : World := ⟨∅, ∅, [], [], [], [], [], [], [], []⟩

variable (w : World)

/-- `Store.Get`. -/
def get (key : Id) : Except Missing Box :=
  let k := trimSpace key
  match if isFullID k then .ok (toLower k) else resolve k (w.index.toPairs.map Prod.fst) with
  | .error e => .error e
  | .ok id =>
    match w.index.get id with
    | none => .error .notFound
    | some cs => .ok (id, cs)

/-- `ByIndex` on the ids of the containers. -/
def byContainer (cid : Id) : Option Box :=
  w.index.toPairs.find? fun e => e.1 = cid || e.2.contains cid

/-- The record that `Sync` takes. -/
def record (key : Id) : Option Box :=
  match w.index.get key with
  | some cs => some (key, cs)
  | none => w.byContainer key

/-- The index or the database has the sandbox. -/
def has (id : Id) : Bool := (w.index.get id).isSome || (w.rows.get id).isSome

def opens (g : Guard) : Option Box → World
  | some b => { w with windows := (b.1, g) :: w.windows }
  | none => w

end World

/-- What the environment is asked. -/
inductive Query
  | containerGone
  | preDelete
  | postDelete
  | containerDeleted
  | destroyContainer
  | runtimeClosed
  | deletable
  | cbriDestroy
  | paused
  | pausing
  | deleteTask
  | runcClean
  | cubeRuntime
  | deadline
  | resume
  | exitHandled
  | running
  | pause
  | commit
  | rollback
  | runContainers
  | cleaned

inductive Act
  | get (key : Id)
  | getContainer (cid : Id)
  | lockBox (b : Id)
  | unlockBox (b : Id)
  | lockLife (key : Id)
  /-- `LockContext`, which gives up at a deadline. -/
  | tryLockLife (key : Id)
  | unlockLife (key : Id)
  | isMarked (b : Id)
  | mark (b : Id)
  /-- The look of `Sync` at the index. -/
  | syncRead (g : Guard) (key : Id)
  /-- The copy of the record and `SetWithTx`. -/
  | syncWrite (g : Guard) (b : Box)
  /-- The look of `DeleteContainer` at the index. -/
  | byContainer (g : Guard) (cid : Id)
  /-- `indexer.Update` of `DeleteContainer`. -/
  | update (g : Guard) (b : Box)
  | add (b : Box)
  /-- A creation will not save its sandbox again. -/
  | endCreate (id : Id)
  /-- `DeleteSync` for the sandbox found, whether the lock of the marked sandbox was held, and
  whether the lifecycle lock is. -/
  | deleteTx (key target : Id) (boxed life : Bool)
  | ask (q : Query)

@[reducible] def Act.Ans : Act → Type
  | .get _ => Except Missing Box
  | .getContainer _ => Option Id
  | .tryLockLife _ | .isMarked _ | .syncWrite .. | .deleteTx .. | .ask _ => Bool
  | .syncRead .. | .byContainer .. => Option Box
  | .lockBox _ | .unlockBox _ | .lockLife _ | .unlockLife _ | .mark _ | .update .. | .add _
  | .endCreate _ => Unit

/-- A call works, it fails, or the commit of a transaction fails. -/
inductive Outcome
  | ok
  | fail
  | torn
  deriving DecidableEq

namespace World

variable (w : World)

def lockLife (key : Id) : Option World :=
  if key ∈ w.lives then none else some { w with lives := key :: w.lives }

def write (g : Guard) (b : Box) : Outcome → World × Bool
  | .ok => ({ w with
      rows := w.rows.put b.1 b.2
      buckets := shard b.1 :: w.buckets
      windows := w.windows.erase (b.1, g) }, true)
  | _ => ({ w with windows := w.windows.erase (b.1, g) }, false)

def destroys (target : Id) : World :=
  if w.has target then { w with destroyed := target :: w.destroyed } else w

/-- `DeleteSync`. The index is changed in the callback, which is not called where there is no
bucket; that error is taken for a success. -/
def deleteTx (key target : Id) : Outcome → Option (World × Bool)
  | .ok =>
    if shard key ∈ w.buckets then
      some ({ w.destroys target with index := w.index.del key, rows := w.rows.del key }, true)
    else some (w.destroys target, true)
  | .fail => some (w, false)
  | .torn =>
    if shard key ∈ w.buckets then some ({ w with index := w.index.del key }, false) else none

end World

def perform : (a : Act) → World → Outcome → Option (World × a.Ans)
  | .get key, w, _ => some (w, w.get key)
  | .getContainer cid, w, _ => some (w, (w.byContainer cid).map Prod.fst)
  | .lockBox b, w, _ =>
    if b ∈ w.boxes then none else some ({ w with boxes := b :: w.boxes }, ())
  | .unlockBox b, w, _ => some ({ w with boxes := w.boxes.erase b }, ())
  | .lockLife key, w, _ => (w.lockLife key).map fun w' => (w', ())
  | .tryLockLife key, w, o =>
    if o = .ok then (w.lockLife key).map fun w' => (w', true) else some (w, false)
  | .unlockLife key, w, _ => some ({ w with lives := w.lives.erase key }, ())
  | .isMarked b, w, _ => some (w, decide (b ∈ w.marked))
  | .mark b, w, _ => some ({ w with marked := b :: w.marked }, ())
  | .syncRead g key, w, _ => some (w.opens g (w.record key), w.record key)
  | .syncWrite g b, w, o => some (w.write g b o)
  | .byContainer g cid, w, _ => some (w.opens g (w.byContainer cid), w.byContainer cid)
  | .update g b, w, _ => some ({ w with
      index := w.index.put b.1 b.2
      windows := w.windows.erase (b.1, g) }, ())
  | .add b, w, _ => some ({ w with index := w.index.put b.1 b.2 }, ())
  | .endCreate id, w, _ => some ({ w with creating := w.creating.erase id }, ())
  | .deleteTx key target _ _, w, o => w.deleteTx key target o
  | .ask _, w, o => some (w, o = .ok)

/-! ### The store and its manager -/

abbrev Task := Prog Act.Ans

def act (a : Act) : Task a.Ans := .perform a

def sync (g : Guard) (key : Id) : Task Bool := do
  match ← act (.syncRead g key) with
  | none => return true
  | some b => act (.syncWrite g b)

def syncByID (g : Guard) (key : Id) : Task Bool := do
  match ← act (.get key) with
  | .error _ => return false
  | .ok _ => sync g key

def save (b : Box) : Task Bool := do
  act (.add b)
  sync .free b.1

def deleteContainer (g : Guard) (cid : Id) : Task Unit := do
  match ← act (.byContainer g cid) with
  | none => return
  | some b => act (.update g b)

/-- `Delete` for a container. -/
def removeContainer (g : Guard) (id cid : Id) : Task Bool := do
  if !(← act (.ask .containerGone)) then return false
  deleteContainer g cid
  if !(← sync g id) then return false
  act (.ask .postDelete)

/-- `Delete` for a sandbox. -/
def removeSandbox (key target : Id) (boxed life : Bool) : Task Bool := do
  if !(← act (.ask .preDelete)) then return false
  if !(← act (.deleteTx key target boxed life)) then return false
  act (.ask .postDelete)

/-! ### Destroy -/

/-- The rollback of a creation; whether the lifecycle lock is held; the sandbox that is marked. -/
structure Caller where
  rollback : Bool
  life : Bool
  marked : Option Id

/-- What the writes of a destruction rely on. -/
def Caller.guard (c : Caller) (key : Id) : Guard := if c.life then .life key else .free

/-- The loop of `Destroy` over the containers. -/
def destroyContainers (g : Guard) (id : Id) : List Id → Task Bool
  | [] => return true
  | cid :: cids => do
    if ← act (.ask .containerDeleted) then destroyContainers g id cids
    else if ← act (.ask .destroyContainer) then
      let _ ← removeContainer g id cid
      destroyContainers g id cids
    else
      let closed : Bool ← act (.ask .runtimeClosed)
      let rest ← destroyContainers g id cids
      return closed && rest

/-- A paused sandbox is deleted as a whole. -/
def destroyTasks (g : Guard) (b : Box) : Task Bool := do
  if ← act (.ask .paused) then act (.ask .deleteTask)
  else destroyContainers g b.1 (b.2 ++ [b.1])

/-- The part of `Destroy` between the mark and the end of the lock. -/
def tearDown (g : Guard) (b : Box) : Task Bool := do
  if !(← act (.ask .deletable)) then return false
  if !(← act (.ask .cbriDestroy)) then return false
  let gone ← destroyTasks g b
  let clean : Bool ← act (.ask .runcClean)
  return gone && clean

/-- The mark of a deletion, unless it is there. -/
def markDeleted (g : Guard) (key b : Id) : Task Unit := do
  if !(← act (.isMarked b)) then
    act (.mark b)
    let _ ← syncByID g key
    return

/-- The rollback of a creation marks the sandbox itself. -/
def markRollback (c : Caller) (key b : Id) : Task Unit :=
  if c.rollback then markDeleted (c.guard key) key b else pure ()

/-- `local.Destroy`. The sandbox is deleted after its lock is released. -/
def localDestroy (c : Caller) (key : Id) : Task Unit := do
  match ← act (.get key) with
  | .error .ambiguous => return
  | .error .notFound =>
    let _ ← removeSandbox key key false c.life
    return
  | .ok b =>
    act (.lockBox b.1)
    markRollback c key b.1
    let gone ← tearDown (c.guard key) b
    act (.unlockBox b.1)
    if gone then
      let _ ← removeSandbox key b.1 (c.rollback || c.marked = some b.1) c.life
      return

/-- The loop of the other runtime over the containers. -/
def ociContainers (g : Guard) (id : Id) : List Id → Task Bool
  | [] => return true
  | cid :: cids => do
    if ← act (.ask .destroyContainer) then
      let _ ← removeContainer g id cid
      ociContainers g id cids
    else
      let _ ← ociContainers g id cids
      return false

/-- `ociRuntime.Destroy`, which takes no lock. -/
def ociDestroy (c : Caller) (key : Id) : Task Unit := do
  match ← act (.get key) with
  | .error .ambiguous => return
  | .error .notFound =>
    let _ ← removeSandbox key key false c.life
    return
  | .ok b =>
    let gone ← ociContainers (c.guard key) b.1 (b.2 ++ [b.1])
    let clean : Bool ← act (.ask .runcClean)
    if gone && clean then
      let _ ← removeSandbox key b.1 false c.life
      return

/-- `resumePausedSandboxForDestroy`. -/
def resumeForDestroy (key id : Id) : Task Bool := do
  if ← act (.ask .pausing) then return false
  if ← act (.ask .paused) then
    if !(← act (.ask .resume)) then return false
    syncByID (.life key) id
  else return true

/-- The part of `service.Destroy` under the lifecycle lock. -/
def destroyLocked (key : Id) : Task Unit := do
  match ← act (.get key) with
  | .error _ => localDestroy ⟨false, true, none⟩ key
  | .ok b =>
    if ← act (.ask .cubeRuntime) then
      if ← resumeForDestroy key b.1 then
        markDeleted (.life key) key b.1
        localDestroy ⟨false, true, some b.1⟩ key
    else
      markDeleted (.life key) key b.1
      ociDestroy ⟨false, true, none⟩ key

/-- `service.Destroy`. -/
def destroy (key : Id) : Task Unit := do
  match ← act (.get key) with
  | .error _ => localDestroy ⟨false, false, none⟩ key
  | .ok b =>
    if ← act (.ask .cubeRuntime) then
      if !(← act (.ask .deadline)) then return
      if !(← act (.tryLockLife key)) then return
      destroyLocked key
      act (.unlockLife key)
    else
      markDeleted .free key b.1
      ociDestroy ⟨false, false, none⟩ key

/-- The debug branch of `service.Destroy` with `local.CleanUp`. -/
def cleanUp (key : Id) : Task Unit := do
  match ← act (.get key) with
  | .error _ => return
  | .ok b =>
    markDeleted .free key b.1
    if !(← act (.ask .cleaned)) then return
    let _ ← removeSandbox key b.1 false false
    return

/-! ### Other writers -/

/-- `FindContainerOfCubebox`. -/
def findContainer (cid : Id) : Task (Except Missing Box) := do
  match ← act (.getContainer cid) with
  | some id => act (.get id)
  | none => act (.get cid)

/-- What a handler does under the lock of the sandbox: it leaves a marked one alone. -/
def syncUnmarked (q : Query) (b key : Id) : Task Unit := do
  if ← act (.isMarked b) then return
  if ← act (.ask q) then
    let _ ← syncByID (.event b) key
    return

/-- `handleEvent` for `TaskExit`. -/
def taskExit (cid : Id) : Task Unit := do
  match ← findContainer cid with
  | .error _ => return
  | .ok b =>
    act (.lockBox b.1)
    syncUnmarked .exitHandled b.1 cid
    act (.unlockBox b.1)

/-- `handleEvent` for `TaskOOM`, which takes no lock. -/
def taskOOM (cid : Id) : Task Unit := do
  match ← act (.getContainer cid) with
  | none => return
  | some id =>
    match ← act (.get id) with
    | .error _ => return
    | .ok _ =>
      let _ ← syncByID .free cid
      return

/-- `handleEvent` for `TaskPaused` and `TaskResumed`. -/
def taskPaused (cid : Id) : Task Unit := do
  match ← findContainer cid with
  | .error _ => return
  | .ok b =>
    act (.lockBox b.1)
    syncUnmarked .running b.1 b.1
    act (.unlockBox b.1)

/-- A request that ends with a sync, if it comes so far. -/
def syncAfter (q : Query) (key : Id) : Task Unit := do
  match ← act (.get key) with
  | .error _ => return
  | .ok b =>
    if ← act (.ask q) then
      let _ ← syncByID (.life key) b.1
      return

/-- The requests under the lifecycle lock. -/
def lifecycleUpdate (q : Query) (key : Id) : Task Unit := do
  act (.lockLife key)
  syncAfter q key
  act (.unlockLife key)

def updateWithPause : Id → Task Unit := lifecycleUpdate .pause

def updateWithResume : Id → Task Unit := lifecycleUpdate .resume

def commitSandbox : Id → Task Unit := lifecycleUpdate .commit

def rollbackSandbox : Id → Task Unit := lifecycleUpdate .rollback

def gcCreate (key : Id) : Task Unit := do
  match ← act (.get key) with
  | .error _ => return
  | .ok b => markDeleted .free key b.1

/-- The saves of a creation, with the rollback of the workflow engine. A failure between the first
save and the lock is left out. -/
def create (b : Box) : Task Unit := do
  if !(← save b) then
    act (.endCreate b.1)
    localDestroy ⟨true, false, none⟩ b.1
  else
    act (.lockBox b.1)
    let ran : Bool ← act (.ask .runContainers)
    let _ ← save b
    act (.unlockBox b.1)
    act (.endCreate b.1)
    if !ran then localDestroy ⟨true, false, none⟩ b.1

inductive Op
  | create (b : Box)
  | destroy (key : Id)
  | cleanUp (key : Id)
  | exit (cid : Id)
  | oom (cid : Id)
  | paused (cid : Id)
  | pause (key : Id)
  | resume (key : Id)
  | commit (key : Id)
  | rollback (key : Id)
  | gc (key : Id)

def startOp (w : World) : Op → Option (World × Task Unit)
  | .create b =>
    -- an id is given to one sandbox only
    if b.1 ∈ w.used then none
    else some ({ w with used := b.1 :: w.used, creating := b.1 :: w.creating }, create b)
  | .destroy key => some (w, destroy key)
  | .cleanUp key => some (w, cleanUp key)
  | .exit cid => some (w, taskExit cid)
  | .oom cid => some (w, taskOOM cid)
  | .paused cid => some (w, taskPaused cid)
  | .pause key => some (w, updateWithPause key)
  | .resume key => some (w, updateWithResume key)
  | .commit key => some (w, commitSandbox key)
  | .rollback key => some (w, rollbackSandbox key)
  | .gc key => some (w, gcCreate key)

def machine : Machine Act.Ans World Outcome Op where
  act := perform
  start := startOp
  alone := fun _ => false

abbrev Conf := Config Act.Ans World

def begin : Conf := ⟨World.init, []⟩

/-- The index after a restart, without the sandboxes that cannot be recovered. -/
def World.reload (w : World) (skipped : List Id) : Tbl Id (List Id) := w.rows.delAll skipped

end CubeSandbox.Record
