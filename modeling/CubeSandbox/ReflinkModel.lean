import CubeSandbox.Conc
import CubeSandbox.GoText
import CubeSandbox.Tbl

/-!
The reflink engine of cubecow (`engine/reflink.rs`): volumes and snapshots as files of a
directory tree, and an index of their names in memory.

Each block under the lock of the index and each call of the file system is an action, and a
call of the file system may fail. The lock is part of the state, since a deletion and the
rollback of a creation hold it over calls of the file system. An open file is an inode, so it
outlives its path. Metrics, paths as text and time stamps are left out.
-/

namespace CubeSandbox.Reflink

open GoText Conc

abbrev Name := Bytes

abbrev Ino := Nat

/-- `NameKind`. A snapshot lives in the directory of its ultimate origin. -/
inductive Kind
  | volume
  | snapshot (origin : Name)
  deriving DecidableEq

namespace Kind

/-- The directory of a name of this kind. -/
def dir (n : Name) : Kind → Name
  | volume => n
  | snapshot o => o

end Kind

/-- The kind that a file stands for by its place. -/
def kindAt (d f : Name) : Kind := if d = f then .volume else .snapshot d

abbrev Index := Tbl Name Kind

inductive Call
  | createVolume (n : Name) (size : Nat)
  | deleteVolume (n : Name)
  | createSnapshot (source n : Name)
  | deleteSnapshot (n : Name)
  | resizeVolume (n : Name) (size : Nat)
  deriving DecidableEq

namespace Call

def name : Call → Name
  | createVolume n _ | deleteVolume n | createSnapshot _ n | deleteSnapshot n
  | resizeVolume n _ => n

def creates : Call → Bool
  | createVolume .. | createSnapshot .. => true
  | _ => false

def deletes : Call → Bool
  | deleteVolume _ | deleteSnapshot _ => true
  | _ => false

end Call

/-- The index with its lock, the directories under `volumes/`, the sizes of the inodes; and as
history the names whose creation was acknowledged with kind and size, the operations in flight,
and the main files that do not have their size yet. -/
structure World where
  index : Index
  lock : Bool
  readers : Nat
  dirs : Tbl Name (Tbl Name Ino)
  sizes : Tbl Ino Nat
  next : Ino
  store : Tbl Name (Kind × Nat)
  calls : List Call
  bare : List Name

namespace World

def init : World := ⟨∅, false, 0, ∅, ∅, 0, ∅, [], []⟩

def file (w : World) (d f : Name) : Option Ino := (w.dirs.get d).bind fun t => t.get f

def size (w : World) (i : Ino) : Nat := (w.sizes.get i).getD 0

/-- Nobody holds the lock, not even for reading. -/
def free (w : World) : Bool := !w.lock && w.readers == 0

end World

/-- A leading dot. -/
def hidden (n : Name) : Bool := n.head? = some 46

/-- `validate_name`. The names of one and two dots are hidden ones. -/
def validName (n : Name) : Bool :=
  n ≠ [] && !n.contains 47 && !n.contains 0 && !hidden n

/-- Some snapshot lives in the directory of the volume. -/
def hasSnapshots (index : Index) (n : Name) : Bool :=
  index.toPairs.any fun e => e.2 = .snapshot n

/-- `CubecowError`, without the texts. -/
inductive Error
  | invalidArg
  | alreadyExists
  | notFound
  | preconditionFailed
  | io

inductive FsError
  | notFound
  | exists
  | other

inductive Act
  /-- The read block of `create_snapshot`: the directory of the source. -/
  | resolve (source : Name)
  | reserve (n : Name) (k : Kind)
  /-- The rollback of `create_snapshot`. -/
  | unreserve (n : Name)
  /-- The read block of `project_snapshot`. -/
  | kindOf (n : Name)
  /-- The writer lock, taken for a rollback. -/
  | lock
  /-- The writer lock, taken for a deletion. -/
  | lockDelete (n : Name)
  /-- `idx.remove` of a rollback under the lock. -/
  | forget (n : Name)
  /-- `idx.remove` of a deletion under the lock. -/
  | erase (n : Name)
  | unlock
  | readLock
  | readUnlock
  | mkdirAll (d : Name)
  | createNew (d f : Name)
  | openFile (d f : Name)
  | setLen (n : Name) (i : Ino) (size : Nat)
  /-- `set_len` of a resize. -/
  | growTo (n : Name) (i : Ino) (size : Nat)
  /-- `sync_all` of a file or a directory. -/
  | sync
  | ficlone (dst src : Ino)
  | stat (d f : Name)
  | countSnapshots (d : Name)
  | removeFile (d f : Name)
  | removeDir (d : Name)
  /-- Removals whose errors are ignored. -/
  | tryRemoveFile (d f : Name)
  | tryRemoveDir (d : Name)
  /-- The operation returns, with kind and size of what it has created. -/
  | returns (c : Call) (made : Option (Kind × Nat))

@[reducible] def Act.Ans : Act → Type
  | .resolve _ => Option Name
  | .kindOf _ => Option Kind
  | .reserve .. | .mkdirAll _ | .setLen .. | .growTo .. | .sync | .ficlone .. => Bool
  | .lockDelete _ | .erase _ | .readLock => Index
  | .createNew .. | .openFile .. => Except FsError Ino
  | .stat .. => Except FsError Nat
  | .countSnapshots _ => Option Nat
  | .removeFile .. | .removeDir _ => Except FsError Unit
  | .unreserve _ | .lock | .forget _ | .unlock | .readUnlock | .tryRemoveFile ..
  | .tryRemoveDir _ | .returns .. => Unit

/-- A call of the file system works or fails for a reason of its own. -/
inductive Outcome
  | ok
  | fail
  deriving DecidableEq

namespace World

variable (w : World)

/-- The tree with another entry at a path. -/
def setFile (d f : Name) (i : Option Ino) : World :=
  match w.dirs.get d with
  | none => w
  | some t => { w with dirs := w.dirs.put d (match i with
      | some i => t.put f i
      | none => t.del f) }

def mkdir (d : Name) : World :=
  match w.dirs.get d with
  | some _ => w
  | none => { w with dirs := w.dirs.put d ∅ }

def addFile (d f : Name) : World :=
  let w := w.setFile d f (some w.next)
  { w with
    sizes := w.sizes.put w.next 0
    next := w.next + 1
    bare := if d = f then f :: w.bare else w.bare }

def unlink (d f : Name) : World :=
  let w := w.setFile d f none
  { w with bare := if d = f then w.bare.filter (· ≠ f) else w.bare }

def createNew (d f : Name) : Outcome → World × Except FsError Ino
  | .fail => (w, .error .other)
  | .ok =>
    match w.dirs.get d, w.file d f with
    | none, _ => (w, .error .notFound)
    | some _, some _ => (w, .error .exists)
    | some _, none => (w.addFile d f, .ok w.next)

def openFile (d f : Name) : Outcome → Except FsError Ino
  | .fail => .error .other
  | .ok => (w.file d f).elim (.error .notFound) .ok

def removeFile (d f : Name) : Outcome → World × Except FsError Unit
  | .fail => (w, .error .other)
  | .ok =>
    match w.file d f with
    | none => (w, .error .notFound)
    | some _ => (w.unlink d f, .ok ())

/-- `rmdir` wants an empty directory. -/
def removeDir (d : Name) : Outcome → World × Except FsError Unit
  | .fail => (w, .error .other)
  | .ok =>
    match w.dirs.get d with
    | none => (w, .error .notFound)
    | some t =>
      if t.toPairs = [] then ({ w with dirs := w.dirs.del d }, .ok ()) else (w, .error .other)

/-- The entries of a directory besides the main file and hidden ones. -/
def countSnapshots (d : Name) : Nat :=
  match w.dirs.get d with
  | none => 0
  | some t => (t.toPairs.filter fun e => e.1 ≠ d && !hidden e.1).length

def setSize (i : Ino) (size : Nat) : World := { w with sizes := w.sizes.put i size }

/-- A resize changes the size that was acknowledged. -/
def regrow (n : Name) (size : Nat) : World :=
  { w with store := match w.store.get n with
    | some (k, _) => w.store.put n (k, size)
    | none => w.store }

def finish (c : Call) (made : Option (Kind × Nat)) : World :=
  { w with
    calls := w.calls.erase c
    store := match made with
      | some m => w.store.put c.name m
      | none => w.store }

end World

/-- A call that works or fails as a whole. -/
def fsCall (w w' : World) : Outcome → Option (World × Bool)
  | .ok => some (w', true)
  | .fail => some (w, false)

def perform : (a : Act) → World → Outcome → Option (World × a.Ans)
  | .resolve source, w, _ =>
    if w.lock then none else some (w, (w.index.get source).map (Kind.dir source))
  | .reserve n k, w, _ =>
    if !w.free then none
    else if (w.index.get n).isSome then some (w, false)
    else some ({ w with index := w.index.put n k }, true)
  | .unreserve n, w, _ =>
    if !w.free then none else some ({ w with index := w.index.del n }, ())
  | .kindOf n, w, _ => if w.lock then none else some (w, w.index.get n)
  | .lock, w, _ => if !w.free then none else some ({ w with lock := true }, ())
  | .lockDelete _, w, _ => if !w.free then none else some ({ w with lock := true }, w.index)
  | .forget n, w, _ => some ({ w with index := w.index.del n }, ())
  | .erase n, w, _ =>
    some ({ w with index := w.index.del n, store := w.store.del n }, w.index.del n)
  | .unlock, w, _ => some ({ w with lock := false }, ())
  | .readLock, w, _ =>
    if w.lock then none else some ({ w with readers := w.readers + 1 }, w.index)
  | .readUnlock, w, _ => some ({ w with readers := w.readers - 1 }, ())
  | .mkdirAll d, w, o => fsCall w (w.mkdir d) o
  | .createNew d f, w, o => some (w.createNew d f o)
  | .openFile d f, w, o => some (w, w.openFile d f o)
  | .setLen n i size, w, o =>
    fsCall w { w.setSize i size with bare := w.bare.filter (· ≠ n) } o
  | .growTo n i size, w, o => fsCall w ((w.setSize i size).regrow n size) o
  | .sync, w, o => fsCall w w o
  | .ficlone dst src, w, o => fsCall w (w.setSize dst (w.size src)) o
  | .stat d f, w, o => some (w, (w.openFile d f o).map w.size)
  | .countSnapshots d, w, o =>
    some (w, match o with
      | .ok => some (w.countSnapshots d)
      | .fail => none)
  | .removeFile d f, w, o => some (w.removeFile d f o)
  | .removeDir d, w, o => some (w.removeDir d o)
  | .tryRemoveFile d f, w, o => some ((w.removeFile d f o).1, ())
  | .tryRemoveDir d, w, o => some ((w.removeDir d o).1, ())
  | .returns c made, w, _ => some (w.finish c made, ())

abbrev Task := Prog Act.Ans

def act (a : Act) : Task a.Ans := .perform a

def projectVolume (n : Name) : Task (Except Error Nat) := do
  match ← act (.stat n n) with
  | .error .notFound => return .error .notFound
  | .error _ => return .error .io
  | .ok size =>
    match ← act (.countSnapshots n) with
    | none => return .error .io
    | some _ => return .ok size

/-- The steps that follow the `set_len` of `create_volume`. -/
def syncVolume (n : Name) : Task (Except Error Nat) := do
  if !(← act .sync) then return .error .io
  if !(← act .sync) then return .error .io
  if !(← act .sync) then return .error .io
  projectVolume n

/-- The closure in `create_volume`. -/
def makeVolume (n : Name) (size : Nat) : Task (Except Error Nat) := do
  if !(← act (.mkdirAll n)) then return .error .io
  match ← act (.createNew n n) with
  | .error .exists => return .error .alreadyExists
  | .error _ => return .error .io
  | .ok i =>
    if !(← act (.setLen n i size)) then return .error .io
    syncVolume n

/-- The rollback of `create_volume`, all of it under the lock. -/
def undoVolume (n : Name) : Task Unit := do
  act .lock
  act (.forget n)
  act (.tryRemoveFile n n)
  act (.tryRemoveDir n)
  act .unlock

def createVolume (n : Name) (size : Nat) : Task (Except Error Nat) := do
  if !validName n then return .error .invalidArg
  if !(← act (.reserve n .volume)) then return .error .alreadyExists
  match ← makeVolume n size with
  | .ok size => return .ok size
  | .error e =>
    undoVolume n
    return .error e

/-- An operation gives the lock back with its result. -/
def unlocked {α : Type} (r : α) : Task α := do
  act .unlock
  return r

/-- The end of `delete_volume`. -/
def eraseVolume (n : Name) : Task (Except Error Unit) := do
  let _ ← act .sync
  let _ ← act (.erase n)
  unlocked (.ok ())

/-- `delete_volume` once the main file is unlinked. -/
def reapVolume (n : Name) (live : Bool) : Task (Except Error Unit) := do
  if live then eraseVolume n
  else
    match ← act (.removeDir n) with
    | .ok () | .error .notFound => eraseVolume n
    | .error _ => unlocked (.error .io)

def deleteVolume (n : Name) : Task (Except Error Unit) := do
  let index : Index ← act (.lockDelete n)
  match index.get n with
  | some (.snapshot _) => unlocked (.error .invalidArg)
  | none => unlocked (.error .notFound)
  | some .volume =>
    match ← act (.removeFile n n) with
    | .ok () | .error .notFound => reapVolume n (hasSnapshots index n)
    | .error _ => unlocked (.error .io)

def projectSnapshot (n : Name) : Task (Except Error (Kind × Nat)) := do
  match ← act (.kindOf n) with
  | some (.snapshot o) =>
    match ← act (.stat o n) with
    | .error .notFound => return .error .notFound
    | .error _ => return .error .io
    | .ok size => return .ok (.snapshot o, size)
  | _ => return .error .notFound

/-- The closure in `create_snapshot`, with `ficlone`. -/
def makeSnapshot (d source n : Name) : Task (Except Error (Kind × Nat)) := do
  match ← act (.openFile d source) with
  | .error .notFound => return .error .notFound
  | .error _ => return .error .io
  | .ok src =>
    match ← act (.createNew d n) with
    | .error _ => return .error .preconditionFailed
    | .ok dst =>
      if ← act (.ficlone dst src) then
        let _ ← act .sync
        projectSnapshot n
      else
        act (.tryRemoveFile d n)
        return .error .preconditionFailed

def createSnapshot (source n : Name) : Task (Except Error (Kind × Nat)) := do
  if !validName n then return .error .invalidArg
  match ← act (.resolve source) with
  | none => return .error .notFound
  | some d =>
    if !(← act (.reserve n (.snapshot d))) then return .error .alreadyExists
    match ← makeSnapshot d source n with
    | .ok r => return .ok r
    | .error e =>
      act (.unreserve n)
      return .error e

/-- The end of `delete_snapshot`: the directory of a gone origin goes with its last snapshot. -/
def eraseSnapshot (o n : Name) : Task (Except Error Unit) := do
  let _ ← act .sync
  let index : Index ← act (.erase n)
  if (index.get o).isNone && !hasSnapshots index o then
    act (.tryRemoveDir o)
    let _ ← act .sync
    unlocked (.ok ())
  else unlocked (.ok ())

def deleteSnapshot (n : Name) : Task (Except Error Unit) := do
  let index : Index ← act (.lockDelete n)
  match index.get n with
  | some .volume => unlocked (.error .invalidArg)
  | none => unlocked (.error .notFound)
  | some (.snapshot o) =>
    match ← act (.removeFile o n) with
    | .ok () | .error .notFound => eraseSnapshot o n
    | .error _ => unlocked (.error .io)

/-- The part of `resize_volume` after the check of the name. -/
def growVolume (n : Name) (size : Nat) : Task (Except Error (Nat × Nat)) := do
  match ← act (.stat n n) with
  | .error _ => return .error .io
  | .ok old =>
    if size < old then return .error .invalidArg
    if size = old then return .ok (old, old)
    match ← act (.openFile n n) with
    | .error _ => return .error .io
    | .ok i =>
      if !(← act (.growTo n i size)) then return .error .io
      if !(← act .sync) then return .error .io
      return .ok (old, size)

def resizeVolume (n : Name) (size : Nat) : Task (Except Error (Nat × Nat)) := do
  let index : Index ← act .readLock
  match index.get n with
  | some .volume =>
    let r ← growVolume n size
    act .readUnlock
    return r
  | some (.snapshot _) =>
    act .readUnlock
    return .error .invalidArg
  | none =>
    act .readUnlock
    return .error .notFound

/-- What an operation has created when it returns. -/
def created : Call → Task (Option (Kind × Nat))
  | .createVolume n size => do
    let r ← createVolume n size
    return r.toOption.map fun size => (.volume, size)
  | .createSnapshot source n => do
    let r ← createSnapshot source n
    return r.toOption
  | .deleteVolume n => do
    let _ ← deleteVolume n
    return none
  | .deleteSnapshot n => do
    let _ ← deleteSnapshot n
    return none
  | .resizeVolume n size => do
    let _ ← resizeVolume n size
    return none

def operation (c : Call) : Task Unit := do
  let made ← created c
  act (.returns c made)

/-- The machine, in which operations overlap or come one after another. -/
def machine (serial : Bool) : Machine Act.Ans World Outcome Call where
  act := perform
  start := fun w c => some ({ w with calls := c :: w.calls }, operation c)
  alone := fun _ => serial

abbrev Conf := Config Act.Ans World

def begin : Conf := ⟨World.init, []⟩

/-! ### The scan at the start -/

/-- A file of a directory: the index, and the files that stay. -/
def scanFile (size : Ino → Nat) (vol : Name) (acc : Index × Tbl Name Ino) (e : Name × Ino) :
    Index × Tbl Name Ino :=
  if e.1 = vol ∨ hidden e.1 then acc
  -- an empty file is taken for a clone that never came
  else if size e.2 = 0 then (acc.1, acc.2.del e.1)
  else if (acc.1.get e.1).isSome then acc
  else (acc.1.put e.1 (.snapshot vol), acc.2)

/-- The loop over the files of a directory. -/
def scanFiles (size : Ino → Nat) (vol : Name) (files : Tbl Name Ino) (index : Index) :
    Index × Tbl Name Ino :=
  files.toPairs.foldl (scanFile size vol) (index, files)

/-- The loop over the directories. -/
def scanDir (size : Ino → Nat) (acc : Index × Tbl Name (Tbl Name Ino))
    (e : Name × Tbl Name Ino) : Index × Tbl Name (Tbl Name Ino) :=
  if hidden e.1 then acc
  else if (e.2.get e.1).isNone ∧ e.2.toPairs.all (fun x => hidden x.1) then
    -- hidden files make the removal fail
    if e.2.toPairs = [] then (acc.1, acc.2.del e.1) else acc
  else
    let index := if (e.2.get e.1).isSome then acc.1.put e.1 .volume else acc.1
    let r := scanFiles size e.1 e.2 index
    (r.1, acc.2.put e.1 r.2)

def scanAndRebuildIndex (size : Ino → Nat) (dirs : Tbl Name (Tbl Name Ino)) :
    Index × Tbl Name (Tbl Name Ino) :=
  dirs.toPairs.foldl (scanDir size) (∅, dirs)

/-- A crash and the next `initialize`. -/
def World.restart (w : World) : World :=
  let r := scanAndRebuildIndex w.size w.dirs
  { w with index := r.1, lock := false, readers := 0, dirs := r.2, calls := [] }

end CubeSandbox.Reflink
