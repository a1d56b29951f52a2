import CubeSandbox.GoPath
import CubeSandbox.Tbl

/-!
The cleanup of a template (`CleanupTemplate` of `services/cubebox`, with the storage it calls).

The request names a template, and possibly objects and a snapshot path. Cubelet deletes the
template's cubecow objects, closes its pools and removes its directories. The disk, the tables
of pools, the objects and the cached snapshot catalog are a `World`; what the system answers
to a call (a removal that is refused, a file that a pattern matches) is a `Host`.
-/

namespace CubeSandbox.Cleanup

open GoText GoPath

/-! ### The disk -/

inductive FileKind
  | dir
  | file
  deriving DecidableEq

structure Files where
  entries : List (Path × FileKind)
  names : ∀ e ∈ entries, ∀ c ∈ e.1, IsName c

namespace Files

def mem (fs : Files) (p : Path) : Prop := ∃ k, (p, k) ∈ fs.entries

instance (fs : Files) (p : Path) : Decidable (fs.mem p) :=
  decidable_of_iff ((p, .dir) ∈ fs.entries ∨ (p, .file) ∈ fs.entries)
    ⟨fun h => h.elim (fun h => ⟨_, h⟩) fun h => ⟨_, h⟩,
      fun ⟨k, h⟩ => match k with | .dir => .inl h | .file => .inr h⟩

def isDir (fs : Files) (p : Path) : Bool := p == [] || fs.entries.contains (p, .dir)

def keep (fs : Files) (test : Path → Bool) : Files where
  entries := fs.entries.filter fun e => test e.1
  names := fun e he => fs.names e (List.mem_of_mem_filter he)

end Files

inductive OsErr
  | notExist
  | notDir
  | invalid
  | denied
  deriving DecidableEq

/-- The system's walk along the components of a path. -/
def walk (fs : Files) : Path → List Bytes → Except OsErr Path
  | here, [] => .ok here
  | here, c :: cs =>
    if fs.isDir here = false then .error .notDir
    else if c = [] ∨ c = dot then walk fs here cs
    else if c = dotDot then walk fs here.dropLast cs
    else if fs.mem (here ++ [c]) then walk fs (here ++ [c]) cs
    else .error .notExist

def origin (cwd : Path) (p : Bytes) : Path := if isAbs p then [] else cwd

/-- Refused by `os.RemoveAll` whatever it leads to. -/
def endsWithDot (p : Bytes) : Bool := p == dot || (slash :: dot).isSuffixOf p

/-- The components of a path, without the empty ones that closing slashes add. -/
def components (p : Bytes) : List Bytes := (split p).rdropWhile fun c => c == []

/-- `os.RemoveAll`, which removes the last component from the directory before it. What cannot be
removed stays, with the directories above it; so does what `.`, `..` and the root lead to. -/
def removeAll (stuck : Path → Bool) (cwd : Path) (fs : Files) (p : Bytes) : Files × Option OsErr :=
  if p = [] then (fs, none)
  else if endsWithDot p then (fs, some .invalid)
  else
    match walk fs (origin cwd p) (components p) with
    | .error .notExist => (fs, none)
    | .error err => (fs, some err)
    | .ok t =>
      let stays := (components p).getLast?.all fun c => c == dot || c == dotDot
      let held := fs.entries.filter fun e => t.isPrefixOf e.1 && (stuck e.1 || stays && e.1 == t)
      (fs.keep fun q => !t.isPrefixOf q || held.any fun e => q.isPrefixOf e.1,
        if stays ∨ held ≠ [] then some .denied else none)

inductive PathErr
  | emptyID
  | unsafeID (id : Bytes)
  | traversal (p : Bytes)
  | emptyPath
  | notAbs (p : Bytes)
  | notUnder (p base : Bytes)
  deriving DecidableEq

def validateNoTraversal (p : Bytes) : Option PathErr :=
  if p = [] then none
  else if contains (clean p) dotDot then some (.traversal p)
  else none

inductive CowKind
  | volume
  | snapshot
  deriving DecidableEq

def CowKind.other : CowKind → CowKind
  | .volume => .snapshot
  | .snapshot => .volume

def CowKind.text : CowKind → Bytes
  | .volume => ascii "volume"
  | .snapshot => ascii "snapshot"

structure SnapshotCatalogEntry where
  snapshotID : Bytes
  snapshotPath : Bytes
  rootfsVol : Bytes
  rootfsKind : Bytes
  memoryVol : Bytes
  memoryKind : Bytes
  buildRootfsVol : Bytes
  buildRootfsKind : Bytes

structure Config where
  rootPath : Bytes
  dataPath : Bytes
  useCowStorage : Bool

abbrev Pool := Nat

structure World where
  files : Files
  cwd : Path
  /-- Absent until the storage plugin is set up. -/
  localStorage : Option Config
  poolFormat : Tbl Bytes Pool
  tmpPoolFormat : Tbl Bytes Pool
  closed : List Pool
  objects : Tbl Bytes CowKind
  snapshotCatalogRoots : List Bytes
  snapshotCatalogIndex : Tbl Bytes SnapshotCatalogEntry

inductive CowErr
  | notFound
  | invalidArgument
  | ioError
  | other
  deriving DecidableEq

/-- The answers of the system during one call. -/
structure Host where
  /-- The paths that cannot be removed. -/
  stuck : Path → Bool
  /-- The files a pattern matches, if the pattern is well formed. -/
  glob : Bytes → Option (List Bytes)
  /-- The entry that a catalog file decodes to. -/
  catalogFile : Bytes → Option SnapshotCatalogEntry
  /-- Whether the cubecow manager is there. -/
  cowManager : Bool
  /-- The failure of an attempt to delete an object. -/
  cowFault : Bytes → CowKind → Nat → Option CowErr

inductive Err
  | templateIDRequired
  | invalidTemplateID (err : PathErr)
  | invalidSnapshotPath (err : PathErr)
  | invalidObjectName (name : Bytes) (err : PathErr)
  | objectRoleRequired (name : Bytes)
  | noCowManager
  | unsupportedKind (name kind : Bytes)
  | cow (name : Bytes) (err : CowErr)
  | refusingToRemove (target : Bytes) (err : PathErr)
  | os (err : OsErr)

def defaultSnapshotDir : Bytes := ascii "/usr/local/services/cubetoolbox/cube-snapshot"

/-- `filepath.Dir`. -/
def dir (p : Bytes) : Bytes := clean (p.reverse.dropWhile fun b => b != slash).reverse

def cubeboxTemplateFormatPath (cfg : Config) : Bytes :=
  join [join [cfg.dataPath, ascii "emptydir"], ascii "cubebox"]

def templatesRoot (cfg : Config) : Bytes :=
  join [cfg.rootPath, ascii "base-block-storage", ascii "templates"]

/-- The disk during the cleanup, and the errors so far. -/
structure Sweep where
  files : Files
  errs : List Err

def remove (h : Host) (cwd : Path) (s : Sweep) (target : Bytes) : Sweep :=
  let target := trimSpace target
  if target = [] then s
  else
    match validateNoTraversal target with
    | some err => { s with errs := s.errs ++ [.refusingToRemove target err] }
    | none =>
      let (files, err) := removeAll h.stuck cwd s.files target
      ⟨files, s.errs ++ err.toList.map .os⟩

end CubeSandbox.Cleanup
