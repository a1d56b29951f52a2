import CubeSandbox.GoPath
import CubeSandbox.MountTable
import CubeSandbox.Runs
import CubeSandbox.Tbl

/-!
Host directories in Cubelet (`storage/hostdir.go`).

A create request binds directories of the host into the directory of its sandbox, one mount
command after another. Clean-up walks over the directory of the sandbox, unmounts what it finds,
and then removes the tree. A command that was given up may still take effect later, and a removal
goes into whatever is mounted. The volumes of plugins, which are bound under the same directories
(`pluginvolume.go`), are left out.
-/

namespace CubeSandbox.HostDir

open GoText GoPath MountTable

structure Source where
  name : Bytes
  host : Bytes
  readOnly : Bool

def roStr (readOnly : Bool) : Bytes := if readOnly then ascii "ro" else ascii "rw"

section Paths

variable (base : Path)

def sandboxDir (sb : Bytes) : Path := base ++ [sb]

/-- `filepath.Join(shareDir, src.GetName())`: the name is taken apart, and `..` leads up. -/
def bindDest (sb : Bytes) (s : Source) : Path :=
  leadFrom (base ++ [sb, roStr s.readOnly]) (split s.name)

end Paths

def Source.hostPath (s : Source) : Path := lead [] s.host

/-- A mount for a sandbox, with the directory of the host. -/
abbrev Bind := Mount Bytes (Bytes × Path)

/-- The sources left to bind, and whether there is a record (`HostDirBackendInfos`). -/
structure Sandbox where
  todo : Option (List Source)
  infos : Bool

/-- Where a clean-up is: the directories that it has yet to visit, the removal, its end. -/
inductive Stage
  | walk (todo : List Path)
  | remove
  | ended
  deriving DecidableEq

/-- The host's own tree, and as history the targets and directories of all binds, the paths that
clean-ups unmounted or removed, and the directories of the host that lost something to them. -/
structure World where
  sandboxes : Tbl Bytes Sandbox
  dirs : List Path
  mounts : Table Bytes (Bytes × Path)
  late : List Bind
  cleanups : List (Bytes × Stage)
  targets : List (Bytes × Path)
  bound : List (Bytes × Path)
  touched : List (Bytes × Path)
  lost : List (Bytes × Path)

def World.init : World := ⟨∅, [], [], [], [], [], [], [], []⟩

/-- Two paths of which one leads to the other. -/
def Overlap (p q : Path) : Prop := p <+: q ∨ q <+: p

instance (p q : Path) : Decidable (Overlap p q) := inferInstanceAs (Decidable (_ ∨ _))

/-- The directory cannot be made; the command fails, is given up or succeeds; or the remount
fails. -/
inductive BindEnd
  | mkdirFailed | failed | gaveUp | done | remountFailed
  deriving DecidableEq

inductive Event
  | create (sb : Bytes) (sources : List Source)
  | stop (sb : Bytes)
  | bind (sb : Bytes) (o : BindEnd)
  | land (i : Nat)
  | cleanup (sb : Bytes)
  | visit (n : Nat) (children : List Bytes)
  | remove (n : Nat)
  | removed (n : Nat)
  | fail (n : Nat)

section Steps

variable (base : Path)

/-- A path of the host's own tree, not one inside of a mount. -/
def World.own (w : World) (p : Path) : Bool := (w.mounts.through p).isNone

def World.mkdirAll (w : World) (p : Path) : World :=
  { w with dirs := (p.inits.filter fun q => w.own q && !decide (q ∈ w.dirs)) ++ w.dirs }

/-- A mount takes effect. A removal that is under way there goes into it. -/
def World.mount (w : World) (m : Bind) : World :=
  { w with
    mounts := m :: w.mounts
    lost := (w.cleanups.filterMap fun c =>
      if c.2 = .remove ∧ sandboxDir base c.1 <+: m.target then some (c.1, m.source.2) else none) ++
        w.lost }

def World.setTodo (w : World) (sb : Bytes) (todo : Option (List Source)) : World :=
  { w with
    sandboxes := w.sandboxes.put sb ⟨todo, (w.sandboxes.get sb).any Sandbox.infos⟩ }

/-- The records that stand before the mount command is started. -/
def World.record (w : World) (sb : Bytes) (s : Source) : World :=
  { w.mkdirAll (bindDest base sb s) with
    sandboxes := w.sandboxes.put sb ⟨((w.sandboxes.get sb).bind Sandbox.todo), true⟩
    targets := (sb, bindDest base sb s) :: w.targets
    bound := (sb, s.hostPath) :: w.bound }

/-- One source in `prepareHostDirVolume`. An error ends the creation. -/
def bindNext (w : World) (sb : Bytes) (s : Source) (rest : List Source) : BindEnd → World
  | .mkdirFailed => w.setTodo sb none
  | .failed => (w.record base sb s).setTodo sb none
  | .gaveUp =>
    let w := (w.record base sb s).setTodo sb none
    { w with late := ⟨bindDest base sb s, (sb, s.hostPath)⟩ :: w.late }
  | .done =>
    ((w.record base sb s).mount base ⟨bindDest base sb s, (sb, s.hostPath)⟩).setTodo sb (some rest)
  | .remountFailed =>
    ((w.record base sb s).mount base ⟨bindDest base sb s, (sb, s.hostPath)⟩).setTodo sb none

def World.setStage (w : World) (n : Nat) (sb : Bytes) (st : Stage) : World :=
  { w with cleanups := w.cleanups.set n (sb, st) }

def World.children (w : World) (p : Path) : List Bytes :=
  w.dirs.filterMap fun q => if q.dropLast = p then q.getLast? else none

/-- `filepath.WalkDir` at one directory. What is in a mounted directory is not known. -/
def visit (w : World) (n : Nat) (sb : Bytes) (p : Path) (todo : List Path)
    (children : List Bytes) : Option World :=
  if p ≠ sandboxDir base sb ∧ w.mounts.isTarget p = true then
    some { w.setStage n sb (.walk todo) with
      mounts := w.mounts.unmount p
      touched := (sb, p) :: w.touched }
  else if w.own p = true ∧ ¬ children.Perm (w.children p) then none
  else some (w.setStage n sb (.walk (children.map (fun c => p ++ [c]) ++ todo)))

/-- The directories of the host that lose something with the sandbox's directory: those mounted at
it, above it or below it, and those bound for the sandbox that are above or below it. -/
def World.entered (w : World) (sb : Bytes) : List Path :=
  ((w.mounts.filter fun m => w.mounts.isSeen m && (sandboxDir base sb).isPrefixOf m.target).map
      fun m => m.source.2) ++
    ((w.mounts.through (sandboxDir base sb)).map fun m => m.source.2).toList ++
    (w.bound.filterMap fun b =>
      if b.1 = sb ∧ Overlap b.2 (sandboxDir base sb) then some b.2 else none)

def removeAll (w : World) (n : Nat) (sb : Bytes) : World :=
  { w.setStage n sb .remove with
    touched := (sb, sandboxDir base sb) :: w.touched
    lost := (w.entered base sb).map (fun h => (sb, h)) ++ w.lost }

def removed (w : World) (n : Nat) (sb : Bytes) : World :=
  { w.setStage n sb .ended with
    dirs := w.dirs.filter fun q => !(w.own q && (sandboxDir base sb).isPrefixOf q) }

/-- A sandbox has an id of its own, a plain name. Clean-up comes after the creation has ended. -/
def step (w : World) : Event → Option World
  | .create sb sources =>
    if IsName sb ∧ w.sandboxes.get sb = none then
      some { w with sandboxes := w.sandboxes.put sb ⟨some sources, false⟩ }
    else none
  | .stop sb =>
    if (w.sandboxes.get sb).isSome = true then some (w.setTodo sb none) else none
  | .bind sb o =>
    match (w.sandboxes.get sb).bind Sandbox.todo with
    | some (s :: rest) =>
      if s.host = [] then some (w.setTodo sb none)
      else if o = .remountFailed ∧ s.readOnly = false then none
      else some (bindNext base w sb s rest o)
    | _ => none
  | .land i =>
    match w.late[i]? with
    | some m =>
      if w.own m.target = true ∧ m.target ∉ w.dirs then none
      else some ({ w with late := w.late.eraseIdx i }.mount base m)
    | none => none
  | .cleanup sb =>
    match w.sandboxes.get sb with
    | some ⟨none, infos⟩ =>
      if infos = true ∧ (w.own (sandboxDir base sb) = true → sandboxDir base sb ∈ w.dirs) then
        some { w with cleanups := w.cleanups ++ [(sb, .walk [sandboxDir base sb])] }
      else some w
    | _ => none
  | .visit n children =>
    match w.cleanups[n]? with
    | some (sb, .walk (p :: todo)) => visit base w n sb p todo children
    | _ => none
  | .remove n =>
    match w.cleanups[n]? with
    | some (sb, .walk []) => some (removeAll base w n sb)
    | _ => none
  | .removed n =>
    match w.cleanups[n]? with
    | some (sb, .remove) => some (removed base w n sb)
    | _ => none
  | .fail n =>
    match w.cleanups[n]? with
    | some (sb, _) => some (w.setStage n sb .ended)
    | none => none

end Steps

end CubeSandbox.HostDir
