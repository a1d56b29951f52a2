import CubeSandbox.GoText
import CubeSandbox.Runs
import CubeSandbox.Tbl

/-!
The cross-node reference count of a volume (`Cubelet/plugins/volume/manager.go`,
`Cubelet/storage/pluginvolume.go`, `CubeMaster/pkg/volume/refcount`).

A Cubelet keeps, for each namespace and volume, the sandboxes that hold the volume. The answer of
a create carries an event for each volume the node began to hold, the answer of a destroy one for
each volume it stopped to hold, and CubeMaster adds the events up in `t_cube_volume.refcount`.
`Attach` and `Detach` of one volume on one node exclude each other and are one step each; all
else interleaves.
-/

namespace CubeSandbox.Volume

open GoText

/-- One entry of the store of a Cubelet: the sandbox holds the volume. -/
structure Hold where
  node : Nat
  ns : Bytes
  vol : Bytes
  sb : Bytes
  deriving DecidableEq

/-- The calls under way. `events` are the `VolumeRefEvents`, which a successful answer carries. -/
inductive Op
  /-- A create, with the volumes still to attach and those attached. -/
  | create (n : Nat) (ns sb : Bytes) (todo done events : List Bytes)
  /-- The rollback of a failed create, with the volumes still to detach. -/
  | undo (n : Nat) (ns sb : Bytes) (todo events : List Bytes)
  /-- A destroy, and whether a plugin has failed in it. -/
  | destroy (n : Nat) (ns sb : Bytes) (todo events : List Bytes) (failed : Bool)
  /-- `handleDeleteVolume` behind its check of the count. -/
  | delete (v : Bytes)
  /-- `handleDeleteVolume` between the plugin and the removal of the row. -/
  | drop (v : Bytes)
  | ended
  deriving DecidableEq

/-- `PluginVolumeBackendInfos` of a sandbox, with its namespace. -/
structure Info where
  ns : Bytes
  vols : List Bytes

structure World where
  /-- `t_cube_volume`: the count of each volume. -/
  rows : Tbl Bytes Nat
  held : Finset Hold
  infos : Tbl (Nat × Bytes) Info
  /-- The sandbox ids given out so far on each node. -/
  used : List (Nat × Bytes)
  /-- Events on their way to CubeMaster; `true` is `referenced=1`. -/
  inflight : List (Bytes × Bool)
  ops : List Op
  /-- The volumes whose backend was destroyed while a sandbox held them. -/
  broken : List Bytes

def World.start : World := ⟨∅, ∅, ∅, [], [], [], []⟩

/-- The holders of a volume in one namespace of a node. -/
def holders (held : Finset Hold) (n : Nat) (ns v : Bytes) : Finset Hold :=
  held.filter fun h => h.node = n ∧ h.ns = ns ∧ h.vol = v

/-- The nodes on which a sandbox holds the volume. -/
def nodes (held : Finset Hold) (v : Bytes) : Finset Nat :=
  (held.filter fun h => h.vol = v).image Hold.node

/-- `Attach` with a plugin that succeeds: the new holders, and `NodeRefFirstAttach`. -/
def attach (held : Finset Hold) (h : Hold) : Finset Hold × Bool :=
  (insert h held, decide (holders held h.node h.ns h.vol = ∅))

/-- `Detach` with a plugin that succeeds: the new holders, and `NodeRefLastDetach`. -/
def detach (held : Finset Hold) (h : Hold) : Finset Hold × Bool :=
  (held.erase h, decide (h ∈ held) && decide (holders (held.erase h) h.node h.ns h.vol = ∅))

def apply (rows : Tbl Bytes Nat) : Bytes × Bool → Tbl Bytes Nat
  | (v, up) =>
    match rows.get v with
    | none => rows
    | some r => rows.put v (if up then r + 1 else r - 1)

inductive Event
  | newVolume (v : Bytes)
  /-- A create of a sandbox with plugin volumes reaches a node. -/
  | create (n : Nat) (ns sb : Bytes) (vols : List Bytes)
  /-- The create attaches its next volume. -/
  | attach (i : Nat)
  /-- The create fails in any way; the volumes attached are detached in some order. -/
  | fail (i : Nat) (order : List Bytes)
  | succeed (i : Nat)
  /-- The rollback detaches its next volume; the plugin may fail. -/
  | undo (i : Nat) (ok : Bool)
  | undone (i : Nat)
  | destroy (n : Nat) (sb : Bytes) (order : List Bytes)
  | detach (i : Nat) (ok : Bool)
  /-- The answer of the destroy; it may also fail for other reasons than a plugin. -/
  | answer (i : Nat) (ok : Bool)
  | apply (k : Nat)
  | delete (v : Bytes)
  /-- `plugin.Destroy`. -/
  | destroyBackend (i : Nat) (ok : Bool)
  | dropRow (i : Nat) (ok : Bool)

def World.setOp (w : World) (i : Nat) (op : Op) : World := { w with ops := w.ops.set i op }

def step (w : World) : Event → Option World
  | .newVolume v => if w.rows.get v = none then some { w with rows := w.rows.put v 0 } else none
  | .create n ns sb vols =>
    if (n, sb) ∉ w.used ∧ ∀ v ∈ vols, w.rows.get v ≠ none then
      some { w with used := (n, sb) :: w.used, ops := w.ops ++ [.create n ns sb vols [] []] }
    else none
  | .attach i =>
    match w.ops[i]? with
    | some (.create n ns sb (v :: todo) done events) =>
      let r := attach w.held ⟨n, ns, v, sb⟩
      some { w with
        held := r.1
        ops := w.ops.set i
          (.create n ns sb todo (v :: done) (if r.2 then v :: events else events)) }
    | _ => none
  | .fail i order =>
    match w.ops[i]? with
    | some (.create n ns sb _ done events) =>
      if order.Perm done then some (w.setOp i (.undo n ns sb order events)) else none
    | _ => none
  | .succeed i =>
    match w.ops[i]? with
    | some (.create n ns sb [] done events) =>
      some { w with
        infos := w.infos.put (n, sb) ⟨ns, done⟩
        inflight := events.map (·, true) ++ w.inflight
        ops := w.ops.set i .ended }
    | _ => none
  | .undo i ok =>
    match w.ops[i]? with
    | some (.undo n ns sb (v :: todo) events) =>
      if ok then
        some { w with
          held := (detach w.held ⟨n, ns, v, sb⟩).1
          ops := w.ops.set i (.undo n ns sb todo events) }
      else some (w.setOp i (.undo n ns sb todo events))
    | _ => none
  | .undone i =>
    match w.ops[i]? with
    | some (.undo _ _ _ [] _) => some (w.setOp i .ended)
    | _ => none
  | .destroy n sb order =>
    match w.infos.get (n, sb) with
    | some info =>
      if order.Perm info.vols then
        some { w with ops := w.ops ++ [.destroy n info.ns sb order [] false] }
      else none
    | none => none
  | .detach i ok =>
    match w.ops[i]? with
    | some (.destroy n ns sb (v :: todo) events failed) =>
      if ok then
        let r := detach w.held ⟨n, ns, v, sb⟩
        some { w with
          held := r.1
          ops := w.ops.set i
            (.destroy n ns sb todo (if r.2 then v :: events else events) failed) }
      else some (w.setOp i (.destroy n ns sb todo events true))
    | _ => none
  | .answer i ok =>
    match w.ops[i]? with
    | some (.destroy n _ sb [] events failed) =>
      if ok then
        if failed then none
        else some { w with
          infos := w.infos.del (n, sb)
          inflight := events.map (·, false) ++ w.inflight
          ops := w.ops.set i .ended }
      -- the events of a failed destroy are not read
      else some (w.setOp i .ended)
    | _ => none
  | .apply k =>
    match w.inflight[k]? with
    | some e => some { w with rows := apply w.rows e, inflight := w.inflight.eraseIdx k }
    | none => none
  | .delete v =>
    if w.rows.get v = some 0 then some { w with ops := w.ops ++ [.delete v] } else none
  | .destroyBackend i ok =>
    match w.ops[i]? with
    | some (.delete v) =>
      if ok then
        some { w with
          broken := if nodes w.held v = ∅ then w.broken else v :: w.broken
          ops := w.ops.set i (.drop v) }
      else some (w.setOp i .ended)
    | _ => none
  | .dropRow i ok =>
    match w.ops[i]? with
    | some (.drop v) =>
      if ok then some { w with rows := w.rows.del v, ops := w.ops.set i .ended }
      else some (w.setOp i .ended)
    | _ => none

/-- No call is under way and every event has been applied. -/
def World.Quiet (w : World) : Prop := w.inflight = [] ∧ ∀ op ∈ w.ops, op = .ended

/-- **The count is right at rest, and no backend was destroyed in use.** -/
structure Counted (w : World) : Prop where
  count : w.Quiet → ∀ v r, w.rows.get v = some r → r = (nodes w.held v).card
  intact : w.broken = []

/-- A create or a rollback that has the volume among those it attaches or has attached. -/
def Op.Names (v : Bytes) : Op → Prop
  | .create _ _ _ todo done _ => v ∈ todo ∨ v ∈ done
  | .undo _ _ _ todo _ => v ∈ todo
  | _ => False

def Op.Deletes (v : Bytes) : Op → Prop
  | .delete u => u = v
  | .drop u => u = v
  | _ => False

/-- A create that was the first to attach the volume on the node and whose event is not sent. -/
def Op.FirstOn (n : Nat) (v : Bytes) : Op → Prop
  | .create m _ _ _ _ events => m = n ∧ v ∈ events
  | .undo m _ _ todo events => m = n ∧ v ∈ events ∧ v ∈ todo
  | _ => False

/-- The create may attach its next volume: no first attach of it on the node is unreported. -/
def Op.Clear (ops : List Op) : Op → Prop
  | .create n _ _ (v :: _) _ _ => ∀ op ∈ ops, ¬ op.FirstOn n v
  | _ => True

/-- The rollback may detach its next volume: if it is the last to hold it, it was the first. -/
def Op.Owner (held : Finset Hold) : Op → Prop
  | .undo n ns sb (v :: _) events =>
    holders (held.erase ⟨n, ns, v, sb⟩) n ns v = ∅ → v ∈ events
  | _ => True

def Op.Silent : Op → Prop
  | .destroy _ _ _ _ events _ => events = []
  | _ => True

/-- A create is in the namespace `ns0`, names a volume once and none that is being deleted. A volume
is not attached on a node while another create there still has its first attach to report. A
rollback meets no failing plugin, and where it is the last to let go of a volume it was the first to
attach it. A destroy that fails had nothing to report. A decrement does not come before its
increment, and a volume is deleted while no create has it and no increment of it is on its way. -/
def Orderly (ns0 : Bytes) (w : World) : Event → Prop
  | .create _ ns _ vols => ns = ns0 ∧ vols.Nodup ∧ ∀ v ∈ vols, ∀ op ∈ w.ops, ¬ op.Deletes v
  | .attach i => ∀ op ∈ w.ops[i]?, op.Clear w.ops
  | .undo i ok => ok = true ∧ ∀ op ∈ w.ops[i]?, op.Owner w.held
  | .answer i ok => ok = false → ∀ op ∈ w.ops[i]?, op.Silent
  | .apply k => ∀ e ∈ w.inflight[k]?, e.2 = false → w.rows.get e.1 ≠ some 0
  | .delete v => (v, true) ∉ w.inflight ∧ ∀ op ∈ w.ops, ¬ op.Names v
  | _ => True

instance (v : Bytes) : DecidablePred (Op.Names v)
  | .create _ _ _ todo done _ => inferInstanceAs (Decidable (v ∈ todo ∨ v ∈ done))
  | .undo _ _ _ todo _ => inferInstanceAs (Decidable (v ∈ todo))
  | .destroy .. | .delete _ | .drop _ | .ended => .isFalse id

instance (v : Bytes) : DecidablePred (Op.Deletes v)
  | .delete u => inferInstanceAs (Decidable (u = v))
  | .drop u => inferInstanceAs (Decidable (u = v))
  | .create .. | .undo .. | .destroy .. | .ended => .isFalse id

instance (n : Nat) (v : Bytes) : DecidablePred (Op.FirstOn n v)
  | .create m _ _ _ _ events => inferInstanceAs (Decidable (m = n ∧ v ∈ events))
  | .undo m _ _ todo events => inferInstanceAs (Decidable (m = n ∧ v ∈ events ∧ v ∈ todo))
  | .destroy .. | .delete _ | .drop _ | .ended => .isFalse id

instance (ops : List Op) : DecidablePred (Op.Clear ops)
  | .create n _ _ (v :: _) _ _ => inferInstanceAs (Decidable (∀ op ∈ ops, ¬ op.FirstOn n v))
  | .create _ _ _ [] _ _ | .undo .. | .destroy .. | .delete _ | .drop _ | .ended =>
    .isTrue trivial

instance (held : Finset Hold) : DecidablePred (Op.Owner held)
  | .undo n ns sb (v :: _) events =>
    inferInstanceAs (Decidable (holders (held.erase ⟨n, ns, v, sb⟩) n ns v = ∅ → v ∈ events))
  | .undo _ _ _ [] _ | .create .. | .destroy .. | .delete _ | .drop _ | .ended =>
    .isTrue trivial

instance : DecidablePred Op.Silent
  | .destroy _ _ _ _ events _ => inferInstanceAs (Decidable (events = []))
  | .create .. | .undo .. | .delete _ | .drop _ | .ended => .isTrue trivial

instance (ns0 : Bytes) (w : World) : DecidablePred (Orderly ns0 w) := by
  intro e
  cases e <;> unfold Orderly <;> infer_instance

end CubeSandbox.Volume
