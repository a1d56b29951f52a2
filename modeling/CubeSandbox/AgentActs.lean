import CubeSandbox.AgentModel

/-!
The actions of the network agent, and what each does under an outcome.

A call that fails leaves the state as it was, with the exceptions that the calls have: a state
file may be left cut off, a device whose setup failed may be left behind, a flush or a list of
insertions may be done in part. A device that is found missing is gone from then on.
-/

namespace CubeSandbox.Agent

open Vs Lpm GoText Pol Function

inductive DelRes
  | ok
  | noKey
  | fail
  deriving DecidableEq

inductive Act
  | ensureEnter (id : SandboxId)
  | ensureExit (id : SandboxId) (state : Option ManagedState)
  | awaitDone (ch : Nat)
  | inflight (id handle : SandboxId)
  | getState (id : SandboxId)
  | takeState (id handle : SandboxId)
  | putBack (st : ManagedState)
  | addState (st : ManagedState)
  | serve
  | dequeueTap
  | dequeueAbnormal
  | stageTapForPool (tap : TapDevice)
  | enqueueAbnormal (tap : TapDevice) (stage : Stage)
  | requeuePreparePoolFailure (tap : TapDevice)
  | recoveryFailed (tap : TapDevice) (missing : Bool)
  | checkTapConflict (ip : Ip)
  | allocateIp
  | releaseIp (ip : Ip)
  | assignIp (ip : Ip)
  | allocatePort
  | releasePort (p : UInt16)
  | assignPort (p : UInt16)
  | nextVersion
  | ensureHostRoute
  | listCubeTaps
  | newTap (ip : Ip)
  | destroyTap (i : Ifindex)
  | restoreTap (tap : TapDevice)
  | addArpEntry
  | attachFilter
  | remoteUpdate (p : UInt16) (v : MvmPort)
  | remoteDelete (p : UInt16)
  | localUpdate (v : MvmPort) (p : UInt16)
  | localDelete (v : MvmPort)
  | listPortMapping
  | deviceLookup (i : Ifindex)
  | deviceUpdate (i : Ifindex) (mt : DeviceMeta)
  | deviceDelete (i : Ifindex)
  | listTapDevices
  | ipUpdate (ip : Ip) (i : Ifindex)
  | ipDelete (ip : Ip)
  | policy (i : Ifindex) (op : PolicyOp)
  | save (st : PersistedState)
  | deleteFile (id : SandboxId)
  | loadAll

/-- A kernel call answers `false` or `none` when it fails; a failed restore says why. -/
@[reducible] def Act.Ans : Act → Type
  | .ensureEnter _ => Entry
  | .inflight .. => Option Nat
  | .getState _ | .takeState .. => Option ManagedState
  | .dequeueTap | .dequeueAbnormal | .newTap _ => Option TapDevice
  | .allocateIp => Option Ip
  | .allocatePort => Option UInt16
  | .nextVersion => UInt32
  | .listCubeTaps => Option (List (Ifindex × Ip))
  | .restoreTap _ => Except Bool TapDevice
  | .listPortMapping => Option (List (UInt16 × MvmPort))
  | .deviceLookup _ => Option (Option DeviceMeta)
  | .deviceDelete _ | .ipDelete _ => DelRes
  | .listTapDevices => Option (List (Ifindex × DeviceMeta))
  | .loadAll => Option (List PersistedState)
  | .checkTapConflict _ | .ensureHostRoute | .destroyTap _ | .addArpEntry | .attachFilter
  | .remoteUpdate .. | .remoteDelete _ | .localUpdate .. | .localDelete _ | .deviceUpdate ..
  | .ipUpdate .. | .policy .. | .save _ | .deleteFile _ => Bool
  | .ensureExit .. | .awaitDone _ | .putBack _ | .addState _ | .serve | .stageTapForPool _
  | .enqueueAbnormal .. | .requeuePreparePoolFailure _ | .recoveryFailed .. | .releaseIp _
  | .assignIp _ | .releasePort _ | .assignPort _ => Unit

/-- What the environment chooses for an action. -/
inductive Out
  | ok
  | fail
  /-- A state file that was created and not written to its end. -/
  | truncated
  /-- The device that is to be restored does not exist any more. -/
  | missing
  | restored (inUse : Bool)
  /-- The index of a new device. -/
  | made (i : Ifindex)
  /-- The index of a new device whose setup failed and which could not be deleted. -/
  | left (i : Ifindex)
  /-- How many insertions were done before one failed. -/
  | cut (n : Nat)
  /-- Which keys a flush deleted before it failed. -/
  | swept (gone : List Bool → Bool)
  /-- The order in which a map or a directory is read. -/
  | links (l : List (Ifindex × Ip))
  | locals (l : List (MvmPort × UInt16))
  | devices (l : List (Ifindex × DeviceMeta))
  | files (l : List (SandboxId × FileContent))

namespace PolicyOp

/-- The maps after an operation, and whether every entry was accepted. -/
def run (c : CubeVs) (i : Ifindex) : PolicyOp → CubeVs × Bool
  | flushAllow => ({ c with allowOut := update c.allowOut i .empty }, true)
  | flushDeny => ({ c with denyOut := update c.denyOut i .empty }, true)
  | flushDns => ({ c with dnsAllow := update c.dnsAllow i .empty }, true)
  | putAllow entries =>
    let (t, r) := Tap.insertAll Tap.putAllow (c.allowOut i) entries
    ({ c with allowOut := update c.allowOut i t }, r.toBool)
  | putDns rules =>
    let (t, r) := Tap.insertAll Tap.putDns (c.dnsAllow i) rules
    ({ c with dnsAllow := update c.dnsAllow i t }, r.toBool)
  | putDeny entries =>
    let (t, r) := Tap.insertAll Tap.putDeny (c.denyOut i) entries
    ({ c with denyOut := update c.denyOut i t }, r.toBool)

/-- The first entries of an insertion. -/
def take (n : Nat) : PolicyOp → Option PolicyOp
  | putAllow entries => some (putAllow (entries.take n))
  | putDns rules => some (putDns (rules.take n))
  | putDeny entries => some (putDeny (entries.take n))
  | _ => none

/-- A flush of some keys only. -/
def sweep (c : CubeVs) (i : Ifindex) (gone : List Bool → Bool) : PolicyOp → Option CubeVs
  | flushAllow =>
    some { c with
      allowOut := update c.allowOut i ((c.allowOut i).keep fun k _ => !gone k) }
  | flushDeny =>
    some { c with denyOut := update c.denyOut i ((c.denyOut i).keep fun k _ => !gone k) }
  | flushDns =>
    some { c with
      dnsAllow := update c.dnsAllow i ((c.dnsAllow i).keep fun k _ => !gone k) }
  | _ => none

end PolicyOp

/-- The bytes that a sandbox id must not contain, and the empty id: `path` of the store. -/
def validId (id : SandboxId) : Bool :=
  !id.isEmpty && id.all fun c => c ≠ 47 && c ≠ 92 && c ≠ 46

/-- `ListPortMapping`: entries of the local map replace remote ones of the same host port. -/
def mergePorts (remote : Tbl UInt16 MvmPort) (locals : List (MvmPort × UInt16)) :
    Tbl UInt16 MvmPort :=
  locals.foldl (fun r e => r.put e.2 e.1) remote

namespace World

variable (w : World)

@[simps] def setCube (c : CubeVs) : World := { w with cube := c }
@[simps] def setRemote (t : Tbl UInt16 MvmPort) : World :=
  { w with cube := { w.cube with remotePorts := t } }
@[simps] def setLocal (t : Tbl MvmPort UInt16) : World :=
  { w with cube := { w.cube with localPorts := t } }
@[simps] def setDevices (t : Tbl Ifindex DeviceMeta) : World :=
  { w with cube := { w.cube with devices := t } }
@[simps] def setIps (t : Tbl Ip Ifindex) : World := { w with cube := { w.cube with ips := t } }
@[simps] def setLinks (t : Tbl Ifindex Ip) : World := { w with links := t }
@[simps] def setFiles (t : Tbl SandboxId FileContent) : World := { w with files := t }
@[simps] def setAllocator (a : IpAllocator) : World := { w with allocator := a }
@[simps] def setPorts (a : PortAllocator) : World := { w with ports := a }

/-- A new device, if its index and its name are free. -/
def addLink (i : Ifindex) (ip : Ip) : Option World :=
  if (w.links.get i).isNone ∧ (w.linkByName ip).isNone then some (w.setLinks (w.links.put i ip))
  else none

/-- The device of a name goes away. -/
def dropLink (ip : Ip) : World :=
  match w.linkByName ip with
  | some i => w.setLinks (w.links.del i)
  | none => w

end World

/-- A section of the agent's own code: it cannot fail. -/
def own {α : Type} (w : World) (v : α) : Out → Option (World × α)
  | .ok => some (w, v)
  | _ => none

/-- A call of the kernel that does all or nothing. -/
def call (w w' : World) : Out → Option (World × Bool)
  | .ok => some (w', true)
  | .fail => some (w, false)
  | _ => none

def delete (w w' : World) (present : Bool) : Out → Option (World × DelRes)
  | .ok => some (if present then (w', .ok) else (w, .noKey))
  | .fail => some (w, .fail)
  | _ => none

def runNewTap (w : World) (ip : Ip) : Out → Option (World × Option TapDevice)
  | .made i => (w.addLink i ip).map fun w' =>
    (w', some { ip := ip, index := i, file := true, inUse := true })
  | .left i => (w.addLink i ip).map fun w' => (w', none)
  | .fail => some (w, none)
  | _ => none

/-- The record of `restoreTap` is new: it keeps mappings and file, but no failures and no stage. -/
def runRestoreTap (w : World) (tap : TapDevice) : Out → Option (World × Except Bool TapDevice)
  | .restored inUse => (w.linkByName tap.ip).map fun i =>
    (w, .ok { ip := tap.ip, index := i, file := tap.file || !inUse, inUse := inUse,
              portMappings := tap.portMappings })
  | .fail => some (w, .error false)
  | .missing => some (w.dropLink tap.ip, .error true)
  | _ => none

def runDestroyTap (w : World) (i : Ifindex) : Out → Option (World × Bool)
  | .ok => if (w.links.get i).isSome then some (w.setLinks (w.links.del i), true) else none
  | .fail => some (w, false)
  | _ => none

def runPolicy (w : World) (i : Ifindex) (op : PolicyOp) : Out → Option (World × Bool)
  | .ok => some (w.setCube (op.run w.cube i).1, (op.run w.cube i).2)
  | .cut n => (op.take n).map fun op => (w.setCube (op.run w.cube i).1, false)
  | .swept gone => (op.sweep w.cube i gone).map fun c => (w.setCube c, false)
  | _ => none

def runSave (w : World) (st : PersistedState) : Out → Option (World × Bool)
  | .ok =>
    if validId st.sandboxId then some (w.setFiles (w.files.put st.sandboxId (some st)), true)
    else none
  | .truncated =>
    if validId st.sandboxId then some (w.setFiles (w.files.put st.sandboxId none), false) else none
  | .fail => some (w, false)
  | _ => none

/-- Deleting the file of a state ends its release as far as the history goes. -/
def runDeleteFile (w : World) (id : SandboxId) : Out → Option (World × Bool)
  | .ok =>
    if validId id then
      some ({ w with files := w.files.del id, releasing := w.releasing.erase id }, true)
    else none
  | .fail => some (w, false)
  | _ => none

def runListCubeTaps (w : World) : Out → Option (World × Option (List (Ifindex × Ip)))
  | .links l => if l.isPerm w.links.toPairs then some (w, some l) else none
  | .fail => some (w, none)
  | _ => none

def runListPortMapping (w : World) : Out → Option (World × Option (List (UInt16 × MvmPort)))
  | .locals l =>
    if l.isPerm w.cube.localPorts.toPairs then
      some (w, some (mergePorts w.cube.remotePorts l).toPairs)
    else none
  | .fail => some (w, none)
  | _ => none

def runDeviceLookup (w : World) (i : Ifindex) : Out → Option (World × Option (Option DeviceMeta))
  | .ok => some (w, some (w.cube.devices.get i))
  | .fail => some (w, none)
  | _ => none

def runListTapDevices (w : World) : Out → Option (World × Option (List (Ifindex × DeviceMeta)))
  | .devices l => if l.isPerm w.cube.devices.toPairs then some (w, some l) else none
  | .fail => some (w, none)
  | _ => none

/-- A file that was cut off cannot be read, and then none is. -/
def runLoadAll (w : World) : Out → Option (World × Option (List PersistedState))
  | .files l => if l.isPerm w.files.toPairs then some (w, l.mapM (·.2)) else none
  | .fail => some (w, none)
  | _ => none

def Act.run : (a : Act) → World → Out → Option (World × a.Ans)
  | .ensureEnter id, w, o => own (w.ensureEnter id).1 (w.ensureEnter id).2 o
  | .ensureExit id state, w, o => own (w.ensureExit id state) () o
  | .awaitDone ch, w, o => if w.creating.toPairs.all (·.2 ≠ ch) then own w () o else none
  | .inflight id handle, w, o => own w (w.inflight id handle) o
  | .getState id, w, o => own w (w.states.get id) o
  | .takeState id handle, w, o => own (w.takeState id handle).1 (w.takeState id handle).2 o
  | .putBack st, w, o => own (w.putBack st) () o
  | .addState st, w, o =>
    own { w with states := w.states.put st.persisted.sandboxId st } () o
  | .serve, w, o => own { w with up := true } () o
  | .dequeueTap, w, o => own w.dequeueTap.1 w.dequeueTap.2 o
  | .dequeueAbnormal, w, o => own w.dequeueAbnormal.1 w.dequeueAbnormal.2 o
  | .stageTapForPool tap, w, o => own (w.stageTapForPool tap) () o
  | .enqueueAbnormal tap stage, w, o => own (w.enqueueAbnormal tap stage) () o
  | .requeuePreparePoolFailure tap, w, o => own (w.requeuePreparePoolFailure tap) () o
  | .recoveryFailed tap missing, w, o => own (w.recoveryFailed tap missing) () o
  | .checkTapConflict ip, w, o => own w (w.checkTapConflict ip) o
  | .allocateIp, w, o => own (w.setAllocator w.allocator.allocate.2) w.allocator.allocate.1 o
  | .releaseIp ip, w, o => own (w.setAllocator (w.allocator.release ip)) () o
  | .assignIp ip, w, o => own (w.setAllocator (w.allocator.assign ip)) () o
  | .allocatePort, w, o => own (w.setPorts w.ports.allocate.2) w.ports.allocate.1 o
  | .releasePort p, w, o => own (w.setPorts (w.ports.release p)) () o
  | .assignPort p, w, o => own (w.setPorts (w.ports.assign p)) () o
  | .nextVersion, w, o => own { w with version := w.version + 1 } (w.version + 1) o
  | .ensureHostRoute, w, o => call w w o
  | .listCubeTaps, w, o => runListCubeTaps w o
  | .newTap ip, w, o => runNewTap w ip o
  | .destroyTap i, w, o => runDestroyTap w i o
  | .restoreTap tap, w, o => runRestoreTap w tap o
  | .addArpEntry, w, o => call w w o
  | .attachFilter, w, o => call w w o
  | .remoteUpdate p v, w, o => call w (w.setRemote (w.cube.remotePorts.put p v)) o
  | .remoteDelete p, w, o => call w (w.setRemote (w.cube.remotePorts.del p)) o
  | .localUpdate v p, w, o => call w (w.setLocal (w.cube.localPorts.put v p)) o
  | .localDelete v, w, o => call w (w.setLocal (w.cube.localPorts.del v)) o
  | .listPortMapping, w, o => runListPortMapping w o
  | .deviceLookup i, w, o => runDeviceLookup w i o
  | .deviceUpdate i mt, w, o => call w (w.setDevices (w.cube.devices.put i mt)) o
  | .deviceDelete i, w, o =>
    delete w (w.setDevices (w.cube.devices.del i)) (w.cube.devices.get i).isSome o
  | .listTapDevices, w, o => runListTapDevices w o
  | .ipUpdate ip i, w, o => call w (w.setIps (w.cube.ips.put ip i)) o
  | .ipDelete ip, w, o => delete w (w.setIps (w.cube.ips.del ip)) (w.cube.ips.get ip).isSome o
  | .policy i op, w, o => runPolicy w i op o
  | .save st, w, o => runSave w st o
  | .deleteFile id, w, o => runDeleteFile w id o
  | .loadAll, w, o => runLoadAll w o

abbrev Task := Conc.Prog Act.Ans

end CubeSandbox.Agent
