import CubeSandbox.AgentProg

/-!
Recovery of the network agent at its start (`recover`), and the service as a machine whose
operations run side by side.
-/

namespace CubeSandbox.Agent

open Vs GoText Pol

def assignPorts : List UInt16 → Task Unit
  | [] => pure ()
  | p :: ps => do
    act (.assignPort p)
    assignPorts ps

def addPortMappings (i : Ifindex) : List PortMapping → Task Bool
  | [] => pure true
  | m :: ms => andThen (addPortMapping i m.container m.host) (addPortMappings i ms)

/-- The open device of a state, restored if need be. -/
def reopenTap (st : ManagedState) : Task (Option ManagedState) :=
  if (st.tap.map (·.file)).getD false then pure (some st)
  else do
    match ← act (.restoreTap st.tapRecord) with
    | .error _ => return none
    | .ok tap => return some { st with tap := some tap }

def reconcileRuntimeState (st : ManagedState) : Task (Option ManagedState) := do
  if ← act .ensureHostRoute then
    match ← reopenTap st with
    | none => return none
    | some st => do
      act (.assignIp st.persisted.sandboxIp)
      assignPorts (st.persisted.portMappings.map (·.host))
      if ← andThen (act .addArpEntry)
          (addPortMappings st.persisted.tapIfIndex st.persisted.portMappings) then return some st
      else return none
  else return none

def upsertCubeVSTapMeta (i : Ifindex) (ip : Ip) (id : SandboxId) : Task Bool := do
  let version ← act .nextVersion
  upsertTapDeviceMeta i ip id version

/-- A lookup that fails leaves the registration as it is. -/
def refreshCubeVSTapForRecover (st : PersistedState) : Task Bool :=
  andThen (act .attachFilter) do
    match ← act (.deviceLookup st.tapIfIndex) with
    | some none => upsertCubeVSTapMeta st.tapIfIndex st.sandboxIp st.sandboxId
    | _ => return true

def reconcileRecoveredState (st : ManagedState) : Task (Option ManagedState) := do
  match ← reconcileRuntimeState st with
  | none => return none
  | some st =>
    if ← refreshCubeVSTapForRecover st.persisted then return some st else return none

/-- What the recovery has read before it looks at the devices. -/
structure Found where
  states : List PersistedState
  live : List (UInt16 × MvmPort)
  devices : List (Ifindex × DeviceMeta)

/-- `mappingsByIfindex`. -/
def Found.mappings (f : Found) (bindIp : Bytes) (i : Ifindex) : List PortMapping :=
  (f.live.filter fun e => e.2.ifindex = i).map fun e =>
    { protocol := ascii "tcp", hostIp := bindIp, hostPort := int32 e.1
      containerPort := int32 e.2.listenPort }

/-- `statesByTapName`: the last file that names the device. -/
def Found.stateOf (f : Found) (ip : Ip) : Option PersistedState :=
  f.states.reverse.find? fun st => st.sandboxIp = ip

/-- `liveCubeVSTapsByIP`. -/
def Found.deviceOf (f : Found) (ip : Ip) : Option (Ifindex × DeviceMeta) :=
  f.devices.reverse.find? fun d => d.2.ip = ip

def decimal (n : Nat) : Bytes := ascii (toString n)

def tapName (ip : Ip) : Bytes :=
  let n := ip.toNat
  ascii "z" ++ decimal (n / 2 ^ 24) ++ ascii "." ++ decimal (n / 2 ^ 16 % 256) ++ ascii "." ++
    decimal (n / 2 ^ 8 % 256) ++ ascii "." ++ decimal (n % 256)

/-- The state of a device that has a file. Mappings that are live win over those of the file. -/
def managedState (st : PersistedState) (tap : TapDevice) : ManagedState where
  persisted :=
    { st with
      tapIfIndex := tap.index
      sandboxIp := tap.ip
      portMappings := if tap.portMappings.isEmpty then st.portMappings else tap.portMappings }
  tap := some tap
  policyKnown := st.config.isSome

def buildRecoveredState (tap : TapDevice) (device : DeviceMeta) : ManagedState :=
  let sandboxId := if device.id ≠ [] then device.id else tapName tap.ip
  { persisted :=
      { sandboxId := sandboxId
        networkHandle := sandboxId
        tapIfIndex := tap.index
        sandboxIp := tap.ip
        portMappings := tap.portMappings
        config := none }
    tap := some tap
    policyKnown := false }

/-- A device that no file names becomes a state if it is in use and registered, and is cleaned and
pooled otherwise. The answer is an error, or the id recovered. -/
def recoverUnnamed (f : Found) (restored : TapDevice) : Task (Option (Option SandboxId)) :=
  match f.deviceOf restored.ip with
  | some (_, device) =>
    if restored.inUse then do
      match ← reconcileRecoveredState (buildRecoveredState restored device) with
      | none => return none
      | some st =>
        if ← act (.save st.persisted) then
          act (.addState st)
          return some (some st.persisted.sandboxId)
        else return none
    else do
      let (restored, cleaned) ← clearAndCleanup restored
      if cleaned then
        prepareOrRequeue restored
        return some none
      else
        act (.enqueueAbnormal restored .recoverCleanup)
        return some none
  | none => do
    prepareOrRequeue restored
    return some none

/-- One device of the first loop of `recover`. -/
def recoverTap (bindIp : Bytes) (f : Found) (i : Ifindex) (ip : Ip) :
    Task (Option (Option SandboxId)) := do
  act (.assignIp ip)
  let tap : TapDevice := { ip := ip, index := i, portMappings := f.mappings bindIp i }
  match ← act (.restoreTap tap) with
  | .error _ => do
    act (.enqueueAbnormal tap .recoverRestore)
    return some none
  | .ok restored =>
    let restored := { restored with portMappings := f.mappings bindIp restored.index }
    match f.stateOf restored.ip with
    | some st => do
      match ← reconcileRecoveredState (managedState st restored) with
      | none => return none
      | some st => do
        act (.addState st)
        return some (some st.persisted.sandboxId)
    | none => recoverUnnamed f restored

/-- The ids recovered, or an error. -/
def recoverTaps (bindIp : Bytes) (f : Found) :
    List (Ifindex × Ip) → List SandboxId → Task (Option (List SandboxId))
  | [], recovered => pure (some recovered)
  | (i, ip) :: taps, recovered => do
    match ← recoverTap bindIp f i ip with
    | none => return none
    | some id => recoverTaps bindIp f taps (id.toList ++ recovered)

/-- The entries of a sandbox whose device is not on the host. -/
def staleTap (bindIp : Bytes) (f : Found) (st : PersistedState) (i : Ifindex) : TapDevice :=
  let live := f.mappings bindIp i
  { ip := st.sandboxIp, index := i
    portMappings := if live.isEmpty then st.portMappings else live }

def dropStaleState (bindIp : Bytes) (f : Found) (st : PersistedState) : Task Bool :=
  match f.deviceOf st.sandboxIp with
  | some (i, _) => do
    let (_, cleaned) ← clearAndCleanup (staleTap bindIp f st i)
    if cleaned then act (.deleteFile st.sandboxId) else return false
  | none => act (.deleteFile st.sandboxId)

/-- The second loop of `recover`. -/
def dropStaleStates (bindIp : Bytes) (f : Found) (recovered : List SandboxId) :
    List PersistedState → Task Bool
  | [] => pure true
  | st :: sts =>
    if st.sandboxId ∈ recovered then dropStaleStates bindIp f recovered sts
    else andThen (dropStaleState bindIp f st) (dropStaleStates bindIp f recovered sts)

def recover (bindIp : Bytes) : Task Bool := do
  match ← act .loadAll with
  | none => return false
  | some states =>
    match ← act .listCubeTaps with
    | none => return false
    | some taps =>
      match ← act .listPortMapping with
      | none => return false
      | some live => do
        assignPorts (live.map (·.1))
        match ← act .listTapDevices with
        | none => return false
        | some devices =>
          let f : Found := ⟨states, live, devices⟩
          match ← recoverTaps bindIp f taps [] with
          | none => return false
          | some recovered => dropStaleStates bindIp f recovered states

/-- The service answers once it has recovered; otherwise it ends. -/
def bootService (bindIp : Bytes) : Task Unit := do
  if ← recover bindIp then act .serve else return

inductive Op
  | ensure (req : EnsureRequest)
  | release (id handle : SandboxId)
  | maintain (n : Nat)
  | warmup
  | restart
  deriving DecidableEq

def discard {α : Type} (p : Task α) : Task Unit := do
  let _ ← p
  return

/-- The program of an operation on a service that answers. -/
def program (cfg : Config) : Op → Task Unit
  | .ensure req => discard (ensureNetwork cfg.hostProxyBindIp req)
  | .release id handle => discard (releaseNetwork id handle)
  | .maintain n => handleAbnormalTaps cfg.tapInitNum n false
  | .warmup => ensureTapInventory cfg.tapInitNum
  | .restart => bootService cfg.hostProxyBindIp

/-- A restart loses the memory of the service and happens while no operation is in flight. -/
def machine : Conc.Machine Act.Ans World Out Op where
  act := Act.run
  start w
    | .restart => some (w.reboot, program w.cfg .restart)
    | op => if w.up then some (w, program w.cfg op) else none
  alone op := op = .restart

abbrev Conf := Conc.Config Act.Ans World

abbrev Event := Conc.Ev Out Op

def step : Conf → Event → Option Conf := machine.step

end CubeSandbox.Agent
