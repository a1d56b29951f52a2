import CubeSandbox.AgentActs

/-!
The programs of the network agent: the calls into cubevs (`tap.go`, `port.go`, `netpolicy.go`),
the life of a TAP device (`tap_lifecycle.go`) and the operations of the service
(`local_service.go`).

A record that the source changes in place is handed over and returned. Logging, the policies
of the egress proxy, routes and neighbours have no part in the state and are left out where
they cannot fail an operation.
-/

namespace CubeSandbox.Agent

open Vs GoText Pol

def act (a : Act) : Task a.Ans := .perform a

/-- Go on unless the call before failed. -/
def andThen (p q : Task Bool) : Task Bool := do
  if ← p then q else pure false

/-! ### Calls into cubevs -/

def addPortMapping (i : Ifindex) (listenPort hostPort : UInt16) : Task Bool :=
  andThen (act (.remoteUpdate hostPort ⟨i, listenPort⟩))
    (act (.localUpdate ⟨i, listenPort⟩ hostPort))

/-- Keys that are not there count as deleted. -/
def delPortMapping (i : Ifindex) (listenPort hostPort : UInt16) : Task Bool :=
  andThen (act (.localDelete ⟨i, listenPort⟩)) (act (.remoteDelete hostPort))

def cleanupNetPolicy (i : Ifindex) : Task Bool :=
  andThen (act (.policy i .flushAllow)) (act (.policy i .flushDeny))

def cleanupDnsAllow (i : Ifindex) : Task Bool := act (.policy i .flushDns)

def prepareTapDevicePolicy (i : Ifindex) : Task Bool :=
  andThen (cleanupNetPolicy i) <|
  andThen (cleanupDnsAllow i) <|
  act (.policy i (.putDeny alwaysDeniedSandboxEntries))

/-- The address of an earlier registration goes when it is another one. -/
def dropOldIp (old : Option DeviceMeta) (ip : Ip) : Task Bool :=
  let oldMvmIp := (old.map (·.ip)).getD 0
  if oldMvmIp ≠ 0 ∧ oldMvmIp ≠ ip then do return (← act (.ipDelete oldMvmIp)) ≠ DelRes.fail
  else pure true

def upsertTapDeviceMeta (i : Ifindex) (ip : Ip) (id : SandboxId) (version : UInt32) :
    Task Bool :=
  if id.length > Tap.maxIdLength then pure false
  else do
    match ← act (.deviceLookup i) with
    | none => return false
    | some old =>
      let flags := (old.map (·.dnsPolicyFlags)).getD 0
      andThen (act (.deviceUpdate i ⟨ip, id, version, flags⟩)) <|
        andThen (dropOldIp old ip) (act (.ipUpdate ip i))

def setDnsPolicyFlags (i : Ifindex) (flags : UInt8) : Task Bool := do
  match ← act (.deviceLookup i) with
  | some (some mt) =>
    if mt.dnsPolicyFlags = flags then return true
    else act (.deviceUpdate i { mt with dnsPolicyFlags := flags })
  | _ => return false

/-- A list of entries is written unless it is empty. -/
def putPolicy (i : Ifindex) (empty : Bool) (op : PolicyOp) : Task Bool :=
  if empty then pure true else act (.policy i op)

/-- `applyNetPolicy`, which does not replace what is there. -/
def applyNetPolicy (i : Ifindex) (opts : MvmOptions) : Task Bool :=
  match buildNetPolicyPlan opts with
  | .error _ => pure false
  | .ok plan =>
    andThen (putPolicy i plan.allowOutEntries.isEmpty (.putAllow plan.allowOutEntries)) <|
    andThen (putPolicy i plan.dnsAllowRules.isEmpty (.putDns plan.dnsAllowRules)) <|
    andThen (putPolicy i plan.denyOutEntries.isEmpty (.putDeny plan.denyOutEntries)) <|
    if plan.dnsPolicyFlags = 0 then pure true else setDnsPolicyFlags i plan.dnsPolicyFlags

def delTapDevice (i : Ifindex) (ip : Ip) : Task DelRes := do
  if ← andThen (cleanupNetPolicy i) (cleanupDnsAllow i) then
    match ← act (.deviceDelete i) with
    | .ok => act (.ipDelete ip)
    | r => return r
  else return .fail

def addTapDevice (i : Ifindex) (ip : Ip) (id : SandboxId) (version : UInt32)
    (opts : MvmOptions) : Task Bool := do
  if ← upsertTapDeviceMeta i ip id version then
    if ← applyNetPolicy i opts then return true
    else do
      let _ ← delTapDevice i ip
      return false
  else return false

/-! ### Port mappings and pools -/

/-- Errors of the agent. Those of a failed cleanup are marked. -/
inductive TapErr
  | plain
  | cleanup

/-- The loop of `clearPortMappings`: what could not be deleted remains. -/
def clearLoop (i : Ifindex) : List PortMapping → Task (List PortMapping)
  | [] => pure []
  | m :: ms => do
    if ← delPortMapping i m.container m.host then
      act (.releasePort m.host)
      clearLoop i ms
    else do
      let remaining ← clearLoop i ms
      return m :: remaining

/-- The record afterwards, and whether nothing remained. -/
def clearPortMappings (tap : TapDevice) : Task (TapDevice × Bool) := do
  let remaining ← clearLoop tap.index tap.portMappings
  return ({ tap with portMappings := remaining }, remaining.isEmpty)

def cleanupCubeVSTap (i : Ifindex) (ip : Ip) : Task Bool := do
  return (← delTapDevice i ip) ≠ .fail

/-- Both cleanups of a rollback run, whether or not the first one fails. -/
def clearAndCleanup (tap : TapDevice) : Task (TapDevice × Bool) := do
  let (tap, cleared) ← clearPortMappings tap
  let cleaned ← cleanupCubeVSTap tap.index tap.ip
  return (tap, cleared && cleaned)

/-- The port of a mapping: an explicit one is taken as it is. -/
def choosePort (hostPort : Int32) : Task (Option UInt16) :=
  if hostPort = 0 then act .allocatePort
  else do
    act (.assignPort (uint16 hostPort))
    return some (uint16 hostPort)

def nonEmpty (value fallback : Bytes) : Bytes := if value ≠ [] then value else fallback

/-- The rollback of `configurePortMappings`. -/
def configureFailed (tap : TapDevice) :
    Task (TapDevice × Except TapErr (List PortMapping)) := do
  let (tap, cleared) ← clearPortMappings tap
  return (tap, .error (if cleared then .plain else .cleanup))

/-- `configurePortMappings`, from the mappings made so far. -/
def configureLoop (bindIp : Bytes) : TapDevice → List PortMapping → List PortMapping →
    Task (TapDevice × Except TapErr (List PortMapping))
  | tap, actual, [] => pure (tap, .ok actual)
  | tap, actual, m :: ms => do
    match ← choosePort m.hostPort with
    | none => configureFailed tap
    | some p =>
      if ← addPortMapping tap.index m.container p then
        let actual := actual ++
          [{ protocol := nonEmpty m.protocol (ascii "tcp")
             hostIp := nonEmpty m.hostIp bindIp
             hostPort := int32 p
             containerPort := m.containerPort }]
        configureLoop bindIp { tap with portMappings := actual } actual ms
      else if m.hostPort = 0 then do
        act (.releasePort p)
        configureFailed tap
      else configureFailed tap

def configurePortMappings (bindIp : Bytes) (tap : TapDevice) (requested : List PortMapping) :
    Task (TapDevice × Except TapErr (List PortMapping)) :=
  configureLoop bindIp tap [] requested

def prepareTapForPool (tap : TapDevice) : Task Bool := prepareTapDevicePolicy tap.index

/-- On success the record is in the pool; on an error it is returned. -/
def prepareAndStageTapForPool (tap : TapDevice) : Task (Option (TapErr × TapDevice)) := do
  let (tap, cleared) ← clearPortMappings tap
  if cleared then
    if ← prepareTapForPool tap then
      act (.stageTapForPool tap)
      return none
    else return some (.plain, tap)
  else return some (.cleanup, tap)

def enqueueCleanupFailedTap (tap : TapDevice) : Task Unit :=
  act (.enqueueAbnormal tap .recoverCleanup)

def enqueuePrepareFailedTap (tap : TapDevice) : TapErr → Task Unit
  | .cleanup => enqueueCleanupFailedTap tap
  | .plain => act (.requeuePreparePoolFailure tap)

/-- `prepareAndStageTapForPool` with the failed record queued. -/
def recycleTap (tap : TapDevice) : Task Unit := do
  match ← prepareAndStageTapForPool tap with
  | none => return
  | some (e, tap) => enqueuePrepareFailedTap tap e

def destroyAndRelease (i : Ifindex) (ip : Ip) : Task Unit := do
  let _ ← act (.destroyTap i)
  act (.releaseIp ip)

def releaseAcquiredTap (tap : TapDevice) (fromPool : Bool) : Task Unit :=
  if fromPool then recycleTap tap else destroyAndRelease tap.index tap.ip

def createPoolTap : Task Bool := do
  match ← act .allocateIp with
  | none => return false
  | some ip =>
    match ← act (.newTap ip) with
    | none => do
      act (.releaseIp ip)
      return false
    | some tap =>
      match ← prepareAndStageTapForPool tap with
      | none => return true
      | some (_, tap) => do
        destroyAndRelease tap.index ip
        return false

def createPoolTaps : Nat → Task Unit
  | 0 => pure ()
  | n + 1 => do
    if ← createPoolTap then createPoolTaps n else return

def ensureTapInventory (tapInitNum : Nat) : Task Unit :=
  if tapInitNum = 0 then pure ()
  else do
    match ← act .listCubeTaps with
    | none => return
    | some taps => createPoolTaps (tapInitNum - taps.length)

/-! ### Abnormal devices -/

/-- The stage is that of the old record; port mappings are cleared on the restored one. -/
def tryRecoverAbnormalTap (tap : TapDevice) : Task (Except Bool TapDevice) := do
  match ← act (.restoreTap tap) with
  | .error missing => return .error missing
  | .ok restored =>
    if tap.lastStage = some .recoverCleanup then
      let (restored, cleared) ← clearPortMappings restored
      if cleared then
        if ← cleanupCubeVSTap restored.index restored.ip then return .ok restored
        else return .error false
      else return .error false
    else return .ok restored

/-- A record that could not be prepared is queued again as one whose mappings are cleared. -/
def prepareOrRequeue (tap : TapDevice) : Task Unit := do
  match ← prepareAndStageTapForPool tap with
  | none => return
  | some (_, tap) => act (.requeuePreparePoolFailure tap)

/-- One device of `handleAbnormalTaps`; the answer tells whether it was missing. -/
def handleAbnormalTap (tap : TapDevice) : Task Bool :=
  if tap.lastStage = some .preparePool then do
    prepareOrRequeue tap
    return false
  else do
    match ← tryRecoverAbnormalTap tap with
    | .error missing => do
      act (.recoveryFailed tap missing)
      return missing
    | .ok restored => do
      prepareOrRequeue restored
      return false

/-- `handleAbnormalTaps`, for at most `n` devices. -/
def handleAbnormalTaps (tapInitNum : Nat) : Nat → Bool → Task Unit
  | 0, missingReleased => if missingReleased then ensureTapInventory tapInitNum else pure ()
  | n + 1, missingReleased => do
    match ← act .dequeueAbnormal with
    | none => if missingReleased then ensureTapInventory tapInitNum else return
    | some tap => do
      let missing ← handleAbnormalTap tap
      handleAbnormalTaps tapInitNum n (missingReleased || missing)

/-! ### Creation -/

structure EnsureRequest where
  sandboxId : SandboxId
  portMappings : List PortMapping
  config : Option MvmOptions
  deriving DecidableEq

/-- Insert a mapping into a list sorted by container port, over one of the same port. -/
def insertMapping (m : PortMapping) : List PortMapping → List PortMapping
  | [] => [m]
  | x :: xs =>
    if m.containerPort < x.containerPort then m :: x :: xs
    else if m.containerPort = x.containerPort then m :: xs
    else x :: insertMapping m xs

def normalizePortMappings (bindIp : Bytes) (req : List PortMapping) : List PortMapping :=
  req.foldl (fun acc m =>
    if m.containerPort = 0 then acc
    else insertMapping
      { m with hostIp := nonEmpty m.hostIp bindIp, protocol := nonEmpty m.protocol (ascii "tcp") }
      acc) []

/-- Whether the way to a new device of the address is free. -/
def cleanupConflictingTap (ip : Ip) : Task Bool := do
  match ← act .listCubeTaps with
  | none => return false
  | some taps =>
    match taps.find? fun l => l.2 = ip with
    | none => return true
    | some (i, _) => andThen (act (.checkTapConflict ip)) (act (.destroyTap i))

/-- A new device of an address, which is given up on any error. -/
def createTap (ip : Ip) : Task (Option TapDevice) := do
  if ← cleanupConflictingTap ip then
    match ← act (.newTap ip) with
    | none => do
      act (.releaseIp ip)
      return none
    | some tap =>
      if ← prepareTapForPool tap then return some tap
      else do
        destroyAndRelease tap.index ip
        return none
  else do
    act (.releaseIp ip)
    return none

/-- The device, and whether it comes from the pool. -/
def acquireTap : Task (Option (TapDevice × Bool)) := do
  match ← act .dequeueTap with
  | some tap => return some (tap, true)
  | none =>
    match ← act .allocateIp with
    | none => return none
    | some ip => return (← createTap ip).map fun tap => (tap, false)

/-- What `createState` does after a failure once port mappings are made. -/
def rollback (tap : TapDevice) (fromPool : Bool) : Task Unit := do
  let (tap, cleaned) ← clearAndCleanup tap
  if cleaned then releaseAcquiredTap tap fromPool else enqueueCleanupFailedTap tap

def registerCubeVSTap (tap : TapDevice) (req : EnsureRequest) : Task Bool := do
  let version ← act .nextVersion
  addTapDevice tap.index tap.ip req.sandboxId version (req.config.getD ⟨none, none, none, none⟩)

def newState (tap : TapDevice) (req : EnsureRequest) (actual : List PortMapping) :
    ManagedState where
  persisted :=
    { sandboxId := req.sandboxId
      networkHandle := req.sandboxId
      tapIfIndex := tap.index
      sandboxIp := tap.ip
      portMappings := actual
      config := req.config }
  tap := some tap
  policyKnown := true

/-- Registration and the state file, once the port mappings are made. -/
def finishState (tap : TapDevice) (fromPool : Bool) (req : EnsureRequest)
    (actual : List PortMapping) : Task (Option ManagedState) := do
  if ← registerCubeVSTap tap req then
    if ← act (.save (newState tap req actual).persisted) then
      return some (newState tap req actual)
    else do
      rollback tap fromPool
      return none
  else do
    rollback tap fromPool
    return none

def createState (bindIp : Bytes) (req : EnsureRequest) : Task (Option ManagedState) := do
  if ← act .ensureHostRoute then
    match ← acquireTap with
    | none => return none
    | some (tap, fromPool) =>
      match ← configurePortMappings bindIp tap (normalizePortMappings bindIp req.portMappings) with
      | (tap, .ok actual) => finishState tap fromPool req actual
      | (tap, .error .cleanup) => do
        enqueueCleanupFailedTap tap
        return none
      | (tap, .error .plain) => do
        releaseAcquiredTap tap fromPool
        return none
  else return none

/-- The answer is the state, or an error. -/
def ensureNetwork (bindIp : Bytes) (req : EnsureRequest) : Task (Option PersistedState) := do
  match ← act (.ensureEnter req.sandboxId) with
  | .existing st => return some st.persisted
  | .wait ch => do
    act (.awaitDone ch)
    return (← act (.getState req.sandboxId)).map (·.persisted)
  | .creator _ => do
    let state ← createState bindIp req
    act (.ensureExit req.sandboxId state)
    return state.map (·.persisted)

/-! ### Release -/

/-- The record of a state, with the mappings of the state. -/
def ManagedState.tapRecord (st : ManagedState) : TapDevice :=
  match st.tap with
  | none =>
    { ip := st.persisted.sandboxIp
      index := st.persisted.tapIfIndex
      portMappings := st.persisted.portMappings }
  | some tap => { tap with portMappings := st.persisted.portMappings }

/-- The state as it is left, and whether the release went through. -/
def releaseState (st : ManagedState) : Task (ManagedState × Bool) := do
  let (tap, cleared) ← clearPortMappings st.tapRecord
  let st := { st with tap := some tap }
  if cleared then
    if ← cleanupCubeVSTap st.persisted.tapIfIndex st.persisted.sandboxIp then
      if ← act (.deleteFile st.persisted.sandboxId) then
        recycleTap tap
        return (st, true)
      else return (st, false)
    else return (st, false)
  else return (st, false)

def waitForInflightCreation (id handle : SandboxId) : Task Unit := do
  match ← act (.inflight id handle) with
  | none => return
  | some ch => act (.awaitDone ch)

/-- The answer tells whether the network is released. -/
def releaseNetwork (id handle : SandboxId) : Task Bool := do
  waitForInflightCreation id handle
  match ← act (.takeState id handle) with
  | none => return true
  | some st =>
    match ← releaseState st with
    | (_, true) => return true
    | (st, false) => do
      act (.putBack st)
      return false

end CubeSandbox.Agent
