import CubeSandbox.AgentAlloc
import CubeSandbox.Conc
import CubeSandbox.TapModel
import CubeSandbox.Tbl

/-!
The state of the network agent and the actions it is changed by (`local_service.go`,
`tap_lifecycle.go`, `netdevice.go`, `state_store.go`).

An action is what happens at one moment: a critical section of the service lock, a call of an
allocator, one system call on devices or files, one operation on a kernel map. Its outcome is
chosen by the environment, and failing is always among the choices for a call into the kernel.
TAP names are made from the address, so that the address stands for the name.
-/

namespace CubeSandbox.Agent

open Vs Lpm GoText Pol

deriving instance DecidableEq for Pol.MvmOptions

abbrev Ifindex := UInt32
abbrev SandboxId := Bytes

structure PortMapping where
  protocol : Bytes
  hostIp : Bytes
  hostPort : Int32
  containerPort : Int32
  deriving DecidableEq

def uint16 (x : Int32) : UInt16 := x.toUInt32.toUInt16

def int32 (p : UInt16) : Int32 := p.toUInt32.toInt32

def PortMapping.host (m : PortMapping) : UInt16 := uint16 m.hostPort
def PortMapping.container (m : PortMapping) : UInt16 := uint16 m.containerPort

/-- Where the life of an abnormal TAP went wrong. -/
inductive Stage
  | preparePool
  | recoverRestore
  | recoverCleanup
  | retryRestore
  deriving DecidableEq

structure TapDevice where
  ip : Ip
  index : Ifindex
  /-- Whether the agent has the device open. -/
  file : Bool := false
  inUse : Bool := false
  portMappings : List PortMapping := []
  failureCount : Nat := 0
  lastStage : Option Stage := none

structure PersistedState where
  sandboxId : SandboxId
  networkHandle : SandboxId
  tapIfIndex : Ifindex
  sandboxIp : Ip
  portMappings : List PortMapping
  /-- The configuration of the network, as the options that are made of it for cubevs. -/
  config : Option MvmOptions
  deriving DecidableEq

structure ManagedState where
  persisted : PersistedState
  tap : Option TapDevice
  policyKnown : Bool

/-- A state file, or what is left of one that could not be written to its end. -/
abbrev FileContent := Option PersistedState

/-! ### The maps of cubevs -/

structure DeviceMeta where
  ip : Ip
  id : SandboxId
  version : UInt32
  dnsPolicyFlags : UInt8
  deriving DecidableEq

/-- The maps that the agent writes. A device whose inner map is missing has an empty one. -/
structure CubeVs where
  remotePorts : Tbl UInt16 MvmPort
  localPorts : Tbl MvmPort UInt16
  devices : Tbl Ifindex DeviceMeta
  ips : Tbl Ip Ifindex
  allowOut : Ifindex → Trie NetPolicyValueV2
  denyOut : Ifindex → Trie UInt32
  dnsAllow : Ifindex → Trie DnsAllowValue

def CubeVs.empty : CubeVs := ⟨∅, ∅, ∅, ∅, fun _ => .empty, fun _ => .empty, fun _ => .empty⟩

/-- One operation on the policy maps of a device. -/
inductive PolicyOp
  | flushAllow
  | flushDeny
  | flushDns
  | putAllow (entries : List (Flagged LpmKey))
  | putDns (rules : List (Flagged Bytes))
  | putDeny (entries : List DenyEntry)

structure Config where
  cidr : Ip
  mask : Nat
  mask_ok : sandboxCidrMinMask ≤ mask ∧ mask ≤ sandboxCidrMaxMask
  /-- How many addresses at the end of the block are kept for the router. -/
  keepLast : Nat
  reservedPorts : List UInt16
  hostProxyBindIp : Bytes
  tapInitNum : Nat

structure World where
  cfg : Config
  /-- The TAP devices of the host, under their names. -/
  links : Tbl Ifindex Ip
  cube : CubeVs
  files : Tbl SandboxId FileContent
  /-- Whether the service answers requests. -/
  up : Bool
  states : Tbl SandboxId ManagedState
  tapPool : List TapDevice
  abnormalTapPool : List TapDevice
  quarantinedTaps : Tbl Ip TapDevice
  /-- The channels that creations in flight close when they are done. -/
  creating : Tbl SandboxId Nat
  nextChan : Nat
  allocator : IpAllocator
  ports : PortAllocator
  version : UInt32
  /-- The sandboxes whose state a release has taken out; no program reads it. -/
  releasing : List SandboxId

def World.linkByName (w : World) (ip : Ip) : Option Ifindex := w.links.keyOf ip

/-- The memory of a service that was just started; the kernel and the disk stay. -/
def World.reboot (w : World) : World :=
  { w with
    up := false
    states := ∅
    tapPool := []
    abnormalTapPool := []
    quarantinedTaps := ∅
    creating := ∅
    nextChan := 0
    allocator := .new w.cfg.cidr w.cfg.mask w.cfg.keepLast w.cfg.mask_ok
    ports := .new w.cfg.reservedPorts
    version := 0
    releasing := [] }

/-- A service that has recovered on a host without devices, files and map entries. -/
def World.fresh (cfg : Config) : World where
  cfg := cfg
  links := ∅
  cube := .empty
  files := ∅
  up := true
  states := ∅
  tapPool := []
  abnormalTapPool := []
  quarantinedTaps := ∅
  creating := ∅
  nextChan := 0
  allocator := .new cfg.cidr cfg.mask cfg.keepLast cfg.mask_ok
  ports := .new cfg.reservedPorts
  version := 0
  releasing := []

/-! ### Critical sections of the service lock -/

/-- What a request finds under its id. -/
inductive Entry
  | existing (st : ManagedState)
  | wait (ch : Nat)
  | creator (ch : Nat)

namespace World

variable (w : World)

/-- The first critical section of `EnsureNetwork`. -/
def ensureEnter (id : SandboxId) : World × Entry :=
  match w.states.get id with
  | some st => (w, .existing st)
  | none =>
    match w.creating.get id with
    | some ch => (w, .wait ch)
    | none =>
      ({ w with creating := w.creating.put id w.nextChan, nextChan := w.nextChan + 1 },
        .creator w.nextChan)

/-- The last critical section of `EnsureNetwork`, which also closes the channel. -/
def ensureExit (id : SandboxId) (state : Option ManagedState) : World :=
  let w := { w with creating := w.creating.del id }
  match state with
  | some st => { w with states := w.states.put st.persisted.sandboxId st }
  | none => w

/-- The critical section of `waitForInflightCreation`. -/
def inflight (id handle : SandboxId) : Option Nat :=
  let done := if id ≠ [] then w.creating.get id else none
  if done.isNone ∧ handle ≠ [] then w.creating.get handle else done

def lookupState (id handle : SandboxId) : Option ManagedState :=
  if id ≠ [] then w.states.get id
  else if handle ≠ [] then w.states.get handle
  else none

/-- The critical section of `ReleaseNetwork`. -/
def takeState (id handle : SandboxId) : World × Option ManagedState :=
  match w.lookupState id handle with
  | none => (w, none)
  | some st =>
    ({ w with
        states := w.states.del st.persisted.sandboxId
        releasing := st.persisted.sandboxId :: w.releasing }, some st)

def putBack (st : ManagedState) : World :=
  { w with
    states := w.states.put st.persisted.sandboxId st
    releasing := w.releasing.erase st.persisted.sandboxId }

def dequeueTap : World × Option TapDevice :=
  match w.tapPool with
  | [] => (w, none)
  | tap :: rest => ({ w with tapPool := rest }, some tap)

def dequeueAbnormal : World × Option TapDevice :=
  match w.abnormalTapPool with
  | [] => (w, none)
  | tap :: rest => ({ w with abnormalTapPool := rest }, some tap)

/-- `stageTapForPoolLocked` and `enqueueTapLocked`. -/
def stageTapForPool (tap : TapDevice) : World :=
  { w with
    quarantinedTaps := w.quarantinedTaps.del tap.ip
    tapPool := w.tapPool ++
      [{ tap with
          file := false
          inUse := false
          portMappings := []
          failureCount := 0
          lastStage := none }] }

def enqueueAbnormal (tap : TapDevice) (stage : Stage) : World :=
  { w with
    abnormalTapPool := w.abnormalTapPool ++
      [{ tap with failureCount := tap.failureCount + 1, lastStage := some stage }] }

def maxAbnormalRecoveryAttempts : Nat := 3

/-- The record forgets its port mappings, whether or not they were cleared. -/
def requeuePreparePoolFailure (tap : TapDevice) : World :=
  let tap :=
    { tap with
      file := false
      inUse := false
      portMappings := []
      failureCount := tap.failureCount + 1
      lastStage := some .preparePool }
  if tap.failureCount ≥ maxAbnormalRecoveryAttempts then
    { w with quarantinedTaps := w.quarantinedTaps.put tap.ip tap }
  else { w with abnormalTapPool := w.abnormalTapPool ++ [tap] }

/-- The critical section of `handleAbnormalTaps` after a failed recovery. -/
def recoveryFailed (tap : TapDevice) (missing : Bool) : World :=
  let retryStage := if tap.lastStage = some .recoverCleanup then Stage.recoverCleanup
    else .retryRestore
  let tap := { tap with failureCount := tap.failureCount + 1, lastStage := some retryStage }
  if missing then { w with allocator := w.allocator.release tap.ip }
  else if tap.failureCount ≥ maxAbnormalRecoveryAttempts then
    { w with quarantinedTaps := w.quarantinedTaps.put tap.ip tap }
  else w.enqueueAbnormal tap retryStage

/-- `checkTapConflict`: whether nothing refers to the device of an address. -/
def checkTapConflict (ip : Ip) : Bool :=
  w.states.toPairs.all (fun e => e.2.persisted.sandboxIp ≠ ip) &&
    w.tapPool.all (fun t => t.ip ≠ ip) &&
    w.abnormalTapPool.all (fun t => t.ip ≠ ip) &&
    w.quarantinedTaps.toPairs.all (fun e => e.2.ip ≠ ip)

end World

end CubeSandbox.Agent
