import CubeSandbox.Conc
import CubeSandbox.GoText
import CubeSandbox.Tbl

/-!
How CubeProxy finds the backend of a request (`sandbox_backend.lua`).

The metadata of a sandbox is a Redis hash. The workers of a proxy keep what they read in one
shared dictionary, a key for each value, and each access of the dictionary is a step of its
own. Any key may leave the dictionary between two steps, because it expired or to make room.

A key of the dictionary is the id of a sandbox, a colon and a name; an id has no colon, so a
key is modelled as the pair.
-/

namespace CubeSandbox.Backend

open GoText Conc

abbrev InsId := Bytes

/-- A Redis hash. -/
abbrev Hash := Tbl Bytes Bytes

abbrev Key := InsId × Bytes

/-- A value in the dictionary: a string, or `false`. -/
inductive CacheVal
  | str (s : Bytes)
  | no

def isNull : Option Bytes → Bool
  | none => true
  | some s => s = []

def encodeOptional (value : Option Bytes) : CacheVal :=
  match value with
  | none => .no
  | some s => if isNull value then .no else .str s

def CacheVal.decodeOptional : CacheVal → Option Bytes
  | .str s => some s
  | .no => none

def allowPublicTraffic : Bytes := ascii "AllowPublicTraffic"

def trafficAccessToken : Bytes := ascii "TrafficAccessToken"

def maskRequestHost : Bytes := ascii "MaskRequestHost"

def metaCached : Bytes := ascii "meta_cached"

def backendIpName (port : Bytes) : Bytes := port ++ ascii ":backend_ip"

def backendPortName (port : Bytes) : Bytes := port ++ ascii ":backend_port"

/-- A request after its host or path was parsed, with the two token headers. -/
structure Request where
  insId : InsId
  containerPort : Bytes
  serverAddr : Option Bytes
  e2bToken : Option Bytes
  cubeToken : Option Bytes

/-- The header that counts. -/
def Request.provided (req : Request) : Option Bytes := req.e2bToken <|> req.cubeToken

/-- `get_caller_host_ip`, with the address that the proxy is configured with. -/
def getCallerHostIp (cubeProxyHostIp : Option Bytes) (req : Request) : Bytes :=
  if !isNull cubeProxyHostIp then cubeProxyHostIp.getD []
  else if !isNull req.serverAddr then req.serverAddr.getD []
  else []

/-- `enforce_traffic_token`: whether the request may go on. -/
def enforceTrafficToken (allowPublic expectedToken provided : Option Bytes) : Bool :=
  if allowPublic ≠ some (ascii "false") then true
  else if isNull expectedToken then false
  else provided = expectedToken

/-- The backend that the metadata gives, if it is complete. -/
def backendOf (callerHostIp : Bytes) (h : Hash) (containerPort : Bytes) :
    Option (Bytes × Bytes) := do
  let targetHostIp ← h.get (ascii "HostIP")
  if targetHostIp = [] then none
  else if callerHostIp ≠ [] ∧ callerHostIp = targetHostIp then
    let targetSandboxIp ← h.get (ascii "SandboxIP")
    if targetSandboxIp = [] then none else some (targetSandboxIp, containerPort)
  else
    let hostPort ← h.get containerPort
    if hostPort = [] then none else some (targetHostIp, hostPort)

/-- What a request was forwarded with. -/
structure Used where
  hostIp : Bytes
  hostPort : Bytes
  allowPublic : Option Bytes
  trafficToken : Option Bytes
  mask : Option Bytes

/-- A request that was forwarded, and the metadata that Redis held at that moment. -/
structure Routed where
  request : Request
  used : Used
  stored : Hash

/-- The dictionary, Redis with both keys of each sandbox, and the reads and requests so far. -/
structure World where
  cache : Tbl Key CacheVal
  redis : Tbl (InsId × Bool) Hash
  reads : List (InsId × Hash)
  routed : List Routed
  refused : List (Request × Nat)

namespace World

def init : World := ⟨∅, ∅, [], [], []⟩

/-- The hash under the new or, if `legacy`, under the old key. -/
def hash (w : World) (ins : InsId) (legacy : Bool) : Hash := (w.redis.get (ins, legacy)).getD ∅

/-- The metadata of a sandbox: the legacy key counts while the new one is missing. -/
def stored (w : World) (ins : InsId) : Hash :=
  if w.hash ins false = ∅ then w.hash ins true else w.hash ins false

end World

inductive Act
  | get (k : Key)
  /-- The read of an optional value; `found` says that the request has a cached backend. -/
  | getOptional (k : Key) (found : Bool)
  | set (k : Key) (v : Option CacheVal)
  | hgetall (ins : InsId) (legacy : Bool)
  | forward (req : Request) (used : Used)
  | respond (req : Request) (status : Nat)

@[reducible] def Act.Ans : Act → Type
  | .get _ | .getOptional .. => Option CacheVal
  | .hgetall .. => Option Hash
  | .set .. | .forward .. | .respond .. => Unit

inductive Outcome
  | ok
  | fail

abbrev Task := Prog Act.Ans

/-- Storing nothing under a key deletes it. -/
def setCache (cache : Tbl Key CacheVal) (k : Key) : Option CacheVal → Tbl Key CacheVal
  | some v => cache.put k v
  | none => cache.del k

def perform (a : Act) (w : World) (o : Outcome) : Option (World × a.Ans) :=
  match a with
  | .get k => some (w, w.cache.get k)
  | .getOptional k _ => some (w, w.cache.get k)
  | .set k v =>
    match o with
    | .ok => some ({ w with cache := setCache w.cache k v }, ())
    | .fail => some (w, ())
  | .hgetall ins legacy =>
    match o with
    | .ok =>
      let h := w.hash ins legacy
      some ({ w with reads := if h = ∅ then w.reads else (ins, h) :: w.reads }, some h)
    | .fail => some (w, none)
  | .forward req used =>
    some ({ w with routed := ⟨req, used, w.stored req.insId⟩ :: w.routed }, ())
  | .respond req status => some ({ w with refused := (req, status) :: w.refused }, ())

def act (a : Act) : Task a.Ans := .perform a

/-- The tries of one key. -/
def hgetallRetry (ins : InsId) (legacy : Bool) : Nat → Task (Option Hash)
  | 0 => pure none
  | n + 1 => do
    match ← act (.hgetall ins legacy) with
    | some h => return some h
    | none => hgetallRetry ins legacy n

/-- `load_sandbox_proxy_metadata`: the new key, then the legacy one; an empty hash is none. -/
def loadSandboxProxyMetadata (ins : InsId) : Task (Option Hash) := do
  match ← hgetallRetry ins false 3 with
  | some h => if h = ∅ then loadLegacy ins else return some h
  | none => loadLegacy ins
where
  loadLegacy (ins : InsId) : Task (Option Hash) := do
    match ← hgetallRetry ins true 3 with
    | some h => if h = ∅ then return none else return some h
    | none => return none

def cacheFields (ins : InsId) : List (Bytes × Bytes) → Task Unit
  | [] => pure ()
  | (k, v) :: rest => do
    act (.set (ins, k) (some (.str v)))
    cacheFields ins rest

/-- Every value is written back with a new lifetime. -/
def refresh (req : Request) (hostIp hostPort : CacheVal)
    (allowPublic trafficToken mask : Option CacheVal) : Task Unit := do
  let ins := req.insId
  act (.set (ins, metaCached) (some (.str (ascii "1"))))
  act (.set (ins, backendIpName req.containerPort) (some hostIp))
  act (.set (ins, backendPortName req.containerPort) (some hostPort))
  act (.set (ins, allowPublicTraffic) allowPublic)
  act (.set (ins, trafficAccessToken) trafficToken)
  act (.set (ins, maskRequestHost) mask)

/-- The optional values are written so that a missing one is cached as missing. -/
def cacheOptional (ins : InsId) (h : Hash) : Task Unit := do
  act (.set (ins, allowPublicTraffic) (some (encodeOptional (h.get allowPublicTraffic))))
  act (.set (ins, trafficAccessToken) (some (encodeOptional (h.get trafficAccessToken))))
  act (.set (ins, maskRequestHost) (some (encodeOptional (h.get maskRequestHost))))

/-- The part of `resolve_backend` after a miss. -/
def resolveFromRedis (cubeProxyHostIp : Option Bytes) (req : Request) : Task Unit := do
  match ← loadSandboxProxyMetadata req.insId with
  | none => act (.respond req 503)
  | some h =>
    act (.set (req.insId, metaCached) (some (.str (ascii "1"))))
    cacheFields req.insId h.toPairs
    cacheOptional req.insId h
    if enforceTrafficToken (h.get allowPublicTraffic) (h.get trafficAccessToken)
        req.provided then
      match backendOf (getCallerHostIp cubeProxyHostIp req) h req.containerPort with
      | none => act (.respond req 404)
      | some (hostIp, hostPort) =>
        act (.set (req.insId, backendIpName req.containerPort) (some (.str hostIp)))
        act (.set (req.insId, backendPortName req.containerPort) (some (.str hostPort)))
        act (.forward req ⟨hostIp, hostPort, h.get allowPublicTraffic,
          h.get trafficAccessToken, h.get maskRequestHost⟩)
    else act (.respond req 403)

/-- The cached strings of a backend; `false` in a key counts as nothing found. -/
def found : Option CacheVal → Option Bytes
  | some (.str s) => some s
  | _ => none

/-- `resolve_backend`, and the forwarding of the request that it allows. -/
def resolveBackend (cubeProxyHostIp : Option Bytes) (req : Request) : Task Unit := do
  let ins := req.insId
  let hostIp ← act (.get (ins, backendIpName req.containerPort))
  let hostPort ← act (.get (ins, backendPortName req.containerPort))
  let hit := (found hostIp).isSome && (found hostPort).isSome
  let cachedAllowPublic ← act (.getOptional (ins, allowPublicTraffic) hit)
  let cachedTrafficToken ← act (.getOptional (ins, trafficAccessToken) hit)
  let cachedMask ← act (.getOptional (ins, maskRequestHost) hit)
  let metaPresent ← act (.get (ins, metaCached))
  match found hostIp, found hostPort, found metaPresent with
  | some ip, some port, some _ =>
    let allowPublic := cachedAllowPublic.bind CacheVal.decodeOptional
    let trafficToken := cachedTrafficToken.bind CacheVal.decodeOptional
    let mask := cachedMask.bind CacheVal.decodeOptional
    if enforceTrafficToken allowPublic trafficToken req.provided then
      refresh req (.str ip) (.str port) cachedAllowPublic cachedTrafficToken cachedMask
      act (.forward req ⟨ip, port, allowPublic, trafficToken, mask⟩)
    else act (.respond req 403)
  | _, _, _ => resolveFromRedis cubeProxyHostIp req

inductive Op
  | request (req : Request)
  /-- A key expires or is evicted. -/
  | evict (k : Key)
  /-- The hash under a key of Redis changes; an empty one is a deleted key. -/
  | write (ins : InsId) (legacy : Bool) (h : Hash)

def machine (cubeProxyHostIp : Option Bytes) : Machine Act.Ans World Outcome Op where
  act := perform
  start := fun w op =>
    match op with
    | .request req => some (w, resolveBackend cubeProxyHostIp req)
    | .evict k => some ({ w with cache := w.cache.del k }, pure ())
    | .write ins legacy h => some ({ w with redis := w.redis.put (ins, legacy) h }, pure ())
  alone := fun _ => false

end CubeSandbox.Backend
