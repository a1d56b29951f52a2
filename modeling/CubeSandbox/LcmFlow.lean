import CubeSandbox.Conc
import CubeSandbox.LcmModel

/-!
The transitions of a sandbox between running and paused: the sweeper that pauses and kills
(`sweeper/sweeper.go`), the resumer (`resumer/resumer.go`), the state events of CubeMaster
(`statesync/handler.go`), the pushes to the proxies (`proxypush/client.go`, `main.go`) and what
a proxy does with them (`admin_phase.lua`, `sandbox_state.lua`).

Any number of managers share the state keys in Redis, the stream, CubeMaster and the proxies.
A call to CubeMaster and the end of it are two actions, so that calls overlap. The clock only
moves forward. Durations are milliseconds; the interface bounds a timeout to 32 bits, so the
products of the sweeper stay within 64.
-/

namespace CubeSandbox.Flow

open GoText Conc Lcm

abbrev ManagerId := Nat

/-- The values of a state key and the states that are pushed to the proxies. -/
inductive LState
  | running
  | pausing
  | paused
  | resuming
  | killing
  | killed
  deriving DecidableEq

inductive Phase
  | running
  | paused
  | gone
  deriving DecidableEq

inductive Call
  | pause
  | resume
  | kill
  deriving DecidableEq

def Call.target : Call → Phase
  | pause => .paused
  | resume => .running
  | kill => .gone

/-- The state that CubeMaster publishes after the call. -/
def Call.news : Call → Option LState
  | pause => some .paused
  | resume => some .running
  | kill => none

/-- The answers that the manager tells apart (`IsNotFound`, `IsAlreadyInState`). -/
inductive Reply
  | ok
  | notFound
  | alreadyInState
  | failed
  deriving DecidableEq

inductive Push
  | upsertMeta (m : Metadata)
  | deleteMeta (sid : Sid)
  | setState (sid : Sid) (st : LState)

inductive Event
  | create (m : Metadata)
  | update (m : Metadata)
  | delete (sid : Sid)
  | state (sid : Sid) (st : LState)
  deriving DecidableEq

/-! ### The proxies -/

/-- The shared dictionaries, whether a manager's address is known, and the last state it took. -/
structure Proxy where
  incarnation : Nat
  sidecar : Bool
  metas : Tbl Sid Metadata
  states : Tbl Sid LState
  accepted : Tbl Sid LState

/-- The states that `handle_state` lets pass. -/
def LState.pushable : LState → Bool
  | running | pausing | paused => true
  | _ => false

/-- The status that `dispatch` (`admin_phase.lua`) answers; a dictionary may have no room. -/
def Push.status (stored : Bool) : Push → Nat
  | upsertMeta m => if m.sandboxId = [] then 400 else if stored then 200 else 500
  | deleteMeta sid => if sid = [] then 400 else 200
  | setState sid st =>
    if sid = [] then 400 else if !st.pushable then 400 else if stored then 200 else 500

/-- What `dispatch` does to the dictionaries when it succeeds. -/
def Proxy.store (q : Proxy) : Push → Proxy
  | .upsertMeta m => { q with metas := q.metas.put m.sandboxId m }
  | .deleteMeta sid =>
    { q with
      metas := q.metas.del sid
      states := q.states.del sid
      accepted := q.accepted.del sid }
  | .setState sid st =>
    { q with
      states := q.states.put sid st
      accepted := q.accepted.put sid st }

/-- What happened to the entry of a sandbox in the dictionary of a proxy. -/
inductive Note
  | accepted (p : ProxyId) (sid : Sid) (st : LState)
  | deleted (p : ProxyId) (sid : Sid)
  | booted (p : ProxyId)
  | evicted (p : ProxyId) (sid : Sid)
  | resumed (p : ProxyId) (sid : Sid)
  deriving DecidableEq

inductive Answer
  | forward
  | status (n : Nat)
  deriving DecidableEq

/-- A request that the gate has answered, with what had happened when the gate read, and the status
of the resume request, if any. -/
structure Request where
  proxy : ProxyId
  sid : Sid
  sidecar : Bool
  before : List Note
  resume : Option Nat
  answer : Answer
  deriving DecidableEq

/-- A call that was made, with the registry entry, the time and CubeMaster's phase then. -/
structure Issued where
  call : Call
  sid : Sid
  entry : Option Entry
  time : Int
  phase : Option Phase
  deriving DecidableEq

/-- The managers, Redis, CubeMaster and the proxies. As history: the operations on a sandbox
that are under way (`active`), those whose outcome is being written and pushed (`telling`),
the state events that are being handled (`inHand`) or were given up on while the key says resuming
(`dropped`), the pushes that did not arrive (`missed`), the calls that were made (`issued`), the
pauses since which, or since the loss of the key, no one wrote it (`unseen`), the sandboxes locked
for a kill that is not yet called for (`killLocks`), and what the proxies saw and answered. -/
structure World where
  now : Int
  registries : Tbl ManagerId Registry
  fleets : Tbl ManagerId (List ProxyId)
  sweeping : List ManagerId
  consuming : List ManagerId
  resuming : List (ManagerId × Sid)
  keys : Tbl Sid LState
  stream : List Event
  phases : Tbl Sid Phase
  calls : List (Call × Sid)
  orphans : List (Call × Sid)
  proxies : Tbl ProxyId Proxy
  boots : Nat
  wire : List (ProxyId × Push)
  active : List Sid
  telling : List Sid
  inHand : List Sid
  dropped : List Sid
  missed : List (ProxyId × Sid)
  issued : List Issued
  unseen : List Sid
  killLocks : List Sid
  notes : List Note
  answered : List Request

namespace World

def init : World where
  now := 0
  registries := ∅
  fleets := ∅
  sweeping := []
  consuming := []
  resuming := []
  keys := ∅
  stream := []
  phases := ∅
  calls := []
  orphans := []
  proxies := ∅
  boots := 0
  wire := []
  active := []
  telling := []
  inHand := []
  dropped := []
  missed := []
  issued := []
  unseen := []
  killLocks := []
  notes := []
  answered := []

def registry (w : World) (r : ManagerId) : Registry := (w.registries.get r).getD ∅

def fleet (w : World) (r : ManagerId) : List ProxyId := (w.fleets.get r).getD []

def live (w : World) (sid : Sid) : Bool :=
  match w.phases.get sid with
  | some .running | some .paused => true
  | _ => false

def writeKey (w : World) (sid : Sid) (st : LState) : World :=
  { w with
    keys := w.keys.put sid st
    dropped := w.dropped.filter (· ≠ sid)
    unseen := w.unseen.filter (· ≠ sid) }

def clearKey (w : World) (sid : Sid) : World :=
  { w with
    keys := w.keys.del sid
    unseen := if w.phases.get sid = some .paused then sid :: w.unseen else w.unseen }

def setPhase (w : World) (sid : Sid) (ph : Phase) : World :=
  { w with
    phases := w.phases.put sid ph
    unseen := if ph = .paused then sid :: w.unseen else w.unseen.filter (· ≠ sid) }

def droppedWith (w : World) (sid : Sid) : List Sid :=
  if w.keys.get sid = some .resuming then sid :: w.dropped else w.dropped

/-- CubeMaster carries out a call on a sandbox it has, and publishes the new state. -/
def carryOut (w : World) (c : Call) (sid : Sid) (applied published : Bool) : World :=
  let w := if applied && w.live sid then w.setPhase sid c.target else w
  match c.news with
  | some st => if published then { w with stream := w.stream ++ [.state sid st] } else w
  | none => w

def proc (w : World) (p : ProxyId) (k : Nat) : Option Proxy :=
  (w.proxies.get p).filter fun q => q.incarnation = k

def setProxy (w : World) (p : ProxyId) (q : Proxy) : World :=
  { w with proxies := w.proxies.put p q }

def note (w : World) (n : Note) : World := { w with notes := n :: w.notes }

/-- A pushed state that a proxy did not take. -/
def miss (w : World) (p : ProxyId) : Push → World
  | .setState sid _ => { w with missed := (p, sid) :: w.missed }
  | _ => w

/-- What is remembered of a request that a proxy accepted. -/
def hit (w : World) (p : ProxyId) : Push → World
  | .setState sid st =>
    { w with
      missed := w.missed.filter (· ≠ (p, sid))
      notes := .accepted p sid st :: w.notes }
  | .deleteMeta sid => w.note (.deleted p sid)
  | .upsertMeta _ => w

/-- A request arrives at a proxy, which answers with a status. -/
def deliver (w : World) (p : ProxyId) (req : Push) (stored : Bool) : World × Nat :=
  match w.proxies.get p with
  | none => (w.miss p req, 0)
  | some q =>
    let n := req.status stored
    (if n = 200 then (w.setProxy p (q.store req)).hit p req else w.miss p req, n)

end World

inductive Update
  | upsert (m : Metadata)
  | seed (m : Metadata) (firstSeenAt : Int)
  | reset (sid : Sid)
  | merge (sid : Sid) (tsMs : Int)
  | delete (sid : Sid)
  deriving DecidableEq

def Update.apply (reg : Registry) (now : Int) : Update → Registry
  | upsert m => reg.upsert m now
  | seed m firstSeenAt => reg.put m.sandboxId ⟨m, 0, firstSeenAt⟩
  | reset sid => reg.resetLastActive sid
  | merge sid tsMs => reg.mergeLastActive sid tsMs
  | delete sid => reg.delete sid

/-- The actions of managers and proxies. A `setState` comes from the holder of the key, an
`overwrite` from someone who has read `seen` in it. The last ones of the managers say where an
operation begins and ends. -/
inductive Act
  | now
  | snapshot (r : ManagerId)
  | getEntry (r : ManagerId) (sid : Sid)
  | update (r : ManagerId) (u : Update)
  | getState (sid : Sid)
  | acquireState (sid : Sid) (st : LState)
  | setState (sid : Sid) (st : LState)
  | overwrite (sid : Sid) (seen : Option LState) (st : LState)
  | clearState (sid : Sid)
  | send (r : ManagerId) (c : Call) (e : Entry)
  | serve (c : Call) (sid : Sid)
  | fleet (r : ManagerId) (req : Push)
  | push (req : Push) (eps : List ProxyId)
  | timeLeft (attempt : Nat)
  | enter (sid : Sid)
  | told (sid : Sid)
  | leave (sid : Sid)
  | swept (r : ManagerId)
  | released (r : ManagerId) (sid : Sid)
  | handled (r : ManagerId) (sid : Option Sid)
  | stateGet (p : ProxyId) (k : Nat) (sid : Sid)
  | capture (p : ProxyId) (k : Nat) (sid : Sid)
  | markRunning (p : ProxyId) (k : Nat) (sid : Sid)
  | answer (k : Nat) (q : Request)

@[reducible] def Act.Ans : Act → Type
  | now => Int
  | snapshot _ => List Entry
  | getEntry _ _ => Option Entry
  | getState _ => Option (Option LState)
  | acquireState _ _ => Option Bool
  | setState _ _ | overwrite _ _ _ | clearState _ => Bool
  | serve _ _ => Reply
  | fleet _ _ => List ProxyId
  | push _ _ => Nat × Bool
  | timeLeft _ => Bool
  | stateGet _ _ _ => Option LState × List Note
  | capture _ _ _ => Nat
  | _ => Unit

inductive Delivery
  | answered (stored : Bool)
  | unanswered (stored : Bool)
  | lost
  | late
  deriving DecidableEq

/-- A call to Redis may fail, also after it took effect (`errDone`). A call to CubeMaster may be
given up while CubeMaster is still at it. -/
inductive Outcome
  | ok
  | err
  | errDone
  | served (reply : Reply) (applied published : Bool)
  | abandoned
  | pushed (i : Nat) (d : Delivery)
  | status (n : Nat)
  deriving DecidableEq

/-- A write to a key, and whether the caller is told that it succeeded. -/
def write (w : World) (f : World → World) : Outcome → Option (World × Bool)
  | .ok => some (f w, true)
  | .err => some (w, false)
  | .errDone => some (f w, false)
  | _ => none

def setNX (w : World) (sid : Sid) (st : LState) : Outcome → Option (World × Option Bool)
  | .ok =>
    match w.keys.get sid with
    | some _ => some (w, some false)
    | none =>
      let w := w.writeKey sid st
      some ({ w with killLocks := if st = .killing then sid :: w.killLocks else w.killLocks },
        some true)
  | .err => some (w, none)
  | .errDone =>
    match w.keys.get sid with
    | some _ => some (w, none)
    | none => some (w.writeKey sid st, none)
  | _ => none

/-- One request of a broadcast, to any of the proxies that are left. -/
def pushOne (w : World) (req : Push) (p : ProxyId) : Delivery → World × Bool
  | .answered stored =>
    let r := w.deliver p req stored
    (r.1, r.2 = 200)
  | .unanswered stored => ((w.deliver p req stored).1, false)
  | .lost => (w.miss p req, false)
  | .late => ({ w.miss p req with wire := w.wire ++ [(p, req)] }, false)

def perform : (a : Act) → World → Outcome → Option (World × a.Ans)
  | .now, w, _ => some (w, w.now)
  | .snapshot r, w, _ => some (w, (w.registry r).snapshot)
  | .getEntry r sid, w, _ => some (w, (w.registry r).get sid)
  | .update r u, w, _ =>
    some ({ w with registries := w.registries.put r (u.apply (w.registry r) w.now) }, ())
  | .getState sid, w, .ok => some (w, some (w.keys.get sid))
  | .getState _, w, .err => some (w, none)
  | .getState _, _, _ => none
  | .acquireState sid st, w, o => setNX w sid st o
  | .setState sid st, w, o => write w (·.writeKey sid st) o
  | .overwrite sid _ st, w, o =>
    (write w (·.writeKey sid st) o).map fun r =>
      (if st = .resuming then r.1 else { r.1 with telling := sid :: r.1.telling }, r.2)
  | .clearState sid, w, o => write w (·.clearKey sid) o
  | .send r c e, w, _ =>
    let sid := e.metadata.sandboxId
    some ({ w with
      calls := (c, sid) :: w.calls
      killLocks := if c = .kill then w.killLocks.erase sid else w.killLocks
      issued := ⟨c, sid, (w.registry r).get sid, w.now, w.phases.get sid⟩ :: w.issued }, ())
  | .serve c sid, w, .served reply applied published =>
    let w := w.carryOut c sid applied published
    some ({ w with calls := w.calls.erase (c, sid), telling := sid :: w.telling }, reply)
  | .serve c sid, w, .abandoned =>
    some ({ w with orphans := (c, sid) :: w.orphans, telling := sid :: w.telling }, .failed)
  | .serve _ _, _, _ => none
  | .fleet r _, w, _ => some (w, w.fleet r)
  | .push req eps, w, .pushed i d =>
    eps[i]?.map fun p => ((pushOne w req p d).1, i, (pushOne w req p d).2)
  | .push _ _, _, _ => none
  | .timeLeft _, w, .ok => some (w, true)
  | .timeLeft _, w, _ => some (w, false)
  | .enter sid, w, _ => some ({ w with active := sid :: w.active }, ())
  | .told sid, w, _ => some ({ w with telling := w.telling.erase sid }, ())
  | .leave sid, w, _ => some ({ w with active := w.active.erase sid }, ())
  | .swept r, w, _ => some ({ w with sweeping := w.sweeping.erase r }, ())
  | .released r sid, w, _ => some ({ w with resuming := w.resuming.erase (r, sid) }, ())
  | .handled r sid, w, _ =>
    some ({ w with
      consuming := w.consuming.erase r
      inHand := sid.elim w.inHand w.inHand.erase
      dropped := sid.elim w.dropped w.droppedWith }, ())
  | .stateGet p k sid, w, _ =>
    (w.proc p k).map fun q => (w, q.states.get sid, w.notes)
  | .capture p k _, w, .status n => (w.proc p k).map fun _ => (w, n)
  | .capture _ _ _, _, _ => none
  | .markRunning p k sid, w, .ok =>
    (w.proc p k).map fun q =>
      ((w.setProxy p { q with states := q.states.put sid .running }).note (.resumed p sid), ())
  -- the dictionary has no room, and the gate does not look at the answer
  | .markRunning p k _, w, _ => (w.proc p k).map fun _ => (w, ())
  | .answer k q, w, _ =>
    (w.proc q.proxy k).map fun _ => ({ w with answered := q :: w.answered }, ())

/-! ### Pushes -/

abbrev Task := Prog Act.Ans

def act (a : Act) : Task a.Ans := .perform a

/-- The requests of a broadcast in any order, with what is known of successes and failures. -/
def pushAll (req : Push) : Nat → List ProxyId → Bool → Bool → Task Bool
  | 0, _, someOk, someFailed => pure (someOk || !someFailed)
  | n + 1, eps, someOk, someFailed => do
    let r ← act (.push req eps)
    pushAll req n (eps.eraseIdx r.1) (someOk || r.2) (someFailed || !r.2)

/-- `broadcast`: an error only when every endpoint failed. -/
def broadcast (r : ManagerId) (req : Push) : Task Bool := do
  let endpoints ← act (.fleet r req)
  pushAll req endpoints.length endpoints false false

def pushRunning (r : ManagerId) (sid : Sid) (attempt : Nat) : Nat → Task Unit
  | 0 => pure ()
  | n + 1 => do
    let left : Bool ← act (.timeLeft attempt)
    if left then
      if ← broadcast r (.setState sid .running) then pure ()
      else pushRunning r sid (attempt + 1) n
    else pure ()

def proxyStatePushRetries : Nat := 2

def pushRunningState (r : ManagerId) (sid : Sid) : Task Unit :=
  pushRunning r sid 0 (proxyStatePushRetries + 1)

/-- `replayRegistryTo`. -/
def replayEntries (p : ProxyId) : List Entry → Task Unit
  | [] => pure ()
  | e :: es => do
    let _ ← act (.push (.upsertMeta e.metadata) [p])
    replayEntries p es

def replayRegistryTo (r : ManagerId) (p : ProxyId) : Task Unit := do
  replayEntries p (← act (.snapshot r))

/-! ### The sweeper -/

structure SweepOptions where
  defaultIdleTimeout : Int
  bootstrapWarmup : Int
  startedAt : Int

/-- The last activity that is known of a sandbox. -/
def baseline (e : Entry) : Int :=
  let b := max e.lastActiveMs e.metadata.createdAt
  if b = 0 then e.firstSeenAt else b

def idleTimeout (cfg : SweepOptions) (e : Entry) : Option Int :=
  match e.metadata.timeoutSeconds with
  | none => some cfg.defaultIdleTimeout
  | some ts => if ts < 0 then none else some (ts * 1000)

def Expired (cfg : SweepOptions) (now : Int) (e : Entry) : Prop :=
  ∃ timeout, idleTimeout cfg e = some timeout ∧ timeout ≤ now - baseline e

instance (cfg : SweepOptions) (now : Int) (e : Entry) : Decidable (Expired cfg now e) :=
  match h : idleTimeout cfg e with
  | none => .isFalse (by simp [Expired, h])
  | some timeout => decidable_of_iff (timeout ≤ now - baseline e) (by simp [Expired, h])

/-- The end of an operation whose outcome has been pushed. -/
def finish (sid : Sid) : Task Unit := do
  act (.told sid)
  act (.leave sid)

/-- What is done about a sandbox that CubeMaster does not know. -/
def evict (r : ManagerId) (sid : Sid) : Task Unit := do
  let _ ← act (.clearState sid)
  let _ ← broadcast r (.deleteMeta sid)
  act (.update r (.delete sid))

/-- The outcome of a call that failed: the sandbox is said to be running as before. -/
def rollBack (r : ManagerId) (sid : Sid) : Task Unit := do
  let _ ← act (.clearState sid)
  let _ ← broadcast r (.setState sid .running)

def tryPause (r : ManagerId) (e : Entry) : Task Unit := do
  let sid := e.metadata.sandboxId
  act (.enter sid)
  match ← act (.acquireState sid .pausing) with
  | some true =>
    let _ ← broadcast r (.setState sid .pausing)
    act (.send r .pause e)
    match ← act (.serve .pause sid) with
    | .notFound => evict r sid
    | .failed => rollBack r sid
    | .ok | .alreadyInState =>
      let _ ← act (.setState sid .paused)
      let _ ← broadcast r (.setState sid .paused)
    finish sid
  | _ => act (.leave sid)

def tryKill (r : ManagerId) (e : Entry) : Task Unit := do
  let sid := e.metadata.sandboxId
  act (.enter sid)
  match ← act (.acquireState sid .killing) with
  | some true =>
    let _ ← broadcast r (.setState sid .killing)
    act (.send r .kill e)
    match ← act (.serve .kill sid) with
    | .failed => rollBack r sid
    | .ok | .notFound | .alreadyInState =>
      let _ ← act (.setState sid .killed)
      let _ ← broadcast r (.deleteMeta sid)
      act (.update r (.delete sid))
    finish sid
  | _ => act (.leave sid)

/-- The states in which the sweeper leaves a sandbox alone. -/
def LState.parked : LState → Bool
  | paused | pausing | killing | killed => true
  | _ => false

/-- The body of the loop of `sweepOnce`. -/
def sweepEntry (cfg : SweepOptions) (r : ManagerId) (nowMs : Int) (e : Entry) : Task Unit := do
  if nowMs - cfg.startedAt < cfg.bootstrapWarmup ∧ e.firstSeenAt ≤ cfg.startedAt then pure ()
  else if Expired cfg nowMs e then
    match ← act (.getState e.metadata.sandboxId) with
    | some (some st) =>
      if st.parked then pure ()
      else if e.metadata.autoPause then tryPause r e else tryKill r e
    -- no key, or the read failed: the action is tried anyway
    | _ => if e.metadata.autoPause then tryPause r e else tryKill r e
  else pure ()

def sweepEntries (cfg : SweepOptions) (r : ManagerId) (nowMs : Int) : List Entry → Task Unit
  | [] => pure ()
  | e :: es => do
    sweepEntry cfg r nowMs e
    sweepEntries cfg r nowMs es

def sweepOnce (cfg : SweepOptions) (r : ManagerId) : Task Unit := do
  let nowMs ← act .now
  let entries ← act (.snapshot r)
  sweepEntries cfg r nowMs entries
  act (.swept r)

/-! ### The resumer -/

inductive Ownership
  | mine
  | alreadyRunning
  | failed
  deriving DecidableEq

/-- The number of polls is what the context of the request leaves time for. -/
def waitForRunning (sid : Sid) : Nat → Task Bool
  | 0 => pure false
  | n + 1 => do
    match ← act (.getState sid) with
    | none | some none | some (some .paused) => pure false
    | some (some .running) => pure true
    | some (some _) => waitForRunning sid n

/-- The key is taken with what was read in it. -/
def claim (sid : Sid) (seen : Option LState) : Task Ownership := do
  let taken : Bool ← act (.overwrite sid seen .resuming)
  return if taken then .mine else .failed

def acquireResumeOwnership (sid : Sid) (polls : Nat) : Task Ownership := do
  match ← act (.getState sid) with
  | none => pure .failed
  | some none => claim sid none
  | some (some .paused) => claim sid (some .paused)
  | some (some .running) => pure .alreadyRunning
  | some (some _) => return if ← waitForRunning sid polls then .alreadyRunning else .failed

/-- Whether the bookkeeping of a success follows. -/
def callCubeMasterResume (r : ManagerId) (e : Entry) : Task Bool := do
  let sid := e.metadata.sandboxId
  act (.send r .resume e)
  match ← act (.serve .resume sid) with
  | .ok | .alreadyInState => pure true
  | .notFound =>
    evict r sid
    act (.told sid)
    pure false
  | .failed =>
    let _ ← act (.clearState sid)
    act (.told sid)
    pure false

/-- The registry has the activity of now. -/
def touch (r : ManagerId) (sid : Sid) : Task Unit := do
  let nowMs ← act .now
  act (.update r (.merge sid nowMs))

def doResume (r : ManagerId) (sid : Sid) (polls : Nat) : Task Bool := do
  match ← act (.getEntry r sid) with
  | none => pure false
  | some e =>
    match ← acquireResumeOwnership sid polls with
    | .failed => pure false
    | .mine =>
      if !e.metadata.autoResume then
        let _ ← act (.clearState sid)
        pure false
      else if ← callCubeMasterResume r { e with metadata.sandboxId := sid } then
        let _ ← act (.setState sid .running)
        touch r sid
        pure true
      else pure false
    | .alreadyRunning =>
      let _ ← act (.overwrite sid (some .running) .running)
      touch r sid
      pure true

/-- `Resume` of the first caller. The push goes on when the caller has its answer. -/
def resume (r : ManagerId) (sid : Sid) (polls : Nat) : Task Unit := do
  let good ← doResume r sid polls
  act (.released r sid)
  if good then
    pushRunningState r sid
    finish sid
  else act (.leave sid)

/-! ### The stream -/

/-- A sandbox that runs again counts as active. -/
def touchRunning (r : ManagerId) (sid : Sid) (st : LState) : Task Unit :=
  if st = .running then touch r sid else pure ()

/-- `statesync.Handle`. -/
def handle (r : ManagerId) (sid : Sid) (st : LState) : Task Unit := do
  match ← act (.getEntry r sid) with
  | none => pure ()
  | some _ =>
    match ← act (.getState sid) with
    | none => pure ()
    | some cur =>
      if cur = some .pausing ∨ cur = some .resuming then pure ()
      else if cur = some st then pure ()
      else
        let _ ← act (.overwrite sid cur st)
        let _ ← broadcast r (.setState sid st)
        touchRunning r sid st
        act (.told sid)

def handleEvent (r : ManagerId) : Event → Task Unit
  | .create m => do
    act (.update r (.upsert m))
    let _ ← broadcast r (.upsertMeta m)
    act (.handled r none)
  | .update m => do
    act (.update r (.upsert m))
    act (.update r (.reset m.sandboxId))
    let _ ← broadcast r (.upsertMeta m)
    act (.handled r none)
  | .delete sid => do
    act (.update r (.delete sid))
    let _ ← broadcast r (.deleteMeta sid)
    act (.handled r none)
  | .state sid st => do
    handle r sid st
    act (.handled r (some sid))
    act (.leave sid)

/-- `gate` of `sandbox_state.lua`. -/
def gate (sidecar : Bool) (p : ProxyId) (k : Nat) (sid : Sid) : Task Unit := do
  let (state, before) ← act (.stateGet p k sid)
  match state with
  | some .pausing => act (.answer k ⟨p, sid, sidecar, before, none, .status 503⟩)
  | some .killing | some .killed =>
    act (.answer k ⟨p, sid, sidecar, before, none, .status 410⟩)
  | some .paused =>
    if !sidecar then act (.answer k ⟨p, sid, sidecar, before, none, .forward⟩)
    else
      let status : Nat ← act (.capture p k sid)
      if status = 200 then
        act (.markRunning p k sid)
        act (.answer k ⟨p, sid, sidecar, before, some status, .forward⟩)
      else act (.answer k ⟨p, sid, sidecar, before, some status, .status 503⟩)
  -- no entry, `running`, or a state that the gate does not know
  | _ => act (.answer k ⟨p, sid, sidecar, before, none, .forward⟩)

/-- Time passes, CubeMaster and its users act, leases expire, proxies start, stop and lose entries,
and managers start their operations. -/
inductive Op
  | tick (ms : Nat)
  | create (sid : Sid)
  | user (c : Call) (sid : Sid) (published : Bool)
  | serveOrphan (i : Nat) (applied published : Bool)
  | emit (ev : Event)
  | registry (r : ManagerId) (u : Update)
  | expire (sid : Sid)
  | refresh (r : ManagerId) (endpoints : List ProxyId)
  | join (r : ManagerId) (p : ProxyId)
  | arrive (i : Nat) (stored : Bool)
  | boot (p : ProxyId) (sidecar : Bool)
  | stop (p : ProxyId)
  | evict (p : ProxyId) (sid : Sid)
  | sweep (r : ManagerId)
  | resume (r : ManagerId) (sid : Sid) (polls : Nat)
  | consume (r : ManagerId)
  | request (p : ProxyId) (sid : Sid)
  deriving DecidableEq

def Event.sid? : Event → Option Sid
  | state sid _ => some sid
  | _ => none

def World.take (w : World) (r : ManagerId) (ev : Event) (rest : List Event) : World :=
  { w with
    stream := rest
    consuming := r :: w.consuming
    active := ev.sid?.toList ++ w.active
    inHand := ev.sid?.toList ++ w.inHand }

def startOp (cfg : SweepOptions) (w : World) : Op → Option (World × Task Unit)
  | .tick ms => some ({ w with now := w.now + ms }, pure ())
  | .create sid =>
    match w.phases.get sid with
    | none => some (w.setPhase sid .running, pure ())
    | some _ => none
  | .user c sid published => some (w.carryOut c sid true published, pure ())
  | .serveOrphan i applied published =>
    w.orphans[i]?.map fun x =>
      let w := w.carryOut x.1 x.2 applied published
      ({ w with calls := w.calls.erase x, orphans := w.orphans.eraseIdx i }, pure ())
  | .emit ev =>
    match ev with
    | .state _ _ => none
    | _ => some ({ w with stream := w.stream ++ [ev] }, pure ())
  | .registry r u => some (w, act (.update r u))
  | .expire sid => some (w.clearKey sid, pure ())
  | .refresh r endpoints => some ({ w with fleets := w.fleets.put r endpoints }, pure ())
  | .join r p => some (w, replayRegistryTo r p)
  | .arrive i stored =>
    w.wire[i]?.map fun x =>
      ({ (w.deliver x.1 x.2 stored).1 with wire := w.wire.eraseIdx i }, pure ())
  | .boot p sidecar =>
    let w := (w.setProxy p ⟨w.boots, sidecar, ∅, ∅, ∅⟩).note (.booted p)
    some ({ w with boots := w.boots + 1, missed := w.missed.filter (·.1 ≠ p) }, pure ())
  | .stop p => some ({ w with proxies := w.proxies.del p }, pure ())
  | .evict p sid =>
    (w.proxies.get p).map fun q =>
      ((w.setProxy p { q with states := q.states.del sid }).note (.evicted p sid), pure ())
  | .sweep r =>
    if r ∈ w.sweeping then none
    else some ({ w with sweeping := r :: w.sweeping }, sweepOnce cfg r)
  | .resume r sid polls =>
    -- the other callers wait for the first one
    if sid = [] ∨ (r, sid) ∈ w.resuming then some (w, pure ())
    else some ({ w with
      resuming := (r, sid) :: w.resuming
      active := sid :: w.active }, resume r sid polls)
  | .consume r =>
    if r ∈ w.consuming then none
    else match w.stream with
      | [] => none
      | ev :: rest => some (w.take r ev rest, handleEvent r ev)
  | .request p sid =>
    if sid = [] then none
    else (w.proxies.get p).map fun q => (w, gate q.sidecar p q.incarnation sid)

def machine (cfg : SweepOptions) : Machine Act.Ans World Outcome Op where
  act := perform
  start := startOp cfg
  alone _ := false

/-! ### Which actions the programs take -/

/-- Only the sweeper takes a free key and calls for a pause or a kill; only the gate is at a
proxy. -/
inductive Side
  | sweeper
  | manager
  | proxy
  deriving DecidableEq

def Act.side : Act → Side
  | acquireState _ _ | send _ .pause _ | send _ .kill _ => .sweeper
  | stateGet _ _ _ | capture _ _ _ | markRunning _ _ _ | answer _ _ => .proxy
  | _ => .manager

def Act.atProxy (a : Act) : Bool := a.side = .proxy

/-- The programs of the managers that are not the sweeper's. -/
abbrev ByManager {α : Type} (p : Task α) : Prop := Within (·.side = .manager) (fun _ => True) p

lemma byManager_act {a : Act} (ha : a.side = .manager) : ByManager (act a) :=
  Within.perform ha fun _ => trivial

/-- A property of programs that the sweep has if its actions have it. -/
lemma sweepEntries_rule {cfg : SweepOptions} {r : ManagerId} {now : Int} (S : Task Unit → Prop)
    (hret : S (pure ())) (hseq : ∀ p q, S p → S q → S (p >>= fun _ => q))
    (hget : ∀ sid f, (∀ v, S (f v)) → S (act (.getState sid) >>= f))
    (htry : ∀ e, Expired cfg now e → S (if e.metadata.autoPause then tryPause r e else tryKill r e))
    (es : List Entry) : S (sweepEntries cfg r now es) := by
  induction es with
  | nil => exact hret
  | cons e es ih =>
    refine hseq _ _ ?_ ih
    unfold sweepEntry
    split
    · exact hret
    split
    · rename_i he
      refine hget _ _ fun v => ?_
      rcases v with _ | _ | st
      · exact htry e he
      · exact htry e he
      dsimp only
      split
      · exact hret
      · exact htry e he
    · exact hret

lemma byManager_pushAll (req : Push) (n : Nat) (eps : List ProxyId) (x y : Bool) :
    ByManager (pushAll req n eps x y) := by
  induction n generalizing eps x y with
  | zero => exact .ret trivial
  | succ n ih => exact .act rfl fun _ => ih _ _ _

variable (r : ManagerId) (sid : Sid) (polls : Nat)

lemma byManager_broadcast (req : Push) : ByManager (broadcast r req) :=
  .act rfl fun _ => byManager_pushAll _ _ _ _ _

lemma byManager_pushRunning (attempt n : Nat) : ByManager (pushRunning r sid attempt n) := by
  induction n generalizing attempt with
  | zero => exact .ret trivial
  | succ n ih =>
    refine .act rfl fun left => ?_
    cases left with
    | false => exact .ret trivial
    | true =>
      refine (byManager_broadcast r _).seq fun good => ?_
      cases good with
      | false => exact ih _
      | true => exact .ret trivial

lemma byManager_finish : ByManager (finish sid) :=
  .act rfl fun _ => byManager_act rfl

lemma byManager_evict : ByManager (evict r sid) := by
  refine .act rfl fun _ => ?_
  exact (byManager_broadcast r _).seq fun _ => byManager_act rfl

lemma byManager_rollBack : ByManager (rollBack r sid) := by
  refine .act rfl fun _ => ?_
  exact (byManager_broadcast r _).seq fun _ => .ret trivial

/-- `tryPause` once its request is sent. -/
lemma byManager_afterPause : ByManager (do
    match ← act (.serve .pause sid) with
    | .notFound => evict r sid
    | .failed => rollBack r sid
    | .ok | .alreadyInState =>
      let _ ← act (.setState sid .paused)
      let _ ← broadcast r (.setState sid .paused)
    finish sid) := by
  refine .act rfl fun reply => ?_
  cases reply with
  | notFound => exact (byManager_evict r _).seq fun _ => byManager_finish sid
  | failed => exact (byManager_rollBack r _).seq fun _ => byManager_finish sid
  | ok | alreadyInState =>
    refine .act rfl fun _ => ?_
    exact (byManager_broadcast r _).seq fun _ => byManager_finish sid

/-- `tryKill` once its request is sent. -/
lemma byManager_afterKill : ByManager (do
    match ← act (.serve .kill sid) with
    | .failed => rollBack r sid
    | .ok | .notFound | .alreadyInState =>
      let _ ← act (.setState sid .killed)
      let _ ← broadcast r (.deleteMeta sid)
      act (.update r (.delete sid))
    finish sid) := by
  refine .act rfl fun reply => ?_
  cases reply with
  | failed => exact (byManager_rollBack r _).seq fun _ => byManager_finish sid
  | ok | notFound | alreadyInState =>
    refine .act rfl fun _ => ?_
    refine (byManager_broadcast r _).seq fun _ => ?_
    exact .act rfl fun _ => byManager_finish sid

lemma byManager_touch : ByManager (touch r sid) :=
  .act rfl fun _ => byManager_act rfl

lemma byManager_touchRunning (st : LState) : ByManager (touchRunning r sid st) := by
  unfold touchRunning
  split
  · exact byManager_touch r sid
  · exact .ret trivial

lemma byManager_replayEntries (p : ProxyId) (es : List Entry) : ByManager (replayEntries p es) := by
  induction es with
  | nil => exact .ret trivial
  | cons e es ih => exact .act rfl fun _ => ih

lemma byManager_replayRegistryTo (p : ProxyId) : ByManager (replayRegistryTo r p) :=
  .act rfl fun es => byManager_replayEntries p es

lemma within_waitForRunning {P : Act → Prop} (hget : P (.getState sid)) (n : Nat) :
    Within P (fun _ => True) (waitForRunning sid n) := by
  induction n with
  | zero => exact .ret trivial
  | succ n ih =>
    refine .act hget fun v => ?_
    rcases v with _ | _ | st
    · exact .ret trivial
    · exact .ret trivial
    cases st with
    | paused | running => exact .ret trivial
    | pausing | resuming | killing | killed => exact ih

lemma byManager_claim (seen : Option LState) : ByManager (claim sid seen) :=
  .act rfl fun _ => .ret trivial

lemma byManager_acquireResumeOwnership : ByManager (acquireResumeOwnership sid polls) := by
  refine .act rfl fun v => ?_
  have hwait : ByManager (do
      return if ← waitForRunning sid polls then Ownership.alreadyRunning else .failed) :=
    (within_waitForRunning (P := (·.side = .manager)) sid rfl polls).seq fun _ => .ret trivial
  rcases v with _ | _ | st
  · exact .ret trivial
  · exact byManager_claim sid none
  cases st with
  | paused => exact byManager_claim sid _
  | running => exact .ret trivial
  | pausing | resuming | killing | killed => exact hwait

lemma byManager_callCubeMasterResume (e : Entry) : ByManager (callCubeMasterResume r e) := by
  refine .act rfl fun _ => ?_
  refine .act rfl fun reply => ?_
  cases reply with
  | ok | alreadyInState => exact .ret trivial
  | notFound =>
    refine (byManager_evict r _).seq fun _ => ?_
    exact .act rfl fun _ => .ret trivial
  | failed =>
    refine .act rfl fun _ => ?_
    exact .act rfl fun _ => .ret trivial

lemma byManager_doResume : ByManager (doResume r sid polls) := by
  refine .act rfl fun e => ?_
  cases e with
  | none => exact .ret trivial
  | some e =>
    refine (byManager_acquireResumeOwnership sid polls).seq fun own => ?_
    have hdone : ByManager (do touch r sid; pure true) :=
      (byManager_touch r sid).seq fun _ => .ret trivial
    cases own with
    | failed => exact .ret trivial
    | alreadyRunning =>
      exact .act rfl fun _ => hdone
    | mine =>
      dsimp only
      split
      · exact .act rfl fun _ => .ret trivial
      refine (byManager_callCubeMasterResume r _).seq fun good => ?_
      cases good with
      | false => exact .ret trivial
      | true =>
        exact .act rfl fun _ => hdone

lemma byManager_resume : ByManager (resume r sid polls) := by
  refine (byManager_doResume r sid polls).seq fun good => ?_
  refine .act rfl fun _ => ?_
  cases good with
  | false => exact byManager_act rfl
  | true => exact (byManager_pushRunning r sid 0 _).seq fun _ => byManager_finish sid

lemma byManager_handle (st : LState) : ByManager (handle r sid st) := by
  refine .act rfl fun e => ?_
  cases e with
  | none => exact .ret trivial
  | some e =>
    refine .act rfl fun cur => ?_
    cases cur with
    | none => exact .ret trivial
    | some cur =>
      dsimp only
      split
      · exact .ret trivial
      split
      · exact .ret trivial
      refine .act rfl fun _ => ?_
      refine (byManager_broadcast r _).seq fun _ => ?_
      refine (byManager_touchRunning r sid st).seq fun _ => ?_
      exact byManager_act rfl

lemma byManager_handleEvent (ev : Event) : ByManager (handleEvent r ev) := by
  cases ev with
  | create m =>
    refine .act rfl fun _ => ?_
    exact (byManager_broadcast r _).seq fun _ => byManager_act rfl
  | update m =>
    refine .act rfl fun _ => ?_
    refine .act rfl fun _ => ?_
    exact (byManager_broadcast r _).seq fun _ => byManager_act rfl
  | delete sid =>
    refine .act rfl fun _ => ?_
    exact (byManager_broadcast r _).seq fun _ => byManager_act rfl
  | state sid st =>
    refine (byManager_handle r sid st).seq fun _ => ?_
    exact .act rfl fun _ => byManager_act rfl

end CubeSandbox.Flow
