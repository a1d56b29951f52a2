import CubeSandbox.StopGate

/-!
Which sandboxes the sweeper pauses and kills.

A sweep decides on the entries of one snapshot and on the clock at its beginning, while its
calls take as long as they like, and the only guard against a paused sandbox is its key. So a
call is right as long as the entry is still the one of the snapshot, and a kill spares paused
sandboxes as long as the key is there.
-/

namespace CubeSandbox.Flow

open GoText Conc Lcm Multiset List Runs

/-- The sandbox is idle for long enough, and is not paused if it is to be killed. -/
def Issued.Right (cfg : SweepOptions) (i : Issued) : Prop :=
  i.call ≠ .resume →
    (∃ e, i.entry = some e ∧ Expired cfg i.time e) ∧ (i.call = .kill → i.phase ≠ some .paused)

/-- A call of the sweeper is for an entry that has not changed since its snapshot. The key is not
taken for a kill between a pause, or the loss of the key of a paused sandbox, and the next write of
it, and no pause takes effect between that and the call. -/
def Timely (w : World) : Act → Outcome → Prop
  | .send r c e, _ => c ≠ .resume → (w.registry r).get e.metadata.sandboxId = some e
  | .acquireState sid st, .ok => st = .killing → w.keys.get sid = none → sid ∉ w.unseen
  | .serve c sid, .served _ applied _ =>
    c = .pause → applied = true → w.live sid = true → sid ∉ w.killLocks
  | _, _ => True

def TimelyStart (w : World) : Op → Prop
  | .user c sid _ => c = .pause → w.live sid = true → sid ∉ w.killLocks
  | .serveOrphan i applied _ =>
    ∀ x ∈ w.orphans[i]?, x.1 = .pause → applied = true → w.live x.2 = true → x.2 ∉ w.killLocks
  | _ => True

instance (w : World) (a : Act) (o : Outcome) : Decidable (Timely w a o) := by
  rcases a <;> rcases o <;> unfold Timely <;> infer_instance

instance (w : World) (op : Op) : Decidable (TimelyStart w op) := by
  rcases op <;> unfold TimelyStart <;> infer_instance

/-- A sweeper has locked a sandbox for a kill, or knows of a time that has passed. -/
inductive Claim
  | lock (sid : Sid)
  | since (ms : Int)

def Claim.sid? : Claim → Option Sid
  | lock sid => some sid
  | since _ => none

/-- The sandboxes that are locked for a kill. -/
def lockedBy (R : Multiset Claim) : Multiset Sid := R.filterMap Claim.sid?

@[simp] lemma lockedBy_lock (sid : Sid) (R : Multiset Claim) :
    lockedBy (.lock sid ::ₘ R) = sid ::ₘ lockedBy R := by
  exact filterMap_cons_some Claim.sid? _ _ rfl

@[simp] lemma lockedBy_since (t : Int) (R : Multiset Claim) :
    lockedBy (.since t ::ₘ R) = lockedBy R := by
  exact filterMap_cons_none _ _ rfl

structure Watched (cfg : SweepOptions) (w : World) (R : Multiset Claim) : Prop where
  locks : (w.killLocks : Multiset Sid) = lockedBy R
  awake : ∀ sid ∈ w.killLocks, w.phases.get sid ≠ some .paused
  passed : ∀ t, .since t ∈ R → t ≤ w.now
  seen : ∀ sid, w.phases.get sid = some .paused → w.keys.get sid ≠ none ∨ sid ∈ w.unseen
  right : ∀ i ∈ w.issued, i.Right cfg

variable {cfg : SweepOptions} {sid : Sid} {r : ManagerId} {e : Entry} {t : Int}

namespace Watched

variable {w w' : World} {R : Multiset Claim}

section

variable (h : Watched cfg w R)
include h

lemma of_same (hsame : (w'.now, w'.keys, w'.phases, w'.killLocks, w'.unseen, w'.issued) =
    (w.now, w.keys, w.phases, w.killLocks, w.unseen, w.issued)) : Watched cfg w' R := by
  simp only [Prod.mk.injEq] at hsame
  obtain ⟨hnow, hkeys, hphases, hlocks, hunseen, hissued⟩ := hsame
  refine ⟨by rw [hlocks]; exact h.locks, by rw [hlocks, hphases]; exact h.awake,
    by rw [hnow]; exact h.passed, by rw [hphases, hkeys, hunseen]; exact h.seen,
    by rw [hissued]; exact h.right⟩

lemma writeKey (sid : Sid) (st : LState) : Watched cfg (w.writeKey sid st) R := by
  refine ⟨h.locks, h.awake, h.passed, fun x hx => ?_, h.right⟩
  by_cases hxs : x = sid
  · subst hxs; exact .inl (by simp [World.writeKey])
  refine (h.seen x hx).imp (fun hk => ?_) fun hu => ?_
  · simpa [World.writeKey, Tbl.get_put_ne _ _ hxs] using hk
  · exact mem_filter.2 ⟨hu, by simpa using hxs⟩

lemma clearKey (sid : Sid) : Watched cfg (w.clearKey sid) R := by
  refine ⟨h.locks, h.awake, h.passed, fun x hx => ?_, h.right⟩
  simp only [World.clearKey] at hx ⊢
  by_cases hxs : x = sid
  · subst hxs; exact .inr (by simp [hx])
  refine (h.seen x hx).imp (fun hk => ?_) fun hu => ?_
  · simpa [Tbl.get_del_ne _ hxs] using hk
  · split
    · exact mem_cons_of_mem _ hu
    · exact hu

lemma setPhase {ph : Phase} (hsid : ph = .paused → sid ∉ w.killLocks) :
    Watched cfg (w.setPhase sid ph) R := by
  refine ⟨h.locks, fun x hx hp => ?_, h.passed, fun x hx => ?_, h.right⟩
  · rcases Tbl.get_put_eq_some.1 hp with ⟨rfl, rfl⟩ | ⟨-, hp⟩
    · exact hsid rfl hx
    · exact h.awake x hx hp
  rcases Tbl.get_put_eq_some.1 hx with ⟨rfl, rfl⟩ | ⟨hne, hx⟩
  · exact .inr (by simp [World.setPhase])
  refine (h.seen x hx).imp_right fun hu => ?_
  simp only [World.setPhase]
  split
  · exact mem_cons_of_mem _ hu
  · exact mem_filter.2 ⟨hu, by simpa using hne⟩

lemma carryOut {c : Call} {applied : Bool} (published : Bool)
    (hsid : c = .pause → applied = true → w.live sid = true → sid ∉ w.killLocks) :
    Watched cfg (w.carryOut c sid applied published) R := by
  have hphase : Watched cfg
      (if applied && w.live sid then w.setPhase sid c.target else w) R := by
    split
    · rename_i happ
      rw [Bool.and_eq_true] at happ
      refine h.setPhase fun hp => hsid ?_ happ.1 happ.2
      cases c <;> first | rfl | cases hp
    · exact h
  unfold World.carryOut
  cases c.news with
  | none => exact hphase
  | some st =>
    dsimp only
    split
    · exact hphase.of_same rfl
    · exact hphase

lemma lock (hkey : w.keys.get sid = none) (hseen : sid ∉ w.unseen) :
    Watched cfg { w.writeKey sid .killing with killLocks := sid :: w.killLocks }
      (.lock sid ::ₘ R) := by
  have hk := h.writeKey sid .killing
  refine ⟨?_, fun x hx hp => ?_, fun t ht => ?_, hk.seen, hk.right⟩
  · rw [lockedBy_lock, ← h.locks]; rfl
  · rcases mem_cons.1 hx with rfl | hx
    · exact (h.seen _ hp).elim (· hkey) hseen
    · exact h.awake x hx hp
  · exact h.passed t (by simpa using ht)

lemma send {c : Call} {R' : Multiset Claim}
    (hR : R = R' ∨ R = .lock e.metadata.sandboxId ::ₘ R' ∧ c = .kill) (hc : c = .kill → R ≠ R')
    (hright : (⟨c, e.metadata.sandboxId, (w.registry r).get e.metadata.sandboxId, w.now,
      w.phases.get e.metadata.sandboxId⟩ : Issued).Right cfg) :
    Watched cfg { w with
      calls := (c, e.metadata.sandboxId) :: w.calls
      killLocks := if c = .kill then w.killLocks.erase e.metadata.sandboxId else w.killLocks
      issued := ⟨c, e.metadata.sandboxId, (w.registry r).get e.metadata.sandboxId, w.now,
        w.phases.get e.metadata.sandboxId⟩ :: w.issued } R' := by
  have hlocks := h.locks
  refine ⟨?_, fun x hx => h.awake x ?_, fun t ht => h.passed t ?_, h.seen, fun i hi => ?_⟩
  · rcases hR with rfl | ⟨rfl, rfl⟩
    · rw [if_neg fun hk => hc hk rfl]; exact hlocks
    rw [lockedBy_lock] at hlocks
    change ((if Call.kill = .kill then w.killLocks.erase e.metadata.sandboxId
      else w.killLocks : List Sid) : Multiset Sid) = lockedBy R'
    rw [if_pos rfl]
    exact coe_erase_of_eq_cons hlocks
  · split at hx
    · exact mem_of_mem_erase hx
    · exact hx
  · rcases hR with rfl | ⟨rfl, -⟩
    · exact ht
    · exact mem_cons_of_mem ht
  · rcases mem_cons.1 hi with rfl | hi
    · exact hright
    · exact h.right i hi

end

end Watched

abbrev Watches (cfg : SweepOptions) {α : Type} (p : Task α) (r : Multiset Claim)
    (Q : α → Multiset Claim → Prop) : Prop :=
  Safe (machine cfg) (Watched cfg) Timely p r Q

lemma Watched.pushOne {w : World} {R : Multiset Claim} (h : Watched cfg w R) (req : Push)
    (p : ProxyId) (d : Delivery) : Watched cfg (pushOne w req p d).1 R := by
  have hmiss : Watched cfg (w.miss p req) R := by
    cases req with
    | setState sid st => exact h.of_same rfl
    | upsertMeta | deleteMeta => exact h
  rcases pushOne_cases w p req d with heq | ⟨q, -, heq⟩ | ⟨-, heq⟩
  · exact heq ▸ hmiss
  · rw [heq]
    cases req <;> exact h.of_same rfl
  · rw [heq]
    exact hmiss.of_same rfl

lemma watched_manager (a : Act) (ha : a.side ≠ .sweeper) (w : World) (R : Multiset Claim)
    (o : Outcome) (w' : World) (v : a.Ans) (h : Watched cfg w R) (hok : Timely w a o)
    (hact : (machine cfg).act a w o = some (w', v)) : Watched cfg w' R := by
  have hread : a.reads = true → w' = w := fun ha => perform_reads ha hact
  cases a with
  | now | snapshot | getEntry | fleet | getState | timeLeft | stateGet | capture =>
    exact hread rfl ▸ h
  | update | enter | told | leave | swept | released | handled =>
    cases hact
    exact h.of_same rfl
  | setState sid st =>
    rcases write_cases (f := (·.writeKey sid st)) hact with ⟨-, rfl⟩ | ⟨-, rfl⟩
    · exact h
    · exact h.writeKey sid st
  | overwrite sid seen st =>
    obtain ⟨⟨x, b⟩, hx, heq⟩ := Option.map_eq_some_iff.1 hact
    have hwx : Watched cfg x R := by
      rcases write_cases (f := (·.writeKey sid st)) hx with ⟨-, rfl⟩ | ⟨-, rfl⟩
      · exact h
      · exact h.writeKey sid st
    cases heq
    split
    · exact hwx
    · exact hwx.of_same rfl
  | clearState sid =>
    rcases write_cases (f := (·.clearKey sid)) hact with ⟨-, rfl⟩ | ⟨-, rfl⟩
    · exact h
    · exact h.clearKey sid
  | send r c e =>
    obtain rfl : c = .resume := by
      cases c with
      | resume => rfl
      | pause | kill => exact absurd rfl ha
    cases hact
    exact h.send (.inl rfl) (by simp) fun hne => absurd rfl hne
  | serve c sid =>
    cases o with
    | served reply applied published =>
      cases hact
      exact (h.carryOut published hok).of_same rfl
    | abandoned =>
      cases hact
      exact h.of_same rfl
    | ok | err | errDone | pushed | status => simp [machine, perform] at hact
  | push req eps =>
    cases o with
    | pushed i d =>
      obtain ⟨p, -, rfl, -⟩ := acted_map hact
      exact h.pushOne req p d
    | ok | err | errDone | served | abandoned | status => simp [machine, perform] at hact
  | markRunning p k sid =>
    cases o with
    | ok =>
      obtain ⟨q, -, rfl, -⟩ := acted_map hact
      exact h.of_same rfl
    | err | errDone | served | abandoned | pushed | status =>
      obtain ⟨q, -, rfl, -⟩ := acted_map hact
      exact h
  | answer k q =>
    obtain ⟨x, -, rfl, -⟩ := acted_map hact
    exact h.of_same rfl
  | acquireState => exact absurd rfl ha

lemma watches_manager {α : Type} {p : Task α} {r : Multiset Claim} (h : ByManager p) :
    Watches cfg p r fun _ r' => r' = r :=
  (Safe.of_within (fun a ha => watched_manager a (by rw [ha]; decide)) h).mono fun _ _ hr => hr.2

lemma watches_act {a : Act} {r : Multiset Claim} (ha : a.side = .manager) :
    Watches cfg (act a) r fun _ r' => r' = r := watches_manager (byManager_act ha)

lemma watches_now : Watches cfg (act .now) 0 fun t r' => r' = {.since t} := by
  refine .perform fun w F o w' v hI _ hact => ⟨{.since v}, ?_, rfl⟩
  cases hact
  rw [zero_add] at hI
  rw [singleton_add]
  refine ⟨by rw [lockedBy_since]; exact hI.locks, hI.awake, fun t ht => ?_, hI.seen, hI.right⟩
  rcases mem_cons.1 ht with ht | ht
  · cases ht
    exact le_rfl
  · exact hI.passed t ht

lemma watches_swept : Watches cfg (act (.swept r)) {.since t} fun _ r' => r' = 0 := by
  refine .does (fun _ _ => rfl) fun w F hI => ?_
  rw [singleton_add] at hI
  rw [zero_add]
  have hlocks := hI.locks
  rw [lockedBy_since] at hlocks
  exact ⟨hlocks, hI.awake, fun t' ht => hI.passed t' (mem_cons_of_mem ht), hI.seen, hI.right⟩

lemma watches_acquire {st : LState} {r : Multiset Claim} :
    Watches cfg (act (.acquireState sid st)) r fun v r' =>
      if v = some true ∧ st = .killing then r' = .lock sid ::ₘ r else r' = r := by
  refine .perform fun w F o w' v hI hok hact => ?_
  simp only [machine, perform, setNX] at hact
  split at hact
  · split at hact
    · cases hact
      exact ⟨r, hI, by simp⟩
    rename_i hkey
    cases hact
    by_cases hst : st = .killing
    · subst hst
      refine ⟨.lock sid ::ₘ r, ?_, by simp⟩
      rw [cons_add]
      exact hI.lock hkey (hok rfl hkey)
    · refine ⟨r, ?_, by simp [hst]⟩
      rw [if_neg hst]
      exact (hI.writeKey sid st).of_same rfl
  · cases hact
    exact ⟨r, hI, by simp⟩
  · split at hact
    · cases hact
      exact ⟨r, hI, by simp⟩
    · cases hact
      exact ⟨r, hI.writeKey sid st, by simp⟩
  · simp at hact

/-- A sandbox that was idle for long enough still is, while its entry has not changed. -/
lemma Expired.mono {t' : Int} (h : Expired cfg t e) (ht : t ≤ t') : Expired cfg t' e := by
  obtain ⟨timeout, htimeout, hle⟩ := h
  exact ⟨timeout, htimeout, by omega⟩

section

variable (he : Expired cfg t e)
include he

lemma watches_sendPause :
    Watches cfg (act (.send r .pause e)) {.since t} fun _ r' => r' = {.since t} := by
  refine .perform fun w F o w' v hI hok hact => ⟨{.since t}, ?_, rfl⟩
  cases hact
  refine hI.send (.inl rfl) (by simp) fun _ => ⟨⟨e, hok (by simp), he.mono ?_⟩, by simp⟩
  exact hI.passed t (by simp)

lemma watches_sendKill :
    Watches cfg (act (.send r .kill e)) (.lock e.metadata.sandboxId ::ₘ {.since t})
      fun _ r' => r' = {.since t} := by
  refine .perform fun w F o w' v hI hok hact => ⟨{.since t}, ?_, rfl⟩
  cases hact
  rw [cons_add] at hI
  have hmem : e.metadata.sandboxId ∈ w.killLocks := by
    rw [← mem_coe, hI.locks, lockedBy_lock]
    exact mem_cons_self _ _
  refine hI.send (.inr ⟨rfl, rfl⟩) (fun _ heq => ?_) fun _ => ⟨⟨e, hok (by simp), he.mono ?_⟩, ?_⟩
  · have hcard := congrArg Multiset.card heq
    simp at hcard
  · exact hI.passed t (by simp)
  · exact fun _ => hI.awake _ hmem

lemma watches_tryPause : Watches cfg (tryPause r e) {.since t} fun _ r' => r' = {.since t} := by
  refine .seq (watches_act rfl) fun _ => ?_
  refine watches_acquire.bind fun got r' hr => ?_
  simp only [reduceCtorEq, and_false, if_false] at hr
  subst hr
  rcases got with _ | _ | _
  · exact watches_act rfl
  · exact watches_act rfl
  refine (watches_manager (byManager_broadcast r _)).seq fun _ => ?_
  refine (watches_sendPause he).seq fun _ => ?_
  exact watches_manager (byManager_afterPause r _)

lemma watches_tryKill : Watches cfg (tryKill r e) {.since t} fun _ r' => r' = {.since t} := by
  refine .seq (watches_act rfl) fun _ => ?_
  refine watches_acquire.bind fun got r' hr => ?_
  rcases got with _ | _ | _
  · subst hr
    exact watches_act rfl
  · subst hr
    exact watches_act rfl
  subst hr
  refine (watches_manager (byManager_broadcast r _)).seq fun _ => ?_
  refine (watches_sendKill he).seq fun _ => ?_
  exact watches_manager (byManager_afterKill r _)

end

lemma watches_sweepEntries (es : List Entry) :
    Watches cfg (sweepEntries cfg r t es) {.since t} fun _ r' => r' = {.since t} := by
  refine sweepEntries_rule (Watches cfg · {.since t} fun _ r' => r' = {.since t}) (.ret rfl)
    (fun _ _ hp hq => hp.seq fun _ => hq) (fun _ _ hf => (watches_act rfl).seq hf)
    (fun e he => ?_) es
  split
  · exact watches_tryPause he
  · exact watches_tryKill he

lemma watches_sweepOnce (r : ManagerId) : Watches cfg (sweepOnce cfg r) 0 fun _ r' => r' = 0 := by
  refine watches_now.seq fun t => ?_
  refine .seq (watches_act rfl) fun es => ?_
  refine (watches_sweepEntries es).seq fun _ => ?_
  exact watches_swept

lemma byGate (sidecar : Bool) (p : ProxyId) (k : Nat) (sid : Sid) :
    Within (·.side = .proxy) (fun _ => True) (gate sidecar p k sid) := by
  have hact : ∀ {a : Act}, a.side = .proxy → Within (·.side = .proxy) (fun _ => True) (act a) :=
    fun ha => Within.perform ha fun _ => trivial
  refine .act rfl fun v => ?_
  obtain ⟨st, before⟩ := v
  rcases st with _ | st
  · exact hact rfl
  cases st with
  | running | resuming | pausing | killing | killed => exact hact rfl
  | paused =>
    dsimp only
    split
    · exact hact rfl
    refine .act rfl fun status => ?_
    split
    · exact .act rfl fun _ => hact rfl
    · exact hact rfl

lemma watched_start {w w' : World} {R : Multiset Claim} {op : Op} {p : Task Unit}
    (h : Watched cfg w R) (hok : TimelyStart w op) (hs : startOp cfg w op = some (w', p)) :
    Watched cfg w' R ∧ Watches cfg p 0 fun _ r => r = 0 := by
  have hdone : Watches cfg (pure ()) 0 fun _ r => r = 0 := .ret rfl
  cases op <;> simp only [startOp] at hs
  case tick ms =>
    cases hs
    refine ⟨⟨h.locks, h.awake, fun t ht => ?_, h.seen, h.right⟩, hdone⟩
    have hle := h.passed t ht
    dsimp only
    omega
  case create sid =>
    split at hs <;> cases hs
    exact ⟨h.setPhase (by simp), hdone⟩
  case user c sid published =>
    cases hs
    exact ⟨h.carryOut published fun hc _ => hok hc, hdone⟩
  case serveOrphan i applied published =>
    obtain ⟨x, hx, rfl, rfl⟩ := acted_map hs
    exact ⟨(h.carryOut published (hok x hx)).of_same rfl, hdone⟩
  case emit ev =>
    split at hs <;> cases hs
    exact ⟨h.of_same rfl, hdone⟩
  case registry r u =>
    cases hs
    exact ⟨h, watches_act rfl⟩
  case expire sid =>
    cases hs
    exact ⟨h.clearKey sid, hdone⟩
  case refresh | boot | stop =>
    cases hs
    exact ⟨h.of_same rfl, hdone⟩
  case join r p =>
    cases hs
    exact ⟨h, watches_manager (byManager_replayRegistryTo r p)⟩
  case arrive i stored =>
    obtain ⟨x, -, rfl, rfl⟩ := acted_map hs
    exact ⟨(h.pushOne x.2 x.1 (.answered stored)).of_same rfl, hdone⟩
  case evict p sid =>
    obtain ⟨q, -, rfl, rfl⟩ := acted_map hs
    exact ⟨h.of_same rfl, hdone⟩
  case sweep r =>
    obtain ⟨-, rfl, rfl⟩ := acted_unless hs
    exact ⟨h.of_same rfl, watches_sweepOnce r⟩
  case resume r sid polls =>
    split at hs
    · cases hs
      exact ⟨h, hdone⟩
    · cases hs
      exact ⟨h.of_same rfl, watches_manager (byManager_resume r sid polls)⟩
  case consume r =>
    split at hs
    · simp at hs
    split at hs <;> cases hs
    rename_i ev rest _
    exact ⟨h.of_same rfl, watches_manager (byManager_handleEvent r ev)⟩
  case request p sid =>
    split at hs <;> try cases hs
    obtain ⟨q, -, rfl, rfl⟩ := acted_map hs
    refine ⟨h, (Safe.of_within (fun a ha => ?_) (byGate _ _ _ _)).mono fun _ _ hr => hr.2⟩
    exact watched_manager a (by rw [ha]; decide)

/-- **The sweeper acts on idle sandboxes that run.** In every timely run each Pause or Kill call is
for a sandbox whose idle time has reached its timeout by the entry and the clock of that moment, and
no Kill call is for a sandbox that CubeMaster has paused. -/
theorem swept_only_idle (cfg : SweepOptions) (es : List (Ev Outcome Op)) (c : Config Act.Ans World)
    (hok : Runs.Meets (machine cfg).step (Machine.onEv Timely TimelyStart) begin es)
    (h : exec (machine cfg).step begin es = some c) :
    ∀ i ∈ c.world.issued, i.call ≠ .resume → (∃ e, i.entry = some e ∧ Expired cfg i.time e) ∧
        (i.call = .kill → i.phase ≠ some .paused) := by
  have hinit : Watched cfg .init 0 := by
    refine ⟨rfl, ?_, ?_, ?_, ?_⟩ <;> simp [World.init]
  have hsound : Sound (machine cfg) (Watched cfg) Timely c := by
    refine sound_run (fun s R op s' p hI hop _ hs => ?_) hinit hok h
    obtain ⟨hI', hp⟩ := watched_start hI hop hs
    exact ⟨0, by rwa [zero_add], hp⟩
  obtain ⟨rs, -, hI⟩ := hsound
  exact hI.right

def killMeta : Metadata := ⟨[115], some 1, false, false, 1, 0⟩

/-- A sandbox that is killed after a second without activity, and is idle for five. -/
def idleRun : List (Ev Outcome Op) :=
  [.start (.create [115]), .start (.registry 0 (.upsert killMeta)), .go 1 .ok, .start (.tick 5000)]

/-- A sweep up to the lock for the kill, and the call. -/
def sweepLocks (n : Nat) : List (Ev Outcome Op) := .start (.sweep 0) :: goes n (.replicate 6 .ok)

theorem idle_sandbox_killed :
    ∃ c, exec (machine demoOptions).step begin (idleRun ++ sweepLocks 3 ++ goes 3 [.ok]) =
        some c ∧
      Runs.Meets (machine demoOptions).step (Machine.onEv Timely TimelyStart) begin
        (idleRun ++ sweepLocks 3 ++ goes 3 [.ok]) ∧
      ∃ i ∈ c.world.issued, i.call = .kill ∧ (∃ e, i.entry = some e ∧
        Expired demoOptions i.time e) ∧ (i.call = .kill → i.phase ≠ some .paused) := by
  have hmeets : Runs.Meets (machine demoOptions).step (Machine.onEv Timely TimelyStart) begin
      (idleRun ++ sweepLocks 3 ++ goes 3 [.ok]) := by decide +kernel
  refine leads (fun c => c.world.issued)
    [⟨.kill, [115], some ⟨killMeta, 0, 0⟩, 5000, some .running⟩] (by decide +kernel)
    fun c hc hissued => ?_
  have hmem : ⟨.kill, [115], some ⟨killMeta, 0, 0⟩, 5000, some .running⟩ ∈ c.world.issued := by
    rw [hissued]; simp
  exact ⟨hmeets, _, hmem, rfl, swept_only_idle demoOptions _ c hmeets hc _ hmem (by simp)⟩

/-- The sandbox is used after the sweep has locked it. -/
def usedRun : List (Ev Outcome Op) :=
  idleRun ++ sweepLocks 3 ++ [.start (.registry 0 (.merge [115] 5000)), .go 4 .ok, .go 3 .ok]

/-- The user pauses the sandbox, the manager learns of it, and the lease of the key expires. -/
def leaseRun : List (Ev Outcome Op) :=
  idleRun ++ [.start (.user .pause [115] true), .start (.consume 0)] ++
    goes 4 [.ok, .ok, .ok, .ok, .ok, .ok, .ok] ++ [.start (.expire [115])] ++ sweepLocks 6 ++
    goes 6 [.ok]

/-- A request for the paused sandbox, which is not to be resumed, deletes the key. -/
def refusedRun : List (Ev Outcome Op) :=
  idleRun ++ [.start (.user .pause [115] true), .start (.consume 0)] ++
    goes 4 [.ok, .ok, .ok, .ok, .ok, .ok, .ok] ++ [.start (.resume 0 [115] 0)] ++
    goes 5 [.ok, .ok, .ok, .ok] ++ sweepLocks 6 ++ goes 6 [.ok]

lemma wrong_calls : ∀ x ∈ [(usedRun, some ⟨killMeta, 5000, 0⟩, some Phase.running),
      (leaseRun, some ⟨killMeta, 0, 0⟩, some .paused),
      (refusedRun, some ⟨killMeta, 0, 0⟩, some .paused)],
      (exec (machine demoOptions).step begin x.1).map (fun c => c.world.issued) =
        some [⟨.kill, [115], x.2.1, 5000, x.2.2⟩] := by
  decide +kernel

theorem paused_sandbox_killed :
    ¬ ∀ (cfg : SweepOptions) (es : List (Ev Outcome Op)) (c : Config Act.Ans World),
      exec (machine cfg).step begin es = some c → ∀ i ∈ c.world.issued, i.call ≠ .resume →
          (∃ e, i.entry = some e ∧ Expired cfg i.time e) ∧
            (i.call = .kill → i.phase ≠ some .paused) := by
  intro hall
  obtain ⟨c, hc, hissued⟩ := Option.map_eq_some_iff.1
    (wrong_calls (leaseRun, some ⟨killMeta, 0, 0⟩, some .paused) (by simp))
  have hmem : ⟨.kill, [115], some ⟨killMeta, 0, 0⟩, 5000, some .paused⟩ ∈ c.world.issued := by
    rw [hissued]; simp
  exact (hall _ _ c hc _ hmem (by simp)).2 rfl rfl

end CubeSandbox.Flow
