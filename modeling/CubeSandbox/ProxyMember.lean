import CubeSandbox.Conc
import CubeSandbox.GoText
import CubeSandbox.Tbl

/-!
How proxies register and how the lifecycle manager finds them (`proxy_registry.lua`,
`discovery/redis.go`).

A proxy writes a row with its endpoint once and a heartbeat at each tick of a timer. The
manager takes the proxies with a recent heartbeat and a row into its live set and prunes the
others from Redis. The row is a JSON text that the manager decodes; the model keeps the
endpoint itself. All times are of the clock of the one who acts, so they are arbitrary.
-/

namespace CubeSandbox.Member

open GoText Conc Multiset Option Tbl Runs

abbrev ProxyId := Bytes

structure Endpoint where
  proxyId : ProxyId
  adminUrl : Bytes
  deriving DecidableEq

/-- A running process: its configuration, what it believes of its row, and its ticks on their
way. -/
structure Proc where
  incarnation : Nat
  endpoint : Endpoint
  registryPushed : Bool
  ticking : Nat

/-- What happened to a proxy: a tick in which every call succeeded, or a prune. -/
inductive Note
  | ticked (p : ProxyId)
  | pruned (p : ProxyId)
  deriving DecidableEq

def Note.proxy : Note → ProxyId
  | ticked p | pruned p => p

/-- Redis, the processes, the live set, and what happened to the proxies, the last first. -/
structure World where
  registry : Tbl ProxyId Endpoint
  heartbeat : Tbl ProxyId Int
  procs : Tbl ProxyId Proc
  incarnations : Nat
  live : Tbl ProxyId Endpoint
  notes : List Note

namespace World

def init : World := ⟨∅, ∅, ∅, 0, ∅, []⟩

def proc (w : World) (p : ProxyId) (k : Nat) : Option Proc :=
  (w.procs.get p).filter fun q => q.incarnation = k

def setProc (w : World) (p : ProxyId) (q : Proc) : World :=
  { w with procs := w.procs.put p q }

end World

/-- The members with a score above the cutoff. -/
def zrangeLive (heartbeat : Tbl ProxyId Int) (cutoff : Int) : List ProxyId :=
  (heartbeat.toPairs.filter fun e => cutoff < e.2).map Prod.fst

/-- The members with a score up to the cutoff. -/
def zrangeExpired (heartbeat : Tbl ProxyId Int) (cutoff : Int) : List ProxyId :=
  (heartbeat.toPairs.filter fun e => e.2 < cutoff + 1).map Prod.fst

def hmget (registry : Tbl ProxyId Endpoint) (ids : List ProxyId) : List (Option Endpoint) :=
  ids.map registry.get

/-- A heartbeat without a row is skipped, and the identity is that of the field. -/
def liveOf (ids : List ProxyId) (rows : List (Option Endpoint)) : Tbl ProxyId Endpoint :=
  (ids.zip rows).foldl (fun next e =>
    match e.2 with
    | none => next
    | some ep => next.put e.1 { ep with proxyId := e.1 }) ∅

def nonEmptyIds (members : List ProxyId) : List ProxyId := members.filter fun id => id ≠ []

/-- The live set that a refresh computes from one state of Redis. -/
def nextLive (w : World) (cutoff : Int) : Tbl ProxyId Endpoint :=
  let ids := nonEmptyIds (zrangeLive w.heartbeat cutoff)
  liveOf ids (hmget w.registry ids)

def diffJoins (prev cur : Tbl ProxyId Endpoint) : List ProxyId × List ProxyId :=
  (cur.keys.filter fun id => (prev.get id).isNone, prev.keys.filter fun id => (cur.get id).isNone)

inductive Act
  | registryPushed (p : ProxyId) (k : Nat)
  | hset (p : ProxyId) (k : Nat)
  | setPushed (p : ProxyId) (k : Nat) (pushed : Bool)
  | zadd (p : ProxyId) (k : Nat) (score : Int)
  | tickEnd (p : ProxyId) (k : Nat) (succeeded : Bool)
  | zrangeLive (cutoff : Int)
  | hmget (ids : List ProxyId)
  | swap (next : Tbl ProxyId Endpoint)
  | zrangeExpired (cutoff : Int)
  | zremrange (cutoff : Int)
  | hdel (ids : List ProxyId)

@[reducible] def Act.Ans : Act → Type
  | .registryPushed .. | .hset .. | .zadd .. | .zremrange _ | .hdel _ => Bool
  | .setPushed .. | .tickEnd .. => Unit
  | .zrangeLive _ | .zrangeExpired _ => Option (List ProxyId)
  | .hmget _ => Option (List (Option Endpoint))
  | .swap _ => List ProxyId × List ProxyId

/-- How a call of Redis ends: it works, its answer is lost, or it is not carried out. -/
inductive Outcome
  | ok
  | lost
  | fail

abbrev Task := Prog Act.Ans

/-- A write of Redis under an outcome. -/
def redisWrite (w w' : World) : Outcome → Option (World × Bool)
  | .ok => some (w', true)
  | .lost => some (w', false)
  | .fail => some (w, false)

/-- A read of Redis under an outcome. -/
def redisRead {α : Type} (w : World) (v : α) : Outcome → Option (World × Option α)
  | .ok => some (w, some v)
  | _ => some (w, none)

def pruneHeartbeat (w : World) (cutoff : Int) : World :=
  let ids := zrangeExpired w.heartbeat cutoff
  { w with heartbeat := w.heartbeat.delAll ids, notes := ids.map .pruned ++ w.notes }

def pruneRows (w : World) (ids : List ProxyId) : World :=
  { w with registry := w.registry.delAll ids, notes := ids.map .pruned ++ w.notes }

/-- The acts of a proxy need its process to run. -/
def perform (a : Act) (w : World) (o : Outcome) : Option (World × a.Ans) :=
  match a with
  | .registryPushed p k => (w.proc p k).map fun q => (w, q.registryPushed)
  | .hset p k => (w.proc p k).bind fun q =>
    redisWrite w { w with registry := w.registry.put p q.endpoint } o
  | .setPushed p k pushed => (w.proc p k).map fun q =>
    (w.setProc p { q with registryPushed := pushed }, ())
  | .zadd p k score => (w.proc p k).bind fun _ =>
    redisWrite w { w with heartbeat := w.heartbeat.put p score } o
  | .tickEnd p k succeeded => (w.proc p k).map fun q =>
    let w := w.setProc p { q with ticking := q.ticking - 1 }
    ({ w with notes := if succeeded then .ticked p :: w.notes else w.notes }, ())
  | .zrangeLive cutoff => redisRead w (zrangeLive w.heartbeat cutoff) o
  | .hmget ids => redisRead w (hmget w.registry ids) o
  | .swap next => some ({ w with live := next }, diffJoins w.live next)
  | .zrangeExpired cutoff => redisRead w (zrangeExpired w.heartbeat cutoff) o
  | .zremrange cutoff => redisWrite w (pruneHeartbeat w cutoff) o
  | .hdel ids => redisWrite w (pruneRows w ids) o

def act (a : Act) : Task a.Ans := .perform a

def beat (p : ProxyId) (k : Nat) (nowMs : Int) : Task Unit := do
  if ← act (.zadd p k nowMs) then act (.tickEnd p k true)
  else
    act (.setPushed p k false)
    act (.tickEnd p k false)

def publish (p : ProxyId) (k : Nat) (nowMs : Int) : Task Unit := do
  if ← act (.registryPushed p k) then beat p k nowMs
  else if ← act (.hset p k) then
    act (.setPushed p k true)
    beat p k nowMs
  else act (.tickEnd p k false)

/-- The two commands of the pipeline may fail on their own. -/
def pruneExpired (cutoff : Int) : Task Unit := do
  match ← act (.zrangeExpired cutoff) with
  | none => return
  | some expired =>
    if expired = [] then return
    else
      let _ ← act (.zremrange cutoff)
      let _ ← act (.hdel expired)
      return

def refreshRows (ids : List ProxyId) : Task (Option (List (Option Endpoint))) :=
  if ids = [] then pure (some []) else act (.hmget ids)

def refreshOnce (ttl nowMs : Int) : Task Unit := do
  let cutoff := nowMs - ttl
  match ← act (.zrangeLive cutoff) with
  | none => return
  | some members =>
    let ids := nonEmptyIds members
    match ← refreshRows ids with
    | none => return
    | some rows =>
      let _ ← act (.swap (liveOf ids rows))
      pruneExpired cutoff

inductive Op
  /-- `setup`: a process starts with a new state. -/
  | boot (p : ProxyId) (ep : Endpoint)
  | crash (p : ProxyId)
  | tick (p : ProxyId) (nowMs : Int)
  | refresh (nowMs : Int)

def startOp (ttl : Int) (w : World) : Op → Option (World × Task Unit)
  | .boot p ep =>
    if p = [] then none
    else
      let w := w.setProc p ⟨w.incarnations, ep, false, 0⟩
      some ({ w with incarnations := w.incarnations + 1 }, pure ())
  | .crash p => some ({ w with procs := w.procs.del p }, pure ())
  | .tick p nowMs => (w.procs.get p).map fun q =>
    (w.setProc p { q with ticking := q.ticking + 1 }, publish p q.incarnation nowMs)
  | .refresh nowMs => some (w, refreshOnce ttl nowMs)

def machine (ttl : Int) : Machine Act.Ans World Outcome Op where
  act := perform
  start := startOp ttl
  alone := fun _ => false

/-- The last thing that happened to the proxy was a tick in which every call succeeded. -/
def Ticked (w : World) (p : ProxyId) : Prop :=
  (w.notes.find? fun n => n.proxy = p) = some (.ticked p)

/-- Row and heartbeat are there, and a refresh finds the proxy while the heartbeat is recent. -/
structure Present (w : World) (p : ProxyId) : Prop where
  row : (w.registry.get p).isSome
  heartbeat : (w.heartbeat.get p).isSome
  live : ∀ cutoff score, w.heartbeat.get p = some score → cutoff < score →
    ((nextLive w cutoff).get p).isSome

/-- No tick of the proxy is on its way. -/
def World.noTick (w : World) (p : ProxyId) : Bool :=
  (w.procs.get p).all fun q => q.ticking = 0

/-- No running process of the proxy takes its row for pushed. -/
def World.unpushed (w : World) (p : ProxyId) : Bool :=
  (w.procs.get p).all fun q => !q.registryPushed

/-- A prune spares a proxy in the middle of a tick, and a row that its proxy takes for pushed. -/
def Spares (w : World) : Act → Outcome → Prop
  | _, .fail => True
  | .zremrange cutoff, _ => ∀ p ∈ zrangeExpired w.heartbeat cutoff, w.noTick p
  | .hdel ids, _ => ∀ p ∈ ids, w.noTick p ∧ w.unpushed p
  | _, _ => True

instance (w : World) (a : Act) (o : Outcome) : Decidable (Spares w a o) := by
  rcases a <;> rcases o <;> unfold Spares <;> infer_instance

variable {p : ProxyId}

lemma isSome_foldl_live {registry : Tbl ProxyId Endpoint} (ids : List ProxyId)
    (next : Tbl ProxyId Endpoint)
    (h : (next.get p).isSome ∨ (p ∈ ids ∧ (registry.get p).isSome)) :
    (((ids.zip (hmget registry ids)).foldl (fun next e =>
      match e.2 with
      | none => next
      | some ep => next.put e.1 { ep with proxyId := e.1 }) next).get p).isSome := by
  induction ids generalizing next with
  | nil => simpa using h
  | cons id ids ih =>
    apply ih
    by_cases hp : p = id
    · -- the row of the proxy itself
      subst hp
      cases hrow : registry.get p with
      | none => simpa [hrow] using h
      | some ep => simp
    · cases registry.get id with
      | none => simpa [hp] using h
      | some ep => simpa [get_put_ne _ _ hp, hp] using h

variable {w s' : World}

lemma isSome_nextLive {cutoff score : Int} (hp : p ≠ [])
    (hrow : (w.registry.get p).isSome) (hbeat : w.heartbeat.get p = some score)
    (hlt : cutoff < score) : ((nextLive w cutoff).get p).isSome := by
  apply isSome_foldl_live
  refine .inr ⟨?_, hrow⟩
  have hmem : (p, score) ∈ w.heartbeat.toPairs := mem_pairs.2 hbeat
  simpa [nonEmptyIds, zrangeLive, hp] using ⟨score, hmem, hlt⟩

/-- A tick on its way: whether the row and the heartbeat are known to be there. -/
structure Tick where
  proxy : ProxyId
  incarnation : Nat
  row : Bool
  beat : Bool

/-- What a process believes of its row is right, a tick finds what it wrote, and ticks are
counted. -/
structure Inv (w : World) (R : Multiset Tick) : Prop where
  named : ∀ p q, w.procs.get p = some q → p ≠ []
  fresh : ∀ p q, w.procs.get p = some q → q.incarnation < w.incarnations
  older : ∀ t ∈ R, t.incarnation < w.incarnations
  count : ∀ p q, w.procs.get p = some q →
    R.countP (fun t => t.proxy = p ∧ t.incarnation = q.incarnation) ≤ q.ticking
  row : ∀ t ∈ R, t.row → (w.proc t.proxy t.incarnation).isSome →
    (w.registry.get t.proxy).isSome
  beat : ∀ t ∈ R, t.beat → (w.proc t.proxy t.incarnation).isSome →
    (w.heartbeat.get t.proxy).isSome
  pushed : ∀ p q, w.procs.get p = some q → q.registryPushed → (w.registry.get p).isSome
  ticked : ∀ p, Ticked w p → p ≠ [] ∧ (w.registry.get p).isSome ∧ (w.heartbeat.get p).isSome

variable {q : Proc}

lemma proc_eq_some {k : Nat} :
    w.proc p k = some q ↔ w.procs.get p = some q ∧ q.incarnation = k := by
  simp [World.proc, filter_eq_some_iff]

lemma isSome_proc_setProc {p' : ProxyId} {k k' : Nat} {q' : Proc}
    (h : w.proc p k = some q) (hq : q'.incarnation = k) :
    ((w.setProc p q').proc p' k').isSome = (w.proc p' k').isSome := by
  obtain ⟨hget, hk⟩ := proc_eq_some.1 h
  by_cases hp : p' = p
  · subst hp
    by_cases hk' : k = k' <;>
      simp [World.proc, World.setProc, hget, Option.filter, hq, hk, hk']
  · simp [World.proc, World.setProc, get_put_ne _ _ hp]

lemma setProc_cases {p' : ProxyId} {q' x : Proc} (h : (w.setProc p q').procs.get p' = some x) :
    (p' = p ∧ q' = x) ∨ w.procs.get p' = some x :=
  (get_put_eq_some.1 h).imp_right And.right

section Steps

variable {w : World} {R F : Multiset Tick} {p : ProxyId} {k : Nat}

lemma Inv.grow {registry : Tbl ProxyId Endpoint} {heartbeat : Tbl ProxyId Int}
    (h : Inv w R) (hr : ∀ p, (w.registry.get p).isSome → (registry.get p).isSome)
    (hb : ∀ p, (w.heartbeat.get p).isSome → (heartbeat.get p).isSome) :
    Inv { w with registry := registry, heartbeat := heartbeat } R :=
  { h with
    row := fun t ht hrow hp => hr _ (h.row t ht hrow hp)
    beat := fun t ht hbeat hp => hb _ (h.beat t ht hbeat hp)
    pushed := fun p q hq hp => hr _ (h.pushed p q hq hp)
    ticked := fun p hp => (h.ticked p hp).imp id fun ⟨h1, h2⟩ => ⟨hr _ h1, hb _ h2⟩ }

lemma Inv.learn {t t' : Tick} (h : Inv w ({t} + F)) (hp : t'.proxy = t.proxy)
    (hk : t'.incarnation = t.incarnation)
    (hrow : t'.row → (w.registry.get t'.proxy).isSome)
    (hbeat : t'.beat → (w.heartbeat.get t'.proxy).isSome) : Inv w ({t'} + F) :=
  { h with
    older := by
      intro u hu
      rw [singleton_add, mem_cons] at hu
      rcases hu with rfl | hu
      · rw [hk]; exact h.older t (by simp)
      · exact h.older u (by simp [hu])
    count := by
      intro p q hq
      have := h.count p q hq
      simpa [countP_cons, hp, hk] using this
    row := by
      intro u hu hur hup
      rw [singleton_add, mem_cons] at hu
      rcases hu with rfl | hu
      · exact hrow hur
      · exact h.row u (by simp [hu]) hur hup
    beat := by
      intro u hu hub hup
      rw [singleton_add, mem_cons] at hu
      rcases hu with rfl | hu
      · exact hbeat hub
      · exact h.beat u (by simp [hu]) hub hup }

/-- A running process changes, while its ticks `R` are still counted. -/
lemma Inv.setProc {R' : Multiset Tick} {q' : Proc} (h : Inv w R') (hR : R ≤ R')
    (hq : w.proc p k = some q) (hk : q'.incarnation = k)
    (hcount : R.countP (fun t => t.proxy = p ∧ t.incarnation = k) ≤ q'.ticking)
    (hpush : q'.registryPushed → (w.registry.get p).isSome) : Inv (w.setProc p q') R := by
  obtain ⟨hget, hk'⟩ := proc_eq_some.1 hq
  have hproc : ∀ p' k', ((w.setProc p q').proc p' k').isSome = (w.proc p' k').isSome :=
    fun p' k' => isSome_proc_setProc hq hk
  have hmem : ∀ t ∈ R, t ∈ R' := fun t ht => mem_of_le hR ht
  refine ⟨fun p' x hx => ?_, fun p' x hx => ?_, fun t ht => h.older t (hmem t ht),
    fun p' x hx => ?_, fun t ht hr hp => h.row t (hmem t ht) hr (by rwa [hproc] at hp),
    fun t ht hb hp => h.beat t (hmem t ht) hb (by rwa [hproc] at hp), fun p' x hx hxp => ?_,
    h.ticked⟩
  -- the process that changed, and any other one
  all_goals rcases setProc_cases hx with ⟨rfl, rfl⟩ | hx'
  · exact h.named p' q hget
  · exact h.named p' x hx'
  · rw [hk, ← hk']
    exact h.fresh p' q hget
  · exact h.fresh p' x hx'
  · rwa [hk]
  · exact (countP_le_of_le _ hR).trans (h.count p' x hx')
  · exact hpush hxp
  · exact h.pushed p' x hx' hxp

lemma Inv.setPushed {pushed : Bool} (h : Inv w R) (hq : w.proc p k = some q)
    (hrow : pushed → (w.registry.get p).isSome) :
    Inv (w.setProc p { q with registryPushed := pushed }) R := by
  obtain ⟨hget, hk⟩ := proc_eq_some.1 hq
  have hcount := h.count p q hget
  rw [hk] at hcount
  exact h.setProc le_rfl hq hk hcount hrow

lemma Inv.note (h : Inv w R) (hp : p ≠ []) (hrow : (w.registry.get p).isSome)
    (hbeat : (w.heartbeat.get p).isSome) : Inv { w with notes := .ticked p :: w.notes } R :=
  { h with
    ticked := by
      intro p' hp'
      by_cases he : p' = p
      · subst he
        exact ⟨hp, hrow, hbeat⟩
      refine h.ticked p' ?_
      unfold Ticked at hp' ⊢
      rwa [List.find?_cons_of_neg (by simp [Note.proxy, Ne.symm he])] at hp' }

lemma Inv.tickEnd {t : Tick} {succeeded : Bool} (h : Inv w ({t} + F))
    (hq : w.proc t.proxy t.incarnation = some q) (hrow : succeeded → t.row)
    (hbeat : succeeded → t.beat) :
    Inv { w.setProc t.proxy { q with ticking := q.ticking - 1 } with
      notes := if succeeded then .ticked t.proxy :: w.notes else w.notes } F := by
  obtain ⟨hget, hk⟩ := proc_eq_some.1 hq
  have hcount := h.count _ q hget
  simp only [singleton_add, countP_cons, hk, and_self, if_true] at hcount
  have hend : Inv (w.setProc t.proxy { q with ticking := q.ticking - 1 }) F :=
    h.setProc (Multiset.le_add_left ..) hq hk (by dsimp only; omega) (h.pushed _ q hget)
  cases succeeded with
  | false => exact hend
  | true =>
    have hsome : (w.proc t.proxy t.incarnation).isSome := by rw [hq]; rfl
    exact hend.note (h.named _ q hget) (h.row t (by simp) (hrow rfl) hsome)
      (h.beat t (by simp) (hbeat rfl) hsome)

lemma Inv.no_tick (h : Inv w R) (hp : w.noTick p) {t : Tick} (ht : t ∈ R)
    (htp : t.proxy = p) : ¬ (w.proc t.proxy t.incarnation).isSome := by
  intro hsome
  obtain ⟨q, hq⟩ := isSome_iff_exists.1 hsome
  obtain ⟨hget, hk⟩ := proc_eq_some.1 hq
  have hzero : q.ticking = 0 := by
    rw [htp] at hget
    simpa [World.noTick, hget] using hp
  have hcount := h.count _ q hget
  rw [hzero, Nat.le_zero, countP_eq_zero] at hcount
  exact hcount t ht ⟨rfl, hk.symm⟩

lemma ticked_of_prune {ids : List ProxyId} {notes : List Note}
    (h : ((ids.map Note.pruned ++ notes).find? fun n => n.proxy = p) = some (.ticked p)) :
    p ∉ ids ∧ (notes.find? fun n => n.proxy = p) = some (.ticked p) := by
  induction ids with
  | nil => exact ⟨by simp, h⟩
  | cons id ids ih =>
    by_cases hid : id = p
    · subst hid
      simp [Note.proxy] at h
    rw [List.map_cons, List.cons_append,
      List.find?_cons_of_neg (by simp [Note.proxy, hid])] at h
    exact ⟨by simpa [Ne.symm hid] using (ih h).1, (ih h).2⟩

section

variable (h : Inv w R)
include h

lemma Inv.pruneHeartbeat {cutoff : Int} (hok : ∀ p ∈ zrangeExpired w.heartbeat cutoff, w.noTick p) :
    Inv (pruneHeartbeat w cutoff) R := by
  refine { h with beat := ?_, ticked := ?_ }
  · intro t ht hbeat hp
    have hmem : t.proxy ∉ zrangeExpired w.heartbeat cutoff := fun hm =>
      h.no_tick (hok _ hm) ht rfl hp
    rw [Member.pruneHeartbeat, get_delAll, if_neg hmem]
    exact h.beat t ht hbeat hp
  · intro p hp
    obtain ⟨hmem, hold⟩ := ticked_of_prune hp
    refine (h.ticked p hold).imp id fun ⟨hrow, hbeat⟩ => ⟨hrow, ?_⟩
    rwa [Member.pruneHeartbeat, get_delAll, if_neg hmem]

lemma Inv.pruneRows {ids : List ProxyId}
    (hok : ∀ p ∈ ids, w.noTick p ∧ w.unpushed p) : Inv (pruneRows w ids) R := by
  refine { h with row := ?_, pushed := ?_, ticked := ?_ }
  · intro t ht hrow hp
    have hmem : t.proxy ∉ ids := fun hm => h.no_tick (hok _ hm).1 ht rfl hp
    rw [Member.pruneRows, get_delAll, if_neg hmem]
    exact h.row t ht hrow hp
  · intro p q hq hpush
    have hmem : p ∉ ids := by
      intro hm
      have := (hok p hm).2
      simp only [World.unpushed] at this
      rw [show w.procs.get p = some q from hq] at this
      simp [hpush] at this
    rw [Member.pruneRows, get_delAll, if_neg hmem]
    exact h.pushed p q hq hpush
  · intro p hp
    obtain ⟨hmem, hold⟩ := ticked_of_prune hp
    refine (h.ticked p hold).imp id fun ⟨hrow, hbeat⟩ => ⟨?_, hbeat⟩
    rwa [Member.pruneRows, get_delAll, if_neg hmem]

lemma Inv.boot {ep : Endpoint} (hp : p ≠ []) : Inv { w.setProc p ⟨w.incarnations, ep, false, 0⟩ with
      incarnations := w.incarnations + 1 } R := by
  have hold : ∀ t ∈ R, t.incarnation ≠ w.incarnations := fun t ht => (h.older t ht).ne
  have hproc : ∀ t ∈ R, ((w.setProc p ⟨w.incarnations, ep, false, 0⟩).proc t.proxy
      t.incarnation).isSome → (w.proc t.proxy t.incarnation).isSome := by
    intro t ht hsome
    by_cases htp : t.proxy = p
    · simp [World.proc, World.setProc, htp, Option.filter, (hold t ht).symm] at hsome
    · rwa [World.proc, World.setProc, get_put_ne _ _ htp] at hsome
  refine ⟨fun p' x hx => ?_, fun p' x hx => ?_, fun t ht => Nat.lt_succ_of_lt (h.older t ht),
    fun p' x hx => ?_, fun t ht hr hs => h.row t ht hr (hproc t ht hs),
    fun t ht hb hs => h.beat t ht hb (hproc t ht hs), fun p' x hx hxp => ?_, h.ticked⟩
  -- the new process, and any other one
  all_goals rcases setProc_cases hx with ⟨rfl, rfl⟩ | hx'
  · exact hp
  · exact h.named p' x hx'
  · exact Nat.lt_succ_self _
  · exact Nat.lt_succ_of_lt (h.fresh p' x hx')
  · rw [Nat.le_zero, countP_eq_zero]
    exact fun t ht hc => hold t ht hc.2
  · exact h.count p' x hx'
  · simp at hxp
  · exact h.pushed p' x hx' hxp

lemma Inv.crash (p : ProxyId) : Inv { w with procs := w.procs.del p } R := by
  have hproc : ∀ p' k', (({ w with procs := w.procs.del p } : World).proc p' k').isSome →
      (w.proc p' k').isSome := by
    intro p' k' hsome
    obtain ⟨q, hq⟩ := isSome_iff_exists.1 hsome
    obtain ⟨hget, hk⟩ := proc_eq_some.1 hq
    rw [proc_eq_some.2 ⟨(get_del_eq_some.1 hget).2, hk⟩]
    rfl
  exact {
    named := fun p' q hq => h.named p' q (get_del_eq_some.1 hq).2
    fresh := fun p' q hq => h.fresh p' q (get_del_eq_some.1 hq).2
    older := h.older
    count := fun p' q hq => h.count p' q (get_del_eq_some.1 hq).2
    row := fun t ht hr hp => h.row t ht hr (hproc _ _ hp)
    beat := fun t ht hb hp => h.beat t ht hb (hproc _ _ hp)
    pushed := fun p' q hq => h.pushed p' q (get_del_eq_some.1 hq).2
    ticked := h.ticked }

lemma Inv.tick (hq : w.procs.get p = some q) : Inv (w.setProc p { q with ticking := q.ticking + 1 })
      ({⟨p, q.incarnation, false, false⟩} + R) := by
  have hset : Inv (w.setProc p { q with ticking := q.ticking + 1 }) R :=
    h.setProc le_rfl (proc_eq_some.2 ⟨hq, rfl⟩) rfl ((h.count p q hq).trans (Nat.le_succ _))
      (h.pushed p q hq)
  exact { hset with
    older := by
      intro t ht
      rcases mem_add.1 ht with ht | ht
      · rw [mem_singleton.1 ht]
        exact h.fresh p q hq
      · exact h.older t ht
    count := by
      intro p' x hx
      rw [singleton_add, countP_cons]
      rw [World.setProc, get_put_eq_some] at hx
      rcases hx with ⟨rfl, rfl⟩ | ⟨hne, hx⟩
      · simpa using h.count p' q hq
      · simpa [Ne.symm hne] using h.count p' x hx
    row := by
      intro t ht hr hp
      rcases mem_add.1 ht with ht | ht
      · simp [mem_singleton.1 ht] at hr
      · exact hset.row t ht hr hp
    beat := by
      intro t ht hb hp
      rcases mem_add.1 ht with ht | ht
      · simp [mem_singleton.1 ht] at hb
      · exact hset.beat t ht hb hp }

end

end Steps

variable {ttl : Int} {p : ProxyId} {k : Nat}

abbrev Keeps {α : Type} (ttl : Int) (prog : Task α) (r : Multiset Tick)
    (Q : α → Multiset Tick → Prop) : Prop := Safe (machine ttl) Inv Spares prog r Q

lemma isSome_proc (h : w.proc p k = some q) : (w.proc p k).isSome := by
  rw [h]; rfl

lemma keeps_registryPushed :
    Keeps ttl (act (.registryPushed p k)) {⟨p, k, false, false⟩} fun v r' =>
      r' = {⟨p, k, v, false⟩} := by
  intro s F o s' v hI _ hact
  obtain ⟨q, hq, he⟩ := map_eq_some_iff.1 hact
  cases he
  have hrow : Inv s ({⟨p, k, q.registryPushed, false⟩} + F) :=
    hI.learn rfl rfl (hI.pushed p q (proc_eq_some.1 hq).1) (by simp)
  exact ⟨_, hrow, rfl⟩

lemma redisWrite_cases {w' : World} {o : Outcome} {v : Bool}
    (h : redisWrite w w' o = some (s', v)) : (s' = w' ∧ v = true) ∨ (v = false ∧
      (s' = w ∨ s' = w')) := by
  cases o <;> cases h <;> simp

/-- A write is known to have been made, or its tick learns nothing. -/
lemma redisWrite_tick {w' : World} {F : Multiset Tick} {f : Bool → Tick} {o : Outcome} {v : Bool}
    (h : redisWrite w w' o = some (s', v)) (hno : Inv w ({f false} + F))
    (hlost : Inv w' ({f false} + F)) (hyes : Inv w' ({f true} + F)) :
    ∃ r, Inv s' (r + F) ∧ r = {f v} := by
  rcases redisWrite_cases h with ⟨rfl, rfl⟩ | ⟨rfl, rfl | rfl⟩
  · exact ⟨_, hyes, rfl⟩
  · exact ⟨_, hno, rfl⟩
  · -- the write was made, and its answer got lost
    exact ⟨_, hlost, rfl⟩

lemma keeps_hset : Keeps ttl (act (.hset p k)) {⟨p, k, false, false⟩} fun v r' =>
    r' = {⟨p, k, v, false⟩} := by
  intro s F o s' v hI _ hact
  obtain ⟨q, _, hw⟩ := bind_eq_some_iff.1 hact
  have hgrow : Inv { s with registry := s.registry.put p q.endpoint }
      ({⟨p, k, false, false⟩} + F) := hI.grow (fun _ => Tbl.isSome_put) fun _ => id
  exact redisWrite_tick (f := (⟨p, k, ·, false⟩)) hw hI hgrow
    (hgrow.learn rfl rfl (fun _ => by simp) (by simp))

lemma keeps_zadd {score : Int} {row : Bool} :
    Keeps ttl (act (.zadd p k score)) {⟨p, k, row, false⟩} fun v r' =>
      r' = {⟨p, k, row, v⟩} := by
  intro s F o s' v hI _ hact
  obtain ⟨q, hq, hw⟩ := bind_eq_some_iff.1 hact
  have hgrow : Inv { s with heartbeat := s.heartbeat.put p score }
      ({⟨p, k, row, false⟩} + F) := hI.grow (fun _ => id) fun _ => Tbl.isSome_put
  exact redisWrite_tick (f := (⟨p, k, row, ·⟩)) hw hI hgrow (hgrow.learn rfl rfl
    (fun hr => hI.row ⟨p, k, row, false⟩ (by simp) hr (isSome_proc hq)) fun _ => by simp)

lemma keeps_setPushed {pushed row : Bool} (h : pushed → row) :
    Keeps ttl (act (.setPushed p k pushed)) {⟨p, k, row, false⟩} fun _ r' =>
      r' = {⟨p, k, row, false⟩} := by
  intro s F o s' v hI _ hact
  obtain ⟨q, hq, he⟩ := map_eq_some_iff.1 hact
  cases he
  refine ⟨_, hI.setPushed hq fun hp => ?_, rfl⟩
  exact hI.row ⟨p, k, row, false⟩ (by simp) (h hp) (isSome_proc hq)

lemma keeps_tickEnd {succeeded row beat : Bool} (hrow : succeeded → row)
    (hbeat : succeeded → beat) :
    Keeps ttl (act (.tickEnd p k succeeded)) {⟨p, k, row, beat⟩} fun _ r' => r' = 0 := by
  intro s F o s' v hI _ hact
  obtain ⟨q, hq, he⟩ := map_eq_some_iff.1 hact
  cases he
  refine ⟨0, ?_, rfl⟩
  rw [zero_add]
  exact hI.tickEnd hq hrow hbeat

lemma keeps_beat {nowMs : Int} :
    Keeps ttl (beat p k nowMs) {⟨p, k, true, false⟩} fun _ r' => r' = 0 := by
  refine keeps_zadd.seq fun v => ?_
  cases v with
  | true => exact keeps_tickEnd (by simp) (by simp)
  | false =>
    -- the row is to be written again
    refine (keeps_setPushed (by simp)).seq fun _ => ?_
    exact keeps_tickEnd (by simp) (by simp)

lemma keeps_publish {nowMs : Int} :
    Keeps ttl (publish p k nowMs) {⟨p, k, false, false⟩} fun _ r' => r' = 0 := by
  refine keeps_registryPushed.seq fun v => ?_
  cases v with
  | true => exact keeps_beat
  | false =>
    -- the row comes before the heartbeat
    refine keeps_hset.seq fun v => ?_
    cases v with
    | true =>
      refine (keeps_setPushed (by simp)).seq fun _ => ?_
      exact keeps_beat
    | false => exact keeps_tickEnd (by simp) (by simp)

def Managing : Act → Prop
  | .zrangeLive _ | .hmget _ | .swap _ | .zrangeExpired _ | .zremrange _ | .hdel _ => True
  | _ => False

lemma redisRead_eq {α : Type} {x : α} {o : Outcome} {v : Option α}
    (h : redisRead w x o = some (s', v)) : s' = w := by
  cases o <;> exact (acted h).1.symm

lemma managing_keeps (a : Act) (ha : Managing a) (w : World) (R : Multiset Tick) (o : Outcome)
    (w' : World) (v : a.Ans) (hI : Inv w R) (hok : Spares w a o)
    (hact : (machine ttl).act a w o = some (w', v)) : Inv w' R := by
  cases a with
  | zrangeLive cutoff => rw [redisRead_eq hact]; exact hI
  | hmget ids => rw [redisRead_eq hact]; exact hI
  | zrangeExpired cutoff => rw [redisRead_eq hact]; exact hI
  | swap next =>
    -- the live set is the manager's own
    cases hact
    exact { hI with }
  | zremrange cutoff =>
    -- a prune that fails has no effect
    cases o with
    | fail => cases hact; exact hI
    | ok | lost => cases hact; exact hI.pruneHeartbeat hok
  | hdel ids =>
    cases o with
    | fail => cases hact; exact hI
    | ok | lost => cases hact; exact hI.pruneRows hok
  | registryPushed | hset | setPushed | zadd | tickEnd => exact ha.elim

lemma within_act {a : Act} (ha : Managing a) : Within Managing (fun _ => True) (act a) :=
  Within.perform ha fun _ => trivial

lemma within_pruneExpired (cutoff : Int) :
    Within Managing (fun _ => True) (pruneExpired cutoff) := by
  refine (within_act (a := .zrangeExpired cutoff) trivial).seq fun v => ?_
  cases v with
  | none => exact .ret trivial
  | some expired =>
    dsimp only
    split
    · exact .ret trivial
    · refine (within_act (a := .zremrange cutoff) trivial).seq fun _ => ?_
      exact (within_act (a := .hdel expired) trivial).seq fun _ => .ret trivial

lemma within_refreshOnce (nowMs : Int) :
    Within Managing (fun _ => True) (refreshOnce ttl nowMs) := by
  refine (within_act (a := .zrangeLive _) trivial).seq fun v => ?_
  cases v with
  | none => exact .ret trivial
  | some members =>
    have hrows : Within Managing (fun _ => True) (refreshRows (nonEmptyIds members)) := by
      unfold refreshRows
      split
      · exact .ret trivial
      · exact within_act trivial
    refine Within.bind hrows fun v _ => ?_
    cases v with
    | none => exact .ret trivial
    | some rows =>
      refine (within_act (a := .swap _) trivial).seq fun _ => ?_
      exact within_pruneExpired _

def begin : Config Act.Ans World := ⟨.init, []⟩

lemma inv_init : Inv .init 0 where
  named := by simp [World.init]
  fresh := by simp [World.init]
  older := by simp
  count := by simp
  row := by simp
  beat := by simp
  pushed := by simp [World.init]
  ticked := by simp [World.init, Ticked]

lemma inv_startOp {s : World} {R : Multiset Tick} {op : Op} {prog : Task Unit} (hI : Inv s R)
    (hs : (machine ttl).start s op = some (s', prog)) :
    ∃ r, Inv s' (r + R) ∧ Keeps ttl prog r fun _ r' => r' = 0 := by
  cases op with
  | boot p ep =>
    -- a new incarnation, of which there is no tick
    obtain ⟨hp, rfl, rfl⟩ := acted_unless hs
    exact ⟨0, by rw [zero_add]; exact hI.boot hp, .ret rfl⟩
  | crash p =>
    -- the ticks of the process find it gone
    cases hs
    exact ⟨0, by rw [zero_add]; exact hI.crash p, .ret rfl⟩
  | tick p nowMs =>
    obtain ⟨q, hq, he⟩ := map_eq_some_iff.1 hs
    cases he
    exact ⟨_, hI.tick hq, keeps_publish⟩
  | refresh nowMs =>
    cases hs
    refine ⟨0, by rwa [zero_add], ?_⟩
    exact (Safe.of_within managing_keeps (within_refreshOnce nowMs)).mono fun _ _ h => h.2

/-- **Membership heals itself while no prune takes a row that its proxy believes in**: a proxy whose
last tick was complete and was not pruned since has its row and its heartbeat, and the next refresh
finds it. -/
theorem ticked_proxy_present (ttl : Int) (es : List (Ev Outcome Op)) (c : Config Act.Ans World)
    (hok : Runs.Meets (machine ttl).step (Machine.onEv Spares fun _ _ => True) begin es)
    (h : exec (machine ttl).step begin es = some c) (p : ProxyId)
    (hp : Ticked c.world p) : Present c.world p := by
  obtain ⟨rs, -, hI⟩ := sound_run (fun _ _ _ _ _ hI _ _ hs => inv_startOp hI hs) inv_init hok h
  obtain ⟨hne, hrow, hbeat⟩ := hI.ticked p hp
  exact ⟨hrow, hbeat, fun _ _ hs hlt => isSome_nextLive hne hrow hs hlt⟩

def goes (n k : Nat) : List (Ev Outcome Op) := List.replicate k (.go n .ok)

/-- A proxy starts and ticks. -/
def firstTick : List (Ev Outcome Op) :=
  [.start (.boot [1] ⟨[1], ascii "http://10.0.0.2:8082"⟩), .start (.tick [1] 0)] ++ goes 1 5

/-- The calls of a refresh 100 ms later. -/
def lateRefresh (calls : Nat) : List (Ev Outcome Op) := .start (.refresh 100) :: goes 2 calls

def nextTick : List (Ev Outcome Op) := .start (.tick [1] 101) :: goes 3 3

instance (w : World) (p : ProxyId) : Decidable (Ticked w p) :=
  inferInstanceAs (Decidable (_ = some (Note.ticked p)))

theorem punctual_proxy_present :
    ∃ c, exec (machine 1000).step begin (firstTick ++ lateRefresh 4 ++ nextTick) =
        some c ∧
      Ticked c.world [1] ∧ Present c.world [1] := by
  refine leads (fun c => decide (Ticked c.world [1])) true (by decide +kernel)
    fun c hc hout => ?_
  have hticked : Ticked c.world [1] := of_decide_eq_true hout
  exact ⟨hticked, ticked_proxy_present 1000 _ c (by decide +kernel) hc [1] hticked⟩

/-- With a shorter time to live the refresh prunes the proxy, whose row is then gone for good. -/
theorem stalled_proxy_absent :
    ¬ ∀ (ttl : Int) (es : List (Ev Outcome Op)) (c : Config Act.Ans World),
      exec (machine ttl).step begin es = some c →
        ∀ p, Ticked c.world p → Present c.world p := by
  intro hall
  have hrun : (exec (machine 15).step begin
      (firstTick ++ lateRefresh 5 ++ nextTick)).map
      (fun c => (decide (Ticked c.world [1]), c.world.registry.get [1])) =
      some (true, none) := by
    decide +kernel
  obtain ⟨c, hc, hout⟩ := map_eq_some_iff.1 hrun
  obtain ⟨hticked, hrow⟩ := Prod.mk.inj hout
  have hpresent := (hall 15 _ c hc [1] (of_decide_eq_true hticked)).row
  simp [hrow] at hpresent

end CubeSandbox.Member
