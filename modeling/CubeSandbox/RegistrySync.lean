import CubeSandbox.LcmModel
import CubeSandbox.Runs

/-!
How the registries of the lifecycle manager follow CubeMaster (`lifecycle/store.go`,
`redisstream/stream.go`, `bootstrapRegistry`, `consumeStream`).

CubeMaster writes the metadata of a sandbox into a Redis hash and then adds an event to a
stream. A replica of the manager starts from the hash, creates the consumer group of the stream
if there is none, and applies the events that the group hands to it. Each call of Redis is a
step of its own; what a publication or a replica does next is part of the state.

Redis hands each event of a group to one consumer, and a consumer that asks for new events
never sees again what was handed to it before, acknowledged or not; so the list of
unacknowledged deliveries has no part in the state.
-/

namespace CubeSandbox.Sync

open GoText Lcm List Tbl Runs

abbrev ReplicaId := Nat

/-- What CubeMaster publishes, as it stands in the stream. -/
inductive Event
  | create (m : Metadata)
  | update (m : Metadata)
  | delete (sid : Sid)
  deriving DecidableEq

namespace Event

def sid : Event → Sid
  | create m | update m => m.sandboxId
  | delete sid => sid

def value : Event → Option Metadata
  | create m | update m => some m
  | delete _ => none

end Event

/-- Before it has read the hash, before it has made sure of the group, in its loops. -/
inductive Phase
  | starting
  | seeded
  | serving
  deriving DecidableEq

/-- A replica, with the length of the stream when it read the hash and its events still to apply. -/
structure Replica where
  phase : Phase
  registry : Registry
  snapshotAt : Nat
  batch : List Event
  deriving DecidableEq

/-- The hash, the stream with its trimmed entries, the position of the group, the replicas, and the
publications in flight with a mark for those that have written the hash. -/
structure World where
  hash : Tbl Sid Metadata
  stream : List Event
  trimmed : Nat
  group : Option Nat
  replicas : Tbl ReplicaId Replica
  inFlight : List (Event × Bool)

def World.init : World := ⟨∅, [], 0, none, ∅, []⟩

/-- The entry of a field of the hash, whose name is the identity of the sandbox. -/
def seedEntry (startupTs : Int) (e : Sid × Metadata) : Entry :=
  ⟨{ e.2 with sandboxId := e.1 }, 0, startupTs⟩

/-- `Bootstrap` and the loop of `bootstrapRegistry`. -/
def seedRegistry (hash : Tbl Sid Metadata) (startupTs : Int) : Registry :=
  hash.toPairs.foldl (fun reg e => reg.put e.1 (seedEntry startupTs e)) ∅

/-- `handleEvent`, as far as the registry goes. -/
def handleEvent (reg : Registry) (now : Int) : Event → Registry
  | .create m => reg.upsert m now
  | .update m => (reg.upsert m now).resetLastActive m.sandboxId
  | .delete sid => reg.delete sid

/-- The metadata that a registry holds for a sandbox. -/
def held (reg : Registry) (sid : Sid) : Option Metadata := (reg.get sid).map Entry.metadata

/-- The steps. A call carries whether it works. -/
inductive Step
  /-- `PublishCreate`, `PublishUpdate` or `PublishDelete` is called. -/
  | publish (ev : Event)
  /-- Its `HSET` or `HDEL`. -/
  | writeHash (ev : Event) (ok : Bool)
  /-- Its `XADD`. -/
  | xadd (ev : Event) (ok : Bool)
  | boot (r : ReplicaId)
  | bootstrap (r : ReplicaId) (startupTs : Int) (ok : Bool)
  | ensureGroup (r : ReplicaId) (ok : Bool)
  | readGroup (r : ReplicaId) (ok : Bool)
  | handleEvent (r : ReplicaId) (now : Int)
  | crash (r : ReplicaId)
  | trim (n : Nat)

def writeHash (hash : Tbl Sid Metadata) (ev : Event) : Tbl Sid Metadata :=
  match ev.value with
  | some m => hash.put ev.sid m
  | none => hash.del ev.sid

/-- The entries that the group hands out next, up to 100. -/
def nextEvents (w : World) (position : Nat) : List Event :=
  (w.stream.drop (max position w.trimmed)).take 100

def stepPublisher (w : World) : Step → Option World
  | .publish ev =>
    if ev.sid = [] then some w else some { w with inFlight := (ev, false) :: w.inFlight }
  | .writeHash ev ok =>
    if (ev, false) ∈ w.inFlight then
      -- an error of this call does not stop the next one
      some { w with
        hash := if ok then writeHash w.hash ev else w.hash
        inFlight := (ev, true) :: w.inFlight.erase (ev, false) }
    else none
  | .xadd ev ok =>
    if (ev, true) ∈ w.inFlight then
      some { w with
        stream := if ok then w.stream ++ [ev] else w.stream
        inFlight := w.inFlight.erase (ev, true) }
    else none
  | .trim n => some { w with trimmed := max w.trimmed (min n w.stream.length) }
  | _ => none

/-- The step of a running replica; without a result the process ends. -/
def stepReplica (w : World) (rep : Replica) : Step → Option (World × Option Replica)
  | .bootstrap _ startupTs ok =>
    if rep.phase = .starting then
      some (w, if ok then some { rep with
        phase := .seeded
        registry := seedRegistry w.hash startupTs
        snapshotAt := w.stream.length } else none)
    else none
  | .ensureGroup _ ok =>
    if rep.phase = .seeded then
      if ok then
        -- a group that exists keeps its position
        some ({ w with group := some (w.group.getD w.stream.length) },
          some { rep with phase := .serving })
      else some (w, none)
    else none
  | .readGroup _ ok =>
    if rep.phase = .serving ∧ rep.batch = [] then
      match w.group with
      | some position =>
        if ok then
          let events := nextEvents w position
          some ({ w with group := some (max position w.trimmed + events.length) },
            some { rep with batch := events })
        else some (w, some rep)
      | none => some (w, some rep)
    else none
  | .handleEvent _ now =>
    match rep.batch with
    | [] => none
    | ev :: rest =>
      some (w, some { rep with registry := handleEvent rep.registry now ev, batch := rest })
  | .crash _ => some (w, none)
  | _ => none

def Step.replica : Step → Option ReplicaId
  | .bootstrap r _ _ | .ensureGroup r _ | .readGroup r _ | .handleEvent r _ | .crash r => some r
  | _ => none

def step (w : World) (e : Step) : Option World :=
  match e with
  | .boot r => some { w with replicas := w.replicas.put r ⟨.starting, ∅, 0, []⟩ }
  | _ =>
    match e.replica with
    | none => stepPublisher w e
    | some r => (w.replicas.get r).bind fun rep => (stepReplica w rep e).map fun x =>
      { x.1 with replicas := match x.2 with
        | some rep => x.1.replicas.put r rep
        | none => x.1.replicas.del r }

/-- No publication is in flight, every event was handed out, and every replica has applied its
own. -/
structure Drained (w : World) : Prop where
  published : w.inFlight = []
  group : w.replicas ≠ ∅ → w.group = some w.stream.length
  idle : ∀ x ∈ w.replicas.toPairs, x.2.phase = .serving ∧ x.2.batch = []

instance (w : World) : Decidable (Drained w) :=
  decidable_of_iff (w.inFlight = [] ∧ (w.replicas ≠ ∅ → w.group = some w.stream.length) ∧
      ∀ x ∈ w.replicas.toPairs, x.2.phase = .serving ∧ x.2.batch = [])
    ⟨fun h => ⟨h.1, h.2.1, h.2.2⟩, fun h => ⟨h.1, h.2, h.3⟩⟩

/-- No call of a publication fails and publications of one sandbox do not overlap; events are
handed out only while no other replica has read the hash; the group is made before anything is
added to the stream after a snapshot; and no entry is trimmed that the group has not handed
out. -/
def Single (w : World) : Step → Prop
  | .publish ev => ∀ x ∈ w.inFlight, x.1.sid ≠ ev.sid
  | .writeHash _ ok | .xadd _ ok => ok = true
  | .readGroup r ok => ∀ p ∈ w.group, ok = true → nextEvents w p ≠ [] →
      ∀ x ∈ w.replicas.toPairs, x.1 ≠ r → x.2.phase = .starting
  | .ensureGroup .. => w.group = none →
      ∀ x ∈ w.replicas.toPairs, x.2.phase ≠ .starting → x.2.snapshotAt = w.stream.length
  | .trim n => ∀ p ∈ w.group, n ≤ p
  | _ => True

instance (w : World) : ∀ e, Decidable (Single w e)
  | .publish _ | .writeHash .. | .xadd .. | .readGroup .. | .ensureGroup .. | .trim _ => by
    unfold Single; infer_instance
  | .boot _ | .bootstrap .. | .handleEvent .. | .crash _ => .isTrue trivial

lemma get_writeHash (hash : Tbl Sid Metadata) (ev : Event) (sid : Sid) :
    (writeHash hash ev).get sid = if sid = ev.sid then ev.value else hash.get sid := by
  unfold writeHash
  cases ev.value with
  | some m => exact get_put _ _
  | none => exact get_del _

variable (startupTs : Int) (reg : Registry)

lemma held_upsert (m : Metadata) (now : Int) (sid : Sid) :
    held (reg.upsert m now) sid = if sid = m.sandboxId then some m else held reg sid := by
  unfold held Registry.upsert
  cases reg.get m.sandboxId <;> simp only [get_put] <;> split <;> rfl

lemma held_resetLastActive (x sid : Sid) : held (reg.resetLastActive x) sid = held reg sid := by
  unfold held Registry.resetLastActive
  cases hx : reg.get x with
  | none => rfl
  | some e =>
    simp only [get_put]
    split_ifs with hs
    · simp [hs, hx]
    · rfl

lemma held_handleEvent (now : Int) (ev : Event) (sid : Sid) :
    held (handleEvent reg now ev) sid = if sid = ev.sid then ev.value else held reg sid := by
  cases ev with
  | create m => exact held_upsert reg m now sid
  | update m => exact (held_resetLastActive _ _ _).trans (held_upsert reg m now sid)
  | delete x =>
    unfold held handleEvent Registry.delete
    simp only [get_del]
    split <;> simp_all [Event.sid, Event.value]

lemma get_seed_of_notMem (es : List (Sid × Metadata)) (reg : Registry) {sid : Sid}
    (h : sid ∉ es.map Prod.fst) :
    (es.foldl (fun reg e => reg.put e.1 (seedEntry startupTs e)) reg).get sid = reg.get sid := by
  induction es generalizing reg with
  | nil => rfl
  | cons e es ih =>
    rw [map_cons, mem_cons, not_or] at h
    rw [foldl_cons, ih _ h.2, get_put_ne _ _ h.1]

lemma get_seed_of_mem {es : List (Sid × Metadata)} {sid : Sid} {m : Metadata}
    (hnodup : (es.map Prod.fst).Nodup) (h : (sid, m) ∈ es) :
    (es.foldl (fun reg e => reg.put e.1 (seedEntry startupTs e)) reg).get sid =
      some (seedEntry startupTs (sid, m)) := by
  induction es generalizing reg with
  | nil => simp at h
  | cons e es ih =>
    rw [map_cons, nodup_cons] at hnodup
    rw [foldl_cons]
    rcases mem_cons.1 h with rfl | h
    · rw [get_seed_of_notMem startupTs es _ hnodup.1, get_put_self]
    · exact ih _ hnodup.2 h

lemma held_seedRegistry {hash : Tbl Sid Metadata}
    (hkeyed : ∀ sid m, hash.get sid = some m → m.sandboxId = sid) (sid : Sid) :
    held (seedRegistry hash startupTs) sid = hash.get sid := by
  have hnodup : (hash.toPairs.map Prod.fst).Nodup := by simpa [pairs] using hash.nodup_keys
  cases hm : hash.get sid with
  | none =>
    have hnot : sid ∉ hash.toPairs.map Prod.fst := by
      intro hmem
      obtain ⟨⟨s, m⟩, he, rfl⟩ := mem_map.1 hmem
      have hget : hash.get s = some m := mem_pairs.1 he
      simp [hm] at hget
    exact congrArg (Option.map Entry.metadata) (get_seed_of_notMem startupTs _ ∅ hnot)
  | some m =>
    have hget := get_seed_of_mem startupTs ∅ hnodup (mem_pairs.2 hm)
    have hid := hkeyed sid m hm
    subst hid
    exact congrArg (Option.map Entry.metadata) hget

/-- From where on events are still to come for a replica. -/
def position (w : World) (rep : Replica) : Nat := w.group.getD rep.snapshotAt

/-- A publication of the sandbox has written the hash and not the stream. -/
def Written (w : World) (sid : Sid) : Prop := ∃ ev, (ev, true) ∈ w.inFlight ∧ ev.sid = sid

/-- A replica holds what the hash says of every sandbox of which no event is to come. -/
structure ReplicaOk (w : World) (rep : Replica) : Prop where
  bound : position w rep ≤ w.stream.length
  shape : ∃ pre, w.stream = pre ++ (rep.batch ++ w.stream.drop (position w rep))
  agree : ∀ sid, (∀ e ∈ rep.batch ++ w.stream.drop (position w rep), e.sid ≠ sid) →
    ¬ Written w sid → held rep.registry sid = w.hash.get sid

structure Inv (w : World) : Prop where
  nodup : (w.inFlight.map fun x => x.1.sid).Nodup
  keyed : ∀ sid m, w.hash.get sid = some m → m.sandboxId = sid
  written : ∀ ev, (ev, true) ∈ w.inFlight → w.hash.get ev.sid = ev.value
  last : ∀ pre ev post, w.stream = pre ++ ev :: post → (∀ e ∈ post, e.sid ≠ ev.sid) →
    ¬ Written w ev.sid → w.hash.get ev.sid = ev.value
  trimmed : w.trimmed ≤ w.stream.length
  group : ∀ p, w.group = some p → w.trimmed ≤ p ∧ p ≤ w.stream.length
  fresh : ∀ r rep, w.replicas.get r = some rep → rep.phase = .starting → rep.batch = []
  ok : ∀ r rep, w.replicas.get r = some rep → rep.phase ≠ .starting → ReplicaOk w rep

variable {r : ReplicaId} {rep : Replica}

section Steps

variable {w : World} {ev : Event}

lemma mem_erase_of_sid {x y : Event × Bool} (hx : x ∈ w.inFlight) (hs : x.1.sid ≠ y.1.sid) :
    x ∈ w.inFlight.erase y :=
  (mem_erase_of_ne fun he => hs (by rw [he])).2 hx

section

variable (h : Inv w)
include h

lemma Inv.writeHash (hev : (ev, false) ∈ w.inFlight) :
    let w' : World := { w with
      hash := writeHash w.hash ev
      inFlight := (ev, true) :: w.inFlight.erase (ev, false) }
    Inv w' := by
  intro w'
  have hperm : w.inFlight.Perm ((ev, false) :: w.inFlight.erase (ev, false)) :=
    perm_cons_erase hev
  -- of another sandbox the same publications are known
  have hother : ∀ sid, sid ≠ ev.sid → Written w sid → Written w' sid := by
    rintro sid hne ⟨e, he, rfl⟩
    exact ⟨e, mem_cons_of_mem _ (mem_erase_of_sid he hne), rfl⟩
  refine ⟨?_, ?_, ?_, ?_, h.trimmed, h.group, h.fresh, ?_⟩
  · have := (hperm.map fun x => x.1.sid).nodup_iff.1 h.nodup
    simpa [w'] using this
  · intro sid m hm
    rw [get_writeHash] at hm
    split at hm
    · rename_i hs
      cases ev <;> simp_all [Event.value, Event.sid]
    · exact h.keyed sid m hm
  · intro e he
    rw [get_writeHash]
    rcases mem_cons.1 he with heq | he
    · rw [(Prod.mk.inj heq).1, if_pos rfl]
    have hmem := mem_of_mem_erase he
    have hne : e.sid ≠ ev.sid := by
      intro hs
      have := inj_on_of_nodup_map h.nodup hmem hev hs
      simp at this
    rw [if_neg hne]
    exact h.written e hmem
  · intro pre e post hst hpost hw
    have hne : e.sid ≠ ev.sid := fun hs => hw ⟨ev, mem_cons_self .., hs.symm⟩
    rw [get_writeHash, if_neg hne]
    exact h.last pre e post hst hpost fun hwr => hw (hother _ hne hwr)
  · intro r rep hr hph
    have hok := h.ok r rep hr hph
    refine ⟨hok.bound, hok.shape, fun sid hsid hw => ?_⟩
    have hne : sid ≠ ev.sid := fun hs => hw ⟨ev, mem_cons_self .., hs.symm⟩
    rw [get_writeHash, if_neg hne]
    exact hok.agree sid hsid fun hwr => hw (hother _ hne hwr)

lemma Inv.xadd (hev : (ev, true) ∈ w.inFlight) :
    let w' : World :=
      { w with stream := w.stream ++ [ev], inFlight := w.inFlight.erase (ev, true) }
    Inv w' := by
  intro w'
  have hother : ∀ sid, sid ≠ ev.sid → Written w sid → Written w' sid := by
    rintro sid hne ⟨e, he, rfl⟩
    exact ⟨e, mem_erase_of_sid he hne, rfl⟩
  refine ⟨?_, h.keyed, fun e he => h.written e (mem_of_mem_erase he), ?_, ?_, ?_, h.fresh, ?_⟩
  · exact h.nodup.sublist (List.Sublist.map _ (erase_sublist ..))
  · intro pre e post hst hpost hw
    rcases eq_nil_or_concat' post with rfl | ⟨post', e', rfl⟩
    · obtain ⟨-, he⟩ := append_inj' hst rfl
      obtain rfl : ev = e := by simpa using he
      exact h.written ev hev
    have hst' : w.stream ++ [ev] = (pre ++ e :: post') ++ [e'] := by simpa using hst
    obtain ⟨hold, he⟩ := append_inj' hst' rfl
    obtain rfl : ev = e' := by simpa using he
    have hne : e.sid ≠ ev.sid := (hpost ev (by simp)).symm
    exact h.last pre e post' hold (fun x hx => hpost x (by simp [hx]))
      fun hwr => hw (hother _ hne hwr)
  · simpa [w'] using Nat.le_succ_of_le h.trimmed
  · intro p hp
    simpa [w'] using ⟨(h.group p hp).1, Nat.le_succ_of_le (h.group p hp).2⟩
  intro r rep hr hph
  have hok := h.ok r rep hr hph
  have hdrop : (w.stream ++ [ev]).drop (position w rep) =
      w.stream.drop (position w rep) ++ [ev] := drop_append_of_le_length hok.bound
  refine ⟨?_, ?_, fun sid hsid hw => ?_⟩
  · change position w rep ≤ (w.stream ++ [ev]).length
    simpa using Nat.le_succ_of_le hok.bound
  · obtain ⟨pre, hpre⟩ := hok.shape
    refine ⟨pre, ?_⟩
    change w.stream ++ [ev] = pre ++ (rep.batch ++ (w.stream ++ [ev]).drop (position w rep))
    rw [hdrop]
    nth_rewrite 1 [hpre]
    simp
  · have hsid' : ∀ e ∈ rep.batch ++ (w.stream.drop (position w rep) ++ [ev]), e.sid ≠ sid := by
      intro e he
      exact hsid e (by rw [← hdrop] at he; exact he)
    have hne : sid ≠ ev.sid := (hsid' ev (by simp)).symm
    exact hok.agree sid (fun e he => hsid' e (by
      rw [← append_assoc]; exact mem_append_left _ he))
      fun hwr => hw (hother _ hne hwr)

lemma Inv.publish (hev : ∀ x ∈ w.inFlight, x.1.sid ≠ ev.sid) :
    Inv { w with inFlight := (ev, false) :: w.inFlight } := by
  have hwr : ∀ sid, Written w sid → Written { w with inFlight := (ev, false) :: w.inFlight } sid :=
    fun _ ⟨e, he, hs⟩ => ⟨e, mem_cons_of_mem _ he, hs⟩
  refine ⟨?_, h.keyed, ?_, ?_, h.trimmed, h.group, h.fresh, ?_⟩
  · rw [map_cons, nodup_cons]
    refine ⟨fun hm => ?_, h.nodup⟩
    obtain ⟨x, hx, hs⟩ := mem_map.1 hm
    exact hev x hx hs
  · intro e he
    exact h.written e (by simpa using he)
  · exact fun pre e post hst hpost hw => h.last pre e post hst hpost fun hx => hw (hwr _ hx)
  · intro r rep hr hph
    have hok := h.ok r rep hr hph
    exact ⟨hok.bound, hok.shape, fun sid hs hw => hok.agree sid hs fun hx => hw (hwr _ hx)⟩

lemma Inv.trim {n : Nat} (hn : ∀ p ∈ w.group, n ≤ p) :
    Inv { w with trimmed := max w.trimmed (min n w.stream.length) } := by
  refine { h with trimmed := ?_, group := ?_, ok := fun r rep hr hph => ?_ }
  · exact max_le h.trimmed (min_le_right ..)
  · intro p hp
    obtain ⟨h1, h2⟩ := h.group p hp
    exact ⟨max_le h1 ((min_le_left ..).trans (hn p hp)), h2⟩
  · exact { h.ok r rep hr hph with }

lemma Inv.setReplica (hfresh : rep.phase = .starting → rep.batch = [])
    (hok : rep.phase ≠ .starting → ReplicaOk w rep) :
    Inv { w with replicas := w.replicas.put r rep } := by
  refine { h with fresh := ?_, ok := ?_ }
  · intro r' rep' hr'
    rcases get_put_eq_some.1 hr' with ⟨-, rfl⟩ | ⟨-, hr'⟩
    · exact hfresh
    · exact h.fresh r' rep' hr'
  intro r' rep' hr' hph
  have hok' : ReplicaOk w rep' := by
    rcases get_put_eq_some.1 hr' with ⟨-, rfl⟩ | ⟨-, hr'⟩
    · exact hok hph
    · exact h.ok r' rep' hr' hph
  exact { hok' with }

lemma Inv.delReplica (r : ReplicaId) : Inv { w with replicas := w.replicas.del r } := by
  refine { h with fresh := ?_, ok := ?_ }
  · exact fun r' rep' hr' => h.fresh r' rep' (get_del_eq_some.1 hr').2
  intro r' rep' hr' hph
  have hok' := h.ok r' rep' (get_del_eq_some.1 hr').2 hph
  exact { hok' with }

lemma Inv.snapshot (startupTs : Int) (hbatch : rep.batch = []) : ReplicaOk w { rep with
      phase := .seeded
      registry := seedRegistry w.hash startupTs
      snapshotAt := w.stream.length } := by
  refine ⟨?_, ⟨w.stream.take (w.group.getD w.stream.length), ?_⟩, ?_⟩
  · unfold position
    cases hg : w.group with
    | none => exact le_rfl
    | some p => exact (h.group p hg).2
  · simp [position, hbatch]
  · exact fun sid _ _ => held_seedRegistry startupTs h.keyed sid

lemma Inv.ensureGroup (hok : w.group = none →
      ∀ x ∈ w.replicas.toPairs, x.2.phase ≠ .starting → x.2.snapshotAt = w.stream.length) :
    Inv { w with group := some (w.group.getD w.stream.length) } := by
  cases hg : w.group with
  | some p =>
    have hw : { w with group := some ((some p).getD w.stream.length) } = w := by
      rw [Option.getD_some, ← hg]
    rwa [hw]
  | none =>
    refine { h with group := ?_, ok := ?_ }
    · intro p hp
      obtain rfl : w.stream.length = p := by simpa using hp
      exact ⟨h.trimmed, le_rfl⟩
    intro r rep hr hph
    have hsnap : rep.snapshotAt = w.stream.length :=
      hok hg (r, rep) (mem_pairs.2 hr) hph
    have hpos : position { w with group := some ((none : Option Nat).getD w.stream.length) }
        rep = position w rep := by simp [position, hg, hsnap]
    have hrep := h.ok r rep hr hph
    refine ⟨?_, ?_, ?_⟩ <;> rw [hpos]
    · exact hrep.bound
    · exact hrep.shape
    · exact hrep.agree

lemma Inv.readGroup {p : Nat} (hr : w.replicas.get r = some rep)
    (hph : rep.phase = .serving) (hbatch : rep.batch = []) (hg : w.group = some p)
    (hok : ∀ x ∈ w.replicas.toPairs, x.1 ≠ r → x.2.phase = .starting) :
    Inv { w with
      group := some (max p w.trimmed + (nextEvents w p).length)
      replicas := w.replicas.put r { rep with batch := nextEvents w p } } := by
  obtain ⟨htrim, hlen⟩ := h.group p hg
  have hmax : max p w.trimmed = p := max_eq_left htrim
  have hsplit : w.stream.drop p =
      nextEvents w p ++ w.stream.drop (p + (nextEvents w p).length) := by
    rw [nextEvents, hmax, ← drop_drop, length_take]
    rcases Nat.le_total 100 (w.stream.drop p).length with hle | hle
    · rw [Nat.min_eq_left hle, take_append_drop]
    · rw [Nat.min_eq_right hle, take_of_length_le hle, drop_length, append_nil]
  have hbound : p + (nextEvents w p).length ≤ w.stream.length := by
    rw [nextEvents, hmax, length_take, length_drop]
    omega
  have hrep := h.ok r rep hr (by simp [hph])
  refine { h with group := ?_, fresh := ?_, ok := ?_ }
  · intro q hq
    obtain rfl : max p w.trimmed + (nextEvents w p).length = q := by simpa using hq
    rw [hmax]
    exact ⟨htrim.trans (Nat.le_add_right ..), hbound⟩
  · intro r' rep' hr' hst
    rcases get_put_eq_some.1 hr' with ⟨-, rfl⟩ | ⟨-, hr'⟩
    · simp [hph] at hst
    · exact h.fresh r' rep' hr' hst
  intro r' rep' hr' hst
  rcases get_put_eq_some.1 hr' with ⟨rfl, rfl⟩ | ⟨hne, hr'⟩
  · have hold : rep.batch ++ w.stream.drop (position w rep) = w.stream.drop p := by
      simp [position, hg, hbatch]
    refine ⟨?_, ?_, ?_⟩ <;> simp only [position, Option.getD_some, hmax]
    · exact hbound
    · rw [← hsplit, ← hold]
      exact hrep.shape
    · rw [← hsplit, ← hold]
      exact hrep.agree
  · exact absurd (hok (r', rep') (mem_pairs.2 hr') hne) hst

lemma Inv.handleEvent {rest : List Event} (now : Int) (hok : ReplicaOk w rep)
    (hbatch : rep.batch = ev :: rest) :
    ReplicaOk w { rep with registry := handleEvent rep.registry now ev, batch := rest } := by
  obtain ⟨pre, hpre⟩ := hok.shape
  rw [hbatch, cons_append] at hpre
  refine ⟨hok.bound, ⟨pre ++ [ev], by simpa [position] using hpre⟩, fun sid hsid hw => ?_⟩
  rw [held_handleEvent]
  split
  · rename_i hs
    subst hs
    exact (h.last pre ev _ hpre hsid hw).symm
  rename_i hne
  refine hok.agree sid (fun e he => ?_) hw
  rw [hbatch, cons_append, mem_cons] at he
  rcases he with rfl | he
  · exact Ne.symm hne
  · exact hsid e he

end

end Steps

lemma inv_init : Inv .init where
  nodup := by simp [World.init]
  keyed := by simp [World.init]
  written := by simp [World.init]
  last := by simp [World.init]
  trimmed := by simp [World.init]
  group := by simp [World.init]
  fresh := by simp [World.init]
  ok := by simp [World.init]

lemma step_replica {w w' : World} {e : Step} (hr : e.replica = some r) (hs : step w e = some w') :
    ∃ rep x, w.replicas.get r = some rep ∧ stepReplica w rep e = some x ∧
      w' = { x.1 with replicas := match x.2 with
        | some rep => x.1.replicas.put r rep
        | none => x.1.replicas.del r } := by
  cases e <;> simp only [Step.replica, Option.some.injEq, reduceCtorEq] at hr <;> subst hr <;>
    · obtain ⟨rep, hrep, hmap⟩ := Option.bind_eq_some_iff.1 hs
      obtain ⟨x, hx, rfl⟩ := Option.map_eq_some_iff.1 hmap
      exact ⟨rep, x, hrep, hx, rfl⟩

lemma inv_step {w w' : World} {e : Step} (h : Inv w) (hok : Single w e)
    (hs : step w e = some w') : Inv w' := by
  cases e with
  | publish ev =>
    simp only [step, Step.replica, stepPublisher] at hs
    split at hs <;> cases hs
    · exact h
    · exact h.publish hok
  | writeHash ev ok =>
    obtain rfl : ok = true := hok
    simp only [step, Step.replica, stepPublisher, if_true] at hs
    split at hs <;> cases hs
    rename_i hmem
    exact h.writeHash hmem
  | xadd ev ok =>
    obtain rfl : ok = true := hok
    simp only [step, Step.replica, stepPublisher, if_true] at hs
    split at hs <;> cases hs
    rename_i hmem
    exact h.xadd hmem
  | trim n =>
    cases hs
    exact h.trim hok
  | boot r =>
    cases hs
    exact h.setReplica (fun _ => rfl) fun hph => absurd rfl hph
  | bootstrap r startupTs ok =>
    obtain ⟨rep, x, hrep, hx, rfl⟩ := step_replica rfl hs
    simp only [stepReplica] at hx
    split at hx <;> cases hx
    rename_i hph
    cases ok with
    | true => exact h.setReplica (by simp) fun _ => h.snapshot startupTs (h.fresh r rep hrep hph)
    | false => exact h.delReplica r
  | ensureGroup r ok =>
    obtain ⟨rep, x, hrep, hx, rfl⟩ := step_replica rfl hs
    simp only [stepReplica] at hx
    split at hx <;> try cases hx
    rename_i hph
    cases ok with
    | true =>
      simp only [if_true, Option.some.injEq] at hx
      subst hx
      have hg := h.ensureGroup hok
      refine hg.setReplica (by simp) fun _ => ?_
      have hrep' := hg.ok r rep hrep (by simp [hph])
      exact ⟨hrep'.bound, hrep'.shape, hrep'.agree⟩
    | false =>
      cases hx
      exact h.delReplica r
  | readGroup r ok =>
    obtain ⟨rep, x, hrep, hx, rfl⟩ := step_replica rfl hs
    simp only [stepReplica] at hx
    split at hx <;> try cases hx
    rename_i hph
    have hsame : Inv { w with replicas := w.replicas.put r rep } :=
      h.setReplica (h.fresh r rep hrep) (h.ok r rep hrep)
    cases hg : w.group with
    | none =>
      rw [hg] at hx
      cases hx
      exact hsame
    | some p =>
      rw [hg] at hx
      cases ok with
      | true =>
        cases hx
        by_cases hnext : nextEvents w p = []
        · -- nothing is handed out
          have hbatch : { rep with batch := [] } = rep := by rw [← hph.2]
          rwa [hnext, max_eq_left (h.group p hg).1, List.length_nil, add_zero, ← hg, hbatch]
        · exact h.readGroup hrep hph.1 hph.2 hg (hok p hg rfl hnext)
      | false =>
        cases hx
        exact hsame
  | handleEvent r now =>
    obtain ⟨rep, x, hrep, hx, rfl⟩ := step_replica rfl hs
    simp only [stepReplica] at hx
    split at hx
    · simp at hx
    rename_i ev rest hbatch
    cases hx
    refine h.setReplica (fun hph => ?_) fun hph =>
      h.handleEvent now (h.ok r rep hrep hph) hbatch
    simp [h.fresh r rep hrep hph] at hbatch
  | crash r =>
    obtain ⟨rep, x, hrep, hx, rfl⟩ := step_replica rfl hs
    cases hx
    exact h.delReplica r

/-- **Registries converge while one replica follows the stream**: in every such run each replica
holds what the hash says once everything is published and drained. -/
theorem registry_converges (es : List Step) (w : World)
    (hok : Runs.Meets step Single .init es) (h : exec step .init es = some w)
    (hdrained : Drained w) :
    ∀ r rep, w.replicas.get r = some rep → ∀ sid, held rep.registry sid = w.hash.get sid := by
  have hinv : Inv w := exec_inv (fun _ _ _ hi ho hs => inv_step hi ho hs) inv_init hok h
  intro r rep hrep sid
  obtain ⟨hph, hbatch⟩ : rep.phase = .serving ∧ rep.batch = [] :=
    hdrained.idle (r, rep) (mem_pairs.2 hrep)
  have hne : w.replicas ≠ ∅ := by
    intro he
    simp [he] at hrep
  have hpos : position w rep = w.stream.length := by
    rw [position, hdrained.group hne, Option.getD_some]
  refine (hinv.ok r rep hrep (by simp [hph])).agree sid ?_ ?_
  · simp [hbatch, hpos]
  · rintro ⟨ev, hev, -⟩
    simp [hdrained.published] at hev

def demoMeta : Metadata := ⟨[115], none, true, true, 1, 0⟩

def startUp (r : ReplicaId) : List Step := [.boot r, .bootstrap r 0 true, .ensureGroup r true]

def publication (ev : Event) : List Step := [.publish ev, .writeHash ev true, .xadd ev true]

/-- A replica crashes after an event was handed to it, and starts again. -/
def crashRun : List Step :=
  startUp 0 ++ publication (.create demoMeta) ++ [.readGroup 0 true, .crash 0] ++
    publication (.create { demoMeta with sandboxId := [116] }) ++ startUp 0 ++
    [.readGroup 0 true, .handleEvent 0 1]

theorem restarted_replica_converges :
    ∃ w rep, exec step .init crashRun = some w ∧ w.replicas.get 0 = some rep ∧
      w.stream.length = 2 ∧ ∀ sid, held rep.registry sid = w.hash.get sid := by
  have hrun : (exec step .init crashRun).map (fun w =>
      (decide (Drained w), (w.replicas.get 0).isSome, w.stream.length)) =
      some (true, true, 2) := by
    decide +kernel
  obtain ⟨w, hw, hout⟩ := Option.map_eq_some_iff.1 hrun
  simp only [Prod.mk.injEq, decide_eq_true_eq] at hout
  obtain ⟨hdrained, hsome, hlen⟩ := hout
  obtain ⟨rep, hrep⟩ := Option.isSome_iff_exists.1 hsome
  exact ⟨w, rep, hw, hrep, hlen,
    registry_converges crashRun w (by decide +kernel) hw hdrained 0 rep hrep⟩

/-- A sandbox is created between the snapshot of the first replica and its group. -/
def gapRun : List Step :=
  [.boot 0, .bootstrap 0 0 true] ++ publication (.create demoMeta) ++ [.ensureGroup 0 true]

/-- Two replicas share the group, and one of them gets the event. -/
def splitRun : List Step :=
  startUp 0 ++ startUp 1 ++ publication (.create demoMeta) ++
    [.readGroup 0 true, .handleEvent 0 1, .readGroup 1 true]

lemma diverging_runs : ∀ x ∈ [(gapRun, 0), (splitRun, 1)],
    ∃ w rep, exec step .init x.1 = some w ∧ Drained w ∧ w.replicas.get x.2 = some rep ∧
      held rep.registry [115] = none ∧ w.hash.get [115] = some demoMeta := by
  have hrun : ∀ x ∈ [(gapRun, 0), (splitRun, 1)],
      (exec step .init x.1).map (fun w => (decide (Drained w),
        (w.replicas.get x.2).map fun rep => held rep.registry [115], w.hash.get [115])) =
      some (true, some none, some demoMeta) := by
    decide +kernel
  intro x hx
  obtain ⟨w, hw, hout⟩ := Option.map_eq_some_iff.1 (hrun x hx)
  simp only [Prod.mk.injEq, decide_eq_true_eq, Option.map_eq_some_iff] at hout
  obtain ⟨hdrained, ⟨rep, hrep, hheld⟩, hhash⟩ := hout
  exact ⟨w, rep, hw, hdrained, hrep, hheld, hhash⟩

theorem registries_diverge :
    ¬ ∀ (es : List Step) (w : World), exec step .init es = some w → Drained w →
      ∀ r rep, w.replicas.get r = some rep → ∀ sid, held rep.registry sid = w.hash.get sid := by
  intro hall
  obtain ⟨w, rep, hw, hdrained, hrep, hheld, hhash⟩ := diverging_runs (gapRun, 0) (by simp)
  have heq := hall gapRun w hw hdrained 0 rep hrep [115]
  rw [hheld, hhash] at heq
  cases heq

end CubeSandbox.Sync
