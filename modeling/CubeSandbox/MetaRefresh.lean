import CubeSandbox.Conc
import CubeSandbox.RegistrySync

/-!
The lifecycle metadata that CubeMaster publishes (`lifecycle/store.go`, `lifecycle/init.go`):
creations, destructions and refreshes of the timeout.

Each command of Redis is an action. A refresh reads the row of a sandbox, rewrites it and adds
an event, and other publications may come between any two of its commands. A manager starts
from the hash at some position of the stream and applies every event from there on.
-/

namespace CubeSandbox.Meta

open GoText Conc Lcm Sync Multiset Option Runs Tbl

/-- A lifecycle manager that reads the whole stream from where it started. -/
structure Manager where
  registry : Registry
  cursor : Nat

/-- Redis, the managers and the ids used; as history the sandboxes that a publication in flight
holds metadata of, those whose row was removed, and those whose destruction is published. -/
structure World where
  hash : Tbl Sid Metadata
  stream : List Event
  managers : Tbl ReplicaId Manager
  used : List Sid
  holders : List Sid
  dropped : List Sid
  destroyed : List Sid

def World.init : World := ⟨∅, [], ∅, [], [], [], []⟩

inductive Act
  | hget (sid : Sid)
  | hset (m : Metadata)
  | hdel (sid : Sid)
  | xadd (ev : Event)
  /-- `time.Now().UnixMilli()`. -/
  | now

@[reducible] def Act.Ans : Act → Type
  | .hget _ => Except Unit (Option Metadata)
  | .hset _ | .hdel _ | .xadd _ => Bool
  | .now => Int

/-- A command works, its answer is lost, or it is not carried out; and what the clock tells. -/
inductive Outcome
  | ok
  | lost
  | fail
  | time (ms : Int)
  deriving DecidableEq

/-- A command that writes, under an outcome. -/
def redisWrite (w w' : World) : Outcome → Option (World × Bool)
  | .ok => some (w', true)
  | .lost => some (w', false)
  | .fail => some (w, false)
  | .time _ => none

/-- Whoever has read a row holds metadata. -/
def hold (w : World) : Option Metadata → World
  | some m => { w with holders := m.sandboxId :: w.holders }
  | none => w

/-- The last command of a publication. -/
def World.publishes (w : World) : Event → World
  | .create m | .update m => { w with holders := w.holders.erase m.sandboxId }
  | .delete sid => { w with destroyed := sid :: w.destroyed }

def perform : (a : Act) → World → Outcome → Option (World × a.Ans)
  | .hget sid, w, .ok => some (hold w (w.hash.get sid), .ok (w.hash.get sid))
  | .hget _, w, .lost | .hget _, w, .fail => some (w, .error ())
  | .hset m, w, o => redisWrite w { w with hash := w.hash.put m.sandboxId m } o
  | .hdel sid, w, o =>
    redisWrite w { w with hash := w.hash.del sid, dropped := sid :: w.dropped } o
  | .xadd ev, w, o =>
    redisWrite (w.publishes ev) { w.publishes ev with stream := w.stream ++ [ev] } o
  | .now, w, .time ms => some (w, ms)
  | _, _, _ => none

abbrev Task := Prog Act.Ans

def act (a : Act) : Task a.Ans := .perform a

/-- The two commands of `PublishCreate` and `PublishUpdate`, whose errors are logged only. -/
def publishRow (m : Metadata) (ev : Event) : Task Unit := do
  if m.sandboxId = [] then return
  let _ ← act (.hset m)
  let _ ← act (.xadd ev)
  return

def publishCreate (m : Metadata) : Task Unit := publishRow m (.create m)

def publishUpdate (m : Metadata) : Task Unit := publishRow m (.update m)

def publishDelete (sid : Sid) : Task Unit := do
  if sid = [] then return
  let _ ← act (.hdel sid)
  let _ ← act (.xadd (.delete sid))
  return

def loadMeta (sid : Sid) : Task (Except Unit (Option Metadata)) :=
  if sid = [] then pure (.ok none) else act (.hget sid)

def projectedEndAt (nowMs timeoutSeconds : Int) : Int :=
  if timeoutSeconds < 0 then 0 else nowMs + timeoutSeconds * 1000

/-- The metadata with the new timeout, counted from now. -/
def refreshed (m : Metadata) (nowMs timeoutSeconds : Int) : Metadata :=
  { m with
    timeoutSeconds := some timeoutSeconds
    createdAt := nowMs
    endAt := projectedEndAt nowMs timeoutSeconds }

/-- `RefreshTimeout`, with the new end of the sandbox. -/
def refreshTimeout (sid : Sid) (timeoutSeconds : Int) : Task (Except Unit Int) := do
  match ← loadMeta sid with
  | .error e => return .error e
  | .ok none => return .ok 0
  | .ok (some m) =>
    let nowMs : Int ← act .now
    let m := refreshed m nowMs timeoutSeconds
    publishUpdate m
    return .ok m.endAt

inductive Op
  | create (m : Metadata)
  | destroy (sid : Sid)
  | refresh (sid : Sid) (timeoutSeconds : Int)
  /-- A manager starts at a position of the stream. -/
  | boot (r : ReplicaId) (cursor : Nat) (startupTs : Int)
  /-- A manager applies its next event. -/
  | consume (r : ReplicaId) (now : Int)

def startOp (w : World) : Op → Option (World × Task Unit)
  | .create m =>
    -- an id is given to one sandbox only
    if m.sandboxId ∈ w.used then none
    else if m.sandboxId = [] then some (w, publishCreate m)
    else some ({ w with
      used := m.sandboxId :: w.used
      holders := m.sandboxId :: w.holders }, publishCreate m)
  | .destroy sid => some ({ w with used := sid :: w.used }, publishDelete sid)
  | .refresh sid timeoutSeconds => some (w, do
      let _ ← refreshTimeout sid timeoutSeconds
      return)
  | .boot r cursor startupTs =>
    if cursor ≤ w.stream.length then
      some ({ w with managers :=
        w.managers.put r ⟨seedRegistry w.hash startupTs, cursor⟩ }, pure ())
    else none
  | .consume r now =>
    (w.managers.get r).bind fun g => (w.stream[g.cursor]?).map fun ev =>
      ({ w with managers :=
        w.managers.put r ⟨handleEvent g.registry now ev, g.cursor + 1⟩ }, pure ())

def machine : Machine Act.Ans World Outcome Op where
  act := perform
  start := startOp
  alone := fun _ => false

abbrev Conf := Config Act.Ans World

/-- Neither Redis nor a manager that has read the stream to its end has the sandbox. -/
structure Gone (w : World) (sid : Sid) : Prop where
  row : w.hash.get sid = none
  entry : ∀ r g, w.managers.get r = some g → g.cursor = w.stream.length → g.registry.get sid = none

/-- The commands of a destruction work, and when it removes the row no creation or refresh that
holds metadata of the sandbox is in flight. -/
def Apart (w : World) : Act → Outcome → Prop
  | .hdel sid, o => o ≠ .fail ∧ sid ∉ w.holders
  | .xadd (.delete _), o => o ≠ .fail
  | _, _ => True

instance (w : World) (a : Act) (o : Outcome) : Decidable (Apart w a o) := by
  unfold Apart
  split <;> infer_instance

/-- The metadata of a sandbox once the events are applied. -/
def after (sid : Sid) (v : Option Metadata) (es : List Event) : Option Metadata :=
  es.foldl (fun v e => if sid = e.sid then e.value else v) v

@[simp] lemma after_nil (sid : Sid) (v : Option Metadata) : after sid v [] = v := rfl

@[simp] lemma after_cons (sid : Sid) (v : Option Metadata) (e : Event) (es : List Event) :
    after sid v (e :: es) = after sid (if sid = e.sid then e.value else v) es := rfl

lemma after_snoc (sid : Sid) (v : Option Metadata) (es : List Event) (e : Event) :
    after sid v (es ++ [e]) = if sid = e.sid then e.value else after sid v es := by
  simp [after, List.foldl_append]

variable {sid : Sid} {m : Metadata} {ev : Event}

lemma after_drop_snoc {v : Option Metadata} {es : List Event} {e : Event} {n : Nat}
    (hn : n ≤ es.length) (he : sid = e.sid → e.value = none)
    (h : sid ≠ e.sid → after sid v (es.drop n) = none) :
    after sid v ((es ++ [e]).drop n) = none := by
  rw [List.drop_append_of_le_length hn, after_snoc]
  split
  · exact he ‹_›
  · exact h ‹_›

/-- A publication that holds metadata, a destruction, or one that has removed the row. -/
inductive Tok
  | holder (sid : Sid)
  | destroyer (sid : Sid)
  | dropper (sid : Sid)
  deriving DecidableEq

/-- A sandbox whose row was removed has none again, and nobody is left who could write one. -/
structure Inv (w : World) (R : Multiset Tok) : Prop where
  holders : ∀ sid, R.count (.holder sid) ≤ w.holders.count sid
  keyed : ∀ sid m, w.hash.get sid = some m → m.sandboxId = sid
  used : ∀ sid ∈ w.dropped, sid ∈ w.used
  row : ∀ sid ∈ w.dropped, w.hash.get sid = none
  free : ∀ sid ∈ w.dropped, Tok.holder sid ∉ R
  destroyer : ∀ sid, Tok.destroyer sid ∈ R → sid ∈ w.used
  dropper : ∀ sid, Tok.dropper sid ∈ R → sid ∈ w.dropped
  destroyed : ∀ sid ∈ w.destroyed, sid ∈ w.dropped
  cursor : ∀ r g, w.managers.get r = some g → g.cursor ≤ w.stream.length
  stream : ∀ sid ∈ w.destroyed, ∀ n ≤ w.stream.length, after sid none (w.stream.drop n) = none
  entry : ∀ sid ∈ w.destroyed, ∀ r g, w.managers.get r = some g →
    after sid (held g.registry sid) (w.stream.drop g.cursor) = none

lemma inv_init : Inv World.init 0 where
  holders := by simp
  keyed := by simp [World.init]
  used := by simp [World.init]
  row := by simp [World.init]
  free := by simp
  destroyer := by simp
  dropper := by simp
  destroyed := by simp [World.init]
  cursor := by simp [World.init]
  stream := by simp [World.init]
  entry := by simp [World.init]

lemma Inv.gone {w : World} {R : Multiset Tok} (h : Inv w R) (hsid : sid ∈ w.destroyed) :
    Gone w sid where
  row := h.row sid (h.destroyed sid hsid)
  entry r g hg hend := by
    have hnone := h.entry sid hsid r g hg
    rw [hend, List.drop_length, after_nil] at hnone
    simpa [held] using hnone

section Steps

variable {w : World} {R : Multiset Tok}

lemma count_holder_cons {l : List Sid} {x : Sid} (h : R.count (.holder x) ≤ l.count x) :
    (Tok.holder sid ::ₘ R).count (.holder x) ≤ (sid :: l).count x := by
  by_cases heq : x = sid
  · subst heq
    simpa using h
  · have hne : Tok.holder x ≠ .holder sid := fun hx => heq (Tok.holder.inj hx)
    rwa [count_cons_of_ne hne, List.count_cons_of_ne (Ne.symm heq)]

section

variable (h : Inv w R)
include h

lemma Inv.read (hm : w.hash.get sid = some m) :
    Inv (hold w (some m)) (.holder m.sandboxId ::ₘ R) := by
  refine { h with holders := ?_, free := ?_, destroyer := ?_, dropper := ?_ }
  · intro x
    exact count_holder_cons (h.holders x)
  · intro x hx
    rw [mem_cons, not_or]
    refine ⟨?_, h.free x hx⟩
    rintro ⟨⟩
    have hnone := h.row _ hx
    rw [h.keyed sid m hm, hm] at hnone
    simp at hnone
  · intro x hx
    exact h.destroyer x (by simpa using hx)
  · intro x hx
    exact h.dropper x (by simpa using hx)

lemma Inv.write (hm : Tok.holder m.sandboxId ∈ R) :
    Inv { w with hash := w.hash.put m.sandboxId m } R := by
  refine { h with keyed := ?_, row := ?_ }
  · intro x m' hx
    rcases get_put_eq_some.1 hx with ⟨rfl, rfl⟩ | ⟨-, hx⟩
    · rfl
    · exact h.keyed x m' hx
  intro x hx
  have hne : x ≠ m.sandboxId := fun heq => h.free x hx (heq ▸ hm)
  rw [get_put_ne _ _ hne]
  exact h.row x hx

lemma Inv.append (hev : ∀ sid ∈ w.destroyed, sid = ev.sid → ev.value = none) :
    Inv { w with stream := w.stream ++ [ev] } R := by
  refine { h with cursor := ?_, stream := ?_, entry := ?_ }
  · intro r g hg
    exact (h.cursor r g hg).trans (by simp)
  · intro sid hsid n hn
    rcases Nat.lt_or_ge w.stream.length n with hlt | hle
    · have hlen : n = (w.stream ++ [ev]).length := by
        simp only [List.length_append, List.length_singleton] at hn ⊢
        omega
      rw [hlen, List.drop_length, after_nil]
    · exact after_drop_snoc hle (hev sid hsid) fun _ => h.stream sid hsid n hle
  · intro sid hsid r g hg
    exact after_drop_snoc (h.cursor r g hg) (hev sid hsid) fun _ => h.entry sid hsid r g hg

lemma Inv.uses (sid : Sid) : Inv { w with used := sid :: w.used } R :=
  { h with
    used := fun x hx => List.mem_cons_of_mem _ (h.used x hx)
    destroyer := fun x hx => List.mem_cons_of_mem _ (h.destroyer x hx) }

lemma Inv.enter (hused : sid ∈ w.used) : Inv w (.destroyer sid ::ₘ R) := by
  refine { h with holders := ?_, free := ?_, destroyer := ?_, dropper := ?_ }
  · intro x
    simpa using h.holders x
  · intro x hx
    simpa using h.free x hx
  · intro x hx
    rcases mem_cons.1 hx with heq | hx
    · exact Tok.destroyer.inj heq ▸ hused
    · exact h.destroyer x hx
  · intro x hx
    exact h.dropper x (by simpa using hx)

lemma Inv.create (hnew : sid ∉ w.used) :
    Inv { w with used := sid :: w.used, holders := sid :: w.holders } (.holder sid ::ₘ R) := by
  refine { h.uses sid with holders := ?_, free := ?_, destroyer := ?_, dropper := ?_ }
  · exact fun x => count_holder_cons (h.holders x)
  · intro x hx
    rw [mem_cons, not_or]
    refine ⟨?_, h.free x hx⟩
    rintro ⟨⟩
    exact hnew (h.used _ hx)
  · intro x hx
    exact (h.uses sid).destroyer x (by simpa using hx)
  · intro x hx
    exact h.dropper x (by simpa using hx)

end

lemma Inv.release (h : Inv w (.holder sid ::ₘ R)) :
    Inv { w with holders := w.holders.erase sid } R := by
  refine { h with holders := ?_, free := ?_, destroyer := ?_, dropper := ?_ }
  · intro x
    have hx := h.holders x
    rw [count_cons] at hx
    rw [List.count_erase]
    by_cases heq : x = sid
    · subst heq
      simp only [if_true, beq_self_eq_true] at hx ⊢
      omega
    · simpa [heq, Ne.symm heq] using hx
  · intro x hx hmem
    exact h.free x hx (mem_cons_of_mem hmem)
  · intro x hx
    exact h.destroyer x (mem_cons_of_mem hx)
  · intro x hx
    exact h.dropper x (mem_cons_of_mem hx)

lemma Inv.drop (h : Inv w (.destroyer sid ::ₘ R)) (hfree : sid ∉ w.holders) :
    Inv { w with hash := w.hash.del sid, dropped := sid :: w.dropped } (.dropper sid ::ₘ R) where
  holders x := by simpa using h.holders x
  destroyer x hx := h.destroyer x (by simpa using Or.inr (by simpa using hx))
  keyed x m hx := h.keyed x m (get_del_eq_some.1 hx).2
  used x hx := by
    rcases List.mem_cons.1 hx with rfl | hx
    · exact h.destroyer x (mem_cons_self _ _)
    · exact h.used x hx
  row x hx := by
    by_cases heq : x = sid
    · rw [heq, get_del_self]
    · rw [get_del_ne _ heq]
      exact h.row x ((List.mem_cons.1 hx).resolve_left heq)
  free x hx := by
    suffices hnot : Tok.holder x ∉ R by simpa using hnot
    rcases List.mem_cons.1 hx with rfl | hx
    · have hcount := h.holders x
      rw [count_cons_of_ne (by simp)] at hcount
      rwa [List.count_eq_zero_of_not_mem hfree, Nat.le_zero, count_eq_zero] at hcount
    · exact fun hmem => h.free x hx (mem_cons_of_mem hmem)
  dropper x hx := by
    rcases mem_cons.1 hx with heq | hx
    · exact List.mem_cons.2 (.inl (Tok.dropper.inj heq))
    · exact List.mem_cons_of_mem _ (h.dropper x (mem_cons_of_mem hx))
  destroyed x hx := List.mem_cons_of_mem _ (h.destroyed x hx)
  cursor := h.cursor
  stream := h.stream
  entry := h.entry

lemma Inv.destroy (h : Inv w (.dropper sid ::ₘ R)) :
    Inv { w with stream := w.stream ++ [.delete sid], destroyed := sid :: w.destroyed } R := by
  have happ : Inv { w with stream := w.stream ++ [.delete sid] } (.dropper sid ::ₘ R) :=
    h.append fun _ _ _ => rfl
  refine { happ with holders := ?_, free := ?_, destroyer := ?_, dropper := ?_, destroyed := ?_,
                     stream := ?_, entry := ?_ }
  · intro x
    exact (count_le_of_le _ (le_cons_self _ _)).trans (h.holders x)
  · exact fun x hx hmem => h.free x hx (mem_cons_of_mem hmem)
  · exact fun x hx => h.destroyer x (mem_cons_of_mem hx)
  · exact fun x hx => h.dropper x (mem_cons_of_mem hx)
  · intro x hx
    rcases List.mem_cons.1 hx with rfl | hx
    · exact h.dropper x (mem_cons_self _ _)
    · exact h.destroyed x hx
  · intro x hx n hn
    rcases List.mem_cons.1 hx with rfl | hx
    · rcases Nat.lt_or_ge w.stream.length n with hlt | hle
      · rw [List.drop_eq_nil_of_le (by simp; omega), after_nil]
      · exact after_drop_snoc hle (fun _ => rfl) fun hne => absurd rfl hne
    · exact happ.stream x hx n hn
  · intro x hx r g hg
    rcases List.mem_cons.1 hx with rfl | hx
    · exact after_drop_snoc (h.cursor r g hg) (fun _ => rfl) fun hne => absurd rfl hne
    · exact happ.entry x hx r g hg

lemma Inv.boot (h : Inv w R) (r : ReplicaId) {cursor : Nat} (startupTs : Int)
    (hc : cursor ≤ w.stream.length) :
    Inv { w with managers := w.managers.put r ⟨seedRegistry w.hash startupTs, cursor⟩ } R := by
  refine { h with cursor := ?_, entry := ?_ }
  · intro x g hg
    rcases get_put_eq_some.1 hg with ⟨-, rfl⟩ | ⟨-, hg⟩
    · exact hc
    · exact h.cursor x g hg
  intro sid hsid x g hg
  rcases get_put_eq_some.1 hg with ⟨-, rfl⟩ | ⟨-, hg⟩
  · rw [held_seedRegistry startupTs h.keyed, h.row sid (h.destroyed sid hsid)]
    exact h.stream sid hsid cursor hc
  · exact h.entry sid hsid x g hg

lemma Inv.consume (h : Inv w R) {r : ReplicaId} {g : Manager} (now : Int)
    (hg : w.managers.get r = some g) (hev : w.stream[g.cursor]? = some ev) :
    Inv { w with managers :=
      w.managers.put r ⟨handleEvent g.registry now ev, g.cursor + 1⟩ } R := by
  obtain ⟨hlt, hget⟩ := List.getElem?_eq_some_iff.1 hev
  refine { h with cursor := ?_, entry := ?_ }
  · intro x g' hg'
    rcases get_put_eq_some.1 hg' with ⟨-, rfl⟩ | ⟨-, hg'⟩
    · exact hlt
    · exact h.cursor x g' hg'
  intro sid hsid x g' hg'
  rcases get_put_eq_some.1 hg' with ⟨-, rfl⟩ | ⟨-, hg'⟩
  · have hnone := h.entry sid hsid r g hg
    rw [List.drop_eq_getElem_cons hlt, hget, after_cons] at hnone
    rwa [held_handleEvent]
  · exact h.entry sid hsid x g' hg'

end Steps

section Triples

variable {α : Type}

abbrev Keeps (p : Task α) (r : Multiset Tok) (Q : α → Multiset Tok → Prop) : Prop :=
  Safe machine Inv Apart p r Q

lemma redisWrite_cases {w w' s : World} {o : Outcome} {b : Bool}
    (h : redisWrite w w' o = some (s, b)) : s = w' ∨ (o = .fail ∧ s = w) := by
  cases o <;> simp only [redisWrite, some.injEq, Prod.mk.injEq, reduceCtorEq] at h
  · exact .inl h.1.symm
  · exact .inl h.1.symm
  · exact .inr ⟨rfl, h.1.symm⟩

lemma keeps_hset (m : Metadata) :
    Keeps (act (.hset m)) {.holder m.sandboxId} fun _ r => r = {.holder m.sandboxId} := by
  refine .act fun s F o s' v hI _ hact => ?_
  rcases redisWrite_cases hact with rfl | ⟨-, rfl⟩
  · exact hI.write (by simp)
  · exact hI

lemma keeps_xadd (hev : ev = .create m ∨ ev = .update m) :
    Keeps (act (.xadd ev)) {.holder m.sandboxId} fun _ r => r = 0 := by
  refine .act fun s F o s' v hI _ hact => ?_
  have hsid : ev.sid = m.sandboxId := by rcases hev with rfl | rfl <;> rfl
  have hrel : s.publishes ev = { s with holders := s.holders.erase m.sandboxId } := by
    rcases hev with rfl | rfl <;> rfl
  have hdone : Inv (s.publishes ev) F := by
    rw [hrel]
    exact hI.release
  rw [zero_add]
  rcases redisWrite_cases hact with rfl | ⟨-, rfl⟩
  · have hstream : (s.publishes ev).stream = s.stream := by rw [hrel]
    rw [← hstream]
    refine hdone.append fun sid hx heq => ?_
    -- a destroyed sandbox has no holder, and this publication was one
    have hdest : sid ∈ s.destroyed := by rwa [hrel] at hx
    refine absurd ?_ (hI.free sid (hI.destroyed sid hdest))
    rw [heq, hsid]
    simp
  · exact hdone

lemma keeps_publishRow (hev : ev = .create m ∨ ev = .update m) (hm : m.sandboxId ≠ []) :
    Keeps (publishRow m ev) {.holder m.sandboxId} fun _ r => r = 0 := by
  unfold publishRow
  rw [if_neg hm]
  refine (keeps_hset m).seq fun _ => ?_
  refine (keeps_xadd hev).bind fun _ _ hr => ?_
  exact .ret hr

lemma keeps_publishDelete (hsid : sid ≠ []) :
    Keeps (publishDelete sid) {.destroyer sid} fun _ r => r = 0 := by
  unfold publishDelete
  rw [if_neg hsid]
  refine .bind (Q := fun _ r => r = {.dropper sid}) ?_ fun _ _ hr => ?_
  · refine .act fun s F o s' v hI hok hact => ?_
    rcases redisWrite_cases hact with rfl | ⟨rfl, -⟩
    · exact hI.drop hok.2
    · exact absurd rfl hok.1
  subst hr
  refine .bind (Q := fun _ r => r = 0) ?_ fun _ _ hr => .ret hr
  refine .act fun s F o s' v hI hok hact => ?_
  rw [zero_add]
  rcases redisWrite_cases hact with rfl | ⟨rfl, -⟩
  · exact hI.destroy
  · exact absurd rfl hok

lemma keeps_loadMeta (sid : Sid) : Keeps (loadMeta sid) 0 fun v r =>
      match v with
      | .ok (some m) => m.sandboxId ≠ [] ∧ r = {.holder m.sandboxId}
      | _ => r = 0 := by
  unfold loadMeta
  split
  · exact .ret rfl
  rename_i hsid
  refine .perform fun s F o s' v hI _ hact => ?_
  cases o with
  | ok =>
    cases hact
    cases hm : s.hash.get sid with
    | none => exact ⟨0, hI, rfl⟩
    | some m =>
      have hid : m.sandboxId ≠ [] := hI.keyed sid m hm ▸ hsid
      refine ⟨{.holder m.sandboxId}, ?_, hid, rfl⟩
      simpa using hI.read hm
  | lost | fail =>
    cases hact
    exact ⟨0, hI, rfl⟩
  | time ms => cases hact

lemma keeps_now (r : Multiset Tok) : Keeps (act .now) r fun _ r' => r' = r := by
  refine .act fun s F o s' v hI _ hact => ?_
  cases o with
  | time ms => cases hact; exact hI
  | ok | lost | fail => cases hact

lemma keeps_refreshTimeout (sid : Sid) (timeoutSeconds : Int) :
    Keeps (refreshTimeout sid timeoutSeconds) 0 fun _ r => r = 0 := by
  refine (keeps_loadMeta sid).bind fun v r hr => ?_
  match v, hr with
  | .error _, hr => exact .ret hr
  | .ok none, hr => exact .ret hr
  | .ok (some m), ⟨hid, hr⟩ =>
    subst hr
    refine (keeps_now _).seq fun nowMs => ?_
    refine (keeps_publishRow (m := refreshed m nowMs timeoutSeconds) (.inr rfl) hid).bind ?_
    exact fun _ _ hr => .ret hr

end Triples

lemma inv_startOp {w w' : World} {R : Multiset Tok} {op : Op} {p : Task Unit} (hI : Inv w R)
    (h : startOp w op = some (w', p)) :
    ∃ r, Inv w' (r + R) ∧ Keeps p r fun _ r' => r' = 0 := by
  cases op with
  | create m =>
    simp only [startOp] at h
    split at h
    · cases h
    rename_i hused
    split at h
    · rename_i hid
      cases h
      refine ⟨0, by rwa [zero_add], ?_⟩
      unfold publishCreate publishRow
      rw [if_pos hid]
      exact .ret rfl
    · rename_i hid
      cases h
      refine ⟨{.holder m.sandboxId}, hI.create hused, ?_⟩
      exact keeps_publishRow (.inl rfl) hid
  | destroy sid =>
    cases h
    by_cases hsid : sid = []
    · refine ⟨0, ?_, ?_⟩
      · rw [zero_add]
        exact hI.uses sid
      unfold publishDelete
      rw [if_pos hsid]
      exact .ret rfl
    · exact ⟨{.destroyer sid}, (hI.uses sid).enter (by simp), keeps_publishDelete hsid⟩
  | refresh sid timeoutSeconds =>
    cases h
    refine ⟨0, by rwa [zero_add], ?_⟩
    exact (keeps_refreshTimeout sid timeoutSeconds).ended
  | boot r cursor startupTs =>
    obtain ⟨hc, rfl, rfl⟩ := acted_if h
    exact ⟨0, by rw [zero_add]; exact hI.boot r startupTs hc, Safe.ret rfl⟩
  | consume r now =>
    obtain ⟨g, hg, h⟩ := bind_eq_some_iff.1 h
    obtain ⟨ev, hev, h⟩ := map_eq_some_iff.1 h
    cases h
    exact ⟨0, by rw [zero_add]; exact hI.consume now hg hev, Safe.ret rfl⟩

def begin : Conf := ⟨World.init, []⟩

/-- **Deleted sandboxes stay deleted.** -/
theorem destroyed_stays_gone (es : List (Ev Outcome Op)) (c : Conf)
    (hm : Runs.Meets machine.step (Machine.onEv Apart fun _ _ => True) begin es)
    (h : exec machine.step begin es = some c) :
    ∀ sid ∈ c.world.destroyed, Gone c.world sid := by
  obtain ⟨rs, -, hI⟩ := sound_run (fun _ _ _ _ _ hI _ _ hs => inv_startOp hI hs) inv_init hm h
  exact fun sid hsid => hI.gone hsid

def demoMeta : Metadata := ⟨[115], some 60, true, true, 0, 60000⟩

/-- A sandbox is created, a refresh of it begins with its `HGET`, a manager reads the stream. -/
def refreshBegins : List (Ev Outcome Op) :=
  .start (.create demoMeta) :: goes 0 [.ok, .ok] ++
    [.start (.boot 0 0 0), .start (.refresh [115] 120)] ++ goes 2 [.ok]

def reads : Ev Outcome Op := .start (.consume 0 0)

/-- Whether the sandbox is destroyed with nothing in flight, and what is left of it. -/
def remains (c : Conf) : Bool × Bool × Bool :=
  (decide (c.Quiet ∧ [115] ∈ c.world.destroyed), (c.world.hash.get [115]).isSome,
    (c.world.managers.get 0).any fun g =>
      g.cursor = c.world.stream.length ∧ (g.registry.get [115]).isSome)

/-- The refresh ends before the destruction removes the row. -/
def refreshThenDestroy : List (Ev Outcome Op) :=
  refreshBegins ++ goes 2 [.time 5, .ok, .ok] ++
    .start (.destroy [115]) :: goes 3 [.ok, .ok] ++ [reads, reads, reads]

theorem refreshed_sandbox_gone : ∃ c, exec machine.step begin refreshThenDestroy = some c ∧
      [115] ∈ c.world.destroyed ∧ Gone c.world [115] := by
  refine leads (fun c => decide ([115] ∈ c.world.destroyed)) true (by decide +kernel)
    fun c hc hout => ?_
  have hmem : [115] ∈ c.world.destroyed := of_decide_eq_true hout
  exact ⟨hmem, destroyed_stays_gone _ c (by decide +kernel) hc [115] hmem⟩

/-- The destruction comes after the read of the refresh, or between its write and its event. -/
lemma returning_runs : (exec machine.step begin
      (refreshBegins ++ .start (.destroy [115]) :: goes 3 [.ok, .ok] ++
        goes 2 [.time 5, .ok, .ok] ++ [reads, reads, reads])).map remains =
      some (true, true, true) ∧
    (exec machine.step begin
      (refreshBegins ++ goes 2 [.time 5, .ok] ++ .start (.destroy [115]) :: goes 3 [.ok, .ok] ++
        goes 2 [.ok] ++ [reads, reads, reads])).map remains =
      some (true, false, true) := by
  decide +kernel

theorem destroyed_sandbox_returns :
    ¬ ∀ (es : List (Ev Outcome Op)) (c : Conf), exec machine.step begin es = some c →
      c.Quiet → ∀ sid ∈ c.world.destroyed, Gone c.world sid := by
  intro hall
  obtain ⟨c, hc, hout⟩ := map_eq_some_iff.1 returning_runs.1
  obtain ⟨hdone, hleft⟩ := Prod.mk.inj hout
  obtain ⟨hquiet, hmem⟩ := of_decide_eq_true hdone
  have hgone := (hall _ c hc hquiet [115] hmem).row
  simp [hgone] at hleft

end CubeSandbox.Meta
