import CubeSandbox.Runs
import CubeSandbox.Tbl

/-!
The expiring locks of Cubelet (`pkg/multilock/multilock.go`).

A user fetches the lock object of a key and takes it later. The loop deletes a key whose object
was not stamped for a while, holding that object, but a user may have fetched it. Objects are
numbers into the list of their stamps; a mutex is granted when nobody holds it in conflict.
-/

namespace CubeSandbox.MultiLock

open Runs Slots Tbl List Option

/-- `Lock`, `RLock`, or `LockAt`, which takes it for reading and stamps it. -/
inductive Mode
  | write | read | readAt
  deriving DecidableEq

abbrev Key := String

/-- Where a user is: before `Load` and before `LoadOrStore` of `Get`, the latter with the time of
its new lock, with the lock in hand, and with it taken, to be stamped or not. -/
inductive User
  | loading (k : Key) (m : Mode)
  | missed (k : Key) (m : Mode) (made : Int)
  | fetched (k : Key) (m : Mode) (o : Nat)
  | holding (k : Key) (m : Mode) (o : Nat) (stamp : Bool)
  | gone
  deriving DecidableEq

/-- Where the loop stands with an entry of the map. -/
inductive Loop
  | idle
  | visiting (k : Key) (o : Nat)
  | reading (k : Key) (o : Nat)
  | expired (k : Key) (o : Nat)
  | writing (k : Key) (o : Nat)
  deriving DecidableEq

structure World where
  now : Int
  /-- The `updateAt` of each lock object. -/
  stamps : List Int
  map : Tbl Key Nat
  users : List User
  loop : Loop

def start : World := ⟨0, [], ∅, [], .idle⟩

/-- The user holds the object in conflict with the mode. -/
def User.bars (m : Mode) (o : Nat) : User → Bool
  | .holding _ m' o' _ => o' = o ∧ (m = .write ∨ m' = .write)
  | _ => false

def Loop.bars (m : Mode) (o : Nat) : Loop → Bool
  | .reading _ o' => o' = o ∧ m = .write
  | .writing _ o' => o' = o
  | _ => false

def World.free (w : World) (m : Mode) (o : Nat) : Bool :=
  w.users.all (fun u => !u.bars m o) && !w.loop.bars m o

inductive Ev
  | wait (d : Nat)
  /-- A user comes and calls `Get`. -/
  | come (k : Key) (m : Mode)
  | go (i : Nat)
  /-- The loop comes to an entry. -/
  | visit (k : Key)
  | turn

/-- The object has not been stamped for longer than the limit. -/
def World.stale (limit : Int) (w : World) (o : Nat) : Bool :=
  limit < w.now - (w.stamps[o]?).getD 0

def World.go (w : World) (i : Nat) : Option World :=
  match w.users[i]? with
  | some (.loading k m) =>
    some { w with users := w.users.set i <| match w.map.get k with
      | some o => .fetched k m o
      | none => .missed k m w.now }
  | some (.missed k m made) =>
    match w.map.get k with
    | some o => some { w with users := w.users.set i (.fetched k m o) }
    | none => some { w with
        stamps := w.stamps ++ [made]
        map := w.map.put k w.stamps.length
        users := w.users.set i (.fetched k m w.stamps.length) }
  | some (.fetched k m o) =>
    if w.free m o then some { w with users := w.users.set i (.holding k m o (m = .readAt)) }
    else none
  | some (.holding k m o true) =>
    some { w with stamps := w.stamps.set o w.now, users := w.users.set i (.holding k m o false) }
  | some (.holding _ _ _ false) => some { w with users := w.users.set i .gone }
  | some .gone | none => none

def World.turn (limit : Int) (w : World) : Option World :=
  match w.loop with
  | .idle => none
  | .visiting k o => if w.free .read o then some { w with loop := .reading k o } else none
  | .reading k o => some { w with loop := if w.stale limit o then .expired k o else .idle }
  | .expired k o => if w.free .write o then some { w with loop := .writing k o } else none
  | .writing k o =>
    some { w with loop := .idle, map := if w.stale limit o then w.map.del k else w.map }

def step (limit : Int) (w : World) : Ev → Option World
  | .wait d => some { w with now := w.now + d }
  | .come k m => some { w with users := w.users ++ [.loading k m] }
  | .go i => w.go i
  | .visit k =>
    if w.loop = .idle then (w.map.get k).map fun o => { w with loop := .visiting k o } else none
  | .turn => w.turn limit

/-- Two users that hold the lock of one key both read. -/
def Exclusive (w : World) : Prop :=
  ∀ (i j : Nat) k m m' o o' b b', w.users[i]? = some (.holding k m o b) →
    w.users[j]? = some (.holding k m' o' b') → i ≠ j → m ≠ .write ∧ m' ≠ .write

/-- The lock that a user has in hand or holds, with its key. -/
def User.has : User → Option (Key × Nat)
  | .fetched k _ o => some (k, o)
  | .holding k _ o _ => some (k, o)
  | _ => none

/-- **The loop deletes no key whose lock a user has fetched.** -/
def Spared (limit : Int) (w : World) : Ev → Prop
  | .turn =>
    match w.loop with
    | .writing k o => w.stale limit o = true → ∀ u ∈ w.users, ∀ x ∈ u.has, x.1 ≠ k
    | _ => True
  | _ => True

instance (limit : Int) (w : World) (e : Ev) : Decidable (Spared limit w e) := by
  unfold Spared
  split
  · split <;> infer_instance
  · infer_instance

/-- A user has the object that the map has, and nobody holds an object in conflict. -/
structure Inv (w : World) : Prop where
  current : ∀ u ∈ w.users, ∀ k o, u.has = some (k, o) → w.map.get k = some o
  apart : ∀ (i j : Nat) k m o b k' m' b', w.users[i]? = some (.holding k m o b) →
    w.users[j]? = some (.holding k' m' o b') → i ≠ j → m ≠ .write ∧ m' ≠ .write

variable {w w' : World} {i : Nat} {u u' : User} {limit : Int} {e : Ev}

section

variable (h : Inv w)
include h

lemma Inv.exclusive : Exclusive w := by
  intro i j k m m' o o' b b' hi hj hne
  have ho := h.current _ (mem_of_getElem? hi) k o rfl
  cases ho.symm.trans (h.current _ (mem_of_getElem? hj) k o' rfl)
  exact h.apart i j k m o b k m' b' hi hj hne

/-- A user moves on. If it takes a lock, the lock is free. -/
lemma Inv.move (hi : w.users[i]? = some u) (hu : w'.users = w.users.set i u')
    (hmap : ∀ k o, w.map.get k = some o → w'.map.get k = some o)
    (hhas : ∀ k o, u'.has = some (k, o) → w'.map.get k = some o)
    (hhold : ∀ k m o b, u' = .holding k m o b →
      (∃ b', u = .holding k m o b') ∨ w.free m o = true) : Inv w' := by
  -- two users in conflict, the first of which has not moved
  have hone : ∀ (j : Nat) k m o b k' m' b', j ≠ i → w.users[j]? = some (.holding k m o b) →
      u' = .holding k' m' o b' → m ≠ .write ∧ m' ≠ .write := by
    intro j k m o b k' m' b' hj hget heq
    rcases hhold k' m' o b' heq with ⟨b'', rfl⟩ | hfree
    · exact h.apart j i k m o b k' m' b'' hget hi hj
    · simp only [World.free, Bool.and_eq_true, List.all_eq_true] at hfree
      simpa [User.bars, and_comm] using hfree.1 _ (mem_of_getElem? hget)
  refine ⟨fun v hv k o hx => ?_, fun j j' k m o b k' m' b' hj hj' hne => ?_⟩
  · rw [hu] at hv
    rcases mem_set_cases hi hv with rfl | ⟨j, -, hj⟩
    · exact hhas k o hx
    · exact hmap k o (h.current v (mem_of_getElem? hj) k o hx)
  rw [hu] at hj hj'
  rcases set_cases hi hj with ⟨rfl, heq⟩ | ⟨hji, hold⟩
  · rcases set_cases hi hj' with ⟨rfl, -⟩ | ⟨hji', hold'⟩
    · exact absurd rfl hne
    · exact (hone j' k' m' o b' k m b hji' hold' heq.symm).symm
  rcases set_cases hi hj' with ⟨rfl, heq⟩ | ⟨-, hold'⟩
  · exact hone j k m o b k' m' b' hji hold heq.symm
  · exact h.apart j j' k m o b k' m' b' hold hold' hne

lemma Inv.go (hs : w.go i = some w') : Inv w' := by
  unfold World.go at hs
  split at hs <;> try cases hs
  case h_1 k m hi =>
    refine h.move hi rfl (fun _ _ h => h) ?_ ?_ <;> cases hk : w.map.get k <;> simp [User.has]
    exact hk
  case h_2 k m made hi =>
    split at hs <;> cases hs
    · refine h.move hi rfl (fun _ _ h => h) ?_ (by simp)
      rintro _ _ ⟨⟩
      assumption
    rename_i hk
    refine h.move hi rfl (fun k' o hk' => ?_) ?_ (by simp)
    · have hne : k' ≠ k := by
        rintro rfl
        cases hk.symm.trans hk'
      exact (get_put_ne _ _ hne).trans hk'
    · rintro _ _ ⟨⟩
      exact get_put_self _ _ _
  case h_3 k m o hi =>
    split at hs <;> cases hs
    refine h.move hi rfl (fun _ _ h => h) (h.current (.fetched k m o) (mem_of_getElem? hi)) ?_
    rintro _ _ _ _ ⟨⟩
    exact .inr ‹_›
  case h_4 k m o hi =>
    refine h.move hi rfl (fun _ _ h => h) (h.current (.holding k m o true) (mem_of_getElem? hi)) ?_
    rintro _ _ _ _ ⟨⟩
    exact .inl ⟨_, rfl⟩
  case h_5 hi => exact h.move hi rfl (fun _ _ h => h) (by simp [User.has]) (by simp)

lemma Inv.turn (hok : Spared limit w .turn) (hs : w.turn limit = some w') : Inv w' := by
  unfold World.turn at hs
  split at hs <;> try cases hs
  case h_2 | h_4 =>
    split at hs <;> cases hs
    exact ⟨h.current, h.apart⟩
  case h_3 => exact ⟨h.current, h.apart⟩
  case h_5 k o hl =>
    refine ⟨fun u hu k' o' hx => ?_, h.apart⟩
    have hold := h.current u hu k' o' hx
    dsimp only
    split_ifs with hstale
    · simp only [Spared, hl] at hok
      exact (get_del_ne _ (hok hstale u hu _ hx)).trans hold
    · exact hold

lemma inv_step (hok : Spared limit w e) (hs : step limit w e = some w') : Inv w' := by
  cases e with
  | wait d =>
    cases hs
    exact ⟨h.current, h.apart⟩
  | come k m =>
    cases hs
    refine ⟨fun u hu => ?_, fun i j k m o b k' m' b' hi hj => ?_⟩
    · rcases mem_append.1 hu with hu | hu
      · exact h.current u hu
      simp only [mem_singleton] at hu
      subst hu
      simp [User.has]
    obtain ⟨-, heq⟩ | ⟨-, hi⟩ := append_cases hi
    · cases heq
    obtain ⟨-, heq⟩ | ⟨-, hj⟩ := append_cases hj
    · cases heq
    exact h.apart i j k m o b k' m' b' hi hj
  | go i => exact h.go hs
  | visit k =>
    simp only [step] at hs
    split at hs <;> try cases hs
    obtain ⟨o, -, rfl⟩ := map_eq_some_iff.1 hs
    exact ⟨h.current, h.apart⟩
  | turn => exact h.turn hok hs

end

/-- **Keyed locks exclude** if the loop deletes no key whose lock a user has fetched. -/
theorem keyed_locks_exclude (limit : Int) (es : List Ev) (w : World)
    (hm : Meets (step limit) (Spared limit) start es) (h : exec (step limit) start es = some w) :
    Exclusive w := by
  have hinit : Inv start := ⟨by simp [start], by simp [start]⟩
  exact (exec_inv (fun _ _ _ => inv_step) hinit hm h).exclusive

def fetches (i : Nat) (k : Key) : List Ev := [.come k .write, .go i, .go i]

def deletes (k : Key) : List Ev := [.wait 3601, .visit k, .turn, .turn, .turn, .turn]

/-- A user has used the lock before the loop deletes it, and another takes a new one. -/
theorem used_lock_excludes : ∃ w, exec (step 3600) start
      (fetches 0 "a" ++ [.go 0, .go 0] ++ deletes "a" ++ fetches 1 "a" ++ [.go 1]) = some w ∧
    w.users = [.gone, .holding "a" .write 1 false] ∧ Exclusive w := by
  refine leads World.users [.gone, .holding "a" .write 1 false]
    (by decide +kernel) fun w hw hu => ?_
  exact ⟨hu, keyed_locks_exclude 3600 _ w (by decide +kernel) hw⟩

/-- **Two users hold the lock of one key for writing**: the loop deletes the key after the first has
fetched the lock. -/
theorem fetched_lock_deleted : ∃ w, exec (step 3600) start
      (fetches 0 "a" ++ deletes "a" ++ fetches 1 "a" ++ [.go 0, .go 1]) = some w ∧
    w.users = [.holding "a" .write 0 false, .holding "a" .write 1 false] := by
  refine map_eq_some_iff.1 ?_
  decide +kernel

end CubeSandbox.MultiLock
