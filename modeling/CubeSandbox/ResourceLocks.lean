import CubeSandbox.Runs
import CubeSandbox.Tbl

/-!
The locks by resource name of Cubelet (`pkg/utils/resourcelock.go`).

Callers retain the entry of a name, take its mutex, give it back and release the entry. An entry
counts the callers that have retained it. A map access is one step; objects are numbers.
-/

namespace CubeSandbox.ResourceLocks

open Runs Slots Tbl List Function Option

abbrev Name := String

/-- Where a caller is: before `retain`, in `LockContext` before its check of the context, then
waiting in `Lock` or before a try, after a try that took the mutex or did not, with the lock, about
to unlock as the context has expired, and before `release`. -/
inductive Caller
  | begun (n : Name)
  | entering (n : Name) (ctx : Bool)
  | waiting (n : Name) (o : Nat)
  | trying (n : Name) (o : Nat)
  | selecting (n : Name) (o : Nat)
  | tried (n : Name) (o : Nat)
  | holding (n : Name) (o : Nat)
  | undoing (n : Name) (o : Nat)
  | releasing (n : Name) (o : Nat)
  | gone
  deriving DecidableEq

structure World where
  next : Nat
  /-- The caller that has the mutex of an entry. -/
  owner : Nat → Option Nat
  /-- The entries with their counts. -/
  locks : Tbl Name (Nat × Nat)
  callers : List Caller

def start : World := ⟨0, fun _ => none, ∅, []⟩

namespace World

/-- `retain`, with the entry. An entry that is made begins with one caller. -/
def retain (w : World) (n : Name) : World × Nat :=
  let (o, k) := (w.locks.get n).getD (w.next, 0)
  ({ w with next := w.next + 1, locks := w.locks.put n (o, k + 1) }, o)

def release (w : World) (n : Name) (o : Nat) : World :=
  { w with locks := match w.locks.get n with
    | some (o', k) =>
      if o' ≠ o then w.locks else if k = 1 then w.locks.del n else w.locks.put n (o, k - 1)
    | none => w.locks }

def put (w : World) (i : Nat) (c : Caller) : World := { w with callers := w.callers.set i c }

def setOwner (w : World) (o : Nat) (i : Option Nat) : World :=
  { w with owner := update w.owner o i }

/-- The next step of a caller, with whether its context has expired. -/
def go (w : World) (i : Nat) (expired : Bool) : Option World :=
  match w.callers[i]? with
  | some (.begun n) => some (w.put i (if expired then .gone else .entering n true))
  | some (.entering n ctx) =>
    let (w, o) := w.retain n
    some (w.put i (if ctx then .trying n o else .waiting n o))
  | some (.waiting n o) =>
    if w.owner o ≠ none then none else some ((w.setOwner o (some i)).put i (.holding n o))
  | some (.trying n o) =>
    some (if w.owner o ≠ none then w.put i (.selecting n o)
      else (w.setOwner o (some i)).put i (.tried n o))
  | some (.selecting n o) => some (w.put i (if expired then .releasing n o else .trying n o))
  | some (.tried n o) => some (w.put i (if expired then .undoing n o else .holding n o))
  | some (.holding n o) | some (.undoing n o) =>
    some ((w.setOwner o none).put i (.releasing n o))
  | some (.releasing n o) => some ((w.release n o).put i .gone)
  | some .gone | none => none

end World

inductive Ev
  | come (n : Name) (ctx : Bool)
  | go (i : Nat) (expired : Bool)

def step (w : World) : Ev → Option World
  | .come n ctx =>
    some { w with callers := w.callers ++ [if ctx then .begun n else .entering n false] }
  | .go i expired => w.go i expired

/-- The entry that a caller has retained, with its name. -/
def Caller.entry : Caller → Option (Name × Nat)
  | .waiting n o | .trying n o | .selecting n o | .tried n o | .holding n o | .undoing n o
  | .releasing n o => some (n, o)
  | _ => none

/-- The entry whose mutex a caller has. -/
def Caller.mutex : Caller → Option Nat
  | .tried _ o | .holding _ o | .undoing _ o => some o
  | _ => none

/-- A caller has the mutex of the entry of the name. -/
def World.Taken (w : World) (n : Name) (o : Nat) : Prop :=
  ∃ c ∈ w.callers, c.mutex = some o ∧ c.entry = some (n, o)

/-- **Locks by name.** One caller holds a name. Only a caller that waits for a mutex is held up,
while a caller has it for the same name. A name that no caller has retained has no entry. -/
structure Sound (w : World) : Prop where
  one : ∀ (i j : Nat) n o o', w.callers[i]? = some (.holding n o) →
    w.callers[j]? = some (.holding n o') → i = j
  free : ∀ (i : Nat) c expired, w.callers[i]? = some c → c ≠ .gone → w.go i expired = none →
    ∃ n o, c = .waiting n o ∧ w.Taken n o
  busy : ∀ n o, .trying n o ∈ w.callers → w.owner o ≠ none → w.Taken n o
  empty : ∀ n, (∀ c ∈ w.callers, ∀ x ∈ c.entry, x.1 ≠ n) → w.locks.get n = none

def refs (l : List Caller) (x : Name × Nat) : Nat :=
  (l.map fun c => if c.entry = some x then 1 else 0).sum

structure Counted (w : World) : Prop where
  old : ∀ n o k, w.locks.get n = some (o, k) → o < w.next
  inj : ∀ n n' o k k', w.locks.get n = some (o, k) → w.locks.get n' = some (o, k') → n = n'
  count : ∀ n o k, w.locks.get n = some (o, k) ↔ 0 < k ∧ refs w.callers (n, o) = k

structure Inv (w : World) : Prop extends Counted w where
  owner : ∀ i o, w.owner o = some i ↔ (w.callers[i]?).bind Caller.mutex = some o

section

variable {w w' : World} {l : List Caller} {i : Nat} {c d : Caller} {x : Name × Nat} {n : Name}
  {o : Nat} {b : Bool} {e : Ev}

lemma refs_pos : 0 < refs l x ↔ ∃ c ∈ l, c.entry = some x := by
  induction l with
  | nil => simp [refs]
  | cons c l ih =>
    simp only [refs, map_cons, sum_cons] at ih ⊢
    split_ifs with h
    · simp [h, Nat.add_comm 1]
    · simpa [h] using ih

lemma refs_set (hi : l[i]? = some c) (x : Name × Nat) :
    refs (l.set i d) x + (if c.entry = some x then 1 else 0) =
      refs l x + if d.entry = some x then 1 else 0 := sum_map_set _ d hi

section

variable (h : Inv w)
include h

lemma Inv.get (hc : c ∈ w.callers) (he : c.entry = some (n, o)) :
    w.locks.get n = some (o, refs w.callers (n, o)) :=
  (h.count _ _ _).2 ⟨refs_pos.2 ⟨c, hc, he⟩, rfl⟩

/-- A mutex that is not free is taken for the name of each caller that has its entry. -/
lemma Inv.taken (hc : c ∈ w.callers) (he : c.entry = some (n, o)) (ho : w.owner o ≠ none) :
    w.Taken n o := by
  obtain ⟨j, hj⟩ := ne_none_iff_exists'.1 ho
  obtain ⟨d, hd, hm⟩ := bind_eq_some_iff.1 ((h.owner j o).1 hj)
  obtain ⟨n', hn⟩ : ∃ n, d.entry = some (n, o) := by
    cases d <;> simp_all [Caller.mutex, Caller.entry]
  have hmem := mem_of_getElem? hd
  cases h.inj _ _ _ _ _ (h.get hc he) (h.get hmem hn)
  exact ⟨d, hmem, hm, hn⟩

lemma Inv.sound : Sound w where
  one i j n o o' hi hj := by
    have ho := h.get (mem_of_getElem? hi) rfl
    cases ho.symm.trans (h.get (mem_of_getElem? hj) rfl)
    have hi' := (h.owner i o).2 (by simp [hi, Caller.mutex])
    have hj' := (h.owner j o).2 (by simp [hj, Caller.mutex])
    exact some.inj (hi'.symm.trans hj')
  free i c expired hi hne hs := by
    unfold World.go at hs
    split at hs <;> simp_all
    subst hi
    exact ⟨_, _, rfl, h.taken (mem_of_getElem? ‹_›) rfl hs⟩
  busy n o hc ho := h.taken hc rfl ho
  empty n hn := by
    by_contra hne
    obtain ⟨⟨o, k⟩, ho⟩ := ne_none_iff_exists'.1 hne
    obtain ⟨hk, rfl⟩ := (h.count n o k).1 ho
    obtain ⟨c, hc, he⟩ := refs_pos.1 hk
    exact hn c hc _ he rfl

/-- A caller moves on, and with it the mutexes. -/
lemma Inv.move (hi : w.callers[i]? = some c) (hset : w'.callers = w.callers.set i d)
    (ho : ∀ j o, w'.owner o = some j ↔ if j = i then d.mutex = some o else w.owner o = some j)
    (hc : Counted w') : Inv w' := by
  refine ⟨hc, fun j o => (ho j o).trans ?_⟩
  have := h.owner j o
  rw [hset, getElem?_set]
  grind

lemma Inv.kept (hi : w.callers[i]? = some c) (hm : d.mutex = c.mutex) (j o : Nat) :
    w.owner o = some j ↔ if j = i then d.mutex = some o else w.owner o = some j := by
  have := h.owner j o
  grind

/-- A mutex is taken, or given back. -/
lemma Inv.passed {x : Option Nat} (hi : w.callers[i]? = some c)
    (hx : x = some i ∧ w.owner o = none ∧ d.mutex = some o ∧ c.mutex = none ∨
      x = none ∧ d.mutex = none ∧ c.mutex = some o) (j o' : Nat) :
    update w.owner o x o' = some j ↔ if j = i then d.mutex = some o' else w.owner o' = some j := by
  have := h.owner j o'
  have := h.owner i o
  rw [update_apply]
  grind

/-- A step that leaves the entries alone. -/
lemma Inv.same {f : Nat → Option Nat} (hi : w.callers[i]? = some c) (he : d.entry = c.entry)
    (ho : ∀ j o, f o = some j ↔ if j = i then d.mutex = some o else w.owner o = some j) :
    Inv ({ w with owner := f }.put i d) := by
  refine h.move hi rfl ho ⟨h.old, h.inj, fun n o k => (h.count n o k).trans ?_⟩
  have := refs_set (d := d) hi (n, o)
  simp only [World.put]
  grind

lemma Inv.retain (hi : w.callers[i]? = some c) (hc : c.entry = none)
    (he : d.entry = some (n, (w.retain n).2)) : Counted ((w.retain n).1.put i d) := by
  have hrefs := refs_set (d := d) hi
  have hcount := h.count
  have hold := h.old
  unfold World.retain at he ⊢
  cases hn : w.locks.get n <;> simp only [hn, Option.getD] at he ⊢
  all_goals
    refine ⟨fun n' o' k' => ?_, fun n1 n2 o' k1 k2 => ?_, fun n' o' k' => ?_⟩ <;>
      simp only [World.put, get_put_eq_some]
    · grind
    · grind [h.inj]
    · have := hrefs (n', o')
      have := hcount n' o' (refs w.callers (n', o'))
      grind

lemma Inv.release (hi : w.callers[i]? = some c) (hc : c.entry = some (n, o))
    (he : d.entry = none) : Counted ((w.release n o).put i d) := by
  have hget := h.get (mem_of_getElem? hi) hc
  have hrefs := refs_set (d := d) hi
  have hcount := h.count
  have hold := h.old
  unfold World.release
  simp only [hget, ne_eq, not_true, if_false]
  split_ifs with hone
  all_goals
    refine ⟨fun n' o' k' => ?_, fun n1 n2 o' k1 k2 => ?_, fun n' o' k' => ?_⟩ <;>
      simp only [World.put, get_put_eq_some, get_del_eq_some]
    · grind
    · grind [h.inj]
    · have := hrefs (n', o')
      have := hcount n' o' (refs w.callers (n', o'))
      grind

lemma inv_step (hs : step w e = some w') : Inv w' := by
  cases e with
  | come n ctx =>
    cases hs
    have hnew : ∀ x, refs (w.callers ++ [if ctx then .begun n else .entering n false]) x =
        refs w.callers x := by
      cases ctx <;> simp [refs, Caller.entry]
    refine ⟨⟨h.old, h.inj, fun n o k => (hnew (n, o)).symm ▸ h.count n o k⟩, fun i o => ?_⟩
    rw [h.owner i o, getElem?_append]
    cases ctx <;> grind [Caller.mutex]
  | go i expired =>
    simp only [step, World.go] at hs
    split at hs <;> try cases hs
    case h_1 hi | h_5 hi | h_6 hi => split_ifs <;> exact h.same hi rfl (h.kept hi rfl)
    case h_2 n ctx hi =>
      refine h.move hi rfl (h.kept hi ?_) (h.retain hi rfl ?_) <;> split_ifs <;> rfl
    case h_3 n o hi =>
      split at hs <;> cases hs
      exact h.same hi rfl (h.passed hi (.inl ⟨rfl, not_not.1 ‹_›, rfl, rfl⟩))
    case h_4 n o hi =>
      split_ifs with ho
      · exact h.same hi rfl (h.kept hi rfl)
      · exact h.same hi rfl (h.passed hi (.inl ⟨rfl, not_not.1 ho, rfl, rfl⟩))
    case h_7 n o hi | h_8 n o hi =>
      exact h.same hi rfl (h.passed hi (.inr ⟨rfl, rfl, rfl⟩))
    case h_9 n o hi =>
      exact h.move hi rfl (h.kept hi rfl) (h.release hi rfl rfl)

lemma Inv.can_go (hi : w.callers[i]? = some c) (hc : c ≠ .gone) : ∃ j, w.go j true ≠ none := by
  by_contra! hstuck
  obtain ⟨n, o, rfl, d, hd, hm, -⟩ := h.sound.free i c true hi hc (hstuck i)
  -- the caller that has the mutex does not wait for one
  obtain ⟨j, hj⟩ := mem_iff_getElem?.1 hd
  obtain ⟨_, _, rfl, -⟩ := h.sound.free j d true hj (by rintro rfl; cases hm) (hstuck j)
  cases hm

end

/-- How far a caller is from its end when contexts have expired. -/
def Caller.rank : Caller → Nat
  | .begun _ => 6
  | .entering .. => 5
  | .trying .. => 4
  | .waiting .. | .tried .. => 3
  | .selecting .. | .holding .. | .undoing .. => 2
  | .releasing .. => 1
  | .gone => 0

def World.rank (w : World) : Nat := (w.callers.map Caller.rank).sum

lemma go_rank (hs : w.go i true = some w') : w'.rank < w.rank := by
  have hset : ∃ c d, w.callers[i]? = some c ∧ w'.callers = w.callers.set i d ∧ d.rank < c.rank := by
    unfold World.go at hs
    split at hs <;> try cases hs
    case h_3 => split at hs <;> cases hs; exact ⟨_, _, ‹_›, rfl, by simp [Caller.rank]⟩
    case h_4 => split_ifs <;> exact ⟨_, _, ‹_›, rfl, by simp [Caller.rank]⟩
    all_goals exact ⟨_, _, ‹_›, rfl, by grind [Caller.rank]⟩
  obtain ⟨c, d, hi, hset, hlt⟩ := hset
  have := sum_map_set Caller.rank d hi
  rw [World.rank, World.rank, hset]
  omega

lemma Inv.drain (h : Inv w) : ∃ l : List Nat, ∃ w', exec step w (l.map (.go · true)) = some w' ∧
    Inv w' ∧ ∀ c ∈ w'.callers, c = .gone := by
  induction hr : w.rank using Nat.strong_induction_on generalizing w with
  | _ r ih =>
    by_cases hall : ∀ c ∈ w.callers, c = .gone
    · exact ⟨[], w, rfl, h, hall⟩
    push Not at hall
    obtain ⟨c, hc, hne⟩ := hall
    obtain ⟨i, hi⟩ := mem_iff_getElem?.1 hc
    obtain ⟨j, hj⟩ := h.can_go hi hne
    obtain ⟨w1, hs⟩ := ne_none_iff_exists'.1 hj
    obtain ⟨l, w', hrun, hw'⟩ := ih _ (hr ▸ go_rank hs) (inv_step (e := .go j true) h hs) rfl
    exact ⟨j :: l, w', by rw [map_cons, exec_cons, step, hs]; exact hrun, hw'⟩

end

/-- **The locks never deadlock**: from wherever a run has come, the callers that are there can all
go to their end once their contexts have expired, and then no entry is left. -/
theorem locks_drain (es : List Ev) (w : World) (hes : exec step start es = some w) :
    ∃ l : List Nat, ∃ w', exec step w (l.map (.go · true)) = some w' ∧
      (∀ c ∈ w'.callers, c = .gone) ∧ ∀ n, w'.locks.get n = none := by
  have hinit : Inv start :=
    ⟨⟨nofun, nofun, fun n o k => ⟨nofun, fun hk => absurd hk.2 hk.1.ne⟩⟩, by simp [start]⟩
  obtain ⟨l, w', hrun, hinv, hgone⟩ := (exec_inv' (fun _ _ _ h => inv_step h) hinit hes).drain
  refine ⟨l, w', hrun, hgone, fun n => hinv.sound.empty n fun c hc => ?_⟩
  rw [hgone c hc]
  exact nofun

theorem two_callers_drain : ∃ w, exec step start [.come "a" false, .come "a" true, .go 0 false,
      .go 0 false, .go 1 false] = some w ∧ ∃ l : List Nat, ∃ w',
        exec step w (l.map (.go · true)) = some w' ∧ (∀ c ∈ w'.callers, c = .gone) ∧
          ∀ n, w'.locks.get n = none :=
  leads World.callers [.holding "a" 0, .entering "a" true] (by decide +kernel) fun w hw _ =>
    locks_drain _ w hw

/-- **Locks by name exclude, hold up no other name and leave no entry behind**, in every run. -/
theorem resource_locks_sound (es : List Ev) (w : World) (h : exec step start es = some w) :
    Sound w := by
  have hinit : Inv start := by
    refine ⟨⟨nofun, nofun, fun n o k => ⟨nofun, fun hk => ?_⟩⟩, by simp [start]⟩
    exact absurd hk.2 hk.1.ne
  exact (exec_inv' (fun _ _ _ h => inv_step h) hinit h).sound

/-- Of two callers of a name one holds it, and a waiter whose context expires leaves. -/
theorem expired_waiter_leaves : ∃ w, exec step start [.come "a" false, .come "a" true, .go 0 false,
      .go 0 false, .go 1 false, .go 1 false, .go 1 false, .go 1 true, .go 1 true, .go 0 false,
      .go 0 false] = some w ∧ w.callers = [.gone, .gone] ∧ w.locks.get "a" = none := by
  refine leads World.callers [.gone, .gone] (by decide +kernel) fun w hw hc => ⟨hc, ?_⟩
  apply (resource_locks_sound _ w hw).empty
  simp [hc, Caller.entry]

end CubeSandbox.ResourceLocks
