import CubeSandbox.IdleSweep
import CubeSandbox.LcmView

/-!
Whether the key, the proxies and CubeMaster agree on a sandbox.

The key is taken with set-if-absent by the sweeper only. The resumer and the handler of state
events read the key and overwrite it later, leases expire while a call is under way, and an
outcome is told to the proxies after the key says it. Agreement rests on these steps happening
as if the key were a lock.
-/

namespace CubeSandbox.Flow

open GoText Conc Lcm Tbl Runs List Option Function

/-- No transition is under way by the key, and no outcome is being told. -/
def World.Free (w : World) (sid : Sid) : Prop :=
  (∀ st ∈ w.keys.get sid, st.marker = false) ∧ sid ∉ w.telling

def World.ProxiesAgree (w : World) (sid : Sid) : Prop :=
  ∀ ph ∈ w.phases.get sid, ph ≠ .gone →
    ∀ x ∈ w.proxies.toPairs, ∀ st ∈ x.2.accepted.get sid, st.Matches ph

def World.Truthful (w : World) (c : Call) (sid : Sid) (applied : Bool) : Reply → Prop
  | .ok => applied = true
  | .alreadyInState => applied = false ∧ w.phases.get sid = some c.target
  | .notFound => w.live sid = false
  | .failed => True

/-- A failed pause or kill has not paused the sandbox. A resume that is given up leaves the proxies
at odds with CubeMaster if an event was dropped for it that told of another state. -/
def World.MayClear (w : World) (sid : Sid) : Prop :=
  match w.keys.get sid with
  | some .resuming => sid ∈ w.inHand ∨ sid ∈ w.dropped → w.ProxiesAgree sid
  | some .pausing | some .killing => w.phases.get sid ≠ some .paused
  | _ => True

def Orderly (w : World) : Act → Outcome → Prop
  | .getEntry r sid, _ =>
    sid ∈ w.inHand → w.live sid = true → ((w.registry r).get sid).isSome = true
  | .getState sid, o => sid ∈ w.inHand → o ≠ .err
  | .acquireState sid _, o =>
    w.keys.get sid = none → o ≠ .errDone ∧ (o = .ok → sid ∉ w.telling)
  | .overwrite sid seen st, o =>
    (o ≠ if st = .resuming then .errDone else .err) ∧
      (o ≠ .err → w.keys.get sid = seen ∧ w.Free sid)
  | .setState _ _, o => o ≠ .err
  | .clearState sid, o => o ≠ .err ∧ w.MayClear sid
  | .serve c sid, .served reply applied published =>
    published = applied ∧ (applied = true → w.live sid = true) ∧ w.Truthful c sid applied reply
  | .serve _ _, o => o ≠ .abandoned
  | .fleet r (.setState sid st), _ =>
    st.marker = false →
      ∀ x ∈ w.proxies.toPairs, (x.2.accepted.get sid).isSome = true → x.1 ∈ w.fleet r
  | .push (.setState _ _) _, .pushed _ d => d ≠ .late
  | .timeLeft 0, o => o = .ok
  | _, _ => True

def OrderlyStart (w : World) : Op → Prop
  | .create sid =>
    w.keys.get sid = none ∧ (∀ x ∈ w.proxies.toPairs, x.2.accepted.get sid = none) ∧
      sid ∉ w.active ∧ ∀ ev ∈ w.stream, ev.sid? ≠ some sid
  | .user c sid published =>
    w.live sid = true → c ≠ .kill → published = true ∧ w.Free sid
  | .expire sid => w.Free sid
  | .consume _ => ∀ ev ∈ w.stream.head?, ∀ sid ∈ ev.sid?, sid ∉ w.inHand
  | _ => True

instance (w : World) (sid : Sid) : Decidable (w.Free sid) := inferInstanceAs (Decidable (_ ∧ _))

instance (w : World) (sid : Sid) : Decidable (w.ProxiesAgree sid) :=
  inferInstanceAs (Decidable (∀ ph ∈ w.phases.get sid, ph ≠ .gone →
    ∀ x ∈ w.proxies.toPairs, ∀ st ∈ x.2.accepted.get sid, st.Matches ph))

instance (w : World) (sid : Sid) : Decidable (w.MayClear sid) := by
  unfold World.MayClear
  split <;> infer_instance

instance (w : World) (c : Call) (sid : Sid) (applied : Bool) (reply : Reply) :
    Decidable (w.Truthful c sid applied reply) := by
  unfold World.Truthful
  split <;> infer_instance

instance (w : World) (a : Act) (o : Outcome) : Decidable (Orderly w a o) := by
  unfold Orderly
  split <;> infer_instance

instance (w : World) (op : Op) : Decidable (OrderlyStart w op) := by
  unfold OrderlyStart
  split <;> infer_instance

/-! ### What there is of one sandbox -/

def Event.newsOf (x : Sid) : Event → Option LState
  | state sid st => if sid = x then some st else none
  | _ => none

def view (w : World) (x : Sid) : View where
  key := w.keys.get x
  phase := w.phases.get x
  accepted p := (w.proxies.get p).bind fun q => q.accepted.get x
  missed p := (p, x) ∈ w.missed
  news := w.stream.filterMap (Event.newsOf x)
  active := w.active.count x
  inHand := w.inHand.count x
  dropped := x ∈ w.dropped
  telling := w.telling.count x
  calls c := w.calls.count (c, x)

variable {ev : Event} {e : Entry} {d : Delivery} {T : Multiset Pos} {req : Push}

lemma newsOf_eq_some {x : Sid} {st : LState} : ev.newsOf x = some st ↔ ev = .state x st := by
  cases ev with
  | state sid st' =>
    by_cases hx : sid = x
    · subst hx; simp [Event.newsOf]
    · simp [Event.newsOf, hx]
  | create | update | delete => simp [Event.newsOf]

def posOf (x : Sid) (R : Multiset (Sid × Pos)) : Multiset Pos :=
  R.filterMap fun t => if t.1 = x then some t.2 else none

@[simp] lemma posOf_self (x : Sid) (p : Pos) (R : Multiset (Sid × Pos)) :
    posOf x ((x, p) ::ₘ R) = p ::ₘ posOf x R :=
  Multiset.filterMap_cons_some _ _ _ (if_pos rfl)

lemma posOf_ne {x y : Sid} (p : Pos) (R : Multiset (Sid × Pos)) (h : x ≠ y) :
    posOf x ((y, p) ::ₘ R) = posOf x R :=
  Multiset.filterMap_cons_none _ _ (if_neg h.symm)

/-- **The invariant.** Each sandbox is kept, no call was given up, no pushed state is late, and the
events say what CubeMaster can say. -/
structure Accord (w : World) (R : Multiset (Sid × Pos)) : Prop where
  kept : ∀ x, Kept (view w x) (posOf x R)
  orphans : w.orphans = []
  wire : ∀ x ∈ w.wire, ∀ sid st, x.2 ≠ .setState sid st
  news : ∀ sid st, .state sid st ∈ w.stream → st.marker = false

/-! ### Changes of the world, sandbox by sandbox -/

section Changes

variable (w : World) {x sid : Sid}

lemma live_iff {w : World} {sid : Sid} : w.live sid = true ↔ ∃ ph, (view w sid).Live ph := by
  unfold World.live View.Live view
  cases h : w.phases.get sid with
  | none => simp
  | some ph => cases ph <;> simp

lemma not_live_iff {w : World} {sid : Sid} : w.live sid = false ↔ ∀ ph, ¬ (view w sid).Live ph := by
  rw [← Bool.not_eq_true, live_iff, not_exists]

lemma view_eq_update {w w' : World} {v : View} (hself : view w' sid = v)
    (hother : ∀ x, x ≠ sid → view w' x = view w x) : view w' = update (view w) sid v := by
  funext x
  by_cases hx : x = sid
  · subst hx
    rw [update_self, hself]
  · rw [update_of_ne hx, hother x hx]

lemma view_writeKey (st : LState) :
    view (w.writeKey sid st) = update (view w) sid ((view w sid).write st) :=
  view_eq_update (by simp [view, View.write, World.writeKey]) fun x h => by
    simp [view, World.writeKey, get_put_ne _ _ h, h]

lemma view_clearKey : view (w.clearKey sid) = update (view w) sid { view w sid with key := none } :=
  view_eq_update (by simp [view, World.clearKey]) fun x h => by
    simp [view, World.clearKey, get_del_ne _ h]

lemma view_enter : view { w with active := sid :: w.active } = update (view w) sid
      { view w sid with active := (view w sid).active + 1 } :=
  view_eq_update (by simp [view]) fun x h => by simp [view, count_cons_of_ne h.symm]

lemma view_leave : view { w with active := w.active.erase sid } = update (view w) sid
      { view w sid with active := (view w sid).active - 1 } :=
  view_eq_update (by simp [view]) fun x h => by simp [view, count_erase_of_ne h]

lemma view_telling : view { w with telling := sid :: w.telling } = update (view w) sid
      { view w sid with telling := (view w sid).telling + 1 } :=
  view_eq_update (by simp [view]) fun x h => by simp [view, count_cons_of_ne h.symm]

lemma view_told : view { w with telling := w.telling.erase sid } = update (view w) sid
      { view w sid with telling := (view w sid).telling - 1 } :=
  view_eq_update (by simp [view]) fun x h => by simp [view, count_erase_of_ne h]

lemma mem_droppedWith : x ∈ w.droppedWith sid ↔
      (x = sid ∧ w.keys.get sid = some .resuming) ∨ x ∈ w.dropped := by
  unfold World.droppedWith
  split <;> simp [*]

lemma view_handled :
    view { w with inHand := w.inHand.erase sid, dropped := w.droppedWith sid } =
      update (view w) sid { view w sid with
        inHand := (view w sid).inHand - 1
        dropped := sid ∈ w.droppedWith sid } :=
  view_eq_update (by simp [view]) fun x h => by
    simp [view, count_erase_of_ne h, mem_droppedWith, h]

/-- The calls of one kind change. -/
lemma view_calls {calls : List (Call × Sid)} {c : Call}
    (hne : ∀ y, y ≠ (c, sid) → calls.count y = w.calls.count y) :
    view { w with calls := calls } = update (view w) sid { view w sid with
      calls := update (view w sid).calls c (calls.count (c, sid)) } := by
  refine view_eq_update ?_ fun x h => ?_
  · have hcalls : (fun y => calls.count (y, sid)) =
        update (view w sid).calls c (calls.count (c, sid)) := by
      funext y
      by_cases hy : y = c
      · rw [hy, update_self]
      · rw [update_of_ne hy, hne _ (by simp [hy])]
        rfl
    rw [← hcalls]
    rfl
  · have hcalls : (fun y => calls.count (y, x)) = fun y => w.calls.count (y, x) :=
      funext fun y => hne _ (by simp [h])
    unfold view
    rw [← hcalls]

/-- The phase of a sandbox after CubeMaster has carried out a call. -/
def World.phaseAfter (c : Call) (sid : Sid) (applied : Bool) : Option Phase :=
  if applied && w.live sid then some c.target else w.phases.get sid

def viewAfter (sid : Sid) (c : Call) (applied published : Bool) : View :=
  { view w sid with
    phase := w.phaseAfter c sid applied
    news := (view w sid).news ++ if published then c.news.toList else [] }

lemma view_carryOut (c : Call) (applied published : Bool) :
    view (w.carryOut c sid applied published) =
      update (view w) sid (viewAfter w sid c applied published) := by
  refine view_eq_update ?_ fun x h => ?_
  · unfold World.carryOut viewAfter World.phaseAfter
    cases c.news with
    | none => split <;> cases published <;> simp [view, World.setPhase]
    | some st =>
      cases published with
      | false => split <;> simp [view, World.setPhase]
      | true => split <;> simp [view, World.setPhase, Event.newsOf]
  · unfold World.carryOut
    cases applied && w.live sid <;> cases c.news <;> cases published <;>
      simp [view, World.setPhase, get_put_ne _ _ h, Event.newsOf, h.symm]

lemma stream_carryOut (c : Call) (sid : Sid) (applied published : Bool) :
    (w.carryOut c sid applied published).stream =
      w.stream ++ if published then (c.news.map (.state sid)).toList else [] := by
  unfold World.carryOut
  cases applied && w.live sid <;> cases c.news <;> cases published <;> simp [World.setPhase]

lemma rest_carryOut (c : Call) (sid : Sid) (applied published : Bool) :
    (w.carryOut c sid applied published).orphans = w.orphans ∧
      (w.carryOut c sid applied published).wire = w.wire ∧
      (w.carryOut c sid applied published).calls = w.calls := by
  unfold World.carryOut
  cases applied && w.live sid <;> cases c.news <;> cases published <;> exact ⟨rfl, rfl, rfl⟩

lemma view_setProxy {p : ProxyId} {q q' : Proxy} (hq : w.proxies.get p = some q)
    (hacc : q'.accepted = q.accepted) : view (w.setProxy p q') x = view w x := by
  have haccepted : ∀ y, ((w.proxies.put p q').get y).bind (fun q => q.accepted.get x) =
      (w.proxies.get y).bind fun q => q.accepted.get x := by
    intro y
    by_cases hy : y = p
    · subst hy; simp [hq, hacc]
    · rw [get_put_ne _ _ hy]
  simp [view, World.setProxy, haccepted]

variable (p : ProxyId)

lemma rest_pushOne (req : Push) (d : Delivery) :
    (pushOne w req p d).1.orphans = w.orphans ∧ (pushOne w req p d).1.stream = w.stream ∧
      ((pushOne w req p d).1.wire = w.wire ∨
        d = .late ∧ (pushOne w req p d).1.wire = w.wire ++ [(p, req)]) := by
  rcases pushOne_cases w p req d with heq | ⟨q, -, heq⟩ | ⟨hd, heq⟩
  · rw [heq]; cases req <;> exact ⟨rfl, rfl, .inl rfl⟩
  · rw [heq]; cases req <;> exact ⟨rfl, rfl, .inl rfl⟩
  · rw [heq]; cases req <;> exact ⟨rfl, rfl, .inr ⟨hd, rfl⟩⟩

lemma view_miss (st : LState) : view (w.miss p (.setState sid st)) = update (view w) sid
      { view w sid with missed := fun q => q = p ∨ (view w sid).missed q } :=
  view_eq_update (by simp [view, World.miss]) fun x h => by simp [view, World.miss, h]

lemma view_hit {p : ProxyId} {q : Proxy} (hq : w.proxies.get p = some q) (st : LState) :
    view ((w.setProxy p (q.store (.setState sid st))).hit p (.setState sid st)) =
      update (view w) sid { view w sid with
        accepted := update (view w sid).accepted p (some st)
        missed := fun y => (view w sid).missed y ∧ y ≠ p } := by
  refine view_eq_update ?_ fun x h => ?_
  · have hacc : (fun y => ((w.proxies.put p (q.store (.setState sid st))).get y).bind
        fun q => q.accepted.get sid) = update (view w sid).accepted p (some st) := by
      funext y
      by_cases hy : y = p
      · subst hy; simp [Proxy.store]
      · rw [update_of_ne hy, get_put_ne _ _ hy]; rfl
    rw [← hacc]
    simp [view, World.hit, World.setProxy]
  · have hacc : ∀ y, ((w.proxies.put p (q.store (.setState sid st))).get y).bind
        (fun q => q.accepted.get x) = (w.proxies.get y).bind fun q => q.accepted.get x := by
      intro y
      by_cases hy : y = p
      · subst hy; simp [Proxy.store, hq, get_put_ne _ _ h]
      · rw [get_put_ne _ _ hy]
    simp [view, World.hit, World.setProxy, hacc, h]

lemma view_pushOne (st : LState) (hd : d ≠ .late) :
    ∃ acc missed, view (pushOne w (.setState sid st) p d).1 = update (view w) sid
        { view w sid with accepted := acc, missed := missed } ∧
      (acc p = some st ∨ missed p) ∧ (∀ q, q ≠ p → acc q = (view w sid).accepted q) ∧
      ∀ q, q ≠ p → (view w sid).missed q → missed q := by
  rcases pushOne_cases w p (.setState sid st) d with heq | ⟨q, hq, heq⟩ | ⟨hlate, -⟩
  · rw [heq, view_miss]
    exact ⟨_, _, rfl, .inr (.inl rfl), fun _ _ => rfl, fun _ _ hm => .inr hm⟩
  · rw [heq, view_hit w hq]
    exact ⟨_, _, rfl, .inl (update_self ..), fun _ hy => update_of_ne hy ..,
      fun _ hy hm => ⟨hm, hy⟩⟩
  · exact absurd hlate hd

lemma Kept.forgets {w w' : World} (h : Kept (view w x) T) (hview : view w' x = { view w x with
      accepted := (view w' x).accepted
      missed := (view w' x).missed }) (hacc : ∀ p st, (view w' x).accepted p = some st →
      (view w x).accepted p = some st ∧ ((view w x).missed p → (view w' x).missed p)) :
    Kept (view w' x) T := by
  rw [hview]
  exact h.forget hacc

lemma Kept.pushOther (h : Kept (view w x) T) (p : ProxyId) (hreq : ∀ sid st, req ≠ .setState sid st)
    (d : Delivery) : Kept (view (pushOne w req p d).1 x) T := by
  cases req with
  | setState sid st => exact absurd rfl (hreq sid st)
  | upsertMeta m =>
    rcases pushOne_cases w p (.upsertMeta m) d with heq | ⟨q, hq, heq⟩ | ⟨-, heq⟩
    · rw [heq]; exact h
    · rw [heq]
      exact (view_setProxy w hq rfl : view (w.setProxy p (q.store (.upsertMeta m))) x = _) ▸ h
    · rw [heq]; exact h
  | deleteMeta sid =>
    rcases pushOne_cases w p (.deleteMeta sid) d with heq | ⟨q, hq, heq⟩ | ⟨-, heq⟩
    · rw [heq]; exact h
    · rw [heq]
      refine h.forgets rfl fun y st hy => ⟨?_, id⟩
      change ((w.proxies.put p (q.store (.deleteMeta sid))).get y).bind _ = _ at hy
      by_cases hyp : y = p
      · subst hyp
        simp only [get_put_self, bind_some, Proxy.store] at hy
        obtain ⟨-, hy⟩ := get_del_eq_some.1 hy
        simpa [view, hq] using hy
      · rwa [get_put_ne _ _ hyp] at hy
    · rw [heq]; exact h

end Changes

/-! ### Steps in the world -/

namespace Accord

variable {w w' : World} {R G : Multiset (Sid × Pos)} {sid : Sid} {p p' : Pos} {b : Bool}

lemma at_head (h : Accord w ((sid, p) ::ₘ G)) : Kept (view w sid) (p ::ₘ posOf sid G) := by
  have hk := h.kept sid
  rwa [posOf_self] at hk

lemma move (h : Accord w ((sid, p) ::ₘ G)) {v : View}
    (hview : view w' = update (view w) sid v) (hk : Kept v (p' ::ₘ posOf sid G))
    (ho : w'.orphans = []) (hw : ∀ x ∈ w'.wire, ∀ sid st, x.2 ≠ .setState sid st)
    (hn : ∀ sid st, .state sid st ∈ w'.stream → st.marker = false) :
    Accord w' ((sid, p') ::ₘ G) := by
  refine ⟨fun x => ?_, ho, hw, hn⟩
  rw [hview]
  by_cases hx : x = sid
  · subst hx
    rwa [posOf_self, update_self]
  · rw [update_of_ne hx, posOf_ne _ _ hx, ← posOf_ne p G hx]
    exact h.kept x

lemma turn (h : Accord w ((sid, p) ::ₘ G)) {v : View}
    (hview : view w' = update (view w) sid v) (hk : Kept v (p' ::ₘ posOf sid G))
    (ho : w'.orphans = w.orphans) (hw : w'.wire = w.wire) (hs : w'.stream = w.stream) :
    Accord w' ((sid, p') ::ₘ G) :=
  h.move hview hk (ho.trans h.orphans) (hw ▸ h.wire) (hs ▸ h.news)

/-- The world has stayed, and the operation goes on. -/
lemma advance (h : Accord w ((sid, p) ::ₘ G)) (hk : Kept (view w sid) (p' ::ₘ posOf sid G)) :
    Accord w ((sid, p') ::ₘ G) :=
  h.turn (update_eq_self ..).symm hk rfl rfl rfl

lemma stay (h : Accord w R) (hk : ∀ x T, Kept (view w x) T → Kept (view w' x) T)
    (ho : w'.orphans = []) (hw : ∀ x ∈ w'.wire, ∀ sid st, x.2 ≠ .setState sid st)
    (hn : ∀ sid st, .state sid st ∈ w'.stream → st.marker = false) : Accord w' R :=
  ⟨fun x => hk x _ (h.kept x), ho, hw, hn⟩

lemma same (h : Accord w R) (hv : view w' = view w) (ho : w'.orphans = w.orphans)
    (hw : w'.wire = w.wire) (hs : w'.stream = w.stream) : Accord w' R :=
  h.stay (fun x T hk => by rwa [hv]) (ho.trans h.orphans) (hw ▸ h.wire) (hs ▸ h.news)

lemma enter (h : Accord w R) (sid : Sid) :
    Accord { w with active := sid :: w.active } ((sid, ⟨.reading, none, false⟩) ::ₘ R) := by
  refine ⟨fun x => ?_, h.orphans, h.wire, h.news⟩
  rw [view_enter]
  by_cases hx : x = sid
  · subst hx
    rw [posOf_self, update_self]
    exact (h.kept x).enter
  · rw [posOf_ne _ _ hx, update_of_ne hx]
    exact h.kept x

lemma leave (h : Accord w ((sid, ⟨.reading, none, false⟩) ::ₘ G)) :
    Accord { w with active := w.active.erase sid } G := by
  refine ⟨fun x => ?_, h.orphans, h.wire, h.news⟩
  rw [view_leave]
  by_cases hx : x = sid
  · subst hx
    rw [update_self]
    exact h.at_head.leave
  rw [update_of_ne hx]
  have hk := h.kept x
  rwa [posOf_ne _ _ hx] at hk

lemma news_carryOut (h : Accord w R) (c : Call) (sid : Sid) (applied published : Bool) :
    ∀ x st, .state x st ∈ (w.carryOut c sid applied published).stream → st.marker = false := by
  intro x st hst
  rw [stream_carryOut, mem_append] at hst
  rcases hst with hst | hst
  · exact h.news x st hst
  · cases c <;> cases published <;> simp [Call.news] at hst <;> rw [hst.2] <;> rfl

lemma pushOther (h : Accord w R) (p : ProxyId) (hreq : ∀ sid st, req ≠ .setState sid st)
    (d : Delivery) : Accord (pushOne w req p d).1 R := by
  obtain ⟨ho, hs, hwire⟩ := rest_pushOne w p req d
  refine h.stay (fun x T hk => hk.pushOther w p hreq d) (ho.trans h.orphans) ?_ (hs ▸ h.news)
  rcases hwire with hw | ⟨-, hw⟩
  · exact hw ▸ h.wire
  rw [hw]
  intro x hx
  rcases mem_append.1 hx with hx | hx
  · exact h.wire x hx
  · obtain rfl := mem_singleton.1 hx
    exact hreq

end Accord

/-! ### The actions of an operation -/

abbrev Accords (cfg : SweepOptions) {α : Type} (p : Task α) (r : Multiset (Sid × Pos))
    (Q : α → Multiset (Sid × Pos) → Prop) : Prop :=
  Safe (machine cfg) Accord Orderly p r Q

/-- One operation, without an event. -/
abbrev tok (sid : Sid) (pl : Place) (hand : Bool) : Multiset (Sid × Pos) :=
  {(sid, ⟨pl, none, hand⟩)}

abbrev Takes (cfg : SweepOptions) {α : Type} (p : Task α) (r r' : Multiset (Sid × Pos)) : Prop :=
  Accords cfg p r fun _ q => q = r'

variable {cfg : SweepOptions} {w w' : World} {r : ManagerId} {sid : Sid} {b : Bool} {c : Call}
  {st m : LState} {applied published : Bool}

lemma accords_enter : Takes cfg (act (.enter sid)) 0 (tok sid .reading false) := by
  refine .does (fun _ _ => rfl) fun w F hI => ?_
  rw [zero_add] at hI
  exact hI.enter sid

lemma accords_leave : Takes cfg (act (.leave sid)) (tok sid .reading false) 0 := by
  refine .does (fun _ _ => rfl) fun w F hI => ?_
  rw [zero_add]
  exact hI.leave

lemma World.Free.view (h : w.Free sid) : (view w sid).Free := ⟨h.1, count_eq_zero.2 h.2⟩

lemma accords_acquire (hm : m.marker = true) :
    Accords cfg (act (.acquireState sid m)) (tok sid .reading b) fun v r =>
      r = tok sid (if v = some true then .locked m else .reading) b := by
  refine .act fun w G o w' v hI hok hact => ?_
  simp only [machine, perform, setNX] at hact
  split at hact
  · split at hact
    · -- somebody has the key
      cases hact
      exact hI
    rename_i hkey
    cases hact
    have hfree : w.Free sid := ⟨by simp [hkey], (hok hkey).2 rfl⟩
    exact hI.turn (view_writeKey w m) (hI.at_head.lock hm hfree.view) rfl rfl rfl
  · cases hact
    exact hI
  · split at hact
    · cases hact
      exact hI
    · -- it was taken, and the answer got lost
      rename_i hkey
      exact absurd rfl (hok hkey).1
  · simp at hact

lemma accords_claim {seen : Option LState} :
    Accords cfg (act (.overwrite sid seen .resuming)) (tok sid .reading b) fun v r =>
      r = tok sid (if v = true then .locked .resuming else .reading) b := by
  refine .act fun w G o w' v hI hok hact => ?_
  obtain ⟨⟨x, v'⟩, hx, rfl, rfl⟩ := acted_map hact
  rw [if_pos rfl]
  obtain ⟨hno, hfree⟩ := hok
  cases o with
  | ok =>
    cases hx
    have hf := (hfree (by simp)).2
    exact hI.turn (view_writeKey w _) (hI.at_head.lock rfl hf.view) rfl rfl rfl
  | err =>
    cases hx
    exact hI
  | errDone => exact absurd rfl hno
  | served | abandoned | pushed | status => simp [write] at hx

lemma accords_overwrite {seen : Option LState} {p : Pos} (hm : st.marker = false)
    (hwrite : ∀ (w : World) (G : Multiset Pos), w.keys.get sid = seen → w.Free sid →
      Kept (view w sid) (p ::ₘ G) →
      Kept { (view w sid).write st with telling := (view w sid).telling + 1 }
        (⟨.telling st none, none, b⟩ ::ₘ G)) :
    Accords cfg (act (.overwrite sid seen st)) {(sid, p)} fun _ r =>
      r = tok sid (.telling st none) b := by
  refine .act fun w G o w' v hI hok hact => ?_
  have hst : st ≠ .resuming := by
    rintro rfl
    cases hm
  obtain ⟨⟨x, v'⟩, hx, rfl, rfl⟩ := acted_map hact
  obtain ⟨hno, hfree⟩ := hok
  rw [if_neg hst] at hno ⊢
  rcases write_cases (f := (·.writeKey sid st)) hx with ⟨rfl, -⟩ | ⟨ho, rfl⟩
  · exact absurd rfl hno
  obtain ⟨hseen, hf⟩ := hfree ho
  refine hI.turn ?_ (hwrite w _ hseen hf hI.at_head) rfl rfl rfl
  rw [view_telling (w.writeKey sid st), view_writeKey, update_self, update_idem]
  rfl

lemma accords_send (he : e.metadata.sandboxId = sid) :
    Takes cfg (act (.send r c e)) (tok sid (.locked c.marker) b) (tok sid (.calling c) b) := by
  refine .does (fun _ _ => rfl) fun w G hI => ?_
  subst he
  refine hI.turn (view_calls w (c := c) fun y hy => count_cons_of_ne hy.symm) ?_ rfl rfl rfl
  rw [count_cons_self]
  exact hI.at_head.send

/-- What an answer says of the sandbox. -/
def Call.outcome (c : Call) : Reply → Option LState
  | .ok | .alreadyInState =>
    match c with
    | pause => some .paused
    | resume => some .running
    | kill => some .killed
  | .notFound => some .killed
  | .failed => none

lemma outcome_matches {reply : Reply} (hlive : applied = true → w.live sid = true)
    (htrue : w.Truthful c sid applied reply)
    (v : View) (hv : v.phase = w.phaseAfter c sid applied) :
    ∀ s ∈ c.outcome reply, ∀ ph, v.Live ph → s.Matches ph := by
  intro s hs ph hl
  have hph : w.phaseAfter c sid applied = some ph := hv.symm.trans hl.1
  have htarget : reply = .ok ∨ reply = .alreadyInState → ph = c.target := by
    intro hreply
    refine (some.inj (?_ : some c.target = some ph)).symm
    rw [← hph]
    rcases hreply with rfl | rfl
    · have happ : applied = true := htrue
      simp [World.phaseAfter, happ, hlive happ]
    · obtain ⟨happ, hphase⟩ := htrue
      simp [World.phaseAfter, happ, hphase]
  have hmatch : reply = .ok ∨ reply = .alreadyInState → s.Matches ph := by
    intro hreply
    have hp := htarget hreply
    have hout : c.outcome .ok = some s := by
      rcases hreply with rfl | rfl
      · exact hs
      · exact hs
    cases c with
    | pause => cases hout; exact .inr ⟨rfl, hp⟩
    | resume => cases hout; exact .inl ⟨rfl, hp⟩
    | kill => exact absurd hp hl.2
  cases reply with
  | ok => exact hmatch (.inl rfl)
  | alreadyInState => exact hmatch (.inr rfl)
  | failed => cases hs
  | notFound =>
    -- of a dead sandbox nothing is said
    have hdead : w.live sid = false := htrue
    have hphase : w.phases.get sid = some ph := by
      rw [← hph]
      simp [World.phaseAfter, hdead]
    exact absurd ⟨hphase, hl.2⟩ (not_live_iff.1 hdead ph)

lemma heard_carryOut (h : Heard (view w sid) T) (hpub : published = applied)
    (hlive : applied = true → w.live sid = true) :
    Heard (viewAfter w sid c applied published) T := by
  subst hpub
  cases published with
  | false =>
    have hphase : w.phaseAfter c sid false = (view w sid).phase := rfl
    exact h.mono hphase (by simp [viewAfter]) fun t ht => .inr ⟨t, ht, rfl, rfl⟩
  | true =>
    have hphase : w.phaseAfter c sid true = some c.target := by
      simp [World.phaseAfter, hlive rfl]
    rw [viewAfter, hphase]
    cases c with
    | pause => exact h.publish (.inr ⟨rfl, rfl⟩)
    | resume => exact h.publish (.inl ⟨rfl, rfl⟩)
    | kill =>
      have hdead : ∀ ph, ¬ ({ view w sid with
          phase := some Call.kill.target
          news := (view w sid).news ++ if true then Call.kill.news.toList else [] } :
            View).Live ph :=
        fun ph hl => hl.2 (some.inj hl.1).symm
      exact ⟨h.hand, fun ph hl => absurd hl (hdead ph), fun ph hl => absurd hl (hdead ph)⟩

lemma held_carryOut (hpub : published = applied) (hlive : applied = true → w.live sid = true)
    (h : (view w sid).Held c.marker) :
    (viewAfter w sid c applied published).Held c.marker := by
  subst hpub
  refine ⟨h.1, fun hr hhand hd => ?_⟩
  obtain rfl : c = .resume := by cases c <;> first | rfl | cases hr
  obtain ⟨s, hs⟩ := h.2 rfl hhand hd
  refine ⟨s, fun ph hl => ?_⟩
  cases published with
  | false => exact (hs ph hl).imp_right fun h hnil => h (by simpa [viewAfter] using hnil)
  | true =>
    obtain ⟨ph0, hl0⟩ := live_iff.1 (hlive rfl)
    exact ⟨(hs ph0 hl0).1, fun hnil => by simp [viewAfter, Call.news] at hnil⟩

lemma accords_serve : Accords cfg (act (.serve c sid)) (tok sid (.calling c) b) fun v r =>
      r = tok sid (.served c (c.outcome v)) b := by
  refine .act fun w G o w' v hI hok hact => ?_
  cases o with
  | served reply applied published =>
    cases hact
    obtain ⟨hpub, hlive, htrue⟩ := hok
    set u := w.carryOut c sid applied published with hu
    refine hI.move (v := { viewAfter w sid c applied published with
        telling := (view w sid).telling + 1
        calls := update (view w sid).calls c ((view w sid).calls c - 1) }) ?_ ?_ ?_ ?_ ?_
    · rw [view_telling { u with calls := u.calls.erase (c, sid) },
        view_calls u (c := c) fun y hy => count_erase_of_ne hy, hu, view_carryOut]
      simp [viewAfter, view, rest_carryOut]
    · exact hI.at_head.serve (c := c)
        (outcome_matches hlive htrue { view w sid with phase := w.phaseAfter c sid applied } rfl)
        (heard_carryOut hI.at_head.heard hpub hlive) (held_carryOut hpub hlive)
    · exact (rest_carryOut w c sid applied published).1.trans hI.orphans
    · exact (rest_carryOut w c sid applied published).2.1 ▸ hI.wire
    · exact hI.news_carryOut c sid applied published
  | abandoned => exact absurd rfl hok
  | ok | err | errDone | pushed | status => simp [machine, perform] at hact

lemma accords_setState (hm : st.marker = false) :
    Takes cfg (act (.setState sid st)) (tok sid (.served c (some st)) b)
      (tok sid (.telling st none) b) := by
  refine .act fun w G o w' v hI hok hact => ?_
  rcases write_cases (f := (·.writeKey sid st)) hact with ⟨rfl, -⟩ | ⟨-, rfl⟩
  · exact absurd rfl hok
  · exact hI.turn (view_writeKey w _) (hI.at_head.writeOutcome hm) rfl rfl rfl

lemma accepted_iff {p : ProxyId} : (view w sid).accepted p = some st ↔
      ∃ q, (p, q) ∈ w.proxies.toPairs ∧ q.accepted.get sid = some st := by
  refine bind_eq_some_iff.trans (exists_congr fun q => and_congr_left fun _ => ?_)
  exact mem_pairs.symm

lemma World.ProxiesAgree.matches (h : w.ProxiesAgree sid) :
    ∀ ph, (view w sid).Live ph → ∀ p st, (view w sid).accepted p = some st → st.Matches ph := by
  intro ph hl p st hst
  obtain ⟨q, hq, hacc⟩ := accepted_iff.1 hst
  exact h ph hl.1 hl.2 _ hq st hacc

lemma World.MayClear.inStep (h : w.MayClear sid) (hheld : (view w sid).Held .resuming) :
    (view w sid).InStep := by
  have hkey : w.keys.get sid = some .resuming := hheld.1
  unfold World.MayClear at h
  rw [hkey] at h
  by_cases hc : sid ∈ w.inHand ∨ sid ∈ w.dropped
  · exact Kept.inStep_of_matches (h hc).matches
  · rw [not_or] at hc
    exact hheld.2 rfl (count_eq_zero.2 hc.1) hc.2

lemma accords_clear {p : Pos} {f : LState → Pos}
    (hstep : ∀ (w : World) (G : Multiset Pos), w.MayClear sid → Kept (view w sid) (p ::ₘ G) →
      ∃ st, Kept { view w sid with key := none } (f st ::ₘ G)) :
    Accords cfg (act (.clearState sid)) {(sid, p)} fun _ r => ∃ st, r = {(sid, f st)} := by
  refine .perform fun w F o w' v hI hok hact => ?_
  rcases write_cases (f := (·.clearKey sid)) hact with ⟨rfl, -⟩ | ⟨-, rfl⟩
  · exact absurd rfl hok.1
  obtain ⟨st, hk⟩ := hstep w _ hok.2 hI.at_head
  refine ⟨{(sid, f st)}, ?_, st, rfl⟩
  exact hI.turn (view_clearKey w) hk rfl rfl rfl

lemma accords_clear_failed (hc : c ≠ .resume) :
    Takes cfg (act (.clearState sid)) (tok sid (.served c none) b)
      (tok sid (.telling .running none) b) := by
  refine (accords_clear (f := fun _ => ⟨.telling .running none, none, b⟩)
    fun w G hmay hk => ⟨.running, hk.rollBack fun ph hl => ?_⟩).mono fun _ _ ⟨_, hr⟩ => hr
  · have hkey : w.keys.get sid = some c.marker := hk.head.1.1
    have hne : w.phases.get sid ≠ some .paused := by
      unfold World.MayClear at hmay
      rw [hkey] at hmay
      cases c with
      | pause | kill => exact hmay
      | resume => exact absurd rfl hc
    cases ph with
    | running => rfl
    | paused => exact absurd hl.1 hne
    | gone => exact absurd rfl hl.2

lemma accords_giveUp {out : Option LState} (hout : c = .resume ∨ out = some .killed) :
    Accords cfg (act (.clearState sid)) (tok sid (.served c out) b) fun _ r =>
      ∃ st, r = tok sid (.telling st (some [])) b := by
  refine accords_clear fun w G hmay hk => hk.giveUp ?_
  obtain ⟨hheld, hmatch⟩ := hk.head
  rcases hout with rfl | rfl
  · exact hmay.inStep hheld
  · refine ⟨.killed, fun ph hl => ?_⟩
    rcases hmatch .killed rfl ph hl with ⟨hno, -⟩ | ⟨hno, -⟩ <;> cases hno

lemma accords_unlock :
    Takes cfg (act (.clearState sid)) (tok sid (.locked .resuming) b) (tok sid .reading b) := by
  refine (accords_clear (f := fun _ => ⟨.reading, none, b⟩)
    fun w G hmay hk => ⟨.running, hk.unlock ?_⟩).mono fun _ _ ⟨_, hr⟩ => hr
  exact hmay.inStep hk.head.1

lemma accords_told :
    Takes cfg (act (.told sid)) (tok sid (.telling st (some [])) b) (tok sid .reading b) := by
  refine .does (fun _ _ => rfl) fun w G hI => ?_
  exact hI.turn (view_told w) hI.at_head.told rfl rfl rfl

lemma accords_finish : Takes cfg (finish sid) (tok sid (.telling st (some [])) false) 0 := by
  refine accords_told.seq fun _ => ?_
  exact accords_leave

/-! ### The pushes -/

lemma accords_fleet {left : Option (List ProxyId)} (hm : st.marker = false) :
    Accords cfg (act (.fleet r (.setState sid st))) (tok sid (.telling st left) b)
      fun eps r => r = tok sid (.telling st (some eps)) b := by
  refine .act fun w G o w' v hI hok hact => ?_
  cases hact
  refine hI.advance (hI.at_head.fleet fun ph hl p x hx => ?_)
  obtain ⟨q, hq, hacc⟩ := accepted_iff.1 hx
  exact hok hm _ hq (by rw [hacc]; rfl)

lemma accords_push {eps : List ProxyId} {p : Pos} {f : Nat → Pos}
    (hstep : ∀ (v : View) (G : Multiset Pos) (acc : ProxyId → Option LState)
      (missed : ProxyId → Prop) (i : Nat) (q : ProxyId), eps[i]? = some q →
      (acc q = some st ∨ missed q) → (∀ x, x ≠ q → acc x = v.accepted x) →
      (∀ x, x ≠ q → v.missed x → missed x) → Kept v (p ::ₘ G) →
      Kept { v with accepted := acc, missed := missed } (f i ::ₘ G)) :
    Accords cfg (act (.push (.setState sid st) eps)) {(sid, p)} fun v r =>
      r = {(sid, f v.1)} ∧ v.1 < eps.length := by
  refine .perform fun w F o w' v hI hok hact => ?_
  cases o with
  | pushed i d =>
    obtain ⟨q, hq, rfl, rfl⟩ := acted_map hact
    refine ⟨{(sid, f i)}, ?_, rfl, (List.getElem?_eq_some_iff.1 hq).1⟩
    have hd : d ≠ .late := hok
    obtain ⟨ho, hn, hw⟩ := rest_pushOne w q (.setState sid st) d
    obtain ⟨acc, missed, hview, hat, hacc, hmissed⟩ := view_pushOne w q st hd
    exact hI.turn hview (hstep _ _ acc missed i q hq hat hacc hmissed hI.at_head) ho
      (hw.resolve_right fun hl => hd hl.1) hn
  | ok | err | errDone | served | abandoned | status => simp [machine, perform] at hact

lemma accords_pushAll (eps : List ProxyId) (x y : Bool) :
    Takes cfg (pushAll (.setState sid st) eps.length eps x y)
      (tok sid (.telling st (some eps)) b) (tok sid (.telling st (some [])) b) := by
  generalize hn : eps.length = n
  induction n generalizing eps x y with
  | zero =>
    obtain rfl := length_eq_zero_iff.1 hn
    exact .ret rfl
  | succ n ih =>
    refine (accords_push (f := fun i => ⟨.telling st (some (eps.eraseIdx i)), none, b⟩)
      fun v G acc missed i q hq hat hacc hmissed hk =>
        hk.tell (fun z hz => ?_) hat hacc hmissed).bind fun v r' hr => ?_
    · obtain ⟨j, hj⟩ := mem_iff_getElem?.1 hz
      by_cases hji : j = i
      · subst hji
        exact .inl (some.inj (hj.symm.trans hq))
      · exact .inr (mem_eraseIdx_iff_getElem?.2 ⟨j, hji, hj⟩)
    · obtain ⟨rfl, hlt⟩ := hr
      exact ih (eps.eraseIdx v.1) _ _ (by rw [length_eraseIdx_of_lt hlt, hn]; rfl)

lemma accords_broadcast {left : Option (List ProxyId)} (hm : st.marker = false) :
    Takes cfg (broadcast r (.setState sid st)) (tok sid (.telling st left) b)
      (tok sid (.telling st (some [])) b) := by
  refine (accords_fleet hm).seq fun eps => ?_
  exact accords_pushAll eps false false

/-! ### Actions that the invariant does not notice -/

def Act.aside : Act → Bool
  | now | snapshot _ | getEntry _ _ | update _ _ | getState _ | fleet _ _ | timeLeft _ | swept _
  | released _ _ | handled _ none | push (.upsertMeta _) _ | push (.deleteMeta _) _
  | stateGet _ _ _ | capture _ _ _ | markRunning _ _ _ | answer _ _ => true
  | _ => false

lemma accord_aside (a : Act) (ha : a.aside = true) (w : World) (R : Multiset (Sid × Pos))
    (o : Outcome) (w' : World) (v : a.Ans) (h : Accord w R) (hact : perform a w o = some (w', v)) :
    Accord w' R := by
  have hpush : ∀ (req : Push) (eps : List ProxyId), (∀ sid st, req ≠ .setState sid st) →
      ∀ v, perform (.push req eps) w o = some (w', v) → Accord w' R := by
    intro req eps hreq v hact
    cases o with
    | pushed i d =>
      obtain ⟨q, -, rfl, -⟩ := acted_map hact
      exact h.pushOther q hreq d
    | ok | err | errDone | served | abandoned | status => simp [perform] at hact
  cases a with
  | now | snapshot | getEntry | fleet | getState | timeLeft | stateGet | capture =>
    exact perform_reads rfl hact ▸ h
  | update | swept | released =>
    -- registries and history
    cases hact
    exact h.same rfl rfl rfl rfl
  | handled r s =>
    cases s with
    | none =>
      cases hact
      exact h.same rfl rfl rfl rfl
    | some s => cases ha
  | push req eps =>
    cases req with
    | setState => cases ha
    | upsertMeta | deleteMeta => exact hpush _ eps (by simp) v hact
  | markRunning p k sid =>
    -- what a proxy sets itself is not what it has accepted
    cases o with
    | ok =>
      obtain ⟨q, hq, rfl, -⟩ := acted_map hact
      exact h.same (funext fun x => view_setProxy w (proc_eq_some hq) rfl) rfl rfl rfl
    | err | errDone | served | abandoned | pushed | status =>
      obtain ⟨q, -, rfl, -⟩ := acted_map hact
      exact h
  | answer k q =>
    obtain ⟨x, -, rfl, -⟩ := acted_map hact
    exact h.same rfl rfl rfl rfl
  | acquireState | setState | overwrite | clearState | send | serve | enter | told | leave =>
    cases ha

abbrev Aside {α : Type} (p : Task α) : Prop := Within (·.aside = true) (fun _ => True) p

variable {R : Multiset (Sid × Pos)}

lemma accords_aside {α : Type} {p : Task α} (h : Aside p) : Accords cfg p R fun _ r => r = R :=
  (Safe.of_within (fun a ha w R o w' v hI _ hact => accord_aside a ha w R o w' v hI hact) h).mono
    fun _ _ hr => hr.2

lemma aside_act {a : Act} (ha : a.aside = true) : Aside (act a) :=
  Within.perform ha fun _ => trivial

lemma aside_broadcast (hreq : ∀ sid st, req ≠ .setState sid st) : Aside (broadcast r req) := by
  refine .act rfl fun eps => ?_
  have hall : ∀ n eps x y, Aside (pushAll req n eps x y) := by
    intro n
    induction n with
    | zero => exact fun _ _ _ => .ret trivial
    | succ n ih =>
      intro eps x y
      refine (aside_act (a := .push req eps) ?_).seq fun _ => ih _ _ _
      cases req with
      | setState sid st => exact absurd rfl (hreq sid st)
      | upsertMeta | deleteMeta => rfl
  exact hall _ _ _ _

lemma aside_replayRegistryTo (p : ProxyId) : Aside (replayRegistryTo r p) := by
  refine .act rfl fun es => ?_
  induction es with
  | nil => exact .ret trivial
  | cons e es ih => exact .act rfl fun _ => ih

lemma aside_touch : Aside (touch r sid) :=
  .act rfl fun _ => aside_act rfl

lemma aside_gate (sidecar : Bool) (p : ProxyId) (k : Nat) : Aside (gate sidecar p k sid) := by
  refine (byGate sidecar p k sid).mono (fun a ha => ?_) fun _ h => h
  cases a with
  | stateGet | capture | markRunning | answer => rfl
  | send r c e => cases c <;> cases ha
  | _ => cases ha

lemma accords_announce (hm : m ≠ .resuming) :
    Takes cfg (broadcast r (.setState sid st)) (tok sid (.locked m) b) (tok sid (.locked m) b) := by
  have hall : ∀ (n : Nat) (eps : List ProxyId) (x y : Bool),
      Takes cfg (pushAll (.setState sid st) n eps x y) (tok sid (.locked m) b)
        (tok sid (.locked m) b) := by
    intro n
    induction n with
    | zero => exact fun _ _ _ => .ret rfl
    | succ n ih =>
      intro eps x y
      refine (accords_push (f := fun _ => ⟨.locked m, none, b⟩)
        fun v G acc missed i q _ _ _ _ hk => hk.announce hm acc missed).bind fun v r' hr => ?_
      obtain ⟨rfl, -⟩ := hr
      exact ih _ _ _
  refine .seq (accords_aside (aside_act rfl)) fun eps => ?_
  exact hall _ _ _ _

lemma accords_evict : Accords cfg (evict r sid) (tok sid (.served c (some .killed)) b) fun _ r =>
      ∃ st, r = tok sid (.telling st (some [])) b := by
  refine (accords_giveUp (.inr rfl)).bind ?_
  rintro - _ ⟨st, rfl⟩
  refine (accords_aside (aside_broadcast (by simp))).seq fun _ => ?_
  exact (accords_aside (aside_act rfl)).mono fun _ _ hr => ⟨st, hr⟩

lemma accords_rollBack (hc : c ≠ .resume) : Takes cfg (rollBack r sid) (tok sid (.served c none) b)
      (tok sid (.telling .running (some [])) b) := by
  refine (accords_clear_failed hc).seq fun _ => ?_
  refine (accords_broadcast rfl).bind fun _ r' hr => ?_
  exact .ret hr

lemma accords_call {α : Type} {f : Reply → Task α} {Q : α → Multiset (Sid × Pos) → Prop}
    (he : e.metadata.sandboxId = sid)
    (hf : ∀ reply, Accords cfg (f reply) (tok sid (.served c (c.outcome reply)) b) Q) :
    Accords cfg (do act (.send r c e); let reply ← act (.serve c sid); f reply)
      (tok sid (.locked c.marker) b) Q := by
  refine (accords_send he).seq fun _ => ?_
  refine accords_serve.seq fun reply => ?_
  exact hf reply

lemma accords_tryPause (e : Entry) : Takes cfg (tryPause r e) 0 0 := by
  refine accords_enter.seq fun _ => ?_
  refine (accords_acquire rfl).seq fun got => ?_
  -- no answer, or somebody has the key
  rcases got with _ | _ | _
  · exact accords_leave
  · exact accords_leave
  refine (accords_announce (by decide)).seq fun _ => ?_
  refine accords_call (c := .pause) rfl fun reply => ?_
  cases reply with
  | notFound =>
    -- the entry goes, and the key with it
    refine accords_evict.bind ?_
    rintro - _ ⟨st, rfl⟩
    exact accords_finish
  | failed =>
    -- the proxies are told `running` again
    refine (accords_rollBack (by simp)).seq fun _ => ?_
    exact accords_finish
  | ok | alreadyInState =>
    refine (accords_setState rfl).seq fun _ => ?_
    refine (accords_broadcast rfl).seq fun _ => ?_
    exact accords_finish

lemma accords_setKilled :
    Takes cfg (act (.setState sid .killed)) (tok sid (.served c (some .killed)) b)
      (tok sid (.telling .killed (some [])) b) := by
  refine .act fun w G o w' v hI hok hact => ?_
  rcases write_cases (f := (·.writeKey sid .killed)) hact with ⟨rfl, -⟩ | ⟨-, rfl⟩
  · exact absurd rfl hok
  obtain ⟨-, hmatch⟩ := hI.at_head.head
  refine hI.turn (view_writeKey w _) ?_ rfl rfl rfl
  refine (hI.at_head.writeOutcome rfl).fleet fun ph hl => ?_
  rcases hmatch .killed rfl ph hl with ⟨hno, -⟩ | ⟨hno, -⟩ <;> cases hno

lemma accords_tryKill (e : Entry) : Takes cfg (tryKill r e) 0 0 := by
  refine accords_enter.seq fun _ => ?_
  refine (accords_acquire rfl).seq fun got => ?_
  rcases got with _ | _ | _
  · exact accords_leave
  · exact accords_leave
  refine (accords_announce (by decide)).seq fun _ => ?_
  refine accords_call (c := .kill) rfl fun reply => ?_
  cases reply with
  | failed =>
    refine (accords_rollBack (by simp)).seq fun _ => ?_
    exact accords_finish
  | ok | notFound | alreadyInState =>
    -- `killed` is not told: the proxies forget the sandbox
    refine accords_setKilled.seq fun _ => ?_
    refine (accords_aside (aside_broadcast (by simp))).seq fun _ => ?_
    refine .seq (accords_aside (aside_act rfl)) fun _ => ?_
    exact accords_finish

lemma accords_sweepOnce : Takes cfg (sweepOnce cfg r) 0 0 := by
  refine .seq (accords_aside (aside_act rfl)) fun now => ?_
  refine .seq (accords_aside (aside_act rfl)) fun es => ?_
  have hentries : Takes cfg (sweepEntries cfg r now es) 0 0 := by
    refine sweepEntries_rule (Takes cfg · 0 0) (.ret rfl)
      (fun _ _ hp hq => hp.seq fun _ => hq)
      (fun _ _ hf => (accords_aside (aside_act rfl)).seq hf) (fun e _ => ?_) es
    split
    · exact accords_tryPause e
    · exact accords_tryKill e
  refine hentries.seq fun _ => ?_
  exact accords_aside (aside_act rfl)

variable (polls : Nat)

lemma accords_acquireResumeOwnership :
    Accords cfg (acquireResumeOwnership sid polls) (tok sid .reading b) fun own r =>
      r = tok sid (if own = .mine then .locked .resuming else .reading) b := by
  have hclaim : ∀ seen, Accords cfg (claim sid seen) (tok sid .reading b) fun own r =>
      r = tok sid (if own = .mine then .locked .resuming else .reading) b := by
    intro seen
    refine accords_claim.bind fun taken r' hr => .ret ?_
    cases taken <;> exact hr
  refine .seq (accords_aside (aside_act rfl)) fun v => ?_
  rcases v with _ | _ | st
  · exact .ret rfl
  · -- without a key the sandbox counts as paused
    exact hclaim none
  cases st with
  | paused => exact hclaim _
  | running => exact .ret rfl
  | pausing | resuming | killing | killed =>
    -- a wait only reads
    have hwait := within_waitForRunning (P := (·.aside = true)) sid rfl polls
    refine (accords_aside hwait).bind fun good r' hr => .ret ?_
    cases good <;> exact hr

lemma accords_callCubeMasterResume (he : e.metadata.sandboxId = sid) :
    Accords cfg (callCubeMasterResume r e) (tok sid (.locked .resuming) b) fun good r =>
      r = tok sid (if good = true then .served .resume (some .running) else .reading) b := by
  subst he
  refine accords_call (c := .resume) rfl fun reply => ?_
  cases reply with
  | ok | alreadyInState => exact .ret rfl
  | notFound =>
    refine accords_evict.bind ?_
    rintro - _ ⟨st, rfl⟩
    exact accords_told.bind fun _ _ hr => .ret hr
  | failed =>
    refine (accords_giveUp (.inl rfl)).bind ?_
    rintro - _ ⟨st, rfl⟩
    exact accords_told.bind fun _ _ hr => .ret hr

lemma accords_doResume : Accords cfg (doResume r sid polls) (tok sid .reading b) fun good r =>
      r = tok sid (if good = true then .telling .running none else .reading) b := by
  have hdone : Accords cfg (do touch r sid; pure true) (tok sid (.telling .running none) b)
      fun good r =>
        r = tok sid (if good = true then .telling .running none else .reading) b :=
    (accords_aside aside_touch).bind fun _ r' hr => .ret hr
  refine .seq (accords_aside (aside_act rfl)) fun e => ?_
  cases e with
  | none => exact .ret rfl
  | some e =>
    refine (accords_acquireResumeOwnership polls).seq fun own => ?_
    cases own with
    | failed => exact .ret rfl
    | alreadyRunning =>
      -- the key is written once more, under no lock
      refine .seq (accords_overwrite rfl fun w G hseen hfree hk =>
        hk.writeAgain rfl hseen hfree.view.2) fun _ => ?_
      exact hdone
    | mine =>
      dsimp only
      split
      · -- it is not to be resumed
        exact accords_unlock.bind fun _ r' hr => .ret hr
      refine (accords_callCubeMasterResume rfl).seq fun good => ?_
      cases good with
      | false => exact .ret rfl
      | true =>
        refine (accords_setState rfl).seq fun _ => ?_
        exact hdone

lemma accords_pushRunning (attempt n : Nat) :
    Takes cfg (pushRunning r sid attempt n) (tok sid (.telling .running (some [])) b)
      (tok sid (.telling .running (some [])) b) := by
  induction n generalizing attempt with
  | zero => exact .ret rfl
  | succ n ih =>
    refine .seq (accords_aside (aside_act rfl)) fun left => ?_
    cases left with
    | false => exact .ret rfl
    | true =>
      refine (accords_broadcast rfl).seq fun good => ?_
      cases good with
      | false => exact ih _
      | true => exact .ret rfl

lemma accords_firstAttempt :
    Accords cfg (act (.timeLeft 0)) R fun left r => left = true ∧ r = R := by
  refine .perform fun w F o w' v hI hok hact => ⟨R, ?_, ?_, rfl⟩
  · exact accord_aside (.timeLeft 0) rfl w _ o w' v hI hact
  have ho : o = .ok := hok
  subst ho
  exact (acted hact).2.symm

lemma accords_pushRunningState :
    Takes cfg (pushRunningState r sid) (tok sid (.telling .running none) b)
      (tok sid (.telling .running (some [])) b) := by
  refine accords_firstAttempt.bind fun left r' hr => ?_
  obtain ⟨rfl, rfl⟩ := hr
  refine (accords_broadcast rfl).seq fun good => ?_
  cases good with
  | false => exact accords_pushRunning _ _
  | true => exact .ret rfl

lemma accords_resume : Takes cfg (resume r sid polls) (tok sid .reading false) 0 := by
  refine (accords_doResume polls).seq fun good => ?_
  refine .seq (accords_aside (aside_act rfl)) fun _ => ?_
  cases good with
  | false => exact accords_leave
  | true =>
    refine accords_pushRunningState.seq fun _ => ?_
    exact accords_finish

/-! ### The handler of state events -/

lemma mem_inHand {G : Multiset (Sid × Pos)} {pl : Place} {n : Option LState}
    (h : Accord w ((sid, ⟨pl, n, true⟩) ::ₘ G)) : sid ∈ w.inHand := by
  have hcount : w.inHand.count sid = _ := h.at_head.inHand
  rw [Multiset.countP_cons, if_pos rfl] at hcount
  exact count_pos_iff.1 (by omega)

lemma accords_getEntry :
    Accords cfg (act (.getEntry r sid)) {(sid, ⟨.reading, some st, true⟩)} fun e r =>
      r = {(sid, ⟨.reading, if e = none then none else some st, true⟩)} := by
  refine .act fun w G o w' v hI hok hact => ?_
  cases hact
  by_cases he : (w.registry r).get sid = none
  · rw [if_pos he]
    refine hI.advance (hI.at_head.drop (.inr (not_live_iff.1 ?_)))
    by_contra hlive
    have hsome := hok (mem_inHand hI) (by simpa using hlive)
    rw [he] at hsome
    cases hsome
  · rwa [if_neg he]

/-- An event is dropped while a transition is under way, and when the key says the same. -/
def drops (st : LState) (cur : Option LState) : Prop :=
  (cur = some .pausing ∨ cur = some .resuming) ∨ cur = some st

instance (st : LState) (cur : Option LState) : Decidable (drops st cur) :=
  inferInstanceAs (Decidable (_ ∨ _))

lemma accords_getState :
    Accords cfg (act (.getState sid)) {(sid, ⟨.reading, some st, true⟩)} fun v r =>
      ∃ cur, v = some cur ∧
        r = {(sid, ⟨.reading, if drops st cur then none else some st, true⟩)} := by
  refine .perform fun w F o w' v hI hok hact => ?_
  cases o with
  | ok =>
    cases hact
    refine ⟨_, ?_, _, rfl, rfl⟩
    by_cases hd : drops st (w.keys.get sid)
    · rw [if_pos hd]
      refine hI.advance (hI.at_head.drop (.inl ?_))
      rcases hd with (hk | hk) | hk
      · exact ⟨_, hk, .inl rfl⟩
      · exact ⟨_, hk, .inl rfl⟩
      · exact ⟨_, hk, .inr rfl⟩
    · rwa [if_neg hd]
  | err => exact absurd rfl (hok (mem_inHand hI))
  | errDone | served | abandoned | pushed | status => simp [machine, perform] at hact

lemma accords_handle (hm : st.marker = false) :
    Takes cfg (handle r sid st) {(sid, ⟨.reading, some st, true⟩)} (tok sid .reading true) := by
  refine accords_getEntry.seq fun e => ?_
  cases e with
  | none => exact .ret rfl
  | some e =>
    refine accords_getState.bind fun v r' hr => ?_
    obtain ⟨cur, rfl, rfl⟩ := hr
    dsimp only
    split
    · -- a transition is under way
      rename_i hcur
      rw [if_pos (show drops st cur from .inl hcur)]
      exact .ret rfl
    rename_i hcur
    split
    · -- no news
      rename_i hsame
      rw [if_pos (show drops st cur from .inr hsame)]
      exact .ret rfl
    rename_i hsame
    rw [if_neg (show ¬ drops st cur from fun hd => hd.elim hcur hsame)]
    refine .seq (accords_overwrite hm fun w G _ hfree hk => hk.writeNews hm hfree.view)
      fun _ => ?_
    refine (accords_broadcast hm).seq fun _ => ?_
    have htouch : Aside (touchRunning r sid st) := by
      unfold touchRunning
      split
      · exact aside_touch
      · exact .ret trivial
    refine (accords_aside htouch).seq fun _ => ?_
    exact accords_told

lemma accords_handled :
    Takes cfg (act (.handled r (some sid))) (tok sid .reading true) (tok sid .reading false) := by
  refine .does (fun _ _ => rfl) fun w G hI => ?_
  refine hI.turn (view_handled { w with consuming := w.consuming.erase r })
    (hI.at_head.handled fun hkey => ?_) rfl rfl rfl
  exact (mem_droppedWith _).2 (.inl ⟨rfl, hkey⟩)

/-- What a manager that has taken an event owes. -/
def Event.owed : Event → Multiset (Sid × Pos)
  | state sid st => {(sid, ⟨.reading, some st, true⟩)}
  | _ => 0

lemma accords_handleEvent (hm : ∀ sid st, ev = .state sid st → st.marker = false) :
    Takes cfg (handleEvent r ev) ev.owed 0 := by
  cases ev with
  | state sid st =>
    refine (accords_handle (hm sid st rfl)).seq fun _ => ?_
    refine accords_handled.seq fun _ => ?_
    exact accords_leave
  | create m =>
    refine accords_aside (.act rfl fun _ => ?_)
    exact (aside_broadcast (by simp)).seq fun _ => aside_act rfl
  | update m =>
    refine accords_aside (.act rfl fun _ => ?_)
    refine .act rfl fun _ => ?_
    exact (aside_broadcast (by simp)).seq fun _ => aside_act rfl
  | delete sid =>
    refine accords_aside (.act rfl fun _ => ?_)
    exact (aside_broadcast (by simp)).seq fun _ => aside_act rfl

/-! ### What happens outside the managers -/

namespace Accord

lemma happens {v : View} (h : Accord w R)
    (hview : view w' = update (view w) sid v)
    (hk : ∀ T, Kept (view w sid) T → Kept v T) (ho : w'.orphans = w.orphans)
    (hw : w'.wire = w.wire)
    (hn : ∀ sid st, .state sid st ∈ w'.stream → st.marker = false) : Accord w' R := by
  refine h.stay (fun x T hkx => ?_) (ho.trans h.orphans) (hw ▸ h.wire) hn
  rw [hview]
  by_cases hx : x = sid
  · subst hx
    rw [update_self]
    exact hk T hkx
  · rwa [update_of_ne hx]

lemma take (h : Accord w R) {rest : List Event} (hs : w.stream = ev :: rest)
    (hone : ∀ sid ∈ ev.sid?, sid ∉ w.inHand) (r : ManagerId) :
    Accord (w.take r ev rest) (ev.owed + R) := by
  have hn : ∀ sid st, .state sid st ∈ rest → st.marker = false :=
    fun sid st hst => h.news sid st (by rw [hs]; exact mem_cons_of_mem _ hst)
  have hnews : ∀ x, (view w x).news = (ev.newsOf x).toList ++ rest.filterMap (Event.newsOf x) := by
    intro x
    change w.stream.filterMap (Event.newsOf x) = _
    rw [hs, filterMap_cons]
    cases ev.newsOf x <;> rfl
  cases ev with
  | state sid st =>
    rw [Event.owed, Multiset.singleton_add]
    refine ⟨fun x => ?_, h.orphans, h.wire, hn⟩
    by_cases hx : x = sid
    · subst hx
      have hlist : (view w x).news = st :: rest.filterMap (Event.newsOf x) := by
        rw [hnews x]; simp [Event.newsOf]
      have hk := (h.kept x).take hlist (count_eq_zero.2 (hone x rfl))
      rw [posOf_self]
      simpa [view, World.take, Event.sid?] using hk
    have hsame : rest.filterMap (Event.newsOf x) = w.stream.filterMap (Event.newsOf x) := by
      have hx' := hnews x
      rw [show (Event.state sid st).newsOf x = none from if_neg fun hxs => hx hxs.symm] at hx'
      exact hx'.symm
    have hview : view (w.take r (.state sid st) rest) x = view w x := by
      simp [view, World.take, Event.sid?, hsame, count_cons_of_ne (Ne.symm hx)]
    rw [posOf_ne _ _ hx, hview]
    exact h.kept x
  | create | update | delete =>
    change Accord { w with stream := rest, consuming := r :: w.consuming } (0 + R)
    rw [zero_add]
    refine h.stay (fun x T hk => ?_) h.orphans h.wire hn
    have hsame : rest.filterMap (Event.newsOf x) = w.stream.filterMap (Event.newsOf x) :=
      (hnews x).symm
    simpa [view, hsame] using hk

lemma user (h : Accord w R)
    (hok : w.live sid = true → c ≠ .kill → published = true ∧ w.Free sid) :
    Accord (w.carryOut c sid true published) R := by
  obtain ⟨ho, hw, -⟩ := rest_carryOut w c sid true published
  refine h.happens (view_carryOut w c true published) (fun T hk => ?_) ho hw
    (h.news_carryOut c sid true published)
  cases hlive : w.live sid with
  | false =>
    refine hk.dead fun ph hl => not_live_iff.1 hlive ph ⟨?_, hl.2⟩
    have hphase : w.phaseAfter c sid true = some ph := hl.1
    rwa [World.phaseAfter, hlive] at hphase
  | true =>
    have hphase : w.phaseAfter c sid true = some c.target := by
      simp [World.phaseAfter, hlive]
    obtain ⟨ph0, hl0⟩ := live_iff.1 hlive
    rw [viewAfter, hphase]
    cases c with
    | kill => exact hk.dead fun ph hl => hl.2 (some.inj hl.1).symm
    | pause =>
      obtain ⟨rfl, hfree⟩ := hok hlive (by simp)
      exact hk.changed hfree.view hl0 (.inr ⟨rfl, rfl⟩)
    | resume =>
      obtain ⟨rfl, hfree⟩ := hok hlive (by simp)
      exact hk.changed hfree.view hl0 (.inl ⟨rfl, rfl⟩)

end Accord

lemma accord_create (h : Accord w R) (hok : OrderlyStart w (.create sid)) :
    Accord (w.setPhase sid .running) R := by
  obtain ⟨hkey, hacc, hactive, hstream⟩ := hok
  have hview : view (w.setPhase sid .running) =
      update (view w) sid { view w sid with phase := some .running } :=
    view_eq_update (by simp [view, World.setPhase]) fun x h => by
      simp [view, World.setPhase, get_put_ne _ _ h]
  refine h.happens hview (fun T hk => ?_) rfl rfl h.news
  · refine hk.create hkey (fun p => ?_) (count_eq_zero.2 hactive) ?_
    · by_contra hne
      obtain ⟨st, hst⟩ := ne_none_iff_exists'.1 hne
      obtain ⟨q, hq, hget⟩ := accepted_iff.1 hst
      rw [hacc _ hq] at hget
      cases hget
    refine filterMap_eq_nil_iff.2 fun ev hev => ?_
    by_contra hne
    obtain ⟨st, hst⟩ := ne_none_iff_exists'.1 hne
    rw [newsOf_eq_some] at hst
    subst hst
    exact hstream _ hev rfl

lemma accord_forget (h : Accord w R) (p : ProxyId)
    (hself : ∀ x, (view w' x).accepted p = none)
    (hother : ∀ x q, q ≠ p → (view w' x).accepted q = (view w x).accepted q)
    (hmissed : ∀ x q, q ≠ p → (view w x).missed q → (view w' x).missed q)
    (hview : ∀ x, view w' x = { view w x with
      accepted := (view w' x).accepted
      missed := (view w' x).missed })
    (ho : w'.orphans = w.orphans) (hw : w'.wire = w.wire) (hs : w'.stream = w.stream) :
    Accord w' R := by
  refine h.stay (fun x T hk => hk.forgets (hview x) fun q st hq => ?_) (ho.trans h.orphans)
    (hw ▸ h.wire) (hs ▸ h.news)
  have hne : q ≠ p := by
    rintro rfl
    rw [hself] at hq
    cases hq
  exact ⟨(hother x q hne).symm.trans hq, hmissed x q hne⟩

lemma accord_start {op : Op} {p : Task Unit} (h : Accord w R) (hok : OrderlyStart w op)
    (hs : startOp cfg w op = some (w', p)) :
    ∃ r, Accord w' (r + R) ∧ Takes cfg p r 0 := by
  have hruns : ∀ {w' : World} {p : Task Unit}, Accord w' R → Takes cfg p 0 0 →
      ∃ r, Accord w' (r + R) ∧ Takes cfg p r 0 :=
    fun h' hp => ⟨0, by rwa [zero_add], hp⟩
  have hdone : ∀ {w' : World}, Accord w' R →
      ∃ r, Accord w' (r + R) ∧ Takes cfg (pure ()) r 0 :=
    fun h' => hruns h' (.ret rfl)
  cases op <;> simp only [startOp] at hs
  case tick | refresh =>
    cases hs
    exact hdone (h.same rfl rfl rfl rfl)
  case create sid =>
    split at hs <;> cases hs
    exact hdone (accord_create h hok)
  case user c sid published =>
    cases hs
    exact hdone (h.user hok)
  case serveOrphan i applied published =>
    -- no call was given up
    simp [h.orphans] at hs
  case emit ev =>
    split at hs
    · simp at hs
    -- an event without a state
    rename_i hev
    cases hs
    refine hdone (h.stay (fun x T hk => ?_) h.orphans h.wire fun sid st hst => ?_)
    · have hnone : ev.newsOf x = none := by
        by_contra hne
        obtain ⟨st, hst⟩ := ne_none_iff_exists'.1 hne
        exact hev x st (newsOf_eq_some.1 hst)
      simpa [view, hnone] using hk
    · rcases mem_append.1 hst with hst | hst
      · exact h.news sid st hst
      · exact absurd (mem_singleton.1 hst).symm (hev sid st)
  case registry r u =>
    cases hs
    exact hruns h (accords_aside (aside_act rfl))
  case expire sid =>
    cases hs
    have hfree : w.Free sid := hok
    exact hdone (h.happens (view_clearKey w) (fun T hk => hk.expire hfree.view) rfl rfl h.news)
  case join r p =>
    cases hs
    exact hruns h (accords_aside (aside_replayRegistryTo p))
  case arrive i stored =>
    -- only pushes without a state arrive late
    obtain ⟨x, hx, rfl, rfl⟩ := acted_map hs
    have hreq := h.wire x (mem_of_getElem? hx)
    have hpush := h.pushOther x.1 hreq (.answered stored)
    refine hdone (hpush.stay (fun _ _ hk => hk) hpush.orphans (fun y hy => ?_) hpush.news)
    exact h.wire y (mem_of_mem_eraseIdx hy)
  case boot p sidecar =>
    -- a proxy starts with an empty dictionary
    cases hs
    refine hdone (accord_forget h p (fun x => ?_) (fun x q hq => ?_) (fun x q hq hm => ?_)
      (fun _ => rfl) rfl rfl rfl)
    · simp [view, World.setProxy, World.note]
    · simp [view, World.setProxy, World.note, get_put_ne _ _ hq]
    · exact mem_filter.2 ⟨hm, by simpa using hq⟩
  case stop p =>
    cases hs
    refine hdone (accord_forget h p (fun x => ?_) (fun x q hq => ?_) (fun x q hq hm => hm)
      (fun _ => rfl) rfl rfl rfl)
    · simp [view]
    · simp [view, get_del_ne _ hq]
  case evict p sid =>
    obtain ⟨q, hq, rfl, rfl⟩ := acted_map hs
    exact hdone (h.same (funext fun x => view_setProxy w hq rfl) rfl rfl rfl)
  case sweep r =>
    obtain ⟨-, rfl, rfl⟩ := acted_unless hs
    exact hruns (h.same rfl rfl rfl rfl) accords_sweepOnce
  case resume r sid polls =>
    -- the other callers wait for the first one
    split at hs
    · cases hs
      exact hdone h
    cases hs
    refine ⟨(tok sid .reading false), ?_, accords_resume polls⟩
    exact (h.enter sid).stay (fun _ _ hk => hk) h.orphans h.wire h.news
  case consume r =>
    split at hs
    · simp at hs
    split at hs
    · simp at hs
    -- the manager owes what the event says
    rename_i ev rest hstream
    cases hs
    refine ⟨ev.owed, h.take hstream (hok ev ?_) r, accords_handleEvent fun sid st heq => ?_⟩
    · rw [hstream]; rfl
    · exact h.news sid st (by rw [hstream, heq]; exact mem_cons_self)
  case request p sid =>
    split at hs <;> try cases hs
    obtain ⟨q, -, rfl, rfl⟩ := acted_map hs
    exact hruns h (accords_aside (aside_gate _ _ _))

/-- Nothing about the sandbox is under way: no operation, call, event or unaccepted push. -/
structure World.Settled (w : World) (sid : Sid) : Prop where
  idle : sid ∉ w.active
  calls : ∀ c, (c, sid) ∉ w.calls
  heard : ∀ ev ∈ w.stream, ev.sid? ≠ some sid
  told : ∀ p, (p, sid) ∉ w.missed
  arrived : ∀ x ∈ w.wire, ∀ st, x.2 ≠ .setState sid st

/-- The key, if there is one, and what every proxy has accepted say what CubeMaster has. -/
def World.Agrees (w : World) (sid : Sid) (ph : Phase) : Prop :=
  (∀ st ∈ w.keys.get sid, st.Matches ph) ∧
    ∀ p q, w.proxies.get p = some q → ∀ st ∈ q.accepted.get sid, st.Matches ph

lemma Accord.agrees (h : Accord w R) {ph : Phase} (hph : w.phases.get sid = some ph)
    (hne : ph ≠ .gone) (hs : w.Settled sid) : w.Agrees sid ph := by
  have hk := h.kept sid
  have hlive : (view w sid).Live ph := ⟨hph, hne⟩
  have hempty : posOf sid R = 0 := by
    rw [← Multiset.card_eq_zero, ← hk.active]
    exact count_eq_zero.2 hs.idle
  have hquiet : Quiet (view w sid) (posOf sid R) := by
    refine ⟨filterMap_eq_nil_iff.2 fun ev hev => ?_, by simp [hempty]⟩
    by_contra hnews
    obtain ⟨st, hst⟩ := ne_none_iff_exists'.1 hnews
    rw [newsOf_eq_some] at hst
    subst hst
    exact hs.heard _ hev rfl
  obtain ⟨s, hs'⟩ := hk.free (by simp [hempty])
  obtain ⟨hkey, hspread, hfresh⟩ := hs' ph hlive
  have hmatch : s.Matches ph := hfresh ph hlive hquiet
  constructor
  · intro st hst
    rcases hkey with hnone | hsome
    · have hsome' : w.keys.get sid = some st := hst
      rw [show w.keys.get sid = none from hnone] at hsome'
      cases hsome'
    · rwa [some.inj ((show w.keys.get sid = some st from hst).symm.trans hsome)]
  intro p q hq st hst
  have hacc : (view w sid).accepted p = some st :=
    accepted_iff.2 ⟨q, mem_pairs.2 hq, hst⟩
  rcases hspread p st hacc (by simp) with rfl | hmissed
  · exact hmatch
  · exact absurd hmissed (hs.told p)

lemma Accord.one_call (h : Accord w R) {c' : Call} (hc : (c, sid) ∈ w.calls)
    (hc' : (c', sid) ∈ w.calls) : c = c' := by
  have hk := h.kept sid
  have hkey : ∀ {c : Call}, (c, sid) ∈ w.calls → w.keys.get sid = some c.marker := by
    intro c hc
    have hpos : 0 < (view w sid).calls c := count_pos_iff.2 hc
    rw [hk.calls c] at hpos
    obtain ⟨t, ht, hcall⟩ := Multiset.countP_pos.1 hpos
    have hplace : t.place = .calling c := by simpa [Pos.calling] using hcall
    have hstage := hk.stage t ht
    rw [hplace] at hstage
    exact hstage.1
  have heq : c.marker = c'.marker := some.inj ((hkey hc).symm.trans (hkey hc'))
  cases c <;> cases c' <;> first | rfl | cases heq

/-- **The key, the proxies and CubeMaster agree.** In every run in which the key is taken and
overwritten only as it was read and while it stands for no transition and no outcome is being told,
its lease does not expire before that, users act on a sandbox only then, the writes of an outcome
succeed, CubeMaster answers truly and publishes what it did, the manager of an event knows its
sandbox and can read the key, and an outcome is told to the proxies that have a state: a sandbox at
rest is agreed on, and no pause and resume of a sandbox are ever under way together. -/
theorem transitions_agree (cfg : SweepOptions) (es : List (Ev Outcome Op))
    (c : Config Act.Ans World)
    (hok : Runs.Meets (machine cfg).step (Machine.onEv Orderly OrderlyStart) begin es)
    (h : exec (machine cfg).step begin es = some c) :
    (∀ sid ph, c.world.phases.get sid = some ph → ph ≠ .gone → c.world.Settled sid →
      c.world.Agrees sid ph) ∧
    ∀ sid, ¬ ((.pause, sid) ∈ c.world.calls ∧ (.resume, sid) ∈ c.world.calls) := by
  have hinit : Accord .init 0 := by
    refine ⟨fun x => ?_, rfl, by simp [World.init], by simp [World.init]⟩
    refine ⟨rfl, rfl, rfl, fun _ => rfl, by simp [posOf], by simp [posOf], ?_, ⟨?_, ?_, ?_⟩, ?_⟩
    · exact fun st hst => by cases hst
    · simp [posOf]
    · exact fun ph hl => by cases hl.1
    · exact fun ph hl => by cases hl.1
    · exact fun _ => ⟨.running, fun ph hl => by cases hl.1⟩
  obtain ⟨rs, -, hI⟩ := sound_run (fun _ _ _ _ _ hI hop _ hs => accord_start hI hop hs) hinit hok h
  refine ⟨fun sid ph hph hne hs => hI.agrees hph hne hs, fun sid hboth => ?_⟩
  have heq := hI.one_call hboth.1 hboth.2
  cases heq

/-- A sandbox that is idle, with one proxy. -/
def servedRun : List (Ev Outcome Op) :=
  [.start (.boot [1] true), .start (.refresh 0 [[1]]), .start (.create [115]),
    .start (.registry 0 (.upsert demoMeta)), .go 3 .ok, .start (.tick 5000)]

/-- A push to the one proxy. -/
def pushOk : List Outcome := [.ok, .pushed 0 (.answered true)]

/-- A sweep that pauses the sandbox, up to the call. -/
def pauseCall (n : Nat) : List (Ev Outcome Op) :=
  .start (.sweep 0) :: goes n (.replicate 5 .ok ++ pushOk ++ [.ok])

def droppedEvent (n : Nat) : List (Ev Outcome Op) :=
  .start (.consume 0) :: goes n (.replicate 4 .ok)

/-- The sweeper pauses the sandbox, a request resumes it, and the events find the key right. -/
def roundRun : List (Ev Outcome Op) :=
  servedRun ++ pauseCall 5 ++
    goes 5 ([.served .ok true true, .ok] ++ pushOk ++ [.ok, .ok, .ok]) ++ droppedEvent 6 ++
    [.start (.resume 0 [115] 0)] ++
    goes 7 ([.ok, .ok, .ok, .ok, .served .ok true true, .ok, .ok, .ok, .ok, .ok] ++ pushOk ++
      [.ok, .ok]) ++ droppedEvent 8

def World.atRest (w : World) : Bool :=
  w.active.isEmpty && w.calls.isEmpty && w.stream.isEmpty && w.missed.isEmpty && w.wire.isEmpty

lemma settled_of_atRest (h : w.atRest = true) (sid : Sid) : w.Settled sid := by
  simp only [World.atRest, Bool.and_eq_true, List.isEmpty_iff] at h
  obtain ⟨⟨⟨⟨hactive, hcalls⟩, hstream⟩, hmissed⟩, hwire⟩ := h
  exact ⟨by simp [hactive], by simp [hcalls], by simp [hstream], by simp [hmissed], by simp [hwire]⟩

/-- What CubeMaster, the key and the one proxy say of the one sandbox. -/
def World.said (w : World) : Option Phase × Option LState × Option LState :=
  (w.phases.get [115], w.keys.get [115], (w.proxies.get [1]).bind fun q => q.accepted.get [115])

theorem resumed_sandbox_agrees : ∃ c, exec (machine demoOptions).step begin roundRun = some c ∧
      Runs.Meets (machine demoOptions).step (Machine.onEv Orderly OrderlyStart) begin roundRun ∧
      c.world.Settled [115] ∧ c.world.said = (some .running, some .running, some .running) ∧
      c.world.Agrees [115] .running := by
  have hmeets : Runs.Meets (machine demoOptions).step (Machine.onEv Orderly OrderlyStart) begin
      roundRun := by decide +kernel
  refine leads (fun c => (c.world.atRest, c.world.said))
    (true, some .running, some .running, some .running) (by decide +kernel) fun c hc hfacts => ?_
  obtain ⟨hrest, hsaid⟩ := Prod.mk.inj hfacts
  have hphase : c.world.phases.get [115] = some .running := congrArg Prod.fst hsaid
  have hsettled := settled_of_atRest hrest [115]
  exact ⟨hmeets, hsettled, hsaid,
    (transitions_agree demoOptions _ c hmeets hc).1 _ _ hphase (by simp) hsettled⟩

/-- The lease of the key expires while CubeMaster pauses the sandbox, and a request takes it. -/
def expiredLeaseRun : List (Ev Outcome Op) :=
  servedRun ++ pauseCall 5 ++ [.start (.expire [115]), .start (.resume 0 [115] 0)] ++
    goes 7 [.ok, .ok, .ok, .ok]

/-- A request reads that there is no key, the sweeper takes it, and the request overwrites it. -/
def overwrittenRun : List (Ev Outcome Op) :=
  servedRun ++ [.start (.resume 0 [115] 0)] ++ goes 5 [.ok, .ok] ++ pauseCall 6 ++ goes 5 [.ok, .ok]

/-- A user resumes the sandbox after the sweeper's pause, and the event of that is dropped because
the key still says `pausing`. -/
def droppedNewsRun : List (Ev Outcome Op) :=
  servedRun ++ pauseCall 5 ++ goes 5 [.served .ok true true] ++
    [.start (.user .resume [115] true)] ++ droppedEvent 7 ++ droppedEvent 8 ++
    goes 5 ([.ok] ++ pushOk ++ [.ok, .ok, .ok])

lemma disagreeing_runs : (∀ es ∈ [expiredLeaseRun, overwrittenRun],
      ∃ c, exec (machine demoOptions).step begin es = some c ∧
        c.world.calls = [(.resume, [115]), (.pause, [115])]) ∧
    ∃ c, exec (machine demoOptions).step begin droppedNewsRun = some c ∧
      c.world.Settled [115] ∧ c.world.said = (some .running, some .paused, some .paused) := by
  have hcalls : ∀ es ∈ [expiredLeaseRun, overwrittenRun],
      (exec (machine demoOptions).step begin es).map (fun c => c.world.calls) =
        some [(.resume, [115]), (.pause, [115])] := by decide +kernel
  refine ⟨fun es hes => map_eq_some_iff.1 (hcalls es hes),
    leads (fun c => (c.world.atRest, c.world.said))
      (true, some .running, some .paused, some .paused) (by decide +kernel) fun c _ hfacts => ?_⟩
  obtain ⟨hrest, hsaid⟩ := Prod.mk.inj hfacts
  exact ⟨settled_of_atRest hrest [115], hsaid⟩

/-- Without conditions the key is no lock, and it and the proxies can stay wrong. -/
theorem transitions_disagree : (¬ ∀ (es : List (Ev Outcome Op)) (c : Config Act.Ans World),
      exec (machine demoOptions).step begin es = some c →
      ∀ sid, ¬ ((.pause, sid) ∈ c.world.calls ∧ (.resume, sid) ∈ c.world.calls)) ∧
    ¬ ∀ (es : List (Ev Outcome Op)) (c : Config Act.Ans World),
      exec (machine demoOptions).step begin es = some c →
      ∀ sid ph, c.world.phases.get sid = some ph → ph ≠ .gone → c.world.Settled sid →
        c.world.Agrees sid ph := by
  obtain ⟨hcalls, c, hc, hsettled, hsaid⟩ := disagreeing_runs
  refine ⟨fun hall => ?_, fun hall => ?_⟩
  · obtain ⟨d, hd, hboth⟩ := hcalls expiredLeaseRun (by simp)
    exact hall _ d hd [115] (by simp [hboth])
  have hphase : c.world.phases.get [115] = some .running := congrArg Prod.fst hsaid
  have hkey : c.world.keys.get [115] = some .paused := congrArg (fun x => x.2.1) hsaid
  rcases (hall _ c hc [115] .running hphase (by simp) hsettled).1 .paused hkey with
    ⟨hno, -⟩ | ⟨-, hno⟩ <;> cases hno

end CubeSandbox.Flow
