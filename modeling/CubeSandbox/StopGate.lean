import CubeSandbox.LcmFlow

/-!
What a proxy does with a request for a sandbox that was stopped.

The gate of a proxy looks only at the dictionary of that proxy. A state that a push has put
there stands until another push, a deletion, a restart, an eviction or a successful resume
request of the proxy itself ends it. While `pausing` stands, requests are refused, and while
`paused` stands, a request passes only if the manager has resumed the sandbox for it, or if the
proxy knows no manager to ask.
-/

namespace CubeSandbox.Flow

open GoText Conc Lcm List Option Runs Tbl

section
variable {w w' : World} {o : Outcome}

def Act.reads : Act → Bool
  | now | snapshot _ | getEntry _ _ | getState _ | fleet _ _ | timeLeft _ | stateGet _ _ _
  | capture _ _ _ => true
  | _ => false

lemma perform_reads {a : Act} {v : a.Ans} (ha : a.reads = true)
    (h : perform a w o = some (w', v)) : w' = w := by
  cases a with
  | now | snapshot | getEntry | fleet => exact (acted h).1.symm
  | getState | timeLeft => cases o <;> cases h <;> rfl
  | stateGet => exact (acted_map h).choose_spec.2.1.symm
  | capture =>
    cases o with
    | status => exact (acted_map h).choose_spec.2.1.symm
    | _ => cases h
  | _ => cases ha

lemma write_cases {f : World → World} {v : Bool}
    (h : write w f o = some (w', v)) : (o = .err ∧ w' = w) ∨ (o ≠ .err ∧ w' = f w) := by
  cases o with
  | ok | errDone => exact .inr ⟨by simp, (acted h).1.symm⟩
  | err => exact .inl ⟨rfl, (acted h).1.symm⟩
  | served | abandoned | pushed | status => simp [write] at h

variable (w) (p : ProxyId)

lemma deliver_cases (req : Push) (stored : Bool) :
    (w.deliver p req stored).1 = w.miss p req ∨ ∃ q, w.proxies.get p = some q ∧
        (w.deliver p req stored).1 = (w.setProxy p (q.store req)).hit p req := by
  unfold World.deliver
  cases hq : w.proxies.get p with
  | none => exact .inl rfl
  | some q =>
    dsimp only
    split
    · exact .inr ⟨q, rfl, rfl⟩
    · exact .inl rfl

lemma pushOne_cases (req : Push) (d : Delivery) :
    (pushOne w req p d).1 = w.miss p req ∨ (∃ q, w.proxies.get p = some q ∧
        (pushOne w req p d).1 = (w.setProxy p (q.store req)).hit p req) ∨
      (d = .late ∧ (pushOne w req p d).1 = { w.miss p req with wire := w.wire ++ [(p, req)] }) := by
  cases d with
  | answered stored => exact (deliver_cases w p req stored).imp_right .inl
  | unanswered stored => exact (deliver_cases w p req stored).imp_right .inl
  | lost => exact .inl rfl
  | late => exact .inr (.inr ⟨rfl, rfl⟩)

end

/-- The note ends what a push had said of the sandbox. -/
def Note.Ends (p : ProxyId) (sid : Sid) : Note → Prop
  | accepted p' sid' _ | deleted p' sid' | evicted p' sid' | resumed p' sid' =>
    p' = p ∧ sid' = sid
  | booted p' => p' = p

instance (p : ProxyId) (sid : Sid) (n : Note) : Decidable (n.Ends p sid) := by
  cases n <;> unfold Note.Ends <;> infer_instance

/-- A push of the state was accepted and nothing has ended it. The last note comes first. -/
def Stands (ns : List Note) (p : ProxyId) (sid : Sid) (st : LState) : Prop :=
  ∃ later earlier, ns = later ++ .accepted p sid st :: earlier ∧ ∀ n ∈ later, ¬ n.Ends p sid

/-- What a note leaves in the dictionary for the sandbox it is about. -/
def Note.leaves : Note → Option LState
  | accepted _ _ st => some st
  | resumed _ _ => some .running
  | deleted _ _ | evicted _ _ | booted _ => none

/-- The entry of a sandbox after the notes. -/
def entryOf (p : ProxyId) (sid : Sid) : List Note → Option LState
  | [] => none
  | n :: ns => if n.Ends p sid then n.leaves else entryOf p sid ns

variable {w w' : World} {p : ProxyId} {sid : Sid} {k : Nat}

lemma entryOf_of_stands {ns : List Note} {st : LState} (h : Stands ns p sid st) :
    entryOf p sid ns = some st := by
  obtain ⟨later, earlier, rfl, hlater⟩ := h
  induction later with
  | nil => simp [entryOf, Note.Ends, Note.leaves]
  | cons n later ih =>
    rw [cons_append, entryOf, if_neg (hlater n (by simp))]
    exact ih fun m hm => hlater m (by simp [hm])

/-- What the gate may answer on the strength of what stands. -/
def Request.Held (q : Request) : Prop :=
  (Stands q.before q.proxy q.sid .pausing → q.answer = .status 503) ∧
  (Stands q.before q.proxy q.sid .paused → q.answer = .status 503 ∨
    (q.answer = .forward ∧ (q.resume = some 200 ∨ q.sidecar = false)))

lemma Request.held_of_entry {q : Request} {st : Option LState}
    (hst : st = entryOf q.proxy q.sid q.before)
    (hpausing : st = some .pausing → q.answer = .status 503)
    (hpaused : st = some .paused → q.answer = .status 503 ∨
      (q.answer = .forward ∧ (q.resume = some 200 ∨ q.sidecar = false))) : q.Held :=
  ⟨fun h => hpausing (hst.trans (entryOf_of_stands h)),
    fun h => hpaused (hst.trans (entryOf_of_stands h))⟩

/-- The dictionaries are as the notes say, and every answer is right. -/
structure Gated (w : World) : Prop where
  dicts : ∀ p q, w.proxies.get p = some q → ∀ sid, q.states.get sid = entryOf p sid w.notes
  held : ∀ q ∈ w.answered, q.Held

lemma Gated.of_same (h : Gated w) (hp : w'.proxies = w.proxies) (hn : w'.notes = w.notes)
    (ha : w'.answered = w.answered) : Gated w' := by
  refine ⟨fun p q hq sid => ?_, fun q hq => h.held q (ha ▸ hq)⟩
  rw [hn]
  exact h.dicts p q (hp ▸ hq) sid

lemma Gated.setEntry (h : Gated w) {q q' : Proxy} {n : Note} (hq : w.proxies.get p = some q)
    (hp : w'.proxies = w.proxies.put p q') (hn : w'.notes = n :: w.notes)
    (ha : w'.answered = w.answered) (hother : ∀ p' sid, p' ≠ p → ¬ n.Ends p' sid)
    (hself : ∀ sid, q'.states.get sid = if n.Ends p sid then n.leaves else q.states.get sid) :
    Gated w' := by
  refine ⟨fun p' x hx sid => ?_, fun x hx => h.held x (ha ▸ hx)⟩
  rw [hn, entryOf]
  rw [hp] at hx
  rcases get_put_eq_some.1 hx with ⟨rfl, rfl⟩ | ⟨hne, hx⟩
  · rw [hself, h.dicts _ _ hq]
  · rw [if_neg (hother p' sid hne), h.dicts p' x hx]

lemma Gated.miss (h : Gated w) (p : ProxyId) (req : Push) : Gated (w.miss p req) := by
  cases req with
  | setState sid st => exact h.of_same rfl rfl rfl
  | upsertMeta m => exact h
  | deleteMeta sid => exact h

lemma Gated.deliver (h : Gated w) (p : ProxyId) (req : Push) (stored : Bool) :
    Gated (w.deliver p req stored).1 := by
  rcases deliver_cases w p req stored with heq | ⟨q, hq, heq⟩
  · exact heq ▸ h.miss p req
  rw [heq]
  cases req with
  | upsertMeta m =>
    refine ⟨fun p' x hx sid => ?_, h.held⟩
    rcases get_put_eq_some.1 hx with ⟨rfl, rfl⟩ | ⟨-, hx⟩
    · exact h.dicts _ _ hq sid
    · exact h.dicts p' x hx sid
  | deleteMeta sid =>
    refine h.setEntry hq rfl rfl rfl (fun p' x hne he => hne he.1.symm) fun x => ?_
    simp [Proxy.store, Note.Ends, Note.leaves, get_del, eq_comm]
  | setState sid st =>
    refine h.setEntry hq rfl rfl rfl (fun p' x hne he => hne he.1.symm) fun x => ?_
    simp [Proxy.store, Note.Ends, Note.leaves, get_put, eq_comm]

abbrev Keeps (cfg : SweepOptions) {α : Type} (p : Task α) (Q : α → Prop) : Prop :=
  Safe (machine cfg) (fun w (_ : Multiset Unit) => Gated w) (fun _ _ _ => True) p 0
    fun v r => Q v ∧ r = 0

variable {cfg : SweepOptions}

lemma Gated.write {f : World → World} {o : Outcome} {v : Bool} (h : Gated w) (hf : Gated (f w))
    (hact : write w f o = some (w', v)) : Gated w' := by
  rcases write_cases hact with ⟨-, rfl⟩ | ⟨-, rfl⟩
  · exact h
  · exact hf

lemma Gated.carryOut (h : Gated w) (c : Call) (sid : Sid) (applied published : Bool) :
    Gated (w.carryOut c sid applied published) := by
  have hphase : Gated (if applied && w.live sid then w.setPhase sid c.target else w) := by
    split
    · exact h.of_same rfl rfl rfl
    · exact h
  unfold World.carryOut
  cases c.news with
  | none => exact hphase
  | some st =>
    dsimp only
    split
    · exact hphase.of_same rfl rfl rfl
    · exact hphase

lemma gated_manager (a : Act) (ha : a.atProxy = false) (w : World) (o : Outcome) (w' : World)
    (v : a.Ans) (h : Gated w) (hact : perform a w o = some (w', v)) : Gated w' := by
  cases a with
  | now | snapshot | getEntry | fleet | getState | timeLeft => exact perform_reads rfl hact ▸ h
  | update | enter | told | leave | swept | released | handled | send =>
    cases hact
    exact h.of_same rfl rfl rfl
  | acquireState sid st =>
    simp only [perform, setNX] at hact
    split at hact
    · split at hact
      · cases hact; exact h
      · cases hact; exact h.of_same rfl rfl rfl
    · cases hact; exact h
    · split at hact
      · cases hact; exact h
      · cases hact; exact h.of_same rfl rfl rfl
    · simp at hact
  | setState sid st =>
    exact h.write (f := (·.writeKey sid st)) (h.of_same rfl rfl rfl) hact
  | clearState sid => exact h.write (f := (·.clearKey sid)) (h.of_same rfl rfl rfl) hact
  | overwrite sid seen st =>
    obtain ⟨⟨x, b⟩, hx, heq⟩ := map_eq_some_iff.1 hact
    have hgx : Gated x := h.write (f := (·.writeKey sid st)) (h.of_same rfl rfl rfl) hx
    cases heq
    split
    · exact hgx
    · exact hgx.of_same rfl rfl rfl
  | serve c sid =>
    cases o with
    | served reply applied published =>
      cases hact
      exact (h.carryOut c sid applied published).of_same rfl rfl rfl
    | abandoned =>
      cases hact
      exact h.of_same rfl rfl rfl
    | ok | err | errDone | pushed | status => simp [perform] at hact
  | push req eps =>
    cases o with
    | pushed i d =>
      obtain ⟨p, -, rfl, -⟩ := acted_map hact
      cases d with
      | answered stored => exact h.deliver p req stored
      | unanswered stored => exact h.deliver p req stored
      | lost => exact h.miss p req
      | late => exact (h.miss p req).of_same rfl rfl rfl
    | ok | err | errDone | served | abandoned | status => simp [perform] at hact
  | stateGet | capture | markRunning | answer => exact absurd ha (by simp [Act.atProxy, Act.side])

abbrev NotProxy {α : Type} (p : Task α) : Prop := Within (·.atProxy = false) (fun _ => True) p

lemma keeps_manager {p : Task Unit} (h : NotProxy p) : Keeps cfg p fun _ => True :=
  Safe.of_within (fun a ha w _ o w' v hI _ hact => gated_manager a ha w o w' v hI hact) h

lemma keeps_answer {q : Request} (hq : q.Held) : Keeps cfg (act (.answer k q)) fun _ => True := by
  refine Safe.perform fun w F o w' v hI _ hact => ⟨0, ?_, trivial, rfl⟩
  obtain ⟨x, -, rfl, -⟩ := acted_map hact
  refine ⟨hI.dicts, fun y hy => ?_⟩
  rcases mem_cons.1 hy with rfl | hy
  · exact hq
  · exact hI.held y hy

lemma proc_eq_some {q : Proxy} (h : w.proc p k = some q) : w.proxies.get p = some q :=
  (filter_eq_some_iff.1 h).1

lemma keeps_stateGet : Keeps cfg (act (.stateGet p k sid)) fun v => v.1 = entryOf p sid v.2 := by
  refine Safe.perform fun w F o w' v hI _ hact => ⟨0, ?_, ?_, rfl⟩
  · obtain ⟨q, -, rfl, -⟩ := acted_map hact
    exact hI
  · obtain ⟨q, hq, -, rfl⟩ := acted_map hact
    exact hI.dicts p q (proc_eq_some hq) sid

lemma keeps_capture : Keeps cfg (act (.capture p k sid)) fun _ => True := by
  refine Safe.perform fun w F o w' v hI _ hact => ⟨0, ?_, trivial, rfl⟩
  exact perform_reads (a := .capture p k sid) rfl hact ▸ hI

lemma keeps_markRunning : Keeps cfg (act (.markRunning p k sid)) fun _ => True := by
  refine Safe.perform fun w F o w' v hI _ hact => ⟨0, ?_, trivial, rfl⟩
  cases o with
  | ok =>
    obtain ⟨q, hq, rfl, -⟩ := acted_map hact
    refine hI.setEntry (proc_eq_some hq) rfl rfl rfl (fun p' x hne he => hne he.1.symm)
      fun x => ?_
    simp [Note.Ends, Note.leaves, get_put, eq_comm]
  | err | errDone | served | abandoned | pushed | status =>
    obtain ⟨q, -, rfl, -⟩ := acted_map hact
    exact hI

lemma keeps_gate (sidecar : Bool) (p : ProxyId) (k : Nat) (sid : Sid) :
    Keeps cfg (gate sidecar p k sid) fun _ => True := by
  refine keeps_stateGet.bind fun v r hv => ?_
  obtain ⟨st, before⟩ := v
  obtain ⟨hst, rfl⟩ := hv
  have hpass : ∀ a, st ≠ some .pausing → st ≠ some .paused →
      Keeps cfg (act (.answer k ⟨p, sid, sidecar, before, none, a⟩)) fun _ => True :=
    fun a h1 h2 => keeps_answer
      (Request.held_of_entry hst (fun h => absurd h h1) fun h => absurd h h2)
  cases hs : st with
  | none => exact hpass _ (by simp [hs]) (by simp [hs])
  | some s =>
    cases s with
    | running | resuming | killing | killed => exact hpass _ (by simp [hs]) (by simp [hs])
    | pausing =>
      exact keeps_answer (Request.held_of_entry hst (fun _ => rfl) fun h => by simp [hs] at h)
    | paused =>
      dsimp only
      split
      · rename_i hside
        exact keeps_answer (Request.held_of_entry hst (fun h => by simp [hs] at h)
          fun _ => .inr ⟨rfl, .inr (by simpa using hside)⟩)
      refine keeps_capture.bind fun status r hr => ?_
      obtain ⟨-, rfl⟩ := hr
      split
      · rename_i h200
        refine keeps_markRunning.bind fun _ r hr => ?_
        obtain ⟨-, rfl⟩ := hr
        exact keeps_answer (Request.held_of_entry hst (fun h => by simp [hs] at h)
          fun _ => .inr ⟨rfl, .inl (by rw [h200])⟩)
      · exact keeps_answer (Request.held_of_entry hst (fun h => by simp [hs] at h)
          fun _ => .inl rfl)

lemma ByManager.notProxy {α : Type} {p : Task α} (h : ByManager p) : NotProxy p :=
  h.mono (fun a ha => by rw [Act.atProxy, ha]; rfl) fun _ _ => trivial

lemma within_tryAct {r : ManagerId} {e : Entry} : NotProxy (tryPause r e) ∧
      NotProxy (tryKill r e) := by
  have hleave : NotProxy (act (.leave e.metadata.sandboxId)) := (byManager_act rfl).notProxy
  constructor
  · refine .act rfl fun _ => ?_
    refine .act rfl fun got => ?_
    rcases got with _ | _ | _
    · exact hleave
    · exact hleave
    refine (byManager_broadcast r _).notProxy.seq fun _ => ?_
    exact .act rfl fun _ => (byManager_afterPause r _).notProxy
  refine .act rfl fun _ => ?_
  refine .act rfl fun got => ?_
  rcases got with _ | _ | _
  · exact hleave
  · exact hleave
  refine (byManager_broadcast r _).notProxy.seq fun _ => ?_
  exact .act rfl fun _ => (byManager_afterKill r _).notProxy

lemma within_sweepOnce (r : ManagerId) : NotProxy (sweepOnce cfg r) := by
  refine .act rfl fun now => ?_
  refine .act rfl fun es => ?_
  refine Within.seq ?_ fun _ => (byManager_act rfl).notProxy
  refine sweepEntries_rule _ (.ret trivial) (fun _ _ hp hq => hp.seq fun _ => hq)
    (fun _ _ hf => .act rfl hf) (fun e _ => ?_) es
  split
  · exact within_tryAct.1
  · exact within_tryAct.2

def begin : Config Act.Ans World := ⟨.init, []⟩

lemma gated_start {op : Op} {p : Task Unit} (h : Gated w) (hs : startOp cfg w op = some (w', p)) :
    Gated w' ∧ Keeps cfg p fun _ => True := by
  have hdone : Keeps cfg (pure ()) fun _ => True := .ret ⟨trivial, rfl⟩
  cases op <;> simp only [startOp] at hs
  case tick | user | expire | refresh =>
    cases hs
    exact ⟨by first | exact h.of_same rfl rfl rfl | exact h.carryOut _ _ _ _, hdone⟩
  case create sid =>
    split at hs <;> cases hs
    exact ⟨h.of_same rfl rfl rfl, hdone⟩
  case serveOrphan i applied published =>
    obtain ⟨x, -, rfl, rfl⟩ := acted_map hs
    exact ⟨(h.carryOut x.1 x.2 applied published).of_same rfl rfl rfl, hdone⟩
  case emit ev =>
    split at hs <;> cases hs
    exact ⟨h.of_same rfl rfl rfl, hdone⟩
  case registry r u =>
    cases hs
    exact ⟨h, keeps_manager (byManager_act rfl).notProxy⟩
  case join r p =>
    cases hs
    exact ⟨h, keeps_manager (byManager_replayRegistryTo r p).notProxy⟩
  case arrive i stored =>
    obtain ⟨x, -, rfl, rfl⟩ := acted_map hs
    exact ⟨(h.deliver x.1 x.2 stored).of_same rfl rfl rfl, hdone⟩
  case boot p sidecar =>
    cases hs
    refine ⟨⟨fun p' x hx sid => ?_, h.held⟩, hdone⟩
    change x.states.get sid = entryOf p' sid (.booted p :: w.notes)
    rcases get_put_eq_some.1 hx with ⟨rfl, rfl⟩ | ⟨hne, hx⟩
    · simp [entryOf, Note.Ends, Note.leaves]
    · rw [entryOf, if_neg (show ¬ (Note.booted p).Ends p' sid from fun he => hne he.symm),
        h.dicts p' x hx]
  case stop p =>
    cases hs
    exact ⟨⟨fun p' x hx => h.dicts p' x (get_del_eq_some.1 hx).2, h.held⟩, hdone⟩
  case evict p sid =>
    obtain ⟨q, hq, rfl, rfl⟩ := acted_map hs
    refine ⟨h.setEntry hq rfl rfl rfl (fun p' x hne he => hne he.1.symm) fun x => ?_, hdone⟩
    simp [Note.Ends, Note.leaves, get_del, eq_comm]
  case sweep r =>
    obtain ⟨-, rfl, rfl⟩ := acted_unless hs
    exact ⟨h.of_same rfl rfl rfl, keeps_manager (within_sweepOnce r)⟩
  case resume r sid polls =>
    split at hs
    · cases hs
      exact ⟨h, hdone⟩
    · cases hs
      exact ⟨h.of_same rfl rfl rfl, keeps_manager (byManager_resume r sid polls).notProxy⟩
  case consume r =>
    split at hs
    · simp at hs
    split at hs <;> cases hs
    rename_i ev rest _
    exact ⟨h.of_same rfl rfl rfl, keeps_manager (byManager_handleEvent r ev).notProxy⟩
  case request p sid =>
    split at hs <;> try cases hs
    obtain ⟨q, -, rfl, rfl⟩ := acted_map hs
    exact ⟨h, keeps_gate _ _ _ _⟩

/-- **What a proxy was told stands at its gate**: a request whose gate reads while a push of
`pausing` stands is refused with 503, and so is one for `paused`, unless the proxy's own resume
request for it was answered 200 or the proxy has no manager to ask. -/
theorem told_state_gates (cfg : SweepOptions) (es : List (Ev Outcome Op))
    (c : Config Act.Ans World) (h : exec (machine cfg).step begin es = some c) :
    ∀ q ∈ c.world.answered, (Stands q.before q.proxy q.sid .pausing → q.answer = .status 503) ∧
      (Stands q.before q.proxy q.sid .paused → q.answer = .status 503 ∨
        (q.answer = .forward ∧ (q.resume = some 200 ∨ q.sidecar = false))) := by
  have hinit : Gated .init := by
    refine ⟨fun p q hq => ?_, fun q hq => ?_⟩
    · simp [World.init] at hq
    · simp [World.init] at hq
  have hsound : Sound (machine cfg) (fun w (_ : Multiset Unit) => Gated w)
      (fun _ _ _ => True) c := by
    refine sound_run' (fun s R op s' p hI hs => ?_) hinit h
    obtain ⟨hI', hp⟩ := gated_start hI hs
    exact ⟨0, hI', hp.mono fun _ _ hr => hr.2⟩
  obtain ⟨rs, -, hI⟩ := hsound
  exact hI.held

def demoOptions : SweepOptions := ⟨1000, 0, 0⟩

def demoMeta : Metadata := ⟨[115], some 1, true, true, 1, 0⟩

/-- A user pauses the sandbox, and the manager tells the one proxy. -/
def pausedRun (sidecar : Bool) : List (Ev Outcome Op) :=
  [.start (.boot [1] sidecar), .start (.refresh 0 [[1]]), .start (.create [115]),
    .start (.registry 0 (.upsert demoMeta)), .go 3 .ok, .start (.user .pause [115] true),
    .start (.consume 0)] ++
  goes 5 [.ok, .ok, .ok, .ok, .pushed 0 (.answered true), .ok, .ok, .ok]

/-- A request for it, whose resume request is answered with the status. -/
def resumedRequest (n : Nat) : List (Ev Outcome Op) :=
  .start (.request [1] [115]) :: goes 6 [.ok, .status n, .ok, .ok]

def stoppedNotes : List Note := [.accepted [1] [115] .paused, .booted [1]]

lemma stands_stoppedNotes : Stands stoppedNotes [1] [115] .paused :=
  ⟨[], [.booted [1]], rfl, by simp⟩

/-- The resume request fails, and the request with it. -/
theorem failed_resume_refused : ∃ c, exec (machine demoOptions).step begin (pausedRun true ++
      .start (.request [1] [115]) :: goes 6 [.ok, .status 503, .ok]) = some c ∧
      ∃ q ∈ c.world.answered, Stands q.before q.proxy q.sid .paused ∧ (q.answer = .status 503 ∨
          (q.answer = .forward ∧ (q.resume = some 200 ∨ q.sidecar = false))) := by
  refine leads (fun c => c.world.answered)
    [⟨[1], [115], true, stoppedNotes, some 503, .status 503⟩] (by decide +kernel)
    fun c hc hans => ?_
  have hmem : ⟨[1], [115], true, stoppedNotes, some 503, .status 503⟩ ∈ c.world.answered := by
    rw [hans]; simp
  refine ⟨_, hmem, stands_stoppedNotes, ?_⟩
  exact (told_state_gates demoOptions _ c hc _ hmem).2 stands_stoppedNotes

/-- A state was pushed without an error, and `running` was not pushed since. -/
def Told (ns : List Note) (p : ProxyId) (sid : Sid) (st : LState) : Prop :=
  ∃ later earlier, ns = later ++ .accepted p sid st :: earlier ∧ .accepted p sid .running ∉ later

lemma told_and_forwarded : ∀ es ∈ [pausedRun true ++ resumedRequest 200,
      pausedRun false ++ .start (.request [1] [115]) :: goes 6 [.ok, .ok],
      pausedRun true ++ [.start (.boot [1] true), .start (.join 0 [1])] ++
        goes 7 [.ok, .pushed 0 (.answered true)] ++
        .start (.request [1] [115]) :: goes 8 [.ok, .ok]],
      ((exec (machine demoOptions).step begin es).map fun c =>
        c.world.answered.map fun q => (q.proxy, q.sid, q.answer,
          decide (.accepted [1] [115] .paused ∈ q.before),
          decide (.accepted [1] [115] .running ∈ q.before))) =
        some [([1], [115], .forward, true, false)] := by
  decide +kernel

theorem told_proxy_forwards :
    ¬ ∀ (cfg : SweepOptions) (es : List (Ev Outcome Op)) (c : Config Act.Ans World),
      exec (machine cfg).step begin es = some c →
        ∀ q ∈ c.world.answered, ∀ st ∈ [LState.pausing, .paused, .killing],
          Told q.before q.proxy q.sid st → q.answer ≠ .forward := by
  intro hall
  obtain ⟨c, hc, hans⟩ := map_eq_some_iff.1 (told_and_forwarded _ (.head _))
  obtain ⟨q, rest, hq, hfacts, -⟩ := map_eq_cons_iff.1 hans
  simp only [Prod.mk.injEq, decide_eq_true_eq, decide_eq_false_iff_not] at hfacts
  obtain ⟨hp, hsid, hforward, htold, hnot⟩ := hfacts
  obtain ⟨later, earlier, hsplit⟩ := append_of_mem htold
  refine hall _ _ c hc q (by rw [hq]; simp) .paused (by simp) ?_ hforward
  rw [hp, hsid]
  refine ⟨later, earlier, hsplit, fun hmem => hnot ?_⟩
  rw [hsplit]
  exact mem_append_left _ hmem

end CubeSandbox.Flow
