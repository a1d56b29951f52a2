import CubeSandbox.Conc
import CubeSandbox.LcmModel

/-!
How activity gets from the proxies to the lifecycle manager (`log_phase.lua`,
`handle_last_active`, `PullLastActive`, `pollLastActive`).

Every proxy keeps the last time it saw a request for a sandbox. The manager polls all proxies
for the entries above one watermark, merges them into its registry and moves the watermark to
the least clock among the answers. Clocks are arbitrary: a proxy answers and records with any
times.
-/

namespace CubeSandbox.Activity

open GoText Conc Lcm Tbl List Runs

/-- A poll on its way: the sandboxes registered since its start, and what the answers reported. -/
structure Poll where
  known : List Sid
  answered : List (ProxyId × List (Sid × Int))

/-- What a proxy had recorded when it answered, and what the manager had of it at the end. -/
structure Report where
  proxy : ProxyId
  recorded : List (Sid × Int)
  held : List (Sid × Int)
  deriving DecidableEq

/-- The proxies' dictionaries, the live set, the registry and the watermark; the rest is history. -/
structure World where
  last : Tbl (ProxyId × Sid) Int
  fleet : List ProxyId
  registry : Registry
  since : Int
  poll : Option Poll
  reports : List Report

namespace World

def init : World := ⟨∅, [], ∅, 0, none, []⟩

/-- The entries of one proxy. -/
def recorded (w : World) (p : ProxyId) : List (Sid × Int) :=
  (w.last.toPairs.filter fun e => e.1.1 = p).map fun e => (e.1.2, e.2)

def answered (w : World) : List (ProxyId × List (Sid × Int)) :=
  (w.poll.map Poll.answered).getD []

end World

inductive Act
  | lastGet (p : ProxyId) (sid : Sid)
  | lastSet (p : ProxyId) (sid : Sid) (ts : Int)
  | watermark
  | fleet
  | pull (p : ProxyId) (since : Int)
  | mergeLastActive (sid : Sid) (ts : Int)
  | bump (minNow : Int)
  | pollEnd
  | upsert (m : Metadata) (now : Int)
  | resetLastActive (sid : Sid)

@[reducible] def Act.Ans : Act → Type
  | .lastGet .. => Option Int
  | .watermark => Int
  | .fleet => List ProxyId
  | .pull .. => Option (Int × List (Sid × Int))
  | .lastSet .. | .mergeLastActive .. | .bump _ | .pollEnd | .upsert .. | .resetLastActive _ => Unit

/-- A call works, or fails; the answer to a poll carries the clock of the proxy. -/
inductive Outcome
  | ok
  | fail
  | now (t : Int)

abbrev Task := Prog Act.Ans

/-- The reports of a poll that ends. -/
def reportsOf (w : World) (pl : Poll) : List Report :=
  let held := (w.registry.toPairs.filter fun e => e.1 ∈ pl.known).map fun e =>
    (e.1, e.2.lastActiveMs)
  pl.answered.map fun a => ⟨a.1, a.2, held⟩

def perform (a : Act) (w : World) (o : Outcome) : Option (World × a.Ans) :=
  match a with
  | .lastGet p sid => some (w, w.last.get (p, sid))
  | .lastSet p sid ts =>
    match o with
    | .ok => some ({ w with last := w.last.put (p, sid) ts }, ())
    | _ => some (w, ())
  | .watermark => some (w, w.since)
  | .fleet => some (w, w.fleet)
  | .pull p since =>
    match o with
    | .now t =>
      let recorded := w.recorded p
      let poll := w.poll.map fun pl => { pl with answered := (p, recorded) :: pl.answered }
      some ({ w with poll := poll }, some (t, recorded.filter fun e => e.2 > since))
    | _ => some (w, none)
  | .mergeLastActive sid ts => some ({ w with registry := w.registry.mergeLastActive sid ts }, ())
  | .bump minNow =>
    some ({ w with since := if minNow > w.since then minNow else w.since }, ())
  | .pollEnd =>
    match w.poll with
    | none => none
    | some pl => some ({ w with poll := none, reports := reportsOf w pl ++ w.reports }, ())
  | .upsert m now => some ({ w with registry := w.registry.upsert m now }, ())
  | .resetLastActive sid => some ({ w with registry := w.registry.resetLastActive sid }, ())

def act (a : Act) : Task a.Ans := .perform a

/-- The end of a request in `log_phase.lua`: writes within a second are left out. -/
def logPhase (p : ProxyId) (insId : Sid) (nowMs : Int) : Task Unit :=
  if insId = [] then pure ()
  else do
    match ← act (.lastGet p insId) with
    | none => act (.lastSet p insId nowMs)
    | some prev => if nowMs - prev ≥ 1000 then act (.lastSet p insId nowMs) else return

/-- The later of two times of a sandbox counts. -/
def mergeEntry (merged : Tbl Sid Int) (e : Sid × Int) : Tbl Sid Int :=
  match merged.get e.1 with
  | none => merged.put e.1 e.2
  | some cur => if e.2 > cur then merged.put e.1 e.2 else merged

def mergeEntries (merged : Tbl Sid Int) (entries : List (Sid × Int)) : Tbl Sid Int :=
  entries.foldl mergeEntry merged

/-- The loop of `PullLastActive`; the least clock is missing while no proxy has answered. -/
def pullLoop (since : Int) : List ProxyId → Tbl Sid Int → Option Int →
    Task (Tbl Sid Int × Option Int)
  | [], merged, minNow => pure (merged, minNow)
  | p :: ps, merged, minNow => do
    match ← act (.pull p since) with
    | none => pullLoop since ps merged minNow
    | some (now, entries) =>
      let minNow := match minNow with
        | none => now
        | some least => if now < least then now else least
      pullLoop since ps (mergeEntries merged entries) (some minNow)

def mergeAll : List (Sid × Int) → Task Unit
  | [] => pure ()
  | (sid, ts) :: rest => do
    act (.mergeLastActive sid ts)
    mergeAll rest

/-- One round of `pollLastActive`. With an empty fleet nothing is merged and the clock is 0. -/
def pollOnce : Task Unit := do
  let since ← act .watermark
  let endpoints ← act .fleet
  if endpoints = [] then
    act (.bump 0)
    act .pollEnd
  else
    let (merged, minNow) ← pullLoop since endpoints ∅ none
    match minNow with
    | none => act .pollEnd
    | some minNow =>
      mergeAll merged.toPairs
      act (.bump minNow)
      act .pollEnd

inductive Op
  | request (p : ProxyId) (insId : Sid) (nowMs : Int)
  /-- An entry leaves the dictionary: evicted, deleted with the sandbox, or lost in a restart. -/
  | evict (p : ProxyId) (sid : Sid)
  | setFleet (ps : List ProxyId)
  | poll
  /-- The events of CubeMaster. -/
  | create (m : Metadata) (now : Int)
  | update (m : Metadata) (now : Int)
  | delete (sid : Sid)
  /-- The manager itself resumed the sandbox. -/
  | touch (sid : Sid) (now : Int)

def startOp (w : World) : Op → Option (World × Task Unit)
  | .request p insId nowMs => some (w, logPhase p insId nowMs)
  | .evict p sid => some ({ w with last := w.last.del (p, sid) }, pure ())
  | .setFleet ps => some ({ w with fleet := ps }, pure ())
  | .poll =>
    match w.poll with
    | some _ => none
    | none => some ({ w with poll := some ⟨w.registry.keys, []⟩ }, pollOnce)
  | .create m now => some (w, act (.upsert m now))
  | .update m now => some (w, do
      act (.upsert m now)
      act (.resetLastActive m.sandboxId))
  | .delete sid =>
    let poll := w.poll.map fun pl => { pl with known := pl.known.filter fun x => x ≠ sid }
    some ({ w with registry := w.registry.delete sid, poll := poll }, pure ())
  | .touch sid now => some (w, act (.mergeLastActive sid now))

def machine : Machine Act.Ans World Outcome Op where
  act := perform
  start := startOp
  alone := fun _ => false

/-- Everything that the proxy had recorded is known to the manager. -/
def Report.Complete (r : Report) : Prop :=
  ∀ e ∈ r.recorded, ∀ x ∈ r.held, x.1 = e.1 → e.2 ≤ x.2

/-- No activity of the sandbox is at or below the watermark or in an answer of this poll. -/
def Unpolled (w : World) (sid : Sid) : Prop :=
  (∀ e ∈ w.last.toPairs, e.1.2 = sid → w.since < e.2) ∧ ∀ a ∈ w.answered, ∀ e ∈ a.2, e.1 ≠ sid

instance (w : World) (sid : Sid) : Decidable (Unpolled w sid) :=
  inferInstanceAs (Decidable (_ ∧ _))

/-- Proxies record times above the watermark, which moves past answered times only, and a sandbox is
registered or reset only while none of its activity was passed over. -/
def InStep (w : World) : Act → Outcome → Prop
  | .lastSet _ _ ts, _ => w.since < ts
  | .bump n, _ => ∀ e ∈ w.last.toPairs, w.since < e.2 → e.2 ≤ n →
      ∃ a ∈ w.answered, a.1 = e.1.1 ∧ (e.1.2, e.2) ∈ a.2
  | .upsert m _, _ => w.registry.get m.sandboxId = none → Unpolled w m.sandboxId
  | .resetLastActive sid, _ => Unpolled w sid
  | _, _ => True

instance (w : World) : ∀ a o, Decidable (InStep w a o)
  | .lastSet .., _ | .bump _, _ | .upsert .., _ | .resetLastActive _, _ => by
    unfold InStep; infer_instance
  | .lastGet .., _ | .watermark, _ | .fleet, _ | .pull .., _ | .mergeLastActive .., _
  | .pollEnd, _ => .isTrue trivial

/-- The times that a poll has collected and not merged yet. -/
structure Pending where
  since : Int
  entries : List (Sid × Int)

/-- A time of a sandbox has reached the registry, or is about to. -/
def Reached (w : World) (pending : List (Sid × Int)) (sid : Sid) (ts : Int) : Prop :=
  ∀ e, w.registry.get sid = some e → ts ≤ e.lastActiveMs ∨ ∃ ts', ts ≤ ts' ∧ (sid, ts') ∈ pending

/-- What the watermark has passed is in the registry; what was answered is there or pending. -/
structure Inv (w : World) (R : Multiset Pending) : Prop where
  covered : ∀ p sid ts, w.last.get (p, sid) = some ts → ts ≤ w.since → Reached w [] sid ts
  reports : ∀ r ∈ w.reports, r.Complete
  idle : w.poll = none → R = 0
  polling : ∀ pl, w.poll = some pl → ∃ t, R = {t} ∧ t.since = w.since ∧
    ∀ a ∈ pl.answered, ∀ e ∈ a.2, Reached w t.entries e.1 e.2

variable {p : ProxyId} {sid : Sid} {ts since : Int}

section Steps

variable {w : World} {R F : Multiset Pending}

lemma mem_recorded : (sid, ts) ∈ w.recorded p ↔ w.last.get (p, sid) = some ts := by
  rw [← mem_pairs, pairs, Multiset.mem_coe]
  simp only [World.recorded, mem_map, mem_filter, decide_eq_true_eq, Prod.exists, Prod.mk.injEq]
  constructor
  · rintro ⟨p', sid', ts', ⟨h, rfl⟩, rfl, rfl⟩
    exact h
  · exact fun h => ⟨p, sid, ts, ⟨h, rfl⟩, rfl, rfl⟩

/-- Every entry is an old one with at least its activity, or of a sandbox without polled
activity. -/
lemma Inv.setRegistry (h : Inv w R) (reg : Registry) (hreg : ∀ sid e, reg.get sid = some e →
      (∃ e', w.registry.get sid = some e' ∧ e'.lastActiveMs ≤ e.lastActiveMs) ∨ Unpolled w sid) :
    Inv { w with registry := reg } R where
  covered := by
    intro p sid ts hts hle e he
    rcases hreg sid e he with ⟨e', he', hmono⟩ | hquiet
    · exact (h.covered p sid ts hts hle e' he').imp hmono.trans' fun hp => hp
    · exact absurd hle (not_le.2 (hquiet.1 _ (mem_pairs.2 hts) rfl))
  reports := h.reports
  idle := h.idle
  polling := by
    intro pl hpl
    replace hpl : w.poll = some pl := hpl
    obtain ⟨t, hR, hsince, hall⟩ := h.polling pl hpl
    refine ⟨t, hR, hsince, fun a ha x hx e he => ?_⟩
    rcases hreg x.1 e he with ⟨e', he', hmono⟩ | hquiet
    · exact (hall a ha x hx e' he').imp hmono.trans' fun hp => hp
    · exact absurd rfl (hquiet.2 a (by simpa [World.answered, hpl] using ha) x hx)

lemma Inv.record (h : Inv w R) (hts : w.since < ts) :
    Inv { w with last := w.last.put (p, sid) ts } R :=
  { h with
    covered := by
      intro p' sid' ts' hget hle
      rcases get_put_eq_some.1 hget with ⟨-, rfl⟩ | ⟨-, hget⟩
      · exact absurd hle (not_le.2 hts)
      · exact h.covered p' sid' ts' hget hle }

lemma Inv.evict (h : Inv w R) (k : ProxyId × Sid) : Inv { w with last := w.last.del k } R :=
  { h with
    covered := fun p sid ts hget hle =>
      h.covered p sid ts (get_del_eq_some.1 hget).2 hle }

lemma Inv.start (h : Inv w R) (hpoll : w.poll = none) (known : List Sid) :
    Inv { w with poll := some ⟨known, []⟩ } ({⟨w.since, []⟩} + R) where
  covered := h.covered
  reports := h.reports
  idle := by simp
  polling := by
    intro pl hpl
    cases hpl
    exact ⟨⟨w.since, []⟩, by rw [h.idle hpoll, add_zero], rfl, by simp⟩

lemma Inv.pending {t : Pending} (h : Inv w ({t} + F)) :
    ∃ pl, w.poll = some pl ∧ F = 0 ∧ t.since = w.since ∧
      ∀ a ∈ pl.answered, ∀ e ∈ a.2, Reached w t.entries e.1 e.2 := by
  cases hpoll : w.poll with
  | none =>
    have := congrArg Multiset.card (h.idle hpoll)
    simp at this
  | some pl =>
    obtain ⟨t', hR, hsince, hall⟩ := h.polling pl hpoll
    have hF : F = 0 := by
      have hcard := congrArg Multiset.card hR
      simp only [Multiset.card_add, Multiset.card_singleton] at hcard
      exact Multiset.card_eq_zero.1 (by omega)
    rw [hF, add_zero, Multiset.singleton_inj] at hR
    exact ⟨pl, rfl, hF, hR ▸ hsince, hR ▸ hall⟩

lemma Inv.of_poll {w : World} {pl : Poll} {t : Pending}
    (hcov : ∀ p sid ts, w.last.get (p, sid) = some ts → ts ≤ w.since → Reached w [] sid ts)
    (hrep : ∀ r ∈ w.reports, r.Complete) (hpl : w.poll = some pl) (hsince : t.since = w.since)
    (hall : ∀ a ∈ pl.answered, ∀ e ∈ a.2, Reached w t.entries e.1 e.2) : Inv w ({t} + 0) where
  covered := hcov
  reports := hrep
  idle := by simp [hpl]
  polling := by
    intro pl' hpl'
    cases hpl.symm.trans hpl'
    exact ⟨t, by rw [add_zero], hsince, hall⟩

lemma Reached.mono {pending pending' : List (Sid × Int)} (h : Reached w pending sid ts)
    (hp : ∀ ts', (sid, ts') ∈ pending → ∃ ts'', ts' ≤ ts'' ∧ (sid, ts'') ∈ pending') :
    Reached w pending' sid ts := by
  intro e he
  rcases h e he with hle | ⟨ts', hle, hmem⟩
  · exact .inl hle
  · obtain ⟨ts'', hle', hmem'⟩ := hp ts' hmem
    exact .inr ⟨ts'', hle.trans hle', hmem'⟩

end Steps

lemma get_mergeEntry_le {merged : Tbl Sid Int} {e : Sid × Int} (h : merged.get sid = some ts) :
    ∃ ts', ts ≤ ts' ∧ (mergeEntry merged e).get sid = some ts' := by
  unfold mergeEntry
  by_cases hs : sid = e.1
  · subst hs
    rw [h]
    dsimp only
    split
    · rename_i hlt
      exact ⟨e.2, hlt.le, get_put_self ..⟩
    · exact ⟨ts, le_rfl, h⟩
  cases hcur : merged.get e.1 with
  | none => exact ⟨ts, le_rfl, by rw [get_put_ne _ _ hs, h]⟩
  | some cur =>
    dsimp only
    split
    · exact ⟨ts, le_rfl, by rw [get_put_ne _ _ hs, h]⟩
    · exact ⟨ts, le_rfl, h⟩

lemma get_mergeEntry_self (merged : Tbl Sid Int) (e : Sid × Int) :
    ∃ ts', e.2 ≤ ts' ∧ (mergeEntry merged e).get e.1 = some ts' := by
  unfold mergeEntry
  cases hcur : merged.get e.1 with
  | none => exact ⟨e.2, le_rfl, get_put_self ..⟩
  | some cur =>
    dsimp only
    split
    · exact ⟨e.2, le_rfl, get_put_self ..⟩
    · rename_i hlt
      exact ⟨cur, not_lt.1 hlt, hcur⟩

lemma get_mergeEntries (merged : Tbl Sid Int) {entries : List (Sid × Int)}
    (h : merged.get sid = some ts ∨ (sid, ts) ∈ entries) :
    ∃ ts', ts ≤ ts' ∧ (mergeEntries merged entries).get sid = some ts' := by
  unfold mergeEntries
  induction entries generalizing merged ts with
  | nil => exact ⟨ts, le_rfl, by simpa using h⟩
  | cons e entries ih =>
    rw [foldl_cons]
    rcases h with h | h
    · obtain ⟨ts', hle, hget⟩ := get_mergeEntry_le h
      obtain ⟨ts'', hle', hget'⟩ := ih _ (.inl hget)
      exact ⟨ts'', hle.trans hle', hget'⟩
    rcases mem_cons.1 h with rfl | h
    · obtain ⟨ts', hle, hget⟩ := get_mergeEntry_self merged (sid, ts)
      obtain ⟨ts'', hle', hget'⟩ := ih _ (.inl hget)
      exact ⟨ts'', hle.trans hle', hget'⟩
    · exact ih _ (.inr h)

abbrev Keeps {α : Type} (prog : Task α) (r : Multiset Pending)
    (Q : α → Multiset Pending → Prop) : Prop := Safe machine Inv InStep prog r Q

lemma keeps_pull {merged : Tbl Sid Int} :
    Keeps (act (.pull p since)) {⟨since, merged.toPairs⟩} fun v r' =>
      (v = none ∧ r' = {⟨since, merged.toPairs⟩}) ∨ ∃ now entries, v = some (now, entries) ∧
        r' = {⟨since, (mergeEntries merged entries).toPairs⟩} := by
  intro s F o s' v hI _ hact
  obtain ⟨pl, hpl, rfl, hsince, hall⟩ := hI.pending
  cases o with
  | now t =>
    cases hact
    refine ⟨_, ?_, .inr ⟨t, _, rfl, rfl⟩⟩
    have hpoll : Option.map (fun pl => { pl with answered := (p, s.recorded p) :: pl.answered })
        s.poll = some { pl with answered := (p, s.recorded p) :: pl.answered } := by
      rw [hpl]; rfl
    refine Inv.of_poll hI.covered hI.reports hpoll hsince fun a ha x hx => ?_
    rcases mem_cons.1 ha with rfl | ha
    · -- what is not above the watermark has reached the registry before
      by_cases hle : x.2 ≤ since
      · have hcov := hI.covered p x.1 x.2 (mem_recorded.1 hx) (hsince ▸ hle)
        exact Reached.mono hcov (by simp)
      intro e _
      have hmem : (x.1, x.2) ∈ (s.recorded p).filter fun e => e.2 > since :=
        mem_filter.2 ⟨hx, by simpa using hle⟩
      obtain ⟨ts', hle', hget⟩ := get_mergeEntries merged (.inr hmem)
      exact .inr ⟨ts', hle', mem_pairs.2 hget⟩
    · refine Reached.mono (hall a ha x hx) fun ts' hmem => ?_
      obtain ⟨ts'', hle, hget⟩ := get_mergeEntries merged
        (.inl (mem_pairs.1 (Multiset.mem_coe.2 hmem)))
      exact ⟨ts'', hle, mem_pairs.2 hget⟩
  | ok =>
    cases hact
    exact ⟨_, hI, .inl ⟨rfl, rfl⟩⟩
  | fail =>
    cases hact
    exact ⟨_, hI, .inl ⟨rfl, rfl⟩⟩

lemma keeps_pullLoop (ps : List ProxyId) (merged : Tbl Sid Int) (minNow : Option Int)
    (hmin : minNow = none → merged = ∅) :
    Keeps (pullLoop since ps merged minNow) {⟨since, merged.toPairs⟩} fun v r' =>
      r' = {⟨since, v.1.toPairs⟩} ∧ (v.2 = none → v.1 = ∅) := by
  induction ps generalizing merged minNow with
  | nil => exact .ret ⟨rfl, hmin⟩
  | cons p ps ih =>
    refine keeps_pull.bind fun v r' hv => ?_
    rcases hv with ⟨rfl, rfl⟩ | ⟨now, entries, rfl, rfl⟩
    · exact ih merged minNow hmin
    · exact ih _ _ (by simp)

lemma keeps_merge {rest : List (Sid × Int)} :
    Keeps (act (.mergeLastActive sid ts)) {⟨since, (sid, ts) :: rest⟩} fun _ r' =>
      r' = {⟨since, rest⟩} := by
  intro s F o s' v hI _ hact
  cases hact
  have hreg := hI.setRegistry (s.registry.mergeLastActive sid ts) fun x e he =>
    .inl <| (Registry.get_mergeLastActive he).imp fun _ h => ⟨h.1, h.2.1⟩
  obtain ⟨pl, hpl, rfl, hsince, hall⟩ := hreg.pending
  refine ⟨{(⟨since, rest⟩ : Pending)}, ?_, rfl⟩
  refine Inv.of_poll hreg.covered hreg.reports hpl hsince fun a ha x hx e he => ?_
  rcases hall a ha x hx e he with hle | ⟨ts', hle, hmem⟩
  · exact .inl hle
  rcases mem_cons.1 hmem with heq | hmem
  · obtain ⟨hsid, rfl⟩ := Prod.mk.inj heq
    obtain ⟨-, -, -, hts⟩ := Registry.get_mergeLastActive he
    exact .inl (hle.trans (hts hsid))
  · exact .inr ⟨ts', hle, hmem⟩

lemma keeps_mergeAll (pending : List (Sid × Int)) :
    Keeps (mergeAll pending) {⟨since, pending⟩} fun _ r' => r' = {⟨since, []⟩} := by
  induction pending with
  | nil => exact .ret rfl
  | cons e rest ih =>
    refine keeps_merge.seq fun _ => ?_
    exact ih

lemma keeps_bump {n : Int} :
    Keeps (act (.bump n)) {⟨since, []⟩} fun _ r' => ∃ since', r' = {⟨since', []⟩} := by
  intro s F o s' v hI hok hact
  cases hact
  obtain ⟨pl, hpl, rfl, hsince, hall⟩ := hI.pending
  refine ⟨{⟨if n > s.since then n else s.since, []⟩}, ?_, _, rfl⟩
  refine Inv.of_poll (fun p sid ts hget hle => ?_) hI.reports hpl rfl hall
  by_cases hold : ts ≤ s.since
  · exact hI.covered p sid ts hget hold
  -- the watermark moved past this time, so it was answered in this poll
  have hn : ts ≤ n := by
    dsimp only at hle
    split at hle <;> omega
  obtain ⟨a, ha, -, hmem⟩ := hok _ (mem_pairs.2 hget) (not_le.1 hold) hn
  rw [World.answered, hpl] at ha
  exact hall a ha _ hmem

lemma keeps_pollEnd : Keeps (act .pollEnd) {⟨since, []⟩} fun _ r' => r' = 0 := by
  intro s F o s' v hI _ hact
  obtain ⟨pl, hpl, rfl, hsince, hall⟩ := hI.pending
  simp only [machine, perform, hpl, Option.some.injEq, Prod.mk.injEq] at hact
  obtain ⟨rfl, -⟩ := hact
  refine ⟨0, ⟨hI.covered, ?_, fun _ => by simp, by simp⟩, rfl⟩
  intro r hr
  rcases mem_append.1 hr with hr | hr
  · obtain ⟨a, ha, rfl⟩ := mem_map.1 hr
    intro e he x hx hsame
    obtain ⟨y, hy, rfl⟩ := mem_map.1 hx
    have hget : s.registry.get y.1 = some y.2 := mem_pairs.1 (mem_filter.1 hy).1
    rw [hsame] at hget
    exact (hall a ha e he y.2 hget).resolve_right (by simp)
  · exact hI.reports r hr

lemma keeps_pollOnce : Keeps pollOnce {⟨since, []⟩} fun _ r' => r' = 0 := by
  have hwater : Keeps (act .watermark) {⟨since, []⟩} fun v r' => r' = {⟨v, []⟩} := by
    intro s F o s' v hI _ hact
    cases hact
    obtain ⟨pl, hpl, rfl, hsince, hall⟩ := hI.pending
    refine ⟨_, hI, ?_⟩
    rw [← hsince]
    exact rfl
  have hfleet : ∀ since, Keeps (act .fleet) {⟨since, []⟩} fun _ r' => r' = {⟨since, []⟩} := by
    intro since s F o s' v hI _ hact
    cases hact
    exact ⟨_, hI, rfl⟩
  refine hwater.seq fun since => ?_
  refine (hfleet since).seq fun endpoints => ?_
  split
  · refine keeps_bump.bind fun _ r' hr => ?_
    obtain ⟨since', rfl⟩ := hr
    exact keeps_pollEnd
  refine (keeps_pullLoop endpoints ∅ none fun _ => rfl).bind fun v r' hr => ?_
  obtain ⟨merged, minNow⟩ := v
  obtain ⟨rfl, hnone⟩ := hr
  cases minNow with
  | none =>
    obtain rfl := hnone rfl
    exact keeps_pollEnd
  | some n =>
    refine (keeps_mergeAll merged.toPairs).seq fun _ => ?_
    refine keeps_bump.bind fun _ r' hr => ?_
    obtain ⟨since', rfl⟩ := hr
    exact keeps_pollEnd

/-- What requests and events do. -/
def Passing : Act → Prop
  | .lastGet .. | .lastSet .. | .mergeLastActive .. | .upsert .. | .resetLastActive _ => True
  | _ => False

lemma passing_keeps (a : Act) (ha : Passing a) (w : World) (R : Multiset Pending) (o : Outcome)
    (w' : World) (v : a.Ans) (hI : Inv w R) (hok : InStep w a o)
    (hact : machine.act a w o = some (w', v)) : Inv w' R := by
  cases a with
  | lastGet p sid =>
    cases hact
    exact hI
  | lastSet p sid ts =>
    cases o with
    | ok =>
      cases hact
      exact hI.record hok
    | fail | now =>
      cases hact
      exact hI
  | mergeLastActive sid ts =>
    cases hact
    exact hI.setRegistry _ fun x e he =>
      .inl <| (Registry.get_mergeLastActive he).imp fun _ h => ⟨h.1, h.2.1⟩
  | upsert m now =>
    cases hact
    refine hI.setRegistry _ fun x e he => ?_
    rcases Registry.get_upsert he with ⟨e', he', hla⟩ | ⟨rfl, hnone⟩
    · exact .inl ⟨e', he', hla.le⟩
    · exact .inr (hok hnone)
  | resetLastActive sid =>
    cases hact
    refine hI.setRegistry _ fun x e he => ?_
    rcases Registry.get_resetLastActive he with rfl | he
    · exact .inr hok
    · exact .inl ⟨e, he, le_rfl⟩
  | watermark | fleet | pull | bump | pollEnd => exact ha.elim

lemma keeps_passing {prog : Task Unit} (h : Within Passing (fun _ => True) prog) :
    Keeps prog 0 fun _ r' => r' = 0 :=
  (Safe.of_within passing_keeps h).mono fun _ _ hr => hr.2

lemma within_act {a : Act} (ha : Passing a) : Within Passing (fun _ => True) (act a) :=
  Within.perform ha fun _ => trivial

lemma within_logPhase (p : ProxyId) (insId : Sid) (nowMs : Int) :
    Within Passing (fun _ => True) (logPhase p insId nowMs) := by
  unfold logPhase
  split
  · exact .ret trivial
  refine (within_act (a := .lastGet p insId) trivial).seq fun prev => ?_
  cases prev with
  | none => exact within_act trivial
  | some prev =>
    dsimp only
    split
    · exact within_act trivial
    · exact .ret trivial

def begin : Config Act.Ans World := ⟨.init, []⟩

lemma inv_init : Inv .init 0 where
  covered := by simp [World.init]
  reports := by simp [World.init]
  idle := fun _ => rfl
  polling := by simp [World.init]

lemma inv_startOp {s s' : World} {R : Multiset Pending} {op : Op} {prog : Task Unit} (hI : Inv s R)
    (hs : machine.start s op = some (s', prog)) :
    ∃ r, Inv s' (r + R) ∧ Keeps prog r fun _ r' => r' = 0 := by
  cases op with
  | poll =>
    simp only [machine, startOp] at hs
    split at hs <;> cases hs
    rename_i hpoll
    exact ⟨_, hI.start hpoll _, keeps_pollOnce⟩
  | request p insId nowMs =>
    cases hs
    exact ⟨0, by rwa [zero_add], keeps_passing (within_logPhase p insId nowMs)⟩
  | evict p sid =>
    cases hs
    exact ⟨0, by rw [zero_add]; exact hI.evict _, .ret rfl⟩
  | setFleet ps =>
    cases hs
    exact ⟨0, by rw [zero_add]; exact { hI with }, .ret rfl⟩
  | create m now =>
    cases hs
    exact ⟨0, by rwa [zero_add], keeps_passing (within_act trivial)⟩
  | update m now =>
    cases hs
    refine ⟨0, by rwa [zero_add], keeps_passing ?_⟩
    exact (within_act (a := .upsert m now) trivial).seq fun _ => within_act trivial
  | delete sid =>
    cases hs
    refine ⟨0, ?_, .ret rfl⟩
    rw [zero_add]
    have hreg := hI.setRegistry (s.registry.delete sid) fun x e he =>
      .inl ⟨e, (get_del_eq_some.1 he).2, le_rfl⟩
    refine ⟨hreg.covered, hreg.reports, fun hnone => ?_, fun pl hpl => ?_⟩
    · exact hreg.idle (Option.map_eq_none_iff.1 hnone)
    · obtain ⟨pl', hpl', rfl⟩ := Option.map_eq_some_iff.1 hpl
      exact hreg.polling pl' hpl'
  | touch sid now =>
    cases hs
    exact ⟨0, by rwa [zero_add], keeps_passing (within_act trivial)⟩

/-- **No activity is lost while the watermark passes over nothing**: each poll leaves the manager
with at least every time that a proxy had recorded when it answered. -/
theorem polled_activity_kept (es : List (Ev Outcome Op)) (c : Config Act.Ans World)
    (hok : Runs.Meets machine.step (Machine.onEv InStep fun _ _ => True) begin es)
    (h : exec machine.step begin es = some c) :
    ∀ r ∈ c.world.reports, r.Complete := by
  obtain ⟨rs, -, hI⟩ := sound_run (fun _ _ _ _ _ hI _ _ hs => inv_startOp hI hs) inv_init hok h
  exact hI.reports

def demoMeta : Metadata := ⟨[115], none, true, true, 1, 0⟩

/-- Two proxies, a registered sandbox, and a request for it at time 5 through the first. -/
def demoRequest : List (Ev Outcome Op) :=
  [.start (.setFleet [[1], [2]]), .start (.create demoMeta 0)] ++ goes 1 [.ok] ++
    [.start (.request [1] [115] 5)] ++ goes 2 [.ok, .ok]

def fullPoll : List (Ev Outcome Op) :=
  .start .poll :: goes 3 [.ok, .ok, .now 10, .now 12, .ok, .ok, .ok]

/-- Only the second proxy answers; in the next poll the first one has nothing new to say. -/
def partialPoll : List (Ev Outcome Op) :=
  .start .poll :: goes 3 [.ok, .ok, .fail, .now 10, .ok, .ok] ++
    .start .poll :: goes 4 [.ok, .ok, .now 20, .now 20, .ok, .ok]

theorem full_poll_keeps_activity :
    ∃ c, exec machine.step begin (demoRequest ++ fullPoll) = some c ∧
      ⟨[1], [([115], 5)], [([115], 5)]⟩ ∈ c.world.reports ∧ ∀ r ∈ c.world.reports, r.Complete := by
  refine leads (fun c => decide (⟨[1], [([115], 5)], [([115], 5)]⟩ ∈ c.world.reports)) true
    (by decide +kernel) fun c hc hout => ?_
  exact ⟨of_decide_eq_true hout, polled_activity_kept _ c (by decide +kernel) hc⟩

/-- A time recorded while a poll of the proxy failed is never asked for again. -/
theorem failed_poll_loses_activity : ¬ ∀ (es : List (Ev Outcome Op)) (c : Config Act.Ans World),
      exec machine.step begin es = some c → ∀ r ∈ c.world.reports, r.Complete := by
  intro hall
  have hrun : (exec machine.step begin (demoRequest ++ partialPoll)).map
      (fun c => decide (⟨[1], [([115], 5)], [([115], 0)]⟩ ∈ c.world.reports)) = some true := by
    decide +kernel
  obtain ⟨c, hc, hout⟩ := Option.map_eq_some_iff.1 hrun
  have hle := hall _ c hc _ (of_decide_eq_true hout) ([115], 5) (by simp) ([115], 0) (by simp) rfl
  simp at hle

end CubeSandbox.Activity
