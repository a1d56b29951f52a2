import CubeSandbox.NodeCache
import CubeSandbox.Runs

/-!
The check before the deletion of a template in CubeMaster (`pkg/templatecenter/delete.go`, with
`pkg/service/sandbox/sandbox_list.go` and `NodeList.IndexByPage`).

The nodes that seem healthy are counted, that many nodes are taken from the sorted list of the
instance type, and each of them is asked for its sandboxes. The nodes answer one after another,
while sandboxes come and go. A sandbox of the template in one of the answers stops the deletion.
-/

namespace CubeSandbox.TemplateInUse

open GoText List Option Runs

section Pages

variable {α : Type} (idx : α → Int)

/-- The loop of `supportsIndexPagination`. -/
def indexedFrom (idx : α → Int) : Int → List α → Bool
  | _, [] => true
  | prev, n :: l =>
    if idx n ≤ 0 then false
    else if 0 < prev && idx n < prev then false
    else indexedFrom idx (idx n) l

def supportsIndexPagination (l : List α) : Bool := !l.isEmpty && indexedFrom idx 0 l

def slice (l : List α) (start stop : Nat) : List α := (l.take stop).drop start

def indexByPage (l : List α) (index pageSize : Int) : List α × Int :=
  match l.getLast? with
  | none => ([], -1)
  | some last =>
    if pageSize ≤ 0 || index < 0 then ([], -1)
    else if !supportsIndexPagination idx l then
      let start := if index ≤ 0 then 1 else index
      if start > l.length then ([], -1)
      else
        let startPos := (start - 1).toNat
        let endPos := min (startPos + pageSize.toNat) l.length
        (slice l startPos endPos, endPos)
    else if index > idx last then ([], -1)
    else if index = idx last then ([last], idx last)
    else
      let startIndex := l.findIdx fun v => index ≤ idx v
      let endIndex := min (startIndex + pageSize.toNat) l.length
      (slice l startIndex endIndex, (l[endIndex - 1]?.map idx).getD 0)

variable {idx}

lemma indexedFrom_pos {l : List α} {prev : Int} (h : indexedFrom idx prev l = true) :
    ∀ v ∈ l, 0 < idx v := by
  induction l generalizing prev with
  | nil => simp
  | cons n l ih =>
    unfold indexedFrom at h
    split_ifs at h with h1 h2
    intro v hv
    rcases mem_cons.1 hv with rfl | hv
    · omega
    · exact ih h v hv

/-- A first page as long as the list is the list, unless the last node has the first index. -/
lemma indexByPage_all {l : List α} {last : α} {n : Int} (hlast : l.getLast? = some last)
    (hn : (l.length : Int) ≤ n) (hone : l.length = 1 ∨ idx last ≠ 1) :
    (indexByPage idx l 1 n).1 = l := by
  cases l with
  | nil => cases hlast
  | cons x l =>
    have hlen : ((x :: l).length : Int) = l.length + 1 := by simp
    have hall (start : Nat) (hs : start = 0) :
        slice (x :: l) start (min (start + n.toNat) (x :: l).length) = x :: l := by
      rw [slice, hs, Nat.zero_add, min_eq_right (by omega), take_length, drop_zero]
    have hargs : (decide (n ≤ 0) || decide ((1 : Int) < 0)) = false := by
      simp
      omega
    have hpos (h : ¬ (!supportsIndexPagination idx (x :: l)) = true) : ∀ v ∈ x :: l, 0 < idx v := by
      simp only [supportsIndexPagination, isEmpty_cons, Bool.not_false, Bool.true_and,
        Bool.not_eq_true', Bool.not_eq_false] at h
      exact indexedFrom_pos h
    unfold indexByPage
    simp only [hlast, hargs]
    simp only [Bool.false_eq_true, if_false]
    split_ifs with h1 h2 h3 h4 h5 h6
    · omega
    · omega
    · omega
    · exact hall _ rfl
    · have := hpos h1 last (mem_of_getLast? hlast)
      omega
    · have hnil : l = [] := by
        simpa using hone.resolve_right fun h => h h6.symm
      subst hnil
      simpa using hlast.symm
    · have hx : decide ((1 : Int) ≤ idx x) = true := by
        have := hpos h1 x mem_cons_self
        simp
        omega
      refine hall _ ?_
      rw [findIdx_cons, hx]
      rfl

end Pages

abbrev Labels := List (Bytes × Bytes)

structure Container where
  isPod : Bool
  labels : Labels
  deriving DecidableEq

/-- A sandbox as Cubelet keeps it, and the template it was made from. -/
structure Box where
  id : Bytes
  template : Bytes
  labels : Labels
  containers : List Container
  deriving DecidableEq

def templateKey : Bytes := ascii "cube.master.appsnapshot.template.id"

def templateIDFromLabels (labels : Labels) : Bytes := (labels.lookup templateKey).getD []

def sandboxViewLabels (sandboxLabels containerLabels : Labels) : Labels :=
  if sandboxLabels ≠ [] then sandboxLabels else containerLabels

/-- `matchFilter`, with the labels of `ListFilterOutLables`. -/
def matchFilter (filterOut labels : Labels) : Bool :=
  if filterOut = [] || labels = [] then false
  else filterOut.any fun kv => labels.lookup kv.1 = some kv.2

/-- The template that `doOneList` lists a sandbox with; only sandbox containers are asked for. -/
def Box.listed (filterOut : Labels) (b : Box) : Option Bytes :=
  (b.containers.find? fun c => c.isPod && !matchFilter filterOut c.labels).map fun c =>
    templateIDFromLabels (sandboxViewLabels b.labels c.labels)

structure Job where
  status : Bytes
  nodeID : Bytes
  nodeIP : Bytes

/-- `templateCleanupTargets`: the status of the definition, the numbers of targets, and the jobs. -/
structure Targets where
  definition : Option Bytes
  replicas : Nat
  jobs : List Job
  locators : Nat
  artifactIDs : Nat
  instanceType : Bytes

/-- `strings.EqualFold` with a constant of ASCII letters. -/
def equalFold (s : Bytes) (word : String) : Bool := s.map asciiLower = (ascii word).map asciiLower

namespace Targets

variable (t : Targets)

def hasCleanupState : Bool := t.definition.isSome || 0 < t.replicas || !t.jobs.isEmpty

def hasActiveJob : Bool :=
  t.jobs.any fun j => equalFold j.status "PENDING" || equalFold j.status "RUNNING"

def hasActiveDefinitionBuild : Bool :=
  t.definition.any fun status => equalFold status "PENDING" || equalFold status "CREATING"

def requiresCleanupLocator : Bool :=
  if 0 < t.locators || t.definition.isSome || 0 < t.replicas || 0 < t.artifactIDs then false
  else t.jobs.any fun j => trimSpace j.nodeID ≠ [] || trimSpace j.nodeIP ≠ []

def shouldCheckInUse : Bool := t.definition.any fun status => !equalFold status "FAILED"

/-- One of the errors before the check. -/
def refused : Bool :=
  !t.hasCleanupState || t.hasActiveJob || t.hasActiveDefinitionBuild || t.requiresCleanupLocator

end Targets

/-- The nodes, the age limit of a heartbeat, the labels filtered out, and the template. -/
structure Env where
  nodes : NodeCache.World
  timeout : Int
  filterOut : Labels
  templateID : Bytes
  targets : Targets

def maxListCubebox : Nat := 5000

namespace Env

variable (env : Env)

/-- `EvaluateFromFacts`. -/
def healthy (now : Int) (p : Nat) : Bool :=
  let n := env.nodes.obj p
  if n.metaDataUpdateAt = 0 || now - n.metaDataUpdateAt > env.timeout then false
  else n.reportedReady

/-- The length of `GetHealthyNodesByInstanceType(-1, instanceType)`. -/
def nodeCount (now : Int) : Nat :=
  match env.nodes.lists.get env.targets.instanceType with
  | some l => l.countP (env.healthy now)
  | none => env.nodes.cached.countP (env.healthy now)

/-- The list that `RangeDBHost` takes a page of. -/
def hosts : List Nat :=
  match env.nodes.lists.get env.targets.instanceType with
  | some l => l
  | none => env.nodes.list NodeCache.defaultInstanceTypeName

def hostIP (p : Nat) : Bytes := (env.nodes.obj p).ip

end Env

inductive Phase
  | idle
  | listing (pending : List Nat)
  | ended
  deriving DecidableEq

/-- The sandboxes with their hosts, whether the context has ended, the check, the templates answered
so far, and at its end whether the deletion goes on, with the sandboxes of that moment. -/
structure State where
  boxes : List (Bytes × Box)
  ctxDone : Bool
  phase : Phase
  data : List Bytes
  verdict : Option (Bool × List (Bytes × Box))

def State.init (boxes : List (Bytes × Box)) : State := ⟨boxes, false, .idle, [], none⟩

def State.boxesAt (s : State) (host : Bytes) : List Box :=
  (s.boxes.filter fun b => b.1 = host).map Prod.snd

/-- Sandboxes come and go; the check begins, a node answers or fails, the check ends. When the
context has ended, a part of an answer may be lost. -/
inductive Event
  | create (host : Bytes) (b : Box)
  | destroy (host id : Bytes)
  | expire
  | start (now : Int)
  | answer (p : Nat) (items : Option (List Box)) (kept : List Bytes)
  | conclude
  deriving DecidableEq

section Steps

variable (env : Env)

def State.conclude (s : State) (goesOn : Bool) : State :=
  { s with phase := .ended, verdict := some (goesOn, s.boxes) }

/-- `deleteTemplateWithTargets` up to the requests of the list, which begin at index 1. -/
def start (s : State) (now : Int) : State :=
  if env.targets.refused then s.conclude false
  else if !env.targets.shouldCheckInUse then s.conclude true
  else if env.nodeCount now = 0 then s.conclude true
  else
    { s with phase := .listing (indexByPage (fun p => (env.nodes.obj p).index) env.hosts 1
        (env.nodeCount now)).1 }

/-- What Cubelet answers: its sandboxes, or some of them if there are too many. -/
def itemsPossible (boxes items : List Box) : Bool :=
  if boxes.length ≤ maxListCubebox then items = boxes
  else items.length = maxListCubebox && items.all fun b => decide (b ∈ boxes)

def answerPossible (s : State) (p : Nat) (items : Option (List Box)) (kept : List Bytes) : Bool :=
  match items with
  | none => kept = []
  | some items =>
    itemsPossible (s.boxesAt (env.hostIP p)) items &&
      if s.ctxDone then kept.isSublist (items.filterMap (Box.listed env.filterOut))
      else kept = items.filterMap (Box.listed env.filterOut)

def step (s : State) : Event → Option State
  | .create host b => some { s with boxes := (host, b) :: s.boxes }
  | .destroy host id =>
    some { s with boxes := s.boxes.filter fun b => !(b.1 = host && b.2.id = id) }
  | .expire => some { s with ctxDone := true }
  | .start now => if s.phase = .idle then some (start env s now) else none
  | .answer p items kept =>
    match s.phase with
    | .listing pending =>
      if p ∈ pending ∧ answerPossible env s p items kept = true then
        some { s with phase := .listing (pending.erase p), data := kept ++ s.data }
      else none
    | _ => none
  | .conclude =>
    if s.phase = .listing [] then some (s.conclude (decide (env.templateID ∉ s.data))) else none

end Steps

section Proofs

variable {env : Env} {s : State}

/-- No sandbox of the template is on a registered node. -/
def Unused (env : Env) (boxes : List (Bytes × Box)) : Prop :=
  ∀ p ∈ env.nodes.cached, ∀ b, (env.hostIP p, b) ∈ boxes → b.template ≠ env.templateID

/-- **A template in use is not cleaned**: when the deletion goes on, no sandbox of the template was
on a registered node as the check ended. -/
def Spared (env : Env) (s : State) : Prop :=
  ∀ boxes, s.verdict = some (true, boxes) → Unused env boxes

/-- The list has the registered nodes, each once, all with a heartbeat, and the last of several does
not have the first index. -/
structure Complete (env : Env) (now : Int) : Prop where
  nodup : env.hosts.Nodup
  registered : ∀ p, p ∈ env.hosts ↔ p ∈ env.nodes.cached
  alive : ∀ p ∈ env.hosts, env.healthy now p = true
  paged : ∀ p, env.hosts.getLast? = some p → env.hosts.length = 1 ∨ (env.nodes.obj p).index ≠ 1

/-- The check is over a complete list, every node answers in full, the sandboxes of the template are
listed with it, and none is made on a node that has answered. -/
def Answered (env : Env) (s : State) : Event → Prop
  | .start now => env.targets.refused = true ∨
    (env.targets.shouldCheckInUse = true ∧ Complete env now)
  | .answer p items _ => items.isSome = true ∧ s.ctxDone = false ∧
    (s.boxesAt (env.hostIP p)).length ≤ maxListCubebox ∧
    ∀ b ∈ s.boxesAt (env.hostIP p), b.template = env.templateID →
      b.listed env.filterOut = some env.templateID
  | .create host b => b.template = env.templateID → ∀ pending, s.phase = .listing pending →
    ∀ p ∈ env.nodes.cached, env.hostIP p = host → p ∈ pending
  | _ => True

/-- A sandbox of the template has been seen, or there is none on the nodes that have answered. -/
structure Inv (env : Env) (s : State) : Prop where
  spared : Spared env s
  asked : ∀ pending, s.phase = .listing pending → env.templateID ∈ s.data ∨
    ∀ p ∈ env.nodes.cached, p ∉ pending → ∀ b, (env.hostIP p, b) ∈ s.boxes →
      b.template ≠ env.templateID

lemma Complete.count {now : Int} (h : Complete env now) : env.hosts.length ≤ env.nodeCount now := by
  have hsub : env.hosts ⊆ env.nodes.cached := fun p hp => (h.registered p).1 hp
  have halive := h.alive
  have hreg := h.registered
  unfold Env.nodeCount
  unfold Env.hosts at halive hreg ⊢
  cases hl : env.nodes.lists.get env.targets.instanceType with
  | some l =>
    simp only [hl] at halive ⊢
    exact (countP_eq_length.2 halive).ge
  | none =>
    rw [countP_eq_length.2 fun p hp => halive p ((hreg p).2 hp)]
    have hnd := h.nodup
    have hsub' := hsub
    simp only [Env.hosts, hl] at hnd hsub'
    exact (hnd.subperm hsub').length_le

lemma Complete.page {now n : Int} (h : Complete env now) (hn : (env.hosts.length : Int) ≤ n) :
    (indexByPage (fun p => (env.nodes.obj p).index) env.hosts 1 n).1 = env.hosts := by
  cases hlast : env.hosts.getLast? with
  | none =>
    have hnil : env.hosts = [] := getLast?_eq_none_iff.1 hlast
    rw [hnil]
    rfl
  | some last => exact indexByPage_all hlast hn (h.paged last hlast)

lemma Inv.start {now : Int} (h : Inv env s) (hok : Answered env s (.start now)) :
    Inv env (start env s now) := by
  unfold TemplateInUse.start
  split_ifs with h1 h2 h3
  · exact ⟨by simp [Spared, State.conclude], by simp [State.conclude]⟩
  · obtain hr | ⟨hc, -⟩ := hok
    · exact absurd hr h1
    · simp [hc] at h2
  · obtain hr | ⟨-, hc⟩ := hok
    · exact absurd hr h1
    have hnil : env.hosts = [] := by
      have := hc.count
      rw [h3] at this
      simpa using this
    refine ⟨fun boxes hv p hp => ?_, by simp [State.conclude]⟩
    rw [← hc.registered, hnil] at hp
    cases hp
  · obtain hr | ⟨-, hc⟩ := hok
    · exact absurd hr h1
    refine ⟨h.spared, fun pending hp => .inr fun p hreg hout => ?_⟩
    obtain rfl := (Phase.listing.inj hp).symm
    rw [hc.page (by exact_mod_cast hc.count), hc.registered] at hout
    exact absurd hreg hout

lemma Inv.answer {p : Nat} {items : Option (List Box)} {kept : List Bytes} {pending : List Nat}
    (h : Inv env s) (hp : s.phase = .listing pending) (hok : Answered env s (.answer p items kept))
    (hpos : answerPossible env s p items kept = true) :
    Inv env { s with phase := .listing (pending.erase p), data := kept ++ s.data } := by
  obtain ⟨hsome, hctx, hmax, hlisted⟩ := hok
  obtain ⟨l, rfl⟩ := isSome_iff_exists.1 hsome
  simp only [answerPossible, itemsPossible, hctx, hmax, if_true, Bool.false_eq_true, if_false,
    Bool.and_eq_true, decide_eq_true_eq] at hpos
  obtain ⟨rfl, rfl⟩ := hpos
  refine ⟨h.spared, fun pending' hp' => ?_⟩
  obtain rfl := (Phase.listing.inj hp').symm
  obtain hfound | hnone := h.asked pending hp
  · exact .inl (mem_append_right _ hfound)
  by_cases hbox : ∃ b, (env.hostIP p, b) ∈ s.boxes ∧ b.template = env.templateID
  · -- the answer has a sandbox of the template
    obtain ⟨b, hb, htemp⟩ := hbox
    have hmem : b ∈ s.boxesAt (env.hostIP p) := by simpa [State.boxesAt] using hb
    exact .inl (mem_append_left _ (mem_filterMap.2 ⟨b, hmem, hlisted b hmem htemp⟩))
  refine .inr fun q hq hout b hb htemp => ?_
  by_cases hqp : q = p
  · exact hbox ⟨b, hqp ▸ hb, htemp⟩
  · exact hnone q hq (fun hin => hout ((mem_erase_of_ne hqp).2 hin)) b hb htemp

lemma inv_step {e : Event} {s' : State} (h : Inv env s) (hok : Answered env s e)
    (hstep : step env s e = some s') : Inv env s' := by
  cases e <;> simp only [step] at hstep
  case create host b =>
    cases hstep
    refine ⟨h.spared, fun pending hp => (h.asked pending hp).imp_right ?_⟩
    intro hnone p hreg hout b' hb'
    rcases mem_cons.1 hb' with heq | hb'
    · cases heq
      exact fun htemp => hout (hok htemp pending hp p hreg rfl)
    · exact hnone p hreg hout b' hb'
  case destroy host id =>
    cases hstep
    exact ⟨h.spared, fun pending hp => (h.asked pending hp).imp_right fun hnone p hreg hout b hb =>
      hnone p hreg hout b (mem_filter.1 hb).1⟩
  case expire =>
    cases hstep
    exact ⟨h.spared, h.asked⟩
  case start now =>
    split_ifs at hstep
    cases hstep
    exact h.start hok
  case answer p items kept =>
    split at hstep <;> try cases hstep
    rename_i pending hp
    split_ifs at hstep with hc
    cases hstep
    exact h.answer hp hok hc.2
  case conclude =>
    split_ifs at hstep with hp
    cases hstep
    refine ⟨fun boxes hv p hreg b hb => ?_, by simp [State.conclude]⟩
    simp only [State.conclude, some.injEq, Prod.mk.injEq, decide_eq_true_eq] at hv
    obtain ⟨hnot, rfl⟩ := hv
    exact (h.asked [] hp).resolve_left hnot p hreg (by simp) b hb

lemma inv_init (boxes : List (Bytes × Box)) : Inv env (State.init boxes) :=
  ⟨by simp [Spared, State.init], by simp [State.init]⟩

/-- **A template in use is spared** in every run in which the check sees everything. -/
theorem template_in_use_spared (env : Env) (boxes : List (Bytes × Box)) (es : List Event)
    (s : State) (hm : Runs.Meets (step env) (Answered env) (State.init boxes) es)
    (h : exec (step env) (State.init boxes) es = some s) : Spared env s :=
  (exec_inv (fun _ _ _ hi hok hs => inv_step hi hok hs) (inv_init boxes) hm h).spared

end Proofs

section Demo

instance (env : Env) (now : Int) : Decidable (Complete env now) :=
  decidable_of_iff (env.hosts.Nodup ∧
    ((∀ p ∈ env.hosts, p ∈ env.nodes.cached) ∧ ∀ p ∈ env.nodes.cached, p ∈ env.hosts) ∧
    (∀ p ∈ env.hosts, env.healthy now p = true) ∧
    ∀ p ∈ env.hosts.getLast?, env.hosts.length = 1 ∨ (env.nodes.obj p).index ≠ 1)
  ⟨fun h => ⟨h.1, fun p => ⟨h.2.1.1 p, h.2.1.2 p⟩, h.2.2.1, h.2.2.2⟩,
    fun h => ⟨h.1, ⟨fun p => (h.2 p).1, fun p => (h.2 p).2⟩, h.3, h.4⟩⟩

instance (env : Env) (s : State) : ∀ e, Decidable (Answered env s e)
  | .start _ => inferInstanceAs (Decidable (_ ∨ _ ∧ _))
  | .answer _ _ _ => inferInstanceAs (Decidable (_ ∧ _ ∧ _ ∧ ∀ b ∈ _, _))
  | .create host b =>
    match h : s.phase with
    | .listing pending =>
      decidable_of_iff (b.template = env.templateID → ∀ p ∈ env.nodes.cached,
        env.hostIP p = host → p ∈ pending) (by simp [Answered, h])
    | .idle => .isTrue (by simp [Answered, h])
    | .ended => .isTrue (by simp [Answered, h])
  | .destroy _ _ => .isTrue trivial
  | .expire => .isTrue trivial
  | .conclude => .isTrue trivial

def demoNode (index : Int) (name ip : String) (seen : Int) : NodeCache.Node :=
  ⟨index, ascii name, ascii ip, [], true, true, seen⟩

def demoNodes (ns : List NodeCache.Node) : NodeCache.World :=
  ns.foldl (NodeCache.addNodeCache ⟨[], ∅⟩) (NodeCache.World.init ⟨[], ∅⟩)

/-- Template `t`, with a heartbeat timeout of 60. -/
def demoEnv (ns : List NodeCache.Node) (status : String) : Env :=
  ⟨demoNodes ns, 60, [], ascii "t", ⟨some (ascii status), 1, [], 1, 0, ascii "cubebox"⟩⟩

def boxOf (name template : String) : Box :=
  ⟨ascii name, ascii template, [(templateKey, ascii template)], [⟨true, []⟩]⟩

def ipA : Bytes := ascii "10.0.0.1"
def ipB : Bytes := ascii "10.0.0.2"

def twoNodes : List NodeCache.Node :=
  [demoNode 1 "a" "10.0.0.1" 100, demoNode 2 "b" "10.0.0.2" 100]

/-- Sandboxes of the template are destroyed and made before their nodes answer. -/
def clean : List Event :=
  [.start 110, .create ipB (boxOf "y" "t"), .destroy ipA (ascii "x"), .answer 0 (some []) [],
    .destroy ipB (ascii "y"), .answer 1 (some [boxOf "z" "u"]) [ascii "u"], .conclude]

/-- **The condition is met** by a run in which the template is cleaned. -/
theorem clean_spared : ∃ s, exec (step (demoEnv twoNodes "READY"))
      (State.init [(ipA, boxOf "x" "t"), (ipB, boxOf "z" "u")]) clean = some s ∧
    s.verdict = some (true, [(ipB, boxOf "z" "u")]) ∧ Spared (demoEnv twoNodes "READY") s := by
  refine leads State.verdict (some (true, [(ipB, boxOf "z" "u")]))
    (by decide +kernel) fun s hs hverdict => ?_
  exact ⟨hverdict, template_in_use_spared _ _ clean s (by decide +kernel) hs⟩

/-- A node with a sandbox of the template has an old heartbeat; fails to answer; gets a sandbox
after its answer; the definition has failed; the only node of the page is another one; the nodes
have one index. -/
def missed : List (List NodeCache.Node × String × List Event) :=
  [(twoNodes, "READY", [.start 1000]),
    (twoNodes, "READY", [.start 110, .answer 0 none [], .answer 1 (some []) [], .conclude]),
    (twoNodes, "READY", [.start 110, .destroy ipA (ascii "x"), .answer 0 (some []) [],
      .create ipA (boxOf "x" "t"), .answer 1 (some []) [], .conclude]),
    (twoNodes, "FAILED", [.start 110]),
    ([demoNode 1 "b" "10.0.0.2" 1, demoNode 2 "a" "10.0.0.1" 100], "READY",
      [.start 110, .answer 0 (some []) [], .conclude]),
    ([demoNode 1 "a" "10.0.0.1" 100, demoNode 1 "b" "10.0.0.2" 100], "READY",
      [.start 110, .answer 1 (some []) [], .conclude])]

lemma missed_facts : ∀ r ∈ missed, (exec (step (demoEnv r.1 r.2.1))
    (State.init [(ipA, boxOf "x" "t")]) r.2.2).map State.verdict =
      some (some (true, [(ipA, boxOf "x" "t")])) := by
  decide +kernel

/-- **A template in use is cleaned** when its node has not been heard of for a while. -/
theorem template_in_use_cleaned : ¬ ∀ (env : Env) (boxes : List (Bytes × Box)) (es : List Event)
    (s : State), exec (step env) (State.init boxes) es = some s → Spared env s := by
  intro hall
  obtain ⟨s, hs, hverdict⟩ := map_eq_some_iff.1 (missed_facts _ mem_cons_self)
  have hin : 0 ∈ (demoEnv twoNodes "READY").nodes.cached := by decide +kernel
  exact hall _ _ _ s hs _ hverdict 0 hin (boxOf "x" "t") (by decide +kernel) rfl

end Demo

end CubeSandbox.TemplateInUse
