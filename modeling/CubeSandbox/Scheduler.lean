import CubeSandbox.GoText

/-!
The scheduler of CubeMaster (`pkg/scheduler/schedule.go`, `pkg/selector`).

`Select` reads the schedulable nodes from the cache, drops those that are not for the request,
runs the filters side by side, scores what is left and draws one. Where nothing is left it falls
back on the nodes of the backoff selector. Floating-point numbers are rationals here.
-/

namespace CubeSandbox.Scheduler

open GoText List

/-! ### Nodes and configuration -/

structure Node where
  insID : Bytes
  ip : Bytes
  instanceType : Bytes
  reportedReady : Bool
  /-- `MetaDataUpdateAt`, `none` for the zero time. -/
  metaDataUpdateAt : Option Int
  schedulingDisabled : Bool
  healthy : Bool
  mvmNum : Int
  maxMvmLimit : Int
  metricUpdate : Int
  metricLocalUpdateAt : Int
  quotaCpu : Int
  quotaCpuUsage : Int
  cpuUtil : Rat
  quotaMem : Int
  quotaMemUsage : Int
  memMBTotal : Int
  memUsage : Int
  storageDiskUsagePer : Rat
  sysDiskUsagePer : Rat
  dataDiskUsagePer : Rat
  createConcurrentNum : Int
  realTimeCreateNum : Int
  localCreateNum : Int
  deriving DecidableEq

def Node.id (n : Node) : Bytes := if n.insID = [] then n.ip else n.insID

inductive Filter
  | cpu | mem | templateLocality | realtimeCreateNum | disk | thirtparty
  deriving DecidableEq

/-- `NodeMaxMemReservedConf`. -/
structure MemReserved where
  inMB : Int
  percent : Rat

structure Conf where
  preSelectNum : Int
  prioritySelectNum : Int
  disableCircuitFilter : Bool
  metricUpdateTimeout : Int
  healthTimeout : Int
  nodeMaxCpuUtil : Rat
  diskUsageMaxPercent : Rat
  ignoreRedisAllocation : Bool
  /-- `GetEffectiveOvercommitRatio` by instance type: of CPU and of memory. -/
  cpuRatio : Bytes → Rat
  memRatio : Bytes → Rat
  nodeMaxMemReservedInMB : Int
  memReserved : Bytes → MemReserved
  /-- `GetNodeMaxMvmNumConf` by instance type: the number, and the share of it to use. -/
  mvmNum : Bytes → Int
  mvmNumReservePercent : Bytes → Rat
  createConcurrentLimit : Int
  disableBackoffInstanceType : List Bytes
  enableFilters : List Bytes

structure ReqRes where
  cpuMilli : Int
  memBytes : Int
  templateID : Bytes
  templateNodeScope : List Bytes
  enforceSnapshotStorage : Bool

structure Req where
  instanceType : Bytes
  res : Option ReqRes
  nodeSelector : Option (Node → Bool)
  backoffNodeSelector : Option (Node → Bool)

/-- A scorer: every one of `pkg/selector/score` scores all nodes it is given, or none. -/
structure Scorer where
  weight : Rat
  disable : Bool
  score : Option (Node → Rat)

/-- `whilelistWeightedScore`. -/
structure PostScore where
  disable : Bool
  active : List Bytes
  negative : List Bytes
  activeWeight : Rat
  negativeWeight : Rat

/-- What one call of `Select` reads. -/
structure Env where
  now : Int
  /-- `sortedNodesByClusters`. -/
  clusters : Bytes → Option (List Node)
  cache : List Node
  /-- `GetImageStateByNode`: the template is on the node. -/
  hasImage : Bytes → Bytes → Bool
  /-- `snapshotStorageStateCache`: the mode by node id or address. -/
  storage : Bytes → Option Bytes
  healthyMasters : Int
  scorers : List Scorer
  postScore : Option PostScore

/-! ### Reading the cache -/

def evaluateFromFacts (c : Conf) (env : Env) (n : Node) : Bool :=
  match n.metaDataUpdateAt with
  | none => false
  | some t => decide (env.now - t ≤ c.healthTimeout) && n.reportedReady

def cloneNodeWithCurrentHealth (c : Conf) (env : Env) (n : Node) : Node :=
  { n with healthy := evaluateFromFacts c env n }

/-- The loop of `collectClusterNodes`, with the nodes collected so far. -/
def collect (c : Conf) (env : Env) (num : Int) : List Node → List Node → List Node
  | nodes, [] => nodes
  | nodes, v :: vs =>
    if 0 ≤ num ∧ num ≤ nodes.length then nodes
    else if v.schedulingDisabled then collect c env num nodes vs
    else if (cloneNodeWithCurrentHealth c env v).healthy then
      collect c env num (nodes ++ [cloneNodeWithCurrentHealth c env v]) vs
    else collect c env num nodes vs

/-- The nodes listed for an instance type, or all nodes if there is no list of it. -/
def Env.listed (env : Env) (product : Bytes) : List Node :=
  (env.clusters product).getD env.cache

def getSchedulableNodesByInstanceType (c : Conf) (env : Env) (num : Int) (product : Bytes) :
    List Node :=
  collect c env num [] (env.listed product)

/-! ### Filters -/

def maxMvmLimit (c : Conf) (n : Node) : Int :=
  let num := if n.maxMvmLimit ≤ 0 then c.mvmNum n.instanceType else n.maxMvmLimit
  if num = 0 then 3000 else num

def realMaxMvmLimit (c : Conf) (n : Node) : Int :=
  ⌈(maxMvmLimit c n : Rat) * c.mvmNumReservePercent n.instanceType⌉

def filterOut (lastBad : List Bytes) (n : Node) : Bool := decide (n.id ∈ lastBad)

/-- The checks of the prefilter. -/
def preOk (c : Conf) (env : Env) (req : Req) (lastBad : List Bytes) (n : Node) : Bool :=
  n.healthy && (c.disableCircuitFilter || !filterOut lastBad n) &&
    (req.nodeSelector.all fun m => m n) && decide (n.mvmNum < realMaxMvmLimit c n) &&
    decide (env.now - n.metricUpdate ≤ c.metricUpdateTimeout) &&
    decide (env.now - n.metricLocalUpdateAt ≤ c.metricUpdateTimeout)

/-- `prefilter.Select`. -/
def prefilterSelect (c : Conf) (env : Env) (req : Req) (lastBad : List Bytes) : List Node :=
  (getSchedulableNodesByInstanceType c env c.preSelectNum req.instanceType).filter
    (preOk c env req lastBad)

def diskOk (c : Conf) (n : Node) : Bool :=
  decide (n.storageDiskUsagePer < c.diskUsageMaxPercent) &&
    decide (n.sysDiskUsagePer < c.diskUsageMaxPercent) &&
    decide (n.dataDiskUsagePer < c.diskUsageMaxPercent)

/-- The checks of the backoff filter. -/
def backoffOk (c : Conf) (matches' : Node → Bool) (n : Node) : Bool :=
  matches' n && decide (n.mvmNum < realMaxMvmLimit c n) && diskOk c n

/-- `backofffilter.Select`. -/
def backoffSelect (c : Conf) (env : Env) (req : Req) : List Node :=
  match req.backoffNodeSelector with
  | none => []
  | some m =>
    if req.instanceType ∈ c.disableBackoffInstanceType then []
    else (getSchedulableNodesByInstanceType c env (-1) req.instanceType).filter (backoffOk c m)

def floatToInt64Clamped (f : Rat) : Int :=
  if 2 ^ 63 ≤ f then 2 ^ 63 - 1
  else if f ≤ -2 ^ 63 then -2 ^ 63
  else if f < 0 then ⌈f⌉ else ⌊f⌋

def effectiveAllocated (c : Conf) (usage : Int) : Int :=
  if c.ignoreRedisAllocation then 0 else usage

def cpuOk (c : Conf) (r : ReqRes) (n : Node) : Bool :=
  decide (r.cpuMilli < floatToInt64Clamped (n.quotaCpu * c.cpuRatio n.instanceType) -
    effectiveAllocated c n.quotaCpuUsage) && decide (n.cpuUtil < c.nodeMaxCpuUtil)

/-- `GetEffectiveNodeMaxMemReservedInMB`. -/
def effectiveMemReserved (c : Conf) (instanceType : Bytes) (quotaMem : Int) : Int :=
  let conf := c.memReserved instanceType
  let r0 := if conf.inMB ≤ 0 ∧ 0 < conf.percent ∧ 0 < quotaMem then
    ⌈(quotaMem : Rat) * conf.percent⌉ else conf.inMB
  let r1 := if r0 ≤ 0 then c.nodeMaxMemReservedInMB else r0
  let r2 := if 0 < quotaMem ∧ quotaMem ≤ r1 then ⌈(quotaMem : Rat) * (1 / 10)⌉ else r1
  if r2 < 0 then 0 else r2

def memOk (c : Conf) (r : ReqRes) (n : Node) : Bool :=
  let memq := (r.memBytes.tdiv 1024).tdiv 1024
  decide (memq < floatToInt64Clamped (n.quotaMem * c.memRatio n.instanceType) -
    effectiveAllocated c n.quotaMemUsage) &&
  decide (memq + effectiveMemReserved c n.instanceType n.quotaMem < n.memMBTotal - n.memUsage)

def templateNodeAllowed (r : ReqRes) (n : Node) : Bool :=
  r.templateNodeScope.isEmpty || r.templateNodeScope.any fun item =>
    let scope := trimSpace item
    decide (scope ≠ []) && (decide (scope = n.id) || decide (scope = n.ip))

/-- `IsSnapshotStorageWriteAllowed`. -/
def storageWriteAllowed (mode : Bytes) : Bool :=
  let m := (trimSpace mode).map asciiLower
  decide (m = ascii "healthy") || decide (m = ascii "warn")

def snapshotStorageNodeAllowed (env : Env) (n : Node) : Bool :=
  match (if n.id ≠ [] then env.storage n.id else none).orElse
      fun _ => if n.ip ≠ [] then env.storage n.ip else none with
  | none => false
  | some mode => storageWriteAllowed mode

def templateOk (env : Env) (r : ReqRes) (n : Node) : Bool :=
  templateNodeAllowed r n && env.hasImage r.templateID n.id &&
    (!r.enforceSnapshotStorage || snapshotStorageNodeAllowed env n)

def createConcurrentLimit (c : Conf) (n : Node) : Int :=
  let num := if n.createConcurrentNum ≤ c.createConcurrentLimit then c.createConcurrentLimit
    else n.createConcurrentNum
  if num = 0 then 50 else num

def realtimeOk (c : Conf) (env : Env) (n : Node) : Bool :=
  decide (n.realTimeCreateNum < createConcurrentLimit c n) &&
    decide (n.localCreateNum * (if env.healthyMasters = 0 then 1 else env.healthyMasters) <
      createConcurrentLimit c n)

def Filter.passes (c : Conf) (env : Env) (res : Option ReqRes) (n : Node) : Filter → Bool
  | .cpu => res.any fun r => cpuOk c r n
  | .mem => res.any fun r => memOk c r n
  | .templateLocality => res.all fun r => decide (r.templateID = []) || templateOk env r n
  | .realtimeCreateNum => realtimeOk c env n
  | .disk => diskOk c n
  | .thirtparty => true

/-- The filter cannot do without the resources of the request. -/
def Filter.needsRes : Filter → Bool
  | .cpu | .mem | .thirtparty => true
  | .templateLocality | .realtimeCreateNum | .disk => false

/-- `Select` of a filter; `none` is its error. -/
def Filter.select (c : Conf) (env : Env) (res : Option ReqRes) (nodes : List Node) (f : Filter) :
    Option (List Node) :=
  if f.needsRes ∧ res.isNone then none else some (nodes.filter fun n => f.passes c env res n)

def filterOf (name : Bytes) : Option Filter :=
  if name = ascii "cpu" then some .cpu
  else if name = ascii "mem" then some .mem
  else if name = ascii "template_locality" then some .templateLocality
  else if name = ascii "realtime_create_num" then some .realtimeCreateNum
  else if name = ascii "disk" then some .disk
  else if name = ascii "thirtparty" then some .thirtparty
  else none

/-- `filter.NewSelector`: names that are not known are passed over. -/
def Conf.filters (c : Conf) : List Filter := c.enableFilters.filterMap filterOf

/-- The `AtomicMapStat` of `parallelRunFilters`: how often an id was let through. -/
def stat (results : List (List Node)) (id : Bytes) : Nat :=
  (results.map fun l => (l.map Node.id).count id).sum

def parallelRunFilters (c : Conf) (env : Env) (req : Req) (nodes : List Node) :
    Option (List Node) :=
  match c.filters.mapM (Filter.select c env req.res nodes) with
  | none => none
  | some results => some (nodes.filter fun n => decide (c.filters.length = stat results n.id))

structure NodeScore where
  node : Node
  score : Rat

/-- One entry of `resultMap`, which is keyed by the id of the node. -/
def addScore (m : List NodeScore) (x : NodeScore) : List NodeScore :=
  if m.any fun y => decide (y.node.id = x.node.id) then
    m.map fun y => if y.node.id = x.node.id then { y with score := y.score + x.score } else y
  else m ++ [x]

/-- One scorer of the loop of `runScoreFilter`. -/
def addScorer (nodes : List Node) (m : List NodeScore) (s : Scorer) : List NodeScore :=
  match s.disable, s.score with
  | false, some f => nodes.foldl (fun m n => addScore m ⟨n, f n * s.weight⟩) m
  | _, _ => m

def totalPluginWeight (scorers : List Scorer) : Rat :=
  let w := ((scorers.filter fun s => !s.disable && s.score.isSome).map Scorer.weight).sum
  if w = 0 then 1 else w

def postedScore (p : PostScore) (m : List NodeScore) : List NodeScore :=
  if p.disable then m
  else
    let mean := (m.map NodeScore.score).sum / m.length
    let m1 := m.map fun x =>
      if x.node.id ∈ p.active then { x with score := x.score + mean * p.activeWeight } else x
    m1.map fun x =>
      if x.node.id ∈ p.negative then { x with score := x.score - x.score * p.negativeWeight } else x

/-- The scores of the nodes, before they are sorted. -/
def scores (env : Env) (nodes : List Node) : List NodeScore :=
  let m := (env.scorers.foldl (addScorer nodes) []).map fun x =>
    { x with score := x.score / totalPluginWeight env.scorers }
  match env.postScore with
  | none => m
  | some p => postedScore p m

/-- `SelectorCtx`: the bad nodes, the nodes left, the scores, and what the random choice was
given. -/
structure Ctx where
  lastBad : List Bytes
  result : List Node
  resultWithScore : List NodeScore
  items : List (Node × Int)

def Ctx.new : Ctx := ⟨[], [], [], []⟩

def Ctx.addLastBadNode (ctx : Ctx) (n : Node) : Ctx :=
  { ctx with lastBad := ctx.lastBad ++ [n.id] }

inductive Err
  | noRes | internal | panic
  deriving DecidableEq

/-- What is left to chance: the order of equal scores, the draw of `BackoffSelect`, and `Next` of
the chosen `weighted.W`, which gives back one of the items added. -/
structure Chance where
  arrange : List NodeScore → List NodeScore
  arrange_perm : ∀ l, (arrange l).Perm l
  intn : Nat
  next : List (Node × Int) → Except Err (Option Node)
  next_mem : ∀ items n, next items = .ok (some n) → n ∈ items.map Prod.fst

/-- `randomSelect.Next`, drawing `k`. -/
def randomNext (k : Nat) (items : List (Node × Int)) : Except Err (Option Node) :=
  match items[k % items.length]? with
  | none => .error .panic
  | some x => .ok (some x.1)

def leastNodes {α : Type} (n : Int) (l : List α) : List α :=
  if 0 ≤ n ∧ n ≤ l.length then l.take n.toNat else l

/-- The weight of a scored node, `int(Score*1e6)`. -/
def scoreWeight (s : Rat) : Int := if s < 0 then ⌈s * 1000000⌉ else ⌊s * 1000000⌋

def leastRandomSelect (ch : Chance) (n : Int) (ctx : Ctx) : Except Err (Option Node) × Ctx :=
  let added := if ctx.resultWithScore = [] then (leastNodes n ctx.result).map fun x => (x, 1)
    else (leastNodes n ctx.resultWithScore).map fun x => (x.node, scoreWeight x.score)
  let items := ctx.items ++ added
  (ch.next items, { ctx with items := items })

def shouldSkipBackoffForTemplate (c : Conf) (req : Req) : Bool :=
  (req.res.any fun r => decide (r.templateID ≠ [])) && decide (.templateLocality ∈ c.filters)

/-- `BackoffSelect`. -/
def backoffSelectNode (c : Conf) (env : Env) (req : Req) (ch : Chance) (ctx : Ctx) :
    Except Err (Option Node) × Ctx :=
  let nodes := backoffSelect c env req
  let ctx' := { ctx with result := nodes }
  match nodes[ch.intn % nodes.length]? with
  | none => (.error .noRes, ctx')
  | some n => (.ok (some n), ctx')

/-- `runScoreFilter`, for a list of nodes that is not empty. -/
def runScoreFilter (env : Env) (ch : Chance) (ctx : Ctx) : Ctx :=
  if scores env ctx.result = [] then ctx
  else
    { ctx with
      resultWithScore := ch.arrange (scores env ctx.result)
      result := (ch.arrange (scores env ctx.result)).map NodeScore.node }

/-- `Select` behind the prefilter. -/
def selectFrom (c : Conf) (env : Env) (req : Req) (ch : Chance) (ctx : Ctx) :
    Except Err (Option Node) × Ctx :=
  match parallelRunFilters c env req ctx.result with
  | some (n :: ns) =>
    leastRandomSelect ch c.prioritySelectNum
      (runScoreFilter env ch { ctx with result := n :: ns })
  | some [] =>
    if shouldSkipBackoffForTemplate c req then (.error .noRes, ctx)
    else backoffSelectNode c env req ch ctx
  | none =>
    if shouldSkipBackoffForTemplate c req then (.error .internal, ctx)
    else backoffSelectNode c env req ch ctx

def select (c : Conf) (env : Env) (req : Req) (ch : Chance) (ctx : Ctx) :
    Except Err (Option Node) × Ctx :=
  match prefilterSelect c env req ctx.lastBad with
  | n :: ns => selectFrom c env req ch { ctx with result := n :: ns }
  | [] =>
    if shouldSkipBackoffForTemplate c req then (.error .noRes, { ctx with result := [] })
    else
      match backoffSelect c env req with
      | [] => (.error .noRes, { ctx with result := [] })
      | n :: ns => selectFrom c env req ch { ctx with result := n :: ns }

/-! ### The nodes read -/

/-- The nodes of a list that are not cordoned and are healthy now. -/
def eligible (c : Conf) (env : Env) (vs : List Node) : List Node :=
  ((vs.filter fun v => !v.schedulingDisabled).map (cloneNodeWithCurrentHealth c env)).filter
    fun n => n.healthy

lemma collect_eq_take (c : Conf) (env : Env) (num : Int) (vs acc : List Node) :
    ∃ k, collect c env num acc vs = acc ++ (eligible c env vs).take k := by
  induction vs generalizing acc with
  | nil => exact ⟨0, by simp [collect]⟩
  | cons v vs ih =>
    unfold collect
    split_ifs with hnum hdis hhealthy
    · exact ⟨0, by simp⟩
    · obtain ⟨k, hk⟩ := ih acc
      exact ⟨k, by simpa [eligible, hdis] using hk⟩
    · obtain ⟨k, hk⟩ := ih (acc ++ [cloneNodeWithCurrentHealth c env v])
      refine ⟨k + 1, ?_⟩
      simpa [eligible, hdis, hhealthy] using hk
    · obtain ⟨k, hk⟩ := ih acc
      exact ⟨k, by simpa [eligible, hdis, hhealthy] using hk⟩

lemma map_id_eligible (c : Conf) (env : Env) (vs : List Node) :
    ((eligible c env vs).map Node.id).Sublist (vs.map Node.id) := by
  refine (filter_sublist.map _).trans ?_
  rw [map_map]
  exact filter_sublist.map _

/-- A node that is listed for the instance type, not cordoned, and was healthy when it was read. -/
def Schedulable (c : Conf) (env : Env) (req : Req) (n : Node) : Prop :=
  ∃ v ∈ env.listed req.instanceType, v.schedulingDisabled = false ∧
    n = cloneNodeWithCurrentHealth c env v ∧ n.healthy = true

variable {n : Node} {nodes : List Node} {lastBad : List Bytes} {m : List NodeScore} {ch : Chance}
  {ctx : Ctx}

section

variable {c : Conf} {env : Env} {req : Req}

lemma schedulable_of_eligible (h : n ∈ eligible c env (env.listed req.instanceType)) :
    Schedulable c env req n := by
  simp only [eligible, mem_filter, mem_map] at h
  obtain ⟨⟨v, ⟨hv, hdis⟩, rfl⟩, hh⟩ := h
  exact ⟨v, hv, by simpa using hdis, rfl, hh⟩

/-- What a selector leaves of the nodes read. -/
def Drawn (c : Conf) (env : Env) (req : Req) (nodes : List Node) : Prop :=
  nodes.Sublist (eligible c env (env.listed req.instanceType))

lemma Drawn.schedulable (h : Drawn c env req nodes) (hn : n ∈ nodes) : Schedulable c env req n :=
  schedulable_of_eligible (h.subset hn)

lemma Drawn.nodup (h : Drawn c env req nodes)
    (hids : ((env.listed req.instanceType).map Node.id).Nodup) : (nodes.map Node.id).Nodup :=
  hids.sublist ((h.map _).trans (map_id_eligible c env _))

lemma drawn_filter (num : Int) (p : Node → Bool) :
    Drawn c env req ((getSchedulableNodesByInstanceType c env num req.instanceType).filter p) := by
  obtain ⟨k, hk⟩ := collect_eq_take c env num (env.listed req.instanceType) []
  unfold Drawn getSchedulableNodesByInstanceType
  rw [hk]
  exact filter_sublist.trans (take_sublist _ _)

lemma drawn_prefilter (lastBad : List Bytes) :
    Drawn c env req (prefilterSelect c env req lastBad) := drawn_filter _ _

lemma drawn_backoff : Drawn c env req (backoffSelect c env req) := by
  unfold Drawn backoffSelect
  split
  · exact nil_sublist _
  split_ifs
  · exact nil_sublist _
  · exact drawn_filter _ _

/-- A node that matches and has room for virtual machines and on its disks. -/
def BackoffNode (c : Conf) (req : Req) (n : Node) : Prop :=
  ∃ m, req.backoffNodeSelector = some m ∧ backoffOk c m n = true

lemma backoff_ok (h : n ∈ backoffSelect c env req) : BackoffNode c req n := by
  unfold backoffSelect at h
  split at h <;> try cases h
  rename_i m hm
  split_ifs at h
  · cases h
  · exact ⟨m, hm, (mem_filter.1 h).2⟩

/-! ### The filters -/

def PassesAll (c : Conf) (env : Env) (req : Req) (n : Node) : Prop :=
  ∀ f ∈ c.filters, f.passes c env req.res n = true

lemma mapM_select {fs : List Filter} {results : List (List Node)}
    (h : fs.mapM (Filter.select c env req.res nodes) = some results) :
    results = fs.map fun f => nodes.filter fun n => f.passes c env req.res n := by
  induction fs generalizing results with
  | nil => simpa using h.symm
  | cons f fs ih =>
    simp only [mapM_cons, Option.bind_eq_bind, Option.bind_eq_some_iff] at h
    obtain ⟨l, hl, rest, hrest, h⟩ := h
    cases h
    rw [ih hrest, map_cons]
    unfold Filter.select at hl
    split_ifs at hl
    cases hl
    rfl

lemma mapM_select_isSome (hres : req.res.isSome) (fs : List Filter) :
    (fs.mapM (Filter.select c env req.res nodes)).isSome := by
  induction fs with
  | nil => rfl
  | cons f fs ih =>
    obtain ⟨rest, hrest⟩ := Option.isSome_iff_exists.1 ih
    have hno : ¬ (f.needsRes = true ∧ req.res.isNone = true) := by
      rintro ⟨-, h⟩
      simp [Option.isNone_iff_eq_none.1 h] at hres
    have hf : f.select c env req.res nodes =
        some (nodes.filter fun n => f.passes c env req.res n) := if_neg hno
    simp [mapM_cons, hf, hrest]

section

variable (hnd : (nodes.map Node.id).Nodup)
include hnd

lemma count_id_filter (p : Node → Bool) (hn : n ∈ nodes) :
    ((nodes.filter p).map Node.id).count n.id = if p n then 1 else 0 := by
  have hsub : ((nodes.filter p).map Node.id).Nodup := hnd.sublist (filter_sublist.map _)
  split_ifs with hp
  · exact count_eq_one_of_mem hsub (mem_map_of_mem (mem_filter.2 ⟨hn, hp⟩))
  refine count_eq_zero.2 fun h => hp ?_
  obtain ⟨m, hm, hid⟩ := mem_map.1 h
  obtain ⟨hm, hpm⟩ := mem_filter.1 hm
  exact inj_on_of_nodup_map hnd hm hn hid ▸ hpm

lemma stat_filter (p : Filter → Node → Bool) (fs : List Filter) (hn : n ∈ nodes) :
    stat (fs.map fun f => nodes.filter (p f)) n.id = fs.countP fun f => p f n := by
  induction fs with
  | nil => rfl
  | cons f fs ih =>
    rw [map_cons, stat, map_cons, sum_cons, count_id_filter hnd (p f) hn, countP_cons, ← ih, stat]
    omega

/-- **The filters run side by side** let through what every one of them lets through. -/
lemma parallelRunFilters_eq {l : List Node} (h : parallelRunFilters c env req nodes = some l) :
    n ∈ l ↔ n ∈ nodes ∧ PassesAll c env req n := by
  unfold parallelRunFilters at h
  split at h
  · cases h
  rename_i results hres
  cases h
  rw [mem_filter, mapM_select hres]
  refine and_congr_right fun hn => ?_
  rw [stat_filter hnd (fun f n => f.passes c env req.res n) c.filters hn, decide_eq_true_eq,
    eq_comm, countP_eq_length]
  rfl

end

lemma parallelRunFilters_isSome (hres : req.res.isSome) :
    (parallelRunFilters c env req nodes).isSome := by
  have hall : (c.filters.mapM (Filter.select c env req.res nodes)).isSome :=
    mapM_select_isSome hres c.filters
  obtain ⟨r, hr⟩ := Option.isSome_iff_exists.1 hall
  simp [parallelRunFilters, hr]

/-! ### The choice -/

lemma mem_addScore {x y : NodeScore} (h : y ∈ addScore m x) :
    y.node = x.node ∨ ∃ z ∈ m, y.node = z.node := by
  unfold addScore at h
  split_ifs at h
  · -- the node had a score
    obtain ⟨z, hz, rfl⟩ := mem_map.1 h
    split_ifs
    · exact .inr ⟨z, hz, rfl⟩
    · exact .inr ⟨z, hz, rfl⟩
  · rcases mem_append.1 h with h | h
    · exact .inr ⟨y, h, rfl⟩
    · exact .inl (by rw [mem_singleton.1 h])

/-- The nodes of the scores are nodes of the list. -/
def Within (nodes : List Node) (m : List NodeScore) : Prop := ∀ x ∈ m, x.node ∈ nodes

lemma within_addScores {l : List Node} (hl : ∀ n ∈ l, n ∈ nodes) (f : Node → Rat)
    (h : Within nodes m) : Within nodes (l.foldl (fun m n => addScore m ⟨n, f n⟩) m) := by
  induction l generalizing m with
  | nil => exact h
  | cons n l ih =>
    refine ih (fun k hk => hl k (mem_cons_of_mem _ hk)) fun y hy => ?_
    rcases mem_addScore hy with hy | ⟨z, hz, hy⟩
    · exact hy ▸ hl n mem_cons_self
    · exact hy ▸ h z hz

lemma within_scorers (ss : List Scorer) (h : Within nodes m) :
    Within nodes (ss.foldl (addScorer nodes) m) := by
  induction ss generalizing m with
  | nil => exact h
  | cons s ss ih =>
    refine ih ?_
    unfold addScorer
    split
    · exact within_addScores (fun _ h => h) _ h
    · exact h

lemma within_map (h : Within nodes m) (f : NodeScore → NodeScore) (hf : ∀ x, (f x).node = x.node) :
    Within nodes (m.map f) := by
  intro x hx
  obtain ⟨y, hy, rfl⟩ := mem_map.1 hx
  exact hf y ▸ h y hy

lemma within_posted (p : PostScore) (h : Within nodes m) : Within nodes (postedScore p m) := by
  unfold postedScore
  split_ifs
  · exact h
  · refine within_map (within_map h _ fun x => ?_) _ fun x => ?_ <;> split_ifs <;> rfl

lemma within_scores (nodes : List Node) : Within nodes (scores env nodes) := by
  have h : Within nodes (env.scorers.foldl (addScorer nodes) []) :=
    within_scorers _ fun x hx => absurd hx not_mem_nil
  unfold scores
  split
  · exact within_map h _ fun _ => rfl
  · exact within_posted _ (within_map h _ fun _ => rfl)

lemma leastNodes_sublist {α : Type} (n : Int) (l : List α) : (leastNodes n l).Sublist l := by
  unfold leastNodes
  split_ifs
  · exact take_sublist _ _
  · exact List.Sublist.refl _

lemma leastNodes_ne_nil {α : Type} {n : Int} (hn : n ≠ 0) {l : List α} (hl : l ≠ []) :
    leastNodes n l ≠ [] := by
  unfold leastNodes
  split_ifs with h
  · rw [Ne, take_eq_nil_iff]
    rintro (h0 | h0)
    · omega
    · exact hl h0
  · exact hl

/-- No earlier call for the request has come to the random choice. -/
def Ctx.Unpicked (ctx : Ctx) : Prop := ctx.items = [] ∧ ctx.resultWithScore = []

/-- What the random choice is given comes from the nodes. -/
structure Left (nodes : List Node) (ctx : Ctx) : Prop where
  items : ctx.items = []
  result : ∀ n ∈ ctx.result, n ∈ nodes
  scored : Within nodes ctx.resultWithScore

lemma Left.score (h : Left ctx.result ctx) : Left ctx.result (runScoreFilter env ch ctx) := by
  unfold runScoreFilter
  split_ifs with hs
  · exact h
  have hw : Within ctx.result (ch.arrange (scores env ctx.result)) := fun x hx =>
    within_scores _ x ((ch.arrange_perm _).mem_iff.1 hx)
  refine ⟨h.items, fun n hn => ?_, hw⟩
  obtain ⟨x, hx, rfl⟩ := mem_map.1 hn
  exact hw x hx

lemma Left.choice {num : Int} (h : Left nodes ctx)
    (hn : (leastRandomSelect ch num ctx).1 = .ok (some n)) : n ∈ nodes := by
  obtain ⟨x, hx, rfl⟩ := mem_map.1 (ch.next_mem _ n hn)
  rw [h.items, nil_append] at hx
  split_ifs at hx
  · obtain ⟨y, hy, rfl⟩ := mem_map.1 hx
    exact h.result y ((leastNodes_sublist _ _).subset hy)
  · obtain ⟨y, hy, rfl⟩ := mem_map.1 hx
    exact h.scored y ((leastNodes_sublist _ _).subset hy)

lemma backoffSelectNode_mem (h : (backoffSelectNode c env req ch ctx).1 = .ok (some n)) :
    n ∈ backoffSelect c env req := by
  simp only [backoffSelectNode] at h
  split at h <;> cases h
  rename_i m hm
  exact mem_of_getElem? hm

/-- The filters failed, or left nothing. -/
def Blocked (c : Conf) (env : Env) (req : Req) (nodes : List Node) : Prop :=
  req.res = none ∨ ∀ m ∈ nodes, ¬ PassesAll c env req m

/-- `Select` gives a node of the list that passed the filters, or one of the backoff selector. -/
lemma selectFrom_cases (ctx : Ctx) (hc : ctx.Unpicked) (hnd : (ctx.result.map Node.id).Nodup)
    (h : (selectFrom c env req ch ctx).1 = .ok (some n)) :
    (n ∈ ctx.result ∧ PassesAll c env req n) ∨
      (shouldSkipBackoffForTemplate c req = false ∧ n ∈ backoffSelect c env req ∧
        Blocked c env req ctx.result) := by
  unfold selectFrom at h
  split at h
  · -- some nodes pass
    rename_i m ms hf
    refine .inl ((parallelRunFilters_eq hnd hf).1 ?_)
    have hl : Left (m :: ms) { ctx with result := m :: ms } :=
      ⟨hc.1, fun _ h => h, fun x hx => absurd hx (by rw [hc.2]; exact not_mem_nil)⟩
    exact (hl.score).choice h
  · -- none does
    rename_i hf
    split_ifs at h with hskip
    refine .inr ⟨by simpa using hskip, backoffSelectNode_mem h, .inr fun m hm hp => ?_⟩
    exact absurd ((parallelRunFilters_eq hnd hf).2 ⟨hm, hp⟩) not_mem_nil
  · -- a filter failed, for want of the request's resources
    rename_i hf
    split_ifs at h with hskip
    refine .inr ⟨by simpa using hskip, backoffSelectNode_mem h, .inl ?_⟩
    by_contra hres
    have hsome : (parallelRunFilters c env req ctx.result).isSome :=
      parallelRunFilters_isSome (Option.isSome_iff_ne_none.2 hres)
    rw [hf] at hsome
    cases hsome

/-- **Where a sandbox may go.** The node is listed for the instance type, not cordoned and
healthy. It passed the prefilter, which keeps out the bad nodes of the request unless the circuit
filter is switched off, and every filter; or the request is not bound to the nodes of a template,
no node passes all of this, and it is one of the backoff selector. A request bound to a template
goes to a node that has it. -/
structure Placed (c : Conf) (env : Env) (req : Req) (lastBad : List Bytes) (n : Node) : Prop where
  schedulable : Schedulable c env req n
  path : (preOk c env req lastBad n = true ∧ PassesAll c env req n) ∨
    (shouldSkipBackoffForTemplate c req = false ∧ BackoffNode c req n ∧
      Blocked c env req (prefilterSelect c env req lastBad))
  template : ∀ r, req.res = some r → r.templateID ≠ [] → .templateLocality ∈ c.filters →
    env.hasImage r.templateID n.id = true

lemma placed_of_normal (hn : n ∈ prefilterSelect c env req lastBad) (hp : PassesAll c env req n) :
    Placed c env req lastBad n where
  schedulable := (drawn_prefilter lastBad).schedulable hn
  path := .inl ⟨(mem_filter.1 hn).2, hp⟩
  template _ hr ht hf := by
    have hpass := hp _ hf
    simp only [Filter.passes, hr, Option.all_some, ht, decide_false, Bool.false_or, templateOk,
      Bool.and_eq_true] at hpass
    exact hpass.1.2

lemma placed_of_backoff (hskip : shouldSkipBackoffForTemplate c req = false)
    (hn : n ∈ backoffSelect c env req)
    (hb : Blocked c env req (prefilterSelect c env req lastBad)) : Placed c env req lastBad n where
  schedulable := drawn_backoff.schedulable hn
  path := .inr ⟨hskip, backoff_ok hn, hb⟩
  template _ hr ht hf := by simp [shouldSkipBackoffForTemplate, hr, ht, hf] at hskip

lemma select_sound (hc : ctx.Unpicked) (hids : ((env.listed req.instanceType).map Node.id).Nodup)
    (h : (select c env req ch ctx).1 = .ok (some n)) : Placed c env req ctx.lastBad n := by
  unfold select at h
  split at h
  · rename_i m ms hpre
    have hnd := (drawn_prefilter (c := c) ctx.lastBad).nodup hids
    rw [hpre] at hnd
    rcases selectFrom_cases { ctx with result := m :: ms } hc hnd h with
      ⟨hn, hp⟩ | ⟨hskip, hn, hb⟩
    · exact placed_of_normal (hpre ▸ hn) hp
    · exact placed_of_backoff hskip hn (hpre ▸ hb)
  -- the prefilter left nothing, so the nodes of the backoff selector go through the filters
  rename_i hpre
  have hb : Blocked c env req (prefilterSelect c env req ctx.lastBad) :=
    .inr fun m hm => absurd (hpre ▸ hm) not_mem_nil
  split_ifs at h with hskip
  have hskip' : shouldSkipBackoffForTemplate c req = false := by simpa using hskip
  split at h
  · cases h
  rename_i m ms hback
  have hnd := (drawn_backoff (c := c)).nodup hids
  rw [hback] at hnd
  rcases selectFrom_cases { ctx with result := m :: ms } hc hnd h with
    ⟨hn, -⟩ | ⟨-, hn, -⟩
  · exact placed_of_backoff hskip' (hback ▸ hn) hb
  · exact placed_of_backoff hskip' hn hb

/-- `Next` gives a node whenever it has been given one; so does `randomSelect`. -/
def Chance.Total (ch : Chance) : Prop :=
  ∀ items, items ≠ [] → ∃ n, ch.next items = .ok (some n)

lemma leastRandomSelect_total (ht : ch.Total) {num : Int} (hnum : num ≠ 0) (hr : ctx.result ≠ []) :
    ∃ n, (leastRandomSelect ch num ctx).1 = .ok (some n) := by
  refine ht _ fun h => ?_
  obtain ⟨-, h⟩ := append_eq_nil_iff.1 h
  split_ifs at h with hs
  · exact leastNodes_ne_nil hnum hr (map_eq_nil_iff.1 h)
  · exact leastNodes_ne_nil hnum hs (map_eq_nil_iff.1 h)

lemma runScoreFilter_result_ne (hr : ctx.result ≠ []) :
    (runScoreFilter env ch ctx).result ≠ [] := by
  unfold runScoreFilter
  split_ifs with hs
  · exact hr
  intro h
  have h1 := map_eq_nil_iff.1 h
  have h2 := (ch.arrange_perm (scores env ctx.result)).length_eq
  rw [h1, length_nil] at h2
  exact hs (length_eq_zero_iff.1 h2.symm)

lemma select_total (hids : ((env.listed req.instanceType).map Node.id).Nodup) (ht : ch.Total)
    (hnum : c.prioritySelectNum ≠ 0) (hres : req.res.isSome)
    (hn : n ∈ prefilterSelect c env req ctx.lastBad) (hp : PassesAll c env req n) :
    ∃ m, (select c env req ch ctx).1 = .ok (some m) := by
  unfold select
  split
  · rename_i m ms hpre
    have hnd := (drawn_prefilter (c := c) ctx.lastBad).nodup hids
    rw [hpre] at hnd hn
    have hsome : (parallelRunFilters c env req (m :: ms)).isSome := parallelRunFilters_isSome hres
    obtain ⟨l, hl⟩ := Option.isSome_iff_exists.1 hsome
    have hmem := (parallelRunFilters_eq hnd hl).2 ⟨hn, hp⟩
    unfold selectFrom
    rw [show parallelRunFilters c env req ({ ctx with result := m :: ms } : Ctx).result = some l
      from hl]
    cases l with
    | nil => cases hmem
    | cons k ks =>
      exact leastRandomSelect_total ht hnum (runScoreFilter_result_ne (cons_ne_nil _ _))
  · -- the node passes the prefilter
    rename_i hpre
    rw [hpre] at hn
    cases hn

end

/-- **The scheduler.** For a request that has not come to the random choice before, and a cache that
lists a node once: a node returned is placed as it should, and if a node read passes the prefilter
and every filter, one is returned. -/
theorem select_placed (c : Conf) (env : Env) (req : Req) (ch : Chance) (ctx : Ctx)
    (hc : ctx.Unpicked) (hids : ((env.listed req.instanceType).map Node.id).Nodup) :
    (∀ n, (select c env req ch ctx).1 = .ok (some n) → Placed c env req ctx.lastBad n) ∧
    (ch.Total → c.prioritySelectNum ≠ 0 → req.res.isSome →
      ∀ n ∈ prefilterSelect c env req ctx.lastBad, PassesAll c env req n →
        ∃ m, (select c env req ch ctx).1 = .ok (some m)) :=
  ⟨fun _ h => select_sound hc hids h,
    fun ht hnum hres _ hn hp => select_total hids ht hnum hres hn hp⟩

/-- The draws of `randomSelect` and of `BackoffSelect`, and scores in the order they came. -/
def draw (k : Nat) : Chance where
  arrange l := l
  arrange_perm _ := List.Perm.refl _
  intn := k
  next := randomNext k
  next_mem items n h := by
    unfold randomNext at h
    split at h <;> cases h
    rename_i x hx
    exact List.mem_map_of_mem (List.mem_of_getElem? hx)

lemma draw_total (k : Nat) : (draw k).Total := by
  intro items hne
  have hlt : k % items.length < items.length :=
    Nat.mod_lt _ (length_pos_of_ne_nil hne)
  refine ⟨(items.get ⟨_, hlt⟩).1, ?_⟩
  simp only [draw, randomNext, getElem?_eq_getElem hlt]
  rfl

def demoConf : Conf where
  preSelectNum := -1
  prioritySelectNum := -1
  disableCircuitFilter := false
  metricUpdateTimeout := 3600
  healthTimeout := 60
  nodeMaxCpuUtil := 80
  diskUsageMaxPercent := 80
  ignoreRedisAllocation := false
  cpuRatio _ := 1
  memRatio _ := 1
  nodeMaxMemReservedInMB := 1024
  memReserved _ := ⟨0, 0⟩
  mvmNum _ := 100
  mvmNumReservePercent _ := 1
  createConcurrentLimit := 50
  disableBackoffInstanceType := []
  enableFilters := [ascii "cpu", ascii "mem", ascii "template_locality", ascii "disk"]

def demoNode (name : Bytes) (cpuUtil : Rat) : Node where
  insID := name
  ip := ascii "10.0.0.1"
  instanceType := ascii "cubebox"
  reportedReady := true
  metaDataUpdateAt := some 990
  schedulingDisabled := false
  healthy := true
  mvmNum := 3
  maxMvmLimit := 0
  metricUpdate := 990
  metricLocalUpdateAt := 990
  quotaCpu := 8000
  quotaCpuUsage := 1000
  cpuUtil := cpuUtil
  quotaMem := 16384
  quotaMemUsage := 1024
  memMBTotal := 16384
  memUsage := 1024
  storageDiskUsagePer := 10
  sysDiskUsagePer := 10
  dataDiskUsagePer := 10
  createConcurrentNum := 50
  realTimeCreateNum := 0
  localCreateNum := 0

def demoEnv (nodes : List Node) : Env where
  now := 1000
  clusters _ := some nodes
  cache := []
  hasImage _ _ := true
  storage _ := none
  healthyMasters := 1
  scorers := []
  postScore := none

def demoReq (template : Bytes) : Req where
  instanceType := ascii "cubebox"
  res := some ⟨1000, 1073741824, template, [], false⟩
  nodeSelector := none
  backoffNodeSelector := some fun _ => true

def nodeA : Node := demoNode (ascii "node-a") 20
def nodeB : Node := demoNode (ascii "node-b") 30
def busy : Node := demoNode (ascii "node-c") 95

/-- A request from a template on two good nodes, one of which is bad for it. -/
theorem demo_placed : (select demoConf (demoEnv [nodeA, nodeB]) (demoReq (ascii "tpl")) (draw 0)
      (Ctx.new.addLastBadNode nodeA)).1 = .ok (some nodeB) ∧
    Placed demoConf (demoEnv [nodeA, nodeB]) (demoReq (ascii "tpl")) [nodeA.id] nodeB ∧
    ∃ m, (select demoConf (demoEnv [nodeA, nodeB]) (demoReq (ascii "tpl")) (draw 7)
      (Ctx.new.addLastBadNode nodeA)).1 = .ok (some m) := by
  have h : (select demoConf (demoEnv [nodeA, nodeB]) (demoReq (ascii "tpl")) (draw 0)
      (Ctx.new.addLastBadNode nodeA)).1 = .ok (some nodeB) := by decide +kernel
  have hids : (((demoEnv [nodeA, nodeB]).listed (ascii "cubebox")).map Node.id).Nodup := by
    decide +kernel
  have hpre : nodeB ∈ prefilterSelect demoConf (demoEnv [nodeA, nodeB]) (demoReq (ascii "tpl"))
      [nodeA.id] := by decide +kernel
  have hpass : PassesAll demoConf (demoEnv [nodeA, nodeB]) (demoReq (ascii "tpl")) nodeB := by
    unfold PassesAll
    decide +kernel
  refine ⟨h, ?_, ?_⟩
  · exact (select_placed demoConf (demoEnv [nodeA, nodeB]) (demoReq (ascii "tpl")) (draw 0)
      (Ctx.new.addLastBadNode nodeA) ⟨rfl, rfl⟩ hids).1 nodeB h
  exact (select_placed demoConf (demoEnv [nodeA, nodeB]) (demoReq (ascii "tpl")) (draw 7)
    (Ctx.new.addLastBadNode nodeA) ⟨rfl, rfl⟩ hids).2 (draw_total 7) (by decide) rfl nodeB hpre
    hpass

/-- **The backoff selector ignores bad nodes and filters**: a node that is bad for the request and
too busy is returned. -/
theorem backoff_returns_bad : ¬ ∀ (c : Conf) (env : Env) (req : Req) (ch : Chance) (ctx : Ctx)
    (n : Node), ctx.Unpicked → (select c env req ch ctx).1 = .ok (some n) →
      n.id ∉ ctx.lastBad ∧ PassesAll c env req n := by
  intro h
  have hs : (select demoConf (demoEnv [busy]) (demoReq []) (draw 0)
      (Ctx.new.addLastBadNode busy)).1 = .ok (some busy) := by decide +kernel
  have := (h demoConf (demoEnv [busy]) (demoReq []) (draw 0) (Ctx.new.addLastBadNode busy) busy
    ⟨rfl, rfl⟩ hs).1
  exact this mem_cons_self

/-- **The random choice is never cleared**: a node given to it in one call can be drawn in the next,
although it has become bad and another node passes everything. -/
lemma bad_node_drawn_again :
    let env := demoEnv [nodeA, nodeB]
    let req := demoReq (ascii "tpl")
    let ctx := (select demoConf env req (draw 0) Ctx.new).2.addLastBadNode nodeA
    nodeA.id ∈ ctx.lastBad ∧ prefilterSelect demoConf env req ctx.lastBad = [nodeB] ∧
      (select demoConf env req (draw 0) ctx).1 = .ok (some nodeA) := by
  decide +kernel

end CubeSandbox.Scheduler
