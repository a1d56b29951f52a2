import CubeSandbox.GoText
import CubeSandbox.Runs

/-!
The creation of a sandbox in CubeMaster (`pkg/service/sandbox/sandbox_run.go`).

`Handle` asks Cubelets one after another until one of them makes the sandbox, and `Wait` answers
the request when `Handle` is done or the context of the request has ended. The two run side by
side and share the response. A sandbox that was made for a request that is answered with an
error is destroyed by `failover`.
-/

namespace CubeSandbox.CreateFailover

open GoText Option Runs

def success : Int := 200
def unknown : Int := -1
def reqCubeAPIFailed : Int := 130595
def clientCancel : Int := 130499
def dbError : Int := 130594
def masterInternalError : Int := 130593
def selectNodesNoRes : Int := 130597
def selectNodesFailed : Int := 130598

structure Host where
  id : Bytes
  ip : Bytes

/-- A sandbox: the address of its host, and its id there. -/
abbrev Sandbox := Bytes × Bytes

/-- The classes of return codes, the limits of retries, and whether the type is `cubebox`. -/
structure Conf where
  excludes : Int → Bool
  reuse : Int → Bool
  loopRetry : Int → Bool
  circuitBreak : Int → Bool
  maxRetry : Int
  loopMaxRetry : Int
  cubebox : Bool

/-- Where `Handle` is: at the top of its loop, before the admission of the host, in the call of
Cubelet, in `dealSuccResult` before and in the write for the proxy, behind `handleCubelet`, before
`failover`, at its end. -/
inductive Phase
  | loop | admission | call | proxy | redis | fin | closed | ended
  deriving DecidableEq

structure CubeletRsp where
  retCode : Int
  sandboxID : Bytes

/-- What the caller gets to see of the response. -/
structure Answer where
  retCode : Int
  sandbox : Sandbox
  deriving DecidableEq

/-- `createSandboxContext`, the sandboxes made for the request and the destroys queued for it. The
code is set once; `sandbox` is the `HostIP` and `SandboxID` of the response. -/
structure Ctx where
  phase : Phase
  directHost : Bool
  selectHost : Option Host
  reschedule : Bool
  loopRetry : Bool
  retryTimes : Int
  badNodes : List Bytes
  cubeletRsp : CubeletRsp
  retCode : Option Int
  sandbox : Sandbox
  /-- the context has ended, by a cancellation or not -/
  ctxDone : Option Bool
  waited : Bool
  answer : Option Answer
  created : List Sandbox
  destroys : List Sandbox

namespace Ctx

/-- `newContext`, with a host if the request names one. -/
def new (direct : Option Host) : Ctx where
  phase := .loop
  directHost := direct.isSome
  selectHost := direct
  reschedule := true
  loopRetry := false
  retryTimes := 0
  badNodes := []
  cubeletRsp := ⟨unknown, []⟩
  retCode := none
  sandbox := ([], [])
  ctxDone := none
  waited := false
  answer := none
  created := []
  destroys := []

def setMasterRsp (s : Ctx) (code : Int) : Ctx := { s with retCode := s.retCode.or (some code) }

def hostIP (s : Ctx) : Bytes := (s.selectHost.map Host.ip).getD []

def addLastBadNode (s : Ctx) : Ctx :=
  { s with badNodes := (s.selectHost.map Host.id).toList ++ s.badNodes }

end Ctx

/-- An error without a reply, or a reply; in both cases a sandbox may have been made. -/
inductive CallResult
  | lost (made : Option Bytes)
  | reply (retCode : Int) (sandboxID : Bytes) (made : Bool)

def CallResult.made : CallResult → Option Bytes
  | .lost m => m
  | .reply _ sid m => if m then some sid else none

/-- A sandbox has an id, and a reply of success is one for a sandbox. -/
def CallResult.possible : CallResult → Bool
  | .lost m => m ≠ some []
  | .reply code sid m => (!m || sid ≠ []) && (code ≠ success || m)

section Steps

variable (conf : Conf)

/-- `schedule`; `none` is no resource. -/
def schedule (s : Ctx) (pick : Except Int (Option Host)) : Except Int Ctx :=
  if s.directHost || !s.reschedule then .ok s
  else match pick with
    | .error code => .error code
    | .ok none => .error selectNodesNoRes
    | .ok (some h) => .ok { s with selectHost := some h }

/-- The loop up to the admission. -/
def loopTop (s : Ctx) (pick : Except Int (Option Host)) : Ctx :=
  if s.ctxDone.isSome then { s with phase := .fin }
  else match schedule s pick with
    | .error code => { s.setMasterRsp code with phase := .fin }
    | .ok s =>
      if s.hostIP = [] then { s.setMasterRsp dbError with phase := .fin }
      else { s with phase := .admission }

/-- The admission of the host: it is looked up again, and may be gone or cordoned. -/
def refreshAndAdmitHost (s : Ctx) : Option Host → Ctx
  | some current => { s with selectHost := some current, phase := .call }
  | none =>
    if s.directHost then { s.setMasterRsp selectNodesFailed with phase := .fin }
    else { s.addLastBadNode with reschedule := true, phase := .loop }

def errRetry (s : Ctx) : Ctx :=
  { s with cubeletRsp := ⟨reqCubeAPIFailed, []⟩, reschedule := true }

/-- `errorCodeRetry` from its second test on: a code of both kinds gets both kinds of retries. -/
def loopCodeRetry (s : Ctx) : Bool × Ctx :=
  if conf.loopRetry s.cubeletRsp.retCode then
    (decide (s.retryTimes ≤ conf.loopMaxRetry), { s with loopRetry := true, reschedule := true })
  else (false, s)

def errorCodeRetry (s : Ctx) : Bool × Ctx :=
  if s.cubeletRsp.retCode = success then (false, s)
  else if conf.excludes s.cubeletRsp.retCode then
    (false, { s with loopRetry := false, reschedule := false })
  else if conf.reuse s.cubeletRsp.retCode then
    if s.retryTimes ≤ conf.maxRetry then (true, { s with loopRetry := false, reschedule := false })
    else loopCodeRetry conf { s with loopRetry := false, reschedule := false }
  else loopCodeRetry conf s

/-- `callCubelet` and what `handleCubelet` does with its result. -/
def afterCall (r : Bool × Ctx) : Ctx :=
  if r.1 then
    let s := { r.2 with retryTimes := r.2.retryTimes + 1, phase := .loop }
    if conf.circuitBreak s.cubeletRsp.retCode then s.addLastBadNode else s
  else if r.2.cubeletRsp.retCode = success then
    { r.2 with sandbox := (r.2.hostIP, r.2.cubeletRsp.sandboxID), phase := .proxy }
  else { r.2 with phase := .fin }

def callCubelet (s : Ctx) (r : CallResult) : Ctx :=
  let s := { s with created := (r.made.map fun sid => (s.hostIP, sid)).toList ++ s.created }
  match r with
  | .lost _ => afterCall conf (true, errRetry s)
  | .reply code sid _ => afterCall conf (errorCodeRetry conf { s with cubeletRsp := ⟨code, sid⟩ })

/-- `setProxyToRedis` looks first whether the request has failed meanwhile. -/
def setProxyToRedis (s : Ctx) : Ctx :=
  if (s.retCode.isSome && s.retCode ≠ some success) || !conf.cubebox then
    { s.setMasterRsp s.cubeletRsp.retCode with phase := .fin }
  else { s with phase := .redis }

def failover (s : Ctx) (pushed : Bool) : Ctx :=
  if s.retCode ≠ some success && s.sandbox.2 ≠ [] && pushed then
    { s with phase := .ended, destroys := (s.hostIP, s.cubeletRsp.sandboxID) :: s.destroys }
  else { s with phase := .ended }

inductive Event
  | expire (cancelled : Bool)
  | loopTop (pick : Except Int (Option Host))
  | admission (current : Option Host)
  | call (r : CallResult)
  | proxy
  | redis (ok : Bool)
  | fin
  | failover (pushed : Bool)
  | waitDone
  | waitCtx
  | answer

/-- Whether `c.done` is closed. -/
def Ctx.done (s : Ctx) : Bool := s.phase = .closed || s.phase = .ended

def Event.enabled (s : Ctx) : Event → Bool
  | .expire _ => s.ctxDone.isNone
  | .loopTop _ => s.phase = .loop
  | .admission _ => s.phase = .admission
  | .call r => s.phase = .call && r.possible
  | .proxy => s.phase = .proxy
  | .redis _ => s.phase = .redis
  | .fin => s.phase = .fin
  | .failover _ => s.phase = .closed
  | .waitDone => !s.waited && s.done
  | .waitCtx => !s.waited && s.ctxDone.isSome
  | .answer => s.waited && s.answer.isNone

def effect (s : Ctx) : Event → Ctx
  | .expire cancelled => { s with ctxDone := some cancelled }
  | .loopTop pick => loopTop s pick
  | .admission current => refreshAndAdmitHost s current
  | .call r => callCubelet conf s r
  | .proxy => setProxyToRedis conf s
  | .redis ok =>
    { s.setMasterRsp (if ok then s.cubeletRsp.retCode else dbError) with phase := .fin }
  | .fin => { s.setMasterRsp s.cubeletRsp.retCode with phase := .closed }
  | .failover pushed => failover s pushed
  | .waitDone => { s with waited := true, ctxDone := s.ctxDone.or (some true) }
  | .waitCtx =>
    { s.setMasterRsp (if s.ctxDone = some true then clientCancel else reqCubeAPIFailed) with
      waited := true }
  | .answer =>
    { s with answer := some ⟨s.retCode.getD masterInternalError, s.sandbox⟩ }

def step (s : Ctx) (e : Event) : Option Ctx :=
  if e.enabled s then some (effect conf s e) else none

end Steps

/-- The sandbox that a request is answered with. -/
def Ctx.Returned (s : Ctx) (b : Sandbox) : Prop := s.answer = some ⟨success, b⟩

/-- **No orphans**: each sandbox made for an answered request is the one returned or has a destroy
queued, but for the one that `failover` has yet to queue. One sandbox is returned. -/
structure NoOrphan (s : Ctx) : Prop where
  cared : s.answer.isSome = true → ∀ b ∈ s.created,
    s.Returned b ∨ b ∈ s.destroys ∨ (s.phase ≠ .ended ∧ b = s.sandbox)
  one : ∀ b b', s.Returned b → s.Returned b' → b = b'

/-- A call delivers its success or makes no sandbox, and the queue takes what it is given. -/
def Delivered (_ : Ctx) : Event → Prop
  | .call r => r.made = none ∨ ∃ sid, r = .reply success sid true
  | .failover pushed => pushed = true
  | _ => True

/-- The phases in which no sandbox has been made. -/
def Phase.early (p : Phase) : Bool := p = .loop || p = .admission || p = .call

/-- The phases in which success has not been put into the response. -/
def Phase.unset (p : Phase) : Bool := p.early || p = .proxy || p = .redis

/-- The response names the sandbox, and so does the last reply of a Cubelet. -/
structure Holds (s : Ctx) (b : Sandbox) : Prop where
  created : s.created = [b]
  named : b.2 ≠ []
  sandbox : s.sandbox = b
  rsp : s.cubeletRsp.sandboxID = b.2
  host : s.hostIP = b.1
  ended : s.phase = .ended → s.retCode = some success ∨ b ∈ s.destroys
  shown : ∀ a, s.answer = some a → a.retCode = success → a.sandbox = b

structure Inv (s : Ctx) : Prop where
  early : s.phase.early = true → s.created = []
  unset : s.phase.unset = true → s.retCode ≠ some success
  done : s.done = true → s.retCode ≠ none
  waited : s.waited = true → s.retCode ≠ none
  code : ∀ a, s.answer = some a → s.retCode = some a.retCode
  held : s.created = [] ∨ ∃ b, Holds s b

section Proofs

variable {conf : Conf} {s : Ctx}

@[simp] lemma setMasterRsp_ne_none (code : Int) : (s.setMasterRsp code).retCode ≠ none := by
  cases h : s.retCode <;> simp [Ctx.setMasterRsp, h]

lemma setMasterRsp_of_some {c : Int} (h : s.retCode = some c) (code : Int) :
    s.setMasterRsp code = s := by
  cases s
  simp_all [Ctx.setMasterRsp]

lemma setMasterRsp_ne {code : Int} (h : s.retCode ≠ some success) (hc : code ≠ success) :
    (s.setMasterRsp code).retCode ≠ some success := by
  cases hs : s.retCode <;> simp_all [Ctx.setMasterRsp]

section

variable (h : Inv s)
include h

lemma Inv.code_set (code : Int) (a : Answer) (ha : s.answer = some a) :
    (s.setMasterRsp code).retCode = some a.retCode := by
  rw [setMasterRsp_of_some (h.code a ha), h.code a ha]

lemma Inv.unmade_of (hp : s.phase.early = true) :
    s.created = [] ∧ s.retCode ≠ some success := ⟨h.early hp, h.unset (by simp [Phase.unset, hp])⟩

/-- While no sandbox has been made, `Handle` may do anything else. -/
lemma Inv.early_step {s' : Ctx} (hn : s'.created = []) (hr : s'.retCode = s.retCode)
    (hw : s'.waited = s.waited) (ha : s'.answer = s.answer) (hp : s'.done = false)
    (hs : s.retCode ≠ some success) : Inv s' where
  early _ := hn
  unset _ := by rwa [hr]
  done hd := by simp [hp] at hd
  waited hw' := by
    rw [hr]
    exact h.waited (hw ▸ hw')
  code a ha' := by
    rw [hr]
    exact h.code a (ha ▸ ha')
  held := .inl hn

/-- The response gets its code, and `Handle` goes on to its end. -/
lemma Inv.settle (code : Int) {p : Phase} (hp : p = .fin ∨ p = .closed) :
    Inv { s.setMasterRsp code with phase := p } where
  early he := by rcases hp with rfl | rfl <;> simp [Phase.early] at he
  unset hu := by rcases hp with rfl | rfl <;> simp [Phase.unset, Phase.early] at hu
  done _ := setMasterRsp_ne_none code
  waited _ := setMasterRsp_ne_none code
  code := h.code_set code
  held := by
    refine h.held.imp_right fun ⟨b, hb⟩ => ⟨b, { hb with ended := fun he => ?_ }⟩
    rcases hp with rfl | rfl <;> cases he

lemma Inv.loopTop (hp : s.phase = .loop) (pick : Except Int (Option Host)) :
    Inv (loopTop s pick) := by
  obtain ⟨hn, hs⟩ := h.unmade_of (by simp [hp, Phase.early])
  have hsched : ∀ s1, schedule s pick = .ok s1 → Inv s1 ∧ s1.created = [] ∧
      s1.retCode ≠ some success := by
    intro s1 h1
    unfold schedule at h1
    split at h1
    · cases h1
      exact ⟨h, hn, hs⟩
    · split at h1 <;> cases h1
      exact ⟨h.early_step hn rfl rfl rfl (by simp [Ctx.done, hp]) hs, hn, hs⟩
  unfold CreateFailover.loopTop
  split_ifs
  · exact ⟨fun _ => hn, fun _ => hs, fun hd => by simp [Ctx.done] at hd, h.waited, h.code, .inl hn⟩
  split
  · exact h.settle _ (.inl rfl)
  rename_i s1 h1
  obtain ⟨hi, hn1, hs1⟩ := hsched s1 h1
  split_ifs
  · exact hi.settle _ (.inl rfl)
  · exact hi.early_step hn1 rfl rfl rfl (by simp [Ctx.done]) hs1

lemma Inv.admission (hp : s.phase = .admission) (current : Option Host) :
    Inv (refreshAndAdmitHost s current) := by
  obtain ⟨hn, hs⟩ := h.unmade_of (by simp [hp, Phase.early])
  cases current with
  | some host => exact h.early_step hn rfl rfl rfl (by simp [refreshAndAdmitHost, Ctx.done]) hs
  | none =>
    unfold refreshAndAdmitHost
    simp only
    split_ifs
    · exact h.settle _ (.inl rfl)
    · exact h.early_step hn rfl rfl rfl (by simp [Ctx.done]) hs

end

/-- What `errorCodeRetry` changes. -/
lemma errorCodeRetry_eq (conf : Conf) (s : Ctx) : ∃ retry l r,
    errorCodeRetry conf s = (retry, { s with loopRetry := l, reschedule := r }) := by
  unfold errorCodeRetry loopCodeRetry
  split_ifs
  all_goals exact ⟨_, _, _, rfl⟩

section

variable (h : Inv s)
include h

lemma Inv.unmade (hp : s.phase = .call) {retry : Bool} {s1 : Ctx}
    (hn : s1.created = []) (hr : s1.retCode = s.retCode) (hw : s1.waited = s.waited)
    (ha : s1.answer = s.answer) (hd : s1.phase = .call)
    (hc : retry = true ∨ s1.cubeletRsp.retCode ≠ success) : Inv (afterCall conf (retry, s1)) := by
  have hs : s.retCode ≠ some success := h.unset (by simp [hp, Phase.unset, Phase.early])
  unfold afterCall
  simp only
  split_ifs with h1 h2 h3
  · exact h.early_step hn hr hw ha (by simp [Ctx.done, Ctx.addLastBadNode]) hs
  · exact h.early_step hn hr hw ha (by simp [Ctx.done]) hs
  · exact absurd h3 (hc.resolve_left h1)
  have hi : Inv s1 := h.early_step hn hr hw ha (by simp [Ctx.done, hd]) hs
  exact ⟨fun _ => hn, fun hu => by simp [Phase.unset, Phase.early] at hu,
    fun hd => by simp [Ctx.done] at hd, hi.waited, hi.code, .inl hn⟩

lemma Inv.made (hp : s.phase = .call) {sid : Bytes} (hsid : sid ≠ []) :
    Inv (callCubelet conf s (.reply success sid true)) := by
  obtain ⟨hn, hs⟩ := h.unmade_of (by simp [hp, Phase.early])
  simp only [callCubelet, errorCodeRetry, afterCall, if_true, Bool.false_eq_true, if_false]
  refine ⟨fun he => by simp [Phase.early] at he, fun _ => hs, fun hd => by simp [Ctx.done] at hd,
    h.waited, h.code, .inr ⟨(s.hostIP, sid), ?_, hsid, rfl, rfl, rfl, nofun, ?_⟩⟩
  · simp [CallResult.made, hn]
  intro a ha hcode
  have hret := h.code a ha
  rw [hcode] at hret
  exact absurd hret hs

lemma Inv.call (hp : s.phase = .call) {r : CallResult} (hpos : r.possible = true)
    (hr : r.made = none ∨ ∃ sid, r = .reply success sid true) : Inv (callCubelet conf s r) := by
  have hn : s.created = [] := h.early (by simp [hp, Phase.early])
  obtain hnone | ⟨sid, rfl⟩ := hr
  · cases r with
    | lost m =>
      obtain rfl : m = none := hnone
      exact h.unmade hp hn rfl rfl rfl hp (.inl rfl)
    | reply code sid m =>
      obtain rfl : m = false := by
        cases m with
        | false => rfl
        | true => cases hnone
      have hcode : code ≠ success := by simpa [CallResult.possible] using hpos
      unfold callCubelet
      simp only
      obtain ⟨retry, l, r, heq⟩ := errorCodeRetry_eq conf
        { s with created := [] ++ s.created, cubeletRsp := ⟨code, sid⟩ }
      change Inv (afterCall conf (errorCodeRetry conf
        { s with created := [] ++ s.created, cubeletRsp := ⟨code, sid⟩ }))
      rw [heq]
      exact h.unmade hp hn rfl rfl rfl hp (.inr hcode)
  · exact h.made hp (by simpa [CallResult.possible] using hpos)

lemma Inv.setProxyToRedis (hp : s.phase = .proxy) : Inv (setProxyToRedis conf s) := by
  unfold CreateFailover.setProxyToRedis
  split_ifs
  · exact h.settle _ (.inl rfl)
  refine ⟨fun he => by simp [Phase.early] at he, fun _ => h.unset (by simp [hp, Phase.unset]),
    fun hd => by simp [Ctx.done] at hd, h.waited, h.code, h.held.imp_right ?_⟩
  rintro ⟨b, hb⟩
  exact ⟨b, { hb with ended := nofun }⟩

lemma Inv.failover (hp : s.phase = .closed) : Inv (failover s true) := by
  have hdone := h.done (by simp [Ctx.done, hp])
  have hphase : (CreateFailover.failover s true).phase = .ended := by
    simp only [CreateFailover.failover]
    split_ifs <;> rfl
  have hsame : (CreateFailover.failover s true).retCode = s.retCode ∧
      (CreateFailover.failover s true).waited = s.waited ∧
      (CreateFailover.failover s true).answer = s.answer ∧
      (CreateFailover.failover s true).created = s.created := by
    simp only [CreateFailover.failover]
    split_ifs <;> exact ⟨rfl, rfl, rfl, rfl⟩
  obtain ⟨hret, hwait, hans, hcr⟩ := hsame
  refine ⟨fun he => by simp [hphase, Phase.early] at he,
    fun hu => by simp [hphase, Phase.unset, Phase.early] at hu, fun _ => by rwa [hret],
    fun _ => by rwa [hret], fun a ha => ?_, ?_⟩
  · rw [hret]
    exact h.code a (hans ▸ ha)
  rw [hcr]
  refine h.held.imp_right fun ⟨b, hb⟩ => ⟨b, ?_⟩
  simp only [CreateFailover.failover]
  split_ifs with hc
  · refine { hb with ended := fun _ => .inr ?_ }
    rw [hb.host, hb.rsp]
    exact List.mem_cons_self
  refine { hb with ended := fun _ => .inl ?_ }
  -- the response names a sandbox, so that only success is left
  have hname : s.sandbox.2 ≠ [] := by
    rw [hb.sandbox]
    exact hb.named
  by_contra hne
  exact hc (by simp [hne, hname])

/-- `Wait` gives up, while `Handle` goes on. -/
lemma Inv.waitCtx {code : Int} (hc : code ≠ success) :
    Inv { s.setMasterRsp code with waited := true } where
  early := h.early
  unset hu := setMasterRsp_ne (h.unset hu) hc
  done _ := setMasterRsp_ne_none code
  waited _ := setMasterRsp_ne_none code
  code := h.code_set code
  held := by
    refine h.held.imp_right fun ⟨b, hb⟩ => ⟨b, { hb with ended := fun he => ?_ }⟩
    have hphase : s.phase = .ended := he
    obtain ⟨c, hret⟩ := ne_none_iff_exists'.1 (h.done (by simp [Ctx.done, hphase]))
    rw [setMasterRsp_of_some hret]
    exact hb.ended he

lemma Inv.reply (hw : s.waited = true) :
    Inv { s with answer := some ⟨s.retCode.getD masterInternalError, s.sandbox⟩ } := by
  refine { h with
    code := fun a ha => ?_
    held := h.held.imp_right fun ⟨b, hb⟩ => ⟨b, { hb with shown := fun a ha _ => ?_ }⟩ }
  · obtain ⟨c, hret⟩ := ne_none_iff_exists'.1 (h.waited hw)
    cases ha
    simp [hret]
  · cases ha
    exact hb.sandbox

lemma inv_step {e : Event} {s' : Ctx} (hok : Delivered s e)
    (hstep : step conf s e = some s') : Inv s' := by
  unfold step at hstep
  split_ifs at hstep with hen
  cases hstep
  cases e with
  | expire cancelled =>
    exact { h with held := h.held.imp_right fun ⟨b, hb⟩ => ⟨b, { hb with }⟩ }
  | loopTop pick => exact h.loopTop (by simpa [Event.enabled] using hen) pick
  | admission current => exact h.admission (by simpa [Event.enabled] using hen) current
  | call r =>
    simp only [Event.enabled, Bool.and_eq_true, decide_eq_true_eq] at hen
    exact h.call hen.1 hen.2 hok
  | proxy => exact h.setProxyToRedis (by simpa [Event.enabled] using hen)
  | redis ok => exact h.settle _ (.inl rfl)
  | fin => exact h.settle _ (.inr rfl)
  | failover pushed =>
    obtain rfl : pushed = true := hok
    exact h.failover (by simpa [Event.enabled] using hen)
  | waitDone =>
    simp only [Event.enabled, Bool.and_eq_true] at hen
    exact { h with
      waited := fun _ => h.done hen.2
      held := h.held.imp_right fun ⟨b, hb⟩ => ⟨b, { hb with }⟩ }
  | waitCtx =>
    refine h.waitCtx ?_
    split_ifs <;> decide
  | answer =>
    simp only [Event.enabled, Bool.and_eq_true] at hen
    exact h.reply hen.1

end

lemma inv_new (direct : Option Host) : Inv (Ctx.new direct) :=
  ⟨fun _ => rfl, fun _ => nofun, nofun, nofun, nofun, .inl rfl⟩

lemma Inv.noOrphan (h : Inv s) : NoOrphan s where
  cared hans b hb := by
    obtain hnone | ⟨b', hb'⟩ := h.held
    · simp [hnone] at hb
    obtain rfl : b = b' := by simpa [hb'.created] using hb
    obtain ⟨a, ha⟩ := isSome_iff_exists.1 hans
    by_cases hend : s.phase = .ended
    · refine (hb'.ended hend).imp (fun hret => ?_) .inl
      have hcode : a.retCode = success := some.inj ((h.code a ha).symm.trans hret)
      rw [Ctx.Returned, ha, ← hcode, ← hb'.shown a ha hcode]
    · exact .inr (.inr ⟨hend, hb'.sandbox.symm⟩)
  one b b' hb hb' := by
    rw [Ctx.Returned] at hb hb'
    rw [hb] at hb'
    cases hb'
    rfl

/-- **No sandbox is left behind** if calls deliver their successes or make nothing. -/
theorem create_no_orphan (conf : Conf) (direct : Option Host) (es : List Event) (s : Ctx)
    (hm : Runs.Meets (step conf) Delivered (Ctx.new direct) es)
    (h : exec (step conf) (Ctx.new direct) es = some s) : NoOrphan s :=
  (exec_inv (fun _ _ _ hi hok hs => inv_step hi hok hs) (inv_new direct) hm h).noOrphan

end Proofs

section Demo

instance (s : Ctx) : ∀ e, Decidable (Delivered s e)
  | .call (.lost m) => decidable_of_iff (m = none) (by simp [Delivered, CallResult.made])
  | .call (.reply code sid made) => decidable_of_iff (made = false ∨ code = success) (by
      cases made <;> simp [Delivered, CallResult.made])
  | .failover pushed => inferInstanceAs (Decidable (pushed = true))
  | .expire _ => .isTrue trivial
  | .loopTop _ => .isTrue trivial
  | .admission _ => .isTrue trivial
  | .proxy => .isTrue trivial
  | .redis _ => .isTrue trivial
  | .fin => .isTrue trivial
  | .waitDone => .isTrue trivial
  | .waitCtx => .isTrue trivial
  | .answer => .isTrue trivial

/-- Codes from 500 on are tried again on another host. -/
def demoConf : Conf where
  excludes _ := false
  reuse _ := false
  loopRetry code := 500 ≤ code
  circuitBreak _ := false
  maxRetry := 1
  loopMaxRetry := 3
  cubebox := true

def hostA : Host := ⟨ascii "a", ascii "10.0.0.1"⟩
def hostB : Host := ⟨ascii "b", ascii "10.0.0.2"⟩

/-- Go to a host and call its Cubelet. -/
def attempt (h : Host) (r : CallResult) : List Event :=
  [.loopTop (.ok (some h)), .admission (some h), .call r]

/-- A refused attempt, a success whose entry for the proxy cannot be written, and its end. -/
def undone : List Event :=
  attempt hostA (.reply 500 [] false) ++ attempt hostB (.reply success (ascii "s") true) ++
    [.proxy, .redis false, .fin, .waitDone, .answer, .failover true]

/-- **The condition is met** by a run in which the sandbox has to be destroyed. -/
theorem undone_no_orphan : ∃ s, exec (step demoConf) (Ctx.new none) undone = some s ∧
    s.created = [(hostB.ip, ascii "s")] ∧ NoOrphan s := by
  refine leads Ctx.created [(hostB.ip, ascii "s")] (by decide +kernel) fun s hs hcreated => ?_
  exact ⟨hcreated, create_no_orphan demoConf none undone s (by decide +kernel) hs⟩

/-- The reply to the first call is lost, the second one succeeds on another host. -/
def lostReply : List Event :=
  attempt hostA (.lost (some (ascii "r"))) ++ attempt hostB (.reply success (ascii "s") true) ++
    [.proxy, .redis true, .fin, .waitDone, .answer, .failover true]

/-- A Cubelet makes the sandbox and then replies with an error that names it. -/
def failedAfter : List Event :=
  attempt hostA (.reply 400 (ascii "r") true) ++ [.fin, .waitDone, .answer, .failover true]

def notQueued : List Event :=
  attempt hostA (.reply success (ascii "r") true) ++
    [.proxy, .redis false, .fin, .waitDone, .answer, .failover false]

/-- Whether `Handle` has ended, the answer, the sandboxes made and those to be destroyed. -/
structure Facts where
  ended : Bool
  answer : Option Answer
  created : List Sandbox
  destroys : List Sandbox
  deriving DecidableEq

def facts (s : Ctx) : Facts := ⟨s.phase = .ended, s.answer, s.created, s.destroys⟩

lemma orphan_facts : [lostReply, failedAfter, notQueued].map
      (fun es => (exec (step demoConf) (Ctx.new none) es).map facts) =
    [some ⟨true, some ⟨success, (hostB.ip, ascii "s")⟩,
        [(hostB.ip, ascii "s"), (hostA.ip, ascii "r")], []⟩,
      some ⟨true, some ⟨400, ([], [])⟩, [(hostA.ip, ascii "r")], []⟩,
      some ⟨true, some ⟨dbError, (hostA.ip, ascii "r")⟩, [(hostA.ip, ascii "r")], []⟩] := by
  decide +kernel

/-- **A lost reply leaves a sandbox behind.** -/
theorem lost_reply_orphan : ¬ ∀ (conf : Conf) (direct : Option Host) (es : List Event) (s : Ctx),
    exec (step conf) (Ctx.new direct) es = some s → NoOrphan s := by
  intro hall
  obtain ⟨s, hs, hfacts⟩ := map_eq_some_iff.1 (List.cons.inj orphan_facts).1
  simp only [facts, Facts.mk.injEq, decide_eq_true_eq] at hfacts
  obtain ⟨hphase, hans, hcreated, hdestroys⟩ := hfacts
  have hcared := (hall demoConf none lostReply s hs).cared (by simp [hans])
    (hostA.ip, ascii "r") (by simp [hcreated])
  rw [Ctx.Returned, hans, hphase, hdestroys] at hcared
  obtain hret | hq | hrun := hcared
  · exact absurd hret (by decide)
  · cases hq
  · exact hrun.1 rfl

end Demo

end CubeSandbox.CreateFailover
