import CubeSandbox.DnsParse
import CubeSandbox.PolModel

/-!
The egress rules of a sandbox on their three ways: the targets that the network agent takes out
of them for cubevs (`local_service.go`), the policy that it renders for CubeEgress
(`cubeegress_push.go`, `wire.go`), and how CubeEgress checks it and compares names (`policy.lua`,
`access_phase.lua`).
-/

namespace CubeSandbox.Egress

open GoText Pol

structure EgressRuleMatch where
  sni : Option Bytes := none
  host : Option Bytes := none
  method : List Bytes := []
  path : Option Bytes := none
  scheme : Option Bytes := none

structure EgressRuleInject where
  header : Bytes
  secret : Bytes
  format : Option Bytes
  deriving DecidableEq

structure EgressRuleAction where
  allow : Bool
  audit : Option Bytes
  inject : List (Option EgressRuleInject)

structure EgressRule where
  name : Bytes
  match' : Option EgressRuleMatch
  action : Option EgressRuleAction

/-! ### Targets for cubevs -/

def isValidL7DomainName (domain : Bytes) : Bool :=
  if domain = [] ∨ domain.length ≥ 254 then false
  else if domain.contains 42 then
    if domain.count 42 ≠ 1 ∨ domain.take 2 ≠ [42, 46] ∨ domain.length ≤ 2 then false
    else isValidDnsDomainName (domain.drop 2)
  else isValidDnsDomainName domain

def normalizeL7DomainTarget (raw : Bytes) : Option Bytes :=
  let domain := toLower (trimSuffix (trimSpace raw) 46)
  if isDottedDecimalLikeTarget domain || !isValidL7DomainName domain then none else some domain

/-- The host of a pattern, without the port that may follow it. -/
def hostPart (target : Bytes) : Bytes := ((splitHostPort target).map (·.1)).getD target

def normalizeL7HostTarget (raw : Bytes) : Option Bytes :=
  if trimSpace raw = [] then none
  else
    let target := hostPart (trimSpace raw)
    match parseIP target with
    | some ip => (to4 ip).map ipString
    | none =>
      if target.contains 47 then
        match parseCIDR target with
        | some (ip, ipNet) => if (to4 ip.as16).isSome then some (ipNetString ipNet) else none
        | none => none
      else if isDottedDecimalLikeTarget target then none
      else normalizeL7DomainTarget target

def ruleTargets (rule : EgressRule) : List Bytes :=
  match rule.match' with
  | none => []
  | some m =>
    (m.sni.bind normalizeL7DomainTarget).toList ++ (m.host.bind normalizeL7HostTarget).toList

/-- Each target once, in the order of the rules. -/
def extractL7AllowOutTargetsFromRules (rules : List (Option EgressRule)) : List Bytes :=
  ((rules.filterMap id).flatMap ruleTargets).foldl
    (fun targets target => if target ∈ targets then targets else targets ++ [target]) []

def nonEmptyList (l : List Bytes) : Option (List Bytes) := if l = [] then none else some l

/-! ### The policy for CubeEgress -/

structure ActionInput where
  allow : Bool
  audit : Option Bytes
  inject : List EgressRuleInject

structure RuleInput where
  name : Bytes
  match' : Option EgressRuleMatch
  action : Option ActionInput

def toActionInput (a : EgressRuleAction) : ActionInput := ⟨a.allow, a.audit, a.inject.filterMap id⟩

/-- None if there is no rule to push. -/
def toEgressInput (rules : List (Option EgressRule)) : Option (List RuleInput) :=
  let rules := (rules.filterMap id).map fun r => ⟨r.name, r.match', r.action.map toActionInput⟩
  if rules = [] then none else some rules

structure WireMatch where
  sni : Option Bytes
  host : Option Bytes
  method : Option (List Bytes)
  path : Option Bytes
  scheme : Option Bytes
  deriving DecidableEq

structure WireAction where
  allow : Bool
  audit : Option Bytes
  inject : Option (List EgressRuleInject)
  deriving DecidableEq

structure WireRule where
  id : Bytes
  match' : WireMatch
  action : WireAction

structure WirePolicy where
  policyId : Bytes
  rules : List WireRule

def renderMatch : Option EgressRuleMatch → WireMatch
  | none => ⟨none, none, none, none, none⟩
  | some m => ⟨m.sni, m.host, nonEmptyList m.method, m.path, m.scheme⟩

/-- A rule without an action denies. -/
def renderAction : Option ActionInput → WireAction
  | none => ⟨false, none, none⟩
  | some a => ⟨a.allow, a.audit, if a.inject = [] then none else some a.inject⟩

def renderRule (r : RuleInput) : WireRule := ⟨r.name, renderMatch r.match', renderAction r.action⟩

def buildPolicyBody (sandboxId : Bytes) : Option (List RuleInput) → Option WirePolicy
  | none => none
  | some rules => if rules = [] then none else some ⟨sandboxId, rules.map renderRule⟩

/-- The strings of a policy, one by one. -/
def WirePolicy.mapText (f : Bytes → Bytes) (p : WirePolicy) : WirePolicy where
  policyId := f p.policyId
  rules := p.rules.map fun r =>
    { id := f r.id
      match' :=
        { sni := r.match'.sni.map f
          host := r.match'.host.map f
          method := r.match'.method.map (·.map f)
          path := r.match'.path.map f
          scheme := r.match'.scheme.map f }
      action :=
        { allow := r.action.allow
          audit := r.action.audit.map f
          inject := r.action.inject.map (·.map fun i =>
            ⟨f i.header, f i.secret, i.format.map f⟩) } }

/-- `RenderEgressPolicy`, as CubeEgress decodes it. -/
def renderEgressPolicy (sandboxId : Bytes) (input : Option (List RuleInput)) : Option WirePolicy :=
  (buildPolicyBody sandboxId input).map (WirePolicy.mapText jsonText)

/-! ### CubeEgress -/

inductive PolicyErr
  | policyIdRequired
  | noRules
  | ruleIdRequired (i : Nat)
  | ruleIdDuplicate (i : Nat) (id : Bytes)
  | headerRequired (i j : Nat)
  | secretRequired (i j : Nat)
  | secretTooLong (i j : Nat)
  | badAudit (i : Nat)

def secretMaxBytes : Nat := 65536

def validateInjects (i : Nat) : Nat → List EgressRuleInject → Except PolicyErr Unit
  | _, [] => .ok ()
  | j, inj :: rest =>
    if inj.header = [] then .error (.headerRequired i j)
    else if inj.secret = [] then .error (.secretRequired i j)
    else if inj.secret.length > secretMaxBytes then .error (.secretTooLong i j)
    else validateInjects i (j + 1) rest

/-- The checks of rule `i`; what depends on the type of a field holds of what is rendered. -/
def validateRule (seen : List Bytes) (i : Nat) (r : WireRule) : Except PolicyErr Unit :=
  if r.id = [] then .error (.ruleIdRequired i)
  else if r.id ∈ seen then .error (.ruleIdDuplicate i r.id)
  else do
    validateInjects i 1 (r.action.inject.getD [])
    if r.action.audit.all fun a => a = ascii "full" ∨ a = ascii "metadata" ∨ a = ascii "none" then
      .ok ()
    else .error (.badAudit i)

def validateRules : List Bytes → Nat → List WireRule → Except PolicyErr Unit
  | _, _, [] => .ok ()
  | seen, i, r :: rest => do
    validateRule seen i r
    validateRules (r.id :: seen) (i + 1) rest

def validatePolicy (p : WirePolicy) : Except PolicyErr Unit :=
  if p.policyId = [] then .error .policyIdRequired
  else if p.rules = [] then .error .noRules
  else validateRules [] 1 p.rules

/-- `string.lower`. -/
def lower (s : Bytes) : Bytes := s.map asciiLower

def suffixMatch (s suffix : Bytes) : Bool := suffix.isSuffixOf s

/-- `domain_match`: a leading star matches subdomains only. -/
def domainMatch (pattern : Bytes) (value : Option Bytes) : Bool :=
  match value with
  | none => false
  | some value =>
    let pattern := lower pattern
    let value := lower value
    if pattern.take 2 = [42, 46] ∧ pattern.length > 2 then suffixMatch value (pattern.drop 1)
    else pattern = value

end CubeSandbox.Egress
