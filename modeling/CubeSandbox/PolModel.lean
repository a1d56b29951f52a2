import CubeSandbox.GoText
import CubeSandbox.VsTypes

/-!
From the options of a sandbox to the entries of its policy maps (`netpolicy.go`,
`dnspolicy.go`).

A list of targets is split into address blocks and domain names. Blocks become keys of the
allow and deny tries; a domain becomes the reversed name that the query path looks up,
closed by a NUL for the domain itself and by a dot for its subdomains.
-/

namespace CubeSandbox.Pol

open Vs GoText

def maxNetPolicyEntries : Nat := 8192
def maxDnsAllowDomains : Nat := 1024
def flagL7Required : UInt8 := 1

inductive PolErr
  | emptyTarget
  | invalidCidrTarget (target : Bytes)
  | unsupportedIpTarget (target : Bytes)
  | invalidDomainTarget (target : Bytes)
  | invalidCidrOrIp (s : Bytes)
  | invalidDnsLength (domain : Bytes)
  | invalidDnsWildcard (domain : Bytes)
  | tooManyEntries (field : String) (count max : Nat)
  deriving DecidableEq

structure MvmOptions where
  allowInternetAccess : Option Bool
  allowOut : Option (List Bytes)
  l7AllowOut : Option (List Bytes)
  denyOut : Option (List Bytes)

/-! ### Address blocks -/

def ipToUint32 (ip : Bytes) : UInt32 :=
  let ip := if ip.length = 16 then ip.drop 12 else ip
  (ip.getD 0 0).toUInt32 ||| (ip.getD 1 0).toUInt32 <<< 8 ||| (ip.getD 2 0).toUInt32 <<< 16 |||
    (ip.getD 3 0).toUInt32 <<< 24

/-- `parseCIDR` of `netpolicy.go`. The prefix length of an IPv6 block counts from the front of its
bytes, while the address of the key is taken from the last four. -/
def parseCidrKey (s : Bytes) : Except PolErr LpmKey :=
  match parseCIDR s with
  | some (_, net) => .ok ⟨net.ones.toUInt32, ipToUint32 net.ip⟩
  | none =>
    match parseIP s with
    | some ip => .ok ⟨32, ipToUint32 ip⟩
    | none => .error (.invalidCidrOrIp s)

/-! ### Splitting of targets -/

def isIPv4Target (target : Bytes) : Bool :=
  if target.contains 47 then (parseCIDR target).any fun (a, _) => (to4 a.as16).isSome
  else (parseIP target).any fun ip => (to4 ip).isSome

def isDottedDecimalLikeTarget (target : Bytes) : Bool :=
  let parts := (trimSuffix target 46).splitOn 46
  parts.length == 4 && parts.all fun part => part != [] && part.all isDigit

def isAlphaNum (ch : UInt8) : Bool := (97 ≤ ch && ch ≤ 122) || isDigit ch

/-- A label of letters, digits and inner hyphens. -/
def isValidLabel (label : Bytes) : Bool :=
  label != [] && label.length ≤ 63 && label.all (fun ch => isAlphaNum ch || ch == 45) &&
    label.head? != some 45 && label.getLast? != some 45

def isValidDnsDomainName (domain : Bytes) : Bool := (domain.splitOn 46).all isValidLabel

def isDnsAllowTarget (target : Bytes) : Bool :=
  let domain := toLower (trimSuffix target 46)
  let check (domain : Bytes) : Bool :=
    domain != [] && domain.length < maxDnsNameLen - 1 && isValidDnsDomainName domain
  match domain with
  | 42 :: 46 :: rest => check rest
  | _ => if domain.contains 42 then false else check domain

/-- One target: a block or a domain. -/
def splitTarget (rawTarget : Bytes) : Except PolErr (Bytes ⊕ Bytes) :=
  let target := trimSpace rawTarget
  if target = [] then .error .emptyTarget
  else if isIPv4Target target then .ok (.inl target)
  else if target.contains 47 then .error (.invalidCidrTarget target)
  else if (parseIP target).isSome || isDottedDecimalLikeTarget target then
    .error (.unsupportedIpTarget target)
  else if !isDnsAllowTarget target then .error (.invalidDomainTarget target)
  else .ok (.inr target)

/-- The blocks and the domains of a list of targets, each in the order of the list. -/
def splitAllowOutTargets : List Bytes → Except PolErr (List Bytes × List Bytes)
  | [] => .ok ([], [])
  | t :: ts => do
    let r ← splitTarget t
    let (cidrs, domains) ← splitAllowOutTargets ts
    match r with
    | .inl cidr => return (cidr :: cidrs, domains)
    | .inr domain => return (cidrs, domain :: domains)

/-- An entry with flags: a block of the allow trie, or a rule of the DNS trie. -/
structure Flagged (K : Type) where
  key : K
  flags : UInt8
  source : Bytes

section
variable {K : Type} [DecidableEq K]

/-- Add an entry; one with the same key only gets the flags. -/
def merge (entries : List (Flagged K)) (key : K) (flags : UInt8) (source : Bytes) :
    List (Flagged K) :=
  if entries.any fun e => e.key == key then
    entries.map fun e => if e.key = key then { e with flags := e.flags ||| flags } else e
  else entries ++ [⟨key, flags, source⟩]

def mergeAll (parse : Bytes → Except PolErr K) (flags : UInt8) :
    List (Flagged K) → List Bytes → Except PolErr (List (Flagged K))
  | entries, [] => .ok entries
  | entries, source :: rest => do
    let key ← parse source
    mergeAll parse flags (merge entries key flags source) rest

/-- Entries from a plain list and from one whose entries require the proxy. -/
def buildFlagged (parse : Bytes → Except PolErr K) (plain l7 : List Bytes) :
    Except PolErr (List (Flagged K)) := do
  let entries ← mergeAll parse 0 [] plain
  mergeAll parse flagL7Required entries l7

end

def buildAllowOutPolicyEntries (allowOutCidrs l7AllowOutCidrs : List Bytes) :
    Except PolErr (List (Flagged LpmKey)) :=
  buildFlagged parseCidrKey allowOutCidrs l7AllowOutCidrs

structure DenyEntry where
  key : LpmKey
  source : Bytes

/-- The entries of a list of blocks; of two with the same key the first one stays. -/
def buildDenyOutPolicyEntries : List Bytes → Except PolErr (List DenyEntry)
  | [] => .ok []
  | cidr :: rest => do
    let key ← parseCidrKey cidr
    let entries ← buildDenyOutPolicyEntries rest
    return ⟨key, cidr⟩ :: entries.filter (·.key ≠ key)

/-- `makeDNSAllowRule`: the bytes of the key that its prefix length covers. -/
def makeDnsAllowKey (domain : Bytes) : Except PolErr Bytes :=
  let domain := toLower (trimSuffix domain 46)
  let encode (domain : Bytes) (last : UInt8) : Except PolErr Bytes :=
    if domain = [] ∨ domain.length ≥ maxDnsNameLen - 1 then .error (.invalidDnsLength domain)
    else .ok (domain.reverse ++ [last])
  if domain = [] then .error (.invalidDnsLength domain)
  else if domain.contains 42 then
    if domain.count 42 ≠ 1 ∨ domain.take 2 ≠ [42, 46] ∨ domain.length ≤ 2 then
      .error (.invalidDnsWildcard domain)
    else encode (domain.drop 2) 46
  else encode domain 0

def buildDnsAllowRules (domains l7Domains : List Bytes) : Except PolErr (List (Flagged Bytes)) :=
  buildFlagged makeDnsAllowKey domains l7Domains

def ruleValue (rule : Flagged Bytes) : DnsAllowValue := ⟨rule.key.length.toUInt32, rule.flags⟩

/-! ### The plan -/

structure NetPolicyPlan where
  allowOutEntries : List (Flagged LpmKey)
  dnsAllowRules : List (Flagged Bytes)
  denyOutEntries : List DenyEntry
  dnsPolicyFlags : UInt8

def alwaysDeniedSandboxCidrs : List Bytes :=
  [ascii "10.0.0.0/8", ascii "127.0.0.0/8", ascii "169.254.0.0/16", ascii "172.16.0.0/12",
    ascii "192.168.0.0/16"]

/-- The blocks above are well formed, so that building their entries cannot fail. -/
def alwaysDeniedSandboxEntries : List DenyEntry :=
  (buildDenyOutPolicyEntries alwaysDeniedSandboxCidrs).toOption.getD []

def appendDenyOutPolicyEntries (dst src : List DenyEntry) : List DenyEntry :=
  src.foldl (fun dst e => if dst.any (·.key == e.key) then dst else dst ++ [e]) dst

def effectiveDenyOutEntriesForReplace (plan : NetPolicyPlan) : List DenyEntry :=
  appendDenyOutPolicyEntries plan.denyOutEntries alwaysDeniedSandboxEntries

def validateNetPolicyEntryCount (field : String) (count max : Nat) : Except PolErr Unit :=
  if count ≤ max then .ok () else .error (.tooManyEntries field count max)

def validateNetPolicyPlan (plan : NetPolicyPlan) : Except PolErr Unit := do
  validateNetPolicyEntryCount "network.allow_out_v2" plan.allowOutEntries.length
    maxNetPolicyEntries
  validateNetPolicyEntryCount "network.dns_allow" plan.dnsAllowRules.length maxDnsAllowDomains
  validateNetPolicyEntryCount "network.deny_out"
    (effectiveDenyOutEntriesForReplace plan).length maxNetPolicyEntries

def dnsPolicyFlagsForDomains (allowDomains l7Domains : List Bytes) : UInt8 :=
  if allowDomains.length + l7Domains.length = 0 then 0 else 1

/-- The blocks that the options deny: everything, or those of the list. -/
def denyTargets (opts : MvmOptions) : List Bytes :=
  if opts.allowInternetAccess = some false then [ascii "0.0.0.0/0"] else opts.denyOut.getD []

def buildNetPolicyPlan (opts : MvmOptions) : Except PolErr NetPolicyPlan := do
  let (allowOutCidrs, dnsAllowDomains) ← splitAllowOutTargets (opts.allowOut.getD [])
  let (l7AllowOutCidrs, l7DnsAllowDomains) ← splitAllowOutTargets (opts.l7AllowOut.getD [])
  let allowOutEntries ← buildAllowOutPolicyEntries allowOutCidrs l7AllowOutCidrs
  let dnsAllowRules ← buildDnsAllowRules dnsAllowDomains l7DnsAllowDomains
  let denyOutEntries ← buildDenyOutPolicyEntries (denyTargets opts)
  let plan : NetPolicyPlan :=
    { allowOutEntries, dnsAllowRules, denyOutEntries
      dnsPolicyFlags := dnsPolicyFlagsForDomains dnsAllowDomains l7DnsAllowDomains }
  validateNetPolicyPlan plan
  return plan

end CubeSandbox.Pol
