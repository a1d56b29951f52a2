import CubeSandbox.Lpm

/-!
The records and maps of the packet programs (`cubevs.h`, `map.h`).

Addresses and ports are the words the programs load, in network byte order on a
little-endian host. Reserved fields, which are always zero, and the identifier text of a
sandbox, which no packet program reads, are left out. A map of maps is a map to tries.
-/

namespace CubeSandbox.Vs

open Lpm

def htons (x : UInt16) : UInt16 := (x <<< 8) ||| (x >>> 8)

abbrev maxSnatIps : Nat := 4
def maxPortStart : UInt16 := 30000
abbrev maxDnsNameLen : Nat := 256
def nsecPerSec : UInt64 := 1000000000
def dnsQueryTrackTtlNs : UInt64 := 10 * nsecPerSec
def hashSeed : UInt32 := 0xebcf0700

def ethPIp : UInt16 := 0x0800
def ethPArp : UInt16 := 0x0806
def ipprotoIcmp : UInt8 := 1
def ipprotoTcp : UInt8 := 6
def ipprotoUdp : UInt8 := 17

/-- The constants written into the programs when they are loaded. -/
structure Env where
  mvmInnerIp : UInt32
  mvmGatewayIp : UInt32
  cubegw0Ifindex : UInt32
  nodenicIp : UInt32
  nodenicIfindex : UInt32
  egressRedirectIngress : Bool

/-- A reading of the monotonic clock in nanoseconds. The kernel keeps it in a signed word. -/
structure Ktime where
  ns : UInt64
  bound : ns.toNat < 2 ^ 63
  deriving DecidableEq

def Ktime.ofNs (n : Nat) : Ktime where
  ns := (n % 2 ^ 63).toUInt64
  bound := by
    have h : n % 2 ^ 63 < 2 ^ 63 := Nat.mod_lt _ (by norm_num)
    simpa [Nat.toUInt64] using lt_of_le_of_lt (Nat.mod_le _ _) h

structure MvmMeta where
  version : UInt32
  ip : UInt32
  dnsPolicyFlags : UInt8

structure MvmPort where
  ifindex : UInt32
  listenPort : UInt16
  deriving DecidableEq

/-- The key of a session. The version is zero in the ingress table. -/
structure SessionKey where
  srcIp : UInt32
  dstIp : UInt32
  srcPort : UInt16
  dstPort : UInt16
  version : UInt32
  protocol : UInt8
  deriving DecidableEq

structure NatSession where
  accessTime : UInt64
  nodeIfindex : UInt32
  nodeIp : UInt32
  vmIfindex : UInt32
  vmIp : UInt32
  nodePort : UInt16
  vmPort : UInt16
  state : UInt8
  activeClose : UInt8

structure IngressSession where
  version : UInt32
  vmIp : UInt32
  vmPort : UInt16

structure SnatIp where
  ifindex : UInt32
  ip : UInt32
  maxPort : UInt16

structure NetPolicyValueV2 where
  expiresAtNs : UInt64
  flags : UInt8
  deriving DecidableEq

structure DnsAllowValue where
  nameLen : UInt32
  flags : UInt8

structure DnsQueryTrackKey where
  ifindex : UInt32
  serverIp : UInt32
  sourcePort : UInt16
  dnsId : UInt16
  qnameHash : UInt64
  deriving DecidableEq

structure DnsQueryTrackValue where
  expiresAtNs : UInt64
  flags : UInt8

structure LpmKey where
  prefixlen : UInt32
  ip : UInt32
  deriving DecidableEq

/-- The bytes of an address as they stand in memory, which is the order of the wire. -/
def ipBytes (ip : UInt32) : List UInt8 :=
  [ip.toUInt8, (ip >>> 8).toUInt8, (ip >>> 16).toUInt8, (ip >>> 24).toUInt8]

def ipBits (ip : UInt32) : List Bool := bits (ipBytes ip)

@[simp] lemma ipBits_length (ip : UInt32) : (ipBits ip).length = 32 := by simp [ipBits, ipBytes]

/-- The bits that a key stores or looks up. -/
def LpmKey.bits (k : LpmKey) : List Bool := (ipBits k.ip).take k.prefixlen.toNat

/-- A name buffer. Every index into it is masked, so no write can miss it. -/
abbrev NameBuf := Fin maxDnsNameLen → UInt8

/-- `name[i & (DNS_MAX_NAME_LEN - 1)] = c` -/
def NameBuf.put (b : NameBuf) (i : Nat) (c : UInt8) : NameBuf :=
  Function.update b (Fin.ofNat maxDnsNameLen i) c

/-- `name[i & (DNS_MAX_NAME_LEN - 1)]` -/
def NameBuf.get (b : NameBuf) (i : Nat) : UInt8 := b (Fin.ofNat maxDnsNameLen i)

structure DnsAllowKey where
  prefixlen : Nat
  name : NameBuf

def DnsAllowKey.bits (k : DnsAllowKey) : List Bool := (Lpm.bits (List.ofFn k.name)).take k.prefixlen

/-- The maps that the packet programs and the agent share. -/
structure Maps where
  mvmipToIfindex : KMap UInt32 UInt32
  ifindexToMvmmeta : KMap UInt32 MvmMeta
  remotePortMapping : KMap UInt16 MvmPort
  localPortMapping : KMap MvmPort UInt16
  egressSessions : KMap SessionKey NatSession
  ingressSessions : KMap SessionKey IngressSession
  snatIplist : Fin maxSnatIps → SnatIp
  allowOutV2 : KMap UInt32 (Trie NetPolicyValueV2)
  denyOut : KMap UInt32 (Trie UInt32)
  dnsAllow : KMap UInt32 (Trie DnsAllowValue)
  dnsQueryTrack : KMap DnsQueryTrackKey DnsQueryTrackValue

/-- The maps as they are created, with the source addresses already chosen. -/
def Maps.init (slots : Fin maxSnatIps → SnatIp) : Maps where
  mvmipToIfindex := .empty
  ifindexToMvmmeta := .empty
  remotePortMapping := .empty
  localPortMapping := .empty
  egressSessions := .empty
  ingressSessions := .empty
  snatIplist := slots
  allowOutV2 := .empty
  denyOut := .empty
  dnsAllow := .empty
  dnsQueryTrack := .empty

@[simps] def Maps.setEgress (m : Maps) (e : KMap SessionKey NatSession) : Maps :=
  { m with egressSessions := e }

@[simps] def Maps.setIngress (m : Maps) (i : KMap SessionKey IngressSession) : Maps :=
  { m with ingressSessions := i }

@[simps] def Maps.setSlots (m : Maps) (sl : Fin maxSnatIps → SnatIp) : Maps :=
  { m with snatIplist := sl }

@[simps] def Maps.setAllow (m : Maps) (a : KMap UInt32 (Trie NetPolicyValueV2)) : Maps :=
  { m with allowOutV2 := a }

@[simps] def Maps.setTrack (m : Maps) (q : KMap DnsQueryTrackKey DnsQueryTrackValue) : Maps :=
  { m with dnsQueryTrack := q }

/-- The fields of an IPv4 header that are read, lengths and fragment word in host order. -/
structure IpHdr where
  ihl : UInt8
  totLen : UInt16
  fragOff : UInt16
  protocol : UInt8
  saddr : UInt32
  daddr : UInt32

structure TcpHdr where
  source : UInt16
  dest : UInt16
  doff : UInt8
  syn : Bool
  ack : Bool
  fin : Bool
  rst : Bool

structure UdpHdr where
  source : UInt16
  dest : UInt16
  len : UInt16

structure IcmpHdr where
  type : UInt8
  echoId : UInt16

/-- The header that follows the IPv4 header, if it can be pulled. -/
inductive L4Hdr
  | tcp (h : TcpHdr)
  | udp (h : UdpHdr)
  | icmp (h : IcmpHdr)
  | none

/-- A packet, with what the kernel's helpers will answer about it: whether headers can be pulled,
whether addresses, ports and checksums can be rewritten, whether the host has an established socket
for it, and whether the jump table of the DNS programs is filled. -/
structure Skb where
  ifindex : UInt32
  etherType : UInt16
  l3 : Option IpHdr
  l4 : L4Hdr
  /-- The bytes of the packet that follow the UDP header. -/
  data : List UInt8
  /-- Whether a frame that is not IPv4 is a request for an Ethernet address. -/
  arpRequest : Bool
  gso : Bool
  rewriteOk : Bool
  sockEstablished : Bool
  tailCallsOk : Bool

inductive Act
  | ok
  | shot
  | redirect (ifindex : UInt32) (ingress : Bool)
  deriving DecidableEq

def ipHlen (l3 : IpHdr) : Nat := l3.ihl.toNat * 4

/-- The generated `__pull_headers` functions: the protocol is `proto` and the length is legal. -/
def pullable (skb : Skb) (proto : UInt8) : Option IpHdr :=
  skb.l3.filter fun l3 => l3.protocol == proto && 20 ≤ ipHlen l3 && ipHlen l3 ≤ 60

def pullHeaders (skb : Skb) : Option (IpHdr × TcpHdr) :=
  match pullable skb ipprotoTcp, skb.l4 with
  | some l3, .tcp l4 => some (l3, l4)
  | _, _ => none

def pullHeadersUdp (skb : Skb) : Option (IpHdr × UdpHdr) :=
  match pullable skb ipprotoUdp, skb.l4 with
  | some l3, .udp l4 => some (l3, l4)
  | _, _ => none

def pullHeadersIcmp (skb : Skb) : Option (IpHdr × IcmpHdr) :=
  match pullable skb ipprotoIcmp, skb.l4 with
  | some l3, .icmp l4 => some (l3, l4)
  | _, _ => none

def ipFlagMf : UInt16 := 0x2000
def ipFragOffMask : UInt16 := 0x1fff

/-- `nat_rewrite`: a whole packet or a first fragment of a protocol other than TCP, UDP and ICMP
cannot be rewritten. -/
def natRewrite (skb : Skb) (l3 : IpHdr) : Bool :=
  let noFrag := l3.fragOff &&& ipFlagMf == 0 && l3.fragOff &&& ipFragOffMask == 0
  let firstFrag := l3.fragOff &&& ipFlagMf != 0 && l3.fragOff &&& ipFragOffMask == 0
  if l3.protocol != ipprotoIcmp && (noFrag || firstFrag) then
    (l3.protocol == ipprotoTcp || l3.protocol == ipprotoUdp) && skb.rewriteOk
  else skb.rewriteOk

end CubeSandbox.Vs
