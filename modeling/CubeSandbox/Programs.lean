import CubeSandbox.NatModel
import CubeSandbox.DnsQuery

/-!
The programs at the TAP device of a sandbox (`from_cube` of `mvmtap.bpf.c`) and at the network
card of the node (`from_world` of `nodenic.bpf.c`).

One run handles one packet and is atomic. The output names, besides the maps and the verdict, the
session the packet was translated with, the session that was opened for it, the query that was
recorded as allowed, and the tracked query through which addresses were learned.
-/

namespace CubeSandbox.Vs

open Lpm

def netPolicyFlagL7Required : UInt8 := 1

structure CubeOut where
  maps : Maps
  act : Act
  via : Option SessionKey
  created : Option SessionKey
  tracked : Option DnsQueryTrackKey

/-- A verdict that leaves the maps alone. -/
def CubeOut.just (m : Maps) (act : Act) : CubeOut := ⟨m, act, none, none, none⟩

def shouldDoNat (l3 : IpHdr) : Bool :=
  (l3.protocol == ipprotoTcp || l3.protocol == ipprotoUdp || l3.protocol == ipprotoIcmp) &&
    l3.fragOff &&& ipFlagMf == 0 && l3.fragOff &&& ipFragOffMask == 0

def shouldRedirectToL7Proxy (now : Ktime) (m : Maps) (ifindex daddr : UInt32) (l4 : TcpHdr) :
    Bool :=
  if l4.dest != htons 80 && l4.dest != htons 443 then false
  else
    match (m.allowOutV2 ifindex).bind fun t => lookup t (LpmKey.mk 32 daddr).bits with
    | none => false
    | some v =>
      if v.expiresAtNs != 0 && v.expiresAtNs ≤ now.ns then false
      else v.flags &&& netPolicyFlagL7Required != 0

/-- `tcp_segment_len` computes a length only if the header lengths are consistent. -/
def tcpSegmentOk (l3 : IpHdr) (l4 : TcpHdr) : Bool :=
  let tcpHlen := l4.doff.toNat * 4
  20 ≤ ipHlen l3 && 20 ≤ tcpHlen && ipHlen l3 + tcpHlen ≤ l3.totLen.toNat

/-- Answer a segment with a reset, sent back to the guest. -/
def tcpReplyReset (skb : Skb) (ifindex : UInt32) : Act :=
  if skb.gso then .shot
  else
    match pullHeaders skb with
    | none => .shot
    | some (l3, l4) =>
      if l3.fragOff &&& ipFlagMf != 0 || l3.fragOff &&& ipFragOffMask != 0 then .shot
      else if l4.rst then .shot
      else if !tcpSegmentOk l3 l4 then .shot
      else if skb.rewriteOk then .redirect ifindex false
      else .shot

/-- A request for an Ethernet address is answered on the device it comes from. -/
def handleArp (skb : Skb) : Act := if skb.arpRequest then .redirect skb.ifindex false else .shot

/-- `finish_udp_nat` and `finish_udp_nat_inline`. -/
def finishUdpNat (env : Env) (now : Ktime) (m : Maps) (skb : Skb) (mvmMeta : MvmMeta)
    (tracked : Option DnsQueryTrackKey) : CubeOut :=
  let res := doUdpNat env now m skb mvmMeta
  let act := if res.ret != 0 then .redirect res.ret env.egressRedirectIngress else .shot
  ⟨res.maps, act, res.via, res.created, tracked⟩

def dnsPolicyEnabled (mvmMeta : MvmMeta) : Bool := mvmMeta.dnsPolicyFlags != 0

/-- Traffic to the gateway: ICMP, and TCP that does not open a connection. -/
def toGateway (env : Env) (skb : Skb) (l3 : IpHdr) : Act :=
  let redirect : Act := if natRewrite skb l3 then .redirect env.cubegw0Ifindex true else .shot
  if l3.protocol == ipprotoIcmp then redirect
  else if l3.protocol == ipprotoTcp then
    match pullHeaders skb with
    | none => .shot
    | some (_, l4) => if l4.syn && !l4.ack then .shot else redirect
  else .shot

def tcpFromCube (env : Env) (now : Ktime) (m : Maps) (skb : Skb) (mvmMeta : MvmMeta)
    (l3 : IpHdr) : CubeOut :=
  match pullHeaders skb with
  | none => .just m .shot
  | some (_, l4) =>
    if shouldRedirectToL7Proxy now m skb.ifindex l3.daddr l4 then
      .just m (.redirect env.cubegw0Ifindex true)
    else
      let res := doTcpNat env now m skb mvmMeta
      let act := match res.ret with
        | .ok ifindex => .redirect ifindex env.egressRedirectIngress
        | .reset => tcpReplyReset skb skb.ifindex
        | .drop => .shot
      ⟨res.maps, act, res.via, res.created, none⟩

def udpFromCube (env : Env) (now : Ktime) (m : Maps) (skb : Skb) (scratch : DnsScratch)
    (mvmMeta : MvmMeta) : CubeOut :=
  match pullHeadersUdp skb with
  | none => .just m .shot
  | some (l3, udp) =>
    if udp.dest == dnsPort && dnsPolicyEnabled mvmMeta && dnsPayloadFits l3 udp then
      match dnsHandleQuery m skb scratch skb.ifindex with
      | .pass => finishUdpNat env now m skb mvmMeta none
      | .shot => .just m .shot
      | .finish st question =>
        let (m, tracked) := dnsFinishTrack now m skb st question
        finishUdpNat env now m skb mvmMeta tracked
    else finishUdpNat env now m skb mvmMeta none

def icmpFromCube (env : Env) (now : Ktime) (m : Maps) (skb : Skb) (mvmMeta : MvmMeta) : CubeOut :=
  let res := doIcmpNat env now m skb mvmMeta
  let act := if res.ret != 0 then .redirect res.ret env.egressRedirectIngress else .shot
  ⟨res.maps, act, res.via, res.created, none⟩

/-- The part of `from_cube` after port mappings and established sockets were looked at. -/
def natFromCube (env : Env) (now : Ktime) (m : Maps) (skb : Skb) (scratch : DnsScratch)
    (mvmMeta : MvmMeta) (l3 : IpHdr) : CubeOut :=
  if !shouldDoNat l3 then .just m .shot
  else if l3.daddr == env.nodenicIp then
    -- this branch makes no session, so the policy is asked here
    if sessionPolicyAllowed env now m skb.ifindex l3.daddr then
      .just m (.redirect env.cubegw0Ifindex true)
    else if l3.protocol == ipprotoTcp then .just m (tcpReplyReset skb skb.ifindex)
    else .just m .shot
  else if l3.protocol == ipprotoTcp then tcpFromCube env now m skb mvmMeta l3
  else if l3.protocol == ipprotoUdp then udpFromCube env now m skb scratch mvmMeta
  else if l3.protocol == ipprotoIcmp then icmpFromCube env now m skb mvmMeta
  else .just m .shot

/-- The answer to a TCP packet from a port that the host maps, or to a host socket. -/
def tcpShortcut (env : Env) (m : Maps) (skb : Skb) (l3 : IpHdr) : Option Act :=
  if l3.protocol == ipprotoTcp then
    match pullHeaders skb with
    | none => some .shot
    | some (_, l4) =>
      if (m.localPortMapping ⟨skb.ifindex, l4.source⟩).isSome then
        if l4.syn && !l4.ack then some .shot
        else if skb.rewriteOk then some (.redirect env.nodenicIfindex false)
        else some .shot
      else if (l4.dest == htons 80 || l4.dest == htons 443) && skb.sockEstablished then
        some (.redirect env.cubegw0Ifindex true)
      else none
  else none

def fromCube (env : Env) (now : Ktime) (m : Maps) (skb : Skb) (scratch : DnsScratch) : CubeOut :=
  if skb.etherType != ethPIp then
    .just m (if skb.etherType == ethPArp then handleArp skb else .shot)
  else
    match m.ifindexToMvmmeta skb.ifindex, skb.l3 with
    | some mvmMeta, some l3 =>
      if !natRewrite skb l3 then .just m .shot
      else if l3.daddr == env.mvmGatewayIp then .just m (toGateway env skb l3)
      else
        match tcpShortcut env m skb l3 with
        | some act => .just m act
        | none => natFromCube env now m skb scratch mvmMeta l3
    | _, _ => .just m .shot

/-! ### Packets of the world: translated back and sent to the device of their session -/

structure WorldOut where
  maps : Maps
  act : Act
  via : Option SessionKey
  learned : Option DnsQueryTrackKey

def WorldOut.just (m : Maps) (act : Act) : WorldOut := ⟨m, act, none, none⟩

/-- The egress key that an ingress entry leads to. -/
def egressKeyOf (ikey : SessionKey) (isess : IngressSession) : SessionKey where
  srcIp := isess.vmIp
  dstIp := ikey.srcIp
  srcPort := isess.vmPort
  dstPort := ikey.srcPort
  version := isess.version
  protocol := ikey.protocol

/-- The session that a reply belongs to, with its key. -/
def lookupSession (m : Maps) (ikey : SessionKey) : Option (SessionKey × NatSession) :=
  (m.ingressSessions ikey).bind fun isess =>
    let key := egressKeyOf ikey isess
    (m.egressSessions key).map fun sess => (key, sess)

/-- Update the session of a reply, rewrite the packet and send it to the TAP device. -/
def deliver (m : Maps) (skb : Skb) (key : SessionKey) (sess : NatSession)
    (learned : Option DnsQueryTrackKey) : WorldOut :=
  let m := m.setEgress (m.egressSessions.set key sess)
  if skb.rewriteOk then ⟨m, .redirect sess.vmIfindex false, some key, learned⟩
  else ⟨m, .ok, none, learned⟩

def tcpNatSession (now : Ktime) (m : Maps) (skb : Skb) (l3 : IpHdr) (l4 : TcpHdr) : WorldOut :=
  match lookupSession m ⟨l3.saddr, l3.daddr, l4.source, l4.dest, 0, l3.protocol⟩ with
  | none => .just m .ok
  | some (key, sess) =>
    deliver m skb key (updateSession .reply sess now.ns l4.syn l4.ack l4.fin l4.rst) none

/-- `dns_response_finish_prog`, and the end of `udp_nat_session`. -/
def udpFinish (now : Ktime) (m : Maps) (skb : Skb) (ikey : SessionKey)
    (learned : Option DnsQueryTrackKey) : WorldOut :=
  match lookupSession m ikey with
  | none => ⟨m, .ok, none, learned⟩
  | some (key, sess) => deliver m skb key (updateUdpSession .reply sess now.ns) learned

def udpNatSession (now : Ktime) (m : Maps) (skb : Skb) (l3 : IpHdr) (l4 : UdpHdr) : WorldOut :=
  let ikey : SessionKey := ⟨l3.saddr, l3.daddr, l4.source, l4.dest, 0, ipprotoUdp⟩
  match lookupSession m ikey with
  | none => .just m .ok
  | some (_, sess) =>
    if l4.source == dnsPort && dnsPayloadFits l3 l4 then
      if skb.tailCallsOk then
        let (m, learned) :=
          dnsHandleResponse now m skb.data sess.vmIfindex l3.saddr sess.vmPort
        udpFinish now m skb ikey learned
      else .just m .ok
    else udpFinish now m skb ikey none

def icmpNatSession (now : Ktime) (m : Maps) (skb : Skb) (l3 : IpHdr) (l4 : IcmpHdr) : WorldOut :=
  if l4.type != 0 then .just m .ok
  else
    match lookupSession m ⟨l3.saddr, l3.daddr, 0, l4.echoId, 0, ipprotoIcmp⟩ with
    | none => .just m .ok
    | some (key, sess) => deliver m skb key (updateIcmpSession .reply sess now.ns) none

/-- `do_tcp_nat`: a mapped host port is served on the primary network card only. -/
def tcpFromWorld (env : Env) (now : Ktime) (m : Maps) (skb : Skb) : WorldOut :=
  match pullHeaders skb with
  | none => .just m .ok
  | some (l3, l4) =>
    match if skb.ifindex == env.nodenicIfindex then m.remotePortMapping l4.dest else none with
    | some mvmPort =>
      .just m (if skb.rewriteOk then .redirect mvmPort.ifindex false else .ok)
    | none => tcpNatSession now m skb l3 l4

def fromWorld (env : Env) (now : Ktime) (m : Maps) (skb : Skb) : WorldOut :=
  if skb.etherType != ethPIp then .just m .ok
  else
    match skb.l3 with
    | none => .just m .ok
    | some l3 =>
      if l3.protocol == ipprotoTcp then tcpFromWorld env now m skb
      else if l3.protocol == ipprotoUdp then
        match pullHeadersUdp skb with
        | none => .just m .ok
        | some (l3, l4) => udpNatSession now m skb l3 l4
      else if l3.protocol == ipprotoIcmp then
        match pullHeadersIcmp skb with
        | none => .just m .ok
        | some (l3, l4) => icmpNatSession now m skb l3 l4
      else .just m .ok

end CubeSandbox.Vs
