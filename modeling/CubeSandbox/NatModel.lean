import CubeSandbox.VsTypes

/-!
Sessions: their connection tracker (`session.h`, `tcp.h`, `udp.h`, `icmp.h`), the source address
translation of the packets of a guest (`session.h`, `jhash.h`, the NAT functions of
`mvmtap.bpf.c`) and the reaper of the agent (`reaper.go`).

The state byte of a TCP session is a code of the kernel's `tcp_conntrack` enumeration; `sIV` and
`sIG` are marks of the transition table that are not states.

A new session first takes a free port by inserting its reverse key into the ingress table,
and only then, if policy allows the destination, enters the egress table. Besides the maps
and the verdict, the functions return which session the packet was translated with and
the one that was opened for it; the program itself has no such results.
-/

namespace CubeSandbox.Vs

open Lpm

/-- The direction of a packet: from the guest, or back to it. -/
inductive Dir
  | original
  | reply
  deriving DecidableEq

/-- Refresh at most once in this many nanoseconds. -/
def sessionRefreshIntervalNs : UInt64 := 1000 * 1000 * 1000

def sessionLazyRefresh (sess : NatSession) (nowNs : UInt64) : NatSession :=
  if nowNs - sess.accessTime > sessionRefreshIntervalNs then { sess with accessTime := nowNs }
  else sess

def sessionMarkReplied (dir : Dir) (sess : NatSession) (unrepliedState repliedState : UInt8) :
    NatSession :=
  if dir = .reply ∧ sess.state = unrepliedState then { sess with state := repliedState } else sess

def udpCtUnreplied : UInt8 := 0
def udpCtReplied : UInt8 := 1
def icmpCtUnreplied : UInt8 := 0
def icmpCtReplied : UInt8 := 1

def updateUdpSession (dir : Dir) (sess : NatSession) (nowNs : UInt64) : NatSession :=
  sessionMarkReplied dir (sessionLazyRefresh sess nowNs) udpCtUnreplied udpCtReplied

def updateIcmpSession (dir : Dir) (sess : NatSession) (nowNs : UInt64) : NatSession :=
  sessionMarkReplied dir (sessionLazyRefresh sess nowNs) icmpCtUnreplied icmpCtReplied

/-! ### TCP -/

def sNO : UInt8 := 0
def sSS : UInt8 := 1
def sSR : UInt8 := 2
def sES : UInt8 := 3
def sFW : UInt8 := 4
def sCW : UInt8 := 5
def sLA : UInt8 := 6
def sTW : UInt8 := 7
def sCL : UInt8 := 8
def sS2 : UInt8 := 9
def sIV : UInt8 := 10
def sIG : UInt8 := 11

/-- What flags of a segment count. -/
inductive TcpBitSet
  | syn
  | synack
  | fin
  | ack
  | rst
  | none

/-- A row of the transition table, by the old state. -/
def tcpConntracks : Dir → TcpBitSet → Vector UInt8 10
  -- ORIGINAL             sNO, sSS, sSR, sES, sFW, sCW, sLA, sTW, sCL, sS2
  | .original, .syn => #v[sSS, sSS, sIG, sIG, sIG, sIG, sIG, sSS, sSS, sS2]
  | .original, .synack => #v[sIV, sIV, sSR, sIV, sIV, sIV, sIV, sIV, sIV, sSR]
  | .original, .fin => #v[sIV, sIV, sFW, sFW, sLA, sLA, sLA, sTW, sCL, sIV]
  | .original, .ack => #v[sES, sIV, sES, sES, sCW, sCW, sTW, sTW, sCL, sIV]
  | .original, .rst => #v[sIV, sCL, sCL, sCL, sCL, sCL, sCL, sCL, sCL, sCL]
  | .original, .none => #v[sIV, sIV, sIV, sIV, sIV, sIV, sIV, sIV, sIV, sIV]
  -- REPLY
  | .reply, .syn => #v[sIV, sS2, sIV, sIV, sIV, sIV, sIV, sSS, sIV, sS2]
  | .reply, .synack => #v[sIV, sSR, sIG, sIG, sIG, sIG, sIG, sIG, sIG, sSR]
  | .reply, .fin => #v[sIV, sIV, sFW, sFW, sLA, sLA, sLA, sTW, sCL, sIV]
  | .reply, .ack => #v[sIV, sIG, sSR, sES, sCW, sCW, sTW, sTW, sCL, sIG]
  | .reply, .rst => #v[sIV, sCL, sCL, sCL, sCL, sCL, sCL, sCL, sCL, sCL]
  | .reply, .none => #v[sIV, sIV, sIV, sIV, sIV, sIV, sIV, sIV, sIV, sIV]

def getConntrackIndex (syn ack fin rst : Bool) : TcpBitSet :=
  if rst then .rst
  else if syn then (if ack then .synack else .syn)
  else if fin then .fin
  else if ack then .ack
  else .none

/-- The state after a packet. A stored byte past the last state is left as it is. -/
def nextState (dir : Dir) (bit : TcpBitSet) (old : UInt8) : UInt8 :=
  if h : old.toNat < 10 then (tcpConntracks dir bit).get ⟨old.toNat, h⟩ else old

def updateSession (dir : Dir) (sess : NatSession) (nowNs : UInt64) (syn ack fin rst : Bool) :
    NatSession :=
  let sess := sessionLazyRefresh sess nowNs
  { sess with state := nextState dir (getConntrackIndex syn ack fin rst) sess.state }

/-- The part of a session that the tracker never writes. -/
structure NatSession.Binding where
  nodeIfindex : UInt32
  nodeIp : UInt32
  vmIfindex : UInt32
  vmIp : UInt32
  nodePort : UInt16
  vmPort : UInt16
  activeClose : UInt8

def NatSession.binding (s : NatSession) : NatSession.Binding :=
  ⟨s.nodeIfindex, s.nodeIp, s.vmIfindex, s.vmIp, s.nodePort, s.vmPort, s.activeClose⟩

variable (d : Dir) (s : NatSession) (now : UInt64)

@[simp] lemma sessionLazyRefresh_binding : (sessionLazyRefresh s now).binding = s.binding := by
  unfold sessionLazyRefresh; split <;> rfl

@[simp] lemma sessionLazyRefresh_state : (sessionLazyRefresh s now).state = s.state := by
  unfold sessionLazyRefresh; split <;> rfl

@[simp] lemma sessionMarkReplied_binding (u r : UInt8) :
    (sessionMarkReplied d s u r).binding = s.binding := by
  unfold sessionMarkReplied; split <;> rfl

@[simp] lemma updateUdpSession_binding :
    (updateUdpSession d s now).binding = s.binding := by simp [updateUdpSession]

@[simp] lemma updateIcmpSession_binding :
    (updateIcmpSession d s now).binding = s.binding := by simp [updateIcmpSession]

@[simp] lemma updateSession_binding (sy a f r : Bool) :
    (updateSession d s now sy a f r).binding = s.binding :=
  sessionLazyRefresh_binding s now

/-! ### Choice of the source address -/

def rol32 (word shift : UInt32) : UInt32 := (word <<< shift) ||| (word >>> ((0 - shift) &&& 31))

def jhashFinal (a b c : UInt32) : UInt32 :=
  let c := (c ^^^ b) - rol32 b 14
  let a := (a ^^^ c) - rol32 c 11
  let b := (b ^^^ a) - rol32 a 25
  let c := (c ^^^ b) - rol32 b 16
  let a := (a ^^^ c) - rol32 c 4
  let b := (b ^^^ a) - rol32 a 14
  (c ^^^ b) - rol32 b 24

def jhashNwords (a b c initval : UInt32) : UInt32 :=
  jhashFinal (a + initval) (b + initval) (c + initval)

def jhash1word (a initval : UInt32) : UInt32 :=
  -- the last summand is `1 << 2`
  jhashNwords a 0 0 (initval + 0xdeadbeef + 4)

def snatIndex (mvmIp : UInt32) : Fin maxSnatIps :=
  Fin.ofNat maxSnatIps (jhash1word mvmIp hashSeed).toNat

/-- The reverse key of a session that leaves from `nodeIp` and `nodePort`. -/
def mirrorKey (ekey : SessionKey) (nodeIp : UInt32) (nodePort : UInt16) : SessionKey where
  srcIp := ekey.dstIp
  dstIp := nodeIp
  srcPort := ekey.dstPort
  dstPort := nodePort
  version := 0
  protocol := ekey.protocol

/-- What the ingress table holds for a session: enough to find its egress key. -/
def ingressOf (ekey : SessionKey) : IngressSession := ⟨ekey.version, ekey.srcIp, ekey.srcPort⟩

def nextPort (port : UInt16) : UInt16 := if port == 0xffff then maxPortStart else port + 1

/-- Take the next port of a slot. -/
def bumpPort (m : Maps) (i : Fin maxSnatIps) : Maps :=
  let slot := { m.snatIplist i with maxPort := nextPort (m.snatIplist i).maxPort }
  m.setSlots (Function.update m.snatIplist i slot)

/-- The retries of `pick_snat_ip_port`. -/
def pickLoop (ekey : SessionKey) (i : Fin maxSnatIps) : Nat → Maps → Maps × Option UInt16
  | 0, m => (m, none)
  | n + 1, m =>
    let snatPort := (m.snatIplist i).maxPort
    let m := bumpPort m i
    let ikey := mirrorKey ekey (m.snatIplist i).ip (htons snatPort)
    match m.ingressSessions.setNew ikey (ingressOf ekey) with
    | some ing => (m.setIngress ing, some (htons snatPort))
    | none => pickLoop ekey i n m

def maxRetries : Nat := 10

def pickSnatIpPort (m : Maps) (mvmIp : UInt32) (ekey : SessionKey) :
    Maps × Option (SnatIp × UInt16) :=
  let i := snatIndex mvmIp
  match pickLoop ekey i maxRetries m with
  | (m', some port) => (m', some (m'.snatIplist i, port))
  | (m', none) => (m', none)

/-! ### Policy and session creation -/

/-- A live entry of the allow trie, else no entry of the deny trie. The gateway is always
allowed. -/
def sessionPolicyAllowed (env : Env) (now : Ktime) (m : Maps) (vmIfindex daddr : UInt32) : Bool :=
  let key : LpmKey := ⟨32, daddr⟩
  if daddr == env.mvmGatewayIp then true
  else if ((m.allowOutV2 vmIfindex).bind fun t => lookup t key.bits).any fun v =>
      v.expiresAtNs == 0 || v.expiresAtNs > now.ns then true
  else if ((m.denyOut vmIfindex).bind fun t => lookup t key.bits).isSome then false
  else true

/-- The outcome of `create_nat_session`, with the reason left in `skb->cb`. -/
inductive CreateResult
  | ok
  | deniedByPolicy
  | failed

def newSession (ekey : SessionKey) (now : Ktime) (vmIfindex : UInt32) (snatIp : SnatIp)
    (snatPort : UInt16) (initialState : UInt8) : NatSession where
  accessTime := now.ns
  nodeIfindex := snatIp.ifindex
  nodeIp := snatIp.ip
  vmIfindex := vmIfindex
  vmIp := ekey.srcIp
  nodePort := snatPort
  vmPort := ekey.srcPort
  state := initialState
  activeClose := 0

def createNatSession (env : Env) (now : Ktime) (m : Maps) (ekey : SessionKey) (vmIfindex : UInt32)
    (snatIp : SnatIp) (snatPort : UInt16) (initialState : UInt8) : Maps × CreateResult :=
  let ikey := mirrorKey ekey snatIp.ip snatPort
  -- release the slot that was reserved when the port was picked
  let undo := m.setIngress (m.ingressSessions.del ikey)
  if !sessionPolicyAllowed env now m vmIfindex ekey.dstIp then (undo, .deniedByPolicy)
  else
    match m.egressSessions.setNew ekey
        (newSession ekey now vmIfindex snatIp snatPort initialState) with
    | some eg => (m.setEgress eg, .ok)
    | none => (undo, .failed)

def delSession (m : Maps) (ekey : SessionKey) (sess : NatSession) : Maps :=
  (m.setEgress (m.egressSessions.del ekey)).setIngress
    (m.ingressSessions.del (mirrorKey ekey sess.nodeIp sess.nodePort))

/-- Pick a port and create the session, the steps that the three protocols share. -/
def openSession (env : Env) (now : Ktime) (m : Maps) (mvmIp : UInt32) (ekey : SessionKey)
    (vmIfindex : UInt32) (initialState : UInt8) : Maps × CreateResult :=
  match pickSnatIpPort m mvmIp ekey with
  | (m, none) => (m, .failed)
  | (m, some (snatIp, snatPort)) =>
    if snatIp.ip == 0 || snatPort == 0 then (m, .failed)
    else createNatSession env now m ekey vmIfindex snatIp snatPort initialState

/-! ### The three protocols -/

inductive TcpNatResult
  | drop
  | ok (ifindex : UInt32)
  | reset

/-- The maps, what a NAT function returns, the session translated with, and the session opened. -/
structure NatRes (α : Type) where
  maps : Maps
  ret : α
  via : Option SessionKey
  created : Option SessionKey

def translate {α : Type} (skb : Skb) (m : Maps) (key : SessionKey) (created : Option SessionKey)
    (ok fail : α) : NatRes α :=
  if skb.rewriteOk then ⟨m, ok, some key, created⟩ else ⟨m, fail, none, created⟩

def doIcmpNat (env : Env) (now : Ktime) (m : Maps) (skb : Skb) (mvmMeta : MvmMeta) :
    NatRes UInt32 :=
  match pullHeadersIcmp skb with
  | none => ⟨m, 0, none, none⟩
  | some (l3, l4) =>
    if l4.type != 8 then ⟨m, 0, none, none⟩
    else
      let key : SessionKey := ⟨mvmMeta.ip, l3.daddr, l4.echoId, 0, mvmMeta.version, ipprotoIcmp⟩
      match m.egressSessions key with
      | some sess =>
        let m := m.setEgress
          (m.egressSessions.set key (updateIcmpSession .original sess now.ns))
        translate skb m key none sess.nodeIfindex 0
      | none =>
        match openSession env now m mvmMeta.ip key skb.ifindex icmpCtUnreplied with
        | (m, .ok) =>
          match m.egressSessions key with
          | some sess => translate skb m key (some key) sess.nodeIfindex 0
          | none => ⟨m, 0, none, some key⟩
        | (m, _) => ⟨m, 0, none, none⟩

def doUdpNat (env : Env) (now : Ktime) (m : Maps) (skb : Skb) (mvmMeta : MvmMeta) : NatRes UInt32 :=
  match pullHeadersUdp skb with
  | none => ⟨m, 0, none, none⟩
  | some (l3, l4) =>
    let key : SessionKey :=
      ⟨mvmMeta.ip, l3.daddr, l4.source, l4.dest, mvmMeta.version, ipprotoUdp⟩
    match m.egressSessions key with
    | some sess =>
      let m := m.setEgress
        (m.egressSessions.set key (updateUdpSession .original sess now.ns))
      translate skb m key none sess.nodeIfindex 0
    | none =>
      match openSession env now m mvmMeta.ip key skb.ifindex udpCtUnreplied with
      | (m, .ok) =>
        match m.egressSessions key with
        | some sess => translate skb m key (some key) sess.nodeIfindex 0
        | none => ⟨m, 0, none, some key⟩
      | (m, _) => ⟨m, 0, none, none⟩

/-- The `do_create` part of `do_tcp_nat`. -/
def createTcp (env : Env) (now : Ktime) (m : Maps) (skb : Skb) (mvmMeta : MvmMeta)
    (key : SessionKey) : NatRes TcpNatResult :=
  match openSession env now m mvmMeta.ip key skb.ifindex sSS with
  | (m, .ok) =>
    match m.egressSessions key with
    | some sess => translate skb m key (some key) (.ok sess.nodeIfindex) .drop
    | none => ⟨m, .drop, none, some key⟩
  | (m, .deniedByPolicy) => ⟨m, .reset, none, none⟩
  | (m, .failed) => ⟨m, .drop, none, none⟩

/-- The `do_update` part of `do_tcp_nat`. -/
def updateTcp (now : Ktime) (m : Maps) (skb : Skb) (l4 : TcpHdr) (key : SessionKey)
    (sess : NatSession) : NatRes TcpNatResult :=
  let m := m.setEgress
    (m.egressSessions.set key (updateSession .original sess now.ns l4.syn l4.ack l4.fin l4.rst))
  translate skb m key none (.ok sess.nodeIfindex) .drop

/-- The egress key of a TCP packet. -/
def tcpKey (mvmMeta : MvmMeta) (l3 : IpHdr) (l4 : TcpHdr) : SessionKey :=
  ⟨mvmMeta.ip, l3.daddr, l4.source, l4.dest, mvmMeta.version, l3.protocol⟩

def pureSyn (l4 : TcpHdr) : Bool := l4.syn && !l4.ack && !l4.fin && !l4.rst

def doTcpNat (env : Env) (now : Ktime) (m : Maps) (skb : Skb) (mvmMeta : MvmMeta) :
    NatRes TcpNatResult :=
  match pullHeaders skb with
  | none => ⟨m, .drop, none, none⟩
  | some (l3, l4) =>
    let key := tcpKey mvmMeta l3 l4
    if pureSyn l4 then
      match m.egressSessions key with
      | some sess =>
        if sess.state == sCL || sess.state == sTW then
          -- the guest reuses a source port quickly
          createTcp env now (delSession m key sess) skb mvmMeta key
        else updateTcp now m skb l4 key sess
      | none => createTcp env now m skb mvmMeta key
    else
      match m.egressSessions key with
      | some sess => updateTcp now m skb l4 key sess
      | none => ⟨m, if l4.rst then .drop else .reset, none, none⟩

/-!
### The reaper

A pass reads the clock once and walks over the egress table. For each expired session it
deletes the reverse key and then the session itself; the read and the two deletions are
separate steps, between which packets are handled.
-/

def second : UInt64 := 1000000000
def minute : UInt64 := 60 * second

/-- `tcpTimeouts`, with zero for `None`, `Invalid` and `Ignored`. -/
def tcpTimeouts (state : UInt8) : UInt64 :=
  if state == sSS then minute
  else if state == sSR then minute
  else if state == sES then 180 * minute
  else if state == sFW then 2 * minute
  else if state == sCW then minute
  else if state == sLA then 30 * second
  else if state == sTW then 2 * minute
  else if state == sCL then 10 * second
  else if state == sS2 then minute
  else 0

def tcpTimeout (s : NatSession) : UInt64 :=
  if s.state == sTW && s.activeClose == 1 then tcpTimeouts sCL else tcpTimeouts s.state

def udpTimeout (s : NatSession) : UInt64 :=
  if s.state == udpCtUnreplied then 30 * second
  else if s.state == udpCtReplied then 180 * second
  else 0

def icmpTimeout : UInt64 := 30 * second

def sessionExpired (now : UInt64) (key : SessionKey) (sess : NatSession) : Bool :=
  let timeout :=
    if key.protocol == ipprotoUdp then udpTimeout sess
    else if key.protocol == ipprotoIcmp then icmpTimeout
    else tcpTimeout sess
  now > sess.accessTime + timeout

/-- Where the reaper stands. In the last two places it holds the session it read. -/
inductive ReapPc
  | idle
  | scan (now : UInt64)
  | delIngress (now : UInt64) (key : SessionKey) (sess : NatSession)
  | delEgress (now : UInt64) (key : SessionKey) (sess : NatSession)

inductive ReapEv
  | start (now : Ktime)
  | read (key : SessionKey)
  | delete
  | finish

/-- A step of `reapSessions` and `deleteSessions`. The iterator may return any entry. -/
def reapStep (m : Maps) : ReapPc → ReapEv → Option (Maps × ReapPc)
  | .idle, .start now => some (m, .scan now.ns)
  | .scan now, .read key =>
    (m.egressSessions key).map fun sess =>
      (m, if sessionExpired now key sess then .delIngress now key sess else .scan now)
  | .scan _, .finish => some (m, .idle)
  | .delIngress now key sess, .delete =>
    let ikey := mirrorKey key sess.nodeIp sess.nodePort
    some (m.setIngress (m.ingressSessions.del ikey), .delEgress now key sess)
  | .delEgress now key _, .delete =>
    some (m.setEgress (m.egressSessions.del key), .scan now)
  | _, _ => none

end CubeSandbox.Vs
