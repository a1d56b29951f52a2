import CubeSandbox.VsTypes

/-!
Reading DNS messages (`dns_parser.h`), and the response path of the DNS policy
(`dns_response.h`).

A message is the list of the bytes that follow the UDP header, and an offset counts from
the first of them: where the programs add `dns_off` to every offset, the model does not.
Reading past the end fails, as `bpf_skb_load_bytes` does.

A response that answers a tracked query adds the addresses of its answers to the allow
trie of the sandbox, as entries of one address that expire.
-/

namespace CubeSandbox.Vs

open Lpm

def dnsPort : UInt16 := htons 53
def dnsHdrLen : Nat := 12
def dnsMaxLabelLen : UInt8 := 63
def dnsFlagQr : UInt16 := 0x8000
def dnsFlagOpcodeMask : UInt16 := 0x7800
def dnsFlagAa : UInt16 := 0x0400
def dnsFlagTc : UInt16 := 0x0200
def dnsFlagRa : UInt16 := 0x0080
def dnsFlagZReserved : UInt16 := 0x0040
def dnsRcodeMask : UInt16 := 0x000f
def dnsCompressPtrMask : UInt8 := 0xc0
def dnsTypeA : UInt16 := 1
def dnsClassIn : UInt16 := 1
def dnsQnameHashOffset : UInt64 := 14695981039346656037
def dnsQnameHashPrime : UInt64 := 1099511628211

def loadU16 (d : List UInt8) (off : Nat) : Option UInt16 :=
  match d[off]?, d[off + 1]? with
  | some hi, some lo => some ((hi.toUInt16 <<< 8) ||| lo.toUInt16)
  | _, _ => none

def loadU32 (d : List UInt8) (off : Nat) : Option UInt32 :=
  match loadU16 d off, loadU16 d (off + 2) with
  | some hi, some lo => some ((hi.toUInt32 <<< 16) ||| lo.toUInt32)
  | _, _ => none

structure DnsWireHeader where
  id : UInt16
  flags : UInt16
  qdcount : UInt16
  ancount : UInt16
  nscount : UInt16

/-- The twelve bytes of a header. The identifier keeps the byte order of the wire. -/
def loadHeader (d : List UInt8) : Option DnsWireHeader := do
  let id ← loadU16 d 0
  let flags ← loadU16 d 2
  let qdcount ← loadU16 d 4
  let ancount ← loadU16 d 6
  let nscount ← loadU16 d 8
  let _ ← loadU16 d 10
  return ⟨htons id, flags, qdcount, ancount, nscount⟩

structure DnsQuestionFooter where
  qtype : UInt16
  qclass : UInt16

def dnsReadQuestionFooter (d : List UInt8) (cursor : Nat) : Option DnsQuestionFooter := do
  let qtype ← loadU16 d cursor
  let qclass ← loadU16 d (cursor + 2)
  return ⟨qtype, qclass⟩

/-- `dns_payload_offset`: whether the lengths in the headers leave room for a DNS header. -/
def dnsPayloadFits (l3 : IpHdr) (udp : UdpHdr) : Bool :=
  20 ≤ ipHlen l3 && ipHlen l3 ≤ 60 && ipHlen l3 + udp.len.toNat ≤ l3.totLen.toNat &&
    8 + dnsHdrLen ≤ udp.len.toNat

def dnsQnameLower (c : UInt8) : UInt8 := if 65 ≤ c && c ≤ 90 then c + 32 else c

def dnsFlagsAreStandard (flags : UInt16) : Bool :=
  flags &&& dnsFlagOpcodeMask == 0 && flags &&& dnsFlagTc == 0 &&
    flags &&& dnsFlagZReserved == 0 && flags &&& dnsRcodeMask == 0

def dnsQueryHeaderIsSupported (hdr : DnsWireHeader) : Bool :=
  dnsFlagsAreStandard hdr.flags && hdr.flags &&& (dnsFlagAa ||| dnsFlagRa) == 0 &&
    hdr.qdcount == 1 && hdr.ancount == 0 && hdr.nscount == 0

/-- The number of answers of a response that may be learned from. -/
def dnsResponseHeaderIsSupported (hdr : DnsWireHeader) : Option UInt16 :=
  if dnsFlagsAreStandard hdr.flags && hdr.qdcount == 1 && hdr.ancount != 0 then some hdr.ancount
  else none

def dnsReadQueryHeader (d : List UInt8) : Option DnsWireHeader :=
  (loadHeader d).filter fun hdr => hdr.flags &&& dnsFlagQr == 0

def dnsReadResponseHeader (d : List UInt8) : Option DnsWireHeader :=
  (loadHeader d).filter fun hdr => hdr.flags &&& dnsFlagQr != 0

/-- A byte that cannot start a plain label: a compression mark or a length that is too long. -/
def badLabelLen (c : UInt8) : Bool := c &&& dnsCompressPtrMask != 0 || c > dnsMaxLabelLen

/-- Skip a name, plain or compressed, and return the offset after it. -/
def skipLoop (d : List UInt8) : Nat → Nat → Option Nat
  | 0, _ => none
  | n + 1, off =>
    match d[off]? with
    | none => none
    | some c =>
      if c &&& dnsCompressPtrMask == dnsCompressPtrMask then
        (d[off + 1]?).map fun _ => off + 2
      else if badLabelLen c then none
      else if c == 0 then some (off + 1)
      else skipLoop d n (off + 1 + c.toNat)

def dnsSkipName (d : List UInt8) (cursor : Nat) : Option Nat := skipLoop d maxDnsNameLen cursor

def dnsHashQnameByte (hash : UInt64) (byte : UInt8) : UInt64 :=
  (hash ^^^ byte.toUInt64) * dnsQnameHashPrime

/-- Hash a plain name. The two copies of the loop count a label down in different words. -/
def hashLoop (countDown : Nat → Nat) (d : List UInt8) :
    Nat → Nat → Nat → UInt64 → Option (Nat × UInt64)
  | 0, _, _, _ => none
  | n + 1, off, labelRemaining, hash =>
    match d[off]? with
    | none => none
    | some c =>
      let hash := dnsHashQnameByte hash c
      if labelRemaining = 0 then
        if c == 0 then some (off + 1, hash)
        else if badLabelLen c then none
        else hashLoop countDown d n (off + 1) c.toNat hash
      else hashLoop countDown d n (off + 1) (countDown labelRemaining) hash

/-- The hash of a question's name, its footer and the offset after the question. -/
def hashQname (countDown : Nat → Nat) (d : List UInt8) (cursor : Nat) :
    Option (Nat × DnsQuestionFooter × UInt64) := do
  let (off, hash) ← hashLoop countDown d maxDnsNameLen cursor 0 dnsQnameHashOffset
  let question ← dnsReadQuestionFooter d off
  return (off + 4, question, hash)

/-- The copy of the query path. -/
def dnsHashQname : List UInt8 → Nat → Option (Nat × DnsQuestionFooter × UInt64) :=
  hashQname fun n => (n - 1) &&& dnsMaxLabelLen.toNat

/-- The copy of the response path. -/
def dnsHashQnameInline : List UInt8 → Nat → Option (Nat × DnsQuestionFooter × UInt64) :=
  hashQname fun n => n - 1

def dnsQuestionFooterIsIpv4A (question : DnsQuestionFooter) : Bool :=
  question.qtype == dnsTypeA && question.qclass == dnsClassIn

/-! ### Responses -/

def dnsPolicyFlagLearningEnabled : UInt8 := 1
def dnsMaxResponseAnswers : Nat := 8
def dnsMaxRdataLen : Nat := 256
def dnsMinTtl : UInt32 := 300

def dnsResponseLearningEnabled (m : Maps) (ifindex : UInt32) : Bool :=
  (m.ifindexToMvmmeta ifindex).any fun mt =>
    mt.dnsPolicyFlags &&& dnsPolicyFlagLearningEnabled != 0

/-- The value written for a learned address, given what the trie holds for it. -/
def learnedValue (now : Ktime) (ttl : UInt32) (flags : UInt8) (old : Option NetPolicyValueV2) :
    NetPolicyValueV2 :=
  let value : NetPolicyValueV2 := ⟨now.ns + ttl.toUInt64 * nsecPerSec, flags⟩
  match old with
  | none => value
  | some old =>
    { expiresAtNs := if old.expiresAtNs == 0 then 0 else value.expiresAtNs
      flags := value.flags ||| old.flags }

def dnsLearnResponseIp (now : Ktime) (m : Maps) (ifindex ip ttl : UInt32) (flags : UInt8) : Maps :=
  let key : LpmKey := ⟨32, ip⟩
  match m.allowOutV2 ifindex with
  | none => m
  | some t =>
    let t' := t.set key.bits (learnedValue now ttl flags (lookup t key.bits))
    m.setAllow (m.allowOutV2.set ifindex t')

structure DnsRrHeader where
  type : UInt16
  klass : UInt16
  ttl : UInt32
  rdlength : UInt16

def loadRrHeader (d : List UInt8) (off : Nat) : Option DnsRrHeader := do
  let type ← loadU16 d off
  let klass ← loadU16 d (off + 2)
  let ttl ← loadU32 d (off + 4)
  let rdlength ← loadU16 d (off + 8)
  return ⟨type, klass, ttl, rdlength⟩

/-- An address, in the byte order of the wire. -/
def loadIp (d : List UInt8) (off : Nat) : Option UInt32 :=
  match d[off]?, d[off + 1]?, d[off + 2]?, d[off + 3]? with
  | some a, some b, some c, some e =>
    some (a.toUInt32 ||| (b.toUInt32 <<< 8) ||| (c.toUInt32 <<< 16) ||| (e.toUInt32 <<< 24))
  | _, _, _, _ => none

def dnsResponseRecordIsIpv4A (rr : DnsRrHeader) : Bool :=
  rr.type == dnsTypeA && rr.klass == dnsClassIn && rr.rdlength == 4

/-- The maps, the offset to go on at, if any, and whether an address was learned. -/
structure AnswerRes where
  maps : Maps
  cursor : Option Nat
  learned : Bool

/-- The time to live of an answer, raised to the floor. -/
def answerTtl (ttl : UInt32) : UInt32 := if ttl < dnsMinTtl then dnsMinTtl else ttl

def dnsProcessResponseAnswer (now : Ktime) (m : Maps) (d : List UInt8) (cursor : Nat)
    (ifindex : UInt32) (flags : UInt8) : AnswerRes :=
  match dnsSkipName d cursor with
  | none => ⟨m, none, false⟩
  | some cursor =>
    match loadRrHeader d cursor with
    | none => ⟨m, none, false⟩
    | some rr =>
      let cursor := cursor + 10
      let next := if rr.rdlength.toNat > dnsMaxRdataLen then none
        else some (cursor + rr.rdlength.toNat)
      if dnsResponseRecordIsIpv4A rr then
        match loadIp d cursor with
        | none => ⟨m, none, false⟩
        | some ip =>
          ⟨dnsLearnResponseIp now m ifindex ip (answerTtl rr.ttl) flags, next, true⟩
      else ⟨m, next, false⟩

/-- The loop over the answers, of which `left` are announced. -/
def answerLoop (now : Ktime) (d : List UInt8) (ifindex : UInt32) (flags : UInt8) :
    Nat → Nat → Maps → Nat → Bool → Maps × Bool
  | 0, _, m, _, learned => (m, learned)
  | _ + 1, 0, m, _, learned => (m, learned)
  | n + 1, left + 1, m, cursor, learned =>
    let res := dnsProcessResponseAnswer now m d cursor ifindex flags
    match res.cursor with
    | none => (res.maps, learned || res.learned)
    | some cursor => answerLoop now d ifindex flags n left res.maps cursor (learned || res.learned)

/-- `dns_handle_response`, with the tracked query if an address was learned through it. -/
def dnsHandleResponse (now : Ktime) (m : Maps) (d : List UInt8) (ifindex serverIp : UInt32)
    (sourcePort : UInt16) : Maps × Option DnsQueryTrackKey :=
  if !dnsResponseLearningEnabled m ifindex then (m, none)
  else
    match dnsReadResponseHeader d with
    | none => (m, none)
    | some hdr =>
      if hdr.qdcount != 1 then (m, none)
      else
        match dnsHashQnameInline d dnsHdrLen with
        | none => (m, none)
        | some (cursor, question, qnameHash) =>
          if !dnsQuestionFooterIsIpv4A question then (m, none)
          else
            let key : DnsQueryTrackKey := ⟨ifindex, serverIp, sourcePort, hdr.id, qnameHash⟩
            match m.dnsQueryTrack key with
            | none => (m, none)
            | some query =>
              let (m, learned) :=
                if query.expiresAtNs ≤ now.ns then (m, false)
                else
                  match dnsResponseHeaderIsSupported hdr with
                  | none => (m, false)
                  | some ancount => answerLoop now d ifindex query.flags dnsMaxResponseAnswers
                      ancount.toNat m cursor false
              (m.setTrack (m.dnsQueryTrack.del key), if learned then some key else none)

end CubeSandbox.Vs
