import CubeSandbox.DnsParse

/-!
The query path of the DNS policy (`dns_query.h` and the tail-called programs of
`mvmtap.bpf.c`).

The name of a question is parsed, reversed and matched by three programs that call each
other. Each handles at most `dnsParseChunkSize` bytes and then jumps to itself or to the
next one, and the kernel bounds the number of jumps. The state they share lies in a
per-CPU buffer which keeps what an earlier packet left in it.
-/

namespace CubeSandbox.Vs

open Lpm Option

def dnsParseChunkSize : Nat := 64

/-- The number of tail calls that the kernel grants one packet. -/
def maxTailCallCnt : Nat := 33

structure DnsQueryState where
  ifindex : UInt32
  cursor : Nat
  labelRemaining : Nat
  dottedLen : Nat
  reversePos : Nat
  failed : Bool
  done : Bool
  name : NameBuf

def dnsInitQueryState (name : NameBuf) (ifindex : UInt32) : DnsQueryState where
  ifindex := ifindex
  cursor := dnsHdrLen
  labelRemaining := 0
  dottedLen := 0
  reversePos := 0
  failed := false
  done := false
  name := name

/-- The start of a label of length `c`: a dot after an earlier label, then room for the rest. -/
def startLabel (st : DnsQueryState) (c : UInt8) : DnsQueryState :=
  let st := if st.dottedLen ≠ 0 then
    { st with name := st.name.put st.dottedLen 46, dottedLen := st.dottedLen + 1 } else st
  if st.dottedLen + c.toNat ≥ maxDnsNameLen then { st with failed := true }
  else { st with labelRemaining := c.toNat }

/-- One turn of `dns_parse_query_name_chunk`; a state that is failed or done is left alone. -/
def parseStep (d : List UInt8) (st : DnsQueryState) : DnsQueryState :=
  if st.failed || st.done then st
  else if st.dottedLen ≥ maxDnsNameLen then { st with failed := true }
  else
    match d[st.cursor]? with
    | none => { st with failed := true }
    | some c =>
      let st := { st with cursor := st.cursor + 1 }
      if st.labelRemaining = 0 then
        if c == 0 then { st with done := true }
        else if badLabelLen c then { st with failed := true }
        else startLabel st c
      else
        { st with
          name := st.name.put st.dottedLen (dnsQnameLower c)
          dottedLen := st.dottedLen + 1
          labelRemaining := st.labelRemaining - 1 }

def dnsParseQueryNameChunk (d : List UInt8) : DnsQueryState → DnsQueryState :=
  (parseStep d)^[dnsParseChunkSize]

/-- The loop of `dns_reverse_query_name_chunk`; the flag says that the name is complete. -/
def reverseLoop : Nat → DnsQueryState → DnsAllowKey → Bool × DnsQueryState × DnsAllowKey
  | 0, st, question => (false, st, question)
  | n + 1, st, question =>
    if st.reversePos ≥ st.dottedLen then
      (true, st, { question with name := question.name.put st.dottedLen 0 })
    else
      let c := st.name.get (st.dottedLen - 1 - st.reversePos)
      reverseLoop n { st with reversePos := st.reversePos + 1 }
        { question with name := question.name.put st.reversePos c }

def dnsReverseQueryNameChunk (st : DnsQueryState) (question : DnsAllowKey) :
    Bool × DnsQueryState × DnsAllowKey :=
  if st.dottedLen = 0 ∨ st.dottedLen ≥ maxDnsNameLen then (false, st, question)
  else reverseLoop dnsParseChunkSize st { question with prefixlen := (st.dottedLen + 1) * 8 }

inductive DnsProg
  | parse
  | reverse
  | finish

/-- How the pipeline ends: in `dns_finish`, or with the packet dropped. -/
inductive DnsOutcome
  | finish (st : DnsQueryState) (question : DnsAllowKey)
  | shot

/-- A tail call with `n` calls left; without a result the caller goes on. -/
def tailCall (d : List UInt8) : Nat → DnsProg → DnsQueryState → DnsAllowKey → Option DnsOutcome
  | 0, _, _, _ => none
  | _ + 1, .finish, st, question => some (.finish st question)
  | n + 1, .parse, st, question =>
    let finish (st : DnsQueryState) := (tailCall d n .finish st question).getD .shot
    let st := dnsParseQueryNameChunk d st
    some <| if st.failed then finish st
      else if st.done then
        let bad := st.labelRemaining ≠ 0 ∨ st.dottedLen = 0 ∨ st.dottedLen ≥ maxDnsNameLen
        let st := if bad then { st with failed := true } else st
        (tailCall d n .reverse st question).getD (finish { st with failed := true })
      else (tailCall d n .parse st question).getD (finish { st with failed := true })
  | n + 1, .reverse, st, question =>
    some <| if st.failed then (tailCall d n .finish st question).getD .shot
      else
        match dnsReverseQueryNameChunk st question with
        | (true, st, question) => (tailCall d n .finish st question).getD .shot
        | (false, st, question) =>
          (tailCall d n .reverse st question).getD
            ((tailCall d n .finish { st with failed := true } question).getD .shot)

/-- Match the reversed name in the trie of the sandbox. -/
def dnsAllowMatchValue (innerMap : Trie DnsAllowValue) (question : DnsAllowKey) :
    Option DnsAllowValue :=
  if question.prefixlen = 0 ∨ question.prefixlen > maxDnsNameLen * 8 ∨ question.prefixlen % 8 ≠ 0
  then none
  else (lookup innerMap question.bits).filter fun v =>
    v.nameLen != 0 && v.nameLen.toNat ≤ question.prefixlen / 8

def dnsTrackAllowedQuery (now : Ktime) (m : Maps) (skb : Skb) (st : DnsQueryState)
    (flags : UInt8) (qnameHash : UInt64) : Maps × Option DnsQueryTrackKey :=
  match pullHeadersUdp skb, loadHeader skb.data with
  | some (l3, udp), some hdr =>
    let key : DnsQueryTrackKey := ⟨st.ifindex, l3.daddr, udp.source, hdr.id, qnameHash⟩
    (m.setTrack (m.dnsQueryTrack.set key ⟨now.ns + dnsQueryTrackTtlNs, flags⟩), some key)
  | _, _ => (m, none)

/-! ### Entry -/

def dnsParseQueryQuestion (d : List UInt8) : Option Bool := do
  let cursor ← dnsSkipName d dnsHdrLen
  let question ← dnsReadQuestionFooter d cursor
  return dnsQuestionFooterIsIpv4A question

/-- Whether a packet enters DNS filtering: a standard query for an address with one question. -/
def dnsQueryShouldFilterIpv4A (d : List UInt8) (hdr : DnsWireHeader) : Bool :=
  dnsQueryHeaderIsSupported hdr && (dnsParseQueryQuestion d).getD false

/-- The tracking part of `dns_finish`, with the key of the record besides the maps. -/
def dnsFinishTrack (now : Ktime) (m : Maps) (skb : Skb) (st : DnsQueryState)
    (question : DnsAllowKey) : Maps × Option DnsQueryTrackKey :=
  match m.dnsAllow st.ifindex with
  | none => (m, none)
  | some innerMap =>
    if st.failed then (m, none)
    else
      match dnsHashQname skb.data dnsHdrLen with
      | none => (m, none)
      | some (_, _, qnameHash) =>
        match dnsAllowMatchValue innerMap question with
        | none => (m, none)
        | some matched => dnsTrackAllowedQuery now m skb st matched.flags qnameHash

/-- `dns_handle_query` passes, or leads to the programs above, which finish or drop the packet. -/
inductive DnsQueryRes
  | pass
  | shot
  | finish (st : DnsQueryState) (question : DnsAllowKey)

/-- The buffers of a CPU, as an earlier packet left them. -/
structure DnsScratch where
  name : NameBuf
  question : DnsAllowKey

def dnsHandleQuery (m : Maps) (skb : Skb) (scratch : DnsScratch) (ifindex : UInt32) : DnsQueryRes :=
  match dnsReadQueryHeader skb.data with
  | none => .pass
  | some hdr =>
    if (m.dnsAllow ifindex).isNone then .pass
    else if !dnsQueryShouldFilterIpv4A skb.data hdr then .pass
    else if !skb.tailCallsOk then .shot
    else
      match tailCall skb.data maxTailCallCnt .parse (dnsInitQueryState scratch.name ifindex)
          scratch.question with
      | some (.finish st question) => .finish st question
      | _ => .shot

lemma startLabel_ifindex (st : DnsQueryState) (c : UInt8) :
    (startLabel st c).ifindex = st.ifindex := by
  unfold startLabel
  split <;> dsimp only <;> split <;> rfl

lemma parseStep_ifindex (d : List UInt8) (st : DnsQueryState) :
    (parseStep d st).ifindex = st.ifindex := by
  unfold parseStep
  split
  · rfl
  split
  · rfl
  split
  · rfl
  dsimp only
  split
  · split
    · rfl
    split
    · rfl
    · exact startLabel_ifindex _ _
  · rfl

lemma dnsParseQueryNameChunk_ifindex (d : List UInt8) (st : DnsQueryState) :
    (dnsParseQueryNameChunk d st).ifindex = st.ifindex := by
  have h : ∀ n, ((parseStep d)^[n] st).ifindex = st.ifindex := by
    intro n
    induction n with
    | zero => rfl
    | succ n ih => rw [Function.iterate_succ_apply', parseStep_ifindex, ih]
  exact h _

lemma reverseLoop_ifindex (n : Nat) (st : DnsQueryState) (q : DnsAllowKey) :
    (reverseLoop n st q).2.1.ifindex = st.ifindex := by
  induction n generalizing st q with
  | zero => rfl
  | succ n ih =>
    unfold reverseLoop
    split
    · rfl
    · rw [ih]

lemma dnsReverseQueryNameChunk_ifindex (st : DnsQueryState) (q : DnsAllowKey) :
    (dnsReverseQueryNameChunk st q).2.1.ifindex = st.ifindex := by
  unfold dnsReverseQueryNameChunk
  split
  · rfl
  · exact reverseLoop_ifindex _ _ _

lemma tailCall_ifindex {d : List UInt8} {n : Nat} {p : DnsProg} {st st' : DnsQueryState}
    {q q' : DnsAllowKey} (h : tailCall d n p st q = some (.finish st' q')) :
    st'.ifindex = st.ifindex := by
  induction n generalizing p st q with
  | zero => simp [tailCall] at h
  | succ n ih =>
    -- a call that is not taken makes the caller fall back on another one
    have hget : ∀ {p : DnsProg} {st1 : DnsQueryState} {q : DnsAllowKey} {o : DnsOutcome},
        (tailCall d n p st1 q).getD o = .finish st' q' →
        (st'.ifindex = st1.ifindex ∨ o = .finish st' q') := by
      intro p st1 q o ho
      cases hc : tailCall d n p st1 q with
      | none => rw [hc] at ho; exact .inr ho
      | some o' => rw [hc] at ho; exact .inl (ih (hc.trans (congrArg some ho)))
    cases p with
    | finish =>
      simp only [tailCall, some.injEq, DnsOutcome.finish.injEq] at h
      rw [h.1]
    | parse =>
      have hst := dnsParseQueryNameChunk_ifindex d st
      simp only [tailCall, some.injEq] at h
      generalize dnsParseQueryNameChunk d st = st1 at h hst
      split at h
      · obtain h | h := hget h
        · rw [h, hst]
        · cases h
      split at h
      · obtain h | h := hget h
        · rw [h, ← hst]; split <;> rfl
        obtain h | h := hget h
        · rw [h, ← hst]; split <;> rfl
        · cases h
      obtain h | h := hget h
      · rw [h, hst]
      obtain h | h := hget h
      · rw [h, ← hst]
      · cases h
    | reverse =>
      have hst := dnsReverseQueryNameChunk_ifindex st q
      simp only [tailCall, some.injEq] at h
      split at h
      · obtain h | h := hget h
        · exact h
        · cases h
      rcases hr : dnsReverseQueryNameChunk st q with ⟨_ | _, st1, q1⟩
      · rw [hr] at h hst
        obtain h | h := hget h
        · rw [h, ← hst]
        obtain h | h := hget h
        · rw [h, ← hst]
        · cases h
      · rw [hr] at h hst
        obtain h | h := hget h
        · rw [h, ← hst]
        · cases h

lemma dnsHandleQuery_ifindex {m : Maps} {skb : Skb} {scratch : DnsScratch} {ifindex : UInt32}
    {st : DnsQueryState} {q : DnsAllowKey}
    (h : dnsHandleQuery m skb scratch ifindex = .finish st q) : st.ifindex = ifindex := by
  unfold dnsHandleQuery at h
  split at h
  · cases h
  split at h
  · cases h
  split at h
  · cases h
  split at h
  · cases h
  split at h
  · rename_i hcall
    cases h
    exact tailCall_ifindex hcall
  · cases h

end CubeSandbox.Vs
