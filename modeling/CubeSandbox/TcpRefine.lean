import CubeSandbox.NatStep

/-!
The TCP tracker against a reference tracker.

The reference has the ten states of the kernel and moves by the same table, but an entry
`IGNORED` or `INVALID` leaves it where it is. The program stores such an entry like a state;
from then on the state never changes again, and the reaper's timeout for it is zero. So the two
agree exactly on the sequences that meet no such entry.
-/

namespace CubeSandbox.TcpRefine

open Vs

/-! ### The reference -/

inductive CtState
  | none
  | synSent
  | synRecv
  | established
  | finWait
  | closeWait
  | lastAck
  | timeWait
  | close
  | synSent2
  deriving DecidableEq

def CtState.code : CtState → UInt8
  | .none => sNO
  | .synSent => sSS
  | .synRecv => sSR
  | .established => sES
  | .finWait => sFW
  | .closeWait => sCW
  | .lastAck => sLA
  | .timeWait => sTW
  | .close => sCL
  | .synSent2 => sS2

/-- The state of an entry of the table; `IGNORED` and `INVALID` are none. -/
def decode (entry : UInt8) : Option CtState :=
  if entry = sNO then some .none
  else if entry = sSS then some .synSent
  else if entry = sSR then some .synRecv
  else if entry = sES then some .established
  else if entry = sFW then some .finWait
  else if entry = sCW then some .closeWait
  else if entry = sLA then some .lastAck
  else if entry = sTW then some .timeWait
  else if entry = sCL then some .close
  else if entry = sS2 then some .synSent2
  else Option.none

/-- A segment of the connection, with the time at which it is handled. -/
structure Segment where
  dir : Dir
  now : Ktime
  syn : Bool
  ack : Bool
  fin : Bool
  rst : Bool

def Segment.bit (p : Segment) : TcpBitSet := getConntrackIndex p.syn p.ack p.fin p.rst

/-- The entry of the table that a segment meets. -/
def entry (s : CtState) (p : Segment) : Option CtState := decode (nextState p.dir p.bit s.code)

def refStep (s : CtState) (p : Segment) : CtState := (entry s p).getD s

def refRun (s : CtState) (ps : List Segment) : CtState := ps.foldl refStep s

/-- No segment meets an entry `IGNORED` or `INVALID`. -/
def Regular : CtState → List Segment → Prop
  | _, [] => True
  | s, p :: ps => (entry s p).isSome ∧ Regular (refStep s p) ps

instance decidableRegular : ∀ s ps, Decidable (Regular s ps)
  | _, [] => .isTrue trivial
  | s, p :: ps =>
    have := decidableRegular (refStep s p) ps
    inferInstanceAs (Decidable ((entry s p).isSome ∧ Regular (refStep s p) ps))

/-- What a segment does to its session. A connection request of the guest replaces a closed one. -/
def onSegment (s : NatSession) (p : Segment) : NatSession :=
  if p.dir = .original ∧ (p.syn && !p.ack && !p.fin && !p.rst) ∧ (s.state == sCL || s.state == sTW)
  then { s with accessTime := p.now.ns, state := sSS, activeClose := 0 }
  else updateSession p.dir s p.now.ns p.syn p.ack p.fin p.rst

def run (s : NatSession) (ps : List Segment) : NatSession := ps.foldl onSegment s

/-- The part of a session that the tracker and the reaper use. -/
def tracked (s : NatSession) : UInt8 × UInt64 × UInt8 := (s.state, s.accessTime, s.activeClose)

variable {t now : Ktime} {s : NatSession} {c : CtState} {k : SessionKey}

lemma createTcp_tracked {env : Env} {m : Maps} {skb : Skb} {mt : MvmMeta}
    (hk : m.egressSessions k = none) {s' : NatSession}
    (h : (createTcp env now m skb mt k).maps.egressSessions k = some s') :
    tracked s' = (sSS, now.ns, 0) := by
  rcases hopen : openSession env now m mt.ip k skb.ifindex sSS with ⟨m', r⟩
  have hmaps : (createTcp env now m skb mt k).maps = m' := by
    unfold createTcp Vs.translate
    rw [hopen]
    cases r with
    | ok =>
        dsimp only
        split
        · split <;> rfl
        · rfl
    | deniedByPolicy => rfl
    | failed => rfl
  rw [hmaps] at h
  obtain ⟨sl, -, hstep⟩ := openSession_spec hopen
  cases hstep with
  | opened s hs hst =>
      obtain rfl : s = s' := by simpa using h
      simp [tracked, hst, hs.access, hs.close]
  | refused _ hr => simp [hk] at h
  | leaked ip port i hbad hres =>
      obtain ⟨-, rfl⟩ := hres
      simp [hk] at h

/-- `do_tcp_nat` treats the session of a segment of the guest as `onSegment` says. -/
theorem doTcpNat_onSegment {env : Env} {now : Ktime} {m : Maps} {skb : Skb} {mt : MvmMeta}
    {l3 : IpHdr} {l4 : TcpHdr} {s s' : NatSession} (hpull : pullHeaders skb = some (l3, l4))
    (hk : m.egressSessions (tcpKey mt l3 l4) = some s)
    (h : (doTcpNat env now m skb mt).maps.egressSessions (tcpKey mt l3 l4) = some s') :
    tracked s' = tracked (onSegment s ⟨.original, now, l4.syn, l4.ack, l4.fin, l4.rst⟩) := by
  have hupdate : ∀ t, (updateTcp now m skb l4 (tcpKey mt l3 l4) s).maps.egressSessions
      (tcpKey mt l3 l4) = some t →
      t = updateSession .original s now.ns l4.syn l4.ack l4.fin l4.rst := by
    intro t ht
    unfold updateTcp Vs.translate at ht
    split at ht <;> simpa [eq_comm] using ht
  simp only [doTcpNat, hpull, hk] at h
  unfold onSegment
  by_cases hsyn : pureSyn l4
  · by_cases hst : s.state == sCL || s.state == sTW
    · simp only [hsyn, hst, if_true] at h
      rw [if_pos ⟨rfl, hsyn, hst⟩]
      exact createTcp_tracked (KMap.del_self _ _) h
    · simp only [hsyn, hst, if_true, Bool.false_eq_true, if_false] at h
      rw [if_neg fun hc => hst hc.2.2, hupdate _ h]
  · simp only [hsyn, Bool.false_eq_true, if_false] at h
    rw [if_neg fun hc => hsyn hc.2.1, hupdate _ h]

/-- So does `tcp_nat_session` for a segment of the remote end. -/
theorem tcpNatSession_onSegment {now : Ktime} {m : Maps} {skb : Skb} {l3 : IpHdr} {l4 : TcpHdr}
    {s : NatSession}
    (hk : lookupSession m ⟨l3.saddr, l3.daddr, l4.source, l4.dest, 0, l3.protocol⟩ = some (k, s)) :
    (tcpNatSession now m skb l3 l4).maps.egressSessions k =
      some (onSegment s ⟨.reply, now, l4.syn, l4.ack, l4.fin, l4.rst⟩) := by
  unfold tcpNatSession deliver
  simp only [hk, onSegment, reduceCtorEq, false_and, if_false]
  split <;> simp

/-! ### The states agree -/

lemma decode_code (c : CtState) : decode c.code = some c := by cases c <;> rfl

lemma code_of_decode {e : UInt8} (h : decode e = some c) : e = c.code := by
  unfold decode at h
  split_ifs at h with h0 h1 h2 h3 h4 h5 h6 h7 h8 h9 <;> cases h <;>
    assumption

lemma ten_le_of_decode {e : UInt8} (h : decode e = none) : 10 ≤ e.toNat := by
  by_contra hlt
  have hcode : ∀ n : Fin 10, decode (UInt8.ofNat n) ≠ none := by decide
  have he : UInt8.ofNat e.toNat = e := UInt8.ofNat_toNat
  exact hcode ⟨e.toNat, by omega⟩ (by rw [he]; exact h)

lemma entry_ne_none (c : CtState) (p : Segment) : entry c p ≠ some .none := by
  have htable : ∀ dir bit, decode (nextState dir bit c.code) ≠ some .none := by
    intro dir bit
    cases c <;> cases dir <;> cases bit <;> decide
  exact htable p.dir p.bit

lemma onSegment_state (s : NatSession) (p : Segment) :
    (onSegment s p).state = nextState p.dir p.bit s.state := by
  unfold onSegment
  split
  · rename_i h
    obtain ⟨hdir, hflags, hst⟩ := h
    have hbit : p.bit = .syn := by
      simp only [Bool.and_eq_true, Bool.not_eq_true'] at hflags
      simp [Segment.bit, getConntrackIndex, hflags]
    simp only [Bool.or_eq_true, beq_iff_eq] at hst
    rw [hdir, hbit]
    rcases hst with hst | hst <;> rw [hst] <;> rfl
  · simp [updateSession, Segment.bit]

lemma onSegment_stuck (hs : decode s.state = none) (p : Segment) :
    decode (onSegment s p).state = none := by
  have hlt : ¬ s.state.toNat < 10 := by
    have := ten_le_of_decode hs
    omega
  rwa [onSegment_state, nextState, dif_neg hlt]

lemma run_stuck (hs : decode s.state = none) (ps : List Segment) :
    decode (run s ps).state = none := by
  induction ps generalizing s with
  | nil => exact hs
  | cons p ps ih => exact ih (onSegment_stuck hs p)

lemma run_state_iff (hs : s.state = c.code) (ps : List Segment) :
    (run s ps).state = (refRun c ps).code ↔ Regular c ps := by
  induction ps generalizing s c with
  | nil => simpa [run, refRun, Regular] using hs
  | cons p ps ih =>
    have hrun : run s (p :: ps) = run (onSegment s p) ps := rfl
    have href : refRun c (p :: ps) = refRun (refStep c p) ps := rfl
    rw [hrun, href, Regular]
    cases he : entry c p with
    | some c' =>
      have hstep : refStep c p = c' := by simp [refStep, he]
      rw [hstep]
      have hnext : (onSegment s p).state = c'.code := by
        rw [onSegment_state, hs]
        exact code_of_decode he
      simpa using ih hnext
    | none =>
      -- the entry is stored, and no later segment brings the session back
      have hstuck : decode (onSegment s p).state = none := by
        rwa [onSegment_state, hs]
      simp only [Option.isSome_none, Bool.false_eq_true, false_and, iff_false]
      intro heq
      have := run_stuck hstuck ps
      rw [heq, decode_code] at this
      cases this

lemma refStep_ne_none (hc : c ≠ .none) (p : Segment) : refStep c p ≠ .none := by
  unfold refStep
  cases he : entry c p with
  | none => exact hc
  | some c' =>
    rintro h
    obtain rfl : c' = .none := h
    exact entry_ne_none c p he

lemma refRun_ne_none (hc : c ≠ .none) (ps : List Segment) : refRun c ps ≠ .none := by
  induction ps generalizing c with
  | nil => exact hc
  | cons p ps ih => exact ih (refStep_ne_none hc p)

lemma onSegment_rst {p : Segment} (hs : s.state = c.code) (hc : c ≠ .none) (hp : p.rst = true) :
    (onSegment s p).state = sCL := by
  have hbit : p.bit = .rst := by simp [Segment.bit, getConntrackIndex, hp]
  rw [onSegment_state, hs, hbit]
  cases p.dir <;> cases c <;> first | rfl | exact absurd rfl hc

/-- The segments are handled in the order of the clock, the first one not before `t`. -/
def Clocked : Ktime → List Segment → Prop
  | _, [] => True
  | t, p :: ps => t.ns ≤ p.now.ns ∧ Clocked p.now ps

instance decidableClocked : ∀ t ps, Decidable (Clocked t ps)
  | _, [] => .isTrue trivial
  | t, p :: ps =>
    have := decidableClocked p.now ps
    inferInstanceAs (Decidable (t.ns ≤ p.now.ns ∧ Clocked p.now ps))

def last : Ktime → List Segment → Ktime
  | t, [] => t
  | _, p :: ps => last p.now ps

/-- The access time lags behind the last packet by at most the refresh interval. -/
def Lags (s : NatSession) (t : Ktime) : Prop :=
  s.accessTime ≤ t.ns ∧ t.ns.toNat ≤ s.accessTime.toNat + sessionRefreshIntervalNs.toNat

lemma lazyRefresh_lags (hs : Lags s t) (ht : t.ns ≤ now.ns) :
    Lags (sessionLazyRefresh s now.ns) now := by
  have hle : s.accessTime ≤ now.ns := UInt64.le_trans hs.1 ht
  unfold sessionLazyRefresh
  split
  · exact ⟨UInt64.le_refl _, by simp⟩
  rename_i hgap
  refine ⟨hle, ?_⟩
  rw [gt_iff_lt, UInt64.lt_iff_toNat_lt, not_lt, UInt64.toNat_sub_of_le _ _ hle] at hgap
  omega

lemma onSegment_lags (p : Segment) (hs : Lags s t) (ht : t.ns ≤ p.now.ns) :
    Lags (onSegment s p) p.now := by
  unfold onSegment
  split
  · exact ⟨UInt64.le_refl _, by simp⟩
  · exact lazyRefresh_lags hs ht

lemma run_lags {ps : List Segment} (hs : Lags s t) (hps : Clocked t ps) :
    Lags (run s ps) (last t ps) := by
  induction ps generalizing s t with
  | nil => exact hs
  | cons p ps ih => exact ih (onSegment_lags p hs hps.1) hps.2

lemma onSegment_activeClose (p : Segment) (hs : s.activeClose = 0) :
    (onSegment s p).activeClose = 0 := by
  unfold onSegment
  split
  · rfl
  have hb := congrArg NatSession.Binding.activeClose
    (updateSession_binding p.dir s p.now.ns p.syn p.ack p.fin p.rst)
  exact hb.trans hs

lemma run_activeClose (ps : List Segment) (hs : s.activeClose = 0) :
    (run s ps).activeClose = 0 := by
  induction ps generalizing s with
  | nil => exact hs
  | cons p ps ih => exact ih (onSegment_activeClose p hs)

/-- The timeout of a state of the reference. -/
def timeout (c : CtState) : UInt64 := tcpTimeouts c.code

lemma timeout_lt (c : CtState) : (timeout c).toNat < 2 ^ 62 := by
  cases c <;> decide

lemma not_expired (hk : k.protocol = ipprotoTcp) (hs : s.state = c.code)
    (hc : s.activeClose = 0) (hl : Lags s t)
    (hnow : now.ns.toNat + sessionRefreshIntervalNs.toNat ≤ t.ns.toNat + (timeout c).toNat) :
    sessionExpired now.ns k s = false := by
  have htimeout : tcpTimeout s = timeout c := by simp [tcpTimeout, timeout, hc, hs]
  have hle := UInt64.le_iff_toNat_le.1 hl.1
  have hsum : (s.accessTime + timeout c).toNat = s.accessTime.toNat + (timeout c).toNat := by
    have := t.bound
    have := timeout_lt c
    rw [UInt64.toNat_add, Nat.mod_eq_of_lt]
    omega
  simp only [sessionExpired, hk, htimeout]
  refine decide_eq_false ?_
  rw [gt_iff_lt, UInt64.lt_iff_toNat_lt]
  change ¬ (s.accessTime + timeout c).toNat < now.ns.toNat
  have := hl.2
  omega

/-- What the tracker owes a connection after some segments. -/
structure Refines (k : SessionKey) (s : NatSession) (c : CtState) (t : Ktime) : Prop where
  state : s.state = c.code
  real : s.state.toNat < 10
  reset : ∀ p : Segment, p.rst = true → (onSegment s p).state = sCL
  reap : ∀ now : Ktime,
    now.ns.toNat + sessionRefreshIntervalNs.toNat ≤ t.ns.toNat + (timeout c).toNat →
      sessionExpired now.ns k s = false

/-- **The tracker refines the reference exactly on regular sequences** of segments in both
directions, from the connection request on. -/
theorem tracker_refines_iff_regular (k : SessionKey) (now : Ktime) (tap : UInt32) (slot : SnatIp)
    (port : UInt16) (ps : List Segment) (hk : k.protocol = ipprotoTcp) (hps : Clocked now ps) :
    Refines k (run (newSession k now tap slot port sSS) ps) (refRun .synSent ps) (last now ps) ↔
      Regular .synSent ps := by
  have hiff := run_state_iff (s := newSession k now tap slot port sSS) (c := .synSent) rfl ps
  refine ⟨fun h => hiff.1 h.state, fun h => ?_⟩
  have hstate := hiff.2 h
  have hne : refRun .synSent ps ≠ .none := refRun_ne_none (by decide) ps
  have hlags : Lags (newSession k now tap slot port sSS) now :=
    ⟨UInt64.le_refl _, Nat.le_add_right _ _⟩
  refine ⟨hstate, ?_, fun p hp => onSegment_rst hstate hne hp, fun now' hnow => ?_⟩
  · rw [hstate]
    generalize refRun .synSent ps = c
    cases c <;> decide
  · exact not_expired hk hstate (run_activeClose ps rfl) (run_lags hlags hps) hnow

/-- The states of a session whose remote end has sent no SYN. -/
def unanswered : List UInt8 := [sSS, sCL, sIV, sIG]

lemma onSegment_unanswered {p : Segment} (hs : s.state ∈ unanswered)
    (hp : p.dir = .reply → p.syn = false) : (onSegment s p).state ∈ unanswered := by
  have htable : ∀ x ∈ unanswered, ∀ syn ack fin rst,
      nextState .original (getConntrackIndex syn ack fin rst) x ∈ unanswered ∧
        nextState .reply (getConntrackIndex false ack fin rst) x ∈ unanswered := by decide +kernel
  rw [onSegment_state]
  obtain ⟨dir, now, syn, ack, fin, rst⟩ := p
  cases dir with
  | original => exact (htable _ hs syn ack fin rst).1
  | reply =>
    obtain rfl : syn = false := hp rfl
    exact (htable _ hs false ack fin rst).2

/-- **The timeout of an unanswered connection** is at most a minute: as long as no SYN comes back,
whatever else is sent. -/
theorem unanswered_times_out (s : NatSession) (ps : List Segment) (hs : s.state = sSS)
    (hps : ∀ p ∈ ps, p.dir = .reply → p.syn = false) : tcpTimeout (run s ps) ≤ minute := by
  have hrun : (run s ps).state ∈ unanswered := by
    have hstart : s.state ∈ unanswered := by simp [hs, unanswered]
    clear hs
    induction ps generalizing s with
    | nil => exact hstart
    | cons p ps ih =>
      obtain ⟨hp, hps⟩ := List.forall_mem_cons.1 hps
      exact ih _ hps (onSegment_unanswered hstart hp)
  have htimeout : ∀ x ∈ unanswered, x ≠ sTW ∧ tcpTimeouts x ≤ minute := by decide +kernel
  obtain ⟨hne, hle⟩ := htimeout _ hrun
  simpa [tcpTimeout, hne] using hle

def demoKey : SessionKey := ⟨0x0200000a, 0x08080808, htons 40000, htons 8080, 1, ipprotoTcp⟩

def demoSlot : SnatIp := ⟨2, 0x020a8709, maxPortStart⟩

/-- The session of a connection request handled at time 1. -/
def opened : NatSession := newSession demoKey (.ofNs 1) 7 demoSlot (htons 30000) sSS

def synAck (n : Nat) : Segment := ⟨.reply, .ofNs n, true, true, false, false⟩

def handshake : List Segment := [synAck 2, ⟨.original, .ofNs 3, false, true, false, false⟩]

/-- A connection that is opened and closed by both ends. -/
def closing : List Segment :=
  handshake ++ [⟨.original, .ofNs 4, false, true, true, false⟩,
    ⟨.reply, .ofNs 5, false, true, true, false⟩, ⟨.original, .ofNs 6, false, true, false, false⟩]

/-- The guest goes on as if it had been answered. -/
theorem bold_guest_times_out : tcpTimeout (run opened
    [⟨.original, .ofNs 2, false, true, false, false⟩,
      ⟨.reply, .ofNs 3, false, true, false, false⟩]) ≤ minute :=
  unanswered_times_out opened _ rfl (by decide)

theorem closing_refines : Clocked (.ofNs 1) closing ∧ Regular .synSent closing ∧
      Refines demoKey (run opened closing) (refRun .synSent closing) (last (.ofNs 1) closing) :=
  ⟨by decide, by decide, (tracker_refines_iff_regular demoKey (.ofNs 1) 7 demoSlot (htons 30000)
    closing rfl (by decide)).2 (by decide)⟩

/-- The remote end repeats its answer on an established connection: a reset no longer closes the
session, and the reaper may delete it two seconds after the packet. -/
theorem repeated_synAck_not_refined : Clocked (.ofNs 1) (handshake ++ [synAck 4]) ∧
      refRun .synSent (handshake ++ [synAck 4]) = .established ∧
      (run opened (handshake ++ [synAck 4])).state = sIG ∧
      (run opened (handshake ++ [synAck 4, ⟨.reply, .ofNs 5, false, false, false, true⟩])).state =
        sIG ∧
      sessionExpired 2000000004 demoKey (run opened (handshake ++ [synAck 4])) = true ∧
      ¬ Refines demoKey (run opened (handshake ++ [synAck 4]))
        (refRun .synSent (handshake ++ [synAck 4])) (last (.ofNs 1) (handshake ++ [synAck 4])) :=
  ⟨by decide, by decide, by decide, by decide, by decide, fun h => absurd h.state (by decide)⟩

end CubeSandbox.TcpRefine
