import CubeSandbox.PolExact

/-!
The reaper of learned addresses among the answers that are learned meanwhile
(`dns_reaper.go`, `dns_response.h`).

A pass reads the clock once. It walks over the inner maps and over the entries of each; an
entry that it has read as expired is deleted in a step of its own, by its key alone. An answer
that comes in between gives the entry a new expiry.
-/

namespace CubeSandbox.DnsReap

open Vs Lpm Runs PolExact Option List

/-- Where a pass stands. In the last place it holds an expired entry that it has read. -/
inductive Pc
  | idle
  | outer (now : UInt64)
  | inner (now : UInt64) (ifindex : UInt32)
  | held (now : UInt64) (ifindex : UInt32) (key : List Bool)

structure St where
  maps : Maps
  clock : Ktime
  reaper : Pc
  /-- What the reaper has deleted: the time, and the entry as it was then. -/
  deleted : List (Ktime × NetPolicyValueV2)

inductive Ev
  | learn (ifindex ip ttl : UInt32) (flags : UInt8)
  | advance (now : Ktime)
  | start
  /-- The iterator of the outer map returns an interface. -/
  | openInner (ifindex : UInt32)
  /-- The iterator of the inner map returns a key. -/
  | read (key : List Bool)
  | delete
  /-- The deletion is refused, which ends the walk over this inner map. -/
  | refused
  /-- An iterator comes to its end, or fails. -/
  | leave

/-- A step of `reapDNSLearnedPolicies` and `reapDNSLearnedPoliciesForInnerMap`. -/
def reapStep (s : St) : Pc → Ev → Option St
  | .idle, .start => some { s with reaper := .outer s.clock.ns }
  | .outer now, .openInner ifindex =>
    (s.maps.allowOutV2 ifindex).map fun _ => { s with reaper := .inner now ifindex }
  | .inner now ifindex, .read key => do
    let t ← s.maps.allowOutV2 ifindex
    let value ← t key
    return { s with
      reaper := if netPolicyValueV2Expired value now then .held now ifindex key
        else .inner now ifindex }
  | .held now ifindex key, .delete => do
    let t ← s.maps.allowOutV2 ifindex
    return { s with
      maps := s.maps.setAllow (s.maps.allowOutV2.set ifindex (t.del key))
      deleted := s.deleted ++ (t key).toList.map fun value => (s.clock, value)
      reaper := .inner now ifindex }
  | .held now _ _, .refused => some { s with reaper := .outer now }
  | .inner now _, .leave => some { s with reaper := .outer now }
  | .outer _, .leave => some { s with reaper := .idle }
  | _, _ => none

def step (s : St) : Ev → Option St
  | .learn ifindex ip ttl flags =>
    some { s with maps := dnsLearnResponseIp s.clock s.maps ifindex ip (answerTtl ttl) flags }
  | .advance now => if s.clock.ns ≤ now.ns then some { s with clock := now } else none
  | e => reapStep s s.reaper e

def start (maps : Maps) (clock : Ktime) : St := ⟨maps, clock, .idle, []⟩

/-- A deleted entry was learned, and its time had come. -/
def Expired (d : Ktime × NetPolicyValueV2) : Prop :=
  d.2.expiresAtNs ≠ 0 ∧ d.2.expiresAtNs ≤ d.1.ns

/-- No answer for an address comes while the reaper holds the entry of this address. -/
def Undisturbed (s : St) : Ev → Prop
  | .learn ifindex ip _ _ =>
    match s.reaper with
    | .held _ i key => ¬ (i = ifindex ∧ key = ipBits ip)
    | _ => True
  | _ => True

instance (s : St) (e : Ev) : Decidable (Undisturbed s e) := by
  cases e <;> unfold Undisturbed
  case learn =>
    cases s.reaper <;> infer_instance
  all_goals infer_instance

lemma learn_maps (clock : Ktime) (m : Maps) (ifindex ip ttl : UInt32) (flags : UInt8)
    (i : UInt32) (key : List Bool) :
    ((dnsLearnResponseIp clock m ifindex ip ttl flags).allowOutV2 i).bind (· key) =
      if i = ifindex ∧ key = ipBits ip then
        (m.allowOutV2 i).map fun t => learnedValue clock ttl flags (lookup t (ipBits ip))
      else (m.allowOutV2 i).bind (· key) := by
  unfold dnsLearnResponseIp
  cases hm : m.allowOutV2 ifindex with
  | none =>
    by_cases hi : i = ifindex
    · subst hi
      simp [hm]
    · simp [hi]
  | some t =>
    simp only [Maps.setAllow_allowOutV2, host_bits]
    by_cases hi : i = ifindex
    · subst hi
      rw [KMap.set_self, hm]
      by_cases hk : key = ipBits ip
      · subst hk
        simp
      · simp [hk, KMap.set_ne _ _ hk]
    · rw [KMap.set_ne _ _ hi]
      simp [hi]

/-- The time that a pass works with. -/
def Pc.now : Pc → Option UInt64
  | .idle => none
  | .outer now | .inner now _ | .held now _ _ => some now

/-- The entry that the reaper holds is there and satisfies `P`, and so did those it deleted. -/
structure Inv (P : Ktime → NetPolicyValueV2 → Prop) (s : St) : Prop where
  held : ∀ now i key, s.reaper = .held now i key →
    ∃ v, (s.maps.allowOutV2 i).bind (· key) = some v ∧ P s.clock v
  deleted : ∀ d ∈ s.deleted, P d.1 d.2
  past : ∀ now, s.reaper.now = some now → now ≤ s.clock.ns

/-- It holds of what is read as expired, and time does not harm it. -/
structure Lasting (P : Ktime → NetPolicyValueV2 → Prop) : Prop where
  read : ∀ clock v now, netPolicyValueV2Expired v now = true → now ≤ clock.ns → P clock v
  time : ∀ clock clock' v, clock.ns ≤ clock'.ns → P clock v → P clock' v

section
variable {P : Ktime → NetPolicyValueV2 → Prop} {s s' : St}

lemma Inv.learn (hi : Inv P s) {ifindex ip ttl : UInt32} {flags : UInt8}
    (hlearn : ∀ now v, s.reaper = .held now ifindex (ipBits ip) → P s.clock v →
      P s.clock (learnedValue s.clock (answerTtl ttl) flags (some v))) :
    Inv P { s with
      maps := dnsLearnResponseIp s.clock s.maps ifindex ip (answerTtl ttl) flags } := by
  refine ⟨fun now i key hpc => ?_, hi.deleted, hi.past⟩
  obtain ⟨v, hv, hP⟩ := hi.held now i key hpc
  simp only [learn_maps]
  by_cases hown : i = ifindex ∧ key = ipBits ip
  · obtain ⟨rfl, rfl⟩ := hown
    obtain ⟨t, ht, hkey⟩ := bind_eq_some_iff.1 hv
    rw [if_pos ⟨rfl, rfl⟩, ht]
    refine ⟨_, rfl, ?_⟩
    dsimp only
    rw [lookup_of_stored hkey]
    exact hlearn now v hpc hP
  · rw [if_neg hown]
    exact ⟨v, hv, hP⟩

lemma Inv.move (hi : Inv P s) {pc : Pc} (hpc : ∀ now i key, pc ≠ .held now i key)
    (hnow : ∀ now, pc.now = some now → s.reaper.now = some now ∨ now = s.clock.ns) :
    Inv P { s with reaper := pc } := by
  refine ⟨fun now i key h => absurd h (hpc now i key), hi.deleted, fun now h => ?_⟩
  rcases hnow now h with hold | rfl
  · exact hi.past now hold
  · exact UInt64.le_refl _

lemma Inv.reap (hi : Inv P s) (hP : Lasting P) {e : Ev}
    (h : reapStep s s.reaper e = some s') : Inv P s' := by
  unfold reapStep at h
  split at h
  · -- a pass begins
    cases h
    exact hi.move nofun fun _ hn => .inr (some.inj hn).symm
  · rename_i now ifindex hpc
    obtain ⟨_, -, rfl⟩ := map_eq_some_iff.1 h
    exact hi.move nofun fun _ hn => .inl (hpc ▸ hn)
  · -- an entry is read; one that has expired is held
    rename_i now ifindex key hpc
    obtain ⟨t, ht, h⟩ := bind_eq_some_iff.1 h
    obtain ⟨v, hv, h⟩ := bind_eq_some_iff.1 h
    cases h
    have hpast : now ≤ s.clock.ns := hi.past now (hpc ▸ rfl)
    by_cases hexp : netPolicyValueV2Expired v now = true
    · rw [if_pos hexp]
      refine ⟨fun now' i key' h' => ?_, hi.deleted, fun now' h' => ?_⟩
      · cases h'
        exact ⟨v, bind_eq_some_iff.2 ⟨t, ht, hv⟩, hP.read _ _ _ hexp hpast⟩
      · cases h'
        exact hpast
    · rw [if_neg hexp]
      exact hi.move nofun fun _ hn => .inl (hpc ▸ hn)
  · -- what is held is deleted
    rename_i now ifindex key hpc
    obtain ⟨t, ht, h⟩ := bind_eq_some_iff.1 h
    cases h
    obtain ⟨v, hv, hPv⟩ := hi.held now ifindex key hpc
    obtain ⟨t', ht', hv⟩ := bind_eq_some_iff.1 hv
    cases ht.symm.trans ht'
    refine ⟨nofun, fun d hd => ?_, fun now' hn => hi.past now' (hpc ▸ hn)⟩
    simp only [hv, toList_some, map_cons, map_nil, mem_append,
      mem_singleton] at hd
    rcases hd with hd | rfl
    · exact hi.deleted d hd
    · exact hPv
  · rename_i now i key hpc
    cases h
    exact hi.move nofun fun _ hn => .inl (hpc ▸ hn)
  · rename_i now i hpc
    cases h
    exact hi.move nofun fun _ hn => .inl (hpc ▸ hn)
  · cases h
    exact hi.move nofun nofun
  · cases h

lemma Inv.step (hi : Inv P s) (hP : Lasting P) {e : Ev}
    (hlearn : ∀ now ifindex ip ttl flags v, e = .learn ifindex ip ttl flags →
      s.reaper = .held now ifindex (ipBits ip) → P s.clock v →
      P s.clock (learnedValue s.clock (answerTtl ttl) flags (some v)))
    (h : DnsReap.step s e = some s') : Inv P s' := by
  cases e with
  | learn ifindex ip ttl flags =>
    cases h
    exact hi.learn fun now v hpc hv => hlearn now ifindex ip ttl flags v rfl hpc hv
  | advance now =>
    rw [DnsReap.step] at h
    split at h <;> cases h
    rename_i hle
    refine ⟨fun now' i key hpc => ?_, hi.deleted, fun now' hn =>
      UInt64.le_trans (hi.past now' hn) hle⟩
    obtain ⟨v, hv, hPv⟩ := hi.held now' i key hpc
    exact ⟨v, hv, hP.time _ _ _ hle hPv⟩
  | _ => exact hi.reap hP h

lemma Inv.start (maps : Maps) (clock : Ktime) : Inv P (start maps clock) := ⟨nofun, nofun, nofun⟩

end

lemma expired_iff {v : NetPolicyValueV2} {now : UInt64} :
    netPolicyValueV2Expired v now = true ↔ v.expiresAtNs ≠ 0 ∧ v.expiresAtNs ≤ now := by
  simp [netPolicyValueV2Expired]

lemma learned_not_static (clock : Ktime) (ttl : UInt32) (flags : UInt8) {v : NetPolicyValueV2}
    (hv : v.expiresAtNs ≠ 0) :
    (learnedValue clock (answerTtl ttl) flags (some v)).expiresAtNs ≠ 0 := by
  have hzero : expiry v ≠ 0 := fun h => hv (UInt64.toNat_inj.1 h)
  have hval := expiry_learnedValue clock (answerTtl ttl) flags (some v)
  rw [answerTtl_toNat] at hval
  intro h0
  have h0' : expiry (learnedValue clock (answerTtl ttl) flags (some v)) = 0 := by
    simp [expiry, h0]
  rw [h0'] at hval
  have := le_max_right ttl.toNat 300
  simp only [any_some, hzero, beq_iff_eq, if_false] at hval
  omega

/-- **The reaper deletes no static entry**, whatever is learned meanwhile. -/
theorem static_never_deleted (maps : Maps) (clock : Ktime) (es : List Ev) (s : St)
    (h : exec step (start maps clock) es = some s) : ∀ d ∈ s.deleted, d.2.expiresAtNs ≠ 0 := by
  have hP : Lasting fun _ v => v.expiresAtNs ≠ 0 :=
    ⟨fun _ _ _ hexp _ => (expired_iff.1 hexp).1, fun _ _ _ _ hv => hv⟩
  have hstep : ∀ s e s', Inv (fun _ v => v.expiresAtNs ≠ 0) s → step s e = some s' →
      Inv (fun _ v => v.expiresAtNs ≠ 0) s' :=
    fun s e s' hi hs => hi.step hP (fun _ _ _ _ _ _ _ _ hv => learned_not_static _ _ _ hv) hs
  exact (exec_inv' hstep (.start maps clock) h).deleted

/-- **What is deleted has expired**, if no answer for it comes between its reading and its
deletion. -/
theorem only_expired_deleted (maps : Maps) (clock : Ktime) (es : List Ev) (s : St)
    (hm : Meets step Undisturbed (start maps clock) es)
    (h : exec step (start maps clock) es = some s) : ∀ d ∈ s.deleted, Expired d := by
  have hP : Lasting fun clock v => Expired (clock, v) := by
    refine ⟨fun clock v now hexp hnow => ?_, fun _ _ v hle hv => ⟨hv.1, UInt64.le_trans hv.2 hle⟩⟩
    obtain ⟨hne, hle⟩ := expired_iff.1 hexp
    exact ⟨hne, UInt64.le_trans hle hnow⟩
  have hstep : ∀ s e s', Inv (fun clock v => Expired (clock, v)) s → Undisturbed s e →
      step s e = some s' → Inv (fun clock v => Expired (clock, v)) s' := by
    intro s e s' hi hok hs
    refine hi.step hP ?_ hs
    rintro now ifindex ip ttl flags v rfl hpc -
    simp [Undisturbed, hpc] at hok
  exact (exec_inv hstep (.start maps clock) hm h).deleted

/-- One device, for which one address was learned that expires at time 5. -/
def oneLearned (ip : UInt32) : Maps :=
  (Maps.init fun _ => ⟨0, 0, 0⟩).setAllow
    (KMap.empty.set 7 (KMap.empty.set (ipBits ip) ⟨5, 0⟩))

/-- A pass at time 10. -/
def pass (ip : UInt32) (between : List Ev) : List Ev :=
  [.start, .openInner 7, .read (ipBits ip)] ++ between ++ [.delete, .leave, .leave]

theorem only_expired_deleted_in_pass :
    ∃ s, exec step (start (oneLearned 1) (.ofNs 10)) (pass 1 [.learn 7 2 0 0]) = some s ∧
      s.deleted = [(.ofNs 10, ⟨5, 0⟩)] ∧ ∀ d ∈ s.deleted, Expired d := by
  refine leads (·.deleted) [(.ofNs 10, ⟨5, 0⟩)] (by decide +kernel) fun s hs hd => ?_
  exact ⟨hd, only_expired_deleted _ _ _ s (by decide +kernel) hs⟩

theorem renewed_entry_not_static :
    ∃ s, exec step (start (oneLearned 1) (.ofNs 10)) (pass 1 [.learn 7 1 0 0]) = some s ∧
      s.deleted ≠ [] ∧ ∀ d ∈ s.deleted, d.2.expiresAtNs ≠ 0 := by
  refine leads (·.deleted.length) 1 (by decide +kernel) fun s hs hd => ?_
  exact ⟨fun h => by simp [h] at hd, static_never_deleted _ _ _ s hs⟩

/-- An answer renews the entry after it was read; it is deleted 300 seconds before its time. -/
theorem renewed_entry_deleted : ¬ ∀ (maps : Maps) (clock : Ktime) (es : List Ev) (s : St),
      exec step (start maps clock) es = some s → ∀ d ∈ s.deleted, Expired d := by
  intro h
  have hfact : (exec step (start (oneLearned 1) (.ofNs 10)) (pass 1 [.learn 7 1 0 0])).map
      (·.deleted) = some [(.ofNs 10, ⟨300000000010, 0⟩)] := by
    decide +kernel
  obtain ⟨s, hs, hd⟩ := map_eq_some_iff.1 hfact
  have hexp := h _ _ _ s hs _ (hd ▸ mem_singleton_self _)
  exact absurd hexp.2 (by decide)

end CubeSandbox.DnsReap
