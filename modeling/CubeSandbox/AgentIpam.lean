import CubeSandbox.AgentAlloc

/-!
The allocator of addresses (`ipam.go`) as a set: in every sequence of calls, with any arguments,
it behaves as the set of the numbers in use, of which the reserved ones stay in use.
-/

namespace CubeSandbox.Agent.IpAllocator

open Set List

/-- `binary.BigEndian.Uint32`. -/
def be32 (b : List UInt8) : Ip := b.foldl (fun n x => n * 256 + x.toUInt32) 0

/-- `net.IP.To4`: four bytes, or the last four of an address that is mapped into sixteen. -/
def to4 (ip : List UInt8) : Option Ip :=
  if ip.length = 4 then some (be32 ip)
  else if ip.length = 16 ∧ ip.take 12 = replicate 10 0 ++ [255, 255] then
    some (be32 (ip.drop 12))
  else none

def reserveLastUsable (a : IpAllocator) (count : Int) : IpAllocator :=
  if count ≤ 0 then a
  else
    let first := if (a.size : Int) - 1 - count < 2 then 2 else a.size - 1 - count.toNat
    (range' first (a.size - 1 - first)).foldl reserveIdx a

inductive Call
  | reserveLastUsable (count : Int)
  | allocate
  | assign (ip : List UInt8)
  | release (ip : List UInt8)

/-- `Allocate` returns an address or an error, the other calls return nothing. -/
inductive Reply
  | allocated (ip : Ip)
  | exhausted
  | done
  deriving DecidableEq

def call (a : IpAllocator) : Call → Reply × IpAllocator
  | .reserveLastUsable count => (.done, a.reserveLastUsable count)
  | .allocate => (a.allocate.1.elim .exhausted .allocated, a.allocate.2)
  | .assign ip => (.done, (to4 ip).elim a a.assign)
  | .release ip => (.done, (to4 ip).elim a a.release)

def calls (a : IpAllocator) (cs : List Call) : IpAllocator := cs.foldl (fun a c => (a.call c).2) a

namespace Pool

def named (p : Pool) (ip : List UInt8) : Set Nat := {i | ∃ x, to4 ip = some x ∧ p.Names x i}

/-- The last numbers before the broadcast address, without the network and the gateway. -/
def last (p : Pool) (count : Int) : Set Nat :=
  {i | 0 < count ∧ 2 ≤ i ∧ i + 1 < p.size ∧ (p.size : Int) - 1 - count ≤ i}

/-- What a call may do to a pool and answer. -/
def Step (p : Pool) (c : Call) (r : Reply) (p' : Pool) : Prop :=
  match c with
  | .allocate =>
    match r with
    | .allocated ip => ∃ i, p.Names ip i ∧ i ∉ p.used ∧ p' = p.take {i}
    | .exhausted => (∀ i < p.size, i ∈ p.used) ∧ p' = p
    | .done => False
  | .assign ip => r = .done ∧ p' = p.take (p.named ip)
  | .release ip => r = .done ∧ p' = p.free (p.named ip \ p.reserved)
  | .reserveLastUsable count => r = .done ∧ p' = p.reserve (p.last count)

variable {p p' : Pool} {c : Call} {r : Reply}

/-- A call keeps the block, and what is reserved stays so. -/
lemma Step.keeps (h : p.Step c r p') :
    p'.start = p.start ∧ p'.size = p.size ∧ p.reserved ⊆ p'.reserved := by
  cases c with
  | allocate =>
    cases r with
    | allocated ip =>
      obtain ⟨i, -, -, rfl⟩ := h
      exact ⟨rfl, rfl, subset_rfl⟩
    | exhausted =>
      obtain ⟨-, rfl⟩ := h
      exact ⟨rfl, rfl, subset_rfl⟩
    | done => exact h.elim
  | assign | release =>
    obtain ⟨-, rfl⟩ := h
    exact ⟨rfl, rfl, subset_rfl⟩
  | reserveLastUsable =>
    obtain ⟨-, rfl⟩ := h
    exact ⟨rfl, rfl, subset_union_left⟩

/-- Only a release of its address frees a number. -/
lemma Step.used {ip : Ip} {i : Nat} (h : p.Step c r p') (hip : p.Names ip i)
    (hc : ∀ x, c = .release x → to4 x ≠ some ip) (hi : i ∈ p.used) : i ∈ p'.used := by
  cases c with
  | allocate =>
    cases r with
    | allocated =>
      obtain ⟨j, -, -, rfl⟩ := h
      exact .inl hi
    | exhausted =>
      obtain ⟨-, rfl⟩ := h
      exact hi
    | done => exact h.elim
  | assign | reserveLastUsable =>
    obtain ⟨-, rfl⟩ := h
    exact .inl hi
  | release x =>
    obtain ⟨-, rfl⟩ := h
    refine ⟨hi, fun ⟨⟨y, hy, hyi⟩, _⟩ => hc x rfl ?_⟩
    rw [hy, UInt32.toNat_inj.1 (hyi.2.trans hip.2.symm)]

end Pool

variable {a : IpAllocator} {i : Nat}

/-- The counter is the number of the bits that are set, and all of them are inside the block. -/
structure Inv (a : IpAllocator) : Prop where
  count : a.usedIpNum = a.pool.used.ncard
  inside : ∀ i ∈ a.pool.used, i < a.size

section

variable (h : Inv a)
include h

lemma Inv.finite : a.pool.used.Finite := (finite_lt_nat a.size).subset h.inside

lemma Inv.setUsed (hi : i < a.size) (hfree : i ∉ a.pool.used) : Inv (a.setUsed i) where
  count := by
    rw [pool_setUsed, Pool.take, union_singleton, ncard_insert_of_notMem hfree h.finite, ← h.count]
    rfl
  inside j hj := by
    rw [pool_setUsed] at hj
    rcases hj with hj | rfl
    · exact h.inside j hj
    · exact hi

lemma Inv.setUnused (hi : i ∈ a.pool.used) (hres : i ∉ a.reserved) : Inv (a.setUnused i hres) where
  count := by
    rw [pool_setUnused, Pool.free, ncard_sdiff_singleton_of_mem hi, ← h.count]
    rfl
  inside j hj := by
    rw [pool_setUnused] at hj
    exact h.inside j hj.1

lemma Inv.reserveIdx (hi : i < a.size) : Inv (a.reserveIdx i) := by
  have hbase : Inv (if a.existIdx i then a else a.setUsed i) := by
    split
    · exact h
    · exact h.setUsed hi ‹_›
  exact ⟨hbase.count, hbase.inside⟩

lemma Inv.reserveAll {l : List Nat} (hl : ∀ i ∈ l, i < a.size) :
    Inv (l.foldl IpAllocator.reserveIdx a) := by
  induction l generalizing a with
  | nil => exact h
  | cons i l ih =>
    refine ih (h.reserveIdx (hl i mem_cons_self)) fun j hj => ?_
    have hsize : (a.reserveIdx i).size = a.size := congrArg Pool.size (pool_reserveIdx a i)
    rw [hsize]
    exact hl j (mem_cons_of_mem _ hj)

end

/-- The ring reaches every number. -/
lemma ring_reaches {n i : Nat} (m : Nat) (hi : i < n) : ∃ k, 0 < k ∧ k ≤ n ∧ (m + k) % n = i := by
  have hm : m % n < n := Nat.mod_lt _ (by omega)
  by_cases hlt : m % n < i
  · refine ⟨i - m % n, by omega, by omega, ?_⟩
    rw [← Nat.mod_add_mod, Nat.add_sub_cancel' hlt.le, Nat.mod_eq_of_lt hi]
  · refine ⟨i + n - m % n, by omega, by omega, ?_⟩
    rw [← Nat.mod_add_mod, Nat.add_sub_cancel' (by omega), Nat.add_mod_right, Nat.mod_eq_of_lt hi]

section

variable (h : Inv a)
include h

lemma Inv.allocate : Inv a.allocate.2 ∧
      a.pool.Step .allocate (a.allocate.1.elim .exhausted .allocated) a.allocate.2.pool := by
  unfold IpAllocator.allocate
  split
  · rename_i hfull
    refine ⟨h, fun i hi => ?_, rfl⟩
    have hall : a.pool.used = Finset.range a.size := by
      refine eq_of_subset_of_ncard_le (fun j hj => ?_) ?_ (Finset.finite_toSet _)
      · exact Finset.mem_coe.2 (Finset.mem_range.2 (h.inside j hj))
      · rwa [ncard_coe_finset, Finset.card_range, ← h.count]
    rw [hall]
    exact Finset.mem_coe.2 (Finset.mem_range.2 hi)
  cases hrun : allocLoop a.size a with
  | mk r a' =>
    cases r with
    | some ip =>
      obtain ⟨i, m, hi, hfree, rfl, rfl⟩ := allocLoop_some hrun
      have hm : Inv { a with maxIdx := m } := ⟨h.count, h.inside⟩
      refine ⟨hm.setUsed hi hfree, i, ⟨hi, toNat_idx2Ip hi⟩, hfree, ?_⟩
      exact pool_setUsed _ i
    | none =>
      obtain ⟨⟨m, rfl⟩, hall⟩ := allocLoop_none hrun
      refine ⟨⟨h.count, h.inside⟩, fun i hi => ?_, rfl⟩
      obtain ⟨k, hk, hle, rfl⟩ := ring_reaches a.maxIdx hi
      exact hall k hk hle

lemma Inv.assign (ip : Ip) :
    Inv (a.assign ip) ∧ (a.assign ip).pool = a.pool.take {i | a.pool.Names ip i} := by
  simp only [names_iff]
  unfold IpAllocator.assign
  cases hip : a.idxOf ip with
  | none => exact ⟨h, by simp [Pool.take]⟩
  | some i =>
    have hset : {j | some i = some j} = ({i} : Set Nat) := by
      ext j
      simp [eq_comm]
    rw [hset]
    by_cases hused : a.existIdx i
    · have hmem : i ∈ a.pool.used := hused
      simp only [if_pos hused]
      refine ⟨⟨h.count, h.inside⟩, ?_⟩
      rw [Pool.take, union_eq_self_of_subset_right (singleton_subset_iff.2 hmem)]
      rfl
    · simp only [if_neg hused]
      have hset := h.setUsed (idxOf_eq_some hip).1 hused
      exact ⟨⟨hset.count, hset.inside⟩, pool_setUsed a i⟩

lemma Inv.release (ip : Ip) : Inv (a.release ip) := by
  unfold IpAllocator.release
  cases a.idxOf ip with
  | none => exact h
  | some i =>
    dsimp only
    split
    · exact h
    split
    · exact h.setUnused ‹_› ‹_›
    · exact h

lemma Inv.reserveLastUsable (count : Int) : Inv (a.reserveLastUsable count) ∧
      (a.reserveLastUsable count).pool = a.pool.reserve (a.pool.last count) := by
  unfold IpAllocator.reserveLastUsable
  split
  · rename_i hle
    have hlast : a.pool.last count = ∅ := by
      ext i
      simp [Pool.last]
      omega
    exact ⟨h, by simp [hlast, Pool.reserve]⟩
  rename_i hpos
  generalize hfirst : (if (a.size : Int) - 1 - count < 2 then 2 else a.size - 1 - count.toNat)
    = first
  have hlast : a.pool.last count = {i | i ∈ range' first (a.size - 1 - first)} := by
    ext i
    simp only [Pool.last, mem_ofPred_eq, mem_range'_1]
    change _ ∧ _ ∧ i + 1 < a.size ∧ (a.size : Int) - 1 - count ≤ i ↔ _
    split at hfirst <;> omega
  rw [hlast]
  refine ⟨h.reserveAll fun i hi => ?_, pool_reserveAll _ a⟩
  have := mem_range'_1.1 hi
  omega

lemma Inv.call (c : Call) : Inv (a.call c).2 ∧ a.pool.Step c (a.call c).1 (a.call c).2.pool := by
  cases c with
  | reserveLastUsable count =>
    obtain ⟨hinv, hpool⟩ := h.reserveLastUsable count
    exact ⟨hinv, rfl, hpool⟩
  | allocate =>
    have hstep := h.allocate
    refine ⟨hstep.1, ?_⟩
    exact hstep.2
  | assign ip =>
    cases hip : to4 ip with
    | none => simpa [IpAllocator.call, hip, Pool.Step, Pool.named, Pool.take] using h
    | some x => simpa [IpAllocator.call, hip, Pool.Step, Pool.named] using h.assign x
  | release ip =>
    cases hip : to4 ip with
    | none => simpa [IpAllocator.call, hip, Pool.Step, Pool.named, Pool.free] using h
    | some x => simpa [IpAllocator.call, hip, Pool.Step, Pool.named] using
        And.intro (h.release x) (pool_release (a := a) x)

lemma Inv.calls (cs : List Call) : Inv (a.calls cs) ∧ (a.calls cs).pool.start = a.pool.start ∧
      (a.calls cs).pool.size = a.pool.size ∧ a.pool.reserved ⊆ (a.calls cs).pool.reserved := by
  induction cs generalizing a with
  | nil => exact ⟨h, rfl, rfl, subset_rfl⟩
  | cons c cs ih =>
    obtain ⟨hinv, hstep⟩ := h.call c
    obtain ⟨hstart, hsize, hres⟩ := hstep.keeps
    obtain ⟨hlast, hstart', hsize', hres'⟩ := ih hinv
    exact ⟨hlast, hstart'.trans hstart, hsize'.trans hsize, hres.trans hres'⟩

lemma Inv.calls_used {ip : Ip} (hip : a.pool.Names ip i) (hi : i ∈ a.pool.used) {cs : List Call}
    (hcs : ∀ x, .release x ∈ cs → to4 x ≠ some ip) :
    (a.calls cs).pool.Names ip i ∧ i ∈ (a.calls cs).pool.used := by
  induction cs generalizing a with
  | nil => exact ⟨hip, hi⟩
  | cons c cs ih =>
    obtain ⟨hinv, hstep⟩ := h.call c
    obtain ⟨hstart, hsize, -⟩ := hstep.keeps
    refine ih hinv ?_ ?_ fun x hx => hcs x (mem_cons_of_mem _ hx)
    · rwa [Pool.Names, hstart, hsize]
    · exact hstep.used hip (fun x hx => hcs x (hx ▸ mem_cons_self)) hi

end

variable (cidr : Ip) {mask : Nat}
  (hmask : sandboxCidrMinMask ≤ mask ∧ mask ≤ sandboxCidrMaxMask)

lemma inv_new : Inv (new cidr mask 0 hmask) ∧
    (new cidr mask 0 hmask).pool.start = cidr.toNat / 2 ^ (32 - mask) * 2 ^ (32 - mask) ∧
    (new cidr mask 0 hmask).pool.size = 2 ^ (32 - mask) ∧
    {0, 1, 2 ^ (32 - mask) - 1} ⊆ (new cidr mask 0 hmask).pool.reserved := by
  have hsize : 2 ≤ 2 ^ (32 - mask) := by
    have hmask : mask ≤ 24 := hmask.2
    exact Nat.le_self_pow (by omega) 2
  obtain ⟨base, hnew, hstart, hn, hcount, hbits⟩ : ∃ base : IpAllocator,
      new cidr mask 0 hmask = [0, 1, 2 ^ (32 - mask) - 1].foldl IpAllocator.reserveIdx base ∧
      base.startIdx = cidr.toNat / 2 ^ (32 - mask) * 2 ^ (32 - mask) ∧
      base.size = 2 ^ (32 - mask) ∧ base.usedIpNum = 0 ∧ base.bitmap = fun _ => false :=
    ⟨_, rfl, rfl, rfl, rfl, rfl⟩
  have hbase : Inv base := ⟨by simp [hcount, hbits, pool], by simp [hbits, pool]⟩
  have hinside : ∀ i ∈ [0, 1, 2 ^ (32 - mask) - 1], i < base.size := by
    rw [hn]
    simp only [mem_cons, not_mem_nil, or_false, forall_eq_or_imp, forall_eq]
    omega
  rw [hnew]
  refine ⟨hbase.reserveAll hinside, ?_⟩
  rw [pool_reserveAll]
  refine ⟨hstart, hn, fun i hi => .inr ?_⟩
  simpa using hi

/-- **The allocator is a set.** -/
theorem allocator_refines_set (cs : List Call) (c : Call) : let n := 2 ^ (32 - mask)
    let a := (new cidr mask 0 hmask).calls cs
    a.pool.start = cidr.toNat / n * n ∧ a.pool.size = n ∧ a.usedIpNum = a.pool.used.ncard ∧
      {0, 1, n - 1} ⊆ a.pool.reserved ∧ a.pool.reserved ⊆ a.pool.used ∧
      a.pool.Step c (a.call c).1 (a.call c).2.pool := by
  intro n a
  obtain ⟨hnew, hstart, hsize, hends⟩ := inv_new cidr hmask
  obtain ⟨hinv, hstart', hsize', hres⟩ := hnew.calls cs
  exact ⟨hstart'.trans hstart, hsize'.trans hsize, hinv.count, hends.trans hres,
    fun i hi => a.reserved_used i hi, (hinv.call c).2⟩

/-- **An address is not handed out again before it is released**, whatever is called between. -/
theorem allocated_once (cs mid : List Call) (ip ip' : Ip) :
    let a := (new cidr mask 0 hmask).calls cs
    (a.call .allocate).1 = .allocated ip → (∀ x, .release x ∈ mid → to4 x ≠ some ip) →
      (((a.call .allocate).2.calls mid).call .allocate).1 = .allocated ip' → ip' ≠ ip := by
  rintro a hip hmid hip' rfl
  have ha : Inv a := ((inv_new cidr hmask).1.calls cs).1
  obtain ⟨hinv, hstep⟩ := ha.call .allocate
  rw [hip] at hstep
  obtain ⟨i, hi, -, hpool⟩ := hstep
  have hused : i ∈ (a.call .allocate).2.pool.used := by rw [hpool]; exact .inr rfl
  have hname : (a.call .allocate).2.pool.Names ip' i := by rw [hpool]; exact hi
  obtain ⟨hi, hused⟩ := hinv.calls_used hname hused hmid
  obtain ⟨j, hj, hfree, -⟩ := hip' ▸ ((hinv.calls mid).1.call .allocate).2
  have hij : j = i := Nat.add_left_cancel (hj.2.symm.trans hi.2)
  exact hfree (hij ▸ hused)

theorem second_address_differs :
    ((((new 0xC0A80000 24 0 (by decide)).call .allocate).2.calls [.release [192, 168, 0, 3]]).call
      .allocate).1 = .allocated 0xC0A80003 ∧ (0xC0A80003 : Ip) ≠ 0xC0A80002 := by
  have h : ((((new 0xC0A80000 24 0 (by decide)).call .allocate).2.calls
      [.release [192, 168, 0, 3]]).call .allocate).1 = .allocated 0xC0A80003 := by decide +kernel
  refine ⟨h, allocated_once 0xC0A80000 (by decide) [] _ _ _ (by decide +kernel) (fun x hx => ?_) h⟩
  obtain rfl : x = [192, 168, 0, 3] := by simpa using hx
  decide

theorem third_address_allocated :
    let a := (new 0xC0A80000 24 0 (by decide)).calls [.allocate, .release [192, 168, 0, 1]]
    (a.call .allocate).1 = .allocated 0xC0A80003 ∧
      a.pool.Step .allocate (a.call .allocate).1 (a.call .allocate).2.pool := by
  refine ⟨by decide +kernel, ?_⟩
  exact (allocator_refines_set 0xC0A80000 (by decide) _ .allocate).2.2.2.2.2

/-- `Assign` also takes an address that is in use, here the gateway's. -/
theorem assign_takes_used :
    ¬ ∀ (cidr : Ip) (mask : Nat) (hmask : sandboxCidrMinMask ≤ mask ∧ mask ≤ sandboxCidrMaxMask)
      (cs : List Call) (ip : List UInt8),
      let a := (new cidr mask 0 hmask).calls cs
      (a.call (.assign ip)).1 = .done → ∀ i ∈ a.pool.named ip, i ∉ a.pool.used := by
  intro hall
  have hnamed : 1 ∈ (new 0xC0A80000 24 0 (by decide)).pool.named [192, 168, 0, 1] :=
    ⟨0xC0A80001, by decide, by decide, by decide⟩
  have hused : (new 0xC0A80000 24 0 (by decide)).bitmap 1 = true := by decide
  exact hall 0xC0A80000 24 (by decide) [] [192, 168, 0, 1] rfl 1 hnamed hused

end CubeSandbox.Agent.IpAllocator
