import Mathlib

/-!
The allocators of the network agent: addresses of TAP devices (`ipam.go`) and host ports
(`port_allocator.go`).

Both hand out the next free number of a ring. An address allocator has numbers that are
reserved and never freed; a port allocator only starts with the reserved ports as assigned.
-/

namespace CubeSandbox.Agent

abbrev Ip := UInt32

def sandboxCidrMinMask : Nat := 16
def sandboxCidrMaxMask : Nat := 24

lemma block_fits (cidr : Ip) {mask : Nat} (h : mask ≤ sandboxCidrMaxMask) :
    cidr.toNat / 2 ^ (32 - mask) * 2 ^ (32 - mask) + 2 ^ (32 - mask) ≤ 2 ^ 32 := by
  have hmask : mask ≤ 24 := h
  have hsplit : 2 ^ 32 = 2 ^ (32 - mask) * 2 ^ mask := by
    rw [← Nat.pow_add, Nat.sub_add_cancel (by omega)]
  have hq : cidr.toNat / 2 ^ (32 - mask) < 2 ^ mask :=
    Nat.div_lt_of_lt_mul (hsplit ▸ cidr.toNat_lt)
  calc cidr.toNat / 2 ^ (32 - mask) * 2 ^ (32 - mask) + 2 ^ (32 - mask)
      = 2 ^ (32 - mask) * (cidr.toNat / 2 ^ (32 - mask) + 1) := by
        rw [Nat.mul_add, Nat.mul_one, Nat.mul_comm]
    _ ≤ 2 ^ (32 - mask) * 2 ^ mask := Nat.mul_le_mul_left _ hq
    _ = 2 ^ 32 := hsplit.symm

structure IpAllocator where
  startIdx : Nat
  size : Nat
  maxIdx : Nat
  usedIpNum : Nat
  /-- The bits of the bitmap, one for each address of the block. -/
  bitmap : Nat → Bool
  reserved : List Nat
  size_pos : 0 < size
  fits : startIdx + size ≤ 2 ^ 32
  reserved_used : ∀ idx ∈ reserved, bitmap idx = true

variable {a : IpAllocator} {idx : Nat} {x ip : Ip}

namespace IpAllocator

def existIdx (a : IpAllocator) (idx : Nat) : Bool := a.bitmap idx

def setUsed (a : IpAllocator) (idx : Nat) : IpAllocator :=
  { a with
    usedIpNum := a.usedIpNum + 1
    bitmap := Function.update a.bitmap idx true
    reserved_used := by
      intro i hi
      by_cases h : i = idx
      · subst h; simp
      · simpa [Function.update_of_ne h] using a.reserved_used i hi }

def setUnused (a : IpAllocator) (idx : Nat) (h : idx ∉ a.reserved) : IpAllocator :=
  { a with
    usedIpNum := a.usedIpNum - 1
    bitmap := Function.update a.bitmap idx false
    reserved_used := by
      intro i hi
      have hne : i ≠ idx := fun he => h (he ▸ hi)
      simpa [Function.update_of_ne hne] using a.reserved_used i hi }

def reserveIdx (a : IpAllocator) (idx : Nat) : IpAllocator :=
  let b := if a.existIdx idx then a else a.setUsed idx
  { b with
    reserved := idx :: b.reserved
    reserved_used := by
      intro i hi
      rcases List.mem_cons.1 hi with rfl | hi
      · by_cases h : a.existIdx i
        · simp only [b, if_pos h]; exact h
        · simp [b, h, setUsed]
      · exact b.reserved_used i hi }

def idx2Ip (a : IpAllocator) (idx : Nat) : Ip := .ofNat (a.startIdx + idx)

/-- `ip2Idx`, less the start of the block. -/
def idxOf (a : IpAllocator) (ip : Ip) : Option Nat :=
  if a.startIdx ≤ ip.toNat ∧ ip.toNat - a.startIdx < a.size then some (ip.toNat - a.startIdx)
  else none

/-- The loop of `Allocate`. -/
def allocLoop : Nat → IpAllocator → Option Ip × IpAllocator
  | 0, a => (none, a)
  | n + 1, a =>
    let idx := (a.maxIdx + 1) % a.size
    let a := { a with maxIdx := idx }
    if a.existIdx idx then allocLoop n a else (some (a.idx2Ip idx), a.setUsed idx)

def allocate (a : IpAllocator) : Option Ip × IpAllocator :=
  if a.usedIpNum ≥ a.size then (none, a) else allocLoop a.size a

def release (a : IpAllocator) (ip : Ip) : IpAllocator :=
  match a.idxOf ip with
  | none => a
  | some idx =>
    if h : idx ∈ a.reserved then a
    else if a.existIdx idx then a.setUnused idx h else a

def assign (a : IpAllocator) (ip : Ip) : IpAllocator :=
  match a.idxOf ip with
  | none => a
  | some idx =>
    let a := if a.existIdx idx then a else a.setUsed idx
    { a with maxIdx := max a.maxIdx idx }

/-- `newIPAllocator` and `ReserveLastUsable`, for a block of `2 ^ (32 - mask)` addresses. -/
def new (cidr : Ip) (mask count : Nat)
    (hmask : sandboxCidrMinMask ≤ mask ∧ mask ≤ sandboxCidrMaxMask) : IpAllocator :=
  let size := 2 ^ (32 - mask)
  let a : IpAllocator :=
    { startIdx := cidr.toNat / size * size
      size := size
      maxIdx := 1
      usedIpNum := 0
      bitmap := fun _ => false
      reserved := []
      size_pos := Nat.two_pow_pos _
      fits := block_fits cidr hmask.2
      reserved_used := by simp }
  let a := ((a.reserveIdx 0).reserveIdx 1).reserveIdx (size - 1)
  let first := max 2 (size - 1 - count)
  if count = 0 then a
  else (List.range' first (size - 1 - first)).foldl reserveIdx a

/-- An address is handed out: its bit is set and it is not one of the reserved ones. -/
def Allocated (a : IpAllocator) (ip : Ip) : Prop :=
  ∃ idx, a.idxOf ip = some idx ∧ a.bitmap idx = true ∧ idx ∉ a.reserved

instance (a : IpAllocator) (ip : Ip) : Decidable (a.Allocated ip) :=
  match h : a.idxOf ip with
  | none => .isFalse (by simp [Allocated, h])
  | some idx => decidable_of_iff (a.bitmap idx = true ∧ idx ∉ a.reserved) (by simp [Allocated, h])

lemma toNat_idx2Ip (h : idx < a.size) : (a.idx2Ip idx).toNat = a.startIdx + idx := by
  have hfits : a.startIdx + a.size ≤ UInt32.size := a.fits
  exact UInt32.toNat_ofNat_of_lt (by omega)

lemma idxOf_eq_some (h : a.idxOf ip = some idx) : idx < a.size ∧ ip.toNat = a.startIdx + idx := by
  unfold idxOf at h
  split at h <;> cases h
  rename_i hin
  exact ⟨hin.2, by omega⟩

/-- A block of addresses, with the numbers in use and the reserved ones. -/
@[ext]
structure Pool where
  start : Nat
  size : Nat
  used : Set Nat
  reserved : Set Nat

namespace Pool

def take (p : Pool) (s : Set Nat) : Pool := { p with used := p.used ∪ s }

def free (p : Pool) (s : Set Nat) : Pool := { p with used := p.used \ s }

def reserve (p : Pool) (s : Set Nat) : Pool :=
  { p with used := p.used ∪ s, reserved := p.reserved ∪ s }

/-- The address is the one of this number. -/
def Names (p : Pool) (ip : Ip) (i : Nat) : Prop := i < p.size ∧ ip.toNat = p.start + i

end Pool

def pool (a : IpAllocator) : Pool :=
  ⟨a.startIdx, a.size, {i | a.bitmap i = true}, {i | i ∈ a.reserved}⟩

variable {i : Nat}

lemma pool_setUsed (a : IpAllocator) (i : Nat) : (a.setUsed i).pool = a.pool.take {i} := by
  ext j
  · rfl
  · rfl
  · by_cases h : j = i <;> simp [pool, setUsed, Pool.take, h]
  · rfl

lemma pool_setUnused (h : i ∉ a.reserved) : (a.setUnused i h).pool = a.pool.free {i} := by
  ext j
  · rfl
  · rfl
  · by_cases h : j = i <;> simp [pool, setUnused, Pool.free, h]
  · rfl

lemma pool_reserveIdx (a : IpAllocator) (i : Nat) : (a.reserveIdx i).pool = a.pool.reserve {i} := by
  by_cases h : a.existIdx i
  · have hmem : a.bitmap i = true := h
    ext j
    · simp [reserveIdx, h, pool, Pool.reserve]
    · simp [reserveIdx, h, pool, Pool.reserve]
    · by_cases hj : j = i <;> simp [reserveIdx, h, pool, Pool.reserve, hj, hmem]
    · simp [reserveIdx, h, pool, Pool.reserve]
  · ext j
    · simp [reserveIdx, h, pool, setUsed, Pool.reserve]
    · simp [reserveIdx, h, pool, setUsed, Pool.reserve]
    · by_cases hj : j = i <;> simp [reserveIdx, h, pool, setUsed, Pool.reserve, hj]
    · simp [reserveIdx, h, pool, setUsed, Pool.reserve]

lemma names_iff {ip : Ip} : a.pool.Names ip i ↔ a.idxOf ip = some i := by
  constructor
  · rintro ⟨hi, hip⟩
    have hi : i < a.size := hi
    have hip : ip.toNat = a.startIdx + i := hip
    simp [idxOf, hip, hi]
  · intro h
    exact idxOf_eq_some h

lemma pool_reserveAll (l : List Nat) (a : IpAllocator) :
    (l.foldl reserveIdx a).pool = a.pool.reserve {i | i ∈ l} := by
  induction l generalizing a with
  | nil => simp [Pool.reserve]
  | cons i l ih =>
    rw [List.foldl_cons, ih, pool_reserveIdx]
    ext j <;> simp [Pool.reserve, or_assoc, or_left_comm]

lemma pool_release (ip : Ip) :
    (a.release ip).pool = a.pool.free ({i | a.pool.Names ip i} \ a.pool.reserved) := by
  simp only [names_iff]
  unfold release
  cases hip : a.idxOf ip with
  | none => simp [Pool.free]
  | some i =>
    have hset : {j | some i = some j} = ({i} : Set Nat) := by
      ext j
      simp [eq_comm]
    rw [hset]
    dsimp only
    split
    · rename_i hres
      have hdiff : ({i} : Set Nat) \ a.pool.reserved = ∅ :=
        Set.sdiff_eq_empty.2 (Set.singleton_subset_iff.2 hres)
      simp [Pool.free, hdiff]
    rename_i hres
    have hnot : i ∉ a.pool.reserved := hres
    have hdiff : ({i} : Set Nat) \ a.pool.reserved = {i} := by simp [hnot]
    rw [hdiff]
    split
    · exact pool_setUnused hres
    rename_i hfree
    have hfree : i ∉ a.pool.used := hfree
    simp [Pool.free, hfree]

variable {a' : IpAllocator}

lemma allocLoop_some {n : Nat} {ip : Ip} (h : allocLoop n a = (some ip, a')) :
    ∃ i m, i < a.size ∧ i ∉ a.pool.used ∧ ip = a.idx2Ip i ∧
      a' = IpAllocator.setUsed { a with maxIdx := m } i := by
  induction n generalizing a with
  | zero => cases h
  | succ n ih =>
    simp only [allocLoop] at h
    split at h
    · obtain ⟨i, m, hspec⟩ := ih h
      exact ⟨i, m, hspec⟩
    · cases h
      exact ⟨_, _, Nat.mod_lt _ a.size_pos, ‹_›, rfl, rfl⟩

lemma allocLoop_none {n : Nat} (h : allocLoop n a = (none, a')) :
    (∃ m, a' = { a with maxIdx := m }) ∧
      ∀ k, 0 < k → k ≤ n → (a.maxIdx + k) % a.size ∈ a.pool.used := by
  induction n generalizing a with
  | zero =>
    cases h
    exact ⟨⟨_, rfl⟩, fun k hk hle => by omega⟩
  | succ n ih =>
    simp only [allocLoop] at h
    split at h <;> try cases h
    rename_i hused
    obtain ⟨hm, hall⟩ := ih h
    refine ⟨hm, fun k hk hle => ?_⟩
    obtain rfl | hk : k = 1 ∨ 1 < k := by omega
    · exact hused
    have hnext := hall (k - 1) (by omega) (by omega)
    have heq : ((a.maxIdx + 1) % a.size + (k - 1)) % a.size = (a.maxIdx + k) % a.size := by
      rw [Nat.mod_add_mod]
      congr 1
      omega
    exact heq ▸ hnext

lemma allocated_iff :
    a.Allocated ip ↔ ∃ i, a.pool.Names ip i ∧ i ∈ a.pool.used ∧ i ∉ a.pool.reserved := by
  simp only [names_iff]
  rfl

/-- **Allocation** hands out an address that was free, and nothing else changes. -/
lemma allocate_some (h : a.allocate = (some ip, a')) :
    ¬ a.Allocated ip ∧ ∀ x, a'.Allocated x ↔ x = ip ∨ a.Allocated x := by
  unfold allocate at h
  split at h
  · cases h
  obtain ⟨i, m, hi, hfree, rfl, rfl⟩ := allocLoop_some h
  have hname : a.pool.Names (a.idx2Ip i) i := ⟨hi, toNat_idx2Ip hi⟩
  have hself : ∀ {x}, a.pool.Names x i ↔ x = a.idx2Ip i := by
    intro x
    refine ⟨fun hx => UInt32.toNat_inj.1 (hx.2.trans hname.2.symm), ?_⟩
    rintro rfl
    exact hname
  have hres : i ∉ a.pool.reserved := fun hmem => hfree (a.reserved_used i hmem)
  refine ⟨?_, fun x => ?_⟩
  · rw [allocated_iff]
    rintro ⟨j, hj, hused, -⟩
    obtain rfl : j = i := Nat.add_left_cancel (hj.2.symm.trans hname.2)
    exact hfree hused
  rw [allocated_iff, allocated_iff, pool_setUsed]
  constructor
  · rintro ⟨j, hj, hused | rfl, hnot⟩
    · exact .inr ⟨j, hj, hused, hnot⟩
    · exact .inl (hself.1 hj)
  rintro (rfl | ⟨j, hj, hused, hnot⟩)
  · exact ⟨i, hname, .inr rfl, hres⟩
  · exact ⟨j, hj, .inl hused, hnot⟩

lemma allocate_none (h : a.allocate = (none, a')) (x : Ip) : a'.Allocated x ↔ a.Allocated x := by
  unfold allocate at h
  split at h
  · cases h
    rfl
  · obtain ⟨⟨m, rfl⟩, -⟩ := allocLoop_none h
    rfl

lemma allocated_release : (a.release ip).Allocated x ↔ x ≠ ip ∧ a.Allocated x := by
  rw [allocated_iff, allocated_iff, pool_release]
  constructor
  · rintro ⟨i, hi, ⟨hused, hnot⟩, hres⟩
    refine ⟨?_, i, hi, hused, hres⟩
    rintro rfl
    exact hnot ⟨hi, hres⟩
  · rintro ⟨hne, i, hi, hused, hres⟩
    refine ⟨i, hi, ⟨hused, fun hnamed => hne ?_⟩, hres⟩
    exact UInt32.toNat_inj.1 (hi.2.trans hnamed.1.2.symm)

lemma not_allocated_new {cidr : Ip} {mask count : Nat}
    {hmask : sandboxCidrMinMask ≤ mask ∧ mask ≤ sandboxCidrMaxMask} (ip : Ip) :
    ¬ (new cidr mask count hmask).Allocated ip := by
  have hbase : ∃ l l' base, base.bitmap = (fun _ => false) ∧ new cidr mask count hmask =
      if count = 0 then List.foldl reserveIdx base l
      else List.foldl reserveIdx (List.foldl reserveIdx base l) l' :=
    ⟨[0, 1, 2 ^ (32 - mask) - 1], _, _, rfl, rfl⟩
  obtain ⟨l, l', base, hnone, hnew⟩ := hbase
  rw [allocated_iff, hnew]
  rintro ⟨i, -, hused, hres⟩
  refine hres ?_
  have hempty : base.pool.used = ∅ := by simp [pool, hnone]
  split at hused <;> simp_all [pool_reserveAll, Pool.reserve]

end IpAllocator

/-! ### Host ports -/

def portMin : UInt16 := 20000
def portMax : UInt16 := 29999

structure PortAllocator where
  next : UInt16
  assigned : UInt16 → Bool
  next_range : portMin ≤ next ∧ next ≤ portMax

namespace PortAllocator

/-- `newPortAllocator`: reserved ports outside the range are not kept. -/
def new (reservedPorts : List UInt16) : PortAllocator where
  next := portMin
  assigned p := decide (p ∈ reservedPorts) && decide (portMin ≤ p) && decide (p ≤ portMax)
  next_range := by decide

/-- The port to try after this one. -/
def advance (a : PortAllocator) : PortAllocator :=
  { a with
    next := if a.next = portMax then portMin else a.next + 1
    next_range := by
      obtain ⟨hlo, hhi⟩ := a.next_range
      split
      · decide
      rename_i hne
      simp only [portMin, portMax, UInt16.le_iff_toNat_le, ← UInt16.toNat_inj] at hlo hhi hne ⊢
      simp only [UInt16.toNat_add, UInt16.reduceToNat] at hlo hhi hne ⊢
      omega }

def allocLoop : Nat → PortAllocator → Option UInt16 × PortAllocator
  | 0, a => (none, a)
  | n + 1, a =>
    if a.assigned a.next then allocLoop n a.advance
    else (some a.next, { a.advance with assigned := Function.update a.assigned a.next true })

def allocate (a : PortAllocator) : Option UInt16 × PortAllocator :=
  allocLoop ((portMax - portMin).toNat + 1) a

def release (a : PortAllocator) (p : UInt16) : PortAllocator :=
  { a with assigned := Function.update a.assigned p false }

def assign (a : PortAllocator) (p : UInt16) : PortAllocator :=
  { a with assigned := Function.update a.assigned p true }

end PortAllocator

end CubeSandbox.Agent
