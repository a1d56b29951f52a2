import Mathlib

/-!
Admission of a resume in Cubelet (`services/cubebox/update.go`, `metric.go`).

A paused sandbox counts with the part of its quota that is not released. Admission adds the
released part to the usage of the node. Both are truncated, so together they can be one less than
the whole. Amounts are exact numbers here, and a ratio is a rational number.
-/

namespace CubeSandbox.Quota

inductive ContainerState
  | created | running | exited | unknown | pausing | paused
  deriving DecidableEq

/-- `ResourceWithOverHead`, with the CPU in thousandths and the memory in bytes. -/
structure Resource where
  hostCpuQ : ℕ
  hostMemQ : ℕ
  hostDataDiskMB : ℕ
  hostStorageDiskMB : ℕ

/-- A sandbox, with the state that its status says, if it has one. -/
structure CubeBox where
  state : Option ContainerState
  resource : Option Resource
  queues : ℕ

def clampRatio (r : ℚ) : ℚ := if r < 0 then 0 else if 1 < r then 1 else r

def scaleInt64 (v : ℕ) (factor : ℚ) : ℕ := ⌊v * factor⌋₊

def bytesToMB (b : ℕ) : ℕ := b / 1024 / 1024

def isContainerInGoodState : ContainerState → Bool
  | .running | .paused | .created | .pausing => true
  | _ => false

/-- The sums of `aggregateSandboxResources`. -/
structure Totals where
  cpuMilli : ℕ
  memBytes : ℕ
  runningBox : ℕ
  nicQueues : ℕ
  dataDiskMB : ℕ
  storageDiskMB : ℕ

structure View where
  milliCPU : ℕ
  memoryMB : ℕ
  mvmNum : ℕ
  mvmRunningNum : ℕ
  nicQueues : ℕ
  dataDiskMB : ℕ
  storageDiskMB : ℕ

/-- One turn of the loop over the sandboxes. -/
def Totals.add (ratio : ℚ) (t : Totals) (sb : CubeBox) : Totals :=
  match sb.state with
  | none => t
  | some st =>
    if ¬ isContainerInGoodState st then t
    else
      let paused := 0 < ratio ∧ (st = .paused ∨ st = .pausing)
      let t := match sb.resource with
        | none => t
        | some r => { t with
          cpuMilli := t.cpuMilli + if paused then scaleInt64 r.hostCpuQ (1 - ratio) else r.hostCpuQ
          memBytes := t.memBytes + if paused then scaleInt64 r.hostMemQ (1 - ratio) else r.hostMemQ
          dataDiskMB := t.dataDiskMB + r.hostDataDiskMB
          storageDiskMB := t.storageDiskMB + r.hostStorageDiskMB }
      if paused then t
      else { t with runningBox := t.runningBox + 1, nicQueues := t.nicQueues + sb.queues }

def totals (ratio : ℚ) (sbs : List CubeBox) : Totals :=
  sbs.foldl (Totals.add ratio) ⟨0, 0, 0, 0, 0, 0⟩

def aggregateSandboxResources (sbs : List CubeBox) (releaseRatio : ℚ) : View :=
  let t := totals (clampRatio releaseRatio) sbs
  { milliCPU := t.cpuMilli
    memoryMB := bytesToMB t.memBytes
    mvmNum := sbs.length
    mvmRunningNum := t.runningBox
    nicQueues := t.nicQueues
    dataDiskMB := t.dataDiskMB
    storageDiskMB := t.storageDiskMB }

/-- The quota of the host. Memory that cannot be parsed is zero. -/
structure HostQuota where
  cpu : ℕ
  mem : ℕ
  releaseRatio : ℚ

def resumeDemand (r : Resource) (releaseRatio : ℚ) : ℕ × ℕ :=
  (bytesToMB (scaleInt64 r.hostMemQ releaseRatio), scaleInt64 r.hostCpuQ releaseRatio)

structure ResumeQuotaCheck where
  usedMemMB : ℕ
  needMemMB : ℕ
  memQuotaMB : ℕ
  usedCPUMilli : ℕ
  needCPUMilli : ℕ
  cpuQuotaMilli : ℕ

def resumeQuotaRejection (c : ResumeQuotaCheck) : Option String :=
  if 0 < c.memQuotaMB ∧ c.memQuotaMB < c.usedMemMB + c.needMemMB then
    some s!"need {c.needMemMB}MB + used {c.usedMemMB}MB > mem quota {c.memQuotaMB}MB"
  else if 0 < c.cpuQuotaMilli ∧ c.cpuQuotaMilli < c.usedCPUMilli + c.needCPUMilli then
    some s!"need {c.needCPUMilli}m + used {c.usedCPUMilli}m > cpu quota {c.cpuQuotaMilli}m"
  else none

/-- The message with which the resume is rejected, if it is. -/
def admitResume (q : HostQuota) (sbs : List CubeBox) (sb : CubeBox) : Option String :=
  let releaseRatio := clampRatio q.releaseRatio
  if releaseRatio ≤ 0 then none
  else
    (match sb.resource with
    | none => some "missing resource metadata"
    | some r =>
      let alloc := aggregateSandboxResources sbs q.releaseRatio
      let (needMemMB, needCPU) := resumeDemand r releaseRatio
      resumeQuotaRejection
        ⟨alloc.memoryMB, needMemMB, bytesToMB q.mem, alloc.milliCPU, needCPU, q.cpu⟩).map
      ("resume rejected by paused_resource_release_ratio policy: " ++ ·)

/-- The usage of the node is within the quota. -/
def HostQuota.Within (q : HostQuota) (v : View) : Prop :=
  v.milliCPU ≤ q.cpu ∧ v.memoryMB ≤ bytesToMB q.mem

instance (q : HostQuota) (v : View) : Decidable (q.Within v) := inferInstanceAs (Decidable (_ ∧ _))

/-- What a sandbox keeps of an amount: all of it, or while it is paused what is not released. -/
def CubeBox.kept (ratio : ℚ) (f : Resource → ℕ) (sb : CubeBox) : ℕ :=
  match sb.state, sb.resource with
  | some .paused, some r | some .pausing, some r => ⌊f r * (1 - ratio)⌋₊
  | some .running, some r | some .created, some r => f r
  | _, _ => 0

def keptBy (ratio : ℚ) (f : Resource → ℕ) (sbs : List CubeBox) : ℕ :=
  (sbs.map (CubeBox.kept ratio f)).sum

/-- What the truncations of the two parts of an amount lose: one, if they are not whole. -/
def lost (v : ℕ) (ratio : ℚ) : ℕ := ⌈v * ratio⌉₊ - ⌊v * ratio⌋₊

/-- What the truncations of bytes to megabytes lose, together with a lost byte. Below a quota of
a megabyte, which counts as none, all that is asked for. -/
def lostMB (quota used need lost : ℕ) : ℕ :=
  if quota < 2 ^ 20 then bytesToMB (used + (need + lost)) - bytesToMB used
  else if used % 2 ^ 20 + need % 2 ^ 20 + lost < 2 ^ 20 then 0 else 1

/-- The amount exceeds its quota by no more than what is lost of it. -/
def Hidden (amount quota lost : ℕ) : Prop := quota < amount ∧ amount ≤ quota + lost

instance (amount quota lost : ℕ) : Decidable (Hidden amount quota lost) :=
  inferInstanceAs (Decidable (_ ∧ _))

/-- **No truncation hides an excess** of a node that runs the sandbox besides these others, unless
the other amount has an excess that none hides. A sandbox without metadata has no amounts, and its
resume is refused: then the others have to exceed the quota. -/
def Exact (q : HostQuota) (others : List CubeBox) : Option Resource → Prop
  | none => q.cpu < keptBy q.releaseRatio (·.hostCpuQ) others ∨
      bytesToMB q.mem < bytesToMB (keptBy q.releaseRatio (·.hostMemQ) others)
  | some r =>
    let cpu := keptBy q.releaseRatio (·.hostCpuQ) others + r.hostCpuQ
    let mem := keptBy q.releaseRatio (·.hostMemQ) others + r.hostMemQ
    let released := ⌊r.hostMemQ * q.releaseRatio⌋₊
    let byte := lost r.hostMemQ q.releaseRatio
    let milli := lost r.hostCpuQ q.releaseRatio
    let mb := lostMB q.mem (mem - (released + byte)) released byte
    Hidden cpu q.cpu milli ∨ Hidden (bytesToMB mem) (bytesToMB q.mem) mb →
      q.cpu + milli < cpu ∨ bytesToMB q.mem + mb < bytesToMB mem

section

variable {ratio : ℚ}

lemma clampRatio_eq (h0 : 0 < ratio) (h1 : ratio ≤ 1) : clampRatio ratio = ratio := by
  rw [clampRatio, if_neg (not_lt.2 h0.le), if_neg (not_lt.2 h1)]

lemma lost_le_one (v : ℕ) (ratio : ℚ) : lost v ratio ≤ 1 := by
  have := Nat.ceil_le_floor_add_one ((v : ℚ) * ratio)
  unfold lost
  omega

lemma scale_add (v : ℕ) (h0 : 0 < ratio) (h1 : ratio ≤ 1) :
    ⌊v * (1 - ratio)⌋₊ + (⌊v * ratio⌋₊ + lost v ratio) = v := by
  have hx : (0 : ℚ) ≤ v * ratio := by positivity
  have hle : (v : ℚ) * ratio ≤ v := mul_le_of_le_one_right (by positivity) h1
  have hfloor := Nat.floor_le (sub_nonneg.2 hle)
  have hfloor' := Nat.lt_floor_add_one ((v : ℚ) - v * ratio)
  have hceil := Nat.le_ceil ((v : ℚ) * ratio)
  have hceil' := Nat.ceil_lt_add_one hx
  have hsum := Nat.floor_le_ceil ((v : ℚ) * ratio)
  have hy : (v : ℚ) * (1 - ratio) = v - v * ratio := by ring
  unfold lost
  rw [hy, Nat.add_sub_cancel' hsum]
  have hlow : (⌊(v : ℚ) - v * ratio⌋₊ : ℚ) + ⌈(v : ℚ) * ratio⌉₊ < v + 1 := by linarith
  have hhigh : (v : ℚ) < ⌊(v : ℚ) - v * ratio⌋₊ + 1 + ⌈(v : ℚ) * ratio⌉₊ := by linarith
  norm_cast at hlow hhigh
  omega

lemma bytesToMB_add {q : ℕ} (hq : 2 ^ 20 ≤ q) (a b l : ℕ) (hl : l ≤ 1) :
    bytesToMB (a + (b + l)) = bytesToMB a + bytesToMB b + lostMB q a b l ∧ lostMB q a b l ≤ 1 := by
  unfold bytesToMB lostMB
  split_ifs <;> omega

lemma foldl_kept (h0 : 0 < ratio) (sbs : List CubeBox) (t : Totals) :
    (sbs.foldl (Totals.add ratio) t).cpuMilli = t.cpuMilli + keptBy ratio (·.hostCpuQ) sbs ∧
      (sbs.foldl (Totals.add ratio) t).memBytes = t.memBytes + keptBy ratio (·.hostMemQ) sbs := by
  induction sbs generalizing t with
  | nil => simp [keptBy]
  | cons sb sbs ih =>
    have hadd : (t.add ratio sb).cpuMilli = t.cpuMilli + sb.kept ratio (·.hostCpuQ) ∧
        (t.add ratio sb).memBytes = t.memBytes + sb.kept ratio (·.hostMemQ) := by
      unfold Totals.add CubeBox.kept
      rcases sb.state with _ | _ | _ <;> cases sb.resource <;>
        simp [isContainerInGoodState, h0, scaleInt64]
    rw [List.foldl_cons, (ih _).1, (ih _).2, hadd.1, hadd.2]
    simp [keptBy, add_assoc]

/-- The usage of a node is what its sandboxes keep, one of them apart from the others. -/
lemma usage_kept (h0 : 0 < ratio) (h1 : ratio ≤ 1) (l l' : List CubeBox) (sb : CubeBox) :
    let usage := aggregateSandboxResources (l ++ sb :: l') ratio
    usage.milliCPU = keptBy ratio (·.hostCpuQ) (l ++ l') + sb.kept ratio (·.hostCpuQ) ∧
      usage.memoryMB =
        bytesToMB (keptBy ratio (·.hostMemQ) (l ++ l') + sb.kept ratio (·.hostMemQ)) := by
  have hcons (f : Resource → ℕ) :
      keptBy ratio f (l ++ sb :: l') = keptBy ratio f (l ++ l') + sb.kept ratio f := by
    simp only [keptBy, List.map_append, List.map_cons, List.sum_append, List.sum_cons]
    omega
  obtain ⟨hcpu, hmem⟩ := foldl_kept h0 (l ++ sb :: l') ⟨0, 0, 0, 0, 0, 0⟩
  rw [zero_add, hcons] at hcpu hmem
  simp only [aggregateSandboxResources, clampRatio_eq h0 h1, totals, hcpu, hmem, and_self]

lemma admitResume_some {q : HostQuota} (sbs : List CubeBox) {sb : CubeBox} {r : Resource}
    (h0 : 0 < q.releaseRatio) (h1 : q.releaseRatio ≤ 1) (hr : sb.resource = some r) :
    let used := aggregateSandboxResources sbs q.releaseRatio
    let need := resumeDemand r q.releaseRatio
    admitResume q sbs sb = none ↔
      (0 < bytesToMB q.mem → used.memoryMB + need.1 ≤ bytesToMB q.mem) ∧
        (0 < q.cpu → used.milliCPU + need.2 ≤ q.cpu) := by
  simp only [admitResume, clampRatio_eq h0 h1, not_le.2 h0, if_false, hr, resumeQuotaRejection,
    Option.map_eq_none_iff]
  split_ifs <;> simp_all

end

/-- **Admission agrees with accounting** exactly if no excess is hidden by a truncation. -/
theorem resume_admission_exact_iff (q : HostQuota) (l l' : List CubeBox) (sb : CubeBox)
    (h0 : 0 < q.releaseRatio) (h1 : q.releaseRatio ≤ 1) (hcpu : 0 < q.cpu)
    (hp : sb.state = some .paused) :
    let usage := fun sb => aggregateSandboxResources (l ++ sb :: l') q.releaseRatio
    let resumed := { sb with state := some .running }
    ((q.Within (usage sb) → admitResume q (l ++ sb :: l') sb = none → q.Within (usage resumed)) ∧
      (admitResume q (l ++ sb :: l') sb ≠ none → ¬ q.Within (usage resumed))) ↔
      Exact q (l ++ l') sb.resource := by
  dsimp only [HostQuota.Within]
  have husage := usage_kept h0 h1 l l'
  dsimp only at husage
  simp only [(husage _).1, (husage _).2]
  cases hr : sb.resource with
  | none =>
    simp [Exact, CubeBox.kept, hr, admitResume, clampRatio_eq h0 h1, not_le.2 h0]
    omega
  | some r =>
    have hnone := admitResume_some (l ++ sb :: l') h0 h1 hr
    dsimp only at hnone
    simp only [hnone, (husage _).1, (husage _).2, ne_eq, CubeBox.kept, hp, hr, resumeDemand,
      scaleInt64, Exact, Hidden]
    have hc := scale_add r.hostCpuQ h0 h1
    have hm := scale_add r.hostMemQ h0 h1
    have hmilli := lost_le_one r.hostCpuQ q.releaseRatio
    have hbyte := lost_le_one r.hostMemQ q.releaseRatio
    set others := keptBy q.releaseRatio (·.hostMemQ) (l ++ l')
    set kept := ⌊r.hostMemQ * (1 - q.releaseRatio)⌋₊
    set released := ⌊r.hostMemQ * q.releaseRatio⌋₊
    set byte := lost r.hostMemQ q.releaseRatio
    have hall : others + r.hostMemQ = others + kept + (released + byte) := by omega
    rw [hall, Nat.add_sub_cancel]
    by_cases hq : q.mem < 2 ^ 20
    · -- the quota counts as none
      have hzero : bytesToMB q.mem = 0 := by
        unfold bytesToMB
        omega
      have hmono : bytesToMB (others + kept) ≤ bytesToMB (others + kept + (released + byte)) := by
        unfold bytesToMB
        omega
      rw [lostMB, if_pos hq, hzero]
      omega
    · obtain ⟨hmb, hle⟩ := bytesToMB_add (not_lt.1 hq) (others + kept) released byte hbyte
      have hpos : 0 < bytesToMB q.mem := by
        unfold bytesToMB
        omega
      rw [hmb]
      omega

/-- A paused sandbox of three megabytes. -/
def threeMB : CubeBox := ⟨some .paused, some ⟨2000, 3 * 2 ^ 20, 0, 0⟩, 1⟩

/-- With all of a paused sandbox released, a resume that fits is admitted and fits. -/
theorem full_release_exact : let q : HostQuota := ⟨2000, 3 * 2 ^ 20, 1⟩
    admitResume q [threeMB] threeMB = none ∧ q.Within
      (aggregateSandboxResources [{ threeMB with state := some .running }] 1) := by
  have hnone : admitResume ⟨2000, 3 * 2 ^ 20, 1⟩ [threeMB] threeMB = none := by decide +kernel
  refine ⟨hnone, ((resume_admission_exact_iff ⟨2000, 3 * 2 ^ 20, 1⟩ [] [] threeMB (by norm_num)
    le_rfl (by decide) rfl).2 ?_).1 ?_ hnone⟩
  · show _ ∨ _ → _
    decide +kernel
  · decide +kernel

/-- **An admitted resume can exceed the quota**: of three megabytes, half released, one is accounted
and one asked for. -/
theorem admitted_resume_exceeds : let q : HostQuota := ⟨2000, 2 * 2 ^ 20, 1 / 2⟩
    q.Within (aggregateSandboxResources [threeMB] (1 / 2)) ∧
      admitResume q [threeMB] threeMB = none ∧
      ¬ q.Within (aggregateSandboxResources [{ threeMB with state := some .running }] (1 / 2)) := by
  decide +kernel

end CubeSandbox.Quota
