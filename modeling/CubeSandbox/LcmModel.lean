import CubeSandbox.GoText
import CubeSandbox.Tbl

/-!
The data of the lifecycle manager that several of its loops share: the metadata of a sandbox
(`lifecycle/schema.go`) and the registry (`registry/registry.go`).

Times are milliseconds. The fields of the metadata that no loop reads are left out.
-/

namespace CubeSandbox.Lcm

open GoText

abbrev Sid := Bytes

abbrev ProxyId := Bytes

/-- `SandboxLifecycleMeta`. No timeout is the default one, a negative one is none at all. -/
structure Metadata where
  sandboxId : Sid
  timeoutSeconds : Option Int
  autoPause : Bool
  autoResume : Bool
  createdAt : Int
  endAt : Int
  deriving DecidableEq

structure Entry where
  metadata : Metadata
  lastActiveMs : Int
  firstSeenAt : Int
  deriving DecidableEq

abbrev Registry := Tbl Sid Entry

variable {reg : Registry} {e : Entry}

namespace Registry

/-- What was seen of a sandbox stays when its metadata is replaced. -/
def upsert (reg : Registry) (m : Metadata) (now : Int) : Registry :=
  match reg.get m.sandboxId with
  | none => reg.put m.sandboxId ⟨m, 0, now⟩
  | some cur => reg.put m.sandboxId { cur with metadata := m }

def delete (reg : Registry) (sid : Sid) : Registry := reg.del sid

def mergeLastActive (reg : Registry) (sid : Sid) (tsMs : Int) : Registry :=
  match reg.get sid with
  | none => reg
  | some e => if tsMs > e.lastActiveMs then reg.put sid { e with lastActiveMs := tsMs } else reg

def resetLastActive (reg : Registry) (sid : Sid) : Registry :=
  match reg.get sid with
  | none => reg
  | some e => reg.put sid { e with lastActiveMs := 0 }

/-- The entries in the order of their ids. -/
def snapshot (reg : Registry) : List Entry :=
  (reg.toPairs.insertionSort fun a b => a.1 ≤ b.1).map Prod.snd

lemma get_upsert {m : Metadata} {now : Int} {sid : Sid} (h : (reg.upsert m now).get sid = some e) :
    (∃ e', reg.get sid = some e' ∧ e'.lastActiveMs = e.lastActiveMs) ∨
      (sid = m.sandboxId ∧ reg.get sid = none) := by
  unfold upsert at h
  cases hcur : reg.get m.sandboxId with
  | none =>
    rw [hcur] at h
    rcases Tbl.get_put_eq_some.1 h with ⟨rfl, -⟩ | ⟨-, h⟩
    · exact .inr ⟨rfl, hcur⟩
    · exact .inl ⟨e, h, rfl⟩
  | some cur =>
    rw [hcur] at h
    rcases Tbl.get_put_eq_some.1 h with ⟨rfl, rfl⟩ | ⟨-, h⟩
    · exact .inl ⟨cur, hcur, rfl⟩
    · exact .inl ⟨e, h, rfl⟩

lemma get_mergeLastActive {sid x : Sid} {ts : Int}
    (h : (reg.mergeLastActive sid ts).get x = some e) :
    ∃ e', reg.get x = some e' ∧ e'.lastActiveMs ≤ e.lastActiveMs ∧
      (x = sid → ts ≤ e.lastActiveMs) := by
  unfold mergeLastActive at h
  cases hcur : reg.get sid with
  | none =>
    rw [hcur] at h
    refine ⟨e, h, le_rfl, ?_⟩
    rintro rfl
    simp [hcur] at h
  | some cur =>
    rw [hcur] at h
    dsimp only at h
    split at h
    · rename_i hlt
      rcases Tbl.get_put_eq_some.1 h with ⟨rfl, rfl⟩ | ⟨hne, h⟩
      · exact ⟨cur, hcur, hlt.le, fun _ => le_rfl⟩
      · exact ⟨e, h, le_rfl, fun hx => absurd hx hne⟩
    rename_i hlt
    refine ⟨e, h, le_rfl, ?_⟩
    rintro rfl
    cases hcur.symm.trans h
    exact not_lt.1 hlt

lemma get_resetLastActive {sid x : Sid} (h : (reg.resetLastActive sid).get x = some e) :
    x = sid ∨ reg.get x = some e := by
  unfold resetLastActive at h
  cases hcur : reg.get sid with
  | none => rw [hcur] at h; exact .inr h
  | some cur =>
    rw [hcur] at h
    exact (Tbl.get_put_eq_some.1 h).imp (·.1) (·.2)

end Registry

end CubeSandbox.Lcm
