import Mathlib

/-!
Mounts over a tree of paths.

A mount has a target in the tree and hides what was there, older mounts at the target and below
it included. The table has the newest mount first, so that a path is seen through the first
mount whose target leads to it. An unmount takes away the mount that is seen at a path, together
with the mounts made inside of it.
-/

namespace CubeSandbox.MountTable

open List

variable {α S : Type} [DecidableEq α]

structure Mount (α S : Type) where
  target : List α
  source : S

abbrev Table (α S : Type) := List (Mount α S)

namespace Table

variable (t : Table α S)

/-- The mount through which a path is seen. -/
def through (p : List α) : Option (Mount α S) := t.find? fun m => m.target.isPrefixOf p

/-- Whether the table has a mount with this target, seen or not. -/
def isTarget (p : List α) : Bool := t.any fun m => m.target = p

/-- A mount that is seen at its target. -/
def isSeen (m : Mount α S) : Bool := (t.through m.target).any fun n => n.target = m.target

def unmount (p : List α) : Table α S :=
  match t.through p with
  | none => t
  | some m =>
    if m.target = p then
      ((t.takeWhile fun n => !n.target.isPrefixOf p).filter fun n => !p.isPrefixOf n.target) ++
        (t.dropWhile fun n => !n.target.isPrefixOf p).tail
    else t

variable {t} {p : List α} {m : Mount α S}

lemma through_eq_none (h : ∀ m ∈ t, ¬ m.target <+: p) : t.through p = none := by
  unfold through
  rw [find?_eq_none]
  intro m hm
  simpa using h m hm

lemma isTarget_iff : t.isTarget p = true ↔ ∃ m ∈ t, m.target = p := by simp [isTarget]

omit [DecidableEq α] in
lemma not_isPrefixOf [BEq α] [LawfulBEq α] {a b : List α} :
    (!a.isPrefixOf b) = true ↔ ¬ a <+: b := by
  rw [Bool.not_eq_true', ← Bool.not_eq_true, isPrefixOf_iff_prefix]

lemma exists_of_through (h : t.through p = some m) : ∃ newer older,
    t = newer ++ m :: older ∧ m.target <+: p ∧ ∀ n ∈ newer, ¬ n.target <+: p := by
  obtain ⟨hm, newer, older, ht, hnew⟩ := find?_eq_some_iff_append.1 h
  exact ⟨newer, older, ht, by simpa using hm, fun n hn => not_isPrefixOf.1 (hnew n hn)⟩

lemma unmount_eq {newer older : Table α S} (hm : m.target = p)
    (hnew : ∀ n ∈ newer, ¬ n.target <+: p) :
    unmount (newer ++ m :: older) p = (newer.filter fun n => !p.isPrefixOf n.target) ++ older := by
  have hgo : ∀ n ∈ newer, (!n.target.isPrefixOf p) = true := fun n hn =>
    not_isPrefixOf.2 (hnew n hn)
  have hthrough : through (newer ++ m :: older) p = some m :=
    find?_eq_some_iff_append.2 ⟨by simp [hm], newer, older, rfl, hgo⟩
  have htake : (newer ++ m :: older).takeWhile (fun n => !n.target.isPrefixOf p) = newer := by
    rw [takeWhile_append_of_pos hgo, takeWhile_cons_of_neg (by simp [hm]), append_nil]
  have hdrop : (newer ++ m :: older).dropWhile (fun n => !n.target.isPrefixOf p) = m :: older := by
    rw [dropWhile_append_of_pos hgo, dropWhile_cons_of_neg (by simp [hm])]
  rw [unmount, hthrough]
  simp only [hm, if_true]
  rw [htake, hdrop, tail_cons]

lemma unmount_sublist (t : Table α S) (p : List α) : (t.unmount p).Sublist t := by
  cases ht : t.through p with
  | none => simp [unmount, ht]
  | some m =>
    obtain ⟨newer, older, rfl, -, hnew⟩ := exists_of_through ht
    by_cases hm : m.target = p
    · rw [unmount_eq hm hnew]
      exact filter_sublist.append (sublist_cons_self m older)
    · simp [unmount, ht, hm]

lemma target_ne_of_mem_unmount {n : Mount α S} (hnd : (t.map Mount.target).Nodup)
    (hflat : ∀ m ∈ t, ∀ n ∈ t, m.target <+: n.target → m.target = n.target)
    (h : n ∈ t.unmount p) : n.target ≠ p := by
  rintro rfl
  have hn := (unmount_sublist t _).subset h
  cases ht : t.through n.target with
  | none =>
    have hno := find?_eq_none.1 ht n hn
    simp at hno
  | some m =>
    obtain ⟨newer, older, rfl, hpre, hnew⟩ := exists_of_through ht
    have hm : m.target = n.target := hflat m (by simp) n hn hpre
    rw [unmount_eq hm hnew] at h
    simp only [map_append, map_cons] at hnd
    have hother := (nodup_cons.1 (nodup_middle.1 hnd)).1
    refine hother ?_
    rw [hm, ← map_append]
    rcases mem_append.1 h with h | h
    · exact mem_map_of_mem (mem_append_left _ (mem_filter.1 h).1)
    · exact mem_map_of_mem (mem_append_right _ h)

end Table

end CubeSandbox.MountTable
