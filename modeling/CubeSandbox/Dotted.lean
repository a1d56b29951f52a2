import Mathlib

/-!
Lists joined by a separator.

A name is a list of labels, and its text joins them with a dot. Two different names may have
the same text as soon as a label holds a dot itself. The lemmas here say when a text, or the
end of one, still determines the labels it was joined from.
-/

namespace CubeSandbox.Dotted

open List

variable {α : Type} (x : α)

/-- The text of a list of labels. -/
def join (ls : List (List α)) : List α := [x].intercalate ls

@[simp] lemma join_nil : join x [] = [] := rfl

@[simp] lemma join_singleton (l : List α) : join x [l] = l := intercalate_singleton

variable {ls : List (List α)}

lemma join_cons {l : List α} (h : ls ≠ []) : join x (l :: ls) = l ++ x :: join x ls := by
  simp [join, intercalate_cons_of_ne_nil h]

lemma join_append {c a : List (List α)} (hc : c ≠ []) (ha : a ≠ []) :
    join x (c ++ a) = join x c ++ x :: join x a := by
  induction c with
  | nil => exact absurd rfl hc
  | cons l c ih =>
    rcases eq_or_ne c [] with rfl | hc'
    · simp [join_cons x ha]
    · rw [cons_append, join_cons x (by simp [hc']), ih hc', join_cons x hc']
      simp

lemma join_prefix_append (c a : List (List α)) : join x c <+: join x (c ++ a) := by
  rcases eq_or_ne c [] with rfl | hc
  · exact nil_prefix
  rcases eq_or_ne a [] with rfl | ha
  · simp
  · rw [join_append x hc ha]
    exact prefix_append _ _

lemma join_eq_nil (h : ∀ l ∈ ls, l ≠ []) : join x ls = [] ↔ ls = [] := by
  constructor
  · intro hj
    rcases ls with _ | ⟨l, ls⟩
    · rfl
    have hl : l = [] := by
      have hp : join x [l] <+: join x (l :: ls) := join_prefix_append x [l] ls
      rw [hj, join_singleton] at hp
      exact prefix_nil.1 hp
    exact absurd hl (h l mem_cons_self)
  · rintro rfl
    rfl

lemma join_snoc (h : ∀ l ∈ ls, l ≠ []) (l : List α) :
    join x (ls ++ [l]) = (if join x ls = [] then [] else join x ls ++ [x]) ++ l := by
  by_cases hls : ls = []
  · subst hls
    simp
  · rw [if_neg (mt (join_eq_nil x h).1 hls), join_append x hls (by simp)]
    simp

section
variable [DecidableEq α]

lemma count_join (hls : ls ≠ []) (h : ∀ l ∈ ls, x ∉ l) : (join x ls).count x + 1 = ls.length := by
  induction ls with
  | nil => exact absurd rfl hls
  | cons l ls ih =>
    have hl : l.count x = 0 := count_eq_zero.2 (h l mem_cons_self)
    rcases eq_or_ne ls [] with rfl | hls'
    · simp [hl]
    have := ih hls' fun l' hl' => h l' (mem_cons_of_mem _ hl')
    rw [join_cons x hls', count_append, count_cons_self, length_cons]
    omega

omit [DecidableEq α] in
lemma mem_join {y : α} (h : y ∈ join x ls) : y = x ∨ ∃ l ∈ ls, y ∈ l := by
  induction ls with
  | nil => cases h
  | cons l ls ih =>
    rcases eq_or_ne ls [] with rfl | hls
    · exact .inr ⟨l, mem_cons_self, by simpa using h⟩
    rw [join_cons x hls, mem_append, mem_cons] at h
    obtain h | h | h := h
    · exact .inr ⟨l, mem_cons_self, h⟩
    · exact .inl h
    obtain h | ⟨l', hl', h⟩ := ih h
    · exact .inl h
    · exact .inr ⟨l', mem_cons_of_mem _ hl', h⟩

lemma join_inj {a : List (List α)} (hls : ls ≠ []) (ha : a ≠ []) (hx : ∀ l ∈ ls, x ∉ l)
    (hxa : ∀ l ∈ a, x ∉ l) (h : join x ls = join x a) : ls = a := by
  have hls' := splitOn_intercalate x hx hls
  have ha' := splitOn_intercalate x hxa ha
  rw [← hls', ← ha']
  exact congrArg _ h

/-- Ends of one text that start at a separator are equal if they hold as many separators. -/
lemma end_unique {u v a b : List α} (h : u ++ x :: a = v ++ x :: b)
    (hc : a.count x = b.count x) : a = b := by
  rcases append_eq_append_iff.1 h with ⟨w, rfl, hw⟩ | ⟨w, rfl, hw⟩
  · rcases w with _ | ⟨y, w⟩
    · simpa using hw
    cases hw
    simp at hc
    omega
  rcases w with _ | ⟨y, w⟩
  · simpa using hw.symm
  cases hw
  simp at hc
  omega

/-- The last labels of a list, as many as another list has. -/
def lastOf (ls a : List (List α)) : List (List α) := ls.drop (ls.length - a.length)

omit [DecidableEq α] in
lemma lastOf_append (c a : List (List α)) : lastOf (c ++ a) a = a := by
  simp [lastOf]

omit [DecidableEq α] in
lemma eq_lastOf (ls a : List (List α)) : (ls.length ≤ a.length ∧ lastOf ls a = ls) ∨
      ∃ c e, c ≠ [] ∧ ls = c ++ e ∧ lastOf ls a = e ∧ e.length = a.length := by
  rcases Nat.lt_or_ge a.length ls.length with h | h
  · refine .inr ⟨ls.take (ls.length - a.length), lastOf ls a, ?_, ?_, rfl, ?_⟩
    · have : (ls.take (ls.length - a.length)).length ≠ 0 := by
        rw [length_take]
        omega
      exact fun hnil => this (by rw [hnil]; rfl)
    · exact (take_append_drop _ _).symm
    · rw [lastOf, length_drop]
      omega
  · refine .inl ⟨h, ?_⟩
    rw [lastOf, Nat.sub_eq_zero_of_le h, drop_zero]

/-- **Strict extension, read off the text**: exactly if its last labels hold no separator. -/
theorem extends_iff {ls a : List (List α)} (ha : a ≠ []) (hxa : ∀ l ∈ a, x ∉ l) :
    (∃ c, c ≠ [] ∧ ls = c ++ a) ↔
      (∃ u, join x ls = u ++ x :: join x a) ∧ ∀ l ∈ lastOf ls a, x ∉ l := by
  constructor
  · rintro ⟨c, hc, rfl⟩
    rw [lastOf_append]
    exact ⟨⟨join x c, join_append x hc ha⟩, hxa⟩
  rintro ⟨⟨u, hu⟩, hx⟩
  have hcount := count_join x ha hxa
  obtain ⟨hle, hlast⟩ | ⟨c, e, hc, rfl, hlast, hlen⟩ := eq_lastOf ls a
  · -- too few labels for the separators of the text
    rw [hlast] at hx
    have hls : ls ≠ [] := by
      rintro rfl
      simp at hu
    have hall := count_join x hls hx
    rw [hu, count_append, count_cons_self] at hall
    omega
  rw [hlast] at hx
  have he : e ≠ [] := by
    rintro rfl
    exact ha (length_eq_zero_iff.1 hlen.symm)
  have hce := count_join x he hx
  rw [join_append x hc he] at hu
  have hends : join x e = join x a := end_unique x hu (by omega)
  exact ⟨c, hc, by rw [join_inj x he ha hx hxa hends]⟩

/-- **Equality, read off the text**, possibly behind a byte that no label of `a` holds. -/
theorem eq_iff {ls a : List (List α)} {z : α} (hz : z ≠ x) (ha : a ≠ [])
    (hxa : ∀ l ∈ a, x ∉ l) (hza : ∀ l ∈ a, z ∉ l) (hls : ls ≠ []) :
    ls = a ↔ ((join x ls = join x a) ∨ ∃ u, join x ls = u ++ z :: join x a) ∧
      ∀ l ∈ lastOf ls a, x ∉ l ∧ z ∉ l := by
  constructor
  · rintro rfl
    have hself : lastOf ls ls = ls := by simp [lastOf]
    rw [hself]
    exact ⟨.inl rfl, fun l hl => ⟨hxa l hl, hza l hl⟩⟩
  rintro ⟨htext, hfree⟩
  have hcount := count_join x ha hxa
  obtain ⟨hle, hlast⟩ | ⟨c, e, hc, rfl, hlast, hlen⟩ := eq_lastOf ls a
  · rw [hlast] at hfree
    have hx : ∀ l ∈ ls, x ∉ l := fun l hl => (hfree l hl).1
    obtain h | ⟨u, h⟩ := htext
    · exact join_inj x hls ha hx hxa h
    -- the byte before the text of `a` lies in some label
    have hmem : z ∈ join x ls := by
      rw [h]
      simp
    obtain rfl | ⟨l, hl, hzl⟩ := mem_join x hmem
    · exact absurd rfl hz
    · exact absurd hzl (hfree l hl).2
  rw [hlast] at hfree
  have hx : ∀ l ∈ e, x ∉ l := fun l hl => (hfree l hl).1
  have he : e ≠ [] := by
    rintro rfl
    exact ha (length_eq_zero_iff.1 hlen.symm)
  have hce := count_join x he hx
  rw [join_append x hc he] at htext
  obtain h | ⟨u, h⟩ := htext
  · -- one separator more than the text of `a` has
    have := congrArg (count x) h
    rw [count_append, count_cons_self] at this
    omega
  -- the end that starts at the separator before `e` is longer than the text of `a`
  rcases append_eq_append_iff.1 h with ⟨w, rfl, hw⟩ | ⟨w, -, hw⟩
  · rcases w with _ | ⟨y, w⟩
    · exact absurd (cons.inj hw).1.symm hz
    have hzw : z ∈ join x e := by
      rw [(cons.inj hw).2]
      simp
    obtain rfl | ⟨l, hl, hzl⟩ := mem_join x hzw
    · exact absurd rfl hz
    · exact absurd hzl (hfree l hl).2
  · rcases w with _ | ⟨y, w⟩
    · exact absurd (cons.inj hw).1 hz
    have hrest : join x a = w ++ x :: join x e := (cons.inj hw).2
    have := congrArg (count x) hrest
    rw [count_append, count_cons_self] at this
    omega

end

end CubeSandbox.Dotted
