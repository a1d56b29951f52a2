import Mathlib

/-!
Runs of a step function on events.

A step may be impossible in a state; a run is a list of events each of which is possible
when it comes. `Meets` says that every event of a run satisfied a condition on the state
it was taken in, and `exec_inv` is the one induction on runs: what every permitted step
preserves holds wherever a permitted run leads.

The activities of a state are often the slots of a list, one of which is replaced at a time
(`Slots`).
-/

namespace CubeSandbox

namespace Slots

open List Option

variable {α : Type} {l : List α} {i : Nat} {a : α}

lemma get_set (h : l[i]? = some a) (b : α) : (l.set i b)[i]? = some b := by
  rw [getElem?_set_self (List.getElem?_eq_some_iff.1 h).1]

variable {b c : α}

lemma set_cases (h : l[i]? = some a) {j : Nat} (hc : (l.set i b)[j]? = some c) :
    (j = i ∧ c = b) ∨ (j ≠ i ∧ l[j]? = some c) := by
  by_cases hj : j = i
  · subst hj
    rw [get_set h] at hc
    exact .inl ⟨rfl, (some.inj hc).symm⟩
  · rw [getElem?_set_ne (Ne.symm hj)] at hc
    exact .inr ⟨hj, hc⟩

lemma mem_set_cases (h : l[i]? = some a) (hc : c ∈ l.set i b) :
    c = b ∨ ∃ j, j ≠ i ∧ l[j]? = some c := by
  obtain ⟨j, hj⟩ := mem_iff_getElem?.1 hc
  rcases set_cases h hj with ⟨-, h⟩ | h
  · exact .inl h
  · exact .inr ⟨j, h⟩

lemma mem_set_of_ne (h : l[i]? = some a) (hc : c ∈ l) (hne : c ≠ a) : c ∈ l.set i b := by
  obtain ⟨j, hj⟩ := mem_iff_getElem?.1 hc
  have hij : i ≠ j := by
    rintro rfl
    exact hne (some.inj (hj.symm.trans h))
  exact mem_iff_getElem?.2 ⟨j, by rw [getElem?_set_ne hij, hj]⟩

lemma sum_map_set (f : α → Nat) (b : α) (h : l[i]? = some a) :
    ((l.set i b).map f).sum + f a = (l.map f).sum + f b := by
  induction l generalizing i with
  | nil => simp at h
  | cons x l ih =>
    cases i with
    | zero =>
      simp only [getElem?_cons_zero, some.injEq] at h
      subst h
      simp only [set_cons_zero, map_cons, sum_cons]
      omega
    | succ i =>
      have := ih (i := i) (by simpa using h)
      simp only [set_cons_succ, map_cons, sum_cons]
      omega

lemma append_cases {j : Nat} (hc : (l ++ [b])[j]? = some c) :
    (j = l.length ∧ c = b) ∨ (j ≠ l.length ∧ l[j]? = some c) := by
  rcases Nat.lt_or_ge j l.length with hj | hj
  · rw [getElem?_append_left hj] at hc
    exact .inr ⟨by omega, hc⟩
  rw [getElem?_append_right hj, getElem?_singleton] at hc
  split_ifs at hc with h0
  exact .inl ⟨by omega, (some.inj hc).symm⟩

end Slots

namespace Runs

variable {S E : Type} (step : S → E → Option S)

def exec (s : S) : List E → Option S
  | [] => some s
  | e :: es => (step s e).bind fun s' => exec s' es

@[simp] lemma exec_nil (s : S) : exec step s [] = some s := rfl

@[simp] lemma exec_cons (s : S) (e : E) (es : List E) :
    exec step s (e :: es) = (step s e).bind fun s' => exec step s' es := rfl

/-- Every event of the run satisfies the condition in the state it is taken in. -/
def Meets (ok : S → E → Prop) (s : S) : List E → Prop
  | [] => True
  | e :: es => ok s e ∧ ∀ s', step s e = some s' → Meets ok s' es

instance decidableMeets (ok : S → E → Prop) [∀ s e, Decidable (ok s e)] :
    ∀ s es, Decidable (Meets step ok s es)
  | _, [] => .isTrue trivial
  | s, e :: es =>
    match h : step s e with
    | none => decidable_of_iff (ok s e) (by simp [Meets, h])
    | some s' =>
      have := decidableMeets ok s' es
      decidable_of_iff (ok s e ∧ Meets step ok s' es) (by simp [Meets, h])

variable {step}

/-- **The invariant rule.** -/
theorem exec_inv {ok : S → E → Prop} {Inv : S → Prop}
    (hstep : ∀ s e s', Inv s → ok s e → step s e = some s' → Inv s')
    {s s' : S} {es : List E} (hs : Inv s) (hm : Meets step ok s es)
    (h : exec step s es = some s') : Inv s' := by
  induction es generalizing s with
  | nil => simp only [exec_nil, Option.some.injEq] at h; exact h ▸ hs
  | cons e es ih =>
    obtain ⟨hok, hrest⟩ := hm
    rw [exec_cons, Option.bind_eq_some_iff] at h
    obtain ⟨t, ht, h⟩ := h
    exact ih (hstep s e t hs hok ht) (hrest t ht) h

theorem exec_inv' {Inv : S → Prop} (hstep : ∀ s e s', Inv s → step s e = some s' → Inv s')
    {s s' : S} {es : List E} (hs : Inv s) (h : exec step s es = some s') : Inv s' := by
  have hm : ∀ (es : List E) (s : S), Meets step (fun _ _ => True) s es := by
    intro es
    induction es with
    | nil => exact fun _ => trivial
    | cons e es ih => exact fun s => ⟨trivial, fun s' _ => ih s'⟩
  exact exec_inv (fun s e s' hi _ => hstep s e s' hi) hs (hm es s) h

/-- Where a run leads, by a view of the state that can be computed. -/
lemma leads {α : Type} {x : Option S} {P : S → Prop} (f : S → α) (a : α)
    (h : x.map f = some a) (hP : ∀ s, x = some s → f s = a → P s) : ∃ s, x = some s ∧ P s := by
  obtain ⟨s, hs, ha⟩ := Option.map_eq_some_iff.1 h
  exact ⟨s, hs, hP s hs ha⟩

end Runs

end CubeSandbox
