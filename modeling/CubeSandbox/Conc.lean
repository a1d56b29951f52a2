import CubeSandbox.Runs

/-!
Programs that act on a shared state, their interleavings, and a logic for them.

A program ends with a value or performs an atomic action and goes on with its answer. Threads
take their actions in any order. Each thread owns tokens, and an invariant relates the state
to all tokens that are owned. `Safe` says that every action of a program keeps the invariant
whatever the other threads own, so that a program is verified alone and holds in every
interleaving.
-/

namespace CubeSandbox.Conc

open List Option Runs

/-- A program over actions `A` with answers `Ans`. -/
inductive Prog {A : Type} (Ans : A → Type) (α : Type) : Type
  | ret (v : α)
  | act (a : A) (k : Ans a → Prog Ans α)

namespace Prog

variable {A : Type} {Ans : A → Type} {α β : Type}

def bind : Prog Ans α → (α → Prog Ans β) → Prog Ans β
  | ret v, f => f v
  | act a k, f => act a fun v => (k v).bind f

instance : Monad (Prog Ans) where
  pure := ret
  bind := bind

def perform (a : A) : Prog Ans (Ans a) := act a ret

def isDone : Prog Ans α → Bool
  | ret _ => true
  | act _ _ => false

end Prog

variable {σ α : Type} {s s' : σ}

lemma acted {v v' : α} (h : some (s, v) = some (s', v')) :
    s = s' ∧ v = v' := Prod.mk.inj (some.inj h)

lemma acted_if {c : Prop} [Decidable c] {v v' : α}
    (h : (if c then some (s, v) else none) = some (s', v')) : c ∧ s = s' ∧ v = v' := by
  obtain ⟨hc, heq⟩ := ite_none_right_eq_some.1 h
  exact ⟨hc, acted heq⟩

lemma acted_unless {c : Prop} [Decidable c] {v v' : α}
    (h : (if c then none else some (s, v)) = some (s', v')) : ¬ c ∧ s = s' ∧ v = v' := by
  obtain ⟨hc, heq⟩ := ite_none_left_eq_some.1 h
  exact ⟨hc, acted heq⟩

lemma acted_map {β : Type} {x : Option β} {f : β → σ} {g : β → α} {v : α}
    (h : x.map (fun b => (f b, g b)) = some (s, v)) : ∃ b, x = some b ∧ f b = s ∧ g b = v := by
  obtain ⟨b, hx, heq⟩ := map_eq_some_iff.1 h
  exact ⟨b, hx, Prod.mk.inj heq⟩

section Within

variable {A : Type} {Ans : A → Type} {α β : Type} {P : A → Prop}

/-- Every action of the program is one of `P`, and every value it can end with is as in `φ`. -/
def Within (P : A → Prop) (φ : α → Prop) : Prog Ans α → Prop
  | .ret v => φ v
  | .act a k => P a ∧ ∀ v, Within P φ (k v)

lemma Within.ret {φ : α → Prop} {v : α} (h : φ v) : Within P φ (pure v : Prog Ans α) := h

lemma Within.perform {a : A} {φ : Ans a → Prop} (ha : P a) (hφ : ∀ v, φ v) :
    Within P φ (Prog.perform a : Prog Ans (Ans a)) := ⟨ha, hφ⟩

variable {φ : α → Prop} {ψ : β → Prop} {p : Prog Ans α} {f : α → Prog Ans β}

lemma Within.bind (hp : Within P φ p) (hf : ∀ v, φ v → Within P ψ (f v)) :
    Within P ψ (p >>= f) := by
  induction p with
  | ret v => exact hf v hp
  | act a k ih => exact ⟨hp.1, fun v => ih v (hp.2 v)⟩

lemma Within.act {a : A} {f : Ans a → Prog Ans β} (ha : P a)
    (hf : ∀ v, Within P ψ (f v)) : Within P ψ (Prog.perform a >>= f) := ⟨ha, hf⟩

lemma Within.seq (hp : Within P (fun _ => True) p) (hf : ∀ v, Within P ψ (f v)) :
    Within P ψ (p >>= f) :=
  hp.bind fun v _ => hf v

lemma Within.mono {ψ : α → Prop} {Q : A → Prop} (hp : Within P φ p) (hP : ∀ a, P a → Q a)
    (hφ : ∀ v, φ v → ψ v) : Within Q ψ p := by
  induction p with
  | ret v => exact hφ v hp
  | act a k ih => exact ⟨hP a hp.1, fun v => ih v (hp.2 v)⟩

end Within

/-- What an action does under an outcome that the environment chooses, if it can be taken, and which
programs an operation starts. -/
structure Machine {A : Type} (Ans : A → Type) (S O Op : Type) where
  act : (a : A) → S → O → Option (S × Ans a)
  start : S → Op → Option (S × Prog Ans Unit)
  /-- Operations that start only while no thread is running. -/
  alone : Op → Bool

structure Config {A : Type} (Ans : A → Type) (S : Type) where
  world : S
  threads : List (Prog Ans Unit)

inductive Ev (O Op : Type)
  | start (op : Op)
  | go (n : Nat) (o : O)
  deriving DecidableEq

variable {A S O Op : Type} {Ans : A → Type}

def goes (n : Nat) (os : List O) : List (Ev O Op) := os.map (.go n)

/-- No operation is in flight. -/
def Config.Quiet (c : Config Ans S) : Prop := ∀ t ∈ c.threads, t.isDone

instance (c : Config Ans S) : Decidable c.Quiet :=
  inferInstanceAs (Decidable (∀ t ∈ c.threads, t.isDone))

namespace Machine

variable (M : Machine Ans S O Op)

def step (c : Config Ans S) : Ev O Op → Option (Config Ans S)
  | .start op =>
    if M.alone op && !decide c.Quiet then none
    else (M.start c.world op).map fun r => ⟨r.1, c.threads ++ [r.2]⟩
  | .go n o =>
    match c.threads[n]? with
    | some (.act a k) => (M.act a c.world o).map fun r => ⟨r.1, c.threads.set n (k r.2)⟩
    | _ => none

/-- A condition on the actions taken and on the operations started, read on events. -/
def onEv (ok : S → A → O → Prop) (okStart : S → Op → Prop) (c : Config Ans S) : Ev O Op → Prop
  | .start op => okStart c.world op
  | .go n o =>
    match c.threads[n]? with
    | some (.act a _) => ok c.world a o
    | _ => True

instance (ok : S → A → O → Prop) (okStart : S → Op → Prop) [∀ s a o, Decidable (ok s a o)]
    [∀ s op, Decidable (okStart s op)] (c : Config Ans S) :
    ∀ e, Decidable (onEv ok okStart c e)
  | .start op => inferInstanceAs (Decidable (okStart c.world op))
  | .go n o =>
    match h : c.threads[n]? with
    | none => .isTrue (by simp [onEv, h])
    | some (.ret _) => .isTrue (by simp [onEv, h])
    | some (.act a _) => decidable_of_iff (ok c.world a o) (by simp [onEv, h])

end Machine

section Logic

variable {T α β : Type} (M : Machine Ans S O Op) (I : S → Multiset T → Prop)
  (ok : S → A → O → Prop)

/-- With the tokens `r` the program keeps the invariant at each action and ends as in `Q`; the
tokens `F` of the other threads stay what they are. -/
def Safe : Prog Ans α → Multiset T → (α → Multiset T → Prop) → Prop
  | .ret v, r, Q => Q v r
  | .act a k, r, Q =>
    ∀ s F o s' v, I s (r + F) → ok s a o → M.act a s o = some (s', v) →
      ∃ r', I s' (r' + F) ∧ Safe (k v) r' Q

variable {M I ok}

variable {Q : α → Multiset T → Prop} {r : Multiset T}

lemma Safe.ret {v : α} (h : Q v r) : Safe M I ok (pure v) r Q := h

variable {Q' : β → Multiset T → Prop} {p : Prog Ans α} {f : α → Prog Ans β}

lemma Safe.bind (hp : Safe M I ok p r Q) (hf : ∀ v r', Q v r' → Safe M I ok (f v) r' Q') :
    Safe M I ok (p >>= f) r Q' := by
  induction p generalizing r with
  | ret v => exact hf v r hp
  | act a k ih =>
    intro s F o s' v hI hok hact
    obtain ⟨r', hI', hk⟩ := hp s F o s' v hI hok hact
    exact ⟨r', hI', ih v hk⟩

lemma Safe.mono {Q' : α → Multiset T → Prop} (hp : Safe M I ok p r Q)
    (hQ : ∀ v r', Q v r' → Q' v r') : Safe M I ok p r Q' := by
  induction p generalizing r with
  | ret v => exact hQ v r hp
  | act a k ih =>
    intro s F o s' v hI hok hact
    obtain ⟨r', hI', hk⟩ := hp s F o s' v hI hok hact
    exact ⟨r', hI', ih v hk⟩

/-- **Framing.** Tokens that a program does not need are there when it ends. -/
lemma Safe.frame (e : Multiset T) (hp : Safe M I ok p r Q) :
    Safe M I ok p (r + e) fun v r' => ∃ q, r' = q + e ∧ Q v q := by
  induction p generalizing r with
  | ret v => exact ⟨r, rfl, hp⟩
  | act a k ih =>
    intro s F o s' v hI hok hact
    rw [add_assoc] at hI
    obtain ⟨r', hI', hk⟩ := hp s (e + F) o s' v hI hok hact
    exact ⟨r' + e, by rwa [add_assoc], ih v hk⟩

lemma Safe.call {e : Multiset T} (hp : Safe M I ok p r Q)
    (hf : ∀ v q, Q v q → Safe M I ok (f v) (q + e) Q') : Safe M I ok (p >>= f) (r + e) Q' := by
  refine (hp.frame e).bind fun v r' hr => ?_
  obtain ⟨q, rfl, hq⟩ := hr
  exact hf v q hq

lemma Safe.seq {g : α → Multiset T} (hp : Safe M I ok p r fun v r' => r' = g v)
    (hf : ∀ v, Safe M I ok (f v) (g v) Q') : Safe M I ok (p >>= f) r Q' :=
  hp.bind fun v _ hr => hr ▸ hf v

lemma Safe.ended {P : Multiset T → Prop} {f : α → β}
    (hp : Safe M I ok p r fun _ => P) : Safe M I ok (p >>= fun v => pure (f v)) r fun _ => P :=
  hp.bind fun _ _ hr => Safe.ret hr

/-- One action, whose answer and new tokens are as in `Q`. -/
lemma Safe.perform {a : A} {Q : Ans a → Multiset T → Prop}
    (h : ∀ s F o s' v, I s (r + F) → ok s a o → M.act a s o = some (s', v) →
      ∃ r', I s' (r' + F) ∧ Q v r') : Safe M I ok (.perform a) r Q := h

lemma Safe.act {a : A} {g : Ans a → Multiset T}
    (h : ∀ s F o s' v, I s (r + F) → ok s a o → M.act a s o = some (s', v) → I s' (g v + F)) :
    Safe M I ok (.perform a) r fun v r' => r' = g v :=
  fun s F o s' v hI hok hact => ⟨g v, h s F o s' v hI hok hact, rfl⟩

/-- One action that always ends in one way. -/
lemma Safe.does {a : A} {g : Ans a → Multiset T} {w : S → S} {v : S → Ans a}
    (ha : ∀ s o, M.act a s o = some (w s, v s))
    (h : ∀ s F, I s (r + F) → I (w s) (g (v s) + F)) :
    Safe M I ok (.perform a) r fun v r' => r' = g v := by
  refine .act fun s F o s' x hI _ hact => ?_
  cases (ha s o).symm.trans hact
  exact h s F hI

lemma Safe.of_within {P : A → Prop} {φ : α → Prop}
    (hP : ∀ a, P a → ∀ s R o s' v, I s R → ok s a o → M.act a s o = some (s', v) → I s' R)
    (hp : Within P φ p) : Safe M I ok p r fun v r' => φ v ∧ r' = r := by
  induction p with
  | ret v => exact ⟨hp, rfl⟩
  | act a k ih =>
    intro s F o s' v hI hok hact
    exact ⟨r, hP a hp.1 s _ o s' v hI hok hact, ih v (hp.2 v)⟩

/-- Each thread is safe with tokens of its own, which it has used up when it ends. -/
def Sound (M : Machine Ans S O Op) (I : S → Multiset T → Prop) (ok : S → A → O → Prop)
    (c : Config Ans S) : Prop :=
  ∃ rs : List (Multiset T),
    List.Forall₂ (fun t r => Safe M I ok t r fun _ r' => r' = 0) c.threads rs ∧ I c.world rs.sum

lemma forall₂_split {R : Prog Ans Unit → Multiset T → Prop} {ts : List (Prog Ans Unit)}
    {rs : List (Multiset T)} (h : List.Forall₂ R ts rs) {n : Nat} {t : Prog Ans Unit}
    (ht : ts[n]? = some t) :
    ∃ r F, rs.sum = r + F ∧ R t r ∧ ∀ t' r', R t' r' →
      ∃ rs', List.Forall₂ R (ts.set n t') rs' ∧ rs'.sum = r' + F := by
  induction h generalizing n with
  | nil => simp at ht
  | @cons u q us qs hu hus ih =>
    cases n with
    | zero =>
      simp only [getElem?_cons_zero, some.injEq] at ht
      subst ht
      refine ⟨q, qs.sum, by simp, hu, fun t' r' hr => ⟨r' :: qs, ?_, by simp⟩⟩
      exact .cons hr hus
    | succ n =>
      obtain ⟨r, F, hsum, hr, hset⟩ := ih (by simpa using ht)
      refine ⟨r, q + F, by rw [sum_cons, hsum, add_left_comm], hr, fun t' r' hr' => ?_⟩
      obtain ⟨rs', hrs', hsum'⟩ := hset t' r' hr'
      exact ⟨q :: rs', .cons hu hrs', by rw [sum_cons, hsum', add_left_comm]⟩

lemma sum_eq_zero {ts : List (Prog Ans Unit)} {rs : List (Multiset T)}
    (h : List.Forall₂ (fun t r => Safe M I ok t r fun _ r' => r' = 0) ts rs)
    (hdone : ∀ t ∈ ts, t.isDone) : rs.sum = 0 := by
  induction h with
  | nil => rfl
  | @cons t r ts rs ht _ ih =>
    have hr : r = 0 := by
      have := hdone t (by simp)
      cases t with
      | ret v => exact ht
      | act a k => simp [Prog.isDone] at this
    rw [sum_cons, hr, ih fun t ht => hdone t (by simp [ht]), add_zero]

variable {c : Config Ans S}

lemma Sound.of_quiet (h : Sound M I ok c) (hq : c.Quiet) : I c.world 0 := by
  obtain ⟨rs, hrs, hI⟩ := h
  rwa [sum_eq_zero hrs hq] at hI

lemma Sound.start (hI : I c.world 0) (hc : c.threads = []) :
    Sound M I ok c := ⟨[], by rw [hc]; exact .nil, hI⟩

/-- **Threads interleave soundly** if each operation starts a safe program. -/
theorem sound_step {okStart : S → Op → Prop}
    (hstart : ∀ s R op s' p, I s R → okStart s op → (M.alone op → R = 0) →
      M.start s op = some (s', p) →
      ∃ r, I s' (r + R) ∧ Safe M I ok p r fun _ r' => r' = 0)
    {c' : Config Ans S} {e : Ev O Op} (h : Sound M I ok c)
    (hok : Machine.onEv ok okStart c e) (hstep : M.step c e = some c') : Sound M I ok c' := by
  cases e with
  | start op =>
    simp only [Machine.step] at hstep
    split at hstep
    · simp at hstep
    rename_i halone
    obtain ⟨⟨s', p⟩, hs, rfl⟩ := map_eq_some_iff.1 hstep
    have hquiet : M.alone op → c.Quiet := by simpa using halone
    obtain ⟨rs, hrs, hI⟩ := h
    have hzero : M.alone op → rs.sum = 0 := fun ha => sum_eq_zero hrs (hquiet ha)
    obtain ⟨r, hI', hp⟩ := hstart _ _ op s' p hI hok hzero hs
    refine ⟨rs ++ [r], rel_append hrs (.cons hp .nil), ?_⟩
    rwa [sum_append, sum_singleton, add_comm]
  | go n o =>
    simp only [Machine.step] at hstep
    split at hstep <;> try cases hstep
    rename_i a k ht
    obtain ⟨⟨s', v⟩, hs, rfl⟩ := map_eq_some_iff.1 hstep
    obtain ⟨rs, hrs, hI⟩ := h
    obtain ⟨r, F, hsum, hr, hset⟩ := forall₂_split hrs ht
    simp only [Machine.onEv, ht] at hok
    rw [hsum] at hI
    obtain ⟨r', hI', hk⟩ := hr _ F o s' v hI hok hs
    obtain ⟨rs', hrs', hsum'⟩ := hset _ r' hk
    exact ⟨rs', hrs', by rwa [hsum']⟩

/-- In every run from a state without threads, each thread keeps the invariant. -/
theorem sound_run {okStart : S → Op → Prop}
    (hstart : ∀ s R op s' p, I s R → okStart s op → (M.alone op → R = 0) →
      M.start s op = some (s', p) →
      ∃ r, I s' (r + R) ∧ Safe M I ok p r fun _ r' => r' = 0)
    {s : S} {es : List (Ev O Op)} (hI : I s 0)
    (hm : Runs.Meets M.step (Machine.onEv ok okStart) ⟨s, []⟩ es)
    (h : exec M.step ⟨s, []⟩ es = some c) : Sound M I ok c :=
  exec_inv (fun _ _ _ hs hok hstep => sound_step hstart hs hok hstep) (.start hI rfl) hm h

theorem sound_run' (hstart : ∀ s R op s' p, I s R → M.start s op = some (s', p) →
      ∃ r, I s' (r + R) ∧ Safe M I (fun _ _ _ => True) p r fun _ r' => r' = 0)
    {s : S} {es : List (Ev O Op)} (hI : I s 0)
    (h : exec M.step ⟨s, []⟩ es = some c) : Sound M I (fun _ _ _ => True) c := by
  refine exec_inv' (fun c e c' hs hstep => ?_) (.start hI rfl) h
  have hok : Machine.onEv (fun _ _ _ => True) (fun _ _ => True) c e := by
    cases e with
    | start op => trivial
    | go n o => simp only [Machine.onEv]; split <;> trivial
  exact sound_step (fun s R op s' p hI _ _ hs => hstart s R op s' p hI hs) hs hok hstep

end Logic

/-! ### Lists that record who owns what -/

section Records

variable {α : Type} [BEq α] [LawfulBEq α]

lemma coe_erase_of_eq_cons {l : List α} {a : α} {M : Multiset α}
    (h : (l : Multiset α) = a ::ₘ M) : ((l.erase a : List α) : Multiset α) = M := by
  have hmem : a ∈ l := by
    rw [← Multiset.mem_coe, h]
    exact Multiset.mem_cons_self a M
  have hperm : (l : Multiset α) = a ::ₘ (l.erase a : List α) :=
    Multiset.coe_eq_coe.2 (perm_cons_erase hmem)
  exact ((Multiset.cons_inj_right a).1 (h.symm.trans hperm)).symm

end Records

end CubeSandbox.Conc
