import CubeSandbox.Tbl

/-!
Programs that make calls, any of which may fail.

The state that a program has changed before an error stays as it is. Which calls fail is data
of the run: every call takes the head of a list, and a text there makes it fail with that
text. A list that has run out lets the remaining calls do what they do.
-/

namespace CubeSandbox

/-- Errors, as Go wraps them. -/
inductive GoErr
  | keyNotExist
  | sys (text : String)
  | wrap (before : String) (cause : GoErr) (after : String)

namespace GoErr

/-- `errors.Is(err, ebpf.ErrKeyNotExist)`, which looks through every wrapping. -/
def isKeyNotExist : GoErr → Bool
  | keyNotExist => true
  | sys _ => false
  | wrap _ cause _ => cause.isKeyNotExist

end GoErr

/-- What becomes of the next calls. -/
abbrev Fate := List (Option String)

abbrev Sys (S : Type) := EStateM GoErr (S × Fate)

namespace Sys

variable {S A B : Type}

/-- A call that does `f` to the state if it is not made to fail. -/
def call (f : S → Except GoErr (A × S)) : Sys S A := fun (s, w) =>
  match w.head?.join with
  | some t => .error (.sys t) (s, w.tail)
  | none =>
    match f s with
    | .ok (a, s') => .ok a (s', w.tail)
    | .error e => .error e (s, w.tail)

/-- The outcome of a program as a value, for a caller that goes on after an error. -/
def attempt (p : Sys S A) : Sys S (Except GoErr A) := fun σ =>
  match p σ with
  | .ok a σ' => .ok (.ok a) σ'
  | .error e σ' => .ok (.error e) σ'

/-- `fmt.Errorf` around the error of a program. -/
def wrapErr (before after : String) (p : Sys S A) : Sys S A := do
  match ← attempt p with
  | .ok a => return a
  | .error e => throw (.wrap before e after)

/-- An error that says that the key is missing counts as success. -/
def allowMissing (p : Sys S Unit) : Sys S Unit := do
  match ← attempt p with
  | .ok () => return ()
  | .error e => if e.isKeyNotExist then return () else throw e

def after (p : Sys S A) (s : S) (w : Fate) : S :=
  match p (s, w) with
  | .ok _ σ => σ.1
  | .error _ σ => σ.1

/-- Every run ends with a value and a state that meet `Q`, or an error and a state that meet `E`. -/
def Ends (p : Sys S A) (s : S) (Q : A → S → Prop) (E : GoErr → S → Prop) : Prop :=
  ∀ w, match p (s, w) with
    | .ok a σ => Q a σ.1
    | .error e σ => E e σ.1

section
variable {p : Sys S A} {f : A → Sys S B} {s : S} {Q Q' : A → S → Prop} {R : B → S → Prop}
  {E E' : GoErr → S → Prop}

lemma Ends.ok (h : Ends p s Q E) {w w' : Fate} {a : A} {s' : S}
    (hr : p (s, w) = .ok a (s', w')) : Q a s' := by
  simpa [hr] using h w

lemma Ends.mono (h : Ends p s Q E) (hQ : ∀ a s', Q a s' → Q' a s')
    (hE : ∀ e s', E e s' → E' e s') : Ends p s Q' E' := by
  intro w
  have hw := h w
  cases hr : p (s, w) with
  | ok a σ => simp only [hr] at hw; exact hQ _ _ hw
  | error e σ => simp only [hr] at hw; exact hE _ _ hw

lemma Ends.pure {a : A} (h : Q a s) : Ends (pure a) s Q E := fun _ => h

lemma Ends.throw {e : GoErr} (h : E e s) : Ends (throw e : Sys S A) s Q E := fun _ => h

lemma Ends.bind (h : Ends p s Q E) (hf : ∀ a s', Q a s' → Ends (f a) s' R E) :
    Ends (p >>= f) s R E := by
  intro w
  have hw := h w
  change match EStateM.bind p f (s, w) with
    | .ok a σ => R a σ.1
    | .error e σ => E e σ.1
  unfold EStateM.bind
  cases hr : p (s, w) with
  | ok a σ =>
    simp only [hr] at hw
    exact hf a σ.1 hw σ.2
  | error e σ =>
    simp only [hr] at hw
    exact hw

lemma Ends.call {g : S → Except GoErr (A × S)} (hsys : ∀ t, E (.sys t) s)
    (hE : ∀ e, g s = .error e → E e s) (hQ : ∀ a s', g s = .ok (a, s') → Q a s') :
    Ends (call g) s Q E := by
  intro w
  unfold Sys.call
  cases hw : w.head?.join with
  | some t =>
    simp only [hw]
    exact hsys t
  | none =>
    cases hg : g s with
    | ok r =>
      simp only [hw, hg]
      exact hQ r.1 r.2 hg
    | error e =>
      simp only [hw, hg]
      exact hE e hg

lemma Ends.attempt (h : Ends p s Q E) :
    Ends (attempt p) s (fun r s' => match r with | .ok a => Q a s' | .error e => E e s') E' := by
  intro w
  have hw := h w
  unfold Sys.attempt
  cases hr : p (s, w) with
  | ok a σ => simpa [hr] using hw
  | error e σ => simpa [hr] using hw

lemma Ends.wrapErr {before after : String}
    (h : Ends p s Q fun e s' => E (.wrap before e after) s') :
    Ends (wrapErr before after p) s Q E := by
  refine (h.attempt).bind fun r s' hr => ?_
  cases r with
  | ok a => exact .pure hr
  | error e => exact .throw hr

lemma Ends.allowMissing {p : Sys S Unit} {Q : Unit → S → Prop}
    (h : Ends p s Q fun e s' => if e.isKeyNotExist then Q () s' else E e s') :
    Ends (allowMissing p) s Q E := by
  refine (h.attempt).bind fun r s' hr => ?_
  cases r with
  | ok a => exact .pure hr
  | error e =>
    by_cases he : e.isKeyNotExist
    · simp only [he, if_true] at hr ⊢
      exact .pure hr
    · simp only [he] at hr ⊢
      exact .throw hr

end

/-- The program keeps `I`, also where it fails. -/
def Keeps (I : S → Prop) (p : Sys S A) : Prop := ∀ s, I s → Ends p s (fun _ => I) fun _ => I

section
variable {I : S → Prop} {p : Sys S A} {s : S}

lemma Keeps.after (h : Keeps I p) (hs : I s) (w : Fate) : I (p.after s w) := by
  have hw := h s hs w
  unfold Sys.after
  split at hw <;> simp_all

lemma Keeps.bind {f : A → Sys S B} (h : Keeps I p) (hf : ∀ a, Keeps I (f a)) : Keeps I (p >>= f) :=
  fun s hs => (h s hs).bind hf

lemma Keeps.call {f : S → Except GoErr (A × S)} (hf : ∀ s a s', f s = .ok (a, s') → I s → I s') :
    Keeps I (call f) :=
  fun s hs => .call (fun _ => hs) (fun _ _ => hs) fun a s' h => hf s a s' h hs

lemma Keeps.wrapErr (h : Keeps I p) (before after : String) : Keeps I (wrapErr before after p) :=
  fun s hs => .wrapErr (h s hs)

lemma Keeps.allowMissing {p : Sys S Unit} (h : Keeps I p) : Keeps I (allowMissing p) :=
  fun s hs => .allowMissing ((h s hs).mono (fun _ _ => id) fun _ _ h => by split <;> exact h)

end

end Sys

end CubeSandbox
