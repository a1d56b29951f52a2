import CubeSandbox.ReflinkModel

/-!
The invariant of the reflink engine.

What is known of a name is its entry in the index, its files and what was acknowledged. An
operation that is under way has a place in the code, and the place says what it has done to its
name so far. Each name is either at rest, with an entry exactly if it has its one file, or it
belongs to one operation; a change to one name leaves the others as they are.
-/

namespace CubeSandbox.Reflink

open GoText Conc Multiset Option Tbl

/-- The index and the files say the same. -/
structure Agrees (w : World) : Prop where
  volume : ∀ n, w.index.get n = some .volume ↔ (w.file n n).isSome
  snapshot : ∀ n o, w.index.get n = some (.snapshot o) ↔ o ≠ n ∧ (w.file o n).isSome

/-- What was acknowledged keeps its file until a deletion of the name is called. -/
def KeepsFiles (w : World) : Prop :=
  ∀ n k size, w.store.get n = some (k, size) → (∀ c ∈ w.calls, c.name = n → !c.deletes) →
    (w.file (k.dir n) n).isSome

/-- A deletion does not start while a creation of the name is in flight; a snapshot does not
take the name of an origin that is gone; the removals whose errors are ignored, the removal of
the directory of a volume and the look at a new snapshot do not fail; and, where operations come
one after another, nothing empty is cloned. -/
def Steady (serial : Bool) (w : World) : Act → Outcome → Prop
  | .lockDelete n, _ => serial = true ∨ ∀ c ∈ w.calls, c.name = n → !c.creates
  | .reserve n (.snapshot o), _ => o = n → (w.index.get n).isSome
  | .tryRemoveFile .., o | .removeDir _, o => o = .ok
  | .stat d f, o => d ≠ f → o = .ok
  | .ficlone _ src, _ => serial = true → w.size src ≠ 0
  | _, _ => True

instance (serial : Bool) (w : World) (a : Act) (o : Outcome) : Decidable (Steady serial w a o) := by
  unfold Steady
  split <;> infer_instance

variable {d n : Name} {v : View} {ps : Multiset Place}

section Files

variable (w : World)

lemma file_put (d f : Name) (t : Tbl Name Ino) (x y : Name) (h : w.dirs.get d = some t)
    (t' : Tbl Name Ino) (o : Option Ino) (ht : ∀ y, t'.get y = if y = f then o else t.get y) :
    ({ w with dirs := w.dirs.put d t' } : World).file x y =
      if x = d ∧ y = f then o else w.file x y := by
  unfold World.file
  by_cases hx : x = d
  · subst hx
    simp [h, ht]
  · simp [get_put_ne _ _ hx, hx]

lemma file_setFile_some (hd : (w.dirs.get d).isSome) (f x y : Name) (i : Ino) :
    (w.setFile d f (some i)).file x y = if x = d ∧ y = f then some i else w.file x y := by
  obtain ⟨t, ht⟩ := isSome_iff_exists.1 hd
  unfold World.setFile
  rw [ht]
  exact file_put w d f t x y ht _ _ fun y => get_put t i

lemma file_setFile_none (d f x y : Name) :
    (w.setFile d f none).file x y = if x = d ∧ y = f then none else w.file x y := by
  unfold World.setFile
  cases ht : w.dirs.get d with
  | none =>
    by_cases hxy : x = d ∧ y = f
    · obtain ⟨rfl, rfl⟩ := hxy
      simp [World.file, ht]
    · simp [hxy]
  | some t => exact file_put w d f t x y ht _ _ fun y => get_del t

lemma file_addFile (hd : (w.dirs.get d).isSome) (f x y : Name) :
    (w.addFile d f).file x y = if x = d ∧ y = f then some w.next else w.file x y :=
  file_setFile_some w hd f x y w.next

lemma file_unlink (d f x y : Name) :
    (w.unlink d f).file x y = if x = d ∧ y = f then none else w.file x y :=
  file_setFile_none w d f x y

lemma file_mkdir (d x y : Name) : (w.mkdir d).file x y = w.file x y := by
  unfold World.mkdir
  cases hd : w.dirs.get d with
  | some t => rfl
  | none =>
    simp only [World.file, get_put]
    split_ifs with hx
    · simp [hx, hd]
    · rfl

lemma file_rmdir {t : Tbl Name Ino} (hd : w.dirs.get d = some t) (ht : t.toPairs = [])
    (x y : Name) :
    ({ w with dirs := w.dirs.del d } : World).file x y = w.file x y := by
  unfold World.file
  by_cases hx : x = d
  · subst hx
    have hnone : t.get y = none := by
      rw [eq_none_iff_forall_not_mem]
      intro i hi
      have hmem : (y, i) ∈ t.pairs := mem_pairs.2 hi
      rw [pairs, ht] at hmem
      simp at hmem
    simp [hd, hnone]
  · simp [get_del_ne _ hx]

lemma dir_of_file {f : Name} {i : Ino} (h : w.file d f = some i) : (w.dirs.get d).isSome := by
  obtain ⟨t, ht, -⟩ := bind_eq_some_iff.1 h
  simp [ht]

end Files

structure View where
  kind : Option Kind
  file : Name → Option Ino
  store : Option (Kind × Nat)

def view (w : World) (n : Name) : View :=
  ⟨w.index.get n, fun d => w.file d n, w.store.get n⟩

/-- Where an operation is in the code, with what it has found. -/
inductive Place
  | idle
  | resolved (d : Name)
  | reserved (k : Kind)
  | sourced (d : Name) (src : Ino)
  /-- The new file is there and empty. -/
  | made (k : Kind) (i : Ino) (src : Option Ino)
  | filled (k : Kind) (i : Ino) (size : Nat)
  /-- The lock is held for a rollback, before and after the entry is removed. -/
  | undoing
  | rolling
  | locked
  /-- The lock is held for a deletion, before and after the file is removed. -/
  | deleting (k : Kind) (live : Bool)
  | gone (k : Kind) (live : Bool)
  | reading
  | opened (i : Ino)

namespace Place

/-- The operation has the writer lock. -/
def holds : Place → Bool
  | undoing | rolling | locked | deleting .. | gone .. => true
  | _ => false

def reads : Place → Bool
  | reading | opened _ => true
  | _ => false

/-- The name belongs to the operation. -/
def owns : Place → Bool
  | reserved _ | sourced .. | made .. | filled .. | undoing | rolling | deleting .. | gone .. =>
    true
  | _ => false

def own (p : Place) : Multiset Place := if p.owns then {p} else 0

end Place

structure Tok where
  call : Call
  place : Place

/-- The operations that a name belongs to. -/
def owners (n : Name) (R : Multiset Tok) : Multiset Place :=
  (R.filter fun t => t.call.name = n).bind fun t => t.place.own

lemma owners_cons (n : Name) (t : Tok) (R : Multiset Tok) :
    owners n (t ::ₘ R) = (if t.call.name = n then t.place.own else 0) + owners n R := by
  unfold owners
  split
  · rename_i h; simp [h]
  · rename_i h; simp [h]

variable {p : Place}

lemma mem_owners {R : Multiset Tok} :
    p ∈ owners n R ↔ p.owns ∧ ∃ t ∈ R, t.call.name = n ∧ t.place = p := by
  simp only [owners, mem_bind, mem_filter, Place.own]
  constructor
  · rintro ⟨t, ⟨ht, hn⟩, hp⟩
    split at hp
    · obtain rfl := mem_singleton.1 hp
      exact ⟨‹_›, t, ht, hn, rfl⟩
    · simp at hp
  · rintro ⟨hp, t, ht, hn, rfl⟩
    exact ⟨t, ⟨ht, hn⟩, by simp [hp]⟩

def nowhere : Name → Option Ino := fun _ => none

/-- One file. -/
def only (d : Name) (i : Ino) : Name → Option Ino := fun x => if x = d then some i else none

/-- A name and its kind are such that the layout can tell them. -/
structure Good (n : Name) (k : Kind) : Prop where
  name : validName n
  dir : validName (k.dir n)
  apart : k ≠ .snapshot n

lemma Good.kindAt {k : Kind} (h : Good n k) : kindAt (k.dir n) n = k := by
  cases k with
  | volume => simp [Reflink.kindAt, Kind.dir]
  | snapshot o =>
    have hne : o ≠ n := fun heq => h.apart (heq ▸ rfl)
    simp [Reflink.kindAt, Kind.dir, hne]

/-- A name that belongs to nobody. -/
inductive Rest (n : Name) (v : View) : Prop
  | absent (kind : v.kind = none) (file : v.file = nowhere) (store : v.store = none)
  | present (k : Kind) (i : Ino) (size : Nat) (good : Good n k) (kind : v.kind = some k)
      (file : v.file = only (k.dir n) i) (store : v.store = some (k, size))

/-- A name that belongs to an operation. -/
def Held (n : Name) (v : View) : Place → Prop
  | .reserved k => Good n k ∧ v.kind = some k ∧ v.file = nowhere ∧ v.store = none
  | .sourced d _ => Good n (.snapshot d) ∧ v.kind = some (.snapshot d) ∧ v.file = nowhere ∧
      v.store = none
  | .made k i _ | .filled k i _ => Good n k ∧ v.kind = some k ∧ v.file = only (k.dir n) i ∧
      v.store = none
  | .undoing => Good n .volume ∧ v.kind = some .volume ∧ (∀ d, d ≠ n → v.file d = none) ∧
      v.store = none
  | .rolling => Good n .volume ∧ v.kind = none ∧ (∀ d, d ≠ n → v.file d = none) ∧ v.store = none
  | .deleting k _ => Good n k ∧ v.kind = some k ∧ (∃ i, v.file = only (k.dir n) i) ∧
      ∃ size, v.store = some (k, size)
  | .gone k _ => Good n k ∧ v.kind = some k ∧ v.file = nowhere ∧ ∃ size, v.store = some (k, size)
  | _ => False

/-- A name belongs to nobody or to one operation. -/
def NameOk (n : Name) (v : View) (ps : Multiset Place) : Prop :=
  (ps = 0 ∧ Rest n v) ∨ ∃ p, ps = {p} ∧ Held n v p

lemma NameOk.held (h : NameOk n v (p.own + ps)) (hp : p.owns) : ps = 0 ∧ Held n v p := by
  rw [Place.own, if_pos hp, singleton_add] at h
  rcases h with ⟨h, -⟩ | ⟨q, h, hq⟩
  · exact absurd h (cons_ne_zero)
  have hps : ps = 0 := by
    have hcard := congrArg Multiset.card h
    rw [card_cons, card_singleton] at hcard
    exact card_eq_zero.1 (by omega)
  subst hps
  obtain rfl : p = q := singleton_inj.1 h
  exact ⟨rfl, hq⟩

lemma NameOk.rest (h : NameOk n v 0) : Rest n v := by
  rcases h with ⟨-, h⟩ | ⟨p, h, -⟩
  · exact h
  · exact absurd h.symm (singleton_ne_zero p)

lemma NameOk.of_held (hps : ps = 0) (hp : p.owns) (h : Held n v p) : NameOk n v (p.own + ps) := by
  subst hps
  exact .inr ⟨p, by simp [Place.own, hp], h⟩

lemma NameOk.of_rest (hps : ps = 0) (hp : p.owns = false) (h : Rest n v) :
    NameOk n v (p.own + ps) := by
  subst hps
  exact .inl ⟨by simp [Place.own, hp], h⟩

/-- Inodes are new when they are used, and no file has two paths. -/
structure Inodes (file : Name → Name → Option Ino) (next : Ino) : Prop where
  fresh : ∀ d f i, file d f = some i → i < next
  inj : ∀ d f d' f' i, file d f = some i → file d' f' = some i → d = d' ∧ f = f'

/-- The operation is one that comes to the place. -/
def Tok.Fits (t : Tok) : Prop :=
  match t.place with
  | .reserved _ | .sourced .. | .made .. | .filled .. | .undoing | .rolling => t.call.creates
  | .deleting .. | .gone .. => t.call.deletes
  | .resolved d => validName d
  | _ => True

/-- A deletion knows whether the directory has snapshots. -/
def Tok.Live (index : Index) (t : Tok) : Prop :=
  match t.place with
  | .deleting _ live | .gone _ live => hasSnapshots index t.call.name = live
  | _ => True

/-- The source of a snapshot was acknowledged with this size and lives in this directory. -/
def Source (w : World) (c : Call) (d : Name) (size : Nat) : Prop :=
  ∃ source k, c = .createSnapshot source c.name ∧ w.store.get source = some (k, size) ∧
    k.dir source = d

/-- The source of a snapshot is this file. -/
def SourceFile (w : World) (c : Call) (d : Name) (src : Ino) : Prop :=
  ∃ source k size, c = .createSnapshot source c.name ∧ w.store.get source = some (k, size) ∧
    k.dir source = d ∧ w.file d source = some src

/-- What an operation knows of sizes and sources where it runs alone. -/
def Tok.Sized (w : World) (t : Tok) : Prop :=
  match t.place with
  | .resolved d | .reserved (.snapshot d) => ∃ size, Source w t.call d size
  | .sourced d src => SourceFile w t.call d src
  | .made (.snapshot d) i (some src) => SourceFile w t.call d src ∧ w.size i = 0
  | .made (.snapshot _) _ none => False
  | .made .volume _ _ => t.call.name ∈ w.bare
  | .filled .volume i size => t.call = .createVolume t.call.name size ∧ w.size i = size
  | .filled (.snapshot d) i size => Source w t.call d size ∧ w.size i = size ∧ size ≠ 0
  | .undoing | .rolling => ∀ i, w.file t.call.name t.call.name = some i →
      t.call.name ∈ w.bare ∨ t.call = .createVolume t.call.name (w.size i)
  | .opened i => w.file t.call.name t.call.name = some i
  | _ => True

/-- Files have the sizes that were acknowledged, and no snapshot is empty. -/
structure StoreSized (store : Tbl Name (Kind × Nat)) (file : Name → Name → Option Ino)
    (size : Ino → Nat) : Prop where
  size : ∀ n k s i, store.get n = some (k, s) → file (k.dir n) n = some i → size i = s
  nonempty : ∀ n o s, store.get n = some (.snapshot o, s) → s ≠ 0

structure Inv (serial : Bool) (w : World) (R : Multiset Tok) : Prop where
  calls : (w.calls : Multiset Call) = R.map Tok.call
  alone : serial = true → R.card ≤ 1
  lock : R.countP (fun t => t.place.holds) = if w.lock then 1 else 0
  readers : R.countP (fun t => t.place.reads) = w.readers
  apart : w.lock = true → w.readers = 0
  fits : ∀ t ∈ R, t.Fits
  live : ∀ t ∈ R, t.Live w.index
  names : ∀ n, NameOk n (view w n) (owners n R)
  inodes : Inodes w.file w.next
  store : serial = true → StoreSized w.store w.file w.size
  sized : serial = true → ∀ t ∈ R, t.Sized w

/-- The invariant, with the token of one operation apart. -/
abbrev InvAt (serial : Bool) (w : World) (c : Call) (p : Place) (F : Multiset Tok) : Prop :=
  Inv serial w (⟨c, p⟩ ::ₘ F)

lemma inv_init (serial : Bool) : Inv serial World.init 0 where
  calls := rfl
  alone := by simp
  lock := rfl
  readers := rfl
  apart := fun _ => rfl
  fits := by simp
  live := by simp
  names := fun _ => .inl ⟨rfl, .absent rfl rfl rfl⟩
  inodes := ⟨by simp [World.file, World.init], by simp [World.file, World.init]⟩
  store := fun _ => ⟨by simp [World.init], by simp [World.init]⟩
  sized := by simp

section

variable {serial : Bool} {w w' : World} {F : Multiset Tok} {c : Call} {p q : Place}

section

variable (h : InvAt serial w c p F)
include h

lemma Inv.own : NameOk c.name (view w c.name) (p.own + owners c.name F) := by
  have hn := h.names c.name
  rwa [owners_cons, if_pos rfl] at hn

lemma Inv.held (hp : p.owns) : owners c.name F = 0 ∧ Held c.name (view w c.name) p := h.own.held hp

lemma Inv.fits_self : Tok.Fits ⟨c, p⟩ :=
  h.fits _ (mem_cons_self _ _)

lemma Inv.live_self : Tok.Live w.index ⟨c, p⟩ :=
  h.live _ (mem_cons_self _ _)

lemma Inv.sized_self (hs : serial = true) : Tok.Sized w ⟨c, p⟩ := h.sized hs _ (mem_cons_self _ _)

lemma Inv.others (hs : serial = true) : F = 0 := by
  have hcard := h.alone hs
  rw [card_cons] at hcard
  exact card_eq_zero.1 (by omega)

lemma Inv.unlocked (hp : w.lock = false ∨ p.holds) : ∀ u ∈ F, u.place.holds = false := by
  have hcount : F.countP (fun t => t.place.holds) = 0 := by
    have hlock := h.lock
    rw [countP_cons] at hlock
    rcases hp with hp | hp
    · rw [hp] at hlock
      simp only [Bool.false_eq_true, if_false] at hlock
      omega
    · rw [if_pos hp] at hlock
      split at hlock <;> omega
  intro u hu
  rw [countP_eq_zero] at hcount
  simpa using hcount u hu

section

variable (q : Place) (hcalls : w'.calls = w.calls) (hfits : Tok.Fits ⟨c, q⟩)
  (hindex : w'.index = w.index ∨ w.lock = false ∨ p.holds) (hlive : Tok.Live w'.index ⟨c, q⟩)
  (hviews : ∀ m, m ≠ c.name → view w' m = view w m)
  (hname : NameOk c.name (view w' c.name) (q.own + owners c.name F))
  (hinodes : Inodes w'.file w'.next)
  (hstore : serial = true → StoreSized w'.store w'.file w'.size)
  (hsized : serial = true → Tok.Sized w' ⟨c, q⟩)
include hcalls hfits hindex hlive hviews hname hinodes hstore hsized

lemma Inv.change (hlock : (F.countP fun t => t.place.holds) + (if q.holds then 1 else 0) =
      if w'.lock then 1 else 0)
    (hreaders : (F.countP fun t => t.place.reads) + (if q.reads then 1 else 0) = w'.readers)
    (hapart : w'.lock = true → w'.readers = 0) : InvAt serial w' c q F where
  calls := by rw [hcalls, h.calls]; simp
  alone hs := by simpa using h.alone hs
  lock := by rw [countP_cons, hlock]
  readers := by rw [countP_cons, hreaders]
  apart := hapart
  fits u hu := by
    rcases mem_cons.1 hu with rfl | hu
    · exact hfits
    · exact h.fits u (mem_cons_of_mem hu)
  live u hu := by
    rcases mem_cons.1 hu with rfl | hu
    · exact hlive
    rcases hindex with hi | hp
    · rw [hi]
      exact h.live u (mem_cons_of_mem hu)
    -- only a holder of the lock has something to know
    have hnot := h.unlocked hp u hu
    obtain ⟨d, r⟩ := u
    cases r <;> trivial
  names m := by
    rw [owners_cons]
    by_cases hm : m = c.name
    · subst hm
      rwa [if_pos rfl]
    have hold := h.names m
    rw [owners_cons, if_neg (Ne.symm hm)] at hold
    rwa [if_neg (Ne.symm hm), hviews m hm]
  inodes := hinodes
  store := hstore
  sized hs u hu := by
    rcases mem_cons.1 hu with rfl | hu
    · exact hsized hs
    · rw [h.others hs] at hu
      simp at hu

/-- **One action** that has nothing to do with the lock. -/
lemma Inv.step (hholds : q.holds = p.holds ∧ w'.lock = w.lock)
    (hreads : q.reads = p.reads ∧ w'.readers = w.readers) : InvAt serial w' c q F := by
  refine h.change q hcalls hfits hindex hlive hviews hname hinodes hstore hsized ?_ ?_ ?_
  · rw [hholds.1, hholds.2, ← h.lock, countP_cons]
  · rw [hreads.1, hreads.2, ← h.readers, countP_cons]
  · rw [hreads.2, hholds.2]
    exact h.apart

end

lemma Inv.relock (q : Place) (b : Bool)
    (hp : p.holds = !b) (hq : q.holds = b) (hreads : p.reads = false ∧ q.reads = false)
    (hfree : b = true → w.free) (hfits : Tok.Fits ⟨c, q⟩) (hlive : Tok.Live w.index ⟨c, q⟩)
    (hname : NameOk c.name (view w c.name) (q.own + owners c.name F))
    (hsized : serial = true → Tok.Sized w ⟨c, q⟩) :
    InvAt serial { w with lock := b } c q F := by
  have hothers : (F.countP fun t => t.place.holds) = 0 := by
    rw [countP_eq_zero]
    intro u hu
    have hnot := h.unlocked (by cases b <;> simp_all [World.free]) u hu
    simp [hnot]
  refine h.change q rfl hfits (.inl rfl) hlive (fun _ _ => rfl) hname h.inodes h.store hsized ?_ ?_
    ?_
  · rw [hothers, hq, zero_add]
  · have hcount := h.readers
    rw [countP_cons, hreads.1] at hcount
    rwa [hreads.2]
  · intro hb
    have hf := hfree hb
    simp only [World.free, Bool.and_eq_true, beq_iff_eq] at hf
    exact hf.2

lemma Inv.rereads (q : Place) (readers : Nat) (hholds : p.holds = false ∧ q.holds = false)
    (hreaders : readers + (if p.reads then 1 else 0) = w.readers + if q.reads then 1 else 0)
    (hlock : w.lock = false) (hfits : Tok.Fits ⟨c, q⟩) (hlive : Tok.Live w.index ⟨c, q⟩)
    (hname : NameOk c.name (view w c.name) (q.own + owners c.name F))
    (hsized : serial = true → Tok.Sized w ⟨c, q⟩) :
    InvAt serial { w with readers := readers } c q F := by
  refine h.change q rfl hfits (.inl rfl) hlive (fun _ _ => rfl) hname h.inodes h.store hsized ?_ ?_
    ?_
  · have hcount := h.lock
    rw [countP_cons, hholds.1] at hcount
    rwa [hholds.2]
  · have hcount := h.readers
    rw [countP_cons] at hcount
    dsimp only at hcount ⊢
    omega
  · simp [hlock]

end

end

end CubeSandbox.Reflink
