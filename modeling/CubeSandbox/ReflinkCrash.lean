import CubeSandbox.ReflinkScan

/-!
Crashes of the reflink engine: a restart after any step of an operation recovers the store as it
was before the operation or as it is after it, and the operation can be repeated.
-/

namespace CubeSandbox.Reflink

open GoText Conc Multiset Option Function Runs

/-- The store after an operation. -/
def effect (c : Call) (st : Store) : Store :=
  match c with
  | .createVolume n size => update st n (some (.volume, size))
  | .createSnapshot source n =>
    match st source with
    | some (k, size) => update st n (some (.snapshot (k.dir source), size))
    | none => st
  | .deleteVolume n | .deleteSnapshot n => update st n none
  | .resizeVolume n size => update st n (some (.volume, size))

/-- The creations and deletions of which the store meets the preconditions. -/
def Enabled (st : Store) : Call → Prop
  | .createVolume n _ => validName n ∧ st n = none
  | .createSnapshot source n => validName n ∧ st n = none ∧ ∃ k size, st source = some (k, size)
  | .deleteVolume n => ∃ size, st n = some (.volume, size)
  | .deleteSnapshot n => ∃ o size, st n = some (.snapshot o, size)
  | .resizeVolume .. => False

variable {size : Nat} {k : Kind} {i : Ino} {n : Name}

section

variable {c : Call} {st : Store}

lemma effect_createVolume (h : c = .createVolume c.name size) :
    effect c st = update st c.name (some (.volume, size)) := by
  generalize c.name = n at h ⊢
  subst h
  rfl

lemma effect_createSnapshot {source : Name} (h : c = .createSnapshot source c.name)
    (hs : st source = some (k, size)) :
    effect c st = update st c.name (some (.snapshot (k.dir source), size)) := by
  generalize c.name = n at h ⊢
  subst h
  simp [effect, hs]

lemma effect_delete (h : c.deletes) : effect c st = Function.update st c.name none := by
  cases c with
  | deleteVolume n | deleteSnapshot n => rfl
  | createVolume | createSnapshot | resizeVolume => simp [Call.deletes] at h

end

/-- After a crash and a restart the files hold the store, and new files find free inodes. -/
structure Recovers (w : World) (st : Store) : Prop where
  holds : Holds w.restart st
  inodes : Inodes w.restart.file w.restart.next

section Crash

variable {w : World} {t : Tok}

lemma Inv.rest_ne (h : Inv true w {t}) {m : Name} (hm : m ≠ t.call.name) : Rest m (view w m) := by
  have hname := h.names m
  have hown : owners m ({t} : Multiset Tok) = 0 := by
    refine eq_zero_of_forall_notMem fun p hp => ?_
    obtain ⟨-, u, hu, hn, -⟩ := mem_owners.1 hp
    rw [mem_singleton.1 hu] at hn
    exact hm hn.symm
  rw [hown] at hname
  exact hname.rest

lemma Inv.recovers_of_told {R : Multiset Tok} (h : Inv true w R) {st : Store}
    (htold : ∀ n, Told w n (st n)) : Recovers w st := by
  obtain ⟨hholds, hsub⟩ := Reflink.holds_restart (fun _ _ _ hi => h.valid_of_file hi) htold
  exact ⟨hholds, fun d f i hi => h.inodes.fresh d f i (hsub _ _ _ hi),
    fun d f d' f' i hi hi' => h.inodes.inj d f d' f' i (hsub _ _ _ hi) (hsub _ _ _ hi')⟩

lemma Inv.recovers (h : Inv true w {t}) {st : Store} (hn : Told w t.call.name (st t.call.name))
    (hst : ∀ m, m ≠ t.call.name → st m = w.store.get m) : Recovers w st := by
  refine h.recovers_of_told fun m => ?_
  by_cases hm : m = t.call.name
  · subst hm
    exact hn
  · rw [hst m hm]
    exact h.told_rest (h.rest_ne hm)

lemma Inv.recovers_store (h : Inv true w {t}) (hn : Told w t.call.name (w.store.get t.call.name)) :
    Recovers w w.store.get := h.recovers hn fun _ _ => rfl

lemma Inv.recovers_update (h : Inv true w {t}) {x : Option (Kind × Nat)}
    (hn : Told w t.call.name x) : Recovers w (update w.store.get t.call.name x) :=
  h.recovers (by simpa using hn) fun m hm => update_of_ne hm _ _

lemma Inv.told_filled {c : Call} (h : Inv true w {⟨c, .filled k i size⟩}) :
    Told w c.name (some (k, size)) := by
  obtain ⟨-, hgood, -, hfile, -⟩ := Inv.held (F := 0) h rfl
  have hsized : Tok.Sized w ⟨c, .filled k i size⟩ := Inv.sized_self (F := 0) h rfl
  have hsize : w.size i = size ∧ ∀ o, k = .snapshot o → w.size i ≠ 0 := by
    cases k with
    | volume => exact ⟨hsized.2, by simp⟩
    | snapshot d => exact ⟨hsized.2.1, fun _ _ => hsized.2.1 ▸ hsized.2.2⟩
  rw [← hsize.1]
  exact told_of_only hgood hfile hsize.2

/-- **One operation in flight.** -/
lemma Inv.recovers_one (h : Inv true w {t}) (hbare : w.bare = []) :
    Recovers w w.store.get ∨ Recovers w (effect t.call w.store.get) := by
  obtain ⟨c, p⟩ := t
  have hfits : Tok.Fits ⟨c, p⟩ := Inv.fits_self (F := 0) h
  have hsized : Tok.Sized w ⟨c, p⟩ := Inv.sized_self (F := 0) h rfl
  by_cases howns : p.owns = false
  · left
    refine h.recovers_store (h.told_rest ?_)
    have hown := Inv.own (F := 0) h
    rw [Place.own, if_neg (by simp [howns]), zero_add] at hown
    exact hown.rest
  obtain ⟨-, hheld⟩ := Inv.held (F := 0) h (by simpa using howns)
  cases p with
  | reserved k =>
    have hnone : w.store.get c.name = none := hheld.2.2.2
    exact .inl (h.recovers_store (hnone ▸ told_of_nowhere hheld.2.2.1))
  | sourced d src =>
    have hnone : w.store.get c.name = none := hheld.2.2.2
    exact .inl (h.recovers_store (hnone ▸ told_of_nowhere hheld.2.2.1))
  | made k i src =>
    have hnone : w.store.get c.name = none := hheld.2.2.2
    refine .inl (h.recovers_store (hnone ▸ ?_))
    cases k with
    | volume =>
      have hmem : c.name ∈ w.bare := hsized
      simp [hbare] at hmem
    | snapshot d =>
      -- the clone has not come, and its empty file is removed
      cases src with
      | none => exact hsized.elim
      | some src =>
        obtain ⟨hgood, -, hfile, -⟩ := hheld
        intro x j hj
        have hat : w.file x c.name = only d i x := congrFun hfile x
        rw [Survives, hat, only] at hj
        obtain ⟨hj, hstay⟩ := hj
        split at hj <;> cases hj
        rename_i hx
        subst hx
        rcases hstay with heq | hne
        · exact hgood.apart (heq ▸ rfl)
        · exact hne hsized.2
  | filled k i size =>
    right
    have htold := Inv.told_filled h
    cases k with
    | volume =>
      obtain ⟨hcall, -⟩ := hsized
      rw [effect_createVolume hcall]
      exact h.recovers_update htold
    | snapshot d =>
      obtain ⟨⟨source, k, hcall, hk, rfl⟩, -⟩ := hsized
      rw [effect_createSnapshot hcall hk]
      exact h.recovers_update htold
  | undoing | rolling =>
    -- a rollback that has not come to the file, after which the creation is complete
    have hnone : w.store.get c.name = none := hheld.2.2.2
    cases hf : w.file c.name c.name with
    | none =>
      refine .inl (h.recovers_store (hnone ▸ told_of_nowhere ?_))
      funext d
      by_cases hd : d = c.name
      · rwa [hd]
      · exact hheld.2.2.1 d hd
    | some i =>
      right
      have hcall := (hsized i hf).resolve_left (by simp [hbare])
      rw [effect_createVolume hcall]
      refine h.recovers_update (told_of_only hheld.1 ?_ (by simp))
      funext d
      by_cases hd : d = c.name
      · rw [hd]
        simpa [only, Kind.dir, view] using hf
      · simpa [only, Kind.dir, hd] using hheld.2.2.1 d hd
  | deleting k live =>
    obtain ⟨hgood, -, ⟨i, hfile⟩, size, hstore⟩ := hheld
    exact .inl (h.recovers_store (h.told_stored hgood hfile hstore))
  | gone k live =>
    right
    rw [effect_delete hfits]
    exact h.recovers_update (told_of_nowhere hheld.2.2.1)
  | idle | resolved | locked | reading | opened => simp [Place.owns] at howns

end Crash

/-- An operation that runs alone, with calls of the file system that work. -/
def solo {α : Type} : Task α → World → Option (World × α)
  | .ret v, w => some (w, v)
  | .act a k, w => (perform a w .ok).bind fun r => solo (k r.2) r.1

section Solo

variable {α β : Type} {w w' : World} {st : Store}

lemma solo_bind {p : Task α} {f : α → Task β} {v : α} (h : solo p w = some (w', v)) :
    solo (p >>= f) w = solo (f v) w' := by
  induction p generalizing w with
  | ret u =>
    cases h
    rfl
  | act a k ih =>
    obtain ⟨r, hr, h⟩ := bind_eq_some_iff.1 h
    change (perform a w .ok).bind (fun r => solo ((k r.2).bind f) r.1) = _
    rw [hr]
    exact ih _ h

lemma solo_act {a : Act} {v : a.Ans} (h : perform a w .ok = some (w', v)) :
    solo (act a) w = some (w', v) := by
  change (perform a w .ok).bind _ = _
  rw [h]
  rfl

lemma solo_step {a : Act} {v : a.Ans} {f : a.Ans → Task β}
    (h : perform a w .ok = some (w', v)) : solo (act a >>= f) w = solo (f v) w' :=
  solo_bind (solo_act h)

lemma solo_operation {c : Call} {p : Task α} {v : α} {f : α → Option (Kind × Nat)}
    (hc : created c = p >>= fun r => pure (f r)) (h : solo p w = some (w', v)) :
    solo (operation c) w = some (w'.finish c (f v), ()) := by
  have hmade : solo (created c) w = some (w', f v) := by
    rw [hc, solo_bind h]
    rfl
  unfold operation
  rw [solo_bind hmade]
  exact solo_act rfl

lemma solo_sync {f : Bool → Task β} (w : World) :
    solo (act .sync >>= f) w = solo (f true) w := solo_step rfl

lemma Holds.insert (h : Holds w st) (hn : st n = none)
    (hnew : ∀ d f j, w.file d f = some j → j ≠ i)
    (hindex : ∀ m, w'.index.get m = if m = n then some k else w.index.get m)
    (hfile : ∀ d f, w'.file d f = if d = k.dir n ∧ f = n then some i else w.file d f)
    (hsize : ∀ j, w'.size j = if j = i then size else w.size j) :
    Holds w' (update st n (some (k, size))) := by
  constructor
  · intro m
    rw [hindex]
    by_cases hm : m = n
    · subst hm; simp
    · simp [hm, h.index m]
  · intro m k' s hm
    by_cases hmn : m = n
    · subst hmn
      rw [update_self] at hm
      cases hm
      exact ⟨i, by simp [hfile], by simp [hsize]⟩
    rw [update_of_ne hmn] at hm
    obtain ⟨j, hj, hs⟩ := h.present m k' s hm
    refine ⟨j, by simp [hfile, hmn, hj], ?_⟩
    rwa [hsize, if_neg (hnew _ _ j hj)]
  · intro d m j hj
    rw [hfile] at hj
    split at hj
    · rename_i heq
      obtain ⟨rfl, rfl⟩ := heq
      exact ⟨k, size, by simp, rfl⟩
    obtain ⟨k', s, hm, hd⟩ := h.only d m j hj
    have hmn : m ≠ n := by
      rintro rfl
      simp [hn] at hm
    exact ⟨k', s, by simpa [hmn] using hm, hd⟩

lemma Holds.remove (h : Holds w st) (hn : st n = some (k, size))
    (hindex : ∀ m, w'.index.get m = if m = n then none else w.index.get m)
    (hfile : ∀ d f, w'.file d f = if d = k.dir n ∧ f = n then none else w.file d f)
    (hsize : w'.size = w.size) : Holds w' (update st n none) := by
  constructor
  · intro m
    rw [hindex]
    by_cases hm : m = n
    · subst hm; simp
    · simp [hm, h.index m]
  · intro m k' s hm
    by_cases hmn : m = n
    · subst hmn
      simp at hm
    rw [update_of_ne hmn] at hm
    obtain ⟨j, hj, hs⟩ := h.present m k' s hm
    exact ⟨j, by simp [hfile, hmn, hj], by rw [hsize]; exact hs⟩
  · intro d m j hj
    rw [hfile] at hj
    split_ifs at hj
    rename_i hne
    obtain ⟨k', s, hm, hd⟩ := h.only d m j hj
    have hmn : m ≠ n := by
      rintro rfl
      cases hm.symm.trans hn
      exact hne ⟨hd, rfl⟩
    exact ⟨k', s, by simpa [hmn] using hm, hd⟩

lemma Holds.absent (h : Holds w st) (hn : st n = none) :
    w.index.get n = none ∧ ∀ d, w.file d n = none := by
  refine ⟨by simp [h.index, hn], fun d => ?_⟩
  rw [eq_none_iff_forall_not_mem]
  intro i hi
  obtain ⟨k, s, hk, -⟩ := h.only d n i hi
  simp [hn] at hk

lemma Holds.found (h : Holds w st) (hn : st n = some (k, size)) :
    w.index.get n = some k := by simp [h.index, hn]

lemma mkdir_frame (w : World) (d : Name) :
    (w.mkdir d).index = w.index ∧ (w.mkdir d).next = w.next ∧ (w.mkdir d).size = w.size ∧
      ((w.mkdir d).dirs.get d).isSome := by
  unfold World.mkdir
  cases hd : w.dirs.get d with
  | some t => exact ⟨rfl, rfl, rfl, by simp [hd]⟩
  | none => exact ⟨rfl, rfl, rfl, by simp⟩

lemma perform_createNew {d f : Name} (hd : (w.dirs.get d).isSome) (hf : w.file d f = none) :
    perform (.createNew d f) w .ok = some (w.addFile d f, .ok w.next) := by
  obtain ⟨t, ht⟩ := isSome_iff_exists.1 hd
  simp [perform, World.createNew, ht, hf]

lemma perform_stat {d f : Name} (hf : w.file d f = some i) :
    perform (.stat d f) w .ok = some (w, .ok (w.size i)) := by
  simp [perform, World.openFile, hf, Except.map]

/-- The world after the closure of `create_volume`. -/
def afterMake (w : World) (n : Name) (size : Nat) : World :=
  { ((w.mkdir n).addFile n n).setSize w.next size with
    bare := ((w.mkdir n).addFile n n).bare.filter (· ≠ n) }

lemma solo_makeVolume (hn : w.file n n = none) (size : Nat) :
    solo (makeVolume n size) w = some (afterMake w n size, .ok size) := by
  obtain ⟨-, hnext, -, hdir⟩ := mkdir_frame w n
  have hfile : (afterMake w n size).file n n = some w.next := by
    have hadd := file_addFile (w.mkdir n) hdir n n n
    rwa [if_pos ⟨rfl, rfl⟩, hnext] at hadd
  have hsize : (afterMake w n size).size w.next = size := by
    have hset := size_setSize ((w.mkdir n).addFile n n) w.next w.next size
    rwa [if_pos rfl] at hset
  have hcreate : perform (.createNew n n) (w.mkdir n) .ok =
      some ((w.mkdir n).addFile n n, .ok w.next) := by
    rw [← hnext]
    exact perform_createNew hdir (by rw [file_mkdir]; exact hn)
  have hlen : perform (.setLen n w.next size) ((w.mkdir n).addFile n n) .ok =
      some (afterMake w n size, true) := rfl
  have hmkdir : perform (.mkdirAll n) w .ok = some (w.mkdir n, true) := rfl
  have hcount : perform (.countSnapshots n) (afterMake w n size) .ok =
      some (afterMake w n size, some ((afterMake w n size).countSnapshots n)) := rfl
  unfold makeVolume
  rw [solo_step hmkdir]
  simp only [Bool.not_true, Bool.false_eq_true, if_false]
  rw [solo_step hcreate]
  rw [solo_step hlen]
  simp only [Bool.not_true, Bool.false_eq_true, if_false, syncVolume]
  rw [solo_sync]
  simp only [Bool.not_true, Bool.false_eq_true, if_false]
  rw [solo_sync]
  simp only [Bool.not_true, Bool.false_eq_true, if_false]
  rw [solo_sync]
  simp only [Bool.not_true, Bool.false_eq_true, if_false, projectVolume]
  rw [solo_step (perform_stat hfile), hsize]
  rw [solo_step hcount]
  rfl

lemma repeat_createVolume (h : Holds w st) (hfree : w.free)
    (hinodes : Inodes w.file w.next) (size : Nat) (hvalid : validName n) (hn : st n = none) :
    ∃ w', solo (operation (.createVolume n size)) w = some (w', ()) ∧
      Holds w' (effect (.createVolume n size) st) := by
  obtain ⟨hidx, hfile⟩ := h.absent hn
  have hreserve : perform (.reserve n .volume) w .ok =
      some ({ w with index := w.index.put n .volume }, true) := by
    simp [perform, hfree, hidx]
  generalize hw1 : { w with index := w.index.put n .volume } = w1 at hreserve
  have hfile1 : ∀ d f, w1.file d f = w.file d f := fun d f => by rw [← hw1]; rfl
  have hnext1 : w1.next = w.next := by rw [← hw1]
  have hrun : solo (createVolume n size) w = some (afterMake w1 n size, .ok size) := by
    unfold createVolume
    rw [if_neg (by simp [hvalid]), solo_step hreserve]
    simp only [Bool.not_true, Bool.false_eq_true, if_false]
    rw [solo_bind (solo_makeVolume (by rw [hfile1]; exact hfile n) size)]
    rfl
  refine ⟨_, solo_operation rfl hrun, ?_⟩
  obtain ⟨hindex, hnext, hsize, hdir⟩ := mkdir_frame w1 n
  obtain ⟨hindex', -⟩ := addFile_frame (w1.mkdir n) n n
  refine h.insert (k := .volume) (i := w.next) hn
    (fun d f j hj => (hinodes.fresh d f j hj).ne) (fun m => ?_) (fun d f => ?_) fun j => ?_
  · change ((w1.mkdir n).addFile n n).index.get m = _
    rw [hindex', hindex, ← hw1]
    exact Tbl.get_put _ _
  · change ((w1.mkdir n).addFile n n).file d f = _
    rw [file_addFile _ hdir, file_mkdir, hfile1, hnext, hnext1]
    rfl
  · change (((w1.mkdir n).addFile n n).setSize _ size).size j = _
    rw [size_setSize, size_addFile, hnext, hnext1, hsize, ← hw1]
    by_cases hj : j = w.next
    · simp [hj]
    · simp only [hj, if_false]
      rfl

lemma repeat_createSnapshot (h : Holds w st) (hfree : w.free)
    (hinodes : Inodes w.file w.next) {source : Name} (hvalid : validName n) (hn : st n = none)
    (hs : st source = some (k, size)) :
    ∃ w', solo (operation (.createSnapshot source n)) w = some (w', ()) ∧
      Holds w' (effect (.createSnapshot source n) st) := by
  obtain ⟨hidx, hfile⟩ := h.absent hn
  obtain ⟨src, hsrc, hsize⟩ := h.present source k size hs
  obtain ⟨hlock, -⟩ := free_iff.1 hfree
  generalize hd : k.dir source = d at hsrc
  have hresolve : perform (.resolve source) w .ok = some (w, some d) := by
    simp [perform, hlock, h.found hs, hd]
  have hreserve : perform (.reserve n (.snapshot d)) w .ok =
      some ({ w with index := w.index.put n (.snapshot d) }, true) := by
    simp [perform, hfree, hidx]
  generalize hw1 : { w with index := w.index.put n (.snapshot d) } = w1 at hreserve
  have hfile1 : ∀ d f, w1.file d f = w.file d f := fun d f => by rw [← hw1]; rfl
  have hnext1 : w1.next = w.next := by rw [← hw1]
  have hdir : (w1.dirs.get d).isSome := dir_of_file w1 ((hfile1 d source).trans hsrc)
  have hopen : perform (.openFile d source) w1 .ok = some (w1, .ok src) := by
    simp [perform, World.openFile, hfile1, hsrc]
  have hcreate : perform (.createNew d n) w1 .ok = some (w1.addFile d n, .ok w.next) := by
    rw [← hnext1]
    exact perform_createNew hdir (by rw [hfile1]; exact hfile d)
  have hsrcSize : (w1.addFile d n).size src = size := by
    rwa [size_addFile, hnext1, if_neg (hinodes.fresh _ _ _ hsrc).ne, ← hw1]
  have hclone : perform (.ficlone w.next src) (w1.addFile d n) .ok =
      some ((w1.addFile d n).setSize w.next size, true) := by
    rw [← hsrcSize]
    rfl
  generalize hw2 : (w1.addFile d n).setSize w.next size = w2 at hclone
  have hindex2 : w2.index = w.index.put n (.snapshot d) := by
    rw [← hw2, ← hw1]
    exact (addFile_frame _ d n).1
  have hlock2 : w2.lock = false := by
    rw [← hw2, ← hw1]
    exact (addFile_frame _ d n).2.2.2.1.trans hlock
  have hfile2 : ∀ x y, w2.file x y = if x = d ∧ y = n then some w.next else w.file x y := by
    intro x y
    rw [← hw2]
    change (w1.addFile d n).file x y = _
    rw [file_addFile _ hdir, hnext1, hfile1]
  have hsize2 : ∀ j, w2.size j = if j = w.next then size else w.size j := by
    intro j
    rw [← hw2, size_setSize, size_addFile, hnext1, ← hw1]
    by_cases hj : j = w.next
    · simp [hj]
    · simp only [hj, if_false]
      rfl
  have hkind : perform (.kindOf n) w2 .ok = some (w2, some (.snapshot d)) := by
    simp [perform, hlock2, hindex2]
  have hstat : perform (.stat d n) w2 .ok = some (w2, .ok size) := by
    rw [perform_stat (i := w.next) (by simp [hfile2])]
    simp [hsize2]
  have hmake : solo (makeSnapshot d source n) w1 = some (w2, .ok (.snapshot d, size)) := by
    unfold makeSnapshot
    rw [solo_step hopen]
    rw [solo_step hcreate]
    rw [solo_step hclone]
    simp only [if_true, projectSnapshot]
    rw [solo_sync, solo_step hkind]
    rw [solo_step hstat]
    rfl
  have hrun : solo (createSnapshot source n) w = some (w2, .ok (.snapshot d, size)) := by
    unfold createSnapshot
    rw [if_neg (by simp [hvalid]), solo_step hresolve]
    rw [solo_step hreserve]
    simp only [Bool.not_true, Bool.false_eq_true, if_false]
    rw [solo_bind hmake]
    rfl
  refine ⟨_, solo_operation rfl hrun, ?_⟩
  have heffect : effect (.createSnapshot source n) st = update st n (some (.snapshot d, size)) := by
    simp [effect, hs, hd]
  rw [heffect]
  refine h.insert (k := .snapshot d) (i := w.next) hn
    (fun d f j hj => (hinodes.fresh d f j hj).ne) (fun m => ?_) hfile2 hsize2
  change w2.index.get m = _
  rw [hindex2]
  exact Tbl.get_put _ _

lemma removeDir_frame (w : World) (d : Name) (o : Outcome) :
    (w.removeDir d o).1.index = w.index ∧ (w.removeDir d o).1.size = w.size ∧
      ∀ x y, (w.removeDir d o).1.file x y = w.file x y := by
  cases o with
  | fail => exact ⟨rfl, rfl, fun _ _ => rfl⟩
  | ok =>
    unfold World.removeDir
    cases hd : w.dirs.get d with
    | none => exact ⟨rfl, rfl, fun _ _ => rfl⟩
    | some t =>
      dsimp only
      split
      · exact ⟨rfl, rfl, file_rmdir w hd ‹_›⟩
      · exact ⟨rfl, rfl, fun _ _ => rfl⟩

lemma Holds.emptied (h : Holds w st) (hlive : hasSnapshots w.index n = false)
    (hfile : ∀ f, w'.file n f = if f = n then none else w.file n f) {t : Tbl Name Ino}
    (ht : w'.dirs.get n = some t) : t.toPairs = [] := by
  rw [List.eq_nil_iff_forall_not_mem]
  rintro ⟨f, i⟩ hmem
  have hget : t.get f = some i := Tbl.mem_pairs.1 hmem
  have hi : w'.file n f = some i := by simp [World.file, ht, hget]
  rw [hfile] at hi
  split_ifs at hi
  rename_i hf
  obtain ⟨k, size, hk, hd⟩ := h.only n f i hi
  cases k with
  | volume => exact hf hd.symm
  | snapshot o =>
    obtain rfl : n = o := hd
    simp [hasSnapshots_of_get (h.found hk)] at hlive

/-- The world after the lock of a deletion and the removal of the file. -/
def afterUnlink (w : World) (d n : Name) : World := ({ w with lock := true } : World).unlink d n

lemma solo_unlink (h : Holds w st) (hfree : w.free) (hn : st n = some (k, size)) :
    perform (.lockDelete n) w .ok = some ({ w with lock := true }, w.index) ∧
      perform (.removeFile (k.dir n) n) { w with lock := true } .ok =
        some (afterUnlink w (k.dir n) n, .ok ()) := by
  obtain ⟨i, hi, -⟩ := h.present n k size hn
  have hi' : ({ w with lock := true } : World).file (k.dir n) n = some i := hi
  refine ⟨by simp [perform, hfree], ?_⟩
  simp [perform, World.removeFile, hi', afterUnlink]

/-- The world after the end of a deletion. -/
def erased (w : World) (n : Name) : World :=
  { w with index := w.index.del n, store := w.store.del n, lock := false }

lemma Holds.deleted (h : Holds w st) (hn : st n = some (k, size))
    (hindex : w'.index = w.index.del n)
    (hfile : ∀ x y, w'.file x y = (afterUnlink w (k.dir n) n).file x y)
    (hsize : w'.size = (afterUnlink w (k.dir n) n).size) :
    Holds w' (update st n none) := by
  obtain ⟨-, -, -, -, -, hsize'⟩ := unlink_frame ({ w with lock := true } : World) (k.dir n) n
  refine h.remove hn (fun m => ?_) (fun d f => ?_) (hsize.trans hsize')
  · rw [hindex]
    exact Tbl.get_del _
  · rw [hfile, afterUnlink, file_unlink]
    rfl

lemma repeat_deleteVolume (h : Holds w st) (hfree : w.free)
    (hn : st n = some (.volume, size)) :
    ∃ w', solo (operation (.deleteVolume n)) w = some (w', ()) ∧
      Holds w' (effect (.deleteVolume n) st) := by
  obtain ⟨hlock, hremove⟩ := solo_unlink h hfree hn
  dsimp only [Kind.dir] at hremove
  have hindex : (afterUnlink w n n).index = w.index := (unlink_frame _ n n).1
  -- with snapshots the directory stays, without them it is empty and goes
  obtain ⟨w3, hreap, hidx, hfile, hsize⟩ : ∃ w3,
      solo (reapVolume n (hasSnapshots w.index n)) (afterUnlink w n n) =
        some (erased w3 n, .ok ()) ∧ w3.index = w.index ∧
      (∀ x y, w3.file x y = (afterUnlink w n n).file x y) ∧
      w3.size = (afterUnlink w n n).size := by
    unfold reapVolume
    cases hlive : hasSnapshots w.index n with
    | true => exact ⟨_, rfl, hindex, fun _ _ => rfl, rfl⟩
    | false =>
      obtain ⟨hidx, hsize, hfile⟩ := removeDir_frame (afterUnlink w n n) n .ok
      refine ⟨_, ?_, hidx.trans hindex, hfile, hsize⟩
      have hempty : ∀ t, (afterUnlink w n n).dirs.get n = some t → t.toPairs = [] :=
        fun t ht => h.emptied hlive (fun f => by
          rw [afterUnlink, file_unlink]
          simp only [true_and]
          rfl) ht
      have hdir : perform (.removeDir n) (afterUnlink w n n) .ok =
          some ((afterUnlink w n n).removeDir n .ok) := rfl
      simp only [Bool.false_eq_true, if_false]
      rw [solo_step hdir]
      cases ht : (afterUnlink w n n).dirs.get n with
      | none =>
        simp only [World.removeDir, ht]
        rfl
      | some t =>
        simp only [World.removeDir, ht, hempty t ht, if_true]
        rfl
  have hrun : solo (deleteVolume n) w = some (erased w3 n, .ok ()) := by
    unfold deleteVolume
    rw [solo_step hlock]
    simp only [h.found hn]
    rwa [solo_step hremove]
  refine ⟨_, solo_operation rfl hrun, ?_⟩
  exact h.deleted hn (congrArg (fun t : Index => t.del n) hidx) hfile hsize

lemma repeat_deleteSnapshot (h : Holds w st) (hfree : w.free) {o : Name}
    (hn : st n = some (.snapshot o, size)) :
    ∃ w', solo (operation (.deleteSnapshot n)) w = some (w', ()) ∧
      Holds w' (effect (.deleteSnapshot n) st) := by
  obtain ⟨hlock, hremove⟩ := solo_unlink h hfree hn
  dsimp only [Kind.dir] at hremove
  have hindex : (afterUnlink w o n).index = w.index := (unlink_frame _ o n).1
  obtain ⟨w3, herase, hidx, hfile, hsize⟩ : ∃ w3,
      solo (eraseSnapshot o n) (afterUnlink w o n) = some (w3, .ok ()) ∧
      w3.index = w.index.del n ∧
      (∀ x y, w3.file x y = (afterUnlink w o n).file x y) ∧
      w3.size = (afterUnlink w o n).size := by
    have herase : perform (.erase n) (afterUnlink w o n) .ok = some ({ afterUnlink w o n with
          index := w.index.del n, store := (afterUnlink w o n).store.del n }, w.index.del n) := by
      rw [← hindex]
      rfl
    unfold eraseSnapshot
    rw [solo_sync, solo_step herase]
    split
    · obtain ⟨hidx, hsize, hfile⟩ := removeDir_frame ({ afterUnlink w o n with
        index := w.index.del n, store := (afterUnlink w o n).store.del n }) o .ok
      refine ⟨_, rfl, hidx, hfile, hsize⟩
    · exact ⟨_, rfl, rfl, fun _ _ => rfl, rfl⟩
  have hrun : solo (deleteSnapshot n) w = some (w3, .ok ()) := by
    unfold deleteSnapshot
    rw [solo_step hlock]
    simp only [h.found hn]
    rwa [solo_step hremove]
  refine ⟨_, solo_operation rfl hrun, ?_⟩
  exact h.deleted hn hidx hfile hsize

/-- **Repetition.** An operation whose preconditions the store meets can be repeated. -/
lemma Holds.repeats (h : Holds w st) (hfree : w.free)
    (hinodes : Inodes w.file w.next) {c : Call} (hc : Enabled st c) :
    ∃ w', solo (operation c) w = some (w', ()) ∧ Holds w' (effect c st) := by
  cases c with
  | createVolume n size => exact repeat_createVolume h hfree hinodes size hc.1 hc.2
  | createSnapshot source n =>
    obtain ⟨hvalid, hn, k, size, hs⟩ := hc
    exact repeat_createSnapshot h hfree hinodes hvalid hn hs
  | deleteVolume n =>
    obtain ⟨size, hn⟩ := hc
    exact repeat_deleteVolume h hfree hn
  | deleteSnapshot n =>
    obtain ⟨o, size, hn⟩ := hc
    exact repeat_deleteSnapshot h hfree hn
  | resizeVolume => exact hc.elim

end Solo

lemma Inv.crash_cases {w : World} {R : Multiset Tok} (h : Inv true w R) :
    R = 0 ∨ ∃ t, R = {t} ∧ w.calls = [t.call] := by
  have hcard := h.alone rfl
  rcases Nat.eq_zero_or_pos R.card with hzero | hpos
  · exact .inl (card_eq_zero.1 hzero)
  obtain ⟨t, rfl⟩ := card_eq_one.1 (le_antisymm hcard hpos)
  refine .inr ⟨t, rfl, ?_⟩
  have hcalls := h.calls
  rw [map_singleton] at hcalls
  exact coe_eq_singleton.1 hcalls

/-- **Crash atomicity.** At a crash between any two steps of an operation, after operations that
came one after another, a restart recovers what was acknowledged, and the operation in flight has
taken full effect, or none and can be repeated. -/
theorem crash_recovers (es : List (Ev Outcome Call)) (c : Conf)
    (hm : Runs.Meets (machine true).step (Machine.onEv (Steady true) fun _ _ => True) begin es)
    (h : exec (machine true).step begin es = some c) (hbare : c.world.bare = []) :
    (Holds c.world.restart c.world.store.get ∧
      ∀ call ∈ c.world.calls, Enabled c.world.store.get call →
        ∃ w', solo (operation call) c.world.restart = some (w', ()) ∧
          Holds w' (effect call c.world.store.get)) ∨
      ∃ call ∈ c.world.calls, Holds c.world.restart (effect call c.world.store.get) := by
  obtain ⟨rs, -, hI⟩ := sound_of_run hm h
  have hfree : c.world.restart.free := rfl
  have hnone : Recovers c.world c.world.store.get → Holds c.world.restart c.world.store.get ∧
        ∀ call ∈ c.world.calls, Enabled c.world.store.get call →
          ∃ w', solo (operation call) c.world.restart = some (w', ()) ∧
            Holds w' (effect call c.world.store.get) :=
    fun hr => ⟨hr.holds, fun _ _ hen => hr.holds.repeats hfree hr.inodes hen⟩
  rcases hI.crash_cases with hzero | ⟨t, ht, hcalls⟩
  · rw [hzero] at hI
    exact .inl (hnone (hI.recovers_of_told fun n => hI.told_rest (hI.names n).rest))
  rw [ht] at hI
  rcases hI.recovers_one hbare with hbefore | hafter
  · exact .inl (hnone hbefore)
  · exact .inr ⟨t.call, by simp [hcalls], hafter.holds⟩

/-- A crash between the creation of the file of a snapshot and the clone. -/
def crashBeforeClone : List (Ev Outcome Call) :=
  newVolume ++ .start (.createSnapshot [118] [115]) :: goes 1 4

theorem crash_before_clone : ∃ c, exec (machine true).step begin crashBeforeClone = some c ∧
      c.world.file [118] [115] = some 1 ∧
      ((Holds c.world.restart c.world.store.get ∧
        ∀ call ∈ c.world.calls, Enabled c.world.store.get call →
          ∃ w', solo (operation call) c.world.restart = some (w', ()) ∧
            Holds w' (effect call c.world.store.get)) ∨
        ∃ call ∈ c.world.calls, Holds c.world.restart (effect call c.world.store.get)) := by
  refine leads (fun c => (c.world.bare, c.world.file [118] [115])) ([], some 1)
    (by decide +kernel) fun c hc hout => ?_
  obtain ⟨hbare, hfile⟩ := Prod.mk.inj hout
  exact ⟨hfile, crash_recovers _ c (by decide +kernel) hc hbare⟩

/-- A crash between the creation of the main file and its `set_len`. -/
def crashBeforeLen : List (Ev Outcome Call) := .start (.createVolume [118] 4096) :: goes 0 3

lemma empty_volume_found : (exec (machine true).step begin crashBeforeLen).map
      (fun c => (c.world.calls, c.world.store.get [118], c.world.restart.index.get [118],
        (c.world.restart.file [118] [118]).map c.world.restart.size)) =
    some ([.createVolume [118] 4096], none, some .volume, some 0) := by
  decide +kernel

theorem crash_leaves_half : ¬ ∀ (es : List (Ev Outcome Call)) (c : Conf),
      exec (machine true).step begin es = some c → (Holds c.world.restart c.world.store.get ∧
          ∀ call ∈ c.world.calls, Enabled c.world.store.get call →
            ∃ w', solo (operation call) c.world.restart = some (w', ()) ∧
              Holds w' (effect call c.world.store.get)) ∨
          ∃ call ∈ c.world.calls, Holds c.world.restart (effect call c.world.store.get) := by
  intro hall
  obtain ⟨c, hc, hout⟩ := map_eq_some_iff.1 empty_volume_found
  obtain ⟨hcalls, hout⟩ := Prod.mk.inj hout
  obtain ⟨hstore, hout⟩ := Prod.mk.inj hout
  obtain ⟨hindex, hsize⟩ := Prod.mk.inj hout
  rcases hall _ c hc with ⟨hholds, -⟩ | ⟨call, hmem, hholds⟩
  · have hget := hholds.index [118]
    rw [hindex, hstore] at hget
    simp at hget
  obtain rfl : call = .createVolume [118] 4096 := by simpa [hcalls] using hmem
  obtain ⟨i, hi, hi'⟩ := hholds.present [118] .volume 4096 (by simp [effect])
  have hi : c.world.restart.file [118] [118] = some i := hi
  rw [hi] at hsize
  have hzero : c.world.restart.size i = 0 := some.inj hsize
  rw [hzero] at hi'
  simp at hi'

end CubeSandbox.Reflink
