import CubeSandbox.ReflinkOps

/-!
The restart of the reflink engine: what the scan makes of a directory tree.

A file stands for a name by its place alone, so the scan is right where every name has at most
one file that survives it. A main file survives; any other file survives if it is not empty.
-/

namespace CubeSandbox.Reflink

open GoText Conc List Tbl Runs

section Scan

variable {size : Ino → Nat}

/-- A file of a directory that the scan keeps and registers. -/
def Stays (size : Ino → Nat) (d : Name) (files : Tbl Name Ino) (f : Name) (i : Ino) : Prop :=
  files.get f = some i ∧ (d = f ∨ size i ≠ 0)

lemma scanFiles_loop (size : Ino → Nat) (vol : Name) (es : List (Name × Ino))
    (acc : Index × Tbl Name Ino)
    (hnodup : (es.map Prod.fst).Nodup) (hhidden : ∀ e ∈ es, hidden e.1 = false)
    (hnew : ∀ e ∈ es, e.1 ≠ vol → size e.2 ≠ 0 → acc.1.get e.1 = none) :
    let r := es.foldl (scanFile size vol) acc
    (∀ f k, r.1.get f = some k ↔ acc.1.get f = some k ∨
      (k = .snapshot vol ∧ ∃ i, (f, i) ∈ es ∧ f ≠ vol ∧ size i ≠ 0)) ∧
    (∀ f j, r.2.get f = some j ↔ acc.2.get f = some j ∧
      ¬ ∃ i, (f, i) ∈ es ∧ f ≠ vol ∧ size i = 0) := by
  induction es generalizing acc with
  | nil => simp
  | cons e es ih =>
    obtain ⟨n, i⟩ := e
    rw [map_cons, nodup_cons] at hnodup
    have hn : hidden n = false := hhidden (n, i) (by simp)
    have hrest : ∀ e ∈ es, hidden e.1 = false := fun e he => hhidden e (by simp [he])
    have hother : ∀ j, (n, j) ∉ es := fun j hj => hnodup.1 (mem_map.2 ⟨_, hj, rfl⟩)
    simp only [foldl_cons, scanFile]
    by_cases hvol : n = vol
    · -- the main file
      rw [if_pos (.inl hvol)]
      obtain ⟨hidx, hfiles⟩ := ih acc hnodup.2 hrest fun e he => hnew e (by simp [he])
      subst hvol
      refine ⟨fun f k => (hidx f k).trans ?_, fun f j => (hfiles f j).trans ?_⟩
      · refine or_congr_right (and_congr_right fun _ => exists_congr fun i' => ?_)
        simp only [mem_cons, Prod.mk.injEq]
        tauto
      refine and_congr_right fun _ => not_congr (exists_congr fun i' => ?_)
      simp only [mem_cons, Prod.mk.injEq]
      tauto
    rw [if_neg (by simp [hvol, hn])]
    by_cases hsize : size i = 0
    · -- an empty file goes
      rw [if_pos hsize]
      obtain ⟨hidx, hfiles⟩ := ih (acc.1, acc.2.del n) hnodup.2 hrest
        fun e he => hnew e (by simp [he])
      refine ⟨fun f k => (hidx f k).trans ?_, fun f j => (hfiles f j).trans ?_⟩
      · refine or_congr_right (and_congr_right fun _ => exists_congr fun i' => ?_)
        simp only [mem_cons, Prod.mk.injEq]
        constructor
        · exact fun ⟨hmem, h⟩ => ⟨.inr hmem, h⟩
        rintro ⟨⟨rfl, rfl⟩ | hmem, hne, hs⟩
        · exact absurd hsize hs
        · exact ⟨hmem, hne, hs⟩
      rw [get_del_eq_some]
      constructor
      · rintro ⟨⟨hne, hget⟩, hnot⟩
        refine ⟨hget, ?_⟩
        rintro ⟨i', hmem, h⟩
        rcases mem_cons.1 hmem with heq | hmem
        · exact hne (Prod.mk.inj heq).1
        · exact hnot ⟨i', hmem, h⟩
      · rintro ⟨hget, hnot⟩
        refine ⟨⟨?_, hget⟩, fun ⟨i', hmem, h⟩ => hnot ⟨i', mem_cons_of_mem _ hmem, h⟩⟩
        rintro rfl
        exact hnot ⟨i, by simp, hvol, hsize⟩
    -- a snapshot
    have hnone : acc.1.get n = none := hnew (n, i) (by simp) hvol hsize
    rw [if_neg hsize, if_neg (by simp [hnone])]
    obtain ⟨hidx, hfiles⟩ := ih (acc.1.put n (.snapshot vol), acc.2) hnodup.2 hrest (by
      intro e he hvol' hsize'
      have hne : e.1 ≠ n := fun heq => hother e.2 (heq ▸ he)
      rw [get_put_ne _ _ hne]
      exact hnew e (by simp [he]) hvol' hsize')
    refine ⟨fun f k => (hidx f k).trans ?_, fun f j => (hfiles f j).trans ?_⟩
    · rw [get_put_eq_some]
      constructor
      · rintro ((⟨rfl, rfl⟩ | ⟨-, hget⟩) | ⟨rfl, i', hmem, h⟩)
        · exact .inr ⟨rfl, i, by simp, hvol, hsize⟩
        · exact .inl hget
        · exact .inr ⟨rfl, i', mem_cons_of_mem _ hmem, h⟩
      rintro (hget | ⟨rfl, i', hmem, h⟩)
      · refine .inl (.inr ⟨?_, hget⟩)
        rintro rfl
        simp [hnone] at hget
      rcases mem_cons.1 hmem with heq | hmem
      · exact .inl (.inl ⟨(Prod.mk.inj heq).1, rfl⟩)
      · exact .inr ⟨rfl, i', hmem, h⟩
    · refine and_congr_right fun _ => not_congr (exists_congr fun i' => ?_)
      simp only [mem_cons, Prod.mk.injEq]
      constructor
      · exact fun ⟨hmem, h⟩ => ⟨.inr hmem, h⟩
      rintro ⟨⟨rfl, rfl⟩ | hmem, hne, hs⟩
      · exact absurd hs hsize
      · exact ⟨hmem, hne, hs⟩

/-- The index when the files of a directory are looked at. -/
def startIndex (index : Index) (d : Name) (files : Tbl Name Ino) : Index :=
  if (files.get d).isSome then index.put d .volume else index

lemma get_startIndex_ne {index : Index} {d f : Name} {files : Tbl Name Ino} (h : f ≠ d) :
    (startIndex index d files).get f = index.get f := by
  unfold startIndex
  split
  · exact get_put_ne _ _ h
  · rfl

lemma scanDir_spec {acc : Index × Tbl Name (Tbl Name Ino)} {d : Name} {files : Tbl Name Ino}
    (hhidden : ∀ f i, files.get f = some i → hidden d = false ∧ hidden f = false)
    (hnew : ∀ f i, Stays size d files f i → acc.1.get f = none)
    (hacc : acc.2.get d = some files) :
    (∀ f k, (scanDir size acc (d, files)).1.get f = some k ↔ acc.1.get f = some k ∨
      ∃ i, Stays size d files f i ∧ k = kindAt d f) ∧
    (∀ x f i, (((scanDir size acc (d, files)).2.get x).bind fun t => t.get f) = some i ↔
      if x = d then Stays size d files f i
      else ((acc.2.get x).bind fun t => t.get f) = some i) := by
  by_cases hempty : files.toPairs = []
  · -- nothing to keep, whether the directory is removed or not
    have hget : ∀ f, files.get f = none := by
      intro f
      rw [Option.eq_none_iff_forall_not_mem]
      intro i hi
      have hmem : (f, i) ∈ files.toPairs := mem_pairs.2 hi
      simp [hempty] at hmem
    have hstays : ∀ f i, ¬ Stays size d files f i := fun f i h => by simp [Stays, hget] at h
    have hcases : scanDir size acc (d, files) = acc ∨
        scanDir size acc (d, files) = (acc.1, acc.2.del d) := by
      unfold scanDir
      by_cases hd : hidden d
      · exact .inl (if_pos hd)
      · right
        rw [if_neg hd, if_pos ⟨by simp [hget], by simp [hempty]⟩, if_pos hempty]
    rcases hcases with heq | heq
    · rw [heq]
      refine ⟨fun f k => by simp [hstays], fun x f i => ?_⟩
      split
      · rename_i hx
        subst hx
        simp [hacc, hget, hstays]
      · rfl
    rw [heq]
    refine ⟨fun f k => by simp [hstays], fun x f i => ?_⟩
    split
    · rename_i hx
      subst hx
      simp [hstays]
    · rename_i hx
      simp [get_del_ne _ hx]
  -- some file, so neither the directory nor the file is hidden
  obtain ⟨⟨f0, i0⟩, es, hes⟩ := exists_cons_of_ne_nil hempty
  have hf0 : files.get f0 = some i0 := mem_pairs.1 (by
    change (f0, i0) ∈ files.toPairs
    simp [hes])
  obtain ⟨hd, hhid⟩ := hhidden f0 i0 hf0
  have hall : ¬ ((files.get d).isNone ∧ files.toPairs.all (fun x => hidden x.1)) := by
    rintro ⟨-, hall⟩
    have hmem : (f0, i0) ∈ files.toPairs := by simp [hes]
    have := all_eq_true.1 hall _ hmem
    simp [hhid] at this
  have hscan : scanDir size acc (d, files) = ((scanFiles size d files (startIndex acc.1 d files)).1,
        acc.2.put d (scanFiles size d files (startIndex acc.1 d files)).2) := by
    unfold scanDir
    rw [if_neg (by simp [hd]), if_neg hall]
    rfl
  have hpairs : ∀ f i, (f, i) ∈ files.toPairs ↔ files.get f = some i :=
    fun f i => mem_pairs
  obtain ⟨hidx, hfiles⟩ := scanFiles_loop size d files.toPairs
    (startIndex acc.1 d files, files)
    (by simpa [pairs] using files.nodup_keys)
    (fun e he => (hhidden e.1 e.2 ((hpairs _ _).1 he)).2)
    (by
      intro e he hne hs
      have hnone := hnew e.1 e.2 ⟨(hpairs _ _).1 he, .inr hs⟩
      rwa [get_startIndex_ne hne])
  simp only [hpairs] at hidx hfiles
  rw [hscan]
  constructor
  · intro f k
    refine (hidx f k).trans ?_
    by_cases hfd : f = d
    · subst hfd
      simp only [ne_eq, not_true_eq_false, false_and, and_false, exists_false, or_false,
        Stays, true_or, and_true, kindAt, if_true]
      cases hmain : files.get f with
      | none => simp [startIndex, hmain]
      | some i =>
        have hnone := hnew f i ⟨hmain, .inl rfl⟩
        simp [startIndex, hmain, hnone, eq_comm]
    · have hdf : ¬ d = f := fun h => hfd h.symm
      simp only [get_startIndex_ne hfd, Stays, hdf, false_or, kindAt, if_false]
      tauto
  · intro x f i
    by_cases hx : x = d
    · subst hx
      simp only [get_put_self, Option.bind_some, if_true]
      refine (hfiles f i).trans (and_congr_right fun hget => ?_)
      rw [hget]
      by_cases hfx : f = x
      · simp [hfx]
      · have hxf : ¬ x = f := fun h => hfx h.symm
        simp [hfx, hxf]
    · simp only [get_put_ne _ _ hx, hx, if_false]

lemma scanDir_get_ne {acc : Index × Tbl Name (Tbl Name Ino)} {e : Name × Tbl Name Ino} {x : Name}
    (h : x ≠ e.1) : (scanDir size acc e).2.get x = acc.2.get x := by
  unfold scanDir
  split
  · rfl
  split
  · split
    · exact get_del_ne _ h
    · rfl
  · exact get_put_ne _ _ h

lemma scan_loop (size : Ino → Nat) (es : List (Name × Tbl Name Ino))
    (acc : Index × Tbl Name (Tbl Name Ino))
    (hnodup : (es.map Prod.fst).Nodup)
    (hhidden : ∀ e ∈ es, ∀ f i, e.2.get f = some i → hidden e.1 = false ∧ hidden f = false)
    (hone : ∀ e ∈ es, ∀ e' ∈ es, ∀ f i i', Stays size e.1 e.2 f i → Stays size e'.1 e'.2 f i' →
      e.1 = e'.1)
    (hnew : ∀ e ∈ es, ∀ f i, Stays size e.1 e.2 f i → acc.1.get f = none)
    (hacc : ∀ e ∈ es, acc.2.get e.1 = some e.2) :
    let r := es.foldl (scanDir size) acc
    (∀ f k, r.1.get f = some k ↔ acc.1.get f = some k ∨
      ∃ e ∈ es, ∃ i, Stays size e.1 e.2 f i ∧ k = kindAt e.1 f) ∧
    (∀ x f i, ((r.2.get x).bind fun t => t.get f) = some i ↔
      (∃ e ∈ es, e.1 = x ∧ Stays size e.1 e.2 f i) ∨
        (x ∉ es.map Prod.fst ∧ ((acc.2.get x).bind fun t => t.get f) = some i)) := by
  induction es generalizing acc with
  | nil => simp
  | cons e es ih =>
    rw [map_cons, nodup_cons] at hnodup
    obtain ⟨hidx, hdirs⟩ := scanDir_spec (hhidden e (by simp)) (hnew e (by simp))
      (hacc e (by simp))
    have hother : ∀ e' ∈ es, e'.1 ≠ e.1 := fun e' he' heq =>
      hnodup.1 (heq ▸ mem_map_of_mem he')
    obtain ⟨hidx', hdirs'⟩ := ih (scanDir size acc e) hnodup.2
      (fun e' he' => hhidden e' (by simp [he']))
      (fun a ha b hb => hone a (by simp [ha]) b (by simp [hb]))
      (by
        intro e' he' f i hstays
        rw [Option.eq_none_iff_forall_not_mem]
        intro k hk
        rcases (hidx f k).1 hk with hold | ⟨i', hstays', -⟩
        · simp [hnew e' (by simp [he']) f i hstays] at hold
        · exact hother e' he' (hone e' (by simp [he']) e (by simp) f i i' hstays hstays'))
      (by
        intro e' he'
        exact (scanDir_get_ne (hother e' he')).trans (hacc e' (by simp [he'])))
    simp only [foldl_cons]
    constructor
    · intro f k
      rw [hidx', hidx, or_assoc]
      simp only [mem_cons, exists_eq_or_imp]
    intro x f i
    rw [hdirs', hdirs]
    by_cases hx : x = e.1
    · subst hx
      have hnot : ¬ ∃ e' ∈ es, e'.1 = e.1 ∧ Stays size e'.1 e'.2 f i :=
        fun ⟨e', he', heq, _⟩ => hother e' he' heq
      simp [hnot, hnodup.1]
    · simp [hx, Ne.symm hx]

end Scan

/-- A file that the scan keeps and registers. -/
def Survives (w : World) (d f : Name) (i : Ino) : Prop :=
  w.file d f = some i ∧ (d = f ∨ w.size i ≠ 0)

/-- **The scan** registers and keeps the files that survive, where no name has two of them. -/
theorem restart_spec {w : World}
    (hhidden : ∀ d f i, w.file d f = some i → hidden d = false ∧ hidden f = false)
    (hone : ∀ f d d' i i', Survives w d f i → Survives w d' f i' → d = d') :
    (∀ f k, w.restart.index.get f = some k ↔ ∃ d i, Survives w d f i ∧ k = kindAt d f) ∧
    (∀ d f i, w.restart.file d f = some i ↔ Survives w d f i) := by
  have hfile : ∀ e ∈ w.dirs.toPairs, ∀ f, w.file e.1 f = e.2.get f := by
    intro e he f
    have hget : w.dirs.get e.1 = some e.2 := mem_pairs.1 he
    simp [World.file, hget]
  have hstays : ∀ e ∈ w.dirs.toPairs, ∀ f i, Stays w.size e.1 e.2 f i ↔ Survives w e.1 f i := by
    intro e he f i
    rw [Stays, Survives, hfile e he]
  have hdir : ∀ {d f i}, w.file d f = some i → ∃ e ∈ w.dirs.toPairs, e.1 = d := by
    intro d f i hi
    obtain ⟨t, ht, -⟩ := Option.bind_eq_some_iff.1 hi
    exact ⟨(d, t), mem_pairs.2 ht, rfl⟩
  obtain ⟨hidx, hdirs⟩ := scan_loop w.size w.dirs.toPairs (∅, w.dirs)
    (by simpa [pairs] using w.dirs.nodup_keys)
    (fun e he f i hi => hhidden e.1 f i ((hfile e he f).trans hi))
    (fun e he e' he' f i i' h h' =>
      hone f e.1 e'.1 i i' ((hstays e he f i).1 h) ((hstays e' he' f i').1 h'))
    (fun _ _ _ _ _ => rfl)
    (fun e he => mem_pairs.1 he)
  constructor
  · intro f k
    refine (hidx f k).trans ?_
    simp only [get_empty, reduceCtorEq, false_or]
    constructor
    · rintro ⟨e, he, i, h, rfl⟩
      exact ⟨e.1, i, (hstays e he f i).1 h, rfl⟩
    rintro ⟨d, i, h, rfl⟩
    obtain ⟨e, he, rfl⟩ := hdir h.1
    exact ⟨e, he, i, (hstays e he f i).2 h, rfl⟩
  intro d f i
  refine (hdirs d f i).trans ?_
  constructor
  · rintro (⟨e, he, rfl, h⟩ | ⟨hnot, hi⟩)
    · exact (hstays e he f i).1 h
    · obtain ⟨e, he, rfl⟩ := hdir hi
      exact absurd (mem_map_of_mem he) hnot
  · intro h
    obtain ⟨e, he, rfl⟩ := hdir h.1
    exact .inl ⟨e, he, rfl, (hstays e he f i).2 h⟩

/-- Volumes and snapshots by name, with kind and size. -/
abbrev Store := Name → Option (Kind × Nat)

/-- The index, the files and their sizes are those of the store. -/
structure Holds (w : World) (st : Store) : Prop where
  index : ∀ n, w.index.get n = (st n).map Prod.fst
  present : ∀ n k size, st n = some (k, size) → ∃ i, w.file (k.dir n) n = some i ∧ w.size i = size
  only : ∀ d n i, w.file d n = some i → ∃ k size, st n = some (k, size) ∧ d = k.dir n

/-- The files of a name that survive are what the store says of it. -/
def Told (w : World) (n : Name) : Option (Kind × Nat) → Prop
  | none => ∀ d i, ¬ Survives w d n i
  | some (k, size) => Good n k ∧ ∃ i, w.size i = size ∧
      ∀ d j, Survives w d n j ↔ d = k.dir n ∧ j = i

lemma hidden_of_valid {n : Name} (h : validName n) : hidden n = false := by
  simp only [validName, Bool.and_eq_true, Bool.not_eq_true'] at h
  exact h.2

lemma holds_restart {w : World} {st : Store}
    (hvalid : ∀ d f i, w.file d f = some i → validName d ∧ validName f)
    (htold : ∀ n, Told w n (st n)) :
    Holds w.restart st ∧ ∀ d f i, w.restart.file d f = some i → w.file d f = some i := by
  have hst : ∀ {d n i}, Survives w d n i → ∃ k size, st n = some (k, size) ∧ Good n k ∧
      d = k.dir n ∧ w.size i = size := by
    intro d n i h
    have ht := htold n
    cases hn : st n with
    | none =>
      rw [hn] at ht
      exact absurd h (ht d i)
    | some x =>
      obtain ⟨k, size⟩ := x
      rw [hn] at ht
      obtain ⟨hgood, j, hj, hiff⟩ := ht
      obtain ⟨hd, rfl⟩ := (hiff d i).1 h
      exact ⟨k, size, rfl, hgood, hd, hj⟩
  obtain ⟨hidx, hfile⟩ := restart_spec
    (fun d f i hi => ⟨hidden_of_valid (hvalid d f i hi).1, hidden_of_valid (hvalid d f i hi).2⟩)
    (by
      intro f d d' i i' h h'
      obtain ⟨k, size, hk, -, rfl, -⟩ := hst h
      obtain ⟨k', size', hk', -, rfl, -⟩ := hst h'
      cases hk.symm.trans hk'
      rfl)
  refine ⟨⟨fun n => ?_, fun n k size hn => ?_, fun d n i hi => ?_⟩,
    fun d f i hi => ((hfile d f i).1 hi).1⟩
  · ext k
    rw [hidx]
    constructor
    · rintro ⟨d, i, h, rfl⟩
      obtain ⟨k, size, hk, hgood, rfl, -⟩ := hst h
      rw [hk, hgood.kindAt]
      rfl
    intro hk
    obtain ⟨⟨k', size⟩, hn, rfl⟩ := Option.map_eq_some_iff.1 hk
    have ht := htold n
    rw [hn] at ht
    obtain ⟨hgood, i, -, hiff⟩ := ht
    exact ⟨k'.dir n, i, (hiff _ _).2 ⟨rfl, rfl⟩, hgood.kindAt.symm⟩
  · have ht := htold n
    rw [hn] at ht
    obtain ⟨-, i, hi, hiff⟩ := ht
    exact ⟨i, (hfile _ _ _).2 ((hiff _ _).2 ⟨rfl, rfl⟩), hi⟩
  · obtain ⟨k, size, hk, -, hd, -⟩ := hst ((hfile d n i).1 hi)
    exact ⟨k, size, hk, hd⟩

variable {i : Ino}

section Recovery

variable {w : World} {R : Multiset Tok} {n : Name}

lemma Inv.valid_of_file (h : Inv true w R) {d f : Name} (hi : w.file d f = some i) :
    validName d ∧ validName f := by
  by_cases hdf : d = f
  · subst hdf
    suffices hname : validName d from ⟨hname, hname⟩
    have hnot : (view w d).file ≠ nowhere := fun hno => by
      have hat := congrFun hno d
      simp [view, hi, nowhere] at hat
    rcases h.names d with ⟨-, hrest⟩ | ⟨p, -, hheld⟩
    · cases hrest with
      | absent kind file => exact absurd file hnot
      | present k j size good => exact good.name
    cases p with
    | reserved | sourced | made | filled | undoing | rolling | deleting | gone =>
      exact hheld.1.name
    | idle | resolved | locked | reading | opened => exact hheld.elim
  · have hgood := h.good (h.snapshot_of_file hi hdf)
    exact ⟨hgood.dir, hgood.name⟩

lemma told_of_only {k : Kind} (hgood : Good n k) (hfile : (view w n).file = only (k.dir n) i)
    (hsize : ∀ o, k = .snapshot o → w.size i ≠ 0) : Told w n (some (k, w.size i)) := by
  refine ⟨hgood, i, rfl, fun d j => ?_⟩
  have hat : w.file d n = only (k.dir n) i d := congrFun hfile d
  unfold Survives
  rw [hat]
  unfold only
  constructor
  · rintro ⟨hj, -⟩
    split at hj
    · exact ⟨‹_›, (Option.some.inj hj).symm⟩
    · cases hj
  rintro ⟨rfl, rfl⟩
  refine ⟨if_pos rfl, ?_⟩
  cases k with
  | volume => exact .inl rfl
  | snapshot o => exact .inr (hsize o rfl)

lemma told_of_nowhere (hfile : (view w n).file = nowhere) : Told w n none := by
  intro d i hi
  have hat : w.file d n = none := congrFun hfile d
  cases hi.1.symm.trans hat

lemma Inv.told_stored (h : Inv true w R) {k : Kind} {size : Nat} (hgood : Good n k)
    (hfile : (view w n).file = only (k.dir n) i) (hstore : w.store.get n = some (k, size)) :
    Told w n (w.store.get n) := by
  have hi : w.file (k.dir n) n = some i := by
    simpa [view, only] using congrFun hfile (k.dir n)
  have hsize : w.size i = size := (h.store rfl).size n k size i hstore hi
  rw [hstore, ← hsize]
  refine told_of_only hgood hfile fun o ho => ?_
  subst ho
  rw [hsize]
  exact (h.store rfl).nonempty n o size hstore

lemma Inv.told_rest (h : Inv true w R) (hrest : Rest n (view w n)) : Told w n (w.store.get n) := by
  cases hrest with
  | absent kind file store =>
    have hnone : w.store.get n = none := store
    rw [hnone]
    exact told_of_nowhere file
  | present k i size good kind file store => exact h.told_stored good file store

lemma Inv.holds_restart (h : Inv true w 0) : Holds w.restart w.store.get ∧
    ∀ d f i, w.restart.file d f = some i → w.file d f = some i :=
  Reflink.holds_restart (fun _ _ _ hi => h.valid_of_file hi) fun n => h.told_rest (h.names n).rest

end Recovery

/-- **Restart equivalence.** After operations that came one after another, the scan builds the index
in memory, and what was acknowledged keeps its file. -/
theorem restart_rebuilds_index (es : List (Ev Outcome Call)) (c : Conf)
    (hm : Runs.Meets (machine true).step (Machine.onEv (Steady true) fun _ _ => True) begin es)
    (h : exec (machine true).step begin es = some c) (hquiet : c.Quiet) :
    (∀ n, c.world.restart.index.get n = c.world.index.get n) ∧
      ∀ n k size, c.world.store.get n = some (k, size) →
        ∃ i, c.world.file (k.dir n) n = some i ∧ c.world.restart.file (k.dir n) n = some i := by
  have hI := (sound_of_run hm h).of_quiet hquiet
  obtain ⟨hholds, hsub⟩ := hI.holds_restart
  refine ⟨fun n => ?_, fun n k size hn => ?_⟩
  · rw [hholds.index]
    cases (hI.names n).rest with
    | absent kind file store =>
      have hnone : c.world.store.get n = none := store
      have hk : c.world.index.get n = none := kind
      simp [hnone, hk]
    | present k i size good kind file store =>
      have hsome : c.world.store.get n = some (k, size) := store
      have hk : c.world.index.get n = some k := kind
      simp [hsome, hk]
  · obtain ⟨i, hi, -⟩ := hholds.present n k size hn
    exact ⟨i, hsub _ _ i hi, hi⟩

/-- A chain of snapshots outlives its origin, and names are used again. -/
def chainOfClones : List (Ev Outcome Call) :=
  newVolume ++ .start (.createSnapshot [118] [115]) :: goes 1 9 ++
    .start (.createSnapshot [115] [116]) :: goes 2 9 ++ .start (.deleteVolume [118]) :: goes 3 6 ++
    .start (.deleteSnapshot [115]) :: goes 4 6 ++ .start (.createVolume [115] 8192) :: goes 5 10

theorem chain_rebuilt : ∃ c, exec (machine true).step begin chainOfClones = some c ∧ c.Quiet ∧
      c.world.index.get [116] = some (.snapshot [118]) ∧
      (∀ n, c.world.restart.index.get n = c.world.index.get n) ∧
      ∀ n k size, c.world.store.get n = some (k, size) →
        ∃ i, c.world.file (k.dir n) n = some i ∧ c.world.restart.file (k.dir n) n = some i := by
  refine leads (fun c => (decide c.Quiet, c.world.index.get [116]))
    (true, some (.snapshot [118])) (by decide +kernel) fun c hc hout => ?_
  obtain ⟨hquiet, hindex⟩ := Prod.mk.inj hout
  have hq : c.Quiet := of_decide_eq_true hquiet
  exact ⟨hq, hindex, restart_rebuilds_index _ c (by decide +kernel) hc hq⟩

def emptyClone : List (Ev Outcome Call) :=
  .start (.createVolume [118] 0) :: goes 0 10 ++ .start (.createSnapshot [118] [115]) :: goes 1 9

/-- At rest: the entry in memory, the entry after a restart, and whether the file is still there. -/
def rebuilt (d f : Name) (c : Conf) : Option (Option Kind × Option Kind × Bool) :=
  if c.Quiet then
    some (c.world.index.get f, c.world.restart.index.get f, (c.world.restart.file d f).isSome)
  else none

/-- An empty clone is removed, and a snapshot with the name of its origin comes back as a volume. -/
lemma changed_by_restart : [(emptyClone, [115]), (namedAsOrigin, [118])].map
      (fun x => (exec (machine true).step begin x.1).bind (rebuilt [118] x.2)) =
    [some (some (.snapshot [118]), none, false),
      some (some (.snapshot [118]), some .volume, true)] := by
  decide +kernel

theorem restart_changes_index : ¬ ∀ (es : List (Ev Outcome Call)) (c : Conf),
      exec (machine true).step begin es = some c → c.Quiet →
        (∀ n, c.world.restart.index.get n = c.world.index.get n) ∧
          ∀ n k size, c.world.store.get n = some (k, size) →
            ∃ i, c.world.file (k.dir n) n = some i ∧ c.world.restart.file (k.dir n) n = some i := by
  intro hall
  have hrun := (List.cons.inj changed_by_restart).1
  obtain ⟨c, hc, hstate⟩ := Option.bind_eq_some_iff.1 hrun
  obtain ⟨hquiet, hold, hrest⟩ := acted_if hstate
  obtain ⟨hnew, -⟩ := Prod.mk.inj hrest
  have hsame := (hall _ c hc hquiet).1 [115]
  rw [hold, hnew] at hsame
  simp at hsame

end CubeSandbox.Reflink
