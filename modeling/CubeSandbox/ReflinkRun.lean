import CubeSandbox.ReflinkInv

/-!
Every action of the reflink engine keeps the invariant, and so do its operations.
-/

namespace CubeSandbox.Reflink

open GoText Conc Multiset Option Tbl

variable {d f n : Name} {k : Kind} {i src : Ino} {size : Nat}

section Actions

variable {serial : Bool} {w w' : World} {F R : Multiset Tok} {c : Call} {p q : Place}

lemma Inv.good (h : Inv serial w R) (hk : w.index.get n = some k) : Good n k := by
  have hview : (view w n).kind = some k := hk
  rcases h.names n with ⟨-, hrest⟩ | ⟨p, -, hheld⟩
  · cases hrest with
    | absent kind => simp [hview] at kind
    | present k' i size good kind => exact some.inj (hview.symm.trans kind) ▸ good
  cases p with
  | reserved k' | made k' | filled k' | deleting k' | gone k' =>
    exact some.inj (hview.symm.trans hheld.2.1) ▸ hheld.1
  | sourced d src => exact some.inj (hview.symm.trans hheld.2.1) ▸ hheld.1
  | undoing => exact some.inj (hview.symm.trans hheld.2.1) ▸ hheld.1
  | rolling => cases hview.symm.trans hheld.2.1
  | idle | resolved | locked | reading | opened => exact hheld.elim

/-- An operation goes on to another place; the world stays. -/
lemma Inv.goto (h : InvAt serial w c p F) (q : Place) (hholds : q.holds = p.holds)
    (hreads : q.reads = p.reads) (hfits : Tok.Fits ⟨c, q⟩) (hlive : Tok.Live w.index ⟨c, q⟩)
    (hname : NameOk c.name (view w c.name) (q.own + owners c.name F))
    (hsized : serial = true → Tok.Sized w ⟨c, q⟩) : InvAt serial w c q F :=
  h.step q rfl hfits (.inl rfl) hlive (fun _ _ => rfl) hname h.inodes h.store hsized
    ⟨hholds, rfl⟩ ⟨hreads, rfl⟩

lemma Inv.unowned (h : InvAt serial w c p F) (hp : p.owns = false)
    (hq : q.owns = false) : NameOk c.name (view w c.name) (q.own + owners c.name F) := by
  have hown := h.own
  simpa [Place.own, hp, hq] using hown

lemma Inv.resolve {source : Name} (h : InvAt serial w (.createSnapshot source n) .idle F)
    (hk : w.index.get source = some k) :
    InvAt serial w (.createSnapshot source n) (.resolved (k.dir source)) F := by
  refine h.goto _ rfl rfl (h.good hk).dir trivial (h.unowned rfl rfl) fun hs => ?_
  have hrest := h.names source
  rw [h.others hs] at hrest
  have howners : owners source ({⟨.createSnapshot source n, .idle⟩} : Multiset Tok) = 0 := by
    refine eq_zero_of_forall_notMem fun p hp => ?_
    obtain ⟨hp, t, ht, -, rfl⟩ := mem_owners.1 hp
    rw [mem_singleton.1 ht] at hp
    simp [Place.owns] at hp
  rw [show (⟨.createSnapshot source n, .idle⟩ ::ₘ 0 : Multiset Tok) =
    {⟨.createSnapshot source n, .idle⟩} from rfl, howners] at hrest
  cases hrest.rest with
  | absent kind => simp [view, hk] at kind
  | present k' i size good kind file store =>
    obtain rfl : k' = k := some.inj (kind.symm.trans hk)
    exact ⟨size, source, k', rfl, store, rfl⟩

/-- While the lock is free, a name that is not in the index has no owner, file or record. -/
lemma Inv.absent (h : InvAt serial w c p F) (hp : p.owns = false)
    (hfree : w.lock = false) (hnone : w.index.get c.name = none) :
    owners c.name F = 0 ∧ (view w c.name).file = nowhere ∧ (view w c.name).store = none := by
  have hown := h.own
  rw [Place.own, if_neg (by simp [hp]), zero_add] at hown
  have hview : (view w c.name).kind = none := hnone
  rcases hown with ⟨hF, hrest⟩ | ⟨q, hF, hheld⟩
  · cases hrest with
    | absent kind file store => exact ⟨hF, file, store⟩
    | present k i size good kind => simp [hview] at kind
  exfalso
  cases q with
  | rolling =>
    -- a rollback that has removed the entry holds the lock
    have hmem : Place.rolling ∈ owners c.name F := by simp [hF]
    obtain ⟨-, u, hu, -, hplace⟩ := mem_owners.1 hmem
    have hnot := h.unlocked (.inl hfree) u hu
    simp [hplace, Place.holds] at hnot
  | reserved | made | filled | deleting | gone | sourced | undoing =>
    cases hview.symm.trans hheld.2.1
  | idle | resolved | locked | reading | opened => exact hheld

lemma free_iff : w.free = true ↔ w.lock = false ∧ w.readers = 0 := by
  simp [World.free]

/-- A free name is entered into the index. -/
lemma Inv.reserve (h : InvAt serial w c p F)
    (hp : p = .idle ∧ k = .volume ∨ ∃ d, p = .resolved d ∧ k = .snapshot d) (hc : c.creates)
    (hvalid : validName c.name) (hfree : w.lock = false) (hnone : w.index.get c.name = none)
    (hne : k ≠ .snapshot c.name) :
    InvAt serial { w with index := w.index.put c.name k } c (.reserved k) F := by
  have hplace : p.owns = false ∧ p.holds = false ∧ p.reads = false := by
    rcases hp with ⟨rfl, -⟩ | ⟨d, rfl, -⟩ <;> exact ⟨rfl, rfl, rfl⟩
  have hgood : Good c.name k := by
    refine ⟨hvalid, ?_, hne⟩
    rcases hp with ⟨-, rfl⟩ | ⟨d, rfl, rfl⟩
    · exact hvalid
    · exact h.fits_self
  obtain ⟨hF, hfile, hstore⟩ := h.absent hplace.1 hfree hnone
  refine h.step _ rfl hc (.inr (.inl hfree)) trivial ?_
    (.of_held hF rfl ⟨hgood, by simp [view], hfile, hstore⟩) h.inodes (fun hs => h.store hs) ?_
    ⟨hplace.2.1.symm, rfl⟩ ⟨hplace.2.2.symm, rfl⟩
  · intro m hm
    simp only [view, get_put_ne _ _ hm]
    rfl
  intro hs
  rcases hp with ⟨-, rfl⟩ | ⟨d, rfl, rfl⟩
  · trivial
  · exact h.sized_self hs

lemma Inv.unreserve (h : InvAt serial w c (.reserved k) F) (hfree : w.lock = false) :
    InvAt serial { w with index := w.index.del c.name } c .idle F := by
  obtain ⟨hF, -, -, hfile, hstore⟩ := h.held rfl
  refine h.step _ rfl trivial (.inr (.inl hfree)) trivial ?_
    (.of_rest hF rfl (.absent (by simp [view]) hfile hstore)) h.inodes (fun hs => h.store hs)
    (fun _ => trivial) ⟨rfl, rfl⟩ ⟨rfl, rfl⟩
  intro m hm
  simp only [view, get_del_ne _ hm]
  rfl

lemma Inv.fileOf (h : InvAt serial w c p F)
    (hp : (∃ src, p = .made k i src) ∨ ∃ size, p = .filled k i size) :
    w.file (k.dir c.name) c.name = some i ∧ w.store.get c.name = none := by
  have hheld : (view w c.name).file = only (k.dir c.name) i ∧ (view w c.name).store = none := by
    rcases hp with ⟨src, rfl⟩ | ⟨size, rfl⟩
    all_goals
      obtain ⟨-, -, -, hfile, hstore⟩ := h.held rfl
      exact ⟨hfile, hstore⟩
  refine ⟨?_, hheld.2⟩
  have hat := congrFun hheld.1 (k.dir c.name)
  simpa [view, only] using hat

/-- A creation of a volume that has failed takes the lock to roll back. -/
lemma Inv.undo (h : InvAt serial w c p F) (hfree : w.free) (hc : c.creates)
    (hp : p = .reserved .volume ∨ (∃ i, p = .made .volume i none) ∨
      ∃ i size, p = .filled .volume i size) :
    InvAt serial { w with lock := true } c .undoing F := by
  have hplace : p.owns ∧ p.holds = false ∧ p.reads = false := by
    rcases hp with rfl | ⟨i, rfl⟩ | ⟨i, size, rfl⟩ <;> exact ⟨rfl, rfl, rfl⟩
  obtain ⟨hF, hheld⟩ := h.held hplace.1
  refine h.relock _ true hplace.2.1 rfl ⟨hplace.2.2, rfl⟩ (fun _ => hfree) hc trivial
    (.of_held hF rfl ?_) fun hs => ?_
  · rcases hp with rfl | ⟨i, rfl⟩ | ⟨i, size, rfl⟩
    · obtain ⟨hgood, hkind, hfile, hstore⟩ := hheld
      exact ⟨hgood, hkind, fun d _ => by rw [hfile]; rfl, hstore⟩
    all_goals
      obtain ⟨hgood, hkind, hfile, hstore⟩ := hheld
      exact ⟨hgood, hkind, fun d hd => by rw [hfile]; exact if_neg hd, hstore⟩
  have hsized := h.sized_self hs
  intro i hi
  rcases hp with rfl | ⟨j, rfl⟩ | ⟨j, size, rfl⟩
  · have hnone : w.file c.name c.name = none := congrFun hheld.2.2.1 c.name
    cases hi.symm.trans hnone
  · exact .inl hsized
  have hj : w.file c.name c.name = some j := (h.fileOf (.inr ⟨size, rfl⟩)).1
  cases hi.symm.trans hj
  obtain ⟨hcall, rfl⟩ := hsized
  exact .inr hcall

lemma Inv.forget (h : InvAt serial w c .undoing F) :
    InvAt serial { w with index := w.index.del c.name } c .rolling F := by
  obtain ⟨hF, hgood, -, hfile, hstore⟩ := h.held rfl
  have hc : c.creates := h.fits_self
  refine h.step _ rfl hc (.inr (.inr rfl)) trivial ?_
    (.of_held hF rfl ⟨hgood, by simp [view], hfile, hstore⟩) h.inodes h.store
    (fun hs => h.sized_self hs) ⟨rfl, rfl⟩ ⟨rfl, rfl⟩
  intro m hm
  simp only [view, get_del_ne _ hm]
  rfl

lemma Inodes.unlink (h : Inodes w.file w.next) (d f : Name) :
    Inodes (w.unlink d f).file (w.unlink d f).next := by
  have hsub : ∀ x y i, (w.unlink d f).file x y = some i → w.file x y = some i := by
    intro x y i hi
    rw [file_unlink] at hi
    split at hi <;> try cases hi
    exact hi
  have hnext : (w.unlink d f).next = w.next := by
    unfold World.unlink World.setFile
    cases w.dirs.get d <;> rfl
  rw [hnext]
  exact ⟨fun x y i hi => h.fresh x y i (hsub x y i hi),
    fun x y x' y' i hi hi' => h.inj x y x' y' i (hsub x y i hi) (hsub x' y' i hi')⟩

lemma unlink_frame (w : World) (d f : Name) :
    (w.unlink d f).index = w.index ∧ (w.unlink d f).store = w.store ∧
      (w.unlink d f).calls = w.calls ∧ (w.unlink d f).lock = w.lock ∧
      (w.unlink d f).readers = w.readers ∧ (w.unlink d f).size = w.size := by
  unfold World.unlink World.setFile
  cases w.dirs.get d <;> exact ⟨rfl, rfl, rfl, rfl, rfl, rfl⟩

lemma view_unlink_ne {m : Name} (hm : m ≠ f) : view (w.unlink d f) m = view w m := by
  obtain ⟨hindex, hstore, -⟩ := unlink_frame w d f
  simp only [view, hindex, hstore, file_unlink, hm, and_false, if_false]

lemma view_unlink_file (d f : Name) :
    (view (w.unlink d f) f).file = fun x => if x = d then none else (view w f).file x := by
  funext x
  simp [view, file_unlink]

/-- The file of the operation's own name is removed. -/
lemma Inv.unlink (h : InvAt serial w c p F) (q : Place) (d : Name)
    (hholds : q.holds = p.holds) (hreads : q.reads = p.reads) (hfits : Tok.Fits ⟨c, q⟩)
    (hlive : Tok.Live w.index ⟨c, q⟩)
    (hname : NameOk c.name (view (w.unlink d c.name) c.name) (q.own + owners c.name F))
    (hsized : serial = true → Tok.Sized (w.unlink d c.name) ⟨c, q⟩) :
    InvAt serial (w.unlink d c.name) c q F := by
  obtain ⟨hindex, hstore, hcalls, hlock, hreaders, hsize⟩ := unlink_frame w d c.name
  refine h.step q hcalls hfits (.inl hindex) (hindex.symm ▸ hlive) (fun m hm => view_unlink_ne hm)
    hname (h.inodes.unlink d c.name) ?_ hsized ⟨hholds, hlock⟩ ⟨hreads, hreaders⟩
  intro hs
  rw [hstore, hsize]
  refine ⟨fun n k s i hn hi => (h.store hs).size n k s i hn ?_, (h.store hs).nonempty⟩
  rw [file_unlink] at hi
  split at hi <;> try cases hi
  exact hi

lemma unlink_only (hfile : (view w n).file = only d i) :
    (view (w.unlink d n) n).file = nowhere := by
  rw [view_unlink_file, hfile]
  funext x
  by_cases hx : x = d
  · simp [hx, nowhere]
  · simp [hx, only, nowhere]

lemma Inv.rollUnlink (h : InvAt serial w c .rolling F) :
    InvAt serial (w.unlink c.name c.name) c .locked F := by
  obtain ⟨hF, -, hkind, hfile, hstore⟩ := h.held rfl
  obtain ⟨hindex, hst, -⟩ := unlink_frame w c.name c.name
  refine h.unlink _ _ rfl rfl trivial trivial (.of_rest hF rfl (.absent ?_ ?_ ?_)) fun _ => trivial
  · simpa [view, hindex] using hkind
  · rw [view_unlink_file]
    funext x
    by_cases hx : x = c.name
    · simp [hx, nowhere]
    · simpa [hx, nowhere] using hfile x hx
  · simpa [view, hst] using hstore

lemma Inv.rollRemove (h : InvAt serial w c .rolling F) :
    InvAt serial (w.removeFile c.name c.name .ok).1 c .locked F := by
  unfold World.removeFile
  cases hf : w.file c.name c.name with
  | some i => exact h.rollUnlink
  | none =>
    obtain ⟨hF, -, hkind, hfile, hstore⟩ := h.held rfl
    refine h.goto _ rfl rfl trivial trivial (.of_rest hF rfl (.absent hkind ?_ hstore))
      fun _ => trivial
    funext x
    by_cases hx : x = c.name
    · rwa [hx]
    · exact hfile x hx

/-- A snapshot that could not be filled loses its file; its name stays reserved. -/
lemma Inv.dropClone (h : InvAt serial w c (.made (.snapshot d) i (some src)) F) :
    InvAt serial (w.unlink d c.name) c (.reserved (.snapshot d)) F := by
  obtain ⟨hF, hgood, hkind, hfile, hstore⟩ := h.held rfl
  obtain ⟨hindex, hst, -⟩ := unlink_frame w d c.name
  have hc : c.creates := h.fits_self
  refine h.unlink _ d rfl rfl hc trivial
    (.of_held hF rfl ⟨hgood, ?_, unlink_only hfile, ?_⟩) fun hs => ?_
  · simpa [view, hindex] using hkind
  · simpa [view, hst] using hstore
  obtain ⟨⟨source, k, size, hsource, hk, hdir, -⟩, -⟩ := h.sized_self hs
  refine ⟨size, source, k, hsource, ?_, hdir⟩
  rwa [hst]

lemma Inv.deleteFile {live : Bool} (h : InvAt serial w c (.deleting k live) F) :
    InvAt serial (w.unlink (k.dir c.name) c.name) c (.gone k live) F := by
  obtain ⟨hF, hgood, hkind, ⟨i, hfile⟩, size, hstore⟩ := h.held rfl
  obtain ⟨hindex, hst, -⟩ := unlink_frame w (k.dir c.name) c.name
  have hc : c.deletes := h.fits_self
  have hlive : hasSnapshots w.index c.name = live := h.live_self
  refine h.unlink _ _ rfl rfl hc hlive
    (.of_held hF rfl ⟨hgood, ?_, unlink_only hfile, size, ?_⟩) fun _ => trivial
  · simpa [view, hindex] using hkind
  · simpa [view, hst] using hstore

/-- A deletion takes the lock and looks its name up. -/
lemma Inv.lockDelete (h : InvAt serial w c .idle F) (hfree : w.free) (hc : c.deletes)
    (hok : serial = true ∨ ∀ c' ∈ w.calls, c'.name = c.name → !c'.creates) :
    InvAt serial { w with lock := true } c (match w.index.get c.name with
      | some k => .deleting k (hasSnapshots w.index c.name)
      | none => .locked) F := by
  have hF : owners c.name F = 0 := by
    refine eq_zero_of_forall_notMem fun p hp => ?_
    obtain ⟨hown, u, hu, hn, rfl⟩ := mem_owners.1 hp
    rcases hok with hs | hok
    · rw [h.others hs] at hu
      simp at hu
    have hcall : u.call ∈ w.calls := by
      rw [← mem_coe, h.calls, map_cons]
      exact mem_cons_of_mem (mem_map_of_mem _ hu)
    have hnot := hok u.call hcall hn
    have hlock := h.unlocked (.inl (free_iff.1 hfree).1) u hu
    have hfits := h.fits u (mem_cons_of_mem hu)
    obtain ⟨d, r⟩ := u
    cases r <;> simp_all [Tok.Fits, Place.owns, Place.holds]
  have hrest : Rest c.name (view w c.name) := by
    have hown := h.own
    rw [hF] at hown
    exact hown.rest
  cases hk : w.index.get c.name with
  | some k =>
    refine h.relock _ true rfl rfl ⟨rfl, rfl⟩ (fun _ => hfree) hc rfl (.of_held hF rfl ?_)
      fun _ => trivial
    cases hrest with
    | absent kind => simp [view, hk] at kind
    | present k' i size good kind file store =>
      cases kind.symm.trans hk
      exact ⟨good, kind, ⟨i, file⟩, size, store⟩
  | none =>
    exact h.relock _ true rfl rfl ⟨rfl, rfl⟩ (fun _ => hfree) trivial trivial
      (.of_rest hF rfl hrest) fun _ => trivial

lemma Inv.unlock (h : InvAt serial w c p F) (hp : p = .locked ∨ ∃ k live, p = .deleting k live) :
    InvAt serial { w with lock := false } c .idle F := by
  rcases hp with rfl | ⟨k, live, rfl⟩
  · exact h.relock _ false rfl rfl ⟨rfl, rfl⟩ (by simp) trivial trivial (h.unowned rfl rfl)
      fun _ => trivial
  obtain ⟨hF, hgood, hkind, ⟨i, hfile⟩, size, hstore⟩ := h.held rfl
  exact h.relock _ false rfl rfl ⟨rfl, rfl⟩ (by simp) trivial trivial
    (.of_rest hF rfl (.present k i size hgood hkind hfile hstore)) fun _ => trivial

/-- A deleted name leaves the index and the store. -/
lemma Inv.erase {live : Bool} (h : InvAt serial w c (.gone k live) F) :
    InvAt serial { w with index := w.index.del c.name, store := w.store.del c.name } c .locked
      F := by
  obtain ⟨hF, hgood, -, hfile, -⟩ := h.held rfl
  refine h.step _ rfl trivial (.inr (.inr rfl)) trivial ?_
    (.of_rest hF rfl (.absent (by simp [view]) hfile (by simp [view]))) h.inodes ?_
    (fun _ => trivial) ⟨rfl, rfl⟩ ⟨rfl, rfl⟩
  · intro m hm
    simp only [view, get_del_ne _ hm]
    rfl
  intro hs
  refine ⟨fun n k s i hn hi => ?_, fun n o s hn => ?_⟩
  · exact (h.store hs).size n k s i (get_del_eq_some.1 hn).2 hi
  · exact (h.store hs).nonempty n o s (get_del_eq_some.1 hn).2

/-! New files and sizes. -/

@[simp] lemma size_setSize (w : World) (i j : Ino) (size : Nat) :
    (w.setSize i size).size j = if j = i then size else w.size j := by
  unfold World.setSize World.size
  rw [get_put]
  split_ifs <;> rfl

lemma addFile_frame (w : World) (d f : Name) :
    (w.addFile d f).index = w.index ∧ (w.addFile d f).store = w.store ∧
      (w.addFile d f).calls = w.calls ∧ (w.addFile d f).lock = w.lock ∧
      (w.addFile d f).readers = w.readers ∧ (w.addFile d f).next = w.next + 1 := by
  unfold World.addFile World.setFile
  cases w.dirs.get d <;> exact ⟨rfl, rfl, rfl, rfl, rfl, rfl⟩

lemma size_addFile (w : World) (d f : Name) (i : Ino) :
    (w.addFile d f).size i = if i = w.next then 0 else w.size i := by
  have hsizes : (w.addFile d f).sizes = w.sizes.put w.next 0 := by
    unfold World.addFile World.setFile
    cases w.dirs.get d <;> rfl
  unfold World.size
  rw [hsizes, get_put]
  split_ifs <;> rfl

lemma bare_addFile (w : World) (n : Name) : n ∈ (w.addFile n n).bare := by
  unfold World.addFile
  simp

lemma Inodes.addFile (h : Inodes w.file w.next) (hd : (w.dirs.get d).isSome) (f : Name) :
    Inodes (w.addFile d f).file (w.addFile d f).next := by
  have hcases : ∀ x y i, (w.addFile d f).file x y = some i →
      (x = d ∧ y = f ∧ i = w.next) ∨ (w.file x y = some i ∧ i < w.next) := by
    intro x y i hi
    rw [file_addFile w hd] at hi
    split at hi
    · rename_i hxy
      exact .inl ⟨hxy.1, hxy.2, (some.inj hi).symm⟩
    · exact .inr ⟨hi, h.fresh x y i hi⟩
  rw [(addFile_frame w d f).2.2.2.2.2]
  constructor
  · intro x y i hi
    rcases hcases x y i hi with ⟨-, -, rfl⟩ | ⟨-, hlt⟩
    · exact Nat.lt_succ_self _
    · exact Nat.lt_succ_of_lt hlt
  intro x y x' y' i hi hi'
  rcases hcases x y i hi with ⟨rfl, rfl, hn⟩ | ⟨hold, hlt⟩ <;>
    rcases hcases x' y' i hi' with ⟨rfl, rfl, hn'⟩ | ⟨hold', hlt'⟩
  · exact ⟨rfl, rfl⟩
  · exact absurd hn hlt'.ne
  · exact absurd hn' hlt.ne
  · exact h.inj x y x' y' i hold hold'

/-- The file of a reserved name is made, still empty. -/
lemma Inv.addFile {src : Option Ino} (h : InvAt serial w c p F)
    (hd : (w.dirs.get (k.dir c.name)).isSome)
    (hp : p = .reserved .volume ∧ k = .volume ∧ src = none ∨
      ∃ d i, p = .sourced d i ∧ k = .snapshot d ∧ src = some i) :
    InvAt serial (w.addFile (k.dir c.name) c.name) c (.made k w.next src) F := by
  have hheld : owners c.name F = 0 ∧ Good c.name k ∧ (view w c.name).kind = some k ∧
      (view w c.name).file = nowhere ∧ (view w c.name).store = none ∧ p.holds = false ∧
      p.reads = false ∧ c.creates := by
    rcases hp with ⟨rfl, rfl, -⟩ | ⟨d, i, rfl, rfl, -⟩
    all_goals
      obtain ⟨hF, hgood, hkind, hfile, hstore⟩ := h.held rfl
      exact ⟨hF, hgood, hkind, hfile, hstore, rfl, rfl, h.fits_self⟩
  obtain ⟨hF, hgood, hkind, hfile, hstore, hholds, hreads, hc⟩ := hheld
  obtain ⟨hindex, hst, hcalls, hlock, hreaders, -⟩ := addFile_frame w (k.dir c.name) c.name
  have hne : ∀ {m : Name} {x : Kind × Nat}, w.store.get m = some x → m ≠ c.name := by
    rintro m x hm rfl
    cases hm.symm.trans hstore
  refine h.step _ hcalls hc (.inl hindex) trivial ?_ (.of_held hF rfl ⟨hgood, ?_, ?_, ?_⟩)
    (h.inodes.addFile hd c.name) ?_ ?_ ⟨hholds.symm, hlock⟩ ⟨hreads.symm, hreaders⟩
  · intro m hm
    simp only [view, hindex, hst, file_addFile w hd, hm, and_false, if_false]
  · simpa [view, hindex] using hkind
  · funext x
    have hx : w.file x c.name = none := congrFun hfile x
    simp [view, file_addFile w hd, only, hx]
  · simpa [view, hst] using hstore
  · intro hs
    rw [hst]
    refine ⟨fun n k' s i hn hi => ?_, (h.store hs).nonempty⟩
    rw [file_addFile w hd, if_neg (fun hx => hne hn hx.2)] at hi
    rw [size_addFile, if_neg (h.inodes.fresh _ _ _ hi).ne]
    exact (h.store hs).size n k' s i hn hi
  · intro hs
    have hsized := h.sized_self hs
    rcases hp with ⟨rfl, rfl, rfl⟩ | ⟨d, i, rfl, rfl, rfl⟩
    · exact bare_addFile w c.name
    obtain ⟨source, k', size, hsource, hk, hdir, hi⟩ := hsized
    refine ⟨⟨source, k', size, hsource, hst ▸ hk, hdir, ?_⟩, by simp [size_addFile]⟩
    rwa [file_addFile w hd, if_neg fun hx => hne hk hx.2]

lemma StoreSized.setSize (h : StoreSized w.store w.file w.size) (hinodes : Inodes w.file w.next)
    (hi : w.file d n = some i) (hn : w.store.get n = none) (size : Nat) :
    StoreSized w.store w.file (w.setSize i size).size := by
  refine ⟨fun m k s j hm hj => ?_, h.nonempty⟩
  have hne : j ≠ i := by
    rintro rfl
    obtain ⟨-, rfl⟩ := hinodes.inj _ _ _ _ _ hi hj
    simp [hn] at hm
  rw [size_setSize, if_neg hne]
  exact h.size m k s j hm hj

lemma Inv.setLen (h : InvAt serial w c (.made .volume i none) F)
    (hc : c = .createVolume c.name size) :
    InvAt serial { w.setSize i size with bare := w.bare.filter (· ≠ c.name) } c
      (.filled .volume i size) F := by
  obtain ⟨hF, hheld⟩ := h.held rfl
  obtain ⟨hi, hn⟩ := h.fileOf (.inl ⟨none, rfl⟩)
  have hcreates : c.creates := h.fits_self
  exact h.step _ rfl hcreates (.inl rfl) trivial (fun _ _ => rfl) (.of_held hF rfl hheld) h.inodes
    (fun hs => (h.store hs).setSize h.inodes hi hn size)
    (fun _ => ⟨hc, by simp [World.size, World.setSize]⟩) ⟨rfl, rfl⟩ ⟨rfl, rfl⟩

/-- A snapshot gets the content of its source. -/
lemma Inv.clone (h : InvAt serial w c (.made (.snapshot d) i (some src)) F)
    (hok : serial = true → w.size src ≠ 0) :
    InvAt serial (w.setSize i (w.size src)) c (.filled (.snapshot d) i (w.size src)) F := by
  obtain ⟨hF, hheld⟩ := h.held rfl
  obtain ⟨hi, hn⟩ := h.fileOf (.inl ⟨some src, rfl⟩)
  have hcreates : c.creates := h.fits_self
  refine h.step _ rfl hcreates (.inl rfl) trivial (fun _ _ => rfl) (.of_held hF rfl hheld) h.inodes
    (fun hs => (h.store hs).setSize h.inodes hi hn _) (fun hs => ?_) ⟨rfl, rfl⟩ ⟨rfl, rfl⟩
  obtain ⟨⟨source, k, size, hsource, hk, rfl, hsrc⟩, -⟩ := h.sized_self hs
  obtain rfl : w.size src = size := (h.store hs).size _ _ _ _ hk hsrc
  exact ⟨⟨source, k, hsource, hk, rfl⟩, by simp, hok hs⟩

lemma Inv.openSource {source : Name}
    (h : InvAt serial w (.createSnapshot source n) (.reserved (.snapshot d)) F)
    (hsrc : w.file d source = some src) :
    InvAt serial w (.createSnapshot source n) (.sourced d src) F := by
  obtain ⟨hF, hheld⟩ := h.held rfl
  refine h.goto _ rfl rfl rfl trivial (.of_held hF rfl hheld) fun hs => ?_
  obtain ⟨size, source', k, hsource, hk, hdir⟩ := h.sized_self hs
  obtain rfl : source = source' := by
    injection hsource
  exact ⟨source, k, size, rfl, hk, hdir, hsrc⟩

lemma Inv.unsource (h : InvAt serial w c (.sourced d src) F) :
    InvAt serial w c (.reserved (.snapshot d)) F := by
  obtain ⟨hF, hheld⟩ := h.held rfl
  have hc : c.creates := h.fits_self
  refine h.goto _ rfl rfl hc trivial (.of_held hF rfl hheld) fun hs => ?_
  obtain ⟨source, k, size, hsource, hk, hdir, -⟩ := h.sized_self hs
  exact ⟨size, source, k, hsource, hk, hdir⟩

/-- The size that is recorded is the one the file has now. -/
lemma Inv.look (h : InvAt serial w c (.filled k i size) F) :
    InvAt serial w c (.filled k i (w.size i)) F := by
  obtain ⟨hF, hheld⟩ := h.held rfl
  have hc : c.creates := h.fits_self
  refine h.goto _ rfl rfl hc trivial (.of_held hF rfl hheld) fun hs => ?_
  have hsized := h.sized_self hs
  cases k with
  | volume =>
    obtain ⟨hcall, hi⟩ := hsized
    exact ⟨hi ▸ hcall, rfl⟩
  | snapshot d =>
    obtain ⟨hsource, hi, hne⟩ := hsized
    exact ⟨hi ▸ hsource, rfl, hi ▸ hne⟩

lemma get_regrow (w : World) (n m : Name) (size : Nat) : (w.regrow n size).store.get m =
      if m = n then (w.store.get n).map fun x => (x.1, size) else w.store.get m := by
  unfold World.regrow
  cases hn : w.store.get n with
  | none =>
    by_cases hm : m = n
    · subst hm; simp [hn]
    · simp [hm]
  | some x => exact get_put _ _

lemma NameOk.regrow {v : View} {ps : Multiset Place} (h : NameOk n v ps) (size : Nat) :
    NameOk n { v with store := v.store.map fun x => (x.1, size) } ps := by
  rcases h with ⟨hps, hrest⟩ | ⟨p, hps, hheld⟩
  · refine .inl ⟨hps, ?_⟩
    cases hrest with
    | absent kind file store => exact .absent kind file (by simp [store])
    | present k i s good kind file store => exact .present k i size good kind file (by simp [store])
  refine .inr ⟨p, hps, ?_⟩
  cases p with
  | reserved | sourced | made | filled | undoing | rolling =>
    exact ⟨hheld.1, hheld.2.1, hheld.2.2.1, by simp [hheld.2.2.2]⟩
  | deleting | gone =>
    obtain ⟨hgood, hkind, hfile, s, hstore⟩ := hheld
    exact ⟨hgood, hkind, hfile, size, by simp [hstore]⟩
  | idle | resolved | locked | reading | opened => exact hheld

/-- The file and the record of an open volume get one size. -/
lemma Inv.grow (h : InvAt serial w c (.opened i) F) (size : Nat) :
    InvAt serial ((w.setSize i size).regrow c.name size) c (.opened i) F := by
  refine h.step _ rfl trivial (.inl rfl) trivial ?_ ?_ h.inodes ?_ (fun hs => h.sized_self hs)
    ⟨rfl, rfl⟩ ⟨rfl, rfl⟩
  · intro m hm
    simp only [view, get_regrow, hm, if_false]
    rfl
  · have hname := (h.unowned (q := .opened i) rfl rfl).regrow size
    have hview : view ((w.setSize i size).regrow c.name size) c.name =
        { view w c.name with store := (view w c.name).store.map fun x => (x.1, size) } := by
      simp only [view, get_regrow, if_true]
      rfl
    rwa [hview]
  intro hs
  have hi : w.file c.name c.name = some i := h.sized_self hs
  have hrest : Rest c.name (view w c.name) := by
    have hown := h.own
    rw [h.others hs] at hown
    exact hown.rest
  have hvolume : ∀ {k : Kind} {s : Nat}, w.store.get c.name = some (k, s) → k = .volume := by
    intro k s hk
    cases hrest with
    | absent kind file store => cases hk.symm.trans store
    | present k' j s' good kind file store =>
      cases hk.symm.trans store
      cases k with
      | volume => rfl
      | snapshot o =>
        have hat : only o j c.name = some i := file ▸ hi
        have ho : c.name = o := by
          by_contra hnot
          simp [only, hnot] at hat
        exact absurd (ho ▸ rfl) good.apart
  constructor
  · intro n k s j hn hj
    rw [get_regrow] at hn
    split at hn
    · rename_i heq
      subst heq
      obtain ⟨x, hx, rfl, rfl⟩ := acted_map hn
      obtain hk := hvolume hx
      rw [hk] at hj
      cases hi.symm.trans hj
      exact (size_setSize w i i size).trans (if_pos rfl)
    · rename_i hne
      have hji : j ≠ i := by
        rintro rfl
        exact hne (h.inodes.inj _ _ _ _ _ hj hi).2
      exact ((size_setSize w i j size).trans (if_neg hji)).trans ((h.store hs).size n k s j hn hj)
  · intro n o s hn
    rw [get_regrow] at hn
    split at hn
    · obtain ⟨x, hx, heq⟩ := map_eq_some_iff.1 hn
      have hk := hvolume hx
      simp [hk] at heq
    · exact (h.store hs).nonempty n o s hn

/-! Directories. -/

lemma sized_of_file {t : Tok} {D : Tbl Name (Tbl Name Ino)}
    (hfile : ∀ x y, ({ w with dirs := D } : World).file x y = w.file x y) (h : t.Sized w) :
    t.Sized { w with dirs := D } := by
  unfold Tok.Sized SourceFile Source at h ⊢
  simp only [hfile]
  exact h

section

variable (h : Inv serial w R)
include h

/-- Directories come and go; the files stay. -/
lemma Inv.redir (D : Tbl Name (Tbl Name Ino))
    (hfile : ∀ x y, ({ w with dirs := D } : World).file x y = w.file x y) :
    Inv serial { w with dirs := D } R := by
  have hfiles : ({ w with dirs := D } : World).file = w.file := funext₂ hfile
  refine { h with names := fun n => ?_, inodes := ?_, store := fun hs => ?_, sized := ?_ }
  · have hview : view { w with dirs := D } n = view w n := by simp only [view, hfile]
    rw [hview]
    exact h.names n
  · rw [hfiles]
    exact h.inodes
  · rw [hfiles]
    exact h.store hs
  · exact fun hs t ht => sized_of_file hfile (h.sized hs t ht)

lemma Inv.mkdir (d : Name) : Inv serial (w.mkdir d) R := by
  have hfile := file_mkdir w d
  unfold World.mkdir at hfile ⊢
  cases hd : w.dirs.get d with
  | some t => exact h
  | none =>
    rw [hd] at hfile
    exact h.redir _ hfile

lemma Inv.removeDir (d : Name) (o : Outcome) : Inv serial (w.removeDir d o).1 R := by
  cases o with
  | fail => exact h
  | ok =>
    unfold World.removeDir
    cases hd : w.dirs.get d with
    | none => exact h
    | some t =>
      dsimp only
      split
      · exact h.redir _ (file_rmdir w hd ‹_›)
      · exact h

/-- A file in the directory of another name is a snapshot of that name. -/
lemma Inv.snapshot_of_file (hi : w.file d f = some i) (hne : d ≠ f) :
    w.index.get f = some (.snapshot d) := by
  have hdir : ∀ {k : Kind} {j : Ino}, (view w f).kind = some k →
      (view w f).file = only (k.dir f) j → w.index.get f = some (.snapshot d) := by
    intro k j hk hfile
    have hat : only (k.dir f) j d = some i := hfile ▸ hi
    have hd : d = k.dir f := by
      by_contra hnot
      simp [only, hnot] at hat
    cases k with
    | volume => exact absurd hd hne
    | snapshot o => exact hd ▸ hk
  have hnot : (view w f).file ≠ nowhere := fun hno => by
    have hat := congrFun hno d
    simp [view, hi, nowhere] at hat
  rcases h.names f with ⟨-, hrest⟩ | ⟨p, -, hheld⟩
  · cases hrest with
    | absent kind file => exact absurd file hnot
    | present k j size good kind file => exact hdir kind file
  cases p with
  | reserved | sourced | gone => exact absurd hheld.2.2.1 hnot
  | made | filled => exact hdir hheld.2.1 hheld.2.2.1
  | deleting =>
    obtain ⟨-, hkind, ⟨j, hfile⟩, -⟩ := hheld
    exact hdir hkind hfile
  | undoing | rolling =>
    have hnone : w.file d f = none := hheld.2.2.1 d hne
    simp [hi] at hnone
  | idle | resolved | locked | reading | opened => exact hheld.elim

end

lemma hasSnapshots_of_get {index : Index} (h : index.get f = some (.snapshot n)) :
    hasSnapshots index n = true := by
  have hmem : (f, Kind.snapshot n) ∈ index.toPairs := mem_pairs.2 h
  exact List.any_eq_true.2 ⟨_, hmem, by simp⟩

/-- The directory of a deleted volume without snapshots is empty. -/
lemma Inv.emptyDir (h : InvAt serial w c (.gone .volume false) F) {t : Tbl Name Ino}
    (ht : w.dirs.get c.name = some t) : t.toPairs = [] := by
  obtain ⟨-, -, -, hfile, -⟩ := h.held rfl
  have hlive : hasSnapshots w.index c.name = false := h.live_self
  rw [List.eq_nil_iff_forall_not_mem]
  rintro ⟨f, i⟩ hmem
  have hget : t.get f = some i := mem_pairs.1 hmem
  have hi : w.file c.name f = some i := by simp [World.file, ht, hget]
  by_cases hf : c.name = f
  · have hnone : w.file c.name c.name = none := congrFun hfile c.name
    rw [← hf, hnone] at hi
    simp at hi
  · have hkind := h.snapshot_of_file hi hf
    simp [hasSnapshots_of_get hkind] at hlive

/-! Beginning and end. -/

lemma Inv.start (h : Inv serial w R) (c : Call) (halone : serial = true → R = 0) :
    Inv serial { w with calls := c :: w.calls } (⟨c, .idle⟩ ::ₘ R) where
  calls := by
    rw [map_cons, ← h.calls]
    rfl
  alone hs := by simp [halone hs]
  lock := by
    rw [countP_cons, ← h.lock]
    rfl
  readers := by
    rw [countP_cons, ← h.readers]
    rfl
  apart := h.apart
  fits u hu := by
    rcases mem_cons.1 hu with rfl | hu
    · trivial
    · exact h.fits u hu
  live u hu := by
    rcases mem_cons.1 hu with rfl | hu
    · trivial
    · exact h.live u hu
  names n := by
    have hown : owners n (⟨c, .idle⟩ ::ₘ R) = owners n R := by
      rw [owners_cons]
      split <;> simp [Place.own, Place.owns]
    rw [hown]
    exact h.names n
  inodes := h.inodes
  store := h.store
  sized hs u hu := by
    rcases mem_cons.1 hu with rfl | hu
    · trivial
    · exact h.sized hs u hu

/-- An operation ends, with or without a record of what it made. -/
lemma Inv.finish (h : InvAt serial w c p F) (made : Option (Kind × Nat))
    (hp : p.holds = false ∧ p.reads = false)
    (hview : ∀ m, m ≠ c.name → view (w.finish c made) m = view w m)
    (hname : NameOk c.name (view (w.finish c made) c.name) (owners c.name F))
    (hstore : serial = true → StoreSized (w.finish c made).store w.file w.size) :
    Inv serial (w.finish c made) F where
  calls := coe_erase_of_eq_cons (h.calls.trans (by simp))
  alone hs := by simp [h.others hs]
  lock := by
    have hcount := h.lock
    rwa [countP_cons, hp.1] at hcount
  readers := by
    have hcount := h.readers
    rwa [countP_cons, hp.2] at hcount
  apart := h.apart
  fits u hu := h.fits u (mem_cons_of_mem hu)
  live u hu := h.live u (mem_cons_of_mem hu)
  names m := by
    by_cases hm : m = c.name
    · subst hm
      exact hname
    have hold := h.names m
    rw [owners_cons, if_neg (Ne.symm hm), zero_add] at hold
    rwa [hview m hm]
  inodes := h.inodes
  store := hstore
  sized hs u hu := by
    rw [h.others hs] at hu
    simp at hu

lemma Inv.finishNone (h : InvAt serial w c .idle F) : Inv serial (w.finish c none) F := by
  refine h.finish none ⟨rfl, rfl⟩ (fun _ _ => rfl) ?_ h.store
  have hown := h.own
  rwa [Place.own, if_neg (by simp [Place.owns]), zero_add] at hown

lemma Inv.finishSome (h : InvAt serial w c (.filled k i size) F) :
    Inv serial (w.finish c (some (k, size))) F := by
  obtain ⟨hF, hgood, hkind, hfile, hstore⟩ := h.held rfl
  obtain ⟨hi, -⟩ := h.fileOf (.inr ⟨size, rfl⟩)
  refine h.finish _ ⟨rfl, rfl⟩ ?_ (.inl ⟨hF, .present k i size hgood hkind hfile ?_⟩) fun hs => ?_
  · intro m hm
    simp only [view, World.finish, get_put_ne _ _ hm]
    rfl
  · simp [view, World.finish]
  have hsized := h.sized_self hs
  have hsize : w.size i = size ∧ ∀ o, k = .snapshot o → size ≠ 0 := by
    cases k with
    | volume => exact ⟨hsized.2, by simp⟩
    | snapshot d => exact ⟨hsized.2.1, fun _ _ => hsized.2.2⟩
  constructor
  · intro n k' s j hn hj
    rcases get_put_eq_some.1 hn with ⟨rfl, heq⟩ | ⟨-, hn⟩
    · cases heq
      cases hi.symm.trans hj
      exact hsize.1
    · exact (h.store hs).size n k' s j hn hj
  · intro n o s hn
    rcases get_put_eq_some.1 hn with ⟨rfl, heq⟩ | ⟨-, hn⟩
    · obtain ⟨hk, rfl⟩ := Prod.mk.inj heq
      exact hsize.2 o hk
    · exact (h.store hs).nonempty n o s hn

end Actions

end CubeSandbox.Reflink
