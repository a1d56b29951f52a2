import CubeSandbox.HostDirModel

/-!
Clean-up of host directories removes nothing of the host.

The binds of a sandbox stand side by side in its directory when no name of a source leads up and
none is bound at, above or below another one. A walk then meets every one of them: each mount lies
behind a directory that the walk has yet to visit. When the walk is done, nothing
is mounted in the directory of the sandbox, and the removal stays in the host's own tree.
-/

namespace CubeSandbox.HostDir

open GoText GoPath MountTable List Option Runs Tbl

/-- Binds stay in the directory of their sandbox, no directory bound for a sandbox loses anything to
its clean-up, and clean-up keeps away from other sandboxes. -/
structure Protected (base : Path) (w : World) : Prop where
  inside : ∀ b ∈ w.targets, sandboxDir base b.1 <+: b.2 ∧ b.2 ≠ sandboxDir base b.1
  kept : ∀ b ∈ w.lost, b ∉ w.bound
  apart : ∀ b ∈ w.touched, ∀ sb, sb ≠ b.1 → ¬ Overlap b.2 (sandboxDir base sb)

/-- No name of a source leads up, the places of the sources are apart from each other, and the
sources are outside the sandbox's directory. -/
structure Plain (base : Path) (sb : Bytes) (sources : List Source) : Prop where
  names : ∀ s ∈ sources, dotDot ∉ split s.name
  apart : ∀ s ∈ sources, ¬ Overlap s.hostPath (sandboxDir base sb)
  flat : sources.Pairwise fun s t => ¬ Overlap (bindDest base sb s) (bindDest base sb t)

/-- Requests are plain, and no mount that was given up takes effect while its sandbox is cleaned
up. -/
def Orderly (base : Path) (w : World) : Event → Prop
  | .create sb sources => Plain base sb sources
  | .land i => ∀ m ∈ w.late[i]?, ∀ c ∈ w.cleanups, c.1 = m.source.1 → c.2 = .ended
  | _ => True

variable {s : Source} {m : Bind} {p : Path} {x : Sandbox} {rest : List Source} {n : Nat}

section Paths

variable {base : Path} {sb : Bytes}

lemma prefix_leadFrom {cs : List Bytes} (h : dotDot ∉ cs) : p <+: leadFrom p cs := by
  induction cs generalizing p with
  | nil => exact prefix_refl p
  | cons c cs ih =>
    rw [mem_cons, not_or] at h
    have hc : p <+: enter p c := by
      unfold enter
      split_ifs with h1 h2
      · exact prefix_refl p
      · exact absurd h2.symm h.1
      · exact prefix_append p [c]
    exact hc.trans (ih h.2)

/-- A bind inside of the directory of its sandbox. -/
def Inside (base : Path) (m : Bind) : Prop :=
  sandboxDir base m.source.1 <+: m.target ∧ m.target ≠ sandboxDir base m.source.1

lemma Inside.length (h : Inside base m) : base.length + 1 < m.target.length := by
  obtain ⟨⟨r, hr⟩, hne⟩ := h
  cases r with
  | nil => exact absurd (by simpa using hr.symm) hne
  | cons c r => simp [← hr, sandboxDir]

lemma bindDest_inside (h : dotDot ∉ split s.name) :
    Inside base ⟨bindDest base sb s, (sb, s.hostPath)⟩ := by
  have hpre : base ++ [sb, roStr s.readOnly] <+: bindDest base sb s := prefix_leadFrom h
  have hdir : sandboxDir base sb <+: base ++ [sb, roStr s.readOnly] :=
    ⟨[roStr s.readOnly], by simp [sandboxDir]⟩
  refine ⟨hdir.trans hpre, fun heq => ?_⟩
  have hlen := hpre.length_le
  rw [show bindDest base sb s = sandboxDir base sb from heq] at hlen
  simp [sandboxDir] at hlen

lemma eq_of_sandboxDir {sb sb' : Bytes} (h : sandboxDir base sb <+: p)
    (h' : sandboxDir base sb' <+: p) : sb = sb' := by
  have heq : sandboxDir base sb = sandboxDir base sb' :=
    (prefix_of_prefix_length_le h h' (by simp [sandboxDir])).eq_of_length
      (by simp [sandboxDir])
  simpa [sandboxDir] using heq

lemma Inside.owner (h : Inside base m) (hsb : sandboxDir base sb <+: m.target) :
    m.source.1 = sb := eq_of_sandboxDir h.1 hsb

lemma Inside.owner_eq {n : Bind} (hm : Inside base m) (hn : Inside base n)
    (h : Overlap m.target n.target) : m.source.1 = n.source.1 := by
  rcases h with h | h
  · exact eq_of_sandboxDir (hm.1.trans h) hn.1
  · exact hm.owner (hn.1.trans h)

end Paths

structure Inv (base : Path) (w : World) : Prop where
  shaped : ∀ m ∈ w.mounts ++ w.late, Inside base m
  distinct : ((w.mounts ++ w.late).map Mount.target).Nodup
  flat : ∀ m ∈ w.mounts ++ w.late, ∀ n ∈ w.mounts ++ w.late, m.target <+: n.target →
    m.target = n.target
  known : ∀ m ∈ w.mounts ++ w.late, w.sandboxes.get m.source.1 ≠ none
  todo : ∀ sb x sources, w.sandboxes.get sb = some x → x.todo = some sources →
    Plain base sb sources ∧
      ∀ m ∈ w.mounts ++ w.late, ∀ s ∈ sources, ¬ Overlap m.target (bindDest base sb s)
  settled : ∀ c ∈ w.cleanups, c.2 ≠ .ended → ∃ x, w.sandboxes.get c.1 = some x ∧ x.todo = none
  made : ∀ m ∈ w.mounts, m.target ∈ w.dirs
  closed : ∀ p ∈ w.dirs, ∀ sb q, sandboxDir base sb <+: q → q <+: p → q ∈ w.dirs
  walked : ∀ c ∈ w.cleanups, ∀ todo, c.2 = .walk todo → ∀ q ∈ todo, sandboxDir base c.1 <+: q
  ahead : ∀ c ∈ w.cleanups, ∀ todo, c.2 = .walk todo → ∀ m ∈ w.mounts, m.source.1 = c.1 →
    ∃ q ∈ todo, q <+: m.target
  clear : ∀ c ∈ w.cleanups, c.2 = .remove → ∀ m ∈ w.mounts, m.source.1 ≠ c.1
  unbound : ∀ b ∈ w.bound, ¬ Overlap b.2 (sandboxDir base b.1)
  inside : ∀ b ∈ w.targets, sandboxDir base b.1 <+: b.2 ∧ b.2 ≠ sandboxDir base b.1
  touched : ∀ b ∈ w.touched, sandboxDir base b.1 <+: b.2
  lost : w.lost = []

section Invariant

variable {base : Path} {w : World} {sb : Bytes}

lemma inv_init : Inv base World.init where
  shaped := nofun
  distinct := nodup_nil
  flat := nofun
  known := nofun
  todo := by simp [World.init]
  settled := nofun
  made := nofun
  closed := nofun
  walked := nofun
  ahead := nofun
  clear := nofun
  unbound := nofun
  inside := nofun
  touched := nofun
  lost := rfl

lemma Inv.isProtected (h : Inv base w) : Protected base w where
  inside := h.inside
  kept := by simp [h.lost]
  apart b hb sb hne hover := by
    have hdir := h.touched b hb
    rcases hover with hover | hover
    · exact hne (eq_of_sandboxDir (prefix_refl _) (hdir.trans hover))
    · exact hne (eq_of_sandboxDir hover hdir)

lemma own_of_free (hp : ∀ m ∈ w.mounts, ¬ m.target <+: p) : w.own p = true := by
  rw [World.own, Table.through_eq_none hp]
  rfl

section

variable (h : Inv base w)
include h

lemma Inv.put (htodo : ∀ sources, x.todo = some sources → Plain base sb sources ∧
      ∀ m ∈ w.mounts ++ w.late, ∀ s ∈ sources, ¬ Overlap m.target (bindDest base sb s))
    (hfree : x.todo = none ∨ ∀ c ∈ w.cleanups, c.1 = sb → c.2 = .ended) :
    Inv base { w with sandboxes := w.sandboxes.put sb x } :=
  { h with
    known := fun m hm => by
      rw [get_put]
      split
      · simp
      · exact h.known m hm
    todo := fun sb' x' sources hx' hs => by
      obtain ⟨rfl, rfl⟩ | ⟨-, hx'⟩ := get_put_eq_some.1 hx'
      · exact htodo sources hs
      · exact h.todo sb' x' sources hx' hs
    settled := fun c hc hrun => by
      by_cases heq : c.1 = sb
      · obtain hnone | hended := hfree
        · exact ⟨x, by simp [heq], hnone⟩
        · exact absurd (hended c hc heq) hrun
      · obtain ⟨x', hx', hnone⟩ := h.settled c hc hrun
        exact ⟨x', by simpa [get_put, heq] using hx', hnone⟩ }

lemma Inv.setTodo : Inv base (w.setTodo sb none) :=
  h.put (fun _ hs => by cases hs) (.inl rfl)

lemma Inv.uncleaned {sources : List Source} (hx : w.sandboxes.get sb = some x)
    (ht : x.todo = some sources) : ∀ c ∈ w.cleanups, c.1 = sb → c.2 = .ended := by
  intro c hc heq
  by_contra hne
  obtain ⟨x', hx', hnone⟩ := h.settled c hc hne
  rw [heq, hx] at hx'
  cases hx'
  rw [ht] at hnone
  cases hnone

lemma Inv.record (hx : w.sandboxes.get sb = some x) (ht : x.todo = some (s :: rest)) :
    Inv base (w.record base sb s) ∧ bindDest base sb s ∈ (w.record base sb s).dirs := by
  obtain ⟨hplain, hnew⟩ := h.todo sb x _ hx ht
  -- the target and what is above it are not inside of a mount
  have hown : ∀ q, q <+: bindDest base sb s → w.own q = true := by
    intro q hq
    refine own_of_free fun m hm hpre => ?_
    exact hnew m (mem_append_left _ hm) s (by simp) (.inl (hpre.trans hq))
  have hmem (q : Path) (hq : q <+: bindDest base sb s) :
      q ∈ (w.mkdirAll (bindDest base sb s)).dirs := by
    by_cases hin : q ∈ w.dirs
    · exact mem_append_right _ hin
    · exact mem_append_left _ (mem_filter.2 ⟨(mem_inits _ _).2 hq, by simp [hown q hq, hin]⟩)
  have hput : Inv base { w with sandboxes := w.sandboxes.put sb ⟨x.todo, true⟩ } := by
    refine h.put (fun sources hs => ?_) (.inr (h.uncleaned hx ht))
    cases ht.symm.trans hs
    exact ⟨hplain, hnew⟩
  have hrec : (w.sandboxes.get sb).bind Sandbox.todo = x.todo := by rw [hx]; rfl
  refine ⟨?_, hmem _ (prefix_refl _)⟩
  unfold World.record
  rw [hrec]
  exact { hput with
    made := fun m hm => mem_append_right _ (h.made m hm)
    closed := fun p hp sb' q hdir hq => by
      rcases mem_append.1 hp with hp | hp
      · exact hmem q (hq.trans ((mem_inits _ _).1 (mem_filter.1 hp).1))
      · exact mem_append_right _ (h.closed p hp sb' q hdir hq)
    unbound := fun b hb => by
      rcases mem_cons.1 hb with rfl | hb
      · exact hplain.apart s (by simp)
      · exact h.unbound b hb
    inside := fun b hb => by
      rcases mem_cons.1 hb with rfl | hb
      · exact bindDest_inside (hplain.names s (by simp))
      · exact h.inside b hb }

lemma Inv.mount {i : Nat} (hm : w.late[i]? = some m)
    (hfree : ∀ c ∈ w.cleanups, c.1 = m.source.1 → c.2 = .ended) (hmade : m.target ∈ w.dirs) :
    Inv base (({ w with late := w.late.eraseIdx i } : World).mount base m) := by
  have hshape := h.shaped m (mem_append_right _ (mem_of_getElem? hm))
  have hperm : (m :: (w.mounts ++ w.late.eraseIdx i)).Perm (w.mounts ++ w.late) := by
    obtain ⟨hlt, rfl⟩ := List.getElem?_eq_some_iff.1 hm
    exact perm_middle.symm.trans ((getElem_cons_eraseIdx_perm hlt).append_left _)
  have hlost : (w.cleanups.filterMap fun c =>
      if c.2 = .remove ∧ sandboxDir base c.1 <+: m.target then some (c.1, m.source.2) else none) =
      [] := by
    rw [filterMap_eq_nil_iff]
    intro c hc
    refine if_neg fun ⟨hrem, hdir⟩ => ?_
    rw [hfree c hc (hshape.owner hdir).symm] at hrem
    cases hrem
  exact { h with
    shaped := fun n hn => h.shaped n (hperm.subset hn)
    distinct := (hperm.map _).nodup_iff.2 h.distinct
    flat := fun n hn n' hn' => h.flat n (hperm.subset hn) n' (hperm.subset hn')
    known := fun n hn => h.known n (hperm.subset hn)
    todo := fun sb x sources hx hs => by
      obtain ⟨hplain, hother⟩ := h.todo sb x sources hx hs
      exact ⟨hplain, fun n hn => hother n (hperm.subset hn)⟩
    made := fun n hn => by
      rcases mem_cons.1 hn with rfl | hn
      · exact hmade
      · exact h.made n hn
    ahead := fun c hc todo hw n hn howner => by
      rcases mem_cons.1 hn with rfl | hn
      · rw [hfree c hc howner.symm] at hw
        cases hw
      · exact h.ahead c hc todo hw n hn howner
    clear := fun c hc hr n hn => by
      rcases mem_cons.1 hn with rfl | hn
      · intro howner
        rw [hfree c hc howner.symm] at hr
        cases hr
      · exact h.clear c hc hr n hn
    lost := by
      change _ ++ w.lost = []
      rw [hlost, h.lost]
      rfl }

lemma Inv.giveUp (hshape : Inside base m)
    (hnew : ∀ n ∈ w.mounts ++ w.late, ¬ Overlap n.target m.target)
    (hknown : w.sandboxes.get m.source.1 ≠ none)
    (htodo : ∀ sb x sources, w.sandboxes.get sb = some x → x.todo = some sources →
      ∀ s ∈ sources, ¬ Overlap m.target (bindDest base sb s)) :
    Inv base { w with late := m :: w.late } := by
  have hmem {n : Bind} (hn : n ∈ w.mounts ++ m :: w.late) : n = m ∨ n ∈ w.mounts ++ w.late := by
    simp only [mem_append, mem_cons] at hn ⊢
    tauto
  exact { h with
    shaped := fun n hn => (hmem hn).elim (fun heq => heq ▸ hshape) (h.shaped n)
    distinct := by
      rw [map_append, map_cons, nodup_middle, ← map_append]
      refine nodup_cons.2 ⟨fun hin => ?_, h.distinct⟩
      obtain ⟨n, hn, heq⟩ := mem_map.1 hin
      exact hnew n hn (.inl (heq ▸ prefix_refl _))
    flat := fun n hn n' hn' hpre => by
      rcases hmem hn with rfl | hold <;> rcases hmem hn' with rfl | hold'
      · rfl
      · exact absurd (.inr hpre) (hnew n' hold')
      · exact absurd (.inl hpre) (hnew n hold)
      · exact h.flat n hold n' hold' hpre
    known := fun n hn => (hmem hn).elim (fun heq => heq ▸ hknown) (h.known n)
    todo := fun sb x sources hx hs => by
      obtain ⟨hplain, hother⟩ := h.todo sb x sources hx hs
      exact ⟨hplain, fun n hn => (hmem hn).elim (fun heq => heq ▸ htodo sb x sources hx hs)
        (hother n)⟩ }

lemma Inv.next (hx : w.sandboxes.get sb = some x) (ht : x.todo = some (s :: rest)) :
    Inside base ⟨bindDest base sb s, (sb, s.hostPath)⟩ ∧
      (∀ n ∈ w.mounts ++ w.late, ¬ Overlap n.target (bindDest base sb s)) ∧
      (∀ s' ∈ rest, ¬ Overlap (bindDest base sb s) (bindDest base sb s')) ∧
      ∀ sb' x' sources, sb' ≠ sb → w.sandboxes.get sb' = some x' → x'.todo = some sources →
        ∀ s' ∈ sources, ¬ Overlap (bindDest base sb s) (bindDest base sb' s') := by
  obtain ⟨hplain, hnew⟩ := h.todo sb x _ hx ht
  have hin : Inside base ⟨bindDest base sb s, (sb, s.hostPath)⟩ :=
    bindDest_inside (hplain.names s (by simp))
  refine ⟨hin, fun n hn => hnew n hn s (by simp), (pairwise_cons.1 hplain.flat).1,
    fun sb' x' sources hne hx' ht' s' hs' hover => hne ?_⟩
  obtain ⟨hplain', -⟩ := h.todo sb' x' sources hx' ht'
  exact (hin.owner_eq (bindDest_inside (hplain'.names s' hs')) hover).symm

lemma Inv.bindNext (hx : w.sandboxes.get sb = some x)
    (ht : x.todo = some (s :: rest)) (o : BindEnd) : Inv base (bindNext base w sb s rest o) := by
  obtain ⟨hrec, hdir⟩ := h.record hx ht
  obtain ⟨hshape, hnew, hrest, hother⟩ := h.next hx ht
  have hrun := h.uncleaned hx ht
  -- the record with the sources that are left, before the mount
  have hafter (todo : Option (List Source))
      (hsub : ∀ sources, todo = some sources → sources = rest) :
      Inv base ((w.record base sb s).setTodo sb todo) ∧
        ∀ sb' x' sources, ((w.record base sb s).setTodo sb todo).sandboxes.get sb' = some x' →
          x'.todo = some sources →
            ∀ s' ∈ sources, ¬ Overlap (bindDest base sb s) (bindDest base sb' s') := by
    obtain ⟨hplain, hnew'⟩ := h.todo sb x _ hx ht
    refine ⟨hrec.put (fun sources hs => ?_) (.inr hrun), fun sb' x' sources hx' ht' => ?_⟩
    · obtain rfl := hsub sources hs
      exact ⟨⟨fun s' hs' => hplain.names s' (by simp [hs']),
        fun s' hs' => hplain.apart s' (by simp [hs']), (pairwise_cons.1 hplain.flat).2⟩,
        fun m hm s' hs' => hnew' m hm s' (by simp [hs'])⟩
    obtain ⟨rfl, rfl⟩ | ⟨hne, hx'⟩ := get_put_eq_some.1 hx'
    · obtain rfl := hsub sources ht'
      exact hrest
    obtain ⟨rfl, -⟩ | ⟨-, hx'⟩ := get_put_eq_some.1 hx'
    · exact absurd rfl hne
    · exact hother sb' x' sources hne hx' ht'
  have hknown (todo : Option (List Source)) :
      ((w.record base sb s).setTodo sb todo).sandboxes.get sb ≠ none := by
    simp [World.setTodo]
  cases o with
  | mkdirFailed => exact h.setTodo
  | failed => exact hrec.setTodo
  | gaveUp =>
    obtain ⟨hi, htodo⟩ := hafter none (fun _ hs => by cases hs)
    exact hi.giveUp hshape hnew (hknown none) htodo
  | done =>
    obtain ⟨hi, htodo⟩ := hafter (some rest) (fun _ hs => (some.inj hs).symm)
    exact (hi.giveUp hshape hnew (hknown _) htodo).mount (i := 0) rfl hrun hdir
  | remountFailed =>
    obtain ⟨hi, htodo⟩ := hafter none (fun _ hs => by cases hs)
    exact (hi.giveUp hshape hnew (hknown _) htodo).mount (i := 0) rfl hrun hdir

lemma Inv.land {i : Nat} (hm : w.late[i]? = some m)
    (hfree : ∀ c ∈ w.cleanups, c.1 = m.source.1 → c.2 = .ended)
    (hpath : ¬ (w.own m.target = true ∧ m.target ∉ w.dirs)) :
    Inv base (({ w with late := w.late.eraseIdx i } : World).mount base m) := by
  refine h.mount hm hfree ?_
  by_contra hout
  have hin : m ∈ w.late := mem_of_getElem? hm
  have hnd := h.distinct
  rw [map_append, nodup_append] at hnd
  -- nothing is mounted at the target
  refine hpath ⟨own_of_free fun n hn hpre => ?_, hout⟩
  have hflat := h.flat n (mem_append_left _ hn) m (mem_append_right _ hin) hpre
  exact hnd.2.2 _ (mem_map_of_mem hn) _ (mem_map_of_mem hin) hflat

lemma Inv.stage {cleanups : List (Bytes × Stage)} {t : Stage}
    (hmem : ∀ c ∈ cleanups, c ∈ w.cleanups ∨ c = (sb, t))
    (hset : t ≠ .ended → ∃ x, w.sandboxes.get sb = some x ∧ x.todo = none)
    (hwalk : ∀ todo, t = .walk todo → (∀ q ∈ todo, sandboxDir base sb <+: q) ∧
      ∀ m ∈ w.mounts, m.source.1 = sb → ∃ q ∈ todo, q <+: m.target)
    (hremove : t = .remove → ∀ m ∈ w.mounts, m.source.1 ≠ sb) :
    Inv base { w with cleanups := cleanups } :=
  { h with
    settled := fun c hc hne => by
      obtain hc | rfl := hmem c hc
      · exact h.settled c hc hne
      · exact hset hne
    walked := fun c hc todo hw => by
      obtain hc | rfl := hmem c hc
      · exact h.walked c hc todo hw
      · exact (hwalk todo hw).1
    ahead := fun c hc todo hw => by
      obtain hc | rfl := hmem c hc
      · exact h.ahead c hc todo hw
      · exact (hwalk todo hw).2
    clear := fun c hc hr => by
      obtain hc | rfl := hmem c hc
      · exact h.clear c hc hr
      · exact hremove hr }

lemma Inv.fail : Inv base (w.setStage n sb .ended) :=
  h.stage (fun _ => mem_or_eq_of_mem_set) (absurd rfl) nofun nofun

lemma Inv.unmount (p : Path) (hp : sandboxDir base sb <+: p) :
    Inv base { w with mounts := w.mounts.unmount p, touched := (sb, p) :: w.touched } := by
  have hsub := Table.unmount_sublist w.mounts p
  have hall : (w.mounts.unmount p ++ w.late).Sublist (w.mounts ++ w.late) :=
    hsub.append (List.Sublist.refl _)
  exact { h with
    shaped := fun m hm => h.shaped m (hall.subset hm)
    distinct := h.distinct.sublist (hall.map _)
    flat := fun m hm n hn => h.flat m (hall.subset hm) n (hall.subset hn)
    known := fun m hm => h.known m (hall.subset hm)
    todo := fun sb x sources hx hs => by
      obtain ⟨hplain, hother⟩ := h.todo sb x sources hx hs
      exact ⟨hplain, fun m hm => hother m (hall.subset hm)⟩
    made := fun m hm => h.made m (hsub.subset hm)
    ahead := fun c hc todo hw m hm => h.ahead c hc todo hw m (hsub.subset hm)
    clear := fun c hc hr m hm => h.clear c hc hr m (hsub.subset hm)
    touched := fun b hb => by
      rcases mem_cons.1 hb with rfl | hb
      · exact hp
      · exact h.touched b hb }

lemma Inv.mem_children (hm : m ∈ w.mounts) (hdir : sandboxDir base sb <+: p)
    (hpre : p <+: m.target) (hne : p ≠ m.target) : ∃ c ∈ w.children p, p ++ [c] <+: m.target := by
  obtain ⟨r, hr⟩ := hpre
  cases r with
  | nil => exact absurd (by simpa using hr) hne
  | cons c r =>
    have hnext : p ++ [c] <+: m.target := ⟨r, by simpa using hr⟩
    have hin := h.closed m.target (h.made m hm) sb (p ++ [c])
      (hdir.trans (prefix_append p [c])) hnext
    exact ⟨c, mem_filterMap.2 ⟨p ++ [c], hin, by simp⟩, hnext⟩

/-- **One directory of a walk.** -/
lemma Inv.visit {todo : List Path} {children : List Bytes} {w' : World}
    (hn : w.cleanups[n]? = some (sb, .walk (p :: todo)))
    (hv : visit base w n sb p todo children = some w') : Inv base w' := by
  have hc := mem_of_getElem? hn
  have hset := h.settled _ hc nofun
  have hwalked := h.walked _ hc _ rfl
  have hahead := h.ahead _ hc _ rfl
  have hp : sandboxDir base sb <+: p := hwalked p (by simp)
  have hflat : ∀ m ∈ w.mounts, ∀ m' ∈ w.mounts, m.target <+: m'.target → m.target = m'.target :=
    fun m hm m' hm' => h.flat m (mem_append_left _ hm) m' (mem_append_left _ hm')
  unfold HostDir.visit at hv
  split_ifs at hv with h1 h2
  · -- a mount: it is gone, and the others lie behind other directories
    cases hv
    obtain ⟨-, htarget⟩ := h1
    obtain ⟨m0, hm0, hm0t⟩ := Table.isTarget_iff.1 htarget
    have hnd : (w.mounts.map Mount.target).Nodup :=
      h.distinct.sublist ((sublist_append_left _ _).map _)
    refine (h.unmount p hp).stage (fun _ => mem_or_eq_of_mem_set) (fun _ => hset)
      (fun todo' heq => ?_) nofun
    cases heq
    refine ⟨fun q hq => hwalked q (by simp [hq]), fun m hm howner => ?_⟩
    have hold := (Table.unmount_sublist w.mounts p).subset hm
    obtain ⟨q, hq, hpre⟩ := hahead m hold howner
    rcases mem_cons.1 hq with rfl | hq
    · rw [← hm0t] at hpre
      exact absurd ((hflat m0 hm0 m hold hpre).symm.trans hm0t)
        (Table.target_ne_of_mem_unmount hnd hflat hm)
    · exact ⟨q, hq, hpre⟩
  -- a directory: what was behind it is behind one of its children
  cases hv
  refine h.stage (fun _ => mem_or_eq_of_mem_set) (fun _ => hset) (fun todo' heq => ?_) nofun
  cases heq
  refine ⟨fun q hq => ?_, fun m hm howner => ?_⟩
  · rcases mem_append.1 hq with hq | hq
    · obtain ⟨c, -, rfl⟩ := mem_map.1 hq
      exact hp.trans (prefix_append p [c])
    · exact hwalked q (by simp [hq])
  obtain ⟨q, hq, hpre⟩ := hahead m hm howner
  rcases mem_cons.1 hq with rfl | hq
  · have hne : q ≠ m.target := by
      rintro rfl
      refine h1 ⟨?_, Table.isTarget_iff.2 ⟨m, hm, rfl⟩⟩
      rw [← howner]
      exact (h.shaped m (mem_append_left _ hm)).2
    have hown : w.own q = true := by
      refine own_of_free fun m' hm' hpre' => hne ?_
      have heq := hflat m' hm' m hm (hpre'.trans hpre)
      exact hpre.eq_of_length_le (heq ▸ hpre'.length_le)
    have hchildren : children.Perm (w.children q) := by
      by_contra hdiff
      exact h2 ⟨hown, hdiff⟩
    obtain ⟨c, hcin, hnext⟩ := h.mem_children hm hp hpre hne
    exact ⟨q ++ [c], mem_append_left _  (mem_map.2 ⟨c, hchildren.mem_iff.2 hcin, rfl⟩), hnext⟩
  · exact ⟨q, mem_append_right _ hq, hpre⟩

/-- **The removal**: nothing is mounted in the directory of the sandbox when it begins. -/
lemma Inv.removeAll (hn : w.cleanups[n]? = some (sb, .walk [])) :
    Inv base (removeAll base w n sb) := by
  have hc := mem_of_getElem? hn
  have hnone : ∀ m ∈ w.mounts, m.source.1 ≠ sb := by
    intro m hm howner
    obtain ⟨q, hq, -⟩ := h.ahead _ hc _ rfl m hm howner
    cases hq
  have hentered : w.entered base sb = [] := by
    have h1 : (w.mounts.filter fun m => w.mounts.isSeen m &&
        (sandboxDir base sb).isPrefixOf m.target) = [] := by
      rw [filter_eq_nil_iff]
      intro m hm hin
      simp only [Bool.and_eq_true, isPrefixOf_iff_prefix] at hin
      exact hnone m hm ((h.shaped m (mem_append_left _ hm)).owner hin.2)
    have h2 : w.mounts.through (sandboxDir base sb) = none := by
      refine Table.through_eq_none fun m hm hpre => ?_
      have hlen := (h.shaped m (mem_append_left _ hm)).length
      have hle := hpre.length_le
      simp only [sandboxDir, length_append, length_singleton] at hle
      omega
    have h3 : (w.bound.filterMap fun b =>
        if b.1 = sb ∧ Overlap b.2 (sandboxDir base sb) then some b.2 else none) = [] := by
      rw [filterMap_eq_nil_iff]
      intro b hb
      refine if_neg fun ⟨heq, hover⟩ => h.unbound b hb ?_
      rwa [heq]
    rw [World.entered, h1, h2, h3]
    rfl
  have hstage : Inv base (w.setStage n sb .remove) :=
    h.stage (fun _ => mem_or_eq_of_mem_set) (fun _ => h.settled _ hc nofun) nofun fun _ => hnone
  exact { hstage with
    touched := fun b hb => by
      rcases mem_cons.1 hb with rfl | hb
      · exact prefix_refl _
      · exact h.touched b hb
    lost := by
      change (w.entered base sb).map _ ++ w.lost = []
      rw [hentered, h.lost]
      rfl }

lemma Inv.removed (hn : w.cleanups[n]? = some (sb, .remove)) : Inv base (removed base w n sb) := by
  have hclear := h.clear _ (mem_of_getElem? hn) rfl
  have hstage : Inv base (w.setStage n sb .ended) := h.fail
  -- what is below the directory of the sandbox is not inside of a mount
  have hown : ∀ q, sandboxDir base sb <+: q → w.own q = true := by
    intro q hq
    refine own_of_free fun m hm hpre => ?_
    have hshape := h.shaped m (mem_append_left _ hm)
    have hlen : (sandboxDir base sb).length ≤ m.target.length := by
      simpa [sandboxDir] using hshape.length.le
    exact hclear m hm (hshape.owner (prefix_of_prefix_length_le hq hpre hlen))
  have hmem (q : Path) : q ∈ (HostDir.removed base w n sb).dirs ↔
      q ∈ w.dirs ∧ ¬ sandboxDir base sb <+: q := by
    change q ∈ w.dirs.filter _ ↔ _
    rw [mem_filter]
    refine and_congr_right fun _ => ?_
    rw [Bool.not_eq_true', ← Bool.not_eq_true, Bool.and_eq_true, isPrefixOf_iff_prefix]
    exact not_congr ⟨And.right, fun hq => ⟨hown q hq, hq⟩⟩
  exact { hstage with
    made := fun m hm => (hmem _).2 ⟨h.made m hm, fun hdir =>
      hclear m hm ((h.shaped m (mem_append_left _ hm)).owner hdir)⟩
    closed := fun p hp sb' q hdir hq => by
      rw [hmem] at hp
      exact (hmem q).2 ⟨h.closed p hp.1 sb' q hdir hq, fun hin => hp.2 (hin.trans hq)⟩ }

lemma Inv.cleanup (hx : w.sandboxes.get sb = some x) (ht : x.todo = none) :
    Inv base { w with cleanups := w.cleanups ++ [(sb, .walk [sandboxDir base sb])] } := by
  refine h.stage (t := .walk [sandboxDir base sb]) (fun c hc => by simpa using hc)
    (fun _ => ⟨x, hx, ht⟩) (fun todo hw => ?_) nofun
  cases hw
  refine ⟨fun q hq => by rw [mem_singleton.1 hq], fun m hm howner => ?_⟩
  refine ⟨_, mem_singleton_self _, ?_⟩
  obtain rfl : m.source.1 = sb := howner
  exact (h.shaped m (mem_append_left _ hm)).1

lemma Inv.create {sources : List Source} (hnone : w.sandboxes.get sb = none)
    (hplain : Plain base sb sources) :
    Inv base { w with sandboxes := w.sandboxes.put sb ⟨some sources, false⟩ } := by
  refine h.put (fun sources' hs => ?_) (.inr fun c hc heq => ?_)
  · cases hs
    refine ⟨hplain, fun m hm s hs hover => h.known m hm ?_⟩
    rwa [(h.shaped m hm).owner_eq (bindDest_inside (hplain.names s hs)) hover]
  · by_contra hne
    obtain ⟨x, hx, -⟩ := h.settled c hc hne
    rw [heq, hnone] at hx
    cases hx

lemma inv_step {e : Event} {w' : World} (hok : Orderly base w e)
    (hstep : step base w e = some w') : Inv base w' := by
  cases e <;> simp only [step] at hstep
  case create sb sources =>
    split_ifs at hstep with hc
    cases hstep
    exact h.create hc.2 hok
  case stop sb =>
    split_ifs at hstep
    cases hstep
    exact h.setTodo
  case bind sb o =>
    split at hstep <;> try cases hstep
    rename_i s rest htodo
    obtain ⟨x, hx, ht⟩ := bind_eq_some_iff.1 htodo
    split_ifs at hstep
    · cases hstep
      exact h.setTodo
    · cases hstep
      exact h.bindNext hx ht o
  case land i =>
    split at hstep <;> try cases hstep
    rename_i m hm
    split_ifs at hstep with hpath
    cases hstep
    exact h.land hm (hok m hm) hpath
  case cleanup sb =>
    split at hstep <;> try cases hstep
    rename_i infos hx
    split_ifs at hstep
    · cases hstep
      exact h.cleanup hx rfl
    · cases hstep
      exact h
  case visit n children =>
    split at hstep <;> try cases hstep
    exact h.visit (by assumption) hstep
  case remove n =>
    split at hstep <;> cases hstep
    exact h.removeAll (by assumption)
  case removed n =>
    split at hstep <;> cases hstep
    exact h.removed (by assumption)
  case fail n =>
    split at hstep <;> cases hstep
    exact h.fail

end

/-- **Host directories are safe from clean-up** in every run of plain requests. -/
theorem host_dirs_protected (base : Path) (es : List Event) (w : World)
    (hm : Runs.Meets (step base) (Orderly base) World.init es)
    (h : exec (step base) World.init es = some w) : Protected base w :=
  (exec_inv (fun _ _ _ hi hok hs => inv_step hi hok hs) inv_init hm h).isProtected

end Invariant

section Demo

instance (base : Path) (sb : Bytes) (sources : List Source) : Decidable (Plain base sb sources) :=
  decidable_of_iff ((∀ s ∈ sources, dotDot ∉ split s.name) ∧
    (∀ s ∈ sources, ¬ Overlap s.hostPath (sandboxDir base sb)) ∧
    sources.Pairwise fun s t => ¬ Overlap (bindDest base sb s) (bindDest base sb t))
  ⟨fun h => ⟨h.1, h.2.1, h.2.2⟩, fun h => ⟨h.1, h.2, h.3⟩⟩

instance (base : Path) (w : World) : ∀ e, Decidable (Orderly base w e)
  | .create sb sources => inferInstanceAs (Decidable (Plain base sb sources))
  | .land i => inferInstanceAs (Decidable (∀ m ∈ w.late[i]?, ∀ c ∈ w.cleanups, _ → _))
  | .stop _ => .isTrue trivial
  | .bind _ _ => .isTrue trivial
  | .cleanup _ => .isTrue trivial
  | .visit _ _ => .isTrue trivial
  | .remove _ => .isTrue trivial
  | .removed _ => .isTrue trivial
  | .fail _ => .isTrue trivial

def demoBase : Path := [ascii "data", ascii "cubelet", ascii "hostdir"]

def sbA : Bytes := ascii "a"

def src (name host : String) : Source := ⟨ascii name, ascii host, false⟩

/-- A clean-up of `a`, whose sources were bound under the names. -/
def cleans (n : Nat) (names : List String) : List Event :=
  [.cleanup sbA, .visit n [ascii "rw"], .visit n (names.map ascii)] ++
    names.map (fun _ => .visit n []) ++ [.remove n, .removed n]

/-- Two sources: the second command is given up and takes effect before the clean-up. -/
def tidy : List Event :=
  [.create sbA [src "x" "/srv/x", src "y" "/srv/y"], .bind sbA .done, .bind sbA .gaveUp, .land 0] ++
    cleans 0 ["y", "x"]

/-- **The condition is met** by a run that cleans up both. -/
theorem tidy_protected : ∃ w, exec (step demoBase) World.init tidy = some w ∧
    w.bound.length = 2 ∧ w.mounts.length = 0 ∧ Protected demoBase w := by
  refine leads (fun w => (w.bound.length, w.mounts.length)) (2, 0)
    (by decide +kernel) fun w hw hfacts => ?_
  exact ⟨congrArg Prod.fst hfacts, congrArg Prod.snd hfacts,
    host_dirs_protected demoBase tidy w (by decide +kernel) hw⟩

/-- Two sources of one name: the walk unmounts the upper one. -/
def sameName : List Event :=
  [.create sbA [src "x" "/srv/x", src "x" "/srv/y"], .bind sbA .done, .bind sbA .done, .stop sbA] ++
    cleans 0 ["x"]

/-- A source is bound below another one that comes later and hides it. -/
def nested : List Event :=
  [.create sbA [src "x/y" "/srv/x", src "x" "/srv/y"], .bind sbA .done, .bind sbA .done,
    .stop sbA] ++ cleans 0 ["x"]

/-- A name that leads out of the directory of the sandbox. -/
def leadsOut : List Event :=
  [.create sbA [src "../../b" "/srv/x"], .bind sbA .done]

/-- A mount takes effect after the walk. -/
def tooLate : List Event :=
  [.create sbA [src "x" "/srv/x"], .bind sbA .gaveUp, .cleanup sbA, .visit 0 [ascii "rw"],
    .visit 0 [ascii "x"], .visit 0 [], .land 0, .remove 0]

/-- A directory that was bound for `a` and has lost something. -/
def victim : Bytes × Path := (sbA, [ascii "srv", ascii "x"])

/-- All targets are in the directory of `a`; the directory was bound; it has lost something. -/
def facts (w : World) : Bool × Bool × Bool :=
  (w.targets.all fun b => (sandboxDir demoBase sbA).isPrefixOf b.2, decide (victim ∈ w.bound),
    decide (victim ∈ w.lost))

lemma harmed : [sameName, nested, leadsOut, tooLate].map
      (fun es => (exec (step demoBase) World.init es).map facts) =
    [some (true, true, true), some (true, true, true), some (false, true, false),
      some (true, true, true)] := by
  decide +kernel

/-- **A host directory is emptied** by the clean-up of a sandbox with two sources of one name. -/
theorem host_dir_lost : ¬ ∀ (base : Path) (es : List Event) (w : World),
    exec (step base) World.init es = some w → Protected base w := by
  intro hall
  obtain ⟨w, hw, hfacts⟩ := map_eq_some_iff.1 (List.cons.inj harmed).1
  simp only [facts, Prod.mk.injEq, decide_eq_true_eq] at hfacts
  exact (hall demoBase sameName w hw).kept victim hfacts.2.2 hfacts.2.1

end Demo

end CubeSandbox.HostDir
