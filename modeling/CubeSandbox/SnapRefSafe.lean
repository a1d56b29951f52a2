import CubeSandbox.SnapOpsExclude
import CubeSandbox.SnapRefModel

/-!
No snapshot in use is deleted.

A bound sandbox has its reference, or the create or rollback that bound it is about to write it.
So a delete that finds no reference finds no bound sandbox, unless one is waiting for its
reference; and until the delete ends no rollback to the snapshot can be at work, since the jobs
exclude each other.
-/

namespace CubeSandbox.SnapOps

open List Option

/-- A step moves one call, from a place that leads there. -/
structure Turn (w w' : World) (e : Event) (i : Nat) (c : Call) (pc : Pc) : Prop where
  call : w.calls[i]? = some c
  calls : w'.calls = w.calls.set i { c with pc := pc }
  jobs : ∀ j ∈ w'.jobs, j.status = .pending → j ∈ w.jobs ∨
    ((∃ a, c.pc = .insert a) ∧ j.sandbox = c.work.sandbox ∧
      ∀ s, c.work.snapshot = some s → j.snapshot = s)
  late : c.pc.early = true ∨ pc.early = false
  number : pc = .number → c.pc = .checkSnapshot
  insert : ∀ a, pc = .insert a → c.work.operation = .create ∨ (c.pc = .number ∧ e = .number i)
  work : ∀ id, pc = .work id → c.pc = .claim id ∧ ∃ j ∈ w.jobs, j.id = id ∧ j.status = .pending
  atWork : ∀ id, c.pc = .work id → c.work.operation = .rollback →
    (∃ ok, e = .finish i ok) ∨ e = .giveUp i

section

variable {w w' : World} {e : Event} {i : Nat} {c : Call}

lemma turn_of_early (hc : w.calls[i]? = some c) (he : c.pc.early = true) {pc : Pc}
    (hnum : pc = .number → c.pc = .checkSnapshot)
    (hins : ∀ a, pc = .insert a → c.work.operation = .create) (hwork : ∀ id, pc ≠ .work id) :
    Turn w (w.setPc i c pc) e i c pc where
  call := hc
  calls := rfl
  jobs j hj _ := .inl hj
  late := .inl he
  number := hnum
  insert a ha := .inl (hins a ha)
  work id hid := absurd hid (hwork id)
  atWork id hid := by
    rw [hid] at he
    cases he

lemma turn_done (hc : w.calls[i]? = some c)
    (hcalls : w'.calls = w.calls.set i { c with pc := .done })
    (hjobs : ∀ j ∈ w'.jobs, j.status = .pending → j ∈ w.jobs)
    (hwork : ∀ id, c.pc = .work id → c.work.operation = .rollback →
      (∃ ok, e = .finish i ok) ∨ e = .giveUp i) : Turn w w' e i c .done where
  call := hc
  calls := hcalls
  jobs j hj hp := .inl (hjobs j hj hp)
  late := .inr rfl
  number := nofun
  insert := nofun
  work := nofun
  atWork := hwork

lemma mem_of_setStatus {jobs : List Job} {id : Nat} {st : Status} (hst : st ≠ .pending) {j : Job}
    (hj : j ∈ setStatus jobs id st) (hp : j.status = .pending) : j ∈ jobs := by
  obtain ⟨k, hk, rfl⟩ := mem_map.1 hj
  by_cases hid : k.id = id
  · rw [if_pos hid] at hp
    exact absurd hp hst
  · rwa [if_neg hid]

lemma turn_of_move (hc : w.calls[i]? = some c) (m : Move w i c e w') :
    ∃ pc, Turn w w' e i c pc := by
  have hearly : ∀ {pc : Pc}, c.pc = pc → pc.early = true → c.pc.early = true :=
    fun hpc he => hpc ▸ he
  have hno : ∀ {pc : Pc}, c.pc = pc → (∀ id, pc ≠ .work id) → ∀ id, c.pc = .work id →
      c.work.operation = .rollback → (∃ ok, e = .finish i ok) ∨ e = .giveUp i :=
    fun hpc hne id hid => absurd (hpc.symm.trans hid) (hne id)
  cases m with
  | enter hpc => exact ⟨_, turn_of_early hc (hearly hpc rfl) nofun nofun nofun⟩
  | found hpc => exact ⟨_, turn_of_early hc (hearly hpc rfl) nofun nofun nofun⟩
  | fresh hpc =>
    refine ⟨_, turn_of_early hc (hearly hpc rfl) ?_ ?_ ?_⟩ <;> cases c.work <;> nofun
  | defined hpc =>
    refine ⟨_, turn_of_early hc (hearly hpc rfl) ?_ ?_ ?_⟩ <;> cases c.work <;> nofun
  | sandboxFree hpc =>
    refine ⟨_, turn_of_early hc (hearly hpc rfl) ?_ ?_ ?_⟩
    · cases c.work <;> nofun
    · cases c.work <;> first | exact fun _ _ => rfl | nofun
    · cases c.work <;> nofun
  | snapshotFree hpc => exact ⟨_, turn_of_early hc (hearly hpc rfl) (fun _ => hpc) nofun nofun⟩
  | number hpc =>
    exact ⟨_, hc, rfl, fun j hj _ => .inl hj, .inr rfl, nofun, fun _ _ => .inr ⟨hpc, rfl⟩, nofun,
      hno hpc nofun⟩
  | @insert attempt snap hpc hnew =>
    refine ⟨_, hc, rfl, fun j hj _ => ?_, .inr rfl, nofun, nofun, nofun, hno hpc nofun⟩
    rcases mem_append.1 hj with hj | hj
    · exact .inl hj
    · obtain rfl := mem_singleton.1 hj
      exact .inr ⟨⟨attempt, hpc⟩, rfl, fun s hs => congrArg (·.getD snap) hs⟩
  | @claim j hpc hj hp =>
    refine ⟨_, hc, rfl, fun k hk hkp => .inl (mem_of_setStatus (by nofun) hk hkp), .inr rfl, nofun,
      nofun, fun id hid => ?_, hno hpc nofun⟩
    cases hid
    exact ⟨hpc, j, hj, rfl, hp⟩
  | settle hpc hop =>
    exact ⟨_, hc, rfl, fun j hj _ => .inl hj, .inr rfl, nofun, nofun, nofun,
      fun _ _ hr => absurd hr hop⟩
  | @finish id ok hpc =>
    exact ⟨_, turn_done hc rfl
      (fun j hj hp => mem_of_setStatus (by cases ok <;> decide) hj hp) fun _ _ _ => .inl ⟨ok, rfl⟩⟩
  | dropDefinition hpc hw =>
    exact ⟨_, hc, rfl, fun j hj _ => .inl hj, .inr rfl, nofun, nofun, nofun,
      fun _ _ hr => by rw [hw] at hr; cases hr⟩
  | purge hpc =>
    exact ⟨_, turn_done hc rfl (fun j hj _ => (mem_filter.1 hj).1) (hno hpc nofun)⟩
  | done he =>
    refine ⟨_, turn_done hc rfl (fun j hj _ => hj) fun id hid _ => ?_⟩
    exact .inr (he.resolve_right fun hne => hne id hid)

/-- **What a step does to the calls**: one moves, a new one comes, a process stops, or all stay. -/
lemma step_turn (h : step w e = some w') : (∃ i c pc, Turn w w' e i c pc) ∨
    (∃ p req work, w' = { w with calls := w.calls ++ [⟨p, req, work, .waiting⟩] }) ∨
    (∃ p, e = .stop p) ∨ (w'.calls = w.calls ∧ w'.jobs = w.jobs) := by
  cases he : e.call with
  | some i =>
    obtain ⟨c, hc⟩ := exists_call he h
    exact .inl ⟨i, c, turn_of_move hc (move_of_step he hc h)⟩
  | none =>
    cases e with
    | submit p req work =>
      cases h
      exact .inr (.inl ⟨p, req, work, rfl⟩)
    | stop p => exact .inr (.inr (.inl ⟨p, rfl⟩))
    | failDefinition snap =>
      simp only [step] at h
      split at h <;> try cases h
      split_ifs at h
      cases h
      exact .inr (.inr (.inr ⟨rfl, rfl⟩))
    | _ => cases he

end

end CubeSandbox.SnapOps

namespace CubeSandbox.SnapRef

open GoText Runs List Option
open Tbl (get_put_self get_put_ne mem_pairs get_put_eq_some)
open Multiset (mem_coe)
open Slots (set_cases get_set mem_set_cases)

/-! ### A pass over a node -/

def Holds (refs : Tbl Bytes Ref) (sb snap : Bytes) : Prop :=
  ∃ r, refs.get sb = some r ∧ r.snapshot = snap

variable {observed : List (Bytes × Bytes)} {homes : Tbl Bytes Nat} {ops : SnapOps.World} {b : Box}

section

variable {latest : Bool} {view refs : Tbl Bytes Ref} {node now : Nat} {sb snap : Bytes}

section

variable (h : Holds refs sb snap)
include h

lemma Holds.put {x : Bytes} {r : Ref} (hr : x = sb → r.snapshot = snap) :
    Holds (refs.put x r) sb snap := by
  by_cases hx : sb = x
  · subst hx
    exact ⟨r, get_put_self _ _ _, hr rfl⟩
  · obtain ⟨r', hr', hs⟩ := h
    exact ⟨r', by rwa [get_put_ne _ _ hx], hs⟩

lemma attachObserved_holds {expected : Option Ref} {x : Bytes × Bytes}
    (hx : x.1 = sb → x.2 = snap) :
    Holds (attachObserved latest view node now expected refs x) sb snap := by
  unfold attachObserved
  split
  · exact h.put hx
  split_ifs
  · exact h.put hx
  · exact h

lemma observeOne_holds {x : Bytes × Bytes} (hx : x.1 = sb → x.2 = snap) :
    Holds (observeOne latest view node now refs x) sb snap := by
  unfold observeOne
  split
  · exact attachObserved_holds h hx
  split_ifs
  · split
    · exact h
    rename_i r hr
    split_ifs
    · -- the row keeps its snapshot
      refine h.put fun hsb => ?_
      obtain ⟨r', hr', hs⟩ := h
      rw [← hsb, hr] at hr'
      cases hr'
      exact hs
    · exact h
  · exact attachObserved_holds h hx

lemma detachOne_holds {x : Bytes × Ref}
    (hx : x.1 = sb → x.2.node = node → sb ∈ observed.map Prod.fst) :
    Holds (detachOne node observed refs x) sb snap := by
  unfold detachOne
  split_ifs with hc
  · split
    · exact h
    split_ifs
    · have hne : sb ≠ x.1 := fun hsb => hc.2 (hsb ▸ hx hsb.symm hc.1)
      obtain ⟨r, hr, hs⟩ := h
      exact ⟨r, by rwa [Tbl.get_del_ne _ hne], hs⟩
    · exact h
  · exact h

/-- **A pass keeps the reference** of a sandbox seen with its snapshot, or not of its node. -/
lemma refresh_holds (hseen : ∀ y ∈ observed, y.1 = sb → y.2 = snap)
    (hview : ∀ r, view.get sb = some r → r.node = node → sb ∈ observed.map Prod.fst) :
    Holds (refresh latest view node now observed refs) sb snap := by
  refine foldlRecOn (motive := fun t => Holds t sb snap) _ _ ?_ fun t ht x hx => ?_
  · exact foldlRecOn (motive := fun t => Holds t sb snap) _ _ h fun t ht x hx =>
      observeOne_holds ht (hseen x hx)
  refine detachOne_holds ht fun hsb hn => hview x.2 ?_ hn
  rw [← hsb]
  exact mem_pairs.1 (mem_coe.2 hx)

end

/-- Each row has the node of its sandbox. -/
def AtHome (homes : Tbl Bytes Nat) (refs : Tbl Bytes Ref) : Prop :=
  ∀ sb r, refs.get sb = some r → homes.get sb = some r.node

section

variable (h : AtHome homes refs)
include h

lemma AtHome.put {x : Bytes} {r : Ref} (hr : homes.get x = some r.node) :
    AtHome homes (refs.put x r) := by
  intro sb r' h'
  rcases get_put_eq_some.1 h' with ⟨rfl, rfl⟩ | ⟨-, h'⟩
  · exact hr
  · exact h sb r' h'

lemma AtHome.del (x : Bytes) : AtHome homes (refs.del x) :=
  fun sb r h' => h sb r (Tbl.get_del_eq_some.1 h').2

lemma AtHome.mono {homes' : Tbl Bytes Nat}
    (hh : ∀ sb n, homes.get sb = some n → homes'.get sb = some n) : AtHome homes' refs :=
  fun sb r hr => hh sb _ (h sb r hr)

lemma refresh_atHome (hseen : ∀ y ∈ observed, homes.get y.1 = some node) :
    AtHome homes (refresh latest view node now observed refs) := by
  refine foldlRecOn (motive := AtHome homes) _ _ ?_ fun t ht x _ => ?_
  · refine foldlRecOn (motive := AtHome homes) _ _ h fun t ht x hx => ?_
    have hatt : ∀ expected, AtHome homes (attachObserved latest view node now expected t x) := by
      intro expected
      unfold attachObserved
      split
      · exact ht.put (hseen x hx)
      split_ifs
      · exact ht.put (hseen x hx)
      · exact ht
    unfold observeOne
    split
    · exact hatt _
    split_ifs
    · split
      · exact ht
      split_ifs
      · exact ht.put (hseen x hx)
      · exact ht
    · exact hatt _
  · unfold detachOne
    split_ifs
    · split
      · exact ht
      split_ifs
      · exact ht.del _
      · exact ht
    · exact ht

end

end

/-- The reference of a bound sandbox is there, or about to be written by what bound it. -/
def Covered (w : World) (sb snap : Bytes) : Prop :=
  Holds w.refs sb snap ∨ (∃ k ∈ w.creates, k.pc = .booted ∧ k.sandbox = sb) ∨
    ∃ i n g c, w.phases.get i = some (.driven n g) ∧ w.ops.calls[i]? = some c ∧
      c.work.sandbox = some sb

/-- What a pass has seen are sandboxes of its node. -/
structure Pass.Fair (homes : Tbl Bytes Nat) (p : Pass) : Prop where
  seen : ∀ y ∈ p.pc.observed, homes.get y.1 = some p.node
  view : ∀ o v, p.pc = .read o v → AtHome homes v

structure Inv (w : World) : Prop where
  ops : SnapOps.Inv w.ops
  checked : ∀ i, w.phases.get i = some .checked → ∃ c, w.ops.calls[i]? = some c ∧ c.pc.early = false
  insert : ∀ i c a snap, w.ops.calls[i]? = some c → c.work = .delete snap → c.pc = .insert a →
    w.phases.get i = some .checked
  driven : ∀ i n g, w.phases.get i = some (.driven n g) → ∃ c sb snap id,
    w.ops.calls[i]? = some c ∧ c.work = .rollback sb snap ∧ c.pc = .work id ∧
      w.homes.get sb = some n ∧ ∀ b, w.boxes.get sb = some b → b.bound = some snap
  booted : ∀ k ∈ w.creates, k.pc = .booted → w.homes.get k.sandbox = some k.node ∧
    ∀ b, w.boxes.get k.sandbox = some b → b.bound = some k.snapshot
  home : ∀ sb b, w.boxes.get sb = some b → w.homes.get sb = some b.node
  refs : AtHome w.homes w.refs
  passes : ∀ p ∈ w.passes, p.Fair w.homes
  covered : ∀ sb b snap, w.boxes.get sb = some b → b.bound = some snap → Covered w sb snap
  clear : ∀ snap, Deleting w snap → ∀ sb b, w.boxes.get sb = some b → b.bound ≠ some snap
  harmed : w.harmed = []
  dropped : w.dropped = []

lemma Inv.start : Inv World.start where
  ops := SnapOps.Inv.start
  checked := nofun
  insert := nofun
  driven := nofun
  booted := nofun
  home := nofun
  refs := nofun
  passes := nofun
  covered := nofun
  clear := nofun
  harmed := rfl
  dropped := rfl

section

variable {w w' : World} {i : Nat} {c : SnapOps.Call} {sb snap : Bytes}

/-! ### Deletes under way -/

lemma deleting_of_section (hc : w.ops.calls[i]? = some c) (hw : c.work = .delete snap)
    (hph : w.phases.get i = some .checked) (hpc : beforeInsert c.pc = true) : Deleting w snap :=
  .inl ⟨i, mem_range.2 (List.getElem?_eq_some_iff.1 hc).1, c, hc, hw, hph, hpc⟩

/-- A delete is under way only if it was, where no call and no job comes to its places. -/
lemma deleting_of_same (h : Deleting w' snap)
    (hph : ∀ i, w'.phases.get i = some .checked → w.phases.get i = some .checked)
    (hcalls : ∀ (i : Nat) (c : SnapOps.Call), w'.ops.calls[i]? = some c →
      beforeInsert c.pc = true ∨ atWork c.pc = true → w.ops.calls[i]? = some c)
    (hjobs : ∀ j ∈ w'.ops.jobs, j.status = .pending → j ∈ w.ops.jobs) : Deleting w snap := by
  rcases h with ⟨i, -, c, hc, hw, hp, hb⟩ | ⟨j, hj, hs, hn, hp⟩ | ⟨c, hc, hw, hat⟩
  · exact deleting_of_section (hcalls i c hc (.inl hb)) hw (hph i hp) hb
  · exact .inr (.inl ⟨j, hjobs j hj hp, hs, hn, hp⟩)
  · obtain ⟨i, hi⟩ := mem_iff_getElem?.1 hc
    exact .inr (.inr ⟨c, mem_of_getElem? (hcalls i c hi (.inr hat)), hw, hat⟩)

lemma delete_of_no_sandbox {work : SnapOps.Work} (h : work.sandbox = none) :
    ∃ snap, work = .delete snap := by
  cases work with
  | create sb => cases h
  | rollback sb snap => cases h
  | delete snap => exact ⟨snap, rfl⟩

lemma deleting_of_turn (hi : Inv w) {e : SnapOps.Event} {pc : SnapOps.Pc}
    (ht : SnapOps.Turn w.ops ops e i c pc) (h : Deleting { w with ops := ops } snap) :
    Deleting w snap := by
  rcases h with ⟨j, -, d, hd, hw, hp, hb⟩ | ⟨j, hj, hs, hn, hp⟩ | ⟨d, hd, hw, hat⟩
  · -- a call before its insert was there before, since the flag is set behind the checks
    obtain ⟨d0, hd0, hearly⟩ := hi.checked j hp
    replace hd : ops.calls[j]? = some d := hd
    rw [ht.calls] at hd
    rcases set_cases ht.call hd with ⟨rfl, rfl⟩ | ⟨-, hd⟩
    · rw [ht.call] at hd0
      cases hd0
      have hc : beforeInsert c.pc = true := by
        cases pc with
        | number =>
          rw [ht.number rfl] at hearly
          cases hearly
        | insert a =>
          rcases ht.insert a rfl with hop | ⟨hpc, -⟩
          · rw [show c.work = .delete snap from hw] at hop
            cases hop
          · rw [hpc]
            rfl
        | _ => cases hb
      exact deleting_of_section ht.call hw hp hc
    · exact deleting_of_section hd hw hp hb
  · rcases ht.jobs j hj hp with hj | ⟨⟨a, hpc⟩, hsb, hsn⟩
    · exact .inr (.inl ⟨j, hj, hs, hn, hp⟩)
    obtain ⟨x, hx⟩ := delete_of_no_sandbox (hsb ▸ hn)
    have hxs : x = snap := (hsn x (by rw [hx]; rfl)).symm.trans hs
    subst hxs
    exact deleting_of_section ht.call hx (hi.insert i c a x ht.call hx hpc) (by rw [hpc]; rfl)
  · obtain ⟨j, hj⟩ := mem_iff_getElem?.1 hd
    replace hj : ops.calls[j]? = some d := hj
    rw [ht.calls] at hj
    rcases set_cases ht.call hj with ⟨rfl, rfl⟩ | ⟨-, hj⟩
    · -- a claim: the job was waiting
      cases pc with
      | work id =>
        obtain ⟨hpc, k, hk, hkid, hkp⟩ := ht.work id rfl
        have hfit := (hi.ops.claim c (mem_of_getElem? ht.call) id hpc).2 k hk hkid
        replace hw : c.work = .delete snap := hw
        refine .inr (.inl ⟨k, hk, hfit.snapshot snap (by rw [hw]; rfl), ?_, hkp⟩)
        rw [hfit.sandbox, hw]
        rfl
      | _ => cases hat
    · exact .inr (.inr ⟨d, mem_of_getElem? hj, hw, hat⟩)

/-- **No delete of a snapshot is under way while a rollback to it is at work.** -/
lemma not_deleting (hi : SnapOps.Inv w.ops) (hc : w.ops.calls[i]? = some c)
    (hw : c.work = .rollback sb snap) {id : Nat} (hpc : c.pc = .work id) : ¬ Deleting w snap := by
  have hon : c.pc.onJob = some id := by rw [hpc]; rfl
  obtain ⟨j, hj, -, hrun, hfit⟩ := hi.onJob c (mem_of_getElem? hc) id hon
  have hsn : j.snapshot = snap := hfit.snapshot snap (by rw [hw]; rfl)
  rintro (⟨k, -, d, hd, hdw, -, hb⟩ | ⟨k, hk, hks, -, hkp⟩ | ⟨d, hd, hdw, hat⟩)
  · -- it has checked that no job of the snapshot is active
    have hck : SnapOps.Checked w.ops d := by
      have := hi.passed d (mem_of_getElem? hd)
      unfold SnapOps.Passed at this
      cases hp : d.pc <;> simp_all [beforeInsert]
    exact hck.snapshot j hj (.inr hrun) (by rw [hsn, hdw]; rfl)
  · have := hi.snapshot k hk j hj (.inl hkp) (.inr hrun) (hks.trans hsn.symm)
    rw [this, hrun] at hkp
    cases hkp
  obtain ⟨k, hk⟩ := mem_iff_getElem?.1 hd
  have hdon : d.pc.onJob.isSome = true := by
    cases hp : d.pc <;> simp_all [atWork, SnapOps.Pc.onJob]
  have hik := hi.exclusive.work i k c d hc hk (by rw [hon]; rfl) hdon
    (.inr ⟨by rw [hw]; rfl, by rw [hw, hdw]; rfl⟩)
  subst hik
  rw [hc] at hk
  cases hk
  rw [hw] at hdw
  cases hdw

/-! ### Steps of the jobs -/

section

variable (hi : Inv w)
include hi

lemma Inv.withOps (hops : SnapOps.Inv ops) (hchecked : ∀ i, w.phases.get i = some .checked →
      ∃ c, ops.calls[i]? = some c ∧ c.pc.early = false)
    (hinsert : ∀ i c a snap, ops.calls[i]? = some c → c.work = .delete snap → c.pc = .insert a →
      w.phases.get i = some .checked)
    (hstay : ∀ i n g c, w.phases.get i = some (.driven n g) → w.ops.calls[i]? = some c →
      ops.calls[i]? = some c)
    (hdel : ∀ snap, Deleting { w with ops := ops } snap → Deleting w snap) :
    Inv { w with ops := ops } :=
  { hi with
    ops := hops
    checked := hchecked
    insert := hinsert
    driven := fun i n g h => by
      obtain ⟨c, sb, snap, id, hc, rest⟩ := hi.driven i n g h
      exact ⟨c, sb, snap, id, hstay i n g c h hc, rest⟩
    covered := fun sb b snap hb hs => by
      rcases hi.covered sb b snap hb hs with h | h | ⟨i, n, g, c, h, hc, hsb⟩
      · exact .inl h
      · exact .inr (.inl h)
      · exact .inr (.inr ⟨i, n, g, c, h, hstay i n g c h hc, hsb⟩)
    clear := fun snap h => hi.clear snap (hdel snap h) }

lemma Inv.opsStep {e : SnapOps.Event} (ha : Allowed w e)
    (hok : SnapOps.Orderly w.ops e) (h : SnapOps.step w.ops e = some ops) :
    Inv { w with ops := ops } := by
  have hops := SnapOps.inv_step w.ops e ops hi.ops hok h
  rcases SnapOps.step_turn h with ⟨i, c, pc, ht⟩ | ⟨p, req, work, rfl⟩ | ⟨p, rfl⟩ | ⟨hcalls, hjobs⟩
  · refine hi.withOps hops ?_ ?_ ?_ fun snap => deleting_of_turn hi ht
    · intro j hj
      obtain ⟨d, hd, hearly⟩ := hi.checked j hj
      rw [ht.calls]
      by_cases hji : j = i
      · subst hji
        rw [ht.call] at hd
        cases hd
        refine ⟨_, get_set ht.call _, ?_⟩
        exact ht.late.resolve_left (by rw [hearly]; exact Bool.false_ne_true)
      · exact ⟨d, by rwa [getElem?_set_ne (Ne.symm hji)], hearly⟩
    · intro j d a snap hd hw hpc
      rw [ht.calls] at hd
      rcases set_cases ht.call hd with ⟨rfl, rfl⟩ | ⟨-, hd⟩
      · replace hw : c.work = .delete snap := hw
        rcases ht.insert a hpc with hop | ⟨-, rfl⟩
        · rw [hw] at hop
          cases hop
        · exact ha c ht.call (by rw [hw]; rfl)
      · exact hi.insert j d a snap hd hw hpc
    · intro j n g d hj hd
      have hne : j ≠ i := by
        rintro rfl
        obtain ⟨d', sb, snap, id, hd', hw, hpc, -⟩ := hi.driven j n g hj
        rw [ht.call] at hd'
        cases hd'
        have hop : c.work.operation = .rollback := by rw [hw]; rfl
        rcases ht.atWork id hpc hop with ⟨ok, rfl⟩ | rfl
        · have := ha c ht.call hop
          rw [hj] at this
          cases ok <;> simp at this
        · have := ha _ hj
          simp at this
      rwa [ht.calls, getElem?_set_ne (Ne.symm hne)]
  · have hold : ∀ (j : Nat) (d : SnapOps.Call), w.ops.calls[j]? = some d →
        (w.ops.calls ++ [⟨p, req, work, .waiting⟩])[j]? = some d := fun j d hd => by
      rw [getElem?_append_left (List.getElem?_eq_some_iff.1 hd).1, hd]
    refine hi.withOps hops ?_ ?_ (fun j _ _ d _ hd => hold j d hd) fun snap h =>
      deleting_of_same h (fun _ h => h) ?_ fun j hj _ => hj
    · intro j hj
      obtain ⟨d, hd, hearly⟩ := hi.checked j hj
      exact ⟨d, hold j d hd, hearly⟩
    · intro j d a snap hd hw hpc
      rcases Slots.append_cases hd with ⟨-, rfl⟩ | ⟨-, hd⟩
      · cases hpc
      · exact hi.insert j d a snap hd hw hpc
    · intro j d hd hpc
      rcases Slots.append_cases hd with ⟨-, rfl⟩ | ⟨-, hd⟩
      · rcases hpc with h | h <;> cases h
      · exact hd
  · exact ha.elim
  · refine hi.withOps hops ?_ ?_ ?_ fun snap h =>
      deleting_of_same h (fun _ h => h) (fun j d hd _ => hcalls ▸ hd) fun j hj _ => hjobs ▸ hj
    · exact hcalls ▸ hi.checked
    · exact hcalls ▸ hi.insert
    · exact fun j _ _ d _ hd => hcalls ▸ hd

/-! ### References and sandboxes -/

section

variable (hc : w.ops.calls[i]? = some c)
include hc

/-- **A delete looks for references** and finds none. -/
lemma Inv.looked (hpc : c.pc = .number)
    (hw : c.work = .delete snap) (hnone : ¬ ∃ x ∈ w.refs.toPairs, x.2.snapshot = snap)
    (hcreates : ∀ k ∈ w.creates, k.pc = .booted → c.work ≠ .delete k.snapshot) :
    Inv { w with phases := w.phases.put i .checked } := by
  -- a call that waits to attach its reference is at work, so it is not this one
  have hother : ∀ j n g, w.phases.get j = some (.driven n g) → j ≠ i := by
    rintro j n g hj rfl
    obtain ⟨d, _, _, id, hd, -, hdpc, -⟩ := hi.driven j n g hj
    rw [hc] at hd
    cases hd
    rw [hpc] at hdpc
    cases hdpc
  have hdriven : ∀ j n g, (w.phases.put i .checked).get j = some (.driven n g) →
      w.phases.get j = some (.driven n g) := by
    intro j n g h
    rcases get_put_eq_some.1 h with ⟨-, h⟩ | ⟨-, h⟩
    · cases h
    · exact h
  have hck : SnapOps.Checked w.ops c := by
    have := hi.ops.passed c (mem_of_getElem? hc)
    simpa [SnapOps.Passed, hpc] using this
  -- no sandbox is bound to the snapshot
  have hfree : ∀ sb b, w.boxes.get sb = some b → b.bound ≠ some snap := by
    intro sb b hb hs
    rcases hi.covered sb b snap hb hs with ⟨r, hr, hrs⟩ | ⟨k, hk, hkb, rfl⟩ |
      ⟨j, n, g, d, hj, hd, hsb⟩
    · exact hnone ⟨(sb, r), mem_coe.1 (mem_pairs.2 hr), hrs⟩
    · have hks := (hi.booted k hk hkb).2 b hb
      rw [hs] at hks
      exact hcreates k hk hkb (by rw [hw, some.inj hks])
    obtain ⟨d', sb', snap', id, hd', hdw, hdpc, -, hbound⟩ := hi.driven j n g hj
    rw [hd] at hd'
    cases hd'
    rw [hdw] at hsb
    cases hsb
    have hks := hbound b hb
    rw [hs] at hks
    cases hks
    obtain ⟨x, hx, -, hrun, hfit⟩ :=
      hi.ops.onJob d (mem_of_getElem? hd) id (by rw [hdpc]; rfl)
    refine hck.snapshot x hx (.inr hrun) ?_
    rw [hfit.snapshot snap (by rw [hdw]; rfl), hw]
    rfl
  exact { hi with
    checked := fun j h => by
      rcases get_put_eq_some.1 h with ⟨rfl, -⟩ | ⟨-, h⟩
      · exact ⟨c, hc, by rw [hpc]; rfl⟩
      · exact hi.checked j h
    insert := fun j d a x hd hdw hdpc => by
      by_cases hj : j = i
      · subst hj
        exact get_put_self _ _ _
      · rw [get_put_ne _ _ hj]
        exact hi.insert j d a x hd hdw hdpc
    driven := fun j n g h => hi.driven j n g (hdriven j n g h)
    covered := fun sb b x hb hs => by
      rcases hi.covered sb b x hb hs with h | h | ⟨j, n, g, d, hj, hd, hsb⟩
      · exact .inl h
      · exact .inr (.inl h)
      · refine .inr (.inr ⟨j, n, g, d, ?_, hd, hsb⟩)
        rw [get_put_ne _ _ (hother j n g hj), hj]
    clear := fun x h sb b hb => by
      by_cases hx : x = snap
      · exact hx ▸ hfree sb b hb
      refine hi.clear x ?_ sb b hb
      rcases h with ⟨j, -, d, hd, hdw, hp, hbf⟩ | h
      · rcases get_put_eq_some.1 hp with ⟨rfl, -⟩ | ⟨-, hp⟩
        · replace hd : w.ops.calls[j]? = some d := hd
          rw [hc] at hd
          cases hd
          rw [hw] at hdw
          cases hdw
          exact absurd rfl hx
        · exact deleting_of_section hd hdw hp hbf
      · exact .inr h }

lemma Inv.driven_back {id gen : Nat}
    (hpc : c.pc = .work id) (hw : c.work = .rollback sb snap) (hb : w.boxes.get sb = some b)
    (hph : w.phases.get i = none)
    (hcreates : ∀ k ∈ w.creates, k.pc = .booted → c.work.sandbox ≠ some k.sandbox) :
    Inv { w with
      boxes := w.boxes.put sb { b with bound := some snap, label := some snap }
      phases := w.phases.put i (.driven b.node gen) } := by
  have hfree := not_deleting hi.ops hc hw hpc
  have hne : ∀ j p, w.phases.get j = some p → j ≠ i := by
    rintro j p hj rfl
    rw [hph] at hj
    cases hj
  -- no other rollback of the sandbox is at work
  have halone : ∀ j d x id', w.ops.calls[j]? = some d → d.work = .rollback sb x →
      d.pc = .work id' → j = i := by
    intro j d x id' hd hdw hdpc
    refine hi.ops.exclusive.work j i d c hd hc (by rw [hdpc]; rfl) (by rw [hpc]; rfl) (.inl ?_)
    rw [hdw, hw]
    exact ⟨rfl, rfl⟩
  have hbox : ∀ {x b'}, (w.boxes.put sb { b with bound := some snap, label := some snap }).get x =
      some b' → (x = sb ∧ b'.bound = some snap ∧ b'.node = b.node) ∨
        (x ≠ sb ∧ w.boxes.get x = some b') := by
    intro x b' h
    rcases get_put_eq_some.1 h with ⟨rfl, rfl⟩ | h
    · exact .inl ⟨rfl, rfl, rfl⟩
    · exact .inr h
  exact { hi with
    checked := fun j h => by
      rcases get_put_eq_some.1 h with ⟨-, h⟩ | ⟨-, h⟩
      · cases h
      · exact hi.checked j h
    insert := fun j d a x hd hdw hdpc => by
      have hj := hi.insert j d a x hd hdw hdpc
      rwa [get_put_ne _ _ (hne j _ hj)]
    driven := fun j n g h => by
      rcases get_put_eq_some.1 h with ⟨rfl, h'⟩ | ⟨hj, h'⟩
      · cases h'
        refine ⟨c, sb, snap, id, hc, hw, hpc, hi.home sb b hb, fun b' hb' => ?_⟩
        rcases hbox hb' with ⟨-, h, -⟩ | ⟨h, -⟩
        · exact h
        · exact absurd rfl h
      obtain ⟨d, sb', x, id', hd, hdw, hdpc, hhome, hbound⟩ := hi.driven j n g h'
      refine ⟨d, sb', x, id', hd, hdw, hdpc, hhome, fun b' hb' => ?_⟩
      rcases hbox hb' with ⟨rfl, -⟩ | ⟨-, hb'⟩
      · exact absurd (halone j d x id' hd hdw hdpc) hj
      · exact hbound b' hb'
    booted := fun k hk hkb => by
      refine ⟨(hi.booted k hk hkb).1, fun b' hb' => ?_⟩
      rcases hbox hb' with ⟨h, -⟩ | ⟨-, hb'⟩
      · exact absurd (by rw [hw, h]; rfl) (hcreates k hk hkb)
      · exact (hi.booted k hk hkb).2 b' hb'
    home := fun x b' hb' => by
      rcases hbox hb' with ⟨rfl, -, h⟩ | ⟨-, hb'⟩
      · exact h ▸ hi.home x b hb
      · exact hi.home x b' hb'
    covered := fun x b' s hb' hs => by
      rcases hbox hb' with ⟨rfl, -⟩ | ⟨-, hb'⟩
      · exact .inr (.inr ⟨i, b.node, gen, c, get_put_self _ _ _, hc, by rw [hw]; rfl⟩)
      rcases hi.covered x b' s hb' hs with h | h | ⟨j, n, g, d, hj, rest⟩
      · exact .inl h
      · exact .inr (.inl h)
      · exact .inr (.inr ⟨j, n, g, d, by rw [get_put_ne _ _ (hne j _ hj), hj], rest⟩)
    clear := fun s h x b' hb' => by
      have hs : Deleting w s := by
        refine deleting_of_same h (fun j hj => ?_) (fun _ _ hd _ => hd) fun _ hj _ => hj
        rcases get_put_eq_some.1 hj with ⟨-, hj⟩ | ⟨-, hj⟩
        · cases hj
        · exact hj
      rcases hbox hb' with ⟨-, h, -⟩ | ⟨-, hb'⟩
      · rw [h]
        rintro ⟨⟩
        exact hfree hs
      · exact hi.clear s hs x b' hb' }

lemma Inv.attached (hw : c.work = .rollback sb snap)
    {n g : Nat} (hph : w.phases.get i = some (.driven n g)) (now : Nat) :
    Inv { w with
      refs := w.refs.put sb ⟨snap, n, g, now⟩
      phases := w.phases.put i .attached } := by
  obtain ⟨d, sb', snap', id, hd, hdw, hpc, hhome, hbound⟩ := hi.driven i n g hph
  rw [hc] at hd
  cases hd
  rw [hw] at hdw
  cases hdw
  have hback : ∀ j p, p ≠ .attached → (w.phases.put i .attached).get j = some p →
      w.phases.get j = some p := by
    intro j p hp h
    rcases get_put_eq_some.1 h with ⟨-, h⟩ | ⟨-, h⟩
    · exact absurd h.symm hp
    · exact h
  exact { hi with
    checked := fun j h => hi.checked j (hback j _ nofun h)
    insert := fun j d a x hd hdw hdpc => by
      have hj := hi.insert j d a x hd hdw hdpc
      have hne : j ≠ i := by
        rintro rfl
        rw [hph] at hj
        cases hj
      rwa [get_put_ne _ _ hne]
    driven := fun j m h hj => hi.driven j m h (hback j _ nofun hj)
    refs := hi.refs.put hhome
    covered := fun x b s hb hs => by
      by_cases hx : x = sb
      · subst hx
        have hss := hbound b hb
        rw [hs] at hss
        cases hss
        exact .inl ⟨_, get_put_self _ _ _, rfl⟩
      rcases hi.covered x b s hb hs with h | h | ⟨j, m, h, d, hj, hd, hsb⟩
      · exact .inl (h.put fun h => absurd h.symm hx)
      · exact .inr (.inl h)
      have hne : j ≠ i := by
        rintro rfl
        rw [hc] at hd
        cases hd
        rw [hw] at hsb
        exact hx (some.inj hsb).symm
      exact .inr (.inr ⟨j, m, h, d, by rw [get_put_ne _ _ hne, hj], hd, hsb⟩)
    clear := fun s h => hi.clear s
      (deleting_of_same h (fun j hj => hback j _ nofun hj) (fun _ _ hd _ => hd) fun _ hj _ => hj) }

end

lemma Inv.relabelled {boxes : Tbl Bytes Box} (files : List (Nat × Bytes))
    (hboxes : ∀ x b', boxes.get x = some b' →
      ∃ b, w.boxes.get x = some b ∧ b.node = b'.node ∧ b.bound = b'.bound) :
    Inv { w with boxes := boxes, files := files } :=
  { hi with
    driven := fun j n g h => by
      obtain ⟨d, sb, snap, id, hd, hdw, hdpc, hhome, hbound⟩ := hi.driven j n g h
      refine ⟨d, sb, snap, id, hd, hdw, hdpc, hhome, fun b' hb' => ?_⟩
      obtain ⟨b, hb, -, he⟩ := hboxes _ _ hb'
      exact he ▸ hbound b hb
    booted := fun k hk hkb => by
      refine ⟨(hi.booted k hk hkb).1, fun b' hb' => ?_⟩
      obtain ⟨b, hb, -, he⟩ := hboxes _ _ hb'
      exact he ▸ (hi.booted k hk hkb).2 b hb
    home := fun x b' hb' => by
      obtain ⟨b, hb, hn, -⟩ := hboxes _ _ hb'
      exact hn ▸ hi.home x b hb
    covered := fun x b' s hb' hs => by
      obtain ⟨b, hb, -, he⟩ := hboxes _ _ hb'
      exact hi.covered x b s hb (he.trans hs)
    clear := fun s h x b' hb' => by
      obtain ⟨b, hb, -, he⟩ := hboxes _ _ hb'
      exact he ▸ hi.clear s h x b hb }

end

lemma relabel_boxes {boxes : Tbl Bytes Box} (hb : boxes.get sb = some b) (label : Option Bytes)
    (x : Bytes) (b' : Box) (h : (boxes.put sb { b with label := label }).get x = some b') :
    ∃ b, boxes.get x = some b ∧ b.node = b'.node ∧ b.bound = b'.bound := by
  rcases get_put_eq_some.1 h with ⟨rfl, rfl⟩ | ⟨-, h⟩
  · exact ⟨b, hb, rfl, rfl⟩
  · exact ⟨b', h, rfl, rfl⟩

lemma Pass.Fair.mono {homes' : Tbl Bytes Nat} {p : Pass} (h : p.Fair homes)
    (hh : ∀ sb n, homes.get sb = some n → homes'.get sb = some n) : p.Fair homes' :=
  ⟨fun y hy => hh _ _ (h.seen y hy), fun o v hv => (h.view o v hv).mono hh⟩

section

variable (hi : Inv w)
include hi

lemma Inv.added (hnew : w.homes.get sb = none) {creates : List Create}
    (hbooted : ∀ k ∈ creates, k.pc = .booted → k ∈ w.creates ∨
      (k.sandbox = sb ∧ k.node = b.node ∧ b.bound = some k.snapshot))
    (hkept : ∀ k ∈ w.creates, k.pc = .booted → k ∈ creates)
    (hcov : ∀ s, b.bound = some s → ∃ k ∈ creates, k.pc = .booted ∧ k.sandbox = sb)
    (hdel : ∀ s, b.bound = some s → ¬ Deleting w s) :
    Inv { w with
      homes := w.homes.put sb b.node
      boxes := w.boxes.put sb b
      creates := creates } := by
  have hmono : ∀ x n, w.homes.get x = some n → (w.homes.put sb b.node).get x = some n := by
    intro x n h
    rwa [get_put_ne]
    rintro rfl
    rw [hnew] at h
    cases h
  -- a sandbox that there has been is another one
  have hold : ∀ {x n b'}, w.homes.get x = some n → (w.boxes.put sb b).get x = some b' →
      w.boxes.get x = some b' := by
    intro x n b' hx h
    rcases get_put_eq_some.1 h with ⟨rfl, -⟩ | ⟨-, h⟩
    · rw [hnew] at hx
      cases hx
    · exact h
  exact { hi with
    driven := fun j n g h => by
      obtain ⟨d, x, snap, id, hd, hdw, hdpc, hhome, hbound⟩ := hi.driven j n g h
      exact ⟨d, x, snap, id, hd, hdw, hdpc, hmono _ _ hhome,
        fun b' hb' => hbound b' (hold hhome hb')⟩
    booted := fun k hk hkb => by
      rcases hbooted k hk hkb with hk | ⟨hks, hkn, hbs⟩
      · obtain ⟨h1, h2⟩ := hi.booted k hk hkb
        exact ⟨hmono _ _ h1, fun b' hb' => h2 b' (hold h1 hb')⟩
      subst hks
      refine ⟨by rw [get_put_self, hkn], fun b' hb' => ?_⟩
      rw [get_put_self] at hb'
      cases hb'
      exact hbs
    home := fun x b' hb' => by
      rcases get_put_eq_some.1 hb' with ⟨rfl, rfl⟩ | ⟨-, hb'⟩
      · exact get_put_self _ _ _
      · exact hmono _ _ (hi.home x b' hb')
    refs := hi.refs.mono hmono
    passes := fun p hp => (hi.passes p hp).mono hmono
    covered := fun x b' s hb' hs => by
      rcases get_put_eq_some.1 hb' with ⟨rfl, rfl⟩ | ⟨-, hb'⟩
      · exact .inr (.inl (hcov s hs))
      rcases hi.covered x b' s hb' hs with h | ⟨k, hk, hkb, hks⟩ | h
      · exact .inl h
      · exact .inr (.inl ⟨k, hkept k hk hkb, hkb, hks⟩)
      · exact .inr (.inr h)
    clear := fun s h x b' hb' hs => by
      rcases get_put_eq_some.1 hb' with ⟨rfl, rfl⟩ | ⟨-, hb'⟩
      · exact hdel s hs h
      · exact hi.clear s h x b' hb' hs }

lemma Inv.registered {k : Nat} {a : Create} (ha : w.creates[k]? = some a)
    (hpc : a.pc = .booted) (now : Nat) :
    Inv { w with
      refs := w.refs.put a.sandbox ⟨a.snapshot, a.node, 0, now⟩
      creates := w.creates.set k { a with pc := .done } } := by
  obtain ⟨hhome, hbound⟩ := hi.booted a (mem_of_getElem? ha) hpc
  exact { hi with
    booted := fun x hx hxb => by
      rcases mem_set_cases ha hx with rfl | ⟨j, -, hx⟩
      · cases hxb
      · exact hi.booted x (mem_of_getElem? hx) hxb
    refs := hi.refs.put hhome
    covered := fun x b s hb hs => by
      by_cases hx : x = a.sandbox
      · subst hx
        have hss := hbound b hb
        rw [hs] at hss
        cases hss
        exact .inl ⟨_, get_put_self _ _ _, rfl⟩
      rcases hi.covered x b s hb hs with h | ⟨y, hy, hyb, hys⟩ | h
      · exact .inl (h.put fun h => absurd h.symm hx)
      · refine .inr (.inl ⟨y, Slots.mem_set_of_ne ha hy ?_, hyb, hys⟩)
        rintro rfl
        exact hx hys.symm
      · exact .inr (.inr h) }

lemma Inv.released (hgone : w.boxes.get sb = none) : Inv { w with refs := w.refs.del sb } :=
  { hi with
    refs := hi.refs.del sb
    covered := fun x b s hb hs => by
      rcases hi.covered x b s hb hs with ⟨r, hr, hrs⟩ | h
      · refine .inl ⟨r, ?_, hrs⟩
        rw [Tbl.get_del_ne, hr]
        rintro rfl
        rw [hgone] at hb
        cases hb
      · exact .inr h }

lemma listing_home (node : Nat) : ∀ y ∈ listing w.boxes node, w.homes.get y.1 = some node := by
  intro y hy
  obtain ⟨⟨x, b⟩, hx, he⟩ := mem_filterMap.1 hy
  split at he <;> try cases he
  rename_i hc
  obtain ⟨l, -, rfl⟩ := map_eq_some_iff.1 he
  exact hc.1 ▸ hi.home x b (mem_pairs.1 (mem_coe.2 hx))

/-- **A pass makes its changes** while what it has seen is how the sandboxes are bound. -/
lemma Inv.written {r now : Nat} {latest : Bool} {p : Pass} (hp : w.passes[r]? = some p)
    {view : Tbl Bytes Ref} (hpc : p.pc = .read observed view) (hcur : Current w p.node observed) :
    Inv { w with
      refs := refresh latest view p.node now observed w.refs
      passes := w.passes.set r { p with pc := .done }
      dropped := lostRefs w.boxes w.refs (refresh latest view p.node now observed w.refs) ++
        w.dropped } := by
  have hfair := hi.passes p (mem_of_getElem? hp)
  have hseen : ∀ y ∈ observed, w.homes.get y.1 = some p.node := by
    have := hfair.seen
    rwa [hpc] at this
  -- the reference of a bound sandbox stays, on this node and on others
  have hkeep : ∀ x b s, w.boxes.get x = some b → b.bound = some s → Holds w.refs x s →
      Holds (refresh latest view p.node now observed w.refs) x s := by
    intro x b s hb hs h
    have hhome := hi.home x b hb
    by_cases hn : b.node = p.node
    · obtain ⟨hin, hsn⟩ := hcur (x, b) (mem_coe.1 (mem_pairs.2 hb)) hn s hs
      exact refresh_holds h hsn fun _ _ _ => hin
    refine refresh_holds h (fun y hy hyx => ?_) fun r' hr' hr'n => ?_
    · have := hseen y hy
      rw [hyx, hhome] at this
      exact absurd (some.inj this) hn
    have := hfair.view observed view hpc x r' hr'
    rw [hhome, hr'n] at this
    exact absurd (some.inj this) hn
  exact { hi with
    refs := refresh_atHome hi.refs hseen
    passes := fun q hq => by
      rcases mem_set_cases hp hq with rfl | ⟨j, -, hq⟩
      · exact ⟨nofun, nofun⟩
      · exact hi.passes q (mem_of_getElem? hq)
    covered := fun x b s hb hs => by
      rcases hi.covered x b s hb hs with h | h
      · exact .inl (hkeep x b s hb hs h)
      · exact .inr h
    dropped := by
      refine append_eq_nil_iff.2 ⟨map_eq_nil_iff.2 (filter_eq_nil_iff.2 ?_), hi.dropped⟩
      rintro ⟨x, r'⟩ hx
      rw [decide_eq_true_eq]
      rintro ⟨hbound, hlost⟩
      obtain ⟨b, hb, hs⟩ := bind_eq_some_iff.1 hbound
      have hr' := mem_pairs.1 (mem_coe.2 hx)
      obtain ⟨r'', h1, h2⟩ := hkeep x b _ hb hs ⟨r', hr', rfl⟩
      exact hlost (by rw [h1, map_some, h2]) }

lemma Inv.stopped {p : Nat} (h : SnapOps.step w.ops (.stop p) = some ops)
    (hcreates : ∀ k ∈ w.creates, k.proc = p → k.pc ≠ .booted)
    (hcalls : ∀ i ∈ List.range w.ops.calls.length, ∀ c ∈ w.ops.calls[i]?, c.proc = p →
      ∀ x ∈ w.phases.get i, x.isDriven = false) :
    Inv { w with
      ops := ops
      creates := w.creates.map fun c => if c.proc = p then { c with pc := .done } else c
      passes := w.passes.map fun x => if x.proc = p then { x with pc := .done } else x } := by
  have hops := SnapOps.inv_step w.ops (.stop p) ops hi.ops trivial h
  cases h
  have hcall : ∀ (j : Nat) (d : SnapOps.Call),
      (w.ops.calls.map fun c => if c.proc = p then { c with pc := .done } else c)[j]? = some d →
      d.pc = .done ∨ w.ops.calls[j]? = some d := by
    intro j d hd
    rw [getElem?_map, map_eq_some_iff] at hd
    obtain ⟨e, he, rfl⟩ := hd
    split_ifs
    · exact .inl rfl
    · exact .inr he
  have hops' : Inv { w with ops := { w.ops with
      calls := w.ops.calls.map fun c => if c.proc = p then { c with pc := .done } else c } } := by
    refine hi.withOps hops ?_ ?_ ?_ fun snap h =>
      deleting_of_same h (fun _ h => h) ?_ fun _ hj _ => hj
    · intro j hj
      obtain ⟨d, hd, he⟩ := hi.checked j hj
      refine ⟨if d.proc = p then { d with pc := .done } else d, ?_, ?_⟩
      · rw [getElem?_map, hd]
        rfl
      split_ifs
      · rfl
      · exact he
    · intro j d a x hd hw hpc
      rcases hcall j d hd with h | hd
      · rw [h] at hpc
        cases hpc
      · exact hi.insert j d a x hd hw hpc
    · intro j n g d hj hd
      have hne : d.proc ≠ p := fun hp => by
        have := hcalls j (mem_range.2 (List.getElem?_eq_some_iff.1 hd).1) d hd hp _ hj
        cases this
      rw [getElem?_map, hd, map_some, if_neg hne]
    · intro j d hd hpc
      rcases hcall j d hd with h | hd
      · rw [h] at hpc
        rcases hpc with h | h <;> cases h
      · exact hd
  exact { hops' with
    booted := fun k hk hkb => by
      obtain ⟨a, ha, rfl⟩ := mem_map.1 hk
      by_cases hp : a.proc = p
      · rw [if_pos hp] at hkb
        cases hkb
      · rw [if_neg hp] at hkb ⊢
        exact hi.booted a ha hkb
    passes := fun q hq => by
      obtain ⟨a, ha, rfl⟩ := mem_map.1 hq
      split_ifs
      · exact ⟨nofun, nofun⟩
      · exact hi.passes a ha
    covered := fun x b s hb hs => by
      rcases hops'.covered x b s hb hs with h | ⟨k, hk, hkb, hks⟩ | h
      · exact .inl h
      · have hne : k.proc ≠ p := fun hp => hcreates k hk hp hkb
        exact .inr (.inl ⟨k, mem_map.2 ⟨k, hk, if_neg hne⟩, hkb, hks⟩)
      · exact .inr (.inr h) }

end

end

lemma boundTo_eq_nil {w : World} (hi : Inv w) {snap : Bytes} (h : Deleting w snap) :
    boundTo w.boxes snap = [] := by
  refine map_eq_nil_iff.2 (filter_eq_nil_iff.2 ?_)
  rintro ⟨x, b⟩ hx
  rw [decide_eq_true_eq]
  exact hi.clear snap h x b (mem_pairs.1 (mem_coe.2 hx))

lemma inv_step (w : World) (e : Event) (w' : World) (hi : Inv w) (hok : Careful w e)
    (h : step w e = some w') : Inv w' := by
  cases e <;> simp only [step] at h
  case ops e =>
    split_ifs at h with ha
    split at h <;> cases h
    rename_i ops hops
    exact hi.opsStep ha hok hops
  case checkRefs i =>
    split at h <;> try cases h
    rename_i c hc
    split at h <;> try cases h
    rename_i snap hpc hw
    split at h
    · cases h
      -- the call returns with an error
      refine hi.opsStep (e := .giveUp i) (fun p hp => ?_) trivial (by simp [SnapOps.step, hc])
      cases p with
      | driven n g =>
        obtain ⟨d, _, _, id, hd, -, hdpc, -⟩ := hi.driven i n g hp
        rw [hc] at hd
        cases hd
        rw [hpc] at hdpc
        cases hdpc
      | checked => exact .inl rfl
      | attached => exact .inr (.inl rfl)
      | lost => exact .inr (.inr rfl)
    · rename_i hrefs
      cases h
      exact hi.looked hc hpc hw hrefs (hok c hc)
  case drive i gen out =>
    obtain ⟨rfl, hcreates⟩ := hok
    simp only at h
    split at h <;> try cases h
    rename_i c hc
    split at h <;> try cases h
    rename_i id sb snap hpc hw
    split at h <;> try cases h
    rename_i b hb
    split at h <;> cases h
    rename_i hg
    exact hi.driven_back hc hpc hw hb hg.1 (hcreates c hc)
  case attach i now ok =>
    obtain rfl : ok = true := hok
    simp only at h
    split at h <;> try cases h
    rename_i c n g hc hph
    split at h <;> cases h
    rename_i sb snap hw
    exact hi.attached hc hw hph now
  case clean i node =>
    split at h <;> try cases h
    rename_i c hc
    split at h <;> cases h
    rename_i id snap hpc hw
    have hdel : Deleting w snap :=
      .inr (.inr ⟨c, mem_of_getElem? hc, hw, by rw [hpc]; rfl⟩)
    exact { hi with
      harmed := by
        rw [boundTo_eq_nil hi hdel]
        exact hi.harmed }
  case commit i =>
    split at h <;> try cases h
    split at h <;> try cases h
    split at h <;> cases h
    rename_i b snap hb hsnap
    exact hi.relabelled _ (relabel_boxes hb _)
  case resume sb =>
    split at h <;> cases h
    rename_i b hb
    exact hi.relabelled _ (relabel_boxes hb _)
  case spawn sb node label hidden =>
    split_ifs at h with hnew
    cases h
    exact hi.added (b := ⟨node, none, label, hidden⟩) hnew (fun k hk _ => .inl hk)
      (fun k hk _ => hk) (by simp) (by simp)
  case create p sb snap node =>
    cases h
    exact { hi with
      booted := fun k hk hkb => by
        rcases mem_append.1 hk with hk | hk
        · exact hi.booted k hk hkb
        rw [mem_singleton] at hk
        subst hk
        cases hkb
      covered := fun x b s hb hs => by
        rcases hi.covered x b s hb hs with h | ⟨k, hk, rest⟩ | h
        · exact .inl h
        · exact .inr (.inl ⟨k, mem_append_left _ hk, rest⟩)
        · exact .inr (.inr h) }
  case boot k hidden ok =>
    obtain ⟨rfl, hdel⟩ := hok
    simp only at h
    split at h <;> try cases h
    rename_i a ha
    split at h <;> cases h
    rename_i hg
    refine hi.added (b := ⟨a.node, some a.snapshot, some a.snapshot, hidden⟩) hg.2.1 ?_ ?_ ?_
      ?_
    · intro x hx _
      rcases mem_set_cases ha hx with rfl | ⟨j, -, hx⟩
      · exact .inr ⟨rfl, rfl, rfl⟩
      · exact .inl (mem_of_getElem? hx)
    · intro x hx hxb
      refine Slots.mem_set_of_ne ha hx ?_
      rintro rfl
      rw [hg.1] at hxb
      cases hxb
    · intro s _
      exact ⟨_, mem_of_getElem? (get_set ha _), rfl, rfl⟩
    · rintro s ⟨⟩
      exact hdel a ha
  case register k now ok =>
    obtain rfl : ok = true := hok
    simp only at h
    split at h <;> try cases h
    rename_i a ha
    split at h <;> cases h
    rename_i hpc
    exact hi.registered ha hpc now
  case destroy sb =>
    cases h
    exact hi.relabelled w.files fun x b h => ⟨b, (Tbl.get_del_eq_some.1 h).2, rfl, rfl⟩
  case release sb =>
    split_ifs at h with hg
    cases h
    exact hi.released hg.2
  case list p node ok =>
    cases h
    exact { hi with
      passes := fun q hq => by
        rcases mem_append.1 hq with hq | hq
        · exact hi.passes q hq
        rw [mem_singleton] at hq
        subst hq
        refine ⟨?_, by simp⟩
        cases ok
        · simp [PassPc.observed]
        · exact listing_home hi node }
  case read r =>
    split at h <;> try cases h
    rename_i p hp
    split at h <;> cases h
    rename_i observed hpc
    exact { hi with
      passes := fun q hq => by
        rcases mem_set_cases hp hq with rfl | ⟨j, -, hq⟩
        · have := (hi.passes p (mem_of_getElem? hp)).seen
          rw [hpc] at this
          refine ⟨this, fun o v hv => ?_⟩
          cases hv
          exact hi.refs
        · exact hi.passes q (mem_of_getElem? hq) }
  case write r now latest ok =>
    split at h <;> try cases h
    rename_i p hp
    split at h <;> try cases h
    rename_i observed view hpc
    cases ok with
    | true =>
      have hcur := hok rfl p hp
      rw [hpc] at hcur
      cases h
      exact hi.written hp hpc hcur
    | false =>
      cases h
      exact { hi with
        passes := fun q hq => by
          rcases mem_set_cases hp hq with rfl | ⟨j, -, hq⟩
          · exact ⟨by simp [PassPc.observed], by simp⟩
          · exact hi.passes q (mem_of_getElem? hq) }
  case stop p =>
    split at h <;> cases h
    rename_i ops hops
    exact hi.stopped hops hok.1 hok.2

def sb0 : Bytes := ascii "sb-0"
def sb1 : Bytes := ascii "sb-1"
def snapA : Bytes := ascii "snap-a"
def snapB : Bytes := ascii "snap-b"

/-- The jobs of a create up to its work. -/
def submitCreate (i : Nat) (req sb snap : Bytes) : List Event :=
  [.ops (.submit 1 req (.create sb)), .ops (.enter i), .ops (.lookup i), .ops (.checkSandbox i),
    .ops (.insert i snap), .ops (.claim i), .commit i]

/-- A delete up to its look for references. -/
def lookFor (i : Nat) (req snap : Bytes) : List Event :=
  [.ops (.submit 1 req (.delete snap)), .ops (.enter i), .ops (.lookup i),
    .ops (.checkDefinition i), .ops (.checkSnapshot i), .checkRefs i]

/-- The rest of a delete up to its cleanup of a node. -/
def cleanUp (i node : Nat) : List Event :=
  [.ops (.number i), .ops (.insert i []), .ops (.claim i), .clean i node]

/-- A sandbox on node 1 and a snapshot of it. -/
def snapshotRun : List Event :=
  [.spawn sb0 1 none false] ++ submitCreate 0 (ascii "r1") sb0 snapA ++
    [.ops (.settle 0 true), .ops (.finish 0 true)]

/-- A second sandbox is created from the snapshot, with its reference. -/
def createdRun : List Event :=
  snapshotRun ++ [.create 1 sb1 snapA 1, .boot 0 false true, .register 0 10 true]

/-- A sandbox is rolled back, a pass goes over, both sandboxes go, and the snapshot is deleted. -/
def tidyRun : List Event :=
  createdRun ++
  [.ops (.submit 1 (ascii "r2") (.rollback sb0 snapA)), .ops (.enter 1), .ops (.lookup 1),
    .ops (.checkDefinition 1), .ops (.checkSandbox 1), .ops (.checkSnapshot 1), .ops (.number 1),
    .ops (.insert 1 []), .ops (.claim 1), .drive 1 1 .success, .attach 1 20 true,
    .ops (.finish 1 true), .list 1 1 true, .read 0, .write 0 30 false true, .destroy sb1,
    .release sb1, .destroy sb0, .release sb0] ++
  lookFor 2 (ascii "r3") snapA ++ cleanUp 2 1

/-- What the tests read off a world: cleanups sent and references removed while in use. -/
def World.facts (w : World) : List (Bytes × Bytes) × List (Bytes × Bytes) := (w.harmed, w.dropped)

end CubeSandbox.SnapRef
