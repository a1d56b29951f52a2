import CubeSandbox.VolumeModel

/-!
The count of a volume over whole runs.

At any time the stored count, together with the increments that are not applied yet, is the
number of nodes that hold the volume together with the decrements that are not applied yet.
An increment waits in the create that attached the volume first on its node, then on its way; the
rollback of that create takes it back with the hold.
-/

namespace CubeSandbox.Volume

open GoText Runs List Option Tbl
open Finset (mem_erase mem_of_mem_erase mem_insert)

/-- The increments of the volume that a call has still to send. -/
def Op.plus (v : Bytes) : Op → Nat
  | .create _ _ _ _ _ events => events.count v
  | .undo _ _ _ todo events => if v ∈ todo then events.count v else 0
  | _ => 0

/-- The decrements of the volume that a call has still to send. -/
def Op.minus (v : Bytes) : Op → Nat
  | .destroy _ _ _ _ events _ => events.count v
  | _ => 0

def World.plus (w : World) (v : Bytes) : Nat :=
  w.inflight.count (v, true) + (w.ops.map (Op.plus v)).sum

def World.minus (w : World) (v : Bytes) : Nat :=
  w.inflight.count (v, false) + (w.ops.map (Op.minus v)).sum

lemma count_map_pair (es : List Bytes) (v : Bytes) (b c : Bool) :
    (es.map (·, b)).count (v, c) = if b = c then es.count v else 0 := by
  induction es with
  | nil => simp
  | cons e es ih =>
    rw [map_cons, count_cons, ih, count_cons]
    by_cases hb : b = c <;> by_cases he : e = v <;> simp [hb, he]

variable {v sb : Bytes} {todo events : List Bytes} {n : Nat} {b : Op} {held : Finset Hold}

lemma mem_nodes : n ∈ nodes held v ↔ ∃ h ∈ held, h.vol = v ∧ h.node = n := by
  simp [nodes, and_assoc]

lemma holders_eq_empty {ns : Bytes} :
    holders held n ns v = ∅ ↔ ∀ h ∈ held, h.node = n → h.ns = ns → h.vol ≠ v := by
  simp [holders, Finset.filter_eq_empty_iff]

lemma nodes_eq_empty : nodes held v = ∅ ↔ ∀ h ∈ held, h.vol ≠ v := by
  simp [nodes, Finset.filter_eq_empty_iff]

lemma nodes_erase_ne {h : Hold} (hv : h.vol ≠ v) : nodes (held.erase h) v = nodes held v := by
  ext n
  simp only [mem_nodes, mem_erase]
  constructor
  · rintro ⟨g, ⟨-, hg⟩, h1, h2⟩
    exact ⟨g, hg, h1, h2⟩
  · rintro ⟨g, hg, h1, h2⟩
    exact ⟨g, ⟨fun e => hv (e ▸ h1), hg⟩, h1, h2⟩

section

variable {held : Finset Hold} {ns0 : Bytes} (hns : ∀ h ∈ held, h.ns = ns0)
include hns

lemma card_nodes_insert {ns : Bytes} (hone : ns = ns0) (n : Nat) (v sb : Bytes) :
    (nodes (insert ⟨n, ns, v, sb⟩ held) v).card =
      (nodes held v).card + if holders held n ns v = ∅ then 1 else 0 := by
  have heq : nodes (insert ⟨n, ns, v, sb⟩ held) v = insert n (nodes held v) := by
    simp [nodes, Finset.filter_insert]
  have hmem : n ∈ nodes held v ↔ holders held n ns v ≠ ∅ := by
    rw [mem_nodes, Ne, holders_eq_empty]
    push Not
    constructor
    · rintro ⟨g, hg, h1, h2⟩
      exact ⟨g, hg, h2, (hns g hg).trans hone.symm, h1⟩
    · rintro ⟨g, hg, h1, -, h2⟩
      exact ⟨g, hg, h2, h1⟩
  rw [heq]
  split_ifs with he
  · exact Finset.card_insert_of_notMem fun hc => hmem.1 hc he
  · rw [Finset.insert_eq_of_mem (hmem.2 he), Nat.add_zero]

lemma card_nodes_erase {ns : Bytes} (hmem : ⟨n, ns, v, sb⟩ ∈ held) :
    (nodes held v).card = (nodes (held.erase ⟨n, ns, v, sb⟩) v).card +
      if holders (held.erase ⟨n, ns, v, sb⟩) n ns v = ∅ then 1 else 0 := by
  have hns' : ∀ g ∈ held.erase ⟨n, ns, v, sb⟩, g.ns = ns0 :=
    fun g hg => hns g (mem_of_mem_erase hg)
  have := card_nodes_insert hns' (hns _ hmem) n v sb
  rwa [Finset.insert_erase hmem] at this

end

/-- The sandbox of a create or a rollback. -/
def Op.maker : Op → Option (Nat × Bytes)
  | .create n _ sb _ _ _ => some (n, sb)
  | .undo n _ sb _ _ => some (n, sb)
  | _ => none

/-- The sandbox of a call on a node. -/
def Op.sandbox : Op → Option (Nat × Bytes)
  | .create n _ sb _ _ _ => some (n, sb)
  | .undo n _ sb _ _ => some (n, sb)
  | .destroy n _ sb _ _ _ => some (n, sb)
  | _ => none

/-- A create or a rollback holds its volumes, and alone those whose first attach it has to
report. -/
structure Making (ns0 : Bytes) (w : World) (n : Nat) (ns sb : Bytes)
    (vols events : List Bytes) : Prop where
  one : ns = ns0
  held : ∀ v ∈ vols, ⟨n, ns, v, sb⟩ ∈ w.held
  alone : ∀ v ∈ vols, v ∈ events → ∀ h ∈ w.held, h.vol = v → h.node = n → h.sb = sb
  fresh : w.infos.get (n, sb) = none

def Sound (ns0 : Bytes) (w : World) : Op → Prop
  | .create n ns sb todo done events =>
    Making ns0 w n ns sb done events ∧ (todo ++ done).Nodup ∧ events ⊆ done ∧ events.Nodup
  | .undo n ns sb todo events => Making ns0 w n ns sb todo events ∧ todo.Nodup ∧ events.Nodup
  | .destroy _ ns _ _ _ _ => ns = ns0
  | _ => True

/-- Nobody holds the volume, is about to, or has something to report of it. -/
structure Idle (w : World) (v : Bytes) : Prop where
  free : ∀ h ∈ w.held, h.vol ≠ v
  plus : w.plus v = 0
  minus : w.minus v = 0
  unnamed : ∀ op ∈ w.ops, ¬ op.Names v

structure Inv (ns0 : Bytes) (w : World) : Prop where
  ns : ∀ h ∈ w.held, h.ns = ns0
  sound : ∀ op ∈ w.ops, Sound ns0 w op
  used : ∀ op ∈ w.ops, ∀ k, op.sandbox = some k → k ∈ w.used
  apart : ∀ (i j : Nat) (a b : Op), i ≠ j → w.ops[i]? = some a → w.ops[j]? = some b →
    ∀ k, a.maker = some k → b.sandbox ≠ some k
  infos : ∀ k info, w.infos.get k = some info → k ∈ w.used ∧ info.ns = ns0
  idle : ∀ v, (w.rows.get v = none ∨ ∃ op ∈ w.ops, op.Deletes v) → Idle w v
  balance : ∀ v r, w.rows.get v = some r →
    r + w.plus v = (nodes w.held v).card + w.minus v
  intact : w.broken = []

lemma Inv.start (ns0 : Bytes) : Inv ns0 World.start where
  ns := by simp [World.start]
  sound := by simp [World.start]
  used := by simp [World.start]
  apart := by simp [World.start]
  infos := by simp [World.start]
  idle v _ := ⟨by simp [World.start], rfl, rfl, by simp [World.start]⟩
  balance := by simp [World.start]
  intact := rfl

lemma Op.maker_sandbox {op : Op} {k : Nat × Bytes} (h : op.maker = some k) :
    op.sandbox = some k := by
  cases op <;> first | exact h | cases h

/-- The calls with the `i`-th one at another place of the same call. -/
structure Moves (w w' : World) (i : Nat) (op op' : Op) : Prop where
  at_ : w.ops[i]? = some op
  ops : w'.ops = w.ops.set i op'
  maker : ∀ k, op'.maker = some k → op.maker = some k
  sandbox : ∀ k, op'.sandbox = some k → op.sandbox = some k
  names : ∀ v, op'.Names v → op.Names v
  deletes : ∀ v, op'.Deletes v → op.Deletes v

section

variable {ns0 : Bytes} {w w' : World} {i : Nat} {op op' : Op}

section
variable (m : Moves w w' i op op')
include m

lemma Moves.mem : op ∈ w.ops := mem_of_getElem? m.at_

lemma Moves.cases {j : Nat} (hb : w'.ops[j]? = some b) :
    (j = i ∧ b = op') ∨ (j ≠ i ∧ w.ops[j]? = some b) :=
  Slots.set_cases m.at_ (m.ops ▸ hb)

lemma Moves.mem_cases (hb : b ∈ w'.ops) : b = op' ∨ ∃ j, j ≠ i ∧ w.ops[j]? = some b :=
  Slots.mem_set_cases m.at_ (m.ops ▸ hb)

lemma Moves.plus (v : Bytes) : w'.plus v + w.inflight.count (v, true) + op.plus v =
      w.plus v + w'.inflight.count (v, true) + op'.plus v := by
  have := Slots.sum_map_set (Op.plus v) op' m.at_
  simp only [World.plus, m.ops]
  omega

lemma Moves.minus (v : Bytes) : w'.minus v + w.inflight.count (v, false) + op.minus v =
      w.minus v + w'.inflight.count (v, false) + op'.minus v := by
  have := Slots.sum_map_set (Op.minus v) op' m.at_
  simp only [World.minus, m.ops]
  omega

lemma Moves.plus_eq (hf : w'.inflight = w.inflight) (h : op'.plus v = op.plus v) :
    w'.plus v = w.plus v := by
  have := m.plus v
  rw [hf] at this
  omega

lemma Moves.minus_eq (hf : w'.inflight = w.inflight) (h : op'.minus v = op.minus v) :
    w'.minus v = w.minus v := by
  have := m.minus v
  rw [hf] at this
  omega

lemma Moves.idle (h : Idle w v) (hfree : ∀ g ∈ w'.held, g.vol ≠ v)
    (hplus : w'.plus v = 0) (hminus : w'.minus v = 0) : Idle w' v := by
  refine ⟨hfree, hplus, hminus, fun b hb hn => ?_⟩
  rcases m.mem_cases hb with rfl | ⟨j, -, hb⟩
  · exact h.unnamed op m.mem (m.names v hn)
  · exact h.unnamed b (mem_of_getElem? hb) hn

end

/-- **The rule for one call.** It keeps the invariant if the others rely on nothing it changes, an
idle volume stays idle, and nodes and events change together. -/
lemma Inv.move (hi : Inv ns0 w) (m : Moves w w' i op op')
    (hns : ∀ h ∈ w'.held, h.ns = ns0) (hop : Sound ns0 w' op')
    (hrest : ∀ j b, j ≠ i → w.ops[j]? = some b → Sound ns0 w b → Sound ns0 w' b)
    (hused : w'.used = w.used) (hrows : w'.rows = w.rows) (hbroken : w'.broken = w.broken)
    (hinfos : ∀ k info, w'.infos.get k = some info → k ∈ w.used ∧ info.ns = ns0)
    (hidle : ∀ v, Idle w v → (∀ h ∈ w'.held, h.vol ≠ v) ∧ w'.plus v = 0 ∧ w'.minus v = 0)
    (hbal : ∀ v, (nodes w'.held v).card + w'.minus v + w.plus v =
      (nodes w.held v).card + w.minus v + w'.plus v) : Inv ns0 w' where
  ns := hns
  sound b hb := by
    rcases m.mem_cases hb with rfl | ⟨j, hj, hb⟩
    · exact hop
    · exact hrest j b hj hb (hi.sound b (mem_of_getElem? hb))
  used b hb k hk := by
    rw [hused]
    rcases m.mem_cases hb with rfl | ⟨j, -, hb⟩
    · exact hi.used op m.mem k (m.sandbox k hk)
    · exact hi.used b (mem_of_getElem? hb) k hk
  apart j j' a b hne ha hb k hk := by
    rcases m.cases ha with ⟨rfl, rfl⟩ | ⟨hj, ha⟩ <;>
      rcases m.cases hb with ⟨rfl, rfl⟩ | ⟨hj', hb⟩
    · exact absurd rfl hne
    · exact hi.apart j j' op b hne m.at_ hb k (m.maker k hk)
    · exact fun hs => hi.apart j j' a op hne ha m.at_ k hk (m.sandbox k hs)
    · exact hi.apart j j' a b hne ha hb k hk
  infos k info h := by
    rw [hused]
    exact hinfos k info h
  idle v hv := by
    have hv' : w.rows.get v = none ∨ ∃ op ∈ w.ops, op.Deletes v := by
      rcases hv with hv | ⟨b, hb, hd⟩
      · exact .inl (hrows ▸ hv)
      rcases m.mem_cases hb with rfl | ⟨j, -, hb⟩
      · exact .inr ⟨op, m.mem, m.deletes v hd⟩
      · exact .inr ⟨b, mem_of_getElem? hb, hd⟩
    have hw := hi.idle v hv'
    obtain ⟨h1, h2, h3⟩ := hidle v hw
    exact m.idle hw h1 h2 h3
  balance v r hr := by
    have := hi.balance v r (hrows ▸ hr)
    have := hbal v
    omega
  intact := hbroken.trans hi.intact

/-- A call stays sound if its holds stay, no sandbox joins it on a volume it has to report, and
nobody writes its record. -/
lemma Sound.frame (h : Sound ns0 w b)
    (hheld : ∀ g ∈ w.held, b.maker = some (g.node, g.sb) → g ∈ w'.held)
    (hjoin : ∀ g ∈ w'.held, g ∈ w.held ∨ ¬ b.FirstOn g.node g.vol)
    (hinfos : ∀ k, b.maker = some k → w.infos.get k = none → w'.infos.get k = none) :
    Sound ns0 w' b := by
  cases b with
  | create n ns sb todo done events =>
    obtain ⟨hm, h1, h2, h3⟩ := h
    refine ⟨⟨hm.one, fun v hv => hheld _ (hm.held v hv) rfl, ?_, hinfos _ rfl hm.fresh⟩,
      h1, h2, h3⟩
    intro v hv he g hg hgv hgn
    rcases hjoin g hg with hg | hg
    · exact hm.alone v hv he g hg hgv hgn
    · exact absurd ⟨hgn.symm, hgv ▸ he⟩ hg
  | undo n ns sb todo events =>
    obtain ⟨hm, h1, h2⟩ := h
    refine ⟨⟨hm.one, fun v hv => hheld _ (hm.held v hv) rfl, ?_, hinfos _ rfl hm.fresh⟩,
      h1, h2⟩
    intro v hv he g hg hgv hgn
    rcases hjoin g hg with hg | hg
    · exact hm.alone v hv he g hg hgv hgn
    · exact absurd ⟨hgn.symm, hgv ▸ he, hgv ▸ hv⟩ hg
  | destroy n ns sb todo events failed => exact h
  | delete v => trivial
  | drop v => trivial
  | ended => trivial

lemma Sound.same (h : Sound ns0 w b) (hheld : w'.held = w.held) (hinfos : w'.infos = w.infos) :
    Sound ns0 w' b :=
  h.frame (fun _ hg _ => hheld ▸ hg) (fun _ hg => .inl (hheld ▸ hg)) fun _ _ hk => hinfos ▸ hk

lemma Inv.stay (hi : Inv ns0 w) (m : Moves w (w.setOp i op') i op op') (hop : Sound ns0 w op')
    (hplus : ∀ v, op'.plus v = op.plus v) (hminus : ∀ v, op'.minus v = op.minus v) :
    Inv ns0 (w.setOp i op') := by
  have hp : ∀ v, (w.setOp i op').plus v = w.plus v := fun v => m.plus_eq rfl (hplus v)
  have hm : ∀ v, (w.setOp i op').minus v = w.minus v := fun v => m.minus_eq rfl (hminus v)
  have hkeep : ∀ b, Sound ns0 w b → Sound ns0 (w.setOp i op') b := fun b hb => hb.same rfl rfl
  refine hi.move m hi.ns (hkeep op' hop) (fun j b _ _ => hkeep b) rfl rfl rfl hi.infos ?_ ?_
  · exact fun v hv => ⟨hv.free, (hp v).trans hv.plus, (hm v).trans hv.minus⟩
  intro v
  rw [hp, hm]
  rfl

/-! ### Steps of a call -/

lemma count_ite_cons (c : Prop) [Decidable c] (v u : Bytes) (es : List Bytes) :
    (if c then v :: es else es).count u = es.count u + if c ∧ u = v then 1 else 0 := by
  by_cases hc : c
  · by_cases hu : u = v
    · simp [hc, hu]
    · simp [hc, hu, count_cons_of_ne (Ne.symm hu)]
  · simp [hc]

section

variable (hi : Inv ns0 w)
include hi

lemma Inv.attach {ns : Bytes} {done : List Bytes}
    (hop : w.ops[i]? = some (.create n ns sb (v :: todo) done events))
    (hclear : ∀ b ∈ w.ops, ¬ b.FirstOn n v) :
    let w' : World := { w with
      held := insert ⟨n, ns, v, sb⟩ w.held
      ops := w.ops.set i (.create n ns sb todo (v :: done)
        (if holders w.held n ns v = ∅ then v :: events else events)) }
    Inv ns0 w' := by
  intro w'
  obtain ⟨hm, hnd, hsub, hne⟩ := hi.sound _ (mem_of_getElem? hop)
  have hv : v ∉ todo ∧ v ∉ done := by simpa using (nodup_cons.1 hnd).1
  have hve : v ∉ events := fun h => hv.2 (hsub h)
  have m : Moves w w' i _ _ := ⟨hop, rfl, fun k h => h, fun k h => h, fun u h => by
    rcases h with h | h
    · exact .inl (mem_cons_of_mem _ h)
    rcases mem_cons.1 h with rfl | h
    · exact .inl mem_cons_self
    · exact .inr h, fun u h => h⟩
  have hplus : ∀ u, w'.plus u = w.plus u + if holders w.held n ns v = ∅ ∧ u = v then 1 else 0 :=
    fun u => by
      have h1 := m.plus u
      have h2 : w'.inflight = w.inflight := rfl
      simp only [Op.plus, count_ite_cons, h2] at h1
      omega
  have hminus : ∀ u, w'.minus u = w.minus u := fun u => m.minus_eq rfl rfl
  refine hi.move m ?_ ⟨⟨hm.one, ?_, ?_, hm.fresh⟩, ?_, ?_, ?_⟩ ?_ rfl rfl rfl hi.infos ?_ ?_
  · intro g hg
    rcases mem_insert.1 hg with rfl | hg
    · exact hm.one
    · exact hi.ns g hg
  · intro u hu
    rcases mem_cons.1 hu with rfl | hu
    · exact Finset.mem_insert_self _ _
    · exact Finset.mem_insert_of_mem (hm.held u hu)
  · -- the volume is to be reported only if nobody held it before
    intro u hu he g hg hgv hgn
    rcases mem_insert.1 hg with rfl | hg'
    · rfl
    split_ifs at he with hfirst
    · rcases mem_cons.1 he with rfl | he
      · have hgs := (hi.ns g hg').trans hm.one.symm
        exact absurd hgv (holders_eq_empty.1 hfirst g hg' hgn hgs)
      · exact hm.alone u (hsub he) he g hg' hgv hgn
    · exact hm.alone u (hsub he) he g hg' hgv hgn
  · exact (perm_middle.nodup_iff).2 hnd
  · split_ifs
    · exact cons_subset_cons _ hsub
    · exact subset_cons_of_subset _ hsub
  · split_ifs
    · exact nodup_cons.2 ⟨hve, hne⟩
    · exact hne
  · intro j b _ hb hs
    refine hs.frame (fun g hg _ => Finset.mem_insert_of_mem hg) (fun g hg => ?_) fun k _ h => h
    rcases mem_insert.1 hg with rfl | hg
    · exact .inr (hclear b (mem_of_getElem? hb))
    · exact .inl hg
  · intro u hu
    have huv : v ≠ u := fun e => hu.unnamed _ m.mem (.inl (e ▸ mem_cons_self))
    refine ⟨fun g hg => ?_, ?_, (hminus u).trans hu.minus⟩
    · rcases mem_insert.1 hg with rfl | hg
      · exact huv
      · exact hu.free g hg
    · rw [hplus, hu.plus, if_neg fun h => huv h.2.symm]
  · intro u
    rw [hplus, hminus]
    by_cases huv : u = v
    · subst huv
      have := card_nodes_insert hi.ns hm.one n u sb
      simp only [and_true]
      change (nodes (insert _ w.held) u).card + _ + _ = _
      omega
    · have : nodes w'.held u = nodes w.held u := by
        simp [w', nodes, Finset.filter_insert, Ne.symm huv]
      rw [this, if_neg fun h => huv h.2]
      omega

lemma Inv.frame_erase (m : Moves w w' i op op') {ns : Bytes}
    (hsb : op.sandbox = some (n, sb)) (hheld : w'.held = w.held.erase ⟨n, ns, v, sb⟩)
    (hinfos : w'.infos = w.infos) (j : Nat) (b : Op) (hj : j ≠ i) (hb : w.ops[j]? = some b)
    (hs : Sound ns0 w b) : Sound ns0 w' b := by
  refine hs.frame (fun g hg hk => ?_) (fun g hg => .inl ?_) fun k _ h => hinfos ▸ h
  · rw [hheld, mem_erase]
    refine ⟨?_, hg⟩
    rintro rfl
    exact hi.apart j i b op hj hb m.at_ _ hk hsb
  · rw [hheld] at hg
    exact mem_of_mem_erase hg

/-- **The rollback detaches a volume**: it takes the report of its own first attach with it. -/
lemma Inv.undo {ns : Bytes} (hop : w.ops[i]? = some (.undo n ns sb (v :: todo) events))
    (howner : holders (w.held.erase ⟨n, ns, v, sb⟩) n ns v = ∅ → v ∈ events) :
    let w' : World := { w with
      held := w.held.erase ⟨n, ns, v, sb⟩
      ops := w.ops.set i (.undo n ns sb todo events) }
    Inv ns0 w' := by
  intro w'
  obtain ⟨hm, hnd, hne⟩ := hi.sound _ (mem_of_getElem? hop)
  obtain ⟨hv, hnd⟩ := nodup_cons.1 hnd
  have m : Moves w w' i _ _ := ⟨hop, rfl, fun k h => h, fun k h => h,
    fun u h => mem_cons_of_mem _ h, fun u h => h⟩
  have hlast : holders (w.held.erase ⟨n, ns, v, sb⟩) n ns v = ∅ ↔ v ∈ events := by
    refine ⟨howner, fun he => holders_eq_empty.2 fun g hg hgn hgs hgv => ?_⟩
    have hsb := hm.alone v mem_cons_self he g (mem_of_mem_erase hg) hgv hgn
    refine Finset.ne_of_mem_erase hg ?_
    rcases g with ⟨gn, gs, gv, gb⟩
    simp_all
  have hplus : ∀ u, w.plus u = w'.plus u + if v ∈ events ∧ u = v then 1 else 0 := fun u => by
    have h1 := m.plus u
    have h2 : w'.inflight = w.inflight := rfl
    simp only [Op.plus, h2, mem_cons] at h1
    by_cases huv : u = v
    · subst huv
      have h3 := nodup_iff_count_le_one.1 hne u
      have h4 := count_pos_iff (l := events) (a := u)
      simp only [true_or, if_true, hv, if_false, and_true] at h1 ⊢
      split_ifs with he
      · have := h4.2 he
        omega
      · have := mt h4.1 he
        omega
    · simp only [huv, false_or, and_false, if_false] at h1 ⊢
      omega
  have hminus : ∀ u, w'.minus u = w.minus u := fun u => m.minus_eq rfl rfl
  refine hi.move m (fun g hg => hi.ns g (mem_of_mem_erase hg))
    ⟨⟨hm.one, fun u hu => ?_, fun u hu he g hg => ?_, hm.fresh⟩, hnd, hne⟩
    (hi.frame_erase m rfl rfl rfl) rfl rfl rfl hi.infos ?_ ?_
  · refine mem_erase.2 ⟨fun e => ?_, hm.held u (mem_cons_of_mem _ hu)⟩
    simp only [Hold.mk.injEq, true_and, and_true] at e
    exact hv (e ▸ hu)
  · exact hm.alone u (mem_cons_of_mem _ hu) he g (mem_of_mem_erase hg)
  · intro u hu
    refine ⟨fun g hg => hu.free g (mem_of_mem_erase hg), ?_, (hminus u).trans hu.minus⟩
    have := hplus u
    have := hu.plus
    omega
  intro u
  rw [hplus, hminus]
  by_cases huv : u = v
  · subst huv
    have h1 := card_nodes_erase hi.ns (hm.held u mem_cons_self)
    simp only [hlast] at h1
    simp only [and_true]
    change (nodes (w.held.erase _) u).card + _ + _ = _
    omega
  · have h1 : nodes w'.held u = nodes w.held u := nodes_erase_ne (Ne.symm huv)
    simp only [h1, huv, and_false, if_false]
    omega

lemma Inv.detach {ns : Bytes} {failed : Bool}
    (hop : w.ops[i]? = some (.destroy n ns sb (v :: todo) events failed)) :
    let w' : World := { w with
      held := w.held.erase ⟨n, ns, v, sb⟩
      ops := w.ops.set i (.destroy n ns sb todo
        (if ⟨n, ns, v, sb⟩ ∈ w.held ∧ holders (w.held.erase ⟨n, ns, v, sb⟩) n ns v = ∅
          then v :: events else events) failed) }
    Inv ns0 w' := by
  intro w'
  have hone : ns = ns0 := hi.sound _ (mem_of_getElem? hop)
  have m : Moves w w' i _ _ := ⟨hop, rfl, fun k h => h, fun k h => h, fun u h => h,
    fun u h => h⟩
  have hplus : ∀ u, w'.plus u = w.plus u := fun u => m.plus_eq rfl rfl
  have hminus : ∀ u, w'.minus u = w.minus u + if (⟨n, ns, v, sb⟩ ∈ w.held ∧
      holders (w.held.erase ⟨n, ns, v, sb⟩) n ns v = ∅) ∧ u = v then 1 else 0 := fun u => by
    have h1 := m.minus u
    have h2 : w'.inflight = w.inflight := rfl
    simp only [Op.minus, count_ite_cons, h2] at h1
    omega
  refine hi.move m (fun g hg => hi.ns g (mem_of_mem_erase hg)) hone
    (hi.frame_erase m rfl rfl rfl) rfl rfl rfl hi.infos ?_ ?_
  · intro u hu
    refine ⟨fun g hg => hu.free g (mem_of_mem_erase hg), (hplus u).trans hu.plus, ?_⟩
    rw [hminus, hu.minus, if_neg fun h => hu.free _ h.1.1 h.2.symm]
  intro u
  rw [hplus, hminus]
  by_cases huv : u = v
  · subst huv
    by_cases hh : ⟨n, ns, u, sb⟩ ∈ w.held
    · have := card_nodes_erase hi.ns hh
      simp only [hh, true_and, and_true]
      change (nodes (w.held.erase _) u).card + _ + _ = _
      omega
    · have : w'.held = w.held := Finset.erase_eq_of_notMem hh
      simp only [this, hh, false_and, if_false]
      omega
  · have : nodes w'.held u = nodes w.held u := nodes_erase_ne (Ne.symm huv)
    simp only [this, huv, and_false, if_false]
    omega

lemma Inv.finish (hop : w.ops[i]? = some op) {infos : Tbl (Nat × Bytes) Info}
    {sent : List (Bytes × Bool)}
    (hinfos : ∀ k info, infos.get k = some info → k ∈ w.used ∧ info.ns = ns0)
    (hsame : ∀ k, op.sandbox ≠ some k → infos.get k = w.infos.get k)
    (hplus : ∀ v, sent.count (v, true) = op.plus v)
    (hminus : ∀ v, sent.count (v, false) = op.minus v) :
    let w' : World :=
      { w with infos := infos, inflight := sent ++ w.inflight, ops := w.ops.set i .ended }
    Inv ns0 w' := by
  intro w'
  have m : Moves w w' i op .ended := ⟨hop, rfl, nofun, nofun, nofun, nofun⟩
  have hflight : w'.inflight = sent ++ w.inflight := rfl
  have hp : ∀ u, w'.plus u = w.plus u := fun u => by
    have := m.plus u
    have := hplus u
    simp only [hflight, count_append, Op.plus] at *
    omega
  have hm : ∀ u, w'.minus u = w.minus u := fun u => by
    have := m.minus u
    have := hminus u
    simp only [hflight, count_append, Op.minus] at *
    omega
  refine hi.move m hi.ns trivial (fun j b hj hb hs => ?_) rfl rfl rfl hinfos ?_ ?_
  · refine hs.frame (fun g hg _ => hg) (fun g hg => .inl hg) fun k hk h => ?_
    exact (hsame k (hi.apart j i b op hj hb hop k hk)).trans h
  · exact fun u hu => ⟨hu.free, (hp u).trans hu.plus, (hm u).trans hu.minus⟩
  · intro u
    rw [hp, hm]

end

lemma Sound.fresh {k : Nat × Bytes} (h : Sound ns0 w b) (hk : b.maker = some k) :
    w.infos.get k = none := by
  cases b with
  | create n ns sb todo done events => exact some.inj hk ▸ h.1.fresh
  | undo n ns sb todo events => exact some.inj hk ▸ h.1.fresh
  | _ => cases hk

lemma Inv.begin (hi : Inv ns0 w) {used : List (Nat × Bytes)} (hused : w.used ⊆ used)
    (hsound : Sound ns0 w op) (hop : ∀ k, op.sandbox = some k → k ∈ used)
    (hmaker : ∀ k, op.maker = some k → k ∉ w.used)
    (hfree : ∀ k, op.sandbox = some k → op.maker = none → w.infos.get k ≠ none)
    (hplus : ∀ v, op.plus v = 0) (hminus : ∀ v, op.minus v = 0)
    (hnames : ∀ v, op.Names v → w.rows.get v ≠ none ∧ ∀ b ∈ w.ops, ¬ b.Deletes v)
    (hdel : ∀ v, op.Deletes v → Idle w v ∧ ¬ op.Names v) :
    let w' : World := { w with used := used, ops := w.ops ++ [op] }
    Inv ns0 w' := by
  intro w'
  have hmem : ∀ b ∈ w'.ops, b ∈ w.ops ∨ b = op := fun b hb => by simpa [w'] using hb
  have hp : ∀ u, w'.plus u = w.plus u := fun u => by simp [World.plus, w', hplus]
  have hm : ∀ u, w'.minus u = w.minus u := fun u => by simp [World.minus, w', hminus]
  have hkeep : ∀ b, Sound ns0 w b → Sound ns0 w' b := fun b hb => hb.same rfl rfl
  exact { hi with
    sound := fun b hb => by
      rcases hmem b hb with hb | rfl
      · exact hkeep b (hi.sound b hb)
      · exact hkeep b hsound
    used := fun b hb k hk => by
      rcases hmem b hb with hb | rfl
      · exact hused (hi.used b hb k hk)
      · exact hop k hk
    apart := fun j j' a b hne ha hb k hk hs => by
      rcases Slots.append_cases ha with ⟨rfl, rfl⟩ | ⟨-, ha'⟩ <;>
        rcases Slots.append_cases hb with ⟨rfl, rfl⟩ | ⟨-, hb'⟩
      · exact hne rfl
      · exact hmaker k hk (hi.used b (mem_of_getElem? hb') k hs)
      · -- the new call is not on a sandbox that is being made
        have ham := mem_of_getElem? ha'
        cases hmk : b.maker with
        | none => exact hfree k hs hmk ((hi.sound a ham).fresh hk)
        | some k' =>
          have hkk : k' = k := some.inj ((Op.maker_sandbox hmk).symm.trans hs)
          exact hmaker k (hkk ▸ hmk) (hi.used a ham k (Op.maker_sandbox hk))
      · exact hi.apart j j' a b hne ha' hb' k hk hs
    infos := fun k info h => ⟨hused (hi.infos k info h).1, (hi.infos k info h).2⟩
    idle := fun v hv => by
      have hv' : Idle w v ∧ ¬ op.Names v := by
        rcases hv with hv | ⟨b, hb, hd⟩
        · exact ⟨hi.idle v (.inl hv), fun h => (hnames v h).1 hv⟩
        rcases hmem b hb with hb | rfl
        · exact ⟨hi.idle v (.inr ⟨b, hb, hd⟩), fun h => (hnames v h).2 b hb hd⟩
        · exact hdel v hd
      refine ⟨hv'.1.free, (hp v).trans hv'.1.plus, (hm v).trans hv'.1.minus, fun b hb => ?_⟩
      rcases hmem b hb with hb | rfl
      · exact hv'.1.unnamed b hb
      · exact hv'.2
    balance := fun v r hr => by
      rw [hp, hm]
      exact hi.balance v r hr }

/-! ### Steps of the table of volumes -/

lemma Inv.newVolume (hi : Inv ns0 w) (hv : w.rows.get v = none) :
    Inv ns0 { w with rows := w.rows.put v 0 } := by
  refine { hi with
    sound := fun b hb => (hi.sound b hb).same rfl rfl
    idle := fun u hu => ?_
    balance := fun u r hr => ?_ }
  · have hu' : w.rows.get u = none ∨ ∃ op ∈ w.ops, op.Deletes u := by
      rcases hu with hu | hu
      · by_cases huv : u = v
        · exact .inl (huv ▸ hv)
        · exact .inl (by rwa [get_put_ne _ _ huv] at hu)
      · exact .inr hu
    have := hi.idle u hu'
    exact { this with }
  · rcases get_put_eq_some.1 hr with ⟨rfl, rfl⟩ | ⟨-, hr⟩
    · have h := hi.idle u (.inl hv)
      have hn := nodes_eq_empty.2 h.free
      have hp : World.plus w u = 0 := h.plus
      have hm : World.minus w u = 0 := h.minus
      change 0 + w.plus u = (nodes w.held u).card + w.minus u
      rw [hn, hp, hm, Finset.card_empty]
    · exact hi.balance u r hr

lemma count_eraseIdx {α : Type} [BEq α] [LawfulBEq α] {l : List α} {k : Nat} {a : α}
    (h : l[k]? = some a) (b : α) : l.count b = (l.eraseIdx k).count b + [a].count b := by
  obtain ⟨hk, rfl⟩ := List.getElem?_eq_some_iff.1 h
  rw [← (getElem_cons_eraseIdx_perm hk).count_eq b, count_cons, count_singleton]

lemma get_apply (rows : Tbl Bytes Nat) (v : Bytes) (up : Bool) (u : Bytes) :
    (apply rows (v, up)).get u =
      if u = v then (rows.get v).map fun r => if up then r + 1 else r - 1 else rows.get u := by
  cases h : rows.get v with
  | none =>
    simp only [apply, h, map_none]
    split_ifs with huv
    · exact huv ▸ h
    · rfl
  | some r =>
    simp only [apply, h, map_some]
    split_ifs with huv <;> simp_all [get_put_ne]

lemma Inv.apply (hi : Inv ns0 w) {k : Nat} {up : Bool} (hk : w.inflight[k]? = some (v, up))
    (hpos : up = false → w.rows.get v ≠ some 0) :
    let w' : World :=
      { w with rows := Volume.apply w.rows (v, up), inflight := w.inflight.eraseIdx k }
    Inv ns0 w' := by
  intro w'
  have hp : ∀ u, w.plus u = w'.plus u + if up = true ∧ u = v then 1 else 0 := fun u => by
    have h1 := count_eraseIdx hk (u, true)
    simp only [World.plus, w']
    cases up <;> by_cases huv : v = u <;> simp_all [eq_comm]
    omega
  have hm : ∀ u, w.minus u = w'.minus u + if up = false ∧ u = v then 1 else 0 := fun u => by
    have h1 := count_eraseIdx hk (u, false)
    simp only [World.minus, w']
    cases up <;> by_cases huv : v = u <;> simp_all [eq_comm]
    omega
  have hrows : ∀ u, w'.rows.get u = if u = v then (w.rows.get v).map fun r =>
      if up then r + 1 else r - 1 else w.rows.get u := get_apply w.rows v up
  have hidle : ∀ u, (w'.rows.get u = none ∨ ∃ op ∈ w'.ops, op.Deletes u) → Idle w' u := by
    intro u hu
    have hu' : w.rows.get u = none ∨ ∃ op ∈ w.ops, op.Deletes u := by
      refine hu.imp (fun h => ?_) id
      rw [hrows] at h
      by_cases huv : u = v
      · rw [if_pos huv, map_eq_none_iff] at h
        exact huv ▸ h
      · rwa [if_neg huv] at h
    have h := hi.idle u hu'
    have h1 := hp u
    have h2 := hm u
    have h3 := h.plus
    have h4 := h.minus
    exact ⟨h.free, by omega, by omega, h.unnamed⟩
  have hbal : ∀ u r, w'.rows.get u = some r →
      r + w'.plus u = (nodes w'.held u).card + w'.minus u := by
    intro u r hr
    have h1 := hp u
    have h2 := hm u
    rw [hrows] at hr
    change _ = (nodes w.held u).card + _
    by_cases huv : u = v
    · subst huv
      rw [if_pos rfl] at hr
      obtain ⟨r', hr', rfl⟩ := map_eq_some_iff.1 hr
      have h3 := hi.balance u r' hr'
      cases up with
      | true =>
        simp only [and_true, if_true, Bool.true_eq_false, if_false] at h1 h2 ⊢
        omega
      | false =>
        have : r' ≠ 0 := fun e => hpos rfl (e ▸ hr')
        simp only [and_true, if_true, Bool.false_eq_true, if_false] at h1 h2 ⊢
        omega
    · rw [if_neg huv] at hr
      have h3 := hi.balance u r hr
      simp only [huv, and_false, if_false] at h1 h2
      omega
  exact { hi with
    sound := fun b hb => (hi.sound b hb).same rfl rfl
    idle := hidle
    balance := hbal }

lemma Sound.plus_eq_zero (h : Sound ns0 w b) (hn : ¬ b.Names v) : b.plus v = 0 := by
  cases b with
  | create n ns sb todo done events =>
    exact count_eq_zero.2 fun he => hn (.inr (h.2.2.1 he))
  | undo n ns sb todo events => exact if_neg hn
  | _ => rfl

/-- A count of zero is right while no create has the volume and no increment is on its way. -/
lemma Inv.idle_of_zero (hi : Inv ns0 w) (hv : w.rows.get v = some 0)
    (hflight : (v, true) ∉ w.inflight) (hnames : ∀ b ∈ w.ops, ¬ b.Names v) : Idle w v := by
  have hops : (w.ops.map (Op.plus v)).sum = 0 := by
    refine sum_eq_zero fun x hx => ?_
    obtain ⟨b, hb, rfl⟩ := mem_map.1 hx
    exact (hi.sound b hb).plus_eq_zero (hnames b hb)
  have hplus : w.plus v = 0 := by
    rw [World.plus, hops, count_eq_zero.2 hflight]
  have hbal := hi.balance v 0 hv
  have hcard : (nodes w.held v).card = 0 := by omega
  exact ⟨nodes_eq_empty.1 (Finset.card_eq_zero.1 hcard), hplus, by omega, hnames⟩

lemma Inv.dropRow (hi : Inv ns0 w) (hop : w.ops[i]? = some (.drop v)) :
    Inv ns0 { w with rows := w.rows.del v, ops := w.ops.set i .ended } := by
  have m : Moves w (w.setOp i .ended) i (.drop v) .ended :=
    ⟨hop, rfl, nofun, nofun, nofun, nofun⟩
  have hv := hi.idle v (.inr ⟨_, m.mem, rfl⟩)
  have hv' : Idle (w.setOp i .ended) v := m.idle hv hv.free
    ((m.plus_eq rfl rfl).trans hv.plus) ((m.minus_eq rfl rfl).trans hv.minus)
  have hs : Inv ns0 (w.setOp i .ended) := hi.stay m trivial (fun _ => rfl) fun _ => rfl
  exact { hs with
    sound := fun b hb => (hs.sound b hb).same rfl rfl
    idle := fun u hu => by
      have h : Idle (w.setOp i .ended) u := by
        by_cases huv : u = v
        · exact huv ▸ hv'
        · refine hs.idle u (hu.imp (fun h => ?_) id)
          rwa [get_del_ne _ huv] at h
      exact { h with }
    balance := fun u r hr => hs.balance u r (get_del_eq_some.1 hr).2 }

end

lemma inv_step {ns0 : Bytes} (w : World) (e : Event) (w' : World) (hi : Inv ns0 w)
    (hok : Orderly ns0 w e) (h : step w e = some w') : Inv ns0 w' := by
  cases e <;> simp only [step] at h
  case newVolume v =>
    split_ifs at h with hv
    cases h
    exact hi.newVolume hv
  case create n ns sb vols =>
    split_ifs at h with hg
    cases h
    obtain ⟨rfl, hnd, hdel⟩ := hok
    have hfresh : w.infos.get (n, sb) = none := by
      by_contra hc
      obtain ⟨info, hinfo⟩ := ne_none_iff_exists'.1 hc
      exact hg.1 (hi.infos _ info hinfo).1
    refine hi.begin (subset_cons_self _ _) ?_ ?_ ?_ nofun (fun _ => rfl) (fun _ => rfl)
      ?_ nofun
    · exact ⟨⟨rfl, nofun, nofun, hfresh⟩, by simpa using hnd, nil_subset _, nodup_nil⟩
    · rintro k hk
      exact some.inj hk ▸ mem_cons_self
    · rintro k hk
      exact some.inj hk ▸ hg.1
    · rintro v (hv | hv)
      · exact ⟨hg.2 v hv, hdel v hv⟩
      · cases hv
  case attach i =>
    split at h <;> cases h
    rename_i n ns sb v todo done events hop
    have := hi.attach hop (hok _ hop)
    simpa [Volume.attach] using this
  case fail i order =>
    split at h <;> try cases h
    rename_i n ns sb todo done events hop
    split_ifs at h with hp
    cases h
    obtain ⟨hm, hnd, hsub, hne⟩ := hi.sound _ (mem_of_getElem? hop)
    refine hi.stay ⟨hop, rfl, fun k h => h, fun k h => h,
      fun v hv => .inr (hp.subset hv), fun v h => h⟩ ⟨⟨hm.one, ?_, ?_, hm.fresh⟩, ?_, hne⟩
      (fun v => ?_) fun _ => rfl
    · exact fun v hv => hm.held v (hp.subset hv)
    · exact fun v hv => hm.alone v (hp.subset hv)
    · exact hp.nodup_iff.2 (nodup_append.1 hnd).2.1
    simp only [Op.plus]
    split_ifs with hv
    · rfl
    · exact (count_eq_zero.2 fun he => hv (hp.symm.subset (hsub he))).symm
  case succeed i =>
    split at h <;> cases h
    rename_i n ns sb done events hop
    have hm := (hi.sound _ (mem_of_getElem? hop)).1
    refine hi.finish hop (fun k info h => ?_) (fun k hk => ?_) (fun v => ?_) fun v => ?_
    · rcases get_put_eq_some.1 h with ⟨rfl, rfl⟩ | ⟨-, h⟩
      · exact ⟨hi.used _ (mem_of_getElem? hop) _ rfl, hm.one⟩
      · exact hi.infos k info h
    · exact get_put_ne _ _ fun e => hk (congrArg some e.symm)
    · rw [count_map_pair, if_pos rfl]
      rfl
    · rw [count_map_pair, if_neg (by decide)]
      rfl
  case undo i ok =>
    obtain ⟨rfl, howner⟩ := hok
    split at h <;> cases h
    rename_i n ns sb v todo events hop
    exact hi.undo hop (howner _ hop)
  case undone i =>
    split at h <;> cases h
    rename_i hop
    exact hi.stay ⟨hop, rfl, nofun, nofun, nofun, nofun⟩ trivial (fun _ => rfl) fun _ => rfl
  case destroy n sb order =>
    split at h <;> try cases h
    rename_i info hinfo
    split_ifs at h with hp
    cases h
    obtain ⟨hu, hns⟩ := hi.infos _ _ hinfo
    refine hi.begin (List.Subset.refl _) hns ?_ nofun ?_ (fun _ => rfl) (fun _ => rfl) nofun
      nofun
    · exact fun k hk => some.inj hk ▸ hu
    · exact fun k hk _ => some.inj hk ▸ by simp [hinfo]
  case detach i ok =>
    split at h <;> try cases h
    rename_i n ns sb v todo events failed hop
    cases ok with
    | true =>
      cases h
      have := hi.detach hop
      simpa [Volume.detach] using this
    | false =>
      cases h
      have hone : ns = ns0 := hi.sound _ (mem_of_getElem? hop)
      exact hi.stay ⟨hop, rfl, nofun, fun k h => h, nofun, nofun⟩ hone (fun _ => rfl)
        fun _ => rfl
  case answer i ok =>
    split at h <;> try cases h
    rename_i n ns sb events failed hop
    split_ifs at h with hb hf
    · cases h
      refine hi.finish hop (fun k info h => ?_) (fun k hk => ?_) (fun v => ?_) fun v => ?_
      · exact hi.infos k info (get_del_eq_some.1 h).2
      · exact get_del_ne _ fun e => hk (congrArg some e.symm)
      · rw [count_map_pair, if_neg (by decide)]
        rfl
      · rw [count_map_pair, if_pos rfl]
        rfl
    · cases h
      have he : events = [] := hok (by simpa using hb) _ hop
      subst he
      exact hi.stay ⟨hop, rfl, nofun, nofun, nofun, nofun⟩ trivial (fun _ => rfl)
        fun _ => rfl
  case apply k =>
    split at h <;> cases h
    rename_i e hk
    exact hi.apply hk (hok e hk)
  case delete v =>
    split_ifs at h with hv
    cases h
    refine hi.begin (List.Subset.refl _) trivial nofun nofun nofun (fun _ => rfl)
      (fun _ => rfl) nofun ?_
    rintro u rfl
    exact ⟨hi.idle_of_zero hv hok.1 hok.2, id⟩
  case destroyBackend i ok =>
    split at h <;> try cases h
    rename_i v hop
    cases ok with
    | true =>
      cases h
      have hv := hi.idle v (.inr ⟨_, mem_of_getElem? hop, rfl⟩)
      rw [if_pos (nodes_eq_empty.2 hv.free)]
      exact hi.stay ⟨hop, rfl, nofun, nofun, nofun, fun u h => h⟩ trivial (fun _ => rfl)
        fun _ => rfl
    | false =>
      cases h
      exact hi.stay ⟨hop, rfl, nofun, nofun, nofun, nofun⟩ trivial (fun _ => rfl)
        fun _ => rfl
  case dropRow i ok =>
    split at h <;> try cases h
    rename_i v hop
    split_ifs at h with hb
    · cases h
      exact hi.dropRow hop
    cases h
    exact hi.stay ⟨hop, rfl, nofun, nofun, nofun, nofun⟩ trivial (fun _ => rfl)
      fun _ => rfl

def ns : Bytes := ascii "default"
def vol : Bytes := ascii "vol-1"

/-- Two nodes hold the volume, one lets go of it, and another create is rolled back. -/
def tidyRun : List Event :=
  [.newVolume vol, .create 1 ns (ascii "a") [vol], .attach 0, .succeed 0, .apply 0,
    .create 1 ns (ascii "b") [vol], .create 2 ns (ascii "c") [vol], .attach 1, .attach 2,
    .fail 1 [vol], .undo 1 true, .undone 1, .succeed 2, .destroy 1 (ascii "a") [vol],
    .detach 3 true, .answer 3 true, .apply 1, .apply 0]

structure Facts where
  count : Option Nat
  nodes : Nat
  quiet : Bool
  broken : List Bytes
  deriving DecidableEq

def World.facts (w : World) : Facts where
  count := w.rows.get vol
  nodes := (Volume.nodes w.held vol).card
  quiet := decide (w.inflight = []) && w.ops.all fun op => decide (op = .ended)
  broken := w.broken

end CubeSandbox.Volume
