import CubeSandbox.RecordModel

/-!
What holds of the records of the sandboxes at every moment: who may still write one, and that
nobody may once a destroy has deleted it.

A handler of events writes under the lock of the sandbox, after it has seen that the sandbox is
not marked; a destroy that has held that lock of a marked sandbox leaves no such handler behind.
A request under the lifecycle lock excludes a destroy that holds the same lock.
-/

namespace CubeSandbox.Record

open GoText Conc Multiset

/-- Neither the index nor the database has the sandbox, and no restart brings it back. -/
structure Gone (w : World) (id : Id) : Prop where
  index : w.index.get id = none
  row : w.rows.get id = none
  reload : ∀ skipped, (w.reload skipped).get id = none

/-- What a destroy has done against a writer that relies on this. -/
def Guard.covered (key : Id) (boxed life : Bool) : Guard → Bool
  | .free => false
  | .event b => boxed && b = key
  | .life k => life && k = key

/-- A destroy that deletes a record names the sandbox by its id, finds the bucket, and comes neither
during the creation of the sandbox nor between the look and the write of a writer that it is not
covered against. -/
def Apart (w : World) : Act → Outcome → Prop
  | .deleteTx key target boxed life, o => o = .ok → w.has target →
      key = target ∧ shard key ∈ w.buckets ∧ key ∉ w.creating ∧
        ∀ x ∈ w.windows, x.1 = key → x.2.covered key boxed life
  | _, _ => True

instance (w : World) (a : Act) (o : Outcome) : Decidable (Apart w a o) := by
  unfold Apart
  split <;> infer_instance

/-- What a thread owns: a creation; a look that a write will follow; the lock of a sandbox, also by
a handler that has seen no mark, and between its look and its write; a lifecycle lock, with the
same; the knowledge that a sandbox is marked, and that no handler will write it. -/
inductive Tok
  | idle
  | creating (id : Id)
  | free (x : Id)
  | boxed (b : Id)
  | fresh (b : Id)
  | writing (b x : Id)
  | live (k : Id)
  | saving (k x : Id)
  | marked (b : Id)
  | clear (b : Id)
  deriving DecidableEq

variable {b k id key : Id}

namespace Tok

def box : Tok → Option Id
  | boxed b | fresh b | writing b _ => some b
  | _ => none

def life : Tok → Option Id
  | live k | saving k _ => some k
  | _ => none

/-- The sandbox that a handler has seen without a mark. -/
def writer : Tok → Option Id
  | fresh b | writing b _ => some b
  | _ => none

def target : Tok → Option Id
  | creating x | free x | writing _ x | saving _ x => some x
  | _ => none

lemma box_of_writer {t : Tok} (h : t.writer = some b) : t.box = some b := by
  cases t <;> simp_all [writer, box]

end Tok

namespace Guard

/-- What a writer owns before its look and after its write. -/
def idle : Guard → Tok
  | free => .idle
  | event b => .fresh b
  | life k => .live k

/-- What it owns in between. -/
def win (x : Id) : Guard → Tok
  | free => .free x
  | event b => .writing b x
  | life k => .saving k x

/-- The token of a guard, if there is one. -/
def own : Guard → Multiset Tok
  | free => 0
  | event b => {.fresh b}
  | life k => {.live k}

variable (g : Guard) (x : Id)

lemma win_inj {g' : Guard} {x' : Id} : g.win x = g'.win x' ↔ x = x' ∧ g = g' := by
  cases g <;> cases g' <;> simp [win, and_comm]

@[simp] lemma box_win : (g.win x).box = g.idle.box := by cases g <;> rfl

@[simp] lemma life_win : (g.win x).life = g.idle.life := by cases g <;> rfl

@[simp] lemma writer_win : (g.win x).writer = g.idle.writer := by cases g <;> rfl

@[simp] lemma target_win : (g.win x).target = some x := by cases g <;> rfl

@[simp] lemma target_idle : g.idle.target = none := by cases g <;> rfl

lemma idle_ne_win (g' : Guard) : g.idle ≠ g'.win x := by
  cases g <;> cases g' <;> simp [idle, win]

end Guard

/-- The tokens account for the history and the locks, and nobody is left who could write the record
of a destroyed sandbox. -/
structure Inv (w : World) (R : Multiset Tok) : Prop where
  windows : ∀ x g, R.count (Guard.win x g) ≤ w.windows.count (x, g)
  creating : ∀ id, R.count (.creating id) ≤ w.creating.count id
  boxes : ∀ b, R.countP (fun t => t.box = some b) = w.boxes.count b
  boxOnce : w.boxes.Nodup
  lives : ∀ k, R.countP (fun t => t.life = some k) = w.lives.count k
  lifeOnce : w.lives.Nodup
  marked : ∀ b, Tok.marked b ∈ R → b ∈ w.marked
  clear : ∀ b, Tok.clear b ∈ R → b ∈ w.marked ∧ ∀ t ∈ R, t.writer ≠ some b
  targets : ∀ t ∈ R, ∀ x, t.target = some x → x ∈ w.used
  known : ∀ id, w.has id → id ∈ w.used
  gone : ∀ id ∈ w.destroyed, id ∈ w.used ∧ w.has id = false ∧ ∀ t ∈ R, t.target ≠ some id

lemma inv_init : Inv World.init 0 where
  windows := by simp
  creating := by simp
  boxes := fun _ => rfl
  boxOnce := by simp [World.init]
  lives := fun _ => rfl
  lifeOnce := by simp [World.init]
  marked := by simp
  clear := by simp
  targets := by simp
  known := by simp [World.init, World.has]
  gone := by simp [World.init]

lemma World.has_eq_false {w : World} :
    w.has id = false ↔ w.index.get id = none ∧ w.rows.get id = none := by
  simp [World.has]

lemma Inv.goneOf {w : World} {R : Multiset Tok} (h : Inv w R) (hid : id ∈ w.destroyed) :
    Gone w id := by
  obtain ⟨hindex, hrow⟩ := World.has_eq_false.1 (h.gone id hid).2.1
  refine ⟨hindex, hrow, fun skipped => ?_⟩
  rw [World.reload, Tbl.get_delAll, hrow]
  split <;> rfl

section Steps

variable {w : World} {F R : Multiset Tok} {a a' : Tok}

lemma Inv.swap (h : Inv w (a ::ₘ F)) (ws : List (Id × Guard))
    (hwin : ∀ x g, (if Guard.win x g = a' then 1 else 0) + w.windows.count (x, g) ≤
      (if Guard.win x g = a then 1 else 0) + ws.count (x, g))
    (hcreating : ∀ id, a' ≠ .creating id)
    (hbox : a'.box = a.box) (hlife : a'.life = a.life)
    (hwriter : ∀ b, a'.writer = some b → a.writer = some b ∨ b ∉ w.marked)
    (hmarked : ∀ b, a' = .marked b → b ∈ w.marked)
    (hclear : ∀ b, a' = .clear b → b ∈ w.marked ∧ ∀ t ∈ F, t.writer ≠ some b)
    (htarget : ∀ x, a'.target = some x → x ∈ w.used ∧ x ∉ w.destroyed) :
    Inv { w with windows := ws } (a' ::ₘ F) where
  windows x g := by
    have hx := h.windows x g
    have hw := hwin x g
    rw [count_cons] at hx ⊢
    change _ ≤ ws.count (x, g)
    omega
  creating id := by
    rw [count_cons_of_ne fun heq => hcreating id heq.symm]
    exact (count_le_of_le _ (le_cons_self _ _)).trans (h.creating id)
  boxes b := by
    have hb := h.boxes b
    rw [countP_cons] at hb ⊢
    rwa [hbox]
  boxOnce := h.boxOnce
  lives k := by
    have hk := h.lives k
    rw [countP_cons] at hk ⊢
    rwa [hlife]
  lifeOnce := h.lifeOnce
  marked b hb := by
    rcases mem_cons.1 hb with heq | hb
    · exact hmarked b heq.symm
    · exact h.marked b (mem_cons_of_mem hb)
  clear b hb := by
    rcases mem_cons.1 hb with heq | hb
    · obtain ⟨hm, hF⟩ := hclear b heq.symm
      refine ⟨hm, fun t ht => ?_⟩
      rcases mem_cons.1 ht with rfl | ht
      · simp [← heq, Tok.writer]
      · exact hF t ht
    obtain ⟨hm, hF⟩ := h.clear b (mem_cons_of_mem hb)
    refine ⟨hm, fun t ht htb => ?_⟩
    rcases mem_cons.1 ht with rfl | ht
    · rcases hwriter b htb with ha | hn
      · exact hF a (mem_cons_self _ _) ha
      · exact hn hm
    · exact hF t (mem_cons_of_mem ht) htb
  targets t ht x hx := by
    rcases mem_cons.1 ht with rfl | ht
    · exact (htarget x hx).1
    · exact h.targets t (mem_cons_of_mem ht) x hx
  known := h.known
  gone id hid := by
    obtain ⟨hused, hhas, hF⟩ := h.gone id hid
    refine ⟨hused, hhas, fun t ht hx => ?_⟩
    rcases mem_cons.1 ht with rfl | ht
    · exact (htarget id hx).2 hid
    · exact hF t (mem_cons_of_mem ht) hx

lemma Inv.add (h : Inv w F) {boxes lives creating used : List Id}
    (hbox : ∀ b, boxes.count b = w.boxes.count b + if a.box = some b then 1 else 0)
    (hboxOnce : boxes.Nodup)
    (hlife : ∀ k, lives.count k = w.lives.count k + if a.life = some k then 1 else 0)
    (hlifeOnce : lives.Nodup)
    (hcreating : ∀ id, (w.creating.count id + if .creating id = a then 1 else 0) ≤
      creating.count id)
    (hused : ∀ id ∈ w.used, id ∈ used) (hwin : ∀ x g, Guard.win x g ≠ a)
    (hwriter : a.writer = none) (hmarked : ∀ b, a ≠ .marked b) (hclear : ∀ b, a ≠ .clear b)
    (htarget : ∀ x, a.target = some x → x ∈ used ∧ x ∉ w.destroyed) :
    Inv { w with boxes := boxes, lives := lives, creating := creating, used := used }
      (a ::ₘ F) where
  windows x g := by
    rw [count_cons_of_ne (hwin x g)]
    exact h.windows x g
  creating id := by
    have hid := h.creating id
    have hle := hcreating id
    rw [count_cons]
    change _ ≤ creating.count id
    omega
  boxes b := by
    rw [countP_cons, h.boxes b]
    exact (hbox b).symm
  boxOnce := hboxOnce
  lives k := by
    rw [countP_cons, h.lives k]
    exact (hlife k).symm
  lifeOnce := hlifeOnce
  marked b hb := h.marked b ((mem_cons.1 hb).resolve_left fun heq => hmarked b heq.symm)
  clear b hb := by
    obtain ⟨hm, hF⟩ := h.clear b
      ((mem_cons.1 hb).resolve_left fun heq => hclear b heq.symm)
    refine ⟨hm, fun t ht => ?_⟩
    rcases mem_cons.1 ht with rfl | ht
    · simp [hwriter]
    · exact hF t ht
  targets t ht x hx := by
    rcases mem_cons.1 ht with rfl | ht
    · exact (htarget x hx).1
    · exact hused x (h.targets t ht x hx)
  known id hid := hused id (h.known id hid)
  gone id hid := by
    obtain ⟨hu, hhas, hF⟩ := h.gone id hid
    refine ⟨hused id hu, hhas, fun t ht hx => ?_⟩
    rcases mem_cons.1 ht with rfl | ht
    · exact (htarget id hx).2 hid
    · exact hF t ht hx

lemma Inv.remove (h : Inv w (a ::ₘ F)) {boxes lives creating : List Id}
    (hbox : ∀ b, w.boxes.count b = boxes.count b + if a.box = some b then 1 else 0)
    (hboxOnce : boxes.Nodup)
    (hlife : ∀ k, w.lives.count k = lives.count k + if a.life = some k then 1 else 0)
    (hlifeOnce : lives.Nodup)
    (hcreating : ∀ id, w.creating.count id ≤
      creating.count id + if .creating id = a then 1 else 0) :
    Inv { w with boxes := boxes, lives := lives, creating := creating } F where
  windows x g :=
    (count_le_of_le _ (le_cons_self F a)).trans (h.windows x g)
  creating id := by
    have hid := h.creating id
    have hle := hcreating id
    rw [count_cons] at hid
    change _ ≤ creating.count id
    omega
  boxes b := by
    have hb := h.boxes b
    rw [countP_cons, hbox b] at hb
    exact Nat.add_right_cancel hb
  boxOnce := hboxOnce
  lives k := by
    have hk := h.lives k
    rw [countP_cons, hlife k] at hk
    exact Nat.add_right_cancel hk
  lifeOnce := hlifeOnce
  marked b hb := h.marked b (mem_cons_of_mem hb)
  clear b hb := by
    obtain ⟨hm, hF⟩ := h.clear b (mem_cons_of_mem hb)
    exact ⟨hm, fun t ht => hF t (mem_cons_of_mem ht)⟩
  targets t ht := h.targets t (mem_cons_of_mem ht)
  known := h.known
  gone id hid := by
    obtain ⟨hu, hhas, hF⟩ := h.gone id hid
    exact ⟨hu, hhas, fun t ht => hF t (mem_cons_of_mem ht)⟩

lemma Inv.drop (h : Inv w (a ::ₘ F)) (hbox : a.box = none) (hlife : a.life = none) : Inv w F :=
  h.remove (fun _ => by simp [hbox]) h.boxOnce (fun _ => by simp [hlife]) h.lifeOnce
    fun _ => Nat.le_add_right _ _

lemma Inv.idle (h : Inv w F) : Inv w (.idle ::ₘ F) :=
  h.add (fun _ => rfl) h.boxOnce (fun _ => rfl) h.lifeOnce (fun _ => by simp) (fun _ hx => hx)
    (fun x g => by cases g <;> simp [Guard.win]) rfl (by simp) (by simp) (by simp [Tok.target])

lemma Inv.own {g : Guard} : Inv w (g.own + F) ↔ Inv w (g.idle ::ₘ F) := by
  cases g with
  | free =>
    rw [Guard.own, zero_add]
    exact ⟨Inv.idle, fun h => h.drop rfl rfl⟩
  | event b | life k => rfl

variable {x : Id}

lemma Inv.not_destroyed (h : Inv w R) (hx : w.has x) : x ∈ w.used ∧ x ∉ w.destroyed := by
  refine ⟨h.known x hx, fun hmem => ?_⟩
  have hno := (h.gone x hmem).2.1
  rw [hx] at hno
  cases hno

lemma Inv.openWindow {g : Guard} (h : Inv w (g.idle ::ₘ F)) (hx : w.has x) :
    Inv { w with windows := (x, g) :: w.windows } (g.win x ::ₘ F) := by
  refine h.swap _ (fun y g' => ?_) (fun id => by cases g <;> simp [Guard.win]) (by simp) (by simp)
    (fun b hb => .inl (by simpa using hb)) (fun b => by cases g <;> simp [Guard.win])
    (fun b => by cases g <;> simp [Guard.win]) fun y hy => ?_
  · rw [if_neg (g.idle_ne_win y g').symm, List.count_cons]
    by_cases heq : Guard.win y g' = g.win x
    · obtain ⟨rfl, rfl⟩ := (Guard.win_inj g' y).1 heq
      simp
      omega
    · rw [if_neg heq]
      omega
  · rw [Guard.target_win] at hy
    exact Option.some.inj hy ▸ h.not_destroyed hx

lemma Inv.closeWindow {g : Guard} (h : Inv w (g.win x ::ₘ F)) :
    Inv { w with windows := w.windows.erase (x, g) } (g.idle ::ₘ F) := by
  refine h.swap _ (fun y g' => ?_) (fun id => by cases g <;> simp [Guard.idle]) (by simp)
    (by simp) (fun b hb => .inl (by simpa using hb)) (fun b => by cases g <;> simp [Guard.idle])
    (fun b => by cases g <;> simp [Guard.idle]) fun y hy => by simp at hy
  rw [if_neg (g.idle_ne_win y g').symm, List.count_erase]
  by_cases heq : Guard.win y g' = g.win x
  · obtain ⟨rfl, rfl⟩ := (Guard.win_inj g' y).1 heq
    simp
    omega
  have hne : ¬ ((x, g) == (y, g')) = true := by
    rw [beq_iff_eq]
    rintro ⟨⟩
    exact heq rfl
  rw [if_neg heq, if_neg hne]
  omega

lemma Inv.record (h : Inv w R) {index rows : Tbl Id (List Id)} (hx : x ∈ w.used)
    (hnot : x ∉ w.destroyed)
    (hindex : ∀ y, y ≠ x → index.get y = w.index.get y)
    (hrows : ∀ y, y ≠ x → rows.get y = w.rows.get y) (buckets : List Nat) :
    Inv { w with index := index, rows := rows, buckets := buckets } R := by
  have hhas : ∀ y, y ≠ x →
      World.has { w with index := index, rows := rows, buckets := buckets } y = w.has y := by
    intro y hy
    simp [World.has, hindex y hy, hrows y hy]
  refine { h with known := ?_, gone := ?_ }
  · intro y hy
    by_cases heq : y = x
    · exact heq ▸ hx
    · exact h.known y (hhas y heq ▸ hy)
  intro y hy
  obtain ⟨hused, hno, hF⟩ := h.gone y hy
  have hne : y ≠ x := fun heq => hnot (heq ▸ hy)
  exact ⟨hused, (hhas y hne).trans hno, hF⟩

section

variable (h : Inv w (a ::ₘ F))
include h

section

variable (ha : a.target = some x)
include ha

lemma Inv.target_ok : x ∈ w.used ∧ x ∉ w.destroyed :=
  ⟨h.targets a (mem_cons_self _ _) x ha, fun hmem => (h.gone x hmem).2.2 a (mem_cons_self _ _) ha⟩

lemma Inv.putRow (cs : List Id) (buckets : List Nat) :
    Inv { w with rows := w.rows.put x cs, buckets := buckets } (a ::ₘ F) := by
  obtain ⟨hused, hnot⟩ := h.target_ok ha
  exact h.record hused hnot (fun _ _ => rfl) (fun y hy => Tbl.get_put_ne _ _ hy) buckets

lemma Inv.putIndex (cs : List Id) : Inv { w with index := w.index.put x cs } (a ::ₘ F) := by
  obtain ⟨hused, hnot⟩ := h.target_ok ha
  exact h.record hused hnot (fun y hy => Tbl.get_put_ne _ _ hy) (fun _ _ => rfl) w.buckets

end

end

/-! #### Locks and marks -/

lemma count_cons_some {l : List Id} :
    (b :: l).count x = l.count x + if some b = some x then 1 else 0 := by
  rw [List.count_cons]
  simp

lemma count_erase_some {l : List Id} (hb : b ∈ l) :
    l.count x = (l.erase b).count x + if some b = some x then 1 else 0 := by
  rw [← count_cons_some]
  exact (List.perm_cons_erase hb).count_eq x

lemma Inv.lockBox (h : Inv w F) (hb : b ∉ w.boxes) :
    Inv { w with boxes := b :: w.boxes } (.boxed b ::ₘ F) :=
  h.add (fun _ => count_cons_some) (List.nodup_cons.2 ⟨hb, h.boxOnce⟩) (fun _ => rfl) h.lifeOnce
    (fun _ => by simp) (fun _ hx => hx) (fun x g => by cases g <;> simp [Guard.win]) rfl (by simp)
    (by simp) (by simp [Tok.target])

lemma Inv.lockLife (h : Inv w F) (hk : k ∉ w.lives) :
    Inv { w with lives := k :: w.lives } (.live k ::ₘ F) :=
  h.add (fun _ => rfl) h.boxOnce (fun _ => count_cons_some) (List.nodup_cons.2 ⟨hk, h.lifeOnce⟩)
    (fun _ => by simp) (fun _ hx => hx) (fun x g => by cases g <;> simp [Guard.win]) rfl (by simp)
    (by simp) (by simp [Tok.target])

lemma Inv.create (h : Inv w F) (hid : id ∉ w.used) :
    Inv { w with used := id :: w.used, creating := id :: w.creating } (.creating id ::ₘ F) := by
  refine h.add (fun _ => rfl) h.boxOnce (fun _ => rfl) h.lifeOnce (fun x => ?_)
    (fun x hx => List.mem_cons_of_mem _ hx) (fun x g => by cases g <;> simp [Guard.win]) rfl
    (by simp) (by simp) fun x hx => ?_
  · rw [List.count_cons]
    by_cases heq : x = id
    · subst heq; simp
    · simp [heq, Ne.symm heq]
  · cases hx
    exact ⟨List.mem_cons_self, fun hmem => hid (h.gone _ hmem).1⟩

lemma Inv.endCreate (h : Inv w (.creating id ::ₘ F)) :
    Inv { w with creating := w.creating.erase id } F := by
  refine h.remove (fun _ => rfl) h.boxOnce (fun _ => rfl) h.lifeOnce fun x => ?_
  rw [List.count_erase]
  by_cases heq : x = id
  · subst heq
    simp
    omega
  · simp [heq, Ne.symm heq]

/-- A lock is taken and no other token is for it. -/
lemma locked_alone {lock : Tok → Option Id} {l : List Id}
    (hcount : (a ::ₘ F).countP (fun t => lock t = some b) = l.count b) (hl : l.Nodup)
    (ha : lock a = some b) : b ∈ l ∧ ∀ t ∈ F, lock t ≠ some b := by
  rw [countP_cons, if_pos ha] at hcount
  refine ⟨List.count_pos_iff.1 (by omega), fun t ht heq => ?_⟩
  have hpos : 0 < F.countP (fun t => lock t = some b) := countP_pos.2 ⟨t, ht, heq⟩
  have hle := List.nodup_iff_count_le_one.1 hl b
  omega

lemma Inv.unlockBox (h : Inv w (a ::ₘ F)) (ha : a.box = some b) (hlife : a.life = none) :
    Inv { w with boxes := w.boxes.erase b } F := by
  have hmem := (locked_alone (h.boxes b) h.boxOnce ha).1
  exact h.remove (fun x => by rw [ha]; exact count_erase_some hmem) (h.boxOnce.erase b)
    (fun _ => by simp [hlife]) h.lifeOnce fun _ => Nat.le_add_right _ _

lemma Inv.unlockLife (h : Inv w (.live k ::ₘ F)) : Inv { w with lives := w.lives.erase k } F :=
  h.remove (fun _ => rfl) h.boxOnce
    (fun _ => count_erase_some (locked_alone (h.lives k) h.lifeOnce rfl).1) (h.lifeOnce.erase k)
    fun _ => Nat.le_add_right _ _

lemma Inv.mark (h : Inv w R) (b : Id) : Inv { w with marked := b :: w.marked } R :=
  { h with
    marked := fun x hx => List.mem_cons_of_mem _ (h.marked x hx)
    clear := fun x hx => ⟨List.mem_cons_of_mem _ (h.clear x hx).1, (h.clear x hx).2⟩ }

lemma Inv.unmarked (h : Inv w (.boxed b ::ₘ F)) (hb : b ∉ w.marked) : Inv w (.fresh b ::ₘ F) := by
  refine h.swap w.windows (fun x g => ?_) (by simp) rfl rfl (fun x hx => .inr ?_) (by simp)
    (by simp) (by simp [Tok.target])
  · cases g <;> simp [Guard.win]
  · cases hx
    exact hb

lemma Inv.learn (h : Inv w F) (hb : b ∈ w.marked) : Inv w (.marked b ::ₘ F) := by
  refine h.idle.swap w.windows (fun x g => ?_) (by simp) rfl rfl (by simp [Tok.writer])
    (fun x hx => ?_) (by simp) (by simp [Tok.target])
  · cases g <;> simp [Guard.win]
  · cases hx
    exact hb

lemma Inv.clears (h : Inv w (.boxed b ::ₘ F)) (hb : b ∈ w.marked) :
    Inv w (.clear b ::ₘ .boxed b ::ₘ F) := by
  refine h.idle.swap w.windows (fun x g => ?_) (by simp) rfl rfl (by simp [Tok.writer]) (by simp)
    (fun x hx => ?_) (by simp [Tok.target])
  · cases g <;> simp [Guard.win]
  cases hx
  refine ⟨hb, fun t ht hw => ?_⟩
  rcases mem_cons.1 ht with rfl | ht
  · cases hw
  · exact (locked_alone (h.boxes b) h.boxOnce rfl).2 t ht (Tok.box_of_writer hw)

/-! #### Deletion -/

lemma Inv.shrink (h : Inv w R) {index rows : Tbl Id (List Id)}
    (hsub : ∀ id, World.has { w with index := index, rows := rows } id → w.has id) :
    Inv { w with index := index, rows := rows } R := by
  refine { h with known := fun id hid => h.known id (hsub id hid), gone := fun id hid => ?_ }
  obtain ⟨hu, hhas, hF⟩ := h.gone id hid
  refine ⟨hu, ?_, hF⟩
  by_contra hne
  rw [Bool.not_eq_false] at hne
  rw [hsub id hne] at hhas
  cases hhas

lemma isSome_del {t : Tbl Id (List Id)} (h : ((t.del key).get id).isSome) : (t.get id).isSome := by
  obtain ⟨cs, hcs⟩ := Option.isSome_iff_exists.1 h
  rw [(Tbl.get_del_eq_some.1 hcs).2]
  rfl

lemma Inv.delIndex (h : Inv w R) (key : Id) : Inv { w with index := w.index.del key } R := by
  refine h.shrink fun id hid => ?_
  simp only [World.has, Bool.or_eq_true] at hid ⊢
  exact hid.imp_left isSome_del

lemma Inv.delBoth (h : Inv w R) (key : Id) :
    Inv { w with index := w.index.del key, rows := w.rows.del key } R := by
  refine h.shrink fun id hid => ?_
  simp only [World.has, Bool.or_eq_true] at hid ⊢
  exact hid.imp isSome_del isSome_del

lemma Tok.target_cases {t : Tok} (h : t.target = some x) :
    t = .creating x ∨ ∃ g, t = Guard.win x g := by
  cases t with
  | creating y =>
    cases h
    exact .inl rfl
  | free y =>
    cases h
    exact .inr ⟨.free, rfl⟩
  | writing b y =>
    cases h
    exact .inr ⟨.event b, rfl⟩
  | saving k y =>
    cases h
    exact .inr ⟨.life k, rfl⟩
  | idle | boxed | fresh | live | marked | clear => cases h

/-- The lifecycle lock of a destroy. -/
def lifeTok (life : Bool) (k : Id) : Multiset Tok := if life then {.live k} else 0

/-- What a destroy knows that has held the lock of the marked sandbox. -/
def clearTok (boxed : Bool) (b : Id) : Multiset Tok := if boxed then {.clear b} else 0

lemma Inv.unwritten {boxed life : Bool} (h : Inv w (lifeTok life key + (clearTok boxed key + F)))
    (hcreating : key ∉ w.creating)
    (hwin : ∀ x ∈ w.windows, x.1 = key → x.2.covered key boxed life) :
    ∀ t ∈ lifeTok life key + (clearTok boxed key + F), t.target ≠ some key := by
  intro t ht htarget
  rcases Tok.target_cases htarget with rfl | ⟨g, rfl⟩
  · have hcount := h.creating key
    rw [List.count_eq_zero_of_not_mem hcreating, Nat.le_zero, count_eq_zero] at hcount
    exact hcount ht
  have hcount := h.windows key g
  have hpos := count_pos.2 ht
  have hcov := hwin (key, g) (List.count_pos_iff.1 (by omega)) rfl
  cases g with
  | free => cases hcov
  | event b =>
    obtain ⟨hboxed, hb⟩ : boxed = true ∧ b = key := by simpa [Guard.covered] using hcov
    have hclear : Tok.clear key ∈ lifeTok life key + (clearTok boxed key + F) := by
      simp [clearTok, hboxed]
    exact (h.clear key hclear).2 _ ht (by rw [hb]; rfl)
  | life k =>
    obtain ⟨hlife, hk⟩ : life = true ∧ k = key := by simpa [Guard.covered] using hcov
    have hown : lifeTok life key = {.live key} := by simp [lifeTok, hlife]
    rw [hown, singleton_add] at h ht
    have hmem := (mem_cons.1 ht).resolve_left (by simp [Guard.win])
    exact (locked_alone (h.lives key) h.lifeOnce rfl).2 _ hmem (by rw [hk]; rfl)

lemma Inv.delete (h : Inv w R) (hhas : w.has key) (hfree : ∀ t ∈ R, t.target ≠ some key) :
    Inv { w.destroys key with index := w.index.del key, rows := w.rows.del key } R := by
  have hd := h.delBoth key
  have hdest : w.destroys key = { w with destroyed := key :: w.destroyed } := by
    rw [World.destroys, if_pos hhas]
  rw [hdest]
  refine { hd with gone := fun id hid => ?_ }
  rcases List.mem_cons.1 hid with rfl | hid
  · exact ⟨h.known id hhas, by simp [World.has], hfree⟩
  · exact hd.gone id hid

end Steps

end CubeSandbox.Record
