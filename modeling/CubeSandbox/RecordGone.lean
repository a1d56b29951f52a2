import CubeSandbox.RecordInv

/-!
A destroyed sandbox leaves no record, as long as no writer against which the destroy is not
covered is between its look at the index and its write when the record is deleted.
-/

namespace CubeSandbox.Record

open GoText Conc Multiset List Runs

variable {w : World} {b : Id} {F L : Multiset Tok}
  (c : Caller) (q : Query) (g : Guard) (id cid key : Id) (r : Multiset Tok)

section Triples

variable {α : Type}

abbrev Keeps (p : Task α) (r : Multiset Tok) (Q : α → Multiset Tok → Prop) : Prop :=
  Safe machine Inv Apart p r Q

/-- The program turns the tokens `r` into `q`. -/
abbrev Turns (p : Task α) (r q : Multiset Tok) : Prop := Keeps p r fun _ r' => r' = q

lemma keeps_read {a : Act} (ha : ∀ w o w' v, perform a w o = some (w', v) → w' = w)
    (r : Multiset Tok) : Turns (act a) r r := by
  refine .act fun s F o s' v hI _ hact => ?_
  rwa [ha s o s' v hact]

lemma keeps_get : Turns (act (.get key)) r r :=
  keeps_read (a := .get key) (fun _ _ _ _ h => (acted h).1.symm) r

lemma keeps_getContainer : Turns (act (.getContainer cid)) r r :=
  keeps_read (a := .getContainer cid) (fun _ _ _ _ h => (acted h).1.symm) r

lemma keeps_ask : Turns (act (.ask q)) r r :=
  keeps_read (a := .ask q) (fun _ _ _ _ h => (acted h).1.symm) r

lemma has_of_mem {b : Box} (h : b ∈ w.index.toPairs) : w.has b.1 := by
  have hget : w.index.get b.1 = some b.2 := Tbl.mem_pairs.1 h
  simp [World.has, hget]

lemma has_of_byContainer {cid : Id} {b : Box} (h : w.byContainer cid = some b) :
    w.has b.1 := has_of_mem (mem_of_find?_eq_some h)

lemma has_of_record {key : Id} {b : Box} (h : w.record key = some b) : w.has b.1 := by
  unfold World.record at h
  split at h
  · rename_i cs hcs
    cases h
    simp [World.has, hcs]
  · exact has_of_byContainer h

/-- What a writer owns after its look at the index. -/
def looked (g : Guard) : Option Box → Multiset Tok
  | none => g.own
  | some b => {g.win b.1}

lemma Inv.look {g : Guard} (h : Inv w (g.own + F)) {v : Option Box}
    (hv : ∀ b, v = some b → w.has b.1) : Inv (w.opens g v) (looked g v + F) := by
  cases v with
  | none => exact h
  | some b => exact (Inv.own.1 h).openWindow (hv b rfl)

lemma keeps_syncWrite (b : Box) : Turns (act (.syncWrite g b)) {g.win b.1} g.own := by
  refine .act fun s F o s' v hI _ hact => Inv.own.2 ?_
  cases o with
  | ok =>
    cases hact
    exact (hI.putRow (g.target_win b.1) b.2 (shard b.1 :: s.buckets)).closeWindow
  | fail | torn =>
    cases hact
    exact hI.closeWindow

lemma keeps_sync : Turns (sync g key) g.own g.own := by
  have hread : Keeps (act (.syncRead g key)) g.own fun v r => r = looked g v := by
    refine .does (fun _ _ => rfl) fun s F hI => ?_
    exact hI.look fun b => has_of_record
  refine hread.seq fun v => ?_
  cases v with
  | none => exact .ret rfl
  | some b => exact keeps_syncWrite g b

lemma keeps_syncByID : Turns (syncByID g key) g.own g.own := by
  refine (keeps_get key _).seq fun v => ?_
  cases v with
  | error e => exact .ret rfl
  | ok b => exact keeps_sync g key

lemma keeps_deleteContainer : Turns (deleteContainer g cid) g.own g.own := by
  have hread : Keeps (act (.byContainer g cid)) g.own fun v r => r = looked g v := by
    refine .does (fun _ _ => rfl) fun s F hI => ?_
    exact hI.look fun b => has_of_byContainer
  refine hread.seq fun v => ?_
  cases v with
  | none => exact .ret rfl
  | some b =>
    refine .act fun s F o s' v hI _ hact => Inv.own.2 ?_
    cases hact
    exact (hI.putIndex (g.target_win b.1) b.2).closeWindow

lemma keeps_removeContainer : Turns (removeContainer g id cid) g.own g.own := by
  refine (keeps_ask _ _).seq fun gone => ?_
  split
  · exact .ret rfl
  refine (keeps_deleteContainer g cid).seq fun _ => ?_
  refine (keeps_sync g id).seq fun ok => ?_
  split
  · exact .ret rfl
  exact keeps_ask _ _

lemma inv_last {t : Tok} : Inv w (L + {t} + F) ↔ Inv w (t ::ₘ (L + F)) := by
  rw [add_right_comm, add_comm, singleton_add]

lemma Inv.dropClear {boxed : Bool} (h : Inv w (L + clearTok boxed b + F)) : Inv w (L + F) := by
  cases boxed with
  | false => simpa [clearTok] using h
  | true => exact (inv_last.1 h).drop rfl rfl

lemma keeps_removeSandbox (target : Id) (boxed life : Bool) :
    Turns (removeSandbox key target boxed life) (lifeTok life key + clearTok boxed target)
      (lifeTok life key) := by
  have hpre : Keeps (act (.ask .preDelete)) (lifeTok life key + clearTok boxed target)
      fun v r => r = if v then lifeTok life key + clearTok boxed target else lifeTok life key := by
    refine .act fun s F o s' v hI _ hact => ?_
    cases hact
    split
    · exact hI
    · exact hI.dropClear
  refine hpre.seq fun v => ?_
  cases v with
  | false => exact .ret rfl
  | true =>
  refine .seq (g := fun _ => lifeTok life key) ?_ fun ok => ?_
  · refine .act fun s F o s' v hI hok hact => ?_
    have hI : Inv s (lifeTok life key + clearTok boxed target + F) := hI
    have hact : s.deleteTx key target o = some (s', v) := hact
    cases o with
    | ok =>
      by_cases hhas : s.has target = true
      · obtain ⟨rfl, hbucket, hcreating, hwin⟩ := hok rfl hhas
        rw [World.deleteTx, if_pos hbucket] at hact
        cases hact
        refine Inv.dropClear (hI.delete hhas ?_)
        rw [add_assoc] at hI ⊢
        exact hI.unwritten hcreating hwin
      have hsame : s.destroys target = s := by rw [World.destroys, if_neg hhas]
      rw [World.deleteTx, hsame] at hact
      split at hact
      · cases hact
        exact (hI.delBoth key).dropClear
      · cases hact
        exact hI.dropClear
    | fail =>
      cases hact
      exact hI.dropClear
    | torn =>
      rw [World.deleteTx] at hact
      obtain ⟨-, rfl, -⟩ := acted_if hact
      exact (hI.delIndex key).dropClear
  · cases ok with
    | false => exact .ret rfl
    | true => exact keeps_ask _ _

lemma keeps_frame {p : Task α} {r : Multiset Tok} (h : Keeps p r fun _ r' => r' = r)
    (e : Multiset Tok) : Turns p (r + e) (r + e) := by
  refine (h.frame e).mono fun v r' hr => ?_
  obtain ⟨q, rfl, rfl⟩ := hr
  rfl

lemma Caller.guard_own : (c.guard key).own = lifeTok c.life key := by
  unfold Caller.guard lifeTok
  split <;> rfl

lemma keeps_markDeleted (b : Id) {e : Multiset Tok} {t : Tok}
    (hgain : ∀ w F, Inv w (e + F) → b ∈ w.marked → Inv w (t ::ₘ (e + F))) :
    Turns (markDeleted g key b) (g.own + e) (g.own + (t ::ₘ e)) := by
  have hgain' : ∀ {w : World} {F : Multiset Tok}, Inv w (g.own + e + F) → b ∈ w.marked →
      Inv w (g.own + (t ::ₘ e) + F) := by
    intro w F h hb
    have hg := hgain w (g.own + F) (by rwa [← add_assoc, add_comm e]) hb
    have heq : t ::ₘ (e + (g.own + F)) = g.own + (t ::ₘ e) + F := by
      simp only [← singleton_add]
      abel
    rwa [heq] at hg
  have hread : Keeps (act (.isMarked b)) (g.own + e) fun v r =>
      r = if v then g.own + (t ::ₘ e) else g.own + e := by
    refine .does (fun _ _ => rfl) fun s F hI => ?_
    split
    · exact hgain' hI (of_decide_eq_true ‹_›)
    · exact hI
  refine hread.seq fun v => ?_
  cases v with
  | true => exact .ret rfl
  | false =>
    refine .seq (.act fun s F o s' v hI _ hact => ?_)
      fun _ => (keeps_frame (keeps_syncByID g key) (t ::ₘ e)).ended
    cases hact
    exact hgain' (Inv.mark hI b) mem_cons_self

lemma keeps_destroyContainers (cids : List Id) :
    Turns (destroyContainers g id cids) g.own g.own := by
  induction cids with
  | nil => exact .ret rfl
  | cons cid cids ih =>
    refine (keeps_ask _ _).seq fun deleted => ?_
    split
    · exact ih
    refine (keeps_ask _ _).seq fun ok => ?_
    split
    · refine (keeps_removeContainer g id cid).seq fun _ => ?_
      exact ih
    · refine (keeps_ask _ _).seq fun closed => ?_
      exact ih.ended

lemma keeps_ociContainers (cids : List Id) : Turns (ociContainers g id cids) g.own g.own := by
  induction cids with
  | nil => exact .ret rfl
  | cons cid cids ih =>
    refine (keeps_ask _ _).seq fun ok => ?_
    split
    · refine (keeps_removeContainer g id cid).seq fun _ => ?_
      exact ih
    · exact ih.ended

lemma keeps_tearDown (b : Box) : Turns (tearDown g b) g.own g.own := by
  refine (keeps_ask _ _).seq fun deletable => ?_
  split
  · exact .ret rfl
  refine (keeps_ask _ _).seq fun cbri => ?_
  split
  · exact .ret rfl
  have htasks : Turns (destroyTasks g b) g.own g.own := by
    refine (keeps_ask _ _).seq fun paused => ?_
    split
    · exact keeps_ask _ _
    · exact keeps_destroyContainers g _ _
  refine htasks.seq fun gone => ?_
  exact (keeps_ask _ _).ended

/-- The mark that the caller has set. -/
def markTok : Option Id → Multiset Tok
  | none => 0
  | some b => {.marked b}

lemma Inv.dropMark {m : Option Id} (h : Inv w (L + markTok m + F)) : Inv w (L + F) := by
  cases m with
  | none => simpa [markTok] using h
  | some b => exact (inv_last.1 h).drop rfl rfl

lemma Inv.lockMarked {m : Option Id} (h : Inv w (L + markTok m + F)) (hb : b ∉ w.boxes) :
    Inv { w with boxes := b :: w.boxes }
      (L + clearTok (decide (m = some b)) b + {.boxed b} + F) := by
  have hlock := h.dropMark.lockBox hb
  by_cases hm : m = some b
  · have hmem : Tok.marked b ∈ L + markTok m + F := by simp [hm, markTok]
    have hclear := hlock.clears (h.marked b hmem)
    have heq : Tok.clear b ::ₘ Tok.boxed b ::ₘ (L + F) =
        L + clearTok (decide (m = some b)) b + {.boxed b} + F := by
      simp only [hm, decide_true, clearTok, if_true, ← singleton_add]
      abel
    rwa [heq] at hclear
  · have heq : Tok.boxed b ::ₘ (L + F) = L + clearTok (decide (m = some b)) b + {.boxed b} + F := by
      simp only [hm, decide_false, clearTok, Bool.false_eq_true, if_false, add_zero,
        ← singleton_add]
      abel
    rwa [heq] at hlock

lemma keeps_markRollback (b : Id) {m : Bool} (hm : c.rollback → m = false) :
    Turns (markRollback c key b) (lifeTok c.life key + clearTok m b + {.boxed b})
      (lifeTok c.life key + clearTok (c.rollback || m) b + {.boxed b}) := by
  unfold markRollback
  split
  · rename_i hroll
    have hmark := keeps_markDeleted (c.guard key) key b (e := {.boxed b}) (t := .clear b)
      fun w F h hb => by
        exact h.clears hb
    rw [c.guard_own] at hmark
    simp only [hm hroll, hroll, clearTok, Bool.or_false, Bool.false_eq_true, if_false, if_true,
      add_zero]
    refine hmark.mono fun _ r hr => ?_
    rw [hr, add_assoc]
    rfl
  · rename_i hroll
    refine .ret ?_
    simp [hroll]

/-- **Destroy.** -/
lemma keeps_localDestroy (hc : c.rollback → c.marked = none) :
    Turns (localDestroy c key) (lifeTok c.life key + markTok c.marked) (lifeTok c.life key) := by
  have hget : Keeps (act (.get key)) (lifeTok c.life key + markTok c.marked) fun v r =>
      (∀ e, v = .error e → r = lifeTok c.life key) ∧
        ∀ b, v = .ok b → r = lifeTok c.life key + markTok c.marked := by
    refine .perform fun s F o s' v hI _ hact => ?_
    cases hact
    cases s.get key with
    | error e => exact ⟨_, hI.dropMark, by simp⟩
    | ok b => exact ⟨_, hI, by simp⟩
  refine hget.bind fun v r hr => ?_
  cases v with
  | error e =>
    obtain rfl := hr.1 e rfl
    cases e with
    | ambiguous => exact .ret rfl
    | notFound =>
      have hremove := keeps_removeSandbox key key false c.life
      simp only [clearTok, Bool.false_eq_true, if_false, add_zero] at hremove
      exact hremove.ended
  | ok b =>
    obtain rfl := hr.2 b rfl
    have hlock : Turns (act (.lockBox b.1)) (lifeTok c.life key + markTok c.marked)
        (lifeTok c.life key + clearTok (decide (c.marked = some b.1)) b.1 + {.boxed b.1}) := by
      refine .act fun s F o s' v hI _ hact => ?_
      simp only [machine, perform] at hact
      split_ifs at hact
      · cases hact
        exact hI.lockMarked ‹_›
    refine hlock.seq fun _ => ?_
    refine (keeps_markRollback c key b.1 fun hroll => by simp [hc hroll]).seq fun _ => ?_
    have htear := keeps_frame (keeps_tearDown (c.guard key) b)
      (clearTok (c.rollback || decide (c.marked = some b.1)) b.1 + {.boxed b.1})
    rw [c.guard_own, ← add_assoc] at htear
    refine htear.seq fun gone => ?_
    generalize (c.rollback || decide (c.marked = some b.1)) = boxed
    have hunlock : Turns (act (.unlockBox b.1))
        (lifeTok c.life key + clearTok boxed b.1 + {.boxed b.1})
        (if gone then lifeTok c.life key + clearTok boxed b.1 else lifeTok c.life key) := by
      refine .does (fun _ _ => rfl) fun s F hI => ?_
      have hfree := (inv_last.1 hI).unlockBox rfl rfl
      split
      · exact hfree
      · exact hfree.dropClear
    refine hunlock.seq fun _ => ?_
    cases gone with
    | false => exact .ret rfl
    | true =>
      exact (keeps_removeSandbox key b.1 boxed c.life).ended

lemma keeps_mark (b : Id) : Turns (markDeleted g key b) g.own (g.own + {.marked b}) := by
  have hmark := keeps_markDeleted g key b (e := 0) fun _ _ h hb => h.learn hb
  rwa [add_zero] at hmark

lemma keeps_markOnly (b : Id) : Turns (markDeleted g key b) g.own g.own := by
  have hread : Turns (act (.isMarked b)) g.own g.own :=
    keeps_read (a := .isMarked b) (fun _ _ _ _ h => (acted h).1.symm) _
  refine hread.seq fun v => ?_
  split
  · refine .seq (.act fun s F o s' v hI _ hact => ?_) fun _ => (keeps_syncByID g key).ended
    cases hact
    exact hI.mark b
  · exact .ret rfl

lemma keeps_ociDestroy : Turns (ociDestroy c key) (lifeTok c.life key) (lifeTok c.life key) := by
  have hremove : ∀ target,
      Turns (removeSandbox key target false c.life) (lifeTok c.life key) (lifeTok c.life key) := by
    intro target
    have h := keeps_removeSandbox key target false c.life
    simp only [clearTok, Bool.false_eq_true, if_false, add_zero] at h
    exact h
  refine (keeps_get key _).seq fun v => ?_
  cases v with
  | error e =>
    cases e with
    | ambiguous => exact .ret rfl
    | notFound => exact (hremove key).ended
  | ok b =>
    have hloop := keeps_ociContainers (c.guard key) b.1 (b.2 ++ [b.1])
    rw [c.guard_own] at hloop
    refine hloop.seq fun gone => ?_
    refine (keeps_ask _ _).seq fun clean => ?_
    split
    · exact (hremove b.1).ended
    · exact .ret rfl

lemma keeps_resumeForDestroy (id : Id) :
    Turns (resumeForDestroy key id) {.live key} {.live key} := by
  refine (keeps_ask _ _).seq fun pausing => ?_
  split
  · exact .ret rfl
  refine (keeps_ask _ _).seq fun paused => ?_
  split
  · refine (keeps_ask _ _).seq fun ok => ?_
    split
    · exact .ret rfl
    · exact keeps_syncByID (.life key) id
  · exact .ret rfl

lemma keeps_destroyLocked : Turns (destroyLocked key) {.live key} {.live key} := by
  refine (keeps_get key _).seq fun v => ?_
  cases v with
  | error e => exact keeps_localDestroy ⟨false, true, none⟩ key (by simp)
  | ok b =>
    refine (keeps_ask _ _).seq fun cube => ?_
    split
    · refine (keeps_resumeForDestroy key b.1).seq fun ok => ?_
      split
      · refine (keeps_mark (.life key) key b.1).seq fun _ => ?_
        exact keeps_localDestroy ⟨false, true, some b.1⟩ key (by simp)
      · exact .ret rfl
    · refine (keeps_markOnly (.life key) key b.1).seq fun _ => ?_
      exact keeps_ociDestroy ⟨false, true, none⟩ key

lemma Inv.lockedLife {w' : World} {key : Id} (h : Inv w F) (hlock : w.lockLife key = some w') :
    Inv w' (.live key ::ₘ F) := by
  unfold World.lockLife at hlock
  split at hlock <;> cases hlock
  exact h.lockLife ‹_›

lemma keeps_unlockLife : Turns (act (.unlockLife key)) {.live key} 0 := by
  refine .does (fun _ _ => rfl) fun s F hI => ?_
  rw [zero_add]
  exact hI.unlockLife

lemma keeps_destroy : Turns (destroy key) 0 0 := by
  refine (keeps_get key _).seq fun v => ?_
  cases v with
  | error e => exact keeps_localDestroy ⟨false, false, none⟩ key (by simp)
  | ok b =>
    refine (keeps_ask _ _).seq fun cube => ?_
    split
    · refine (keeps_ask _ _).seq fun time => ?_
      split
      · exact .ret rfl
      have htry : Keeps (act (.tryLockLife key)) 0 fun v r =>
          r = if v then {.live key} else 0 := by
        refine .act fun s F o s' v hI _ hact => ?_
        simp only [machine, perform] at hact
        split at hact
        · obtain ⟨w', hlock, rfl, rfl⟩ := acted_map hact
          exact (by simpa using hI : Inv s F).lockedLife hlock
        · cases hact
          exact hI
      refine htry.seq fun ok => ?_
      cases ok with
      | false => exact .ret rfl
      | true => exact (keeps_destroyLocked key).seq fun _ => keeps_unlockLife key
    · refine (keeps_markOnly .free key b.1).seq fun _ => ?_
      exact keeps_ociDestroy ⟨false, false, none⟩ key

lemma keeps_cleanUp : Turns (cleanUp key) 0 0 := by
  refine (keeps_get key _).seq fun v => ?_
  cases v with
  | error e => exact .ret rfl
  | ok b =>
    refine (keeps_markOnly .free key b.1).seq fun _ => ?_
    refine (keeps_ask _ _).seq fun clean => ?_
    split
    · exact .ret rfl
    · exact (keeps_removeSandbox key b.1 false false).ended

lemma keeps_lockBox (b : Id) (r : Multiset Tok) : Turns (act (.lockBox b)) r (.boxed b ::ₘ r) := by
  refine .act fun s F o s' v hI _ hact => ?_
  simp only [machine, perform] at hact
  split_ifs at hact
  cases hact
  rw [cons_add]
  exact hI.lockBox ‹_›

lemma keeps_unlockBox {t : Tok} (ht : t = .boxed b ∨ t = .fresh b) (r : Multiset Tok) :
    Turns (act (.unlockBox b)) (t ::ₘ r) r := by
  refine .does (fun _ _ => rfl) fun s F hI => ?_
  rw [cons_add] at hI
  exact hI.unlockBox (by rcases ht with rfl | rfl <;> rfl) (by rcases ht with rfl | rfl <;> rfl)

lemma keeps_syncUnmarked (b key : Id) : Keeps (syncUnmarked q b key) {.boxed b} fun _ r =>
      ∃ t, (t = .boxed b ∨ t = .fresh b) ∧ r = {t} := by
  have hread : Keeps (act (.isMarked b)) {.boxed b} fun v r =>
      r = if v then {.boxed b} else {.fresh b} := by
    refine .does (fun _ _ => rfl) fun s F hI => ?_
    split
    · exact hI
    · rename_i hb
      exact Inv.unmarked hI (by simpa using hb)
  refine hread.seq fun v => ?_
  cases v with
  | true => exact .ret ⟨_, .inl rfl, rfl⟩
  | false =>
    refine (keeps_ask _ _).seq fun ok => ?_
    split
    · exact (keeps_syncByID (.event b) key).bind fun _ _ hr => .ret ⟨_, .inr rfl, hr⟩
    · exact .ret ⟨_, .inr rfl, rfl⟩

lemma keeps_underBox (b key : Id) :
    Turns (do act (.lockBox b); syncUnmarked q b key; act (.unlockBox b)) 0 0 := by
  refine (keeps_lockBox b 0).seq fun _ => ?_
  refine (keeps_syncUnmarked q b key).bind fun _ r hr => ?_
  obtain ⟨t, ht, rfl⟩ := hr
  exact keeps_unlockBox ht 0

lemma keeps_findContainer : Turns (findContainer cid) 0 0 := by
  refine (keeps_getContainer cid _).seq fun v => ?_
  cases v with
  | none => exact keeps_get _ _
  | some id => exact keeps_get _ _

lemma keeps_taskExit : Turns (taskExit cid) 0 0 := by
  refine (keeps_findContainer cid).seq fun v => ?_
  cases v with
  | error e => exact .ret rfl
  | ok b => exact keeps_underBox _ _ _

lemma keeps_taskPaused : Turns (taskPaused cid) 0 0 := by
  refine (keeps_findContainer cid).seq fun v => ?_
  cases v with
  | error e => exact .ret rfl
  | ok b => exact keeps_underBox _ _ _

lemma keeps_taskOOM : Turns (taskOOM cid) 0 0 := by
  refine (keeps_getContainer cid _).seq fun v => ?_
  cases v with
  | none => exact .ret rfl
  | some id =>
    refine (keeps_get id _).seq fun v => ?_
    cases v with
    | error e => exact .ret rfl
    | ok b => exact (keeps_syncByID .free cid).ended

lemma keeps_lifecycleUpdate : Turns (lifecycleUpdate q key) 0 0 := by
  have hlock : Turns (act (.lockLife key)) 0 {.live key} := by
    refine .act fun s F o s' v hI _ hact => ?_
    obtain ⟨w', hlock, rfl, -⟩ := acted_map hact
    exact (by simpa using hI : Inv s F).lockedLife hlock
  refine hlock.seq fun _ => ?_
  have hsync : Turns (syncAfter q key) {.live key} {.live key} := by
    refine (keeps_get key _).seq fun v => ?_
    cases v with
    | error e => exact .ret rfl
    | ok b =>
      refine (keeps_ask _ _).seq fun ok => ?_
      split
      · exact (keeps_syncByID (.life key) b.1).ended
      · exact .ret rfl
  refine hsync.seq fun _ => ?_
  exact keeps_unlockLife key

lemma keeps_gcCreate : Turns (gcCreate key) 0 0 := by
  refine (keeps_get key _).seq fun v => ?_
  cases v with
  | error e => exact .ret rfl
  | ok b => exact keeps_markOnly .free key b.1

lemma keeps_save (b : Box) (e : Multiset Tok) :
    Turns (save b) (.creating b.1 ::ₘ e) (.creating b.1 ::ₘ e) := by
  have hsync := keeps_frame (keeps_sync .free b.1) (.creating b.1 ::ₘ e)
  simp only [Guard.own, zero_add] at hsync
  refine .seq (.act fun s F o s' v hI _ hact => ?_) fun _ => hsync
  cases hact
  rw [cons_add] at hI ⊢
  exact hI.putIndex rfl b.2

lemma keeps_endCreate : Turns (act (.endCreate id)) {.creating id} 0 := by
  refine .does (fun _ _ => rfl) fun s F hI => ?_
  rw [zero_add]
  exact hI.endCreate

lemma keeps_create (b : Box) : Turns (create b) {.creating b.1} 0 := by
  have hrollback := keeps_localDestroy ⟨true, false, none⟩ b.1 (by simp)
  refine (keeps_save b 0).seq fun saved => ?_
  split
  · refine (keeps_endCreate b.1).seq fun _ => ?_
    exact hrollback
  refine (keeps_lockBox b.1 _).seq fun _ => ?_
  refine (keeps_ask _ _).seq fun ran => ?_
  rw [cons_swap]
  refine (keeps_save b _).seq fun _ => ?_
  rw [cons_swap]
  refine (keeps_unlockBox (.inl rfl) _).seq fun _ => ?_
  refine (keeps_endCreate b.1).seq fun _ => ?_
  split
  · exact hrollback
  · exact .ret rfl

end Triples

lemma inv_startOp {w' : World} {R : Multiset Tok} {op : Op} {p : Task Unit} (hI : Inv w R)
    (h : startOp w op = some (w', p)) : ∃ r, Inv w' (r + R) ∧ Turns p r 0 := by
  have hkeep : ∀ {q : Task Unit}, Turns q 0 0 → some (w, q) = some (w', p) →
      ∃ r, Inv w' (r + R) ∧ Turns p r 0 := by
    intro q hq heq
    cases heq
    exact ⟨0, by rwa [zero_add], hq⟩
  cases op with
  | create b =>
    obtain ⟨hused, rfl, rfl⟩ := acted_unless h
    exact ⟨{.creating b.1}, hI.create hused, keeps_create b⟩
  | destroy key => exact hkeep (keeps_destroy key) h
  | cleanUp key => exact hkeep (keeps_cleanUp key) h
  | exit cid => exact hkeep (keeps_taskExit cid) h
  | oom cid => exact hkeep (keeps_taskOOM cid) h
  | paused cid => exact hkeep (keeps_taskPaused cid) h
  | pause key => exact hkeep (keeps_lifecycleUpdate .pause key) h
  | resume key => exact hkeep (keeps_lifecycleUpdate .resume key) h
  | commit key => exact hkeep (keeps_lifecycleUpdate .commit key) h
  | rollback key => exact hkeep (keeps_lifecycleUpdate .rollback key) h
  | gc key => exact hkeep (keeps_gcCreate key) h

/-- **A destroyed sandbox leaves no record.** -/
theorem destroyed_leaves_no_record (es : List (Ev Outcome Op)) (c : Conf)
    (hm : Runs.Meets machine.step (Machine.onEv Apart fun _ _ => True) begin es)
    (h : exec machine.step begin es = some c) :
    ∀ id ∈ c.world.destroyed, Gone c.world id := by
  obtain ⟨rs, -, hI⟩ := sound_run (fun _ _ _ _ _ hI _ _ hs => inv_startOp hI hs) inv_init hm h
  exact fun id hid => hI.goneOf hid

def oks (n : Nat) : List Outcome := replicate n .ok

/-- A destroy of a running sandbox with one container, up to the end of its lock. -/
def tearingDown (n : Nat) : List Outcome :=
  oks 6 ++ [.fail, .fail] ++ oks (n + 4) ++ [.fail, .fail] ++ oks 9

/-- A handler of events waits for the lock that a destroy holds. -/
def waitingHandler : List (Ev Outcome Op) :=
  .start (.create ([97], [])) :: goes 0 (oks 10) ++ .start (.paused [97]) :: goes 1 (oks 2) ++
    .start (.destroy [97]) :: goes 2 (tearingDown 5) ++ goes 1 (oks 3) ++ goes 2 (oks 4)

theorem waiting_handler_leaves_none : ∃ c, exec machine.step begin waitingHandler = some c ∧
      [97] ∈ c.world.destroyed ∧ Gone c.world [97] := by
  refine leads (fun c => decide ([97] ∈ c.world.destroyed)) true (by decide +kernel)
    fun c hc hout => ?_
  have hmem : [97] ∈ c.world.destroyed := of_decide_eq_true hout
  exact ⟨hmem, destroyed_leaves_no_record _ c (by decide +kernel) hc [97] hmem⟩

/-- An event of the kernel's OOM killer is between its look and its write. -/
def oomMeanwhile : List (Ev Outcome Op) :=
  .start (.create ([97], [])) :: goes 0 (oks 10) ++ .start (.oom [97]) :: goes 1 (oks 4) ++
    .start (.destroy [97]) :: goes 2 (tearingDown 5 ++ oks 4) ++ goes 1 (oks 1)

/-- The creation has still to save the sandbox. -/
def createMeanwhile : List (Ev Outcome Op) :=
  .start (.create ([97], [])) :: goes 0 (oks 3) ++
    .start (.destroy [97]) :: goes 1 (tearingDown 5 ++ oks 4) ++ goes 0 (oks 7)

/-- The destroy names the sandbox by a prefix of its id. -/
def namedByPrefix : List (Ev Outcome Op) :=
  .start (.create ([97, 98], [])) :: goes 0 (oks 10) ++
    .start (.destroy [97]) :: goes 1 (tearingDown 4 ++ oks 4)

/-- The only save has failed, so that there is no bucket. -/
def neverSaved : List (Ev Outcome Op) :=
  .start (.create ([97], [])) :: goes 0 ([.ok, .ok, .fail] ++ oks 6 ++ [.ok, .fail] ++ oks 2 ++
    [.fail, .fail] ++ oks 5 ++ [.fail] ++ oks 5)

/-- With nothing in flight: whether the index and the database still have the sandbox. -/
def remains (id : Id) (c : Conf) : Option (Bool × Bool) :=
  if c.Quiet ∧ id ∈ c.world.destroyed then
    some ((c.world.index.get id).isSome, (c.world.rows.get id).isSome)
  else none

lemma remaining_records : [(oomMeanwhile, [97]), (createMeanwhile, [97]), (namedByPrefix, [97, 98]),
      (neverSaved, [97])].map
      (fun x => (exec machine.step begin x.1).bind (remains x.2)) =
    [some (false, true), some (true, true), some (true, true), some (true, false)] := by
  decide +kernel

theorem destroyed_sandbox_remains :
    ¬ ∀ (es : List (Ev Outcome Op)) (c : Conf), exec machine.step begin es = some c →
      c.Quiet → ∀ id ∈ c.world.destroyed, Gone c.world id := by
  intro hall
  have hrun := (cons.inj remaining_records).1
  obtain ⟨c, hc, hstate⟩ := Option.bind_eq_some_iff.1 hrun
  obtain ⟨hdone, -, hrow⟩ := acted_if hstate
  simp [(hall _ c hc hdone.1 [97] hdone.2).row] at hrow

end CubeSandbox.Record
