import CubeSandbox.ReflinkRun

/-!
The operations of the reflink engine under concurrency.

Each operation is verified alone, from its place in the code, whatever the others do.
-/

namespace CubeSandbox.Reflink

open GoText Conc Option Runs Multiset

variable {i : Ino} {size : Nat} {k : Kind} {p : Place} {live : Bool}

section Triples

variable {serial : Bool} {α : Type} {c : Call} {n : Name}

abbrev Keeps (serial : Bool) (p : Task α) (r : Multiset Tok) (Q : α → Multiset Tok → Prop) :
    Prop := Safe (machine serial) (Inv serial) (Steady serial) p r Q

abbrev Takes (serial : Bool) (t : Task α) (c : Call) (p q : Place) : Prop :=
  Keeps serial t {⟨c, p⟩} fun _ r => r = {⟨c, q⟩}

/-- A call moves on with its result, or stays with its error. -/
abbrev Moves {ε : Type} (c : Call) (q : α → Place) (p : Place) (v : Except ε α)
    (r : Multiset Tok) : Prop :=
  match v with
  | .ok x => r = {⟨c, q x⟩}
  | .error _ => r = {⟨c, p⟩}

lemma fsCall_cases {w w' s : World} {o : Outcome} {b : Bool} (h : fsCall w w' o = some (s, b)) :
    (b = true ∧ s = w') ∨ (b = false ∧ s = w) := by
  cases o <;> cases h
  · exact .inl ⟨rfl, rfl⟩
  · exact .inr ⟨rfl, rfl⟩

lemma keeps_sync (r : Multiset Tok) : Keeps serial (act .sync) r fun _ r' => r' = r := by
  refine .act fun s F o s' v hI _ hact => ?_
  rcases fsCall_cases hact with ⟨-, rfl⟩ | ⟨-, rfl⟩ <;> exact hI

lemma keeps_mkdirAll (d : Name) (r : Multiset Tok) :
    Keeps serial (act (.mkdirAll d)) r fun _ r' => r' = r := by
  refine .act fun s F o s' v hI _ hact => ?_
  rcases fsCall_cases hact with ⟨-, rfl⟩ | ⟨-, rfl⟩
  · exact hI.mkdir d
  · exact hI

lemma keeps_tryRemoveDir (d : Name) (r : Multiset Tok) :
    Keeps serial (act (.tryRemoveDir d)) r fun _ r' => r' = r := by
  refine .act fun s F o s' v hI _ hact => ?_
  cases hact
  exact hI.removeDir d o

lemma keeps_countSnapshots (d : Name) (r : Multiset Tok) :
    Keeps serial (act (.countSnapshots d)) r fun _ r' => r' = r := by
  refine .act fun s F o s' v hI _ hact => ?_
  cases hact
  exact hI

/-! ### Creating a volume -/

/-- The places of a creation of a volume between its reservation and its end. -/
def Making (p : Place) : Prop :=
  p = .reserved .volume ∨ (∃ i, p = .made .volume i none) ∨ ∃ i size, p = .filled .volume i size

/-- What a creation has when its closure ends. -/
def Built (c : Call) (v : Except Error Nat) (r : Multiset Tok) : Prop :=
  match v with
  | .ok size => ∃ i, r = {⟨c, .filled .volume i size⟩}
  | .error _ => ∃ p, Making p ∧ r = {⟨c, p⟩}

lemma createNew_cases {w s : World} {d f : Name} {o : Outcome} {v : Except FsError Ino}
    (h : w.createNew d f o = (s, v)) :
    ((w.dirs.get d).isSome ∧ v = .ok w.next ∧ s = w.addFile d f) ∨ (∃ e, v = .error e ∧ s = w) := by
  cases o with
  | fail => cases h; exact .inr ⟨_, rfl, rfl⟩
  | ok =>
    unfold World.createNew at h
    cases hd : w.dirs.get d with
    | none => rw [hd] at h; cases h; exact .inr ⟨_, rfl, rfl⟩
    | some t =>
      rw [hd] at h
      cases hf : w.file d f with
      | none =>
        rw [hf] at h
        cases h
        exact .inl ⟨rfl, rfl, rfl⟩
      | some i =>
        rw [hf] at h
        cases h
        exact .inr ⟨_, rfl, rfl⟩

lemma keeps_createMain (hc : c.name = n) :
    Keeps serial (act (.createNew n n)) {⟨c, .reserved .volume⟩}
      (Moves c (.made .volume · none) (.reserved .volume)) := by
  subst hc
  refine .perform fun s F o s' v hI _ hact => ?_
  rcases createNew_cases (some.inj hact) with ⟨hd, rfl, rfl⟩ | ⟨e, rfl, rfl⟩
  · refine ⟨{(⟨c, .made .volume s.next none⟩ : Tok)}, ?_, rfl⟩
    exact hI.addFile (k := .volume) hd (.inl ⟨rfl, rfl, rfl⟩)
  · exact ⟨_, hI, rfl⟩

lemma keeps_setLen :
    Keeps serial (act (.setLen n i size)) {⟨.createVolume n size, .made .volume i none⟩} fun v r =>
      r = if v then {⟨.createVolume n size, .filled .volume i size⟩}
        else {⟨.createVolume n size, .made .volume i none⟩} := by
  refine .act fun s F o s' v hI _ hact => ?_
  rcases fsCall_cases hact with ⟨rfl, rfl⟩ | ⟨rfl, rfl⟩
  · exact hI.setLen rfl
  · exact hI

lemma keeps_look :
    Keeps serial (act (.stat (k.dir c.name) c.name)) {⟨c, .filled k i size⟩} fun v r =>
      match v with
      | .ok size => r = {⟨c, .filled k i size⟩}
      | .error _ => k.dir c.name = c.name ∧ r = {⟨c, .filled k i size⟩} := by
  refine .perform fun s F o s' v hI hok hact => ?_
  cases hact
  obtain ⟨hi, -⟩ := hI.fileOf (.inr ⟨size, rfl⟩)
  cases o with
  | ok =>
    refine ⟨{⟨c, .filled k i (s.size i)⟩}, hI.look, ?_⟩
    simp [World.openFile, hi, Except.map]
  | fail =>
    have hdir : k.dir c.name = c.name := by
      by_contra hne
      cases hok hne
    exact ⟨_, hI, hdir, rfl⟩

lemma keeps_projectVolume (hc : c.name = n) :
    Keeps serial (projectVolume n) {⟨c, .filled .volume i size⟩} (Built c) := by
  subst hc
  refine (keeps_look (k := .volume)).bind fun v r hr => ?_
  match v, hr with
  | .error .notFound, ⟨_, hr⟩ | .error .exists, ⟨_, hr⟩ | .error .other, ⟨_, hr⟩ =>
    exact .ret ⟨_, .inr (.inr ⟨i, size, rfl⟩), hr⟩
  | .ok size, hr =>
    subst hr
    refine (keeps_countSnapshots _ _).seq fun v => ?_
    cases v with
    | none => exact .ret ⟨_, .inr (.inr ⟨i, size, rfl⟩), rfl⟩
    | some count => exact .ret ⟨i, rfl⟩

lemma keeps_syncVolume (hc : c.name = n) :
    Keeps serial (syncVolume n) {⟨c, .filled .volume i size⟩} (Built c) := by
  have hfail : ∀ e, Keeps serial (pure (.error e)) {⟨c, .filled .volume i size⟩} (Built c) :=
    fun e => .ret ⟨_, .inr (.inr ⟨i, size, rfl⟩), rfl⟩
  have hnext : ∀ {p : Task (Except Error Nat)},
      Keeps serial p {⟨c, .filled .volume i size⟩} (Built c) →
      Keeps serial (act .sync >>= fun b => if !b then pure (.error .io) else p)
        {⟨c, .filled .volume i size⟩} (Built c) := by
    intro p hp
    refine (keeps_sync _).seq fun b => ?_
    cases b with
    | false => exact hfail _
    | true => exact hp
  exact hnext (hnext (hnext (keeps_projectVolume hc)))

lemma keeps_makeVolume (size : Nat) :
    Keeps serial (makeVolume n size) {⟨.createVolume n size, .reserved .volume⟩}
      (Built (.createVolume n size)) := by
  refine (keeps_mkdirAll n _).seq fun b => ?_
  cases b with
  | false => exact .ret ⟨_, .inl rfl, rfl⟩
  | true =>
    refine (keeps_createMain rfl).bind fun v r hr => ?_
    match v, hr with
    | .error .notFound, hr | .error .exists, hr | .error .other, hr =>
      exact .ret ⟨_, .inl rfl, hr⟩
    | .ok i, hr =>
      subst hr
      refine keeps_setLen.seq fun b => ?_
      cases b with
      | false => exact .ret ⟨_, .inr (.inl ⟨i, rfl⟩), rfl⟩
      | true => exact keeps_syncVolume rfl

lemma keeps_unlock (hp : p = .locked ∨ ∃ k live, p = .deleting k live) :
    Takes serial (act .unlock) c p .idle := by
  refine .does (fun _ _ => rfl) fun s F hI => ?_
  exact hI.unlock hp

lemma keeps_undoVolume (hp : Making p) (hc : c.creates) :
    Takes serial (undoVolume c.name) c p .idle := by
  refine .seq (g := fun _ => {⟨c, .undoing⟩}) (.act fun s F o s' v hI _ hact => ?_) fun _ => ?_
  · obtain ⟨hfree, rfl, -⟩ := acted_unless hact
    exact hI.undo (by simpa using hfree) hc hp
  refine .seq (g := fun _ => {⟨c, .rolling⟩}) (.act fun s F o s' v hI _ hact => ?_) fun _ => ?_
  · cases hact
    exact hI.forget
  refine .seq (g := fun _ => {⟨c, .locked⟩}) (.act fun s F o s' v hI hok hact => ?_) fun _ => ?_
  · obtain rfl : o = .ok := hok
    cases hact
    exact hI.rollRemove
  refine (keeps_tryRemoveDir _ _).seq fun _ => ?_
  exact keeps_unlock (.inl rfl)

lemma keeps_reserve (hp : p = .idle ∧ k = .volume ∨ ∃ d, p = .resolved d ∧ k = .snapshot d)
    (hc : c.creates) (hvalid : validName c.name) :
    Keeps serial (act (.reserve c.name k)) {⟨c, p⟩} fun v r =>
      (v = true → k ≠ .snapshot c.name) ∧ r = if v then {⟨c, .reserved k⟩} else {⟨c, .idle⟩} := by
  refine .perform fun s F o s' v hI hok hact => ?_
  simp only [machine, perform] at hact
  split at hact
  · cases hact
  rename_i hfree
  split at hact
  · cases hact
    refine ⟨{⟨c, .idle⟩}, ?_, by simp, rfl⟩
    have hplace : p.owns = false ∧ p.holds = false ∧ p.reads = false := by
      rcases hp with ⟨rfl, -⟩ | ⟨d, rfl, -⟩ <;> exact ⟨rfl, rfl, rfl⟩
    exact hI.goto _ hplace.2.1.symm hplace.2.2.symm trivial trivial (hI.unowned hplace.1 rfl)
      fun _ => trivial
  rename_i hnone
  cases hact
  have hfree' : s.free := by simpa using hfree
  have hnone' : s.index.get c.name = none := by simpa using hnone
  have hne : k ≠ .snapshot c.name := by
    rintro rfl
    exact hnone (hok rfl)
  exact ⟨{⟨c, .reserved k⟩}, hI.reserve hp hc hvalid (free_iff.1 hfree').1 hnone' hne,
    fun _ => hne, rfl⟩

lemma keeps_createVolume (size : Nat) :
    Keeps serial (createVolume n size) {⟨.createVolume n size, .idle⟩} fun v r =>
      match v with
      | .ok size' => ∃ i, r = {⟨.createVolume n size, .filled .volume i size'⟩}
      | .error _ => r = {⟨.createVolume n size, .idle⟩} := by
  unfold createVolume
  cases hvalid : validName n with
  | false => exact .ret rfl
  | true =>
    refine (keeps_reserve (c := .createVolume n size) (.inl ⟨rfl, rfl⟩) rfl hvalid).bind ?_
    rintro b r ⟨-, rfl⟩
    cases b with
    | false => exact .ret rfl
    | true =>
      refine (keeps_makeVolume size).bind fun v r hr => ?_
      cases v with
      | ok size' => exact .ret hr
      | error e =>
        obtain ⟨p, hp, rfl⟩ := hr
        refine (keeps_undoVolume hp rfl).bind fun _ _ hr => ?_
        exact .ret hr

/-! ### Creating a snapshot -/

/-- What a creation of a snapshot has when its closure ends. -/
def Cloned (c : Call) (d : Name) (v : Except Error (Kind × Nat)) (r : Multiset Tok) : Prop :=
  match v with
  | .ok (k, size) => ∃ i, r = {⟨c, .filled k i size⟩}
  | .error _ => r = {⟨c, .reserved (.snapshot d)⟩}

lemma keeps_projectSnapshot {d : Name} (hd : d ≠ c.name) :
    Keeps serial (projectSnapshot c.name) {⟨c, .filled (.snapshot d) i size⟩} (Cloned c d) := by
  refine .bind (Q := fun v r => v = some (.snapshot d) ∧
    r = {⟨c, .filled (.snapshot d) i size⟩}) ?_ fun v r hr => ?_
  · refine .perform fun s F o s' v hI _ hact => ⟨_, ?_, ?_, rfl⟩
    all_goals
      obtain ⟨-, rfl, rfl⟩ := acted_unless hact
    · exact hI
    · obtain ⟨-, -, hkind, -⟩ := hI.held rfl
      exact hkind
  obtain ⟨rfl, rfl⟩ := hr
  refine (keeps_look (k := .snapshot d)).bind fun v r hr => ?_
  match v, hr with
  | .error .notFound, ⟨hdir, _⟩ | .error .exists, ⟨hdir, _⟩ | .error .other, ⟨hdir, _⟩ =>
    exact absurd hdir hd
  | .ok size, hr => exact .ret ⟨i, hr⟩

lemma keeps_makeSnapshot {source d : Name} (hd : d ≠ n) :
    Keeps serial (makeSnapshot d source n) {⟨.createSnapshot source n, .reserved (.snapshot d)⟩}
      (Cloned (.createSnapshot source n) d) := by
  set c : Call := .createSnapshot source n
  refine .bind (Q := Moves c (.sourced d) (.reserved (.snapshot d))) ?_ fun v r hr => ?_
  · refine .perform fun s F o s' v hI _ hact => ?_
    cases hact
    cases o with
    | fail => exact ⟨_, hI, rfl⟩
    | ok =>
      unfold World.openFile
      cases hf : s.file d source with
      | none => exact ⟨_, hI, rfl⟩
      | some src => exact ⟨_, hI.openSource hf, rfl⟩
  match v, hr with
  | .error .notFound, hr | .error .exists, hr | .error .other, hr => exact .ret hr
  | .ok src, hr =>
  subst hr
  refine .bind (Q := Moves c (.made (.snapshot d) · (some src)) (.reserved (.snapshot d))) ?_
    fun v r hr => ?_
  · refine .perform fun s F o s' v hI _ hact => ?_
    rcases createNew_cases (some.inj hact) with ⟨hdir, rfl, rfl⟩ | ⟨e, rfl, rfl⟩
    · refine ⟨{(⟨c, .made (.snapshot d) s.next (some src)⟩ : Tok)}, ?_, rfl⟩
      exact hI.addFile (k := .snapshot d) hdir (.inr ⟨d, src, rfl, rfl, rfl⟩)
    · exact ⟨_, hI.unsource, rfl⟩
  cases v with
  | error e => exact .ret hr
  | ok i =>
    obtain rfl := hr
    refine .bind (Q := fun v r => ∃ size, r = if v then
      {⟨c, .filled (.snapshot d) i size⟩}
      else {⟨c, .made (.snapshot d) i (some src)⟩}) ?_ fun b r hr => ?_
    · refine .perform fun s F o s' v hI hok hact => ⟨_, ?_, s.size src, rfl⟩
      rcases fsCall_cases hact with ⟨rfl, rfl⟩ | ⟨rfl, rfl⟩
      · exact hI.clone hok
      · exact hI
    obtain ⟨size, rfl⟩ := hr
    cases b with
    | true =>
      refine (keeps_sync _).seq fun _ => ?_
      exact keeps_projectSnapshot hd
    | false =>
      refine .bind (Q := fun _ (r : Multiset Tok) =>
        r = {⟨c, .reserved (.snapshot d)⟩}) ?_ fun _ _ hr => .ret hr
      refine .act fun s F o s' v hI hok hact => ?_
      obtain rfl : o = .ok := hok
      cases hact
      have hi : s.file d n = some i := (hI.fileOf (.inl ⟨_, rfl⟩)).1
      unfold World.removeFile
      rw [hi]
      exact hI.dropClone

lemma keeps_createSnapshot (source : Name) :
    Keeps serial (createSnapshot source n) {⟨.createSnapshot source n, .idle⟩} fun v r =>
      match v with
      | .ok (k, size) => ∃ i, r = {⟨.createSnapshot source n, .filled k i size⟩}
      | .error _ => r = {⟨.createSnapshot source n, .idle⟩} := by
  set c : Call := .createSnapshot source n
  unfold createSnapshot
  cases hvalid : validName n with
  | false => exact .ret rfl
  | true =>
  refine .bind (Q := fun v (r : Multiset Tok) => match v with
    | some d => r = {⟨c, .resolved d⟩}
    | none => r = {⟨c, .idle⟩}) ?_ fun v r hr => ?_
  · refine .perform fun s F o s' v hI _ hact => ?_
    obtain ⟨-, rfl, rfl⟩ := acted_unless hact
    cases hk : s.index.get source with
    | none => exact ⟨_, hI, rfl⟩
    | some k => exact ⟨_, hI.resolve hk, rfl⟩
  cases v with
  | none => exact .ret hr
  | some d =>
    obtain rfl := hr
    refine (keeps_reserve (c := c) (.inr ⟨d, rfl, rfl⟩) rfl hvalid).bind ?_
    rintro b r ⟨hne, rfl⟩
    cases b with
    | false => exact .ret rfl
    | true =>
      have hd : d ≠ n := fun hd => hne rfl (hd ▸ rfl)
      refine (keeps_makeSnapshot hd).bind fun v r hr => ?_
      match v, hr with
      | .ok (k, size), hr => exact .ret hr
      | .error e, hr =>
        obtain rfl := hr
        refine .bind (Q := fun _ (r : Multiset Tok) =>
          r = {⟨c, .idle⟩}) ?_ fun _ _ hr => .ret hr
        refine .act fun s F o s' v hI _ hact => ?_
        obtain ⟨hfree, rfl, -⟩ := acted_unless hact
        exact hI.unreserve (free_iff.1 (by simpa using hfree)).1

/-! ### Deleting -/

lemma keeps_unlocked (hp : p = .locked ∨ ∃ k live, p = .deleting k live) (v : α) :
    Takes serial (unlocked v) c p .idle :=
  (keeps_unlock hp).ended

lemma keeps_lockDelete (hc : c.deletes) :
    Keeps serial (act (.lockDelete c.name)) {⟨c, .idle⟩} fun index r =>
      r = {⟨c, match index.get c.name with
        | some k => .deleting k (hasSnapshots index c.name)
        | none => .locked⟩} := by
  refine .act fun s F o s' v hI hok hact => ?_
  obtain ⟨hfree, rfl, rfl⟩ := acted_unless hact
  exact hI.lockDelete (by simpa using hfree) hc hok

lemma keeps_removeFile :
    Keeps serial (act (.removeFile (k.dir c.name) c.name)) {⟨c, .deleting k live⟩} fun v r =>
      match v with
      | .ok _ => r = {⟨c, .gone k live⟩}
      | .error e => e = .other ∧ r = {⟨c, .deleting k live⟩} := by
  refine .perform fun s F o s' v hI _ hact => ?_
  have hremove := some.inj hact
  cases o with
  | fail =>
    cases hremove
    exact ⟨_, hI, rfl, rfl⟩
  | ok =>
    obtain ⟨-, -, -, ⟨i, hfile⟩, -⟩ := hI.held rfl
    have hi : s.file (k.dir c.name) c.name = some i := by
      simpa [view, only] using congrFun hfile (k.dir c.name)
    unfold World.removeFile at hremove
    rw [hi] at hremove
    cases hremove
    exact ⟨_, hI.deleteFile, rfl⟩

lemma keeps_erase : Takes serial (act (.erase c.name)) c (.gone k live) .locked := by
  refine .does (fun _ _ => rfl) fun s F hI => ?_
  exact hI.erase

lemma keeps_eraseVolume : Takes serial (eraseVolume c.name) c (.gone k live) .idle := by
  refine (keeps_sync _).seq fun _ => ?_
  refine keeps_erase.seq fun _ => ?_
  exact keeps_unlocked (.inl rfl) _

lemma keeps_reapVolume : Takes serial (reapVolume c.name live) c (.gone .volume live) .idle := by
  cases live with
  | true => exact keeps_eraseVolume
  | false =>
    refine .bind (Q := fun v (r : Multiset Tok) => (v = .ok () ∨ v = .error .notFound) ∧
      r = {⟨c, .gone .volume false⟩}) ?_ fun v r hr => ?_
    · refine .perform fun s F o s' v hI hok hact => ⟨_, ?_, ?_, rfl⟩
      · have hremove : s.removeDir c.name o = (s', v) := some.inj hact
        have hkeep := hI.removeDir c.name o
        rwa [hremove] at hkeep
      obtain rfl : o = .ok := hok
      have hremove := some.inj hact
      unfold World.removeDir at hremove
      cases hd : s.dirs.get c.name with
      | none =>
        rw [hd] at hremove
        exact .inr (Prod.mk.inj hremove).2.symm
      | some t =>
        simp only [hd, hI.emptyDir hd, if_true] at hremove
        exact .inl (Prod.mk.inj hremove).2.symm
    · obtain ⟨rfl | rfl, rfl⟩ := hr
      · exact keeps_eraseVolume
      · exact keeps_eraseVolume

lemma keeps_deleteVolume (hc : c.deletes) : Takes serial (deleteVolume c.name) c .idle .idle := by
  refine (keeps_lockDelete hc).seq fun index => ?_
  cases hk : index.get c.name with
  | none => exact keeps_unlocked (.inl rfl) _
  | some k =>
    cases k with
    | snapshot o => exact keeps_unlocked (.inr ⟨_, _, rfl⟩) _
    | volume =>
      refine (keeps_removeFile (k := .volume)).bind fun v r hr => ?_
      match v, hr with
      | .ok (), hr =>
        obtain rfl := hr
        exact keeps_reapVolume
      | .error .other, ⟨_, hr⟩ =>
        obtain rfl := hr
        exact keeps_unlocked (.inr ⟨_, _, rfl⟩) _

lemma keeps_deleteSnapshot (hc : c.deletes) :
    Takes serial (deleteSnapshot c.name) c .idle .idle := by
  refine (keeps_lockDelete hc).seq fun index => ?_
  cases hk : index.get c.name with
  | none => exact keeps_unlocked (.inl rfl) _
  | some k =>
    cases k with
    | volume => exact keeps_unlocked (.inr ⟨_, _, rfl⟩) _
    | snapshot o =>
      refine (keeps_removeFile (k := .snapshot o)).bind fun v r hr => ?_
      match v, hr with
      | .ok (), hr =>
        obtain rfl := hr
        refine (keeps_sync _).seq fun _ => ?_
        refine keeps_erase.seq fun index => ?_
        split
        · refine (keeps_tryRemoveDir _ _).seq fun _ => ?_
          refine (keeps_sync _).seq fun _ => ?_
          exact keeps_unlocked (.inl rfl) _
        · exact keeps_unlocked (.inl rfl) _
      | .error .other, ⟨_, hr⟩ =>
        obtain rfl := hr
        exact keeps_unlocked (.inr ⟨_, _, rfl⟩) _

/-! ### Resizing -/

/-- A call has no more than its place among the readers. -/
def Reads (c : Call) (r : Multiset Tok) : Prop :=
  ∃ p : Place, p.reads ∧ p.holds = false ∧ p.owns = false ∧ r = {⟨c, p⟩}

lemma keeps_growVolume :
    Keeps serial (growVolume c.name size) {⟨c, .reading⟩} fun _ => Reads c := by
  have hend : ∀ v : Except Error (Nat × Nat), Keeps serial (pure v) {⟨c, .reading⟩} fun _ =>
      Reads c := fun v => .ret ⟨.reading, rfl, rfl, rfl, rfl⟩
  refine .seq (g := fun _ => {⟨c, .reading⟩}) (.act fun s F o s' v hI _ hact => ?_) fun v => ?_
  · cases hact
    exact hI
  cases v with
  | error e => exact hend _
  | ok old =>
    dsimp only
    split
    · exact hend _
    split
    · exact hend _
    refine .bind (Q := Moves c .opened .reading) ?_ fun v r hr => ?_
    · refine .perform fun s F o s' v hI _ hact => ?_
      cases hact
      cases o with
      | fail => exact ⟨_, hI, rfl⟩
      | ok =>
        unfold World.openFile
        cases hf : s.file c.name c.name with
        | none => exact ⟨_, hI, rfl⟩
        | some i =>
          exact ⟨_, hI.goto (.opened i) rfl rfl trivial trivial (hI.unowned rfl rfl)
            fun _ => hf, rfl⟩
    cases v with
    | error e =>
      obtain rfl := hr
      exact hend _
    | ok i =>
      obtain rfl := hr
      have hdone : ∀ v : Except Error (Nat × Nat), Keeps serial (pure v) {⟨c, .opened i⟩} fun _ =>
          Reads c := fun v => .ret ⟨.opened i, rfl, rfl, rfl, rfl⟩
      refine .seq (g := fun _ => {⟨c, .opened i⟩})
        (.act fun s F o s' v hI _ hact => ?_) fun b => ?_
      · rcases fsCall_cases hact with ⟨-, rfl⟩ | ⟨-, rfl⟩
        · exact hI.grow size
        · exact hI
      cases b with
      | false => exact hdone _
      | true =>
        refine (keeps_sync _).seq fun b => ?_
        cases b with
        | false => exact hdone _
        | true => exact hdone _

lemma keeps_readUnlock (hreads : p.reads) (hholds : p.holds = false) (howns : p.owns = false) :
    Takes serial (act .readUnlock) c p .idle := by
  refine .does (fun _ _ => rfl) fun s F hI => ?_
  have hpos : 0 < s.readers := by
    rw [← hI.readers, countP_pos]
    exact ⟨⟨c, p⟩, by simp, hreads⟩
  have hlock : s.lock = false := by
    by_contra hl
    have hzero := hI.apart (by simpa using hl)
    omega
  refine hI.rereads .idle (s.readers - 1) ⟨hholds, rfl⟩ ?_ hlock trivial trivial
    (hI.unowned howns rfl) fun _ => trivial
  rw [if_pos hreads, if_neg (by simp [Place.reads])]
  omega

lemma keeps_resizeVolume (size : Nat) : Takes serial (resizeVolume c.name size) c .idle .idle := by
  have hend : ∀ v : Except Error (Nat × Nat),
      Takes serial (do act .readUnlock; return v) c .reading .idle :=
    fun v => (keeps_readUnlock rfl rfl rfl).ended
  refine .seq (g := fun _ => {⟨c, .reading⟩})
    (.act fun s F o s' v hI _ hact => ?_) fun index => ?_
  · obtain ⟨hlock, rfl, -⟩ := acted_unless hact
    exact hI.rereads _ _ ⟨rfl, rfl⟩ rfl (by simpa using hlock) trivial trivial
      (hI.unowned rfl rfl) fun _ => trivial
  cases index.get c.name with
  | none => exact hend _
  | some k =>
    cases k with
    | snapshot o => exact hend _
    | volume =>
      refine keeps_growVolume.bind fun v r hr => ?_
      obtain ⟨p, hreads, hholds, howns, rfl⟩ := hr
      refine (keeps_readUnlock hreads hholds howns).bind fun _ _ hr => ?_
      exact .ret hr

lemma keeps_returnsNone : Keeps serial (act (.returns c none)) {⟨c, .idle⟩} fun _ r => r = 0 := by
  refine .does (fun _ _ => rfl) fun s F hI => ?_
  rw [zero_add]
  exact hI.finishNone

lemma keeps_returnsSome :
    Keeps serial (act (.returns c (some (k, size)))) {⟨c, .filled k i size⟩} fun _ r => r = 0 := by
  refine .does (fun _ _ => rfl) fun s F hI => ?_
  rw [zero_add]
  exact hI.finishSome

/-- What an operation has when it ends. -/
def Ended (c : Call) (made : Option (Kind × Nat)) (r : Multiset Tok) : Prop :=
  match made with
  | some (k, size) => ∃ i, r = {⟨c, .filled k i size⟩}
  | none => r = {⟨c, .idle⟩}

lemma keeps_created (c : Call) : Keeps serial (created c) {⟨c, .idle⟩} (Ended c) := by
  cases c with
  | createVolume n size =>
    refine (keeps_createVolume size).bind fun v r hr => ?_
    cases v with
    | ok size' => exact .ret hr
    | error e => exact .ret hr
  | createSnapshot source n =>
    refine (keeps_createSnapshot source).bind fun v r hr => ?_
    cases v with
    | ok x => exact .ret hr
    | error e => exact .ret hr
  | deleteVolume n => exact (keeps_deleteVolume rfl).seq fun _ => .ret rfl
  | deleteSnapshot n => exact (keeps_deleteSnapshot rfl).seq fun _ => .ret rfl
  | resizeVolume n size => exact (keeps_resizeVolume size).seq fun _ => .ret rfl

/-- **Every operation** keeps the invariant. -/
theorem keeps_operation (c : Call) : Keeps serial (operation c) {⟨c, .idle⟩} fun _ r => r = 0 := by
  refine (keeps_created c).bind fun made r hr => ?_
  match made, hr with
  | none, hr =>
    obtain rfl := hr
    exact keeps_returnsNone
  | some (k, size), ⟨i, hr⟩ =>
    subst hr
    exact keeps_returnsSome

end Triples

lemma sound_of_run {serial : Bool} {es : List (Ev Outcome Call)} {c : Conf}
    (hm : Runs.Meets (machine serial).step (Machine.onEv (Steady serial) fun _ _ => True) begin es)
    (h : exec (machine serial).step begin es = some c) :
    Sound (machine serial) (Inv serial) (Steady serial) c := by
  refine sound_run (fun s R op s' p hI _ halone hs => ?_) (inv_init serial) hm h
  cases hs
  exact ⟨{⟨op, .idle⟩}, hI.start op halone, keeps_operation op⟩

lemma Rest.agrees {w : World} (h : ∀ n, Rest n (view w n)) : Agrees w := by
  constructor
  · intro n
    cases h n with
    | absent kind file =>
      have hk : w.index.get n = none := kind
      have hf : w.file n n = none := congrFun file n
      simp [hk, hf]
    | present k i size good kind file =>
      have hk : w.index.get n = some k := kind
      have hf : w.file n n = only (k.dir n) i n := congrFun file n
      cases k with
      | volume => simp [hk, hf, only, Kind.dir]
      | snapshot o =>
        have hne : n ≠ o := fun heq => good.apart (heq ▸ rfl)
        simp [hk, hf, only, Kind.dir, hne]
  intro n o
  cases h n with
  | absent kind file =>
    have hk : w.index.get n = none := kind
    have hf : w.file o n = none := congrFun file o
    simp [hk, hf]
  | present k i size good kind file =>
    have hk : w.index.get n = some k := kind
    have hf : w.file o n = only (k.dir n) i o := congrFun file o
    cases k with
    | volume =>
      simp only [hk, hf, only, Kind.dir, some.injEq, reduceCtorEq, false_iff, not_and]
      intro hne
      simp [hne]
    | snapshot d =>
      have hne : d ≠ n := fun heq => good.apart (heq ▸ rfl)
      simp only [hk, hf, only, Kind.dir, some.injEq, Kind.snapshot.injEq]
      constructor
      · rintro rfl
        exact ⟨hne, by simp⟩
      rintro ⟨-, hsome⟩
      by_contra hdo
      simp [Ne.symm hdo] at hsome

lemma Inv.keepsFiles {serial : Bool} {w : World} {R : Multiset Tok} (h : Inv serial w R) :
    KeepsFiles w := by
  intro n k size hstore hcalls
  have hview : (view w n).store = some (k, size) := hstore
  have hfile : ∀ {k' : Kind} {s i}, (view w n).store = some (k', s) →
      (view w n).file = only (k'.dir n) i → (w.file (k.dir n) n).isSome := by
    intro k' s i hs hf
    obtain ⟨rfl, -⟩ := Prod.mk.inj (some.inj (hs.symm.trans hview))
    have hat : w.file (k'.dir n) n = only (k'.dir n) i (k'.dir n) := congrFun hf _
    simp [hat, only]
  rcases h.names n with ⟨-, hrest⟩ | ⟨p, hp, hheld⟩
  · cases hrest with
    | absent kind file store => simp [hview] at store
    | present k' i s good kind file store => exact hfile store file
  -- the name belongs to a deletion, which is in flight
  exfalso
  have hmem : p ∈ owners n R := by simp [hp]
  obtain ⟨-, t, ht, hn, hplace⟩ := mem_owners.1 hmem
  have hcall : t.call ∈ w.calls := by
    rw [← mem_coe, h.calls]
    exact mem_map_of_mem _ ht
  have hnot := hcalls t.call hcall hn
  have hfits := h.fits t ht
  obtain ⟨c, q⟩ := t
  subst hplace
  cases q with
  | reserved | sourced | made | filled | undoing | rolling =>
    cases hview.symm.trans hheld.2.2.2
  | deleting | gone =>
    have hdel : c.deletes = true := hfits
    simp [hdel] at hnot
  | idle | resolved | locked | reading | opened => exact hheld

/-- **The reflink engine under concurrency.** What was acknowledged keeps its file, and at rest the
index and the files say the same. -/
theorem reflink_consistent (es : List (Ev Outcome Call)) (c : Conf)
    (hm : Runs.Meets (machine false).step (Machine.onEv (Steady false) fun _ _ => True) begin es)
    (h : exec (machine false).step begin es = some c) :
    KeepsFiles c.world ∧ (c.Quiet → Agrees c.world) := by
  have hsound := sound_of_run hm h
  refine ⟨?_, fun hquiet => ?_⟩
  · obtain ⟨rs, -, hI⟩ := hsound
    exact hI.keepsFiles
  · have hI := hsound.of_quiet hquiet
    exact Rest.agrees fun n => (hI.names n).rest

def goes (t k : Nat) : List (Ev Outcome Call) := List.replicate k (.go t .ok)

/-- A volume of one page is created by the first thread. -/
def newVolume : List (Ev Outcome Call) := .start (.createVolume [118] 4096) :: goes 0 10

/-- A snapshot is cloned while its origin is deleted. -/
def cloneAndDelete : List (Ev Outcome Call) :=
  newVolume ++ .start (.createSnapshot [118] [115]) :: goes 1 3 ++
    .start (.deleteVolume [118]) :: goes 2 6 ++ goes 1 6

theorem clone_survives_origin : ∃ c, exec (machine false).step begin cloneAndDelete = some c ∧
      c.world.store.get [115] = some (.snapshot [118], 4096) ∧ KeepsFiles c.world ∧
      (c.Quiet → Agrees c.world) := by
  refine leads (fun c => c.world.store.get [115]) (some (.snapshot [118], 4096))
    (by decide +kernel) fun c hc hstore => ?_
  exact ⟨hstore, reflink_consistent _ c (by decide +kernel) hc⟩

/-- At rest: whether the name was acknowledged, its entry in the index, and whether it has a
file. -/
def state (d f : Name) (c : Conf) : Option (Bool × Option Kind × Bool) :=
  if c.Quiet then
    some ((c.world.store.get f).isSome, c.world.index.get f, (c.world.file d f).isSome)
  else none

/-- A name is deleted and created again before the file of a first creation, whose rollback then
removes the file. -/
def deletedWhileCreated : List (Ev Outcome Call) :=
  .start (.createVolume [118] 4096) :: goes 0 1 ++ .start (.deleteVolume [118]) :: goes 1 7 ++
    .start (.createVolume [118] 4096) :: goes 2 10 ++ goes 0 8

/-- A snapshot is deleted between its reservation and its clone. -/
def deletedWhileCloned : List (Ev Outcome Call) :=
  newVolume ++ .start (.createSnapshot [118] [115]) :: goes 1 2 ++
    .start (.deleteSnapshot [115]) :: goes 2 6 ++ goes 1 7

/-- A snapshot takes the name of its origin, which is gone. -/
def namedAsOrigin : List (Ev Outcome Call) :=
  newVolume ++ .start (.createSnapshot [118] [115]) :: goes 1 9 ++
    .start (.deleteVolume [118]) :: goes 2 6 ++ .start (.createSnapshot [115] [118]) :: goes 3 9

/-- The look at a new snapshot fails. -/
def unseenClone : List (Ev Outcome Call) :=
  newVolume ++ .start (.createSnapshot [118] [115]) :: goes 1 7 ++ .go 1 .fail :: goes 1 2

def stuckDirectory : List (Ev Outcome Call) :=
  newVolume ++ .start (.deleteVolume [118]) :: goes 1 2 ++ .go 1 .fail :: goes 1 2

/-- A rollback cannot remove the main file. -/
def stuckRollback : List (Ev Outcome Call) :=
  .start (.createVolume [118] 4096) :: goes 0 3 ++ .go 0 .fail :: goes 0 2 ++
    .go 0 .fail :: goes 0 3

lemma inconsistent_runs :
    [(deletedWhileCreated, [118]), (deletedWhileCloned, [115]), (namedAsOrigin, [118]),
      (unseenClone, [115]), (stuckDirectory, [118]), (stuckRollback, [118])].map
      (fun x => (exec (machine false).step begin x.1).bind (state [118] x.2)) =
    [some (true, none, false), some (false, none, true),
      some (true, some (.snapshot [118]), true), some (false, none, true),
      some (true, some .volume, false), some (false, none, true)] := by
  decide +kernel

theorem reflink_inconsistent : ¬ ∀ (es : List (Ev Outcome Call)) (c : Conf),
      exec (machine false).step begin es = some c →
        KeepsFiles c.world ∧ (c.Quiet → Agrees c.world) := by
  intro hall
  have hrun := (List.cons.inj (List.cons.inj inconsistent_runs).2).1
  obtain ⟨c, hc, hstate⟩ := bind_eq_some_iff.1 hrun
  obtain ⟨hquiet, -, hrest⟩ := acted_if hstate
  obtain ⟨hindex, hfile⟩ := Prod.mk.inj hrest
  have hsnap := (((hall _ c hc).2 hquiet).snapshot [115] [118]).2 ⟨by decide, hfile⟩
  simp [hindex] at hsnap

end CubeSandbox.Reflink
