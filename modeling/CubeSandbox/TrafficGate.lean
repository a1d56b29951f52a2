import CubeSandbox.BackendModel

/-!
The traffic token gate, over every interleaving of requests, evictions and writes of metadata.

A request that holds a value of the dictionary holds with it the Redis read that the value
comes from. While the metadata of a sandbox stays the same, all reads of it agree, so that the
values of one request come from one read. What the dictionary cannot tell is a value that has
left it: a missing `AllowPublicTraffic` opens the gate. The condition is therefore on the reads
of the optional keys that the metadata has a value for.
-/

namespace CubeSandbox.Backend

open GoText Conc List Runs Tbl

def NullEq (a b : Option Bytes) : Prop := a = b ∨ (isNull a ∧ isNull b)

@[simp] lemma NullEq.refl (a : Option Bytes) : NullEq a a := .inl rfl

variable {s name : Bytes} {h : Hash} {v : CacheVal} {F r : Multiset (InsId × Hash)} {ins : InsId}
  {req : Request}

lemma NullEq.eq_some {a b : Option Bytes} (h : NullEq a b) (hs : s ≠ []) (hb : b = some s) :
    a = some s := by
  rcases h with rfl | ⟨_, h⟩
  · exact hb
  · simp [hb, isNull, hs] at h

lemma token_of_enforce {allow token allow' token' provided : Option Bytes}
    (hallow : NullEq allow allow') (htoken : NullEq token token')
    (h : enforceTrafficToken allow token provided) (hr : allow' = some (ascii "false")) :
    ∃ t, t ≠ [] ∧ token' = some t ∧ provided = some t := by
  have hallow' : allow = some (ascii "false") := hallow.eq_some (by decide) hr
  simp only [enforceTrafficToken, hallow', ne_eq, not_true_eq_false, if_false] at h
  rcases token with _ | t
  · simp [isNull] at h
  by_cases ht : t = []
  · simp [isNull, ht] at h
  refine ⟨t, ht, ?_, by simpa [isNull, ht] using h⟩
  rcases htoken with rfl | ⟨h', _⟩
  · rfl
  · simp [isNull, ht] at h'

/-! ### Names in the dictionary -/

/-- A name that the metadata may use: no name of a cached backend and not the marker. -/
def Plain (name : Bytes) : Prop := 58 ∉ name ∧ name ≠ metaCached

instance (name : Bytes) : Decidable (Plain name) :=
  inferInstanceAs (Decidable (58 ∉ name ∧ name ≠ metaCached))

/-- A cached value is what the hash gives for its name. -/
structure Cached (h : Hash) (name : Bytes) (v : CacheVal) : Prop where
  ip : ∀ port, name = backendIpName port →
    ∃ caller s t, backendOf caller h port = some (s, t) ∧ v = .str s
  port : ∀ port, name = backendPortName port →
    ∃ caller s t, backendOf caller h port = some (s, t) ∧ v = .str t
  plain : Plain name → NullEq v.decodeOptional (h.get name)

/-- The values of a request are those of one hash. -/
structure OneRead (h : Hash) (port : Bytes) (u : Used) : Prop where
  ip : ∃ caller t, backendOf caller h port = some (u.hostIp, t)
  port : ∃ caller s, backendOf caller h port = some (s, u.hostPort)
  allowPublic : NullEq u.allowPublic (h.get allowPublicTraffic)
  trafficToken : NullEq u.trafficToken (h.get trafficAccessToken)
  mask : NullEq u.mask (h.get maskRequestHost)

/-- If the metadata says that public traffic is not allowed, the request has the token. -/
def Gated (r : Routed) : Prop :=
  r.stored.get allowPublicTraffic = some (ascii "false") →
    ∃ t, t ≠ [] ∧ r.stored.get trafficAccessToken = some t ∧ r.request.provided = some t

/-- Forwarded as it has to be, given the reads so far. -/
structure Proper (reads : List (InsId × Hash)) (r : Routed) : Prop where
  gated : Gated r
  oneRead : ∃ h, (r.request.insId, h) ∈ reads ∧ OneRead h r.request.containerPort r.used

lemma Proper.mono {reads reads' : List (InsId × Hash)} {r : Routed} (h : Proper reads r)
    (hsub : reads ⊆ reads') : Proper reads' r :=
  ⟨h.gated, h.oneRead.imp fun _ hh => ⟨hsub hh.1, hh.2⟩⟩

/-- A request that found a backend finds the optional values too that were read with it. -/
def Kept (w : World) : Act → Outcome → Prop
  | .getOptional k true, _ =>
    (w.cache.get k).isSome ∨ ∀ x ∈ w.reads, x.1 = k.1 → isNull (x.2.get k.2)
  | _, _ => True

instance (w : World) : ∀ a o, Decidable (Kept w a o)
  | .getOptional _ true, _ => inferInstanceAs (Decidable (_ ∨ _))
  | .getOptional _ false, _ | .get _, _ | .set .., _ | .hgetall .., _ | .forward .., _
  | .respond .., _ => .isTrue trivial

/-- Every field of the metadata has a plain name. -/
def PlainNames (h : Hash) : Prop := ∀ e ∈ h.toPairs, Plain e.1

instance (h : Hash) : Decidable (PlainNames h) :=
  inferInstanceAs (Decidable (∀ e ∈ h.toPairs, Plain e.1))

/-- The metadata is deleted, or it is what every read of it and its other key say. -/
def Unchanged (w : World) : Op → Prop
  | .write ins legacy h => h = ∅ ∨ (PlainNames h ∧ (∀ x ∈ w.reads, x.1 = ins → x.2 = h) ∧
      (w.hash ins (!legacy) = ∅ ∨ w.hash ins (!legacy) = h))
  | _ => True

instance (w : World) : ∀ op, Decidable (Unchanged w op)
  | .write ins legacy h => inferInstanceAs (Decidable (h = ∅ ∨ (PlainNames h ∧
      (∀ x ∈ w.reads, x.1 = ins → x.2 = h) ∧
      (w.hash ins (!legacy) = ∅ ∨ w.hash ins (!legacy) = h))))
  | .request _ | .evict _ => .isTrue trivial

/-- Reads of one sandbox agree with each other and with what is stored, and what is cached or held
by a request was read. -/
structure Agree (w : World) (R : Multiset (InsId × Hash)) : Prop where
  reads : ∀ ins h h', (ins, h) ∈ w.reads → (ins, h') ∈ w.reads → h = h'
  stored : ∀ ins legacy h, w.hash ins legacy ≠ ∅ → (ins, h) ∈ w.reads → h = w.hash ins legacy
  both : ∀ ins, w.hash ins false ≠ ∅ → w.hash ins true ≠ ∅ → w.hash ins false = w.hash ins true
  plain : ∀ ins legacy, PlainNames (w.hash ins legacy)
  cached : ∀ ins name v, w.cache.get (ins, name) = some v →
    ∃ h, (ins, h) ∈ w.reads ∧ Cached h name v
  proper : ∀ r ∈ w.routed, Proper w.reads r
  held : ∀ x ∈ R, x ∈ w.reads

variable {w : World} {R : Multiset (InsId × Hash)}

lemma Agree.drop (h : Agree w (r + F)) : Agree w F :=
  { h with held := fun x hx => h.held x (Multiset.mem_add.2 (.inr hx)) }

lemma Agree.hold (h : Agree w (R + F)) {x : InsId × Hash} (hx : x ∈ w.reads) :
    Agree w (x ::ₘ R + F) :=
  { h with
    held := by
      intro y hy
      rw [Multiset.cons_add, Multiset.mem_cons] at hy
      rcases hy with rfl | hy
      · exact hx
      · exact h.held y hy }

section

variable (hw : Agree w R)
include hw

lemma Agree.stored_eq (hh : (ins, h) ∈ w.reads) (hne : w.stored ins ≠ ∅) : h = w.stored ins := by
  unfold World.stored at hne ⊢
  split at hne <;> rename_i hempty
  · rw [if_pos hempty]; exact hw.stored ins true h hne hh
  · rw [if_neg hempty]; exact hw.stored ins false h hne hh

lemma Agree.set (hh : (ins, h) ∈ w.reads) (hv : Cached h name v) :
    Agree { w with cache := w.cache.put (ins, name) v } R :=
  { hw with
    cached := by
      intro ins' name' v' hget
      rw [get_put_eq_some] at hget
      rcases hget with ⟨he, rfl⟩ | ⟨_, hget⟩
      · cases he
        exact ⟨h, hh, hv⟩
      · exact hw.cached ins' name' v' hget }

lemma Agree.del (k : Key) : Agree { w with cache := w.cache.del k } R :=
  { hw with cached := fun ins name v hget =>
      hw.cached ins name v (get_del_eq_some.1 hget).2 }

lemma Agree.read {legacy : Bool} (hne : w.hash ins legacy ≠ ∅) :
    Agree { w with reads := (ins, w.hash ins legacy) :: w.reads } R where
  reads := by
    intro ins' h h' hh hh'
    rw [mem_cons] at hh hh'
    rcases hh with he | hh <;> rcases hh' with he' | hh'
    · rw [(Prod.mk.inj he).2, (Prod.mk.inj he').2]
    · obtain ⟨rfl, rfl⟩ := Prod.mk.inj he
      exact (hw.stored ins' legacy h' hne hh').symm
    · obtain ⟨rfl, rfl⟩ := Prod.mk.inj he'
      exact hw.stored ins' legacy h hne hh
    · exact hw.reads ins' h h' hh hh'
  stored := by
    intro ins' legacy' h hne' hh
    rw [mem_cons] at hh
    rcases hh with he | hh
    · obtain ⟨rfl, rfl⟩ := Prod.mk.inj he
      -- the other key of the sandbox holds the same hash
      cases legacy <;> cases legacy'
      · rfl
      · exact hw.both ins' hne hne'
      · exact (hw.both ins' hne' hne).symm
      · rfl
    · exact hw.stored ins' legacy' h hne' hh
  both := hw.both
  plain := hw.plain
  cached := fun ins' name v hget =>
    (hw.cached ins' name v hget).imp fun _ h => ⟨mem_cons_of_mem _ h.1, h.2⟩
  proper := fun r hr => (hw.proper r hr).mono (subset_cons_self _ _)
  held := fun x hx => mem_cons_of_mem _ (hw.held x hx)

lemma Agree.forward {u : Used} (hh : (req.insId, h) ∈ w.reads) (hu : OneRead h req.containerPort u)
    (hgate : enforceTrafficToken u.allowPublic u.trafficToken req.provided) :
    Agree { w with routed := ⟨req, u, w.stored req.insId⟩ :: w.routed } R :=
  { hw with
    proper := by
      intro r hr
      rcases mem_cons.1 hr with rfl | hr
      · refine ⟨fun hr => ?_, h, hh, hu⟩
        have hne : w.stored req.insId ≠ ∅ := by
          intro he
          simp [he] at hr
        rw [← hw.stored_eq hh hne] at hr ⊢
        exact token_of_enforce hu.allowPublic hu.trafficToken hgate hr
      · exact hw.proper r hr }

end

lemma hash_put (w : World) (ins ins' : InsId) (legacy legacy' : Bool) (h : Hash) :
    ({ w with redis := w.redis.put (ins, legacy) h } : World).hash ins' legacy' =
      if ins' = ins ∧ legacy' = legacy then h else w.hash ins' legacy' := by
  unfold World.hash
  split
  · rename_i he
    rw [he.1, he.2, get_put_self]
    rfl
  rename_i he
  rw [get_put_ne]
  simpa using he

lemma Agree.write {legacy : Bool} (hw : Agree w R) (hok : Unchanged w (.write ins legacy h)) :
    Agree { w with redis := w.redis.put (ins, legacy) h } R :=
  { hw with
    stored := by
      intro ins' legacy' h' hne hh
      rw [hash_put] at hne ⊢
      split at hne <;> rename_i he
      · obtain ⟨rfl, rfl⟩ := he
        rcases hok with rfl | ⟨_, hreads, _⟩
        · simp at hne
        · rw [if_pos ⟨rfl, rfl⟩]
          exact hreads _ hh rfl
      · rw [if_neg he]
        exact hw.stored ins' legacy' h' hne hh
    both := by
      intro ins' hne hne'
      rw [hash_put] at hne hne' ⊢
      rw [hash_put]
      by_cases hi : ins' = ins
      · rcases hok with rfl | ⟨_, _, hother⟩
        · cases legacy <;> simp_all
        · cases legacy <;> simp_all
      · simp only [hi, false_and, if_false] at hne hne' ⊢
        exact hw.both ins' hne hne'
    plain := by
      intro ins' legacy'
      rw [hash_put]
      split
      · rcases hok with rfl | ⟨hplain, _⟩
        · intro e he
          simp [toPairs] at he
        · exact hplain
      · exact hw.plain ins' legacy' }

variable {cfg : Option Bytes} {α : Type}

abbrev Keeps (cfg : Option Bytes) (p : Task α) (r : Multiset (InsId × Hash))
    (Q : α → Multiset (InsId × Hash) → Prop) : Prop :=
  Safe (machine cfg) Agree Kept p r Q

/-- What a read of the dictionary gives: nothing, or a value with the read it is from. -/
def Gives (ins : InsId) (name : Bytes) (r : Multiset (InsId × Hash)) (v : Option CacheVal)
    (r' : Multiset (InsId × Hash)) : Prop :=
  (v = none ∧ r' = r) ∨ ∃ x h, v = some x ∧ r' = (ins, h) ::ₘ r ∧ Cached h name x

lemma Agree.gives (hw : Agree w (r + F)) (ins : InsId) (name : Bytes) :
    ∃ r', Agree w (r' + F) ∧ Gives ins name r (w.cache.get (ins, name)) r' := by
  cases hv : w.cache.get (ins, name) with
  | none => exact ⟨r, hw, .inl ⟨rfl, rfl⟩⟩
  | some v =>
    obtain ⟨h, hh, hc⟩ := hw.cached ins name v hv
    exact ⟨(ins, h) ::ₘ r, hw.hold hh, .inr ⟨v, h, rfl, rfl, hc⟩⟩

lemma keeps_get (ins : InsId) (name : Bytes) (r : Multiset (InsId × Hash)) :
    Keeps cfg (act (.get (ins, name))) r (Gives ins name r) := by
  intro s F o s' v hI _ hact
  obtain ⟨rfl, rfl⟩ := hact
  exact hI.gives ins name

/-- A value, or a missing one, that says what a read of the request says. -/
def Tells (ins : InsId) (r : Multiset (InsId × Hash)) (name : Bytes) (v : Option CacheVal) : Prop :=
  ∃ h, (ins, h) ∈ r ∧ (∀ x ∈ v, Cached h name x) ∧
    NullEq (v.bind CacheVal.decodeOptional) (h.get name)

lemma Tells.mono {r' : Multiset (InsId × Hash)} {v : Option CacheVal} (h : Tells ins r name v)
    (hsub : r ⊆ r') : Tells ins r' name v :=
  h.imp fun _ hh => ⟨hsub hh.1, hh.2⟩

lemma keeps_set (hh : (ins, h) ∈ r) (hv : Cached h name v) :
    Keeps cfg (act (.set (ins, name) (some v))) r fun _ r' => r' = r := by
  intro s F o s' u hI _ hact
  cases o with
  | ok =>
    obtain ⟨rfl, _⟩ := hact
    exact ⟨r, hI.set (hI.held _ (Multiset.mem_add.2 (.inl hh))) hv, rfl⟩
  | fail =>
    obtain ⟨rfl, _⟩ := hact
    exact ⟨r, hI, rfl⟩

def Good (cfg : Option Bytes) (c : Config Act.Ans World) : Prop :=
  Sound (machine cfg) Agree Kept c

def begin : Config Act.Ans World := ⟨.init, []⟩

def demoRequest (token : Option Bytes) : Request := ⟨[97], ascii "80", none, token, none⟩

def goes (n k : Nat) : List (Ev Outcome Op) := replicate k (.go n .ok)

end CubeSandbox.Backend
