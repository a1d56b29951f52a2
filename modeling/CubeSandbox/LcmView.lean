import CubeSandbox.LcmFlow

/-!
The transitions of one sandbox, as a protocol of its own.

What matters of the world for one sandbox is its state key, its phase at CubeMaster, what the
proxies have accepted, and the state events that are on their way. An operation takes the key,
calls CubeMaster, writes the outcome and tells the proxies, one place after the other. The
invariant says that at most one operation is past the taking of the key, what holds in each
place, and that a sandbox no operation holds is agreed on unless an event is still to come.
-/

namespace CubeSandbox.Flow

open GoText Conc Lcm Multiset Option Function

/-- The state says what CubeMaster has. -/
def LState.Matches (st : LState) (ph : Phase) : Prop :=
  (st = .running ∧ ph = .running) ∨ (st = .paused ∧ ph = .paused)

instance (st : LState) (ph : Phase) : Decidable (st.Matches ph) :=
  inferInstanceAs (Decidable (_ ∨ _))

/-- The values of a key that say that a transition is under way. -/
def LState.marker : LState → Bool
  | pausing | resuming | killing => true
  | running | paused | killed => false

def Call.marker : Call → LState
  | pause => .pausing
  | resume => .resuming
  | kill => .killing

lemma Call.marker_marker (c : Call) : c.marker.marker = true := by cases c <;> rfl

structure View where
  key : Option LState
  phase : Option Phase
  accepted : ProxyId → Option LState
  missed : ProxyId → Prop
  news : List LState
  active : Nat
  inHand : Nat
  dropped : Prop
  telling : Nat
  calls : Call → Nat

def View.Live (v : View) (ph : Phase) : Prop := v.phase = some ph ∧ ph ≠ .gone

def View.write (v : View) (st : LState) : View := { v with key := some st, dropped := False }

/-- `World.Free`, of the view. -/
def View.Free (v : View) : Prop := (∀ st ∈ v.key, st.marker = false) ∧ v.telling = 0

/-- Where an operation is: it has not taken the key, it has, its call is under way or has come to an
outcome, or it tells the proxies, the last with those that are left. -/
inductive Place
  | reading
  | locked (st : LState)
  | calling (c : Call)
  | served (c : Call) (outcome : Option LState)
  | telling (st : LState) (left : Option (List ProxyId))
  deriving DecidableEq

/-- An operation on the sandbox. One that handles an event has it until its fate is known. -/
structure Pos where
  place : Place
  news : Option LState
  hand : Bool

namespace Pos

/-- The operation is past the taking of the key. -/
def owns (t : Pos) : Bool :=
  match t.place with
  | .reading => false
  | _ => true

def tells (t : Pos) : Bool :=
  match t.place with
  | .served _ _ | .telling _ _ => true
  | _ => false

def calling (c : Call) (t : Pos) : Bool := t.place = .calling c

end Pos

/-- No event of the sandbox is on its way. -/
def Quiet (v : View) (T : Multiset Pos) : Prop := v.news = [] ∧ ∀ t ∈ T, t.news = none

/-- The state is what CubeMaster has, unless an event is on its way. -/
def Fresh (v : View) (T : Multiset Pos) (s : LState) : Prop :=
  ∀ ph, v.Live ph → Quiet v T → s.Matches ph

/-- Every proxy but those excepted has accepted only this state, or misses the last push. -/
def View.Spread (v : View) (s : LState) (left : List ProxyId) : Prop :=
  ∀ p st, v.accepted p = some st → p ∉ left → st = s ∨ v.missed p

def View.KeyIs (v : View) (s : LState) : Prop := v.key = none ∨ v.key = some s

/-- The proxies have one state, which is what CubeMaster has, unless the next event says so. -/
def View.InStep (v : View) : Prop :=
  ∃ s, ∀ ph, v.Live ph → v.Spread s [] ∧ (v.news = [] → s.Matches ph)

/-- The key says that a transition is under way. One that resumes has left the proxies as they were,
and no event about them is lost before one is dropped. -/
def View.Held (v : View) (m : LState) : Prop :=
  v.key = some m ∧ (m = .resuming → v.inHand = 0 → ¬ v.dropped → v.InStep)

def Stage (v : View) (T : Multiset Pos) : Place → Prop
  | .reading => True
  | .locked st => v.Held st ∧ st.marker = true
  | .calling c => v.Held c.marker
  | .served c outcome => v.Held c.marker ∧ ∀ s ∈ outcome, ∀ ph, v.Live ph → s.Matches ph
  | .telling s left =>
    (∀ st ∈ v.key, st.marker = false) ∧
      ∀ ph, v.Live ph → v.KeyIs s ∧ Fresh v T s ∧ ∀ l ∈ left, v.Spread s l

/-- The last event that is on its way says what CubeMaster has. -/
structure Heard (v : View) (T : Multiset Pos) : Prop where
  hand : ∀ t ∈ T, t.news ≠ none → t.hand = true
  last : ∀ ph, v.Live ph → ∀ st ∈ v.news.getLast?, st.Matches ph
  held : ∀ ph, v.Live ph → v.news = [] → ∀ t ∈ T, ∀ st ∈ t.news, st.Matches ph

/-- No operation holds the sandbox and it is agreed on, but for an event that is on its way. -/
def Agreed (v : View) (T : Multiset Pos) : Prop :=
  ∃ s, ∀ ph, v.Live ph → v.KeyIs s ∧ v.Spread s [] ∧ Fresh v T s

structure Kept (v : View) (T : Multiset Pos) : Prop where
  active : v.active = T.card
  inHand : v.inHand = T.countP (·.hand)
  telling : v.telling = T.countP (·.tells)
  calls : ∀ c, v.calls c = T.countP (·.calling c)
  oneOwner : T.countP (·.owns) ≤ 1
  stage : ∀ t ∈ T, Stage v T t.place
  marker : ∀ st ∈ v.key, st.marker = true → T.countP (·.owns) ≠ 0
  heard : Heard v T
  free : T.countP (·.owns) = 0 → Agreed v T

/-- The sandbox is kept, with one operation apart from the others. -/
abbrev KeptAt (v : View) (pl : Place) (n : Option LState) (b : Bool) (G : Multiset Pos) : Prop :=
  Kept v (⟨pl, n, b⟩ ::ₘ G)

/-! ### What the places say of each other -/

variable {ph : Phase}

section Places

variable {v v' : View} {T T' G : Multiset Pos} {p p' : Pos}

lemma place_of_unowned (h : T.countP (·.owns) = 0) {t : Pos} (ht : t ∈ T) : t.place = .reading := by
  have hnot : ¬ t.owns = true := countP_eq_zero.1 h t ht
  cases hp : t.place with
  | reading => rfl
  | locked | calling | served | telling => simp [Pos.owns, hp] at hnot

lemma stage_of_unowned (h : T.countP (·.owns) = 0) {t : Pos} (ht : t ∈ T) : Stage v T' t.place := by
  rw [place_of_unowned h ht]
  trivial

lemma Kept.unowned (h : Kept v T) (hfree : v.Free) : T.countP (·.owns) = 0 := by
  obtain ⟨hkey, htell⟩ := hfree
  rw [countP_eq_zero]
  intro t ht howns
  have hstage := h.stage t ht
  have hnot : ¬ t.tells = true := by
    rw [h.telling] at htell
    exact countP_eq_zero.1 htell t ht
  cases hp : t.place with
  | reading => simp [Pos.owns, hp] at howns
  | locked st =>
    rw [hp] at hstage
    have hfree := hkey st hstage.1.1
    rw [hstage.2] at hfree
    cases hfree
  | calling c =>
    rw [hp] at hstage
    have hfree := hkey _ hstage.1
    rw [c.marker_marker] at hfree
    cases hfree
  | served | telling => simp [Pos.tells, hp] at hnot

lemma Kept.others (h : Kept v (p ::ₘ G)) (hp : p.owns = true) : G.countP (·.owns) = 0 := by
  have hone := h.oneOwner
  rw [countP_cons, if_pos hp] at hone
  omega

/-- An event that is not in the stream is in hand. -/
lemma Kept.quiet (h : Kept v T) (hhand : v.inHand = 0) : ∀ t ∈ T, t.news = none := by
  intro t ht
  by_contra hne
  rw [h.inHand] at hhand
  exact countP_eq_zero.1 hhand t ht (h.heard.hand t ht hne)

lemma Kept.head (h : Kept v (p ::ₘ G)) : Stage v (p ::ₘ G) p.place := h.stage _ (mem_cons_self _ _)

lemma Heard.mono (h : Heard v T) (hphase : v'.phase = v.phase) (hnews : v'.news = v.news)
    (hT : ∀ t ∈ T', t.news = none ∨ ∃ t' ∈ T, t'.news = t.news ∧ t'.hand = t.hand) :
    Heard v' T' := by
  have hlive : ∀ ph, v'.Live ph → v.Live ph := fun ph hl => ⟨hphase ▸ hl.1, hl.2⟩
  refine ⟨fun t ht hne => ?_, fun ph hl => ?_, fun ph hl hnil t ht st hst => ?_⟩
  · rcases hT t ht with hnone | ⟨t', ht', heq, hhand⟩
    · exact absurd hnone hne
    · rw [← hhand]; exact h.hand t' ht' (heq ▸ hne)
  · rw [hnews]; exact h.last ph (hlive ph hl)
  · rcases hT t ht with hnone | ⟨t', ht', heq, -⟩
    · rw [hnone] at hst; cases hst
    · exact h.held ph (hlive ph hl) (hnews ▸ hnil) t' ht' st (heq ▸ hst)

lemma Heard.swap (h : Heard v (p ::ₘ G)) (hphase : v'.phase = v.phase)
    (hnews : v'.news = v.news) (hp : p'.news = none ∨ (p'.news = p.news ∧ p'.hand = p.hand)) :
    Heard v' (p' ::ₘ G) := by
  refine h.mono hphase hnews fun t ht => ?_
  rcases mem_cons.1 ht with rfl | ht
  · exact hp.imp_right fun heq => ⟨p, mem_cons_self _ _, heq.1.symm, heq.2.symm⟩
  · exact .inr ⟨t, mem_cons_of_mem ht, rfl, rfl⟩

lemma Quiet.swap (hq : Quiet v' (p' ::ₘ G)) (hnews : v'.news = v.news) (hp : p.news = none) :
    Quiet v (p ::ₘ G) := by
  refine ⟨hnews ▸ hq.1, fun t ht => ?_⟩
  rcases mem_cons.1 ht with rfl | ht
  · exact hp
  · exact hq.2 t (mem_cons_of_mem ht)

lemma Heard.publish (h : Heard v T) {st : LState} (hst : st.Matches ph) :
    Heard { v with phase := some ph, news := v.news ++ [st] } T := by
  refine ⟨h.hand, fun x hl y hy => ?_, fun x _ hnil => absurd hnil (by simp)⟩
  obtain rfl : ph = x := some.inj hl.1
  obtain rfl : st = y := by simpa using hy
  exact hst

/-- **One operation moves.** The others have not taken the key. -/
lemma Kept.move (h : Kept v (p ::ₘ G)) (hG : G.countP (·.owns) = 0) (hactive : v'.active = v.active)
    (hhand : v'.inHand + (if p.hand then 1 else 0) = v.inHand + if p'.hand then 1 else 0)
    (htell : v'.telling + (if p.tells then 1 else 0) = v.telling + if p'.tells then 1 else 0)
    (hcalls : ∀ c, v'.calls c + (if p.calling c then 1 else 0) =
      v.calls c + if p'.calling c then 1 else 0)
    (hstage : Stage v' (p' ::ₘ G) p'.place)
    (hmarker : ∀ st ∈ v'.key, st.marker = true → p'.owns = true)
    (hheard : Heard v' (p' ::ₘ G)) (hfree : p'.owns = false → Agreed v' (p' ::ₘ G)) :
    Kept v' (p' ::ₘ G) where
  active := by
    rw [hactive, h.active, card_cons, card_cons]
  inHand := by
    have := h.inHand
    rw [countP_cons] at this ⊢
    omega
  telling := by
    have := h.telling
    rw [countP_cons] at this ⊢
    omega
  calls c := by
    have := h.calls c
    have := hcalls c
    rw [countP_cons] at *
    omega
  oneOwner := by
    rw [countP_cons, hG]
    split <;> omega
  stage t ht := by
    rcases mem_cons.1 ht with rfl | ht
    · exact hstage
    · exact stage_of_unowned hG ht
  marker st hst hm := by
    rw [countP_cons, if_pos (hmarker st hst hm)]
    omega
  heard := hheard
  free hzero := by
    refine hfree ?_
    have hnot : ¬ p'.owns = true := countP_eq_zero.1 hzero p' (mem_cons_self _ _)
    simpa using hnot

/-- It moves on with the key: what CubeMaster has and the events stay. -/
lemma Kept.hold (h : Kept v (p ::ₘ G)) (hG : G.countP (·.owns) = 0)
    (hsame : (v'.telling + (if p.tells then 1 else 0), v'.calls, p'.calling, v'.active, v'.inHand,
        v'.phase, v'.news, p'.hand, p'.news, p'.owns) =
      (v.telling + (if p'.tells then 1 else 0), v.calls, p.calling, v.active, v.inHand,
        v.phase, v.news, p.hand, none, true))
    (hstage : Stage v' (p' ::ₘ G) p'.place) : Kept v' (p' ::ₘ G) := by
  simp only [Prod.mk.injEq] at hsame
  obtain ⟨htell, hcalls, hcalling, hactive, hhand, hphase, hnews, hp, hnone, howns⟩ := hsame
  exact h.move hG hactive (by rw [hhand, hp]) htell
    (fun c => by rw [hcalls, congrFun hcalling c]) hstage (fun _ _ _ => howns)
    (h.heard.swap hphase hnews (.inl hnone)) (by simp [howns])

/-- **Operations come and go** that have not taken the key, and what is told stays right. -/
lemma Kept.transfer (h : Kept v T) (hkey : v'.key = v.key) (hphase : v'.phase = v.phase)
    (hacc : v'.accepted = v.accepted) (hmissed : v'.missed = v.missed)
    (htell : v'.telling = v.telling) (hcalls : v'.calls = v.calls)
    (hactive : v'.active = T'.card) (hhand : v'.inHand = T'.countP (·.hand))
    (hcount : ∀ P : Pos → Bool, (∀ n b, P ⟨.reading, n, b⟩ = false) →
      T'.countP (P ·) = T.countP (P ·))
    (hmem : ∀ t ∈ T', t.place = .reading ∨ t ∈ T) (hheard : Heard v' T')
    (hheld : ∀ m, v.Held m → v'.Held m)
    (hfresh : ∀ s, v.KeyIs s → (∀ st ∈ v.key, st.marker = false) → Fresh v T s →
      Fresh v' T' s) : Kept v' T' := by
  have hlive : ∀ ph, v'.Live ph → v.Live ph := fun ph hl => ⟨hphase ▸ hl.1, hl.2⟩
  have hspread : ∀ s l, v.Spread s l → v'.Spread s l := by
    intro s l hs p st hp hl
    rw [hmissed]
    exact hs p st (hacc ▸ hp) hl
  have hkeyIs : ∀ s, v.KeyIs s → v'.KeyIs s := by
    intro s hs
    rwa [View.KeyIs, hkey]
  refine ⟨hactive, hhand, ?_, fun c => ?_, ?_, fun t ht => ?_, fun st hst hm => ?_, hheard,
    fun hz => ?_⟩
  · rw [htell, h.telling, hcount _ fun _ _ => rfl]
  · rw [hcalls, h.calls c, hcount _ fun _ _ => rfl]
  · rw [hcount _ fun _ _ => rfl]; exact h.oneOwner
  · rcases hmem t ht with hread | ht
    · rw [hread]; trivial
    have hstage := h.stage t ht
    cases hp : t.place with
    | reading => trivial
    | locked st => rw [hp] at hstage; exact ⟨hheld _ hstage.1, hstage.2⟩
    | calling c => rw [hp] at hstage; exact hheld _ hstage
    | served c out =>
      rw [hp] at hstage
      exact ⟨hheld _ hstage.1, fun s hs ph hl => hstage.2 s hs ph (hlive ph hl)⟩
    | telling s left =>
      rw [hp] at hstage
      refine ⟨by rw [hkey]; exact hstage.1, fun ph hl => ?_⟩
      obtain ⟨hk, hf, hleft⟩ := hstage.2 ph (hlive ph hl)
      exact ⟨hkeyIs s hk, hfresh s hk hstage.1 hf, fun l hl => hspread s l (hleft l hl)⟩
  · rw [hcount _ fun _ _ => rfl]
    exact h.marker st (hkey ▸ hst) hm
  · rw [hcount _ fun _ _ => rfl] at hz
    obtain ⟨s, hagree⟩ := h.free hz
    refine ⟨s, fun ph hl => ?_⟩
    obtain ⟨hk, hs, hf⟩ := hagree ph (hlive ph hl)
    refine ⟨hkeyIs s hk, hspread s [] hs, hfresh s hk (fun st hst => ?_) hf⟩
    by_contra hm
    exact h.marker st hst (by simpa using hm) hz

end Places

/-! ### The steps of an operation -/

namespace Kept

variable {v : View} {T G : Multiset Pos} {b : Bool} {n out : Option LState} {st m : LState}
  {c : Call} {left : Option (List ProxyId)} {l : List ProxyId}

lemma count_reader (G : Multiset Pos) {P : Pos → Bool} (hP : ∀ n b, P ⟨.reading, n, b⟩ = false) :
    (⟨.reading, n, b⟩ ::ₘ G).countP (P ·) = G.countP (P ·) := by
  rw [countP_cons, if_neg (by simp [hP])]
  rfl

lemma enter (h : Kept v T) : KeptAt { v with active := v.active + 1 } .reading none false T := by
  refine h.transfer rfl rfl rfl rfl rfl rfl ?_ ?_ (fun P hP => count_reader T hP) ?_ ?_
    (fun _ hm => hm) ?_
  · rw [card_cons, ← h.active]
  · rw [countP_cons, ← h.inHand]; rfl
  · exact fun t ht => (mem_cons.1 ht).imp_left fun heq => by rw [heq]
  · refine h.heard.mono rfl rfl fun t ht => ?_
    exact (mem_cons.1 ht).imp (fun heq => by rw [heq]) fun ht => ⟨t, ht, rfl, rfl⟩
  · exact fun s _ _ hf ph hl hq => hf ph hl
      ⟨hq.1, fun t ht => hq.2 t (mem_cons_of_mem ht)⟩

lemma leave (h : KeptAt v .reading none false T) : Kept { v with active := v.active - 1 } T := by
  refine h.transfer rfl rfl rfl rfl rfl rfl ?_ ?_ (fun P hP => (count_reader T hP).symm) ?_ ?_
    (fun _ hm => hm) ?_
  · have hcard := h.active
    rw [card_cons] at hcard
    change v.active - 1 = T.card
    omega
  · have hcount := h.inHand
    rwa [countP_cons] at hcount
  · exact fun t ht => .inr (mem_cons_of_mem ht)
  · exact h.heard.mono rfl rfl fun t ht => .inr ⟨t, mem_cons_of_mem ht, rfl, rfl⟩
  · refine fun s _ _ hf ph hl hq => hf ph hl ⟨hq.1, fun t ht => ?_⟩
    rcases mem_cons.1 ht with rfl | ht
    · rfl
    · exact hq.2 t ht

lemma take (h : Kept v T) {st : LState} {rest : List LState} (hnews : v.news = st :: rest)
    (hone : v.inHand = 0) :
    KeptAt { v with news := rest, active := v.active + 1, inHand := v.inHand + 1 } .reading
      (some st) true T := by
  have hnone := h.quiet hone
  refine h.transfer rfl rfl rfl rfl rfl rfl ?_ ?_ (fun P hP => count_reader T hP) ?_
    ⟨fun t ht hne => ?_, fun ph hl x hx => ?_, fun ph hl hnil t ht x hx => ?_⟩
    (fun _ hm => ⟨hm.1, fun _ hz => absurd hz (Nat.succ_ne_zero _)⟩) ?_
  · rw [card_cons, ← h.active]
  · rw [countP_cons, ← h.inHand]; rfl
  · exact fun t ht => (mem_cons.1 ht).imp_left fun heq => by rw [heq]
  · rcases mem_cons.1 ht with rfl | ht
    · rfl
    · exact absurd (hnone t ht) hne
  · refine h.heard.last ph hl x ?_
    rw [hnews]
    cases rest with
    | nil => simp at hx
    | cons y ys => simpa using hx
  · rcases mem_cons.1 ht with rfl | ht
    · cases hx
      refine h.heard.last ph hl st ?_
      rw [hnews, show rest = [] from hnil]
      rfl
    · rw [hnone t ht] at hx; cases hx
  · intro s _ _ _ ph hl hq
    have hno := hq.2 _ (mem_cons_self _ _)
    cases hno

/-- An event is dropped: no such sandbox, the key says the same, or a transition is under way. -/
lemma drop (h : KeptAt v .reading (some st) b G)
    (hwhy : (∃ k, v.key = some k ∧ (k.marker = true ∨ k = st)) ∨ ∀ ph, ¬ v.Live ph) :
    KeptAt v .reading none b G := by
  refine h.transfer rfl rfl rfl rfl rfl rfl ?_ ?_ (fun P hP => ?_) ?_
    (h.heard.swap rfl rfl (.inl rfl)) (fun _ hm => hm) ?_
  · rw [h.active, card_cons, card_cons]
  · rw [h.inHand, countP_cons, countP_cons]
  · rw [count_reader G hP, count_reader G hP]
  · exact fun t ht => (mem_cons.1 ht).imp (fun heq => by rw [heq])
      mem_cons_of_mem
  intro s hkey hmark _ ph hl hq
  rcases hwhy with ⟨k, hk, hcase⟩ | hdead
  · rcases hcase with hm | rfl
    · have hfree := hmark k hk
      rw [hm] at hfree
      cases hfree
    have hs : s = k := by
      rcases hkey with hnone | hsome
      · rw [hnone] at hk; cases hk
      · exact some.inj (hsome.symm.trans hk)
    rw [hs]
    exact h.heard.held ph hl hq.1 _ (mem_cons_self _ _) k rfl
  · exact absurd hl (hdead ph)

lemma handled (h : KeptAt v .reading none true G) {dropped : Prop}
    (hdrop : v.key = some .resuming → dropped) :
    KeptAt { v with inHand := v.inHand - 1, dropped := dropped } .reading none false G := by
  refine h.transfer rfl rfl rfl rfl rfl rfl ?_ ?_ (fun P hP => ?_) ?_
    (h.heard.swap rfl rfl (.inl rfl))
    (fun m hm => ⟨hm.1, fun hr _ hno => absurd (hdrop (hr ▸ hm.1)) hno⟩) ?_
  · rw [h.active, card_cons, card_cons]
  · have hcount := h.inHand
    rw [countP_cons, if_pos rfl] at hcount
    rw [countP_cons, if_neg (by simp)]
    change v.inHand - 1 = _
    omega
  · rw [count_reader G hP, count_reader G hP]
  · exact fun t ht => (mem_cons.1 ht).imp (fun heq => by rw [heq])
      mem_cons_of_mem
  · exact fun s _ _ hf ph hl hq => hf ph hl (hq.swap rfl rfl)

/-! #### Taking the key -/

lemma count_unowned (h : T.countP (·.owns) = 0) {p : Pos} (hT : T = p ::ₘ G) :
    G.countP (·.owns) = 0 := by
  rw [hT, countP_cons] at h
  omega

lemma lock (h : KeptAt v .reading none b G) (hm : m.marker = true) (hfree : v.Free) :
    KeptAt (v.write m) (.locked m) none b G := by
  have hun := h.unowned hfree
  refine h.hold (count_unowned hun rfl) rfl ⟨⟨rfl, fun _ hhand _ => ?_⟩, hm⟩
  obtain ⟨s, hagree⟩ := h.free hun
  refine ⟨s, fun ph hl => ?_⟩
  obtain ⟨-, hs, hf⟩ := hagree ph hl
  exact ⟨hs, fun hnil => hf ph hl ⟨hnil, h.quiet hhand⟩⟩

lemma writeNews (h : KeptAt v .reading (some st) b G) (hm : st.marker = false) (hfree : v.Free) :
    KeptAt { v.write st with telling := v.telling + 1 } (.telling st none) none b G := by
  refine h.hold (count_unowned (h.unowned hfree) rfl) rfl
    ⟨fun x hx => ?_, fun ph hl => ⟨.inr rfl, fun ph' hl' hq => ?_, by simp⟩⟩
  · cases hx
    exact hm
  · exact h.heard.held ph' hl' hq.1 _ (mem_cons_self _ _) st rfl

lemma writeAgain (h : KeptAt v .reading none b G) (hm : st.marker = false)
    (hkey : v.key = some st) (htell : v.telling = 0) :
    KeptAt { v.write st with telling := v.telling + 1 } (.telling st none) none b G := by
  have hfree : ∀ x ∈ v.key, x.marker = false := by
    intro x hx
    cases hkey.symm.trans hx
    exact hm
  have hun := h.unowned ⟨hfree, htell⟩
  refine h.hold (count_unowned hun rfl) rfl
    ⟨fun x hx => hfree x (hkey ▸ hx), fun ph hl => ⟨.inr rfl, fun ph' hl' hq => ?_, by simp⟩⟩
  obtain ⟨s, hagree⟩ := h.free hun
  obtain ⟨hs, -, hf⟩ := hagree ph' hl'
  have heq : s = st := by
    rcases hs with hnone | hsome
    · rw [hkey] at hnone; cases hnone
    · exact some.inj (hsome.symm.trans hkey)
  rw [← heq]
  exact hf ph' hl' (hq.swap rfl rfl)

lemma send (h : KeptAt v (.locked c.marker) none b G) :
    KeptAt { v with calls := update v.calls c (v.calls c + 1) } (.calling c) none b G := by
  refine h.move (h.others rfl) rfl rfl rfl (fun x => ?_)
    h.head.1 (fun _ _ _ => rfl)
    (h.heard.swap rfl rfl (.inl rfl)) (fun hno => by simp [Pos.owns] at hno)
  by_cases hx : x = c
  · subst hx; simp [Pos.calling]
  · simp [Pos.calling, hx, Ne.symm hx]

lemma serve (h : KeptAt v (.calling c) none b G) {ph : Option Phase} {news : List LState}
    {out : Option LState}
    (hout : ∀ s ∈ out, ∀ x, ({ v with phase := ph } : View).Live x → s.Matches x)
    (hheard : Heard { v with phase := ph, news := news } (⟨.calling c, none, b⟩ ::ₘ G))
    (hheld : v.Held c.marker → ({ v with phase := ph, news := news } : View).Held c.marker) :
    KeptAt { v with
      phase := ph
      news := news
      telling := v.telling + 1
      calls := update v.calls c (v.calls c - 1) } (.served c out) none b G := by
  have hcount := h.calls c
  rw [countP_cons, if_pos (by simp [Pos.calling])] at hcount
  refine h.move (h.others rfl) rfl rfl rfl (fun x => ?_)
    ⟨hheld h.head, hout⟩ (fun _ _ _ => rfl)
    (hheard.swap rfl rfl (.inl rfl)) (fun hno => by simp [Pos.owns] at hno)
  by_cases hx : x = c
  · subst hx
    simp only [Pos.calling, update_self]
    simp
    omega
  · simp [Pos.calling, hx, Ne.symm hx]

lemma writeOutcome (h : KeptAt v (.served c (some st)) none b G) (hm : st.marker = false) :
    KeptAt (v.write st) (.telling st none) none b G := by
  obtain ⟨-, hout⟩ := h.head
  refine h.hold (h.others rfl) rfl
    ⟨fun x hx => ?_, fun ph hl => ⟨.inr rfl, fun ph' hl' _ => hout st rfl ph' hl', by simp⟩⟩
  cases hx
  exact hm

lemma rollBack (h : KeptAt v (.served c out) none b G) (hrun : ∀ ph, v.Live ph → ph = .running) :
    KeptAt { v with key := none } (.telling .running none) none b G :=
  h.hold (h.others rfl) rfl
    ⟨(fun _ hx => by cases hx),
      fun ph hl => ⟨.inl rfl, fun ph' hl' _ => .inl ⟨rfl, hrun ph' hl'⟩, by simp⟩⟩

/-- The state that says what CubeMaster has. -/
def stateOf : Option Phase → LState
  | some .paused => .paused
  | _ => .running

lemma matches_stateOf (hl : v.Live ph) : (stateOf v.phase).Matches ph := by
  obtain ⟨hph, hne⟩ := hl
  rw [hph]
  cases ph with
  | running => exact .inl ⟨rfl, rfl⟩
  | paused => exact .inr ⟨rfl, rfl⟩
  | gone => exact absurd rfl hne

lemma eq_stateOf (hl : v.Live ph) (hst : st.Matches ph) : st = stateOf v.phase := by
  rw [hl.1]
  rcases hst with ⟨rfl, rfl⟩ | ⟨rfl, rfl⟩ <;> rfl

lemma inStep_of_matches
    (hagree : ∀ ph, v.Live ph → ∀ p st, v.accepted p = some st → st.Matches ph) : v.InStep :=
  ⟨stateOf v.phase, fun ph hl => ⟨fun p x hp _ => .inl (eq_stateOf hl (hagree ph hl p x hp)),
    fun _ => matches_stateOf hl⟩⟩

lemma giveUp (h : KeptAt v (.served c out) none b G) (hstep : v.InStep) :
    ∃ s, KeptAt { v with key := none } (.telling s (some [])) none b G := by
  obtain ⟨s, hs⟩ := hstep
  refine ⟨s, h.hold (h.others rfl) rfl ⟨(fun _ hx => by cases hx), fun ph hl => ⟨.inl rfl, ?_, ?_⟩⟩⟩
  · exact fun ph' hl' hq => (hs ph' hl').2 hq.1
  · intro l hleft
    cases hleft
    exact (hs ph hl).1

lemma unlock (h : KeptAt v (.locked m) none b G) (hstep : v.InStep) :
    KeptAt { v with key := none } .reading none b G := by
  obtain ⟨s, hs⟩ := hstep
  refine h.move (h.others rfl) rfl rfl rfl (fun _ => rfl) trivial (fun _ hx => by cases hx)
    (h.heard.swap rfl rfl (.inl rfl)) fun _ => ⟨s, fun ph hl => ⟨.inl rfl, (hs ph hl).1, ?_⟩⟩
  exact fun ph' hl' hq => (hs ph' hl').2 hq.1

/-! #### The proxies -/

lemma fleet (h : KeptAt v (.telling st left) none b G) {eps : List ProxyId}
    (heps : ∀ ph, v.Live ph → ∀ p x, v.accepted p = some x → p ∈ eps) :
    KeptAt v (.telling st (some eps)) none b G := by
  obtain ⟨hmark, hstage⟩ := h.head
  refine h.hold (h.others rfl) rfl ⟨hmark, fun ph hl => ?_⟩
  obtain ⟨hkey, hfresh, -⟩ := hstage ph hl
  refine ⟨hkey, fun ph' hl' hq => hfresh ph' hl' (hq.swap rfl rfl), fun l hleft p x hp hn => ?_⟩
  cases hleft
  exact absurd (heps ph hl p x hp) hn

lemma tell (h : KeptAt v (.telling st (some l)) none b G) {p : ProxyId}
    {l' : List ProxyId} {acc : ProxyId → Option LState} {missed : ProxyId → Prop}
    (hl : ∀ q ∈ l, q = p ∨ q ∈ l') (hp : acc p = some st ∨ missed p)
    (hacc : ∀ q, q ≠ p → acc q = v.accepted q) (hmissed : ∀ q, q ≠ p → v.missed q → missed q) :
    KeptAt { v with accepted := acc, missed := missed } (.telling st (some l')) none b G := by
  obtain ⟨hmark, hstage⟩ := h.head
  refine h.hold (h.others rfl) rfl ⟨hmark, fun ph hlive => ?_⟩
  obtain ⟨hkey, hfresh, hspread⟩ := hstage ph hlive
  refine ⟨hkey, fun ph' hl' hq => hfresh ph' hl' (hq.swap rfl rfl), fun x hx q y hq hn => ?_⟩
  cases hx
  by_cases hqp : q = p
  · subst hqp
    rcases hp with hp | hp
    · exact .inl (some.inj (hq.symm.trans hp))
    · exact .inr hp
  · have hql : q ∉ l := fun hmem => (hl q hmem).elim hqp hn
    exact (hspread l rfl q y ((hacc q hqp).symm.trans hq) hql).imp_right (hmissed q hqp)

lemma announce (h : KeptAt v (.locked m) none b G) (hm : m ≠ .resuming)
    (acc : ProxyId → Option LState) (missed : ProxyId → Prop) :
    KeptAt { v with accepted := acc, missed := missed } (.locked m) none b G :=
  h.hold (h.others rfl) rfl ⟨⟨h.head.1.1, fun hr => absurd hr hm⟩, h.head.2⟩

lemma told (h : KeptAt v (.telling st (some [])) none b G) :
    KeptAt { v with telling := v.telling - 1 } .reading none b G := by
  obtain ⟨hmark, hstage⟩ := h.head
  have hcount := h.telling
  rw [countP_cons, if_pos (by simp [Pos.tells])] at hcount
  refine h.move (h.others rfl) rfl rfl ?_ (fun _ => rfl) trivial (fun x hx hm => ?_)
    (h.heard.swap rfl rfl (.inl rfl)) fun _ => ⟨st, fun ph hl => ?_⟩
  · simp only [Pos.tells]
    simp
    omega
  · have hno := hmark x hx
    rw [hm] at hno
    cases hno
  · obtain ⟨hkey, hfresh, hspread⟩ := hstage ph hl
    exact ⟨hkey, hspread [] rfl, fun ph' hl' hq => hfresh ph' hl' (hq.swap rfl rfl)⟩

/-! #### What happens to a sandbox -/

section

variable (h : Kept v T)
include h

lemma forget {acc : ProxyId → Option LState} {missed : ProxyId → Prop}
    (hacc : ∀ p st, acc p = some st → v.accepted p = some st ∧ (v.missed p → missed p)) :
    Kept { v with accepted := acc, missed := missed } T := by
  have hspread : ∀ s l, v.Spread s l →
      ({ v with accepted := acc, missed := missed } : View).Spread s l := by
    intro s l hs p st hp hl
    obtain ⟨hold, hmiss⟩ := hacc p st hp
    exact (hs p st hold hl).imp_right hmiss
  have hheld : ∀ m, v.Held m →
      ({ v with accepted := acc, missed := missed } : View).Held m := by
    refine fun m hm => ⟨hm.1, fun hr hhand hd => (hm.2 hr hhand hd).imp fun s hs ph hl => ?_⟩
    exact (hs ph hl).imp_left (hspread s [])
  refine { h with
    stage := fun t ht => ?_
    heard := h.heard.mono rfl rfl fun t ht => .inr ⟨t, ht, rfl, rfl⟩
    free := fun hz => (h.free hz).imp fun s hs ph hl => ?_ }
  · have hstage := h.stage t ht
    cases hp : t.place with
    | reading => trivial
    | locked | served => rw [hp] at hstage; exact hstage.imp_left (hheld _)
    | calling => rw [hp] at hstage; exact hheld _ hstage
    | telling s left =>
      rw [hp] at hstage
      refine ⟨hstage.1, fun ph hl => ?_⟩
      obtain ⟨hk, hf, hleft⟩ := hstage.2 ph hl
      exact ⟨hk, hf, fun l hl => hspread s l (hleft l hl)⟩
  · obtain ⟨hk, hs, hf⟩ := hs ph hl
    exact ⟨hk, hspread s [] hs, hf⟩

lemma dead {ph : Option Phase} {news : List LState}
    (hdead : ∀ x, ¬ ({ v with phase := ph } : View).Live x) :
    Kept { v with phase := ph, news := news } T := by
  have hheld : ∀ m, v.Held m → ({ v with phase := ph, news := news } : View).Held m :=
    fun m hm => ⟨hm.1, fun _ _ _ => ⟨.running, fun x hl => absurd hl (hdead x)⟩⟩
  refine { h with
    stage := fun t ht => ?_
    heard := ⟨h.heard.hand, fun x hl => absurd hl (hdead x), fun x hl => absurd hl (hdead x)⟩
    free := fun _ => ⟨.running, fun x hl => absurd hl (hdead x)⟩ }
  have hstage := h.stage t ht
  cases hp : t.place with
  | reading => trivial
  | locked => rw [hp] at hstage; exact hstage.imp_left (hheld _)
  | calling => rw [hp] at hstage; exact hheld _ hstage
  | served c out =>
    rw [hp] at hstage
    exact ⟨hheld _ hstage.1, fun _ _ x hl => absurd hl (hdead x)⟩
  | telling s left =>
    rw [hp] at hstage
    exact ⟨hstage.1, fun x hl => absurd hl (hdead x)⟩

lemma create (hkey : v.key = none) (hacc : ∀ p, v.accepted p = none)
    (hactive : v.active = 0) (hnews : v.news = []) :
    Kept { v with phase := some .running } T := by
  obtain rfl : T = 0 := by
    rw [← card_eq_zero, ← h.active, hactive]
  refine { h with
    stage := by simp
    heard := ⟨by simp, fun ph hl => ?_, by simp⟩
    free := fun _ => ⟨.running, fun ph hl => ⟨.inl hkey, ?_, ?_⟩⟩ }
  · simp [hnews]
  · intro p st hp
    have hnone : v.accepted p = some st := hp
    rw [hacc p] at hnone
    cases hnone
  · rintro ph' ⟨hph, -⟩ -
    exact .inl ⟨rfl, (some.inj hph).symm⟩

lemma expire (hfree : v.Free) : Kept { v with key := none } T := by
  have hun := h.unowned hfree
  refine { h with
    stage := fun t ht => stage_of_unowned hun ht
    marker := fun _ hx => by cases hx
    heard := h.heard.mono rfl rfl fun t ht => .inr ⟨t, ht, rfl, rfl⟩
    free := fun hz => (h.free hz).imp fun s hs ph hl => ⟨.inl rfl, (hs ph hl).2⟩ }

lemma changed (hfree : v.Free) {ph0 : Phase} (hlive : v.Live ph0) (hst : st.Matches ph) :
    Kept { v with phase := some ph, news := v.news ++ [st] } T := by
  have hun := h.unowned hfree
  refine { h with
    stage := fun t ht => stage_of_unowned hun ht
    heard := h.heard.publish hst
    free := fun hz => (h.free hz).imp fun s hs x hl => ?_ }
  obtain ⟨hk, hs, -⟩ := hs ph0 hlive
  exact ⟨hk, hs, fun _ _ hq => absurd hq.1 (by simp)⟩

end

end Kept

end CubeSandbox.Flow
