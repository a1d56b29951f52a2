import CubeSandbox.AuthModel

/-!
Refresh tokens are exchanged once, and not after a password change.

A token that was handed out has a row. What was exchanged or ended has a revoked row, for good;
a refresh that has passed its check holds a row that is not revoked, and no other refresh holds
the same one.
-/

namespace CubeSandbox.Auth

open GoText Runs List Option Slots

variable {username : Bytes} {token : Token} {c : Call}

section
variable {rows rows' : Rows} {id : Nat} {r : Row}

def Owned (rows : Rows) (id : Nat) (username : Bytes) : Prop :=
  ∃ r, rows id = some r ∧ r.username = username

def Revoked (rows : Rows) (id : Nat) : Prop := ∃ r, rows id = some r ∧ r.revoked = true

def Live (rows : Rows) (id : Nat) : Prop := ∃ r, rows id = some r ∧ r.revoked = false

lemma Live.not_revoked (h : Live rows id) : ¬ Revoked rows id := by
  rintro ⟨r, hr, hrev⟩
  obtain ⟨r', hr', hlive⟩ := h
  cases hr.symm.trans hr'
  rw [hrev] at hlive
  cases hlive

/-- A statement keeps every row, its user and its revocation. -/
def Keeps (rows rows' : Rows) : Prop :=
  ∀ id r, rows id = some r →
    ∃ r', rows' id = some r' ∧ r'.username = r.username ∧ (r.revoked = true → r'.revoked = true)

lemma Keeps.refl (rows : Rows) : Keeps rows rows := fun _ r h => ⟨r, h, rfl, id⟩

lemma Keeps.owned (h : Keeps rows rows') (ho : Owned rows id username) :
    Owned rows' id username := by
  obtain ⟨r, hr, hu⟩ := ho
  obtain ⟨r', hr', hu', -⟩ := h id r hr
  exact ⟨r', hr', hu'.trans hu⟩

lemma Keeps.revoked (h : Keeps rows rows') (hr : Revoked rows id) : Revoked rows' id := by
  obtain ⟨r, hr, hrev⟩ := hr
  obtain ⟨r', hr', -, hrev'⟩ := h id r hr
  exact ⟨r', hr', hrev' hrev⟩

lemma create_of_none (h : rows id = none) (username : Bytes) :
    createRefreshToken rows id username = rows.set id ⟨username, false⟩ := by
  simp [createRefreshToken, h]

lemma set_of_ne_none {x : Nat} (h : rows id = none) (hx : rows x ≠ none) (row : Row) :
    rows.set id row x = rows x := KMap.set_ne _ _ fun hxi => hx (hxi ▸ h)

lemma keeps_set (h : rows id = none) (row : Row) : Keeps rows (rows.set id row) := by
  intro x r hr
  exact ⟨r, by rw [set_of_ne_none h (by simp [hr]), hr], rfl, fun h => h⟩

lemma keeps_mark (rows : Rows) (p : Nat → Row → Prop) [∀ id r, Decidable (p id r)] :
    Keeps rows fun id =>
      (rows id).map fun r => if p id r then { r with revoked := true } else r := by
  intro id r hr
  by_cases hp : p id r
  · exact ⟨{ r with revoked := true }, by simp [hr, hp], rfl, fun _ => rfl⟩
  · exact ⟨r, by simp [hr, hp], rfl, fun h => h⟩

lemma revoke_self (h : Owned rows id username) : Revoked (revokeRefreshToken rows id) id := by
  obtain ⟨r, hr, -⟩ := h
  exact ⟨{ r with revoked := true }, by simp [revokeRefreshToken, hr], rfl⟩

lemma revoke_other {tokenID : Nat} (hne : id ≠ tokenID) (h : Live rows id) :
    Live (revokeRefreshToken rows tokenID) id := by
  obtain ⟨r, hr, hlive⟩ := h
  exact ⟨r, by simp [revokeRefreshToken, hr, hne], hlive⟩

lemma revokeAll_self (h : Owned rows id username) :
    Revoked (revokeAllRefreshTokensForUser rows username) id := by
  obtain ⟨r, hr, hu⟩ := h
  exact ⟨{ r with revoked := true }, by simp [revokeAllRefreshTokensForUser, hr, hu], rfl⟩

lemma revokeAll_other {username' : Bytes} (hne : username' ≠ username)
    (ho : Owned rows id username') (h : Live rows id) :
    Live (revokeAllRefreshTokensForUser rows username) id := by
  obtain ⟨r, hr, hlive⟩ := h
  obtain ⟨r', hr', hu⟩ := ho
  cases hr.symm.trans hr'
  exact ⟨r, by simp [revokeAllRefreshTokensForUser, hr, hu, hne], hlive⟩

end

/-- The identifier that a call has drawn and not stored yet. -/
def Call.pending : Call → Option Nat
  | .loginCreate _ id | .refreshCreate _ id => some id
  | _ => none

/-- What a call knows of the tokens it works with. -/
def Knows (w : World) : Call → Prop
  | .refreshCheck token => token ∈ w.issued
  | .refreshCreate token _ => token ∈ w.issued ∧ Live w.rows token.tokenID
  | .refreshRevoke token id =>
    token ∈ w.issued ∧ Live w.rows token.tokenID ∧ Owned w.rows id token.username
  | _ => True

structure Inv (w : World) : Prop where
  handed : ∀ t ∈ w.issued, Owned w.rows t.tokenID t.username
  drawn : ∀ id, w.rows id ≠ none → id ∈ w.drawn
  pending : ∀ (i : Nat) (c : Call) id, w.calls[i]? = some c → c.pending = some id →
    w.rows id = none ∧ id ∈ w.drawn
  apart : ∀ (i j : Nat) (c d : Call) id, w.calls[i]? = some c → w.calls[j]? = some d →
    c.pending = some id → d.pending = some id → i = j
  knows : ∀ (i : Nat) c, w.calls[i]? = some c → Knows w c
  alone : ∀ (i j : Nat) (c d : Call) t u, w.calls[i]? = some c → w.calls[j]? = some d →
    c.exchanging = some t → d.exchanging = some u → t.tokenID = u.tokenID → i = j
  spent : ∀ id ∈ w.exchanged, Revoked w.rows id
  ended : ∀ id ∈ w.ended, Revoked w.rows id
  safe : Safe w

lemma inv_start (users : KMap Bytes Bytes) : Inv (start users) := by
  refine ⟨nofun, fun _ h => absurd rfl h, ?_, ?_, ?_, ?_, nofun, nofun, nodup_nil, rfl⟩
  · intro i c id h
    simp [start] at h
  · intro i j c d id h
    simp [start] at h
  · intro i c h
    simp [start] at h
  · intro i j c d t u h
    simp [start] at h

section
variable {w : World}

lemma Knows.mono {w' : World} (h : Knows w c) (hissued : ∀ t ∈ w.issued, t ∈ w'.issued)
    (hkeeps : Keeps w.rows w'.rows)
    (hlive : ∀ t, c.exchanging = some t → Live w.rows t.tokenID → Live w'.rows t.tokenID) :
    Knows w' c := by
  cases c with
  | refreshCheck token => exact hissued _ h
  | refreshCreate token id => exact ⟨hissued _ h.1, hlive token rfl h.2⟩
  | refreshRevoke token id =>
    exact ⟨hissued _ h.1, hlive token rfl h.2.1, hkeeps.owned h.2.2⟩
  | _ => trivial

variable {i : Nat}

/-- **A call goes on**: its identifier is the one it had or a new one, a row that it adds is under
its identifier, and no other call exchanges its token. -/
lemma Inv.put (hi : Inv w) {c' : Call} (hc : w.calls[i]? = some c)
    {users : KMap Bytes Bytes} {rows : Rows} {drawn : List Nat} (hkeeps : Keeps w.rows rows)
    (hnew : ∀ id, rows id ≠ none → w.rows id ≠ none ∨ c.pending = some id)
    (hdrawn : ∀ id ∈ w.drawn, id ∈ drawn) (hpend : ∀ id, c'.pending = some id →
      rows id = none ∧ id ∈ drawn ∧ (c.pending = some id ∨ id ∉ w.drawn))
    (hexch : ∀ t (j : Nat) (d : Call) u, c'.exchanging = some t → j ≠ i → w.calls[j]? = some d →
      d.exchanging = some u → t.tokenID ≠ u.tokenID)
    (hlive : ∀ (j : Nat) (d : Call) t, j ≠ i → w.calls[j]? = some d → d.exchanging = some t →
      Live w.rows t.tokenID → Live rows t.tokenID) (hknows : Knows { w with rows := rows } c') :
    Inv { w with users := users, rows := rows, drawn := drawn, calls := w.calls.set i c' } := by
  -- another call's identifier is not the one in the new place
  have hother : ∀ (j : Nat) (d : Call) id, j ≠ i → w.calls[j]? = some d → d.pending = some id →
      c'.pending ≠ some id := by
    intro j d id hj hd hdp hp
    obtain hold | hfresh := (hpend id hp).2.2
    · exact hj (hi.apart j i d c id hd hc hdp hold)
    · exact hfresh (hi.pending j d id hd hdp).2
  refine ⟨fun t ht => hkeeps.owned (hi.handed t ht), fun id hid => ?_, fun j d id hd hdp => ?_,
    fun j k d e id hd he hdp hep => ?_, fun j d hd => ?_, fun j k d e t u hd he hdt heu htu => ?_,
    fun id hid => hkeeps.revoked (hi.spent id hid), fun id hid => hkeeps.revoked (hi.ended id hid),
    hi.safe.once, hi.safe.ended⟩
  · obtain hid | hid := hnew id hid
    · exact hdrawn id (hi.drawn id hid)
    · exact hdrawn id (hi.pending i c id hc hid).2
  · obtain ⟨rfl, rfl⟩ | ⟨hj, hd'⟩ := set_cases hc hd
    · exact ⟨(hpend id hdp).1, (hpend id hdp).2.1⟩
    obtain ⟨hnone, hdr⟩ := hi.pending j d id hd' hdp
    refine ⟨?_, hdrawn id hdr⟩
    by_contra hne
    obtain hsome | hown := hnew id hne
    · exact hsome hnone
    · exact hj (hi.apart j i d c id hd' hc hdp hown)
  · obtain ⟨rfl, rfl⟩ | ⟨hj, hd'⟩ := set_cases hc hd
    · obtain ⟨rfl, rfl⟩ | ⟨hk, he'⟩ := set_cases hc he
      · rfl
      · exact absurd hdp (hother k e id hk he' hep)
    obtain ⟨rfl, rfl⟩ | ⟨hk, he'⟩ := set_cases hc he
    · exact absurd hep (hother j d id hj hd' hdp)
    · exact hi.apart j k d e id hd' he' hdp hep
  · obtain ⟨rfl, rfl⟩ | ⟨hj, hd'⟩ := set_cases hc hd
    · exact hknows.mono (fun _ h => h) (.refl _) fun _ _ h => h
    · exact (hi.knows j d hd').mono (fun _ h => h) hkeeps fun t ht => hlive j d t hj hd' ht
  · obtain ⟨rfl, rfl⟩ | ⟨hj, hd'⟩ := set_cases hc hd
    · obtain ⟨rfl, rfl⟩ | ⟨hk, he'⟩ := set_cases hc he
      · rfl
      · exact absurd htu (hexch t k e u hdt hk he' heu)
    obtain ⟨rfl, rfl⟩ | ⟨hk, he'⟩ := set_cases hc he
    · exact absurd htu.symm (hexch u j d t heu hj hd' hdt)
    · exact hi.alone j k d e t u hd' he' hdt heu htu

/-- A call that has drawn no identifier and has not checked a token. -/
structure Call.Idle (c : Call) : Prop where
  pending : c.pending = none
  exchanging : c.exchanging = none

lemma Inv.quiet (hi : Inv w) (hc : w.calls[i]? = some c) (users : KMap Bytes Bytes)
    {c' : Call} (hidle : c'.Idle) (hknows : Knows w c') :
    Inv { w with users := users, calls := w.calls.set i c' } := by
  refine hi.put hc (.refl _) (fun _ h => .inl h) (fun _ h => h) ?_ ?_
    (fun _ _ _ _ _ _ h => h) hknows
  · intro id hp
    rw [hidle.pending] at hp
    cases hp
  intro t j d u ht
  rw [hidle.exchanging] at ht
  cases ht

lemma idle_done (r : Result) : (Call.done r).Idle := ⟨rfl, rfl⟩

lemma idle_changeRevoke (username : Bytes) : (Call.changeRevoke username).Idle := ⟨rfl, rfl⟩

section

variable (hi : Inv w)
include hi

lemma Inv.fail (hc : w.calls[i]? = some c) (e : AuthErr) :
    Inv (w.fail i e) := hi.quiet hc w.users (idle_done _) trivial

lemma Inv.push (hidle : c.Idle) (hknows : Knows w c) : Inv (w.push c) := by
  have hnot : ∀ {j : Nat} {d : Call}, (w.calls ++ [c])[j]? = some d →
      d.pending ≠ none ∨ d.exchanging ≠ none → w.calls[j]? = some d := by
    intro j d hd hbusy
    obtain ⟨-, rfl⟩ | ⟨-, hd'⟩ := append_cases hd
    · rw [hidle.pending, hidle.exchanging] at hbusy
      simp at hbusy
    · exact hd'
  refine ⟨hi.handed, hi.drawn, fun j d id hd hdp => ?_, fun j k d e id hd he hdp hep => ?_,
    fun j d hd => ?_, fun j k d e t u hd he hdt heu htu => ?_, hi.spent, hi.ended, hi.safe.once,
    hi.safe.ended⟩
  · exact hi.pending j d id (hnot hd (.inl (by simp [hdp]))) hdp
  · exact hi.apart j k d e id (hnot hd (.inl (by simp [hdp]))) (hnot he (.inl (by simp [hep]))) hdp
      hep
  · obtain ⟨-, rfl⟩ | ⟨-, hd'⟩ := append_cases hd
    · exact hknows.mono (fun _ h => h) (.refl _) fun _ _ h => h
    · exact (hi.knows j d hd').mono (fun _ h => h) (.refl _) fun _ _ h => h
  · exact hi.alone j k d e t u (hnot hd (.inr (by simp [hdt]))) (hnot he (.inr (by simp [heu]))) hdt
      heu htu

section

variable (hc : w.calls[i]? = some c)
include hc

lemma Inv.draw {fresh : Except String Nat}
    (next : Nat → Call) {w' : World} (hnext : ∀ id, (next id).pending = some id)
    (hexch : ∀ id t (j : Nat) (d : Call) u, (next id).exchanging = some t → j ≠ i →
      w.calls[j]? = some d → d.exchanging = some u → t.tokenID ≠ u.tokenID)
    (hknows : ∀ id, Knows w (next id)) (h : w.draw i fresh next = some w') : Inv w' := by
  unfold World.draw at h
  split at h
  · cases h
    exact hi.fail hc _
  rename_i id
  split_ifs at h
  rename_i hid
  cases h
  refine hi.put hc (.refl _) (fun _ h => .inl h) (fun _ h => mem_cons_of_mem _ h) ?_
    (fun t => hexch id t) (fun _ _ _ _ _ _ h => h) (hknows id)
  intro id' hp
  cases (hnext id).symm.trans hp
  refine ⟨?_, mem_cons_self, .inr hid⟩
  by_contra hne
  exact hid (hi.drawn id hne)

lemma Inv.create {id : Nat}
    (hid : c.pending = some id) (username : Bytes) (c' : Call) (hpend : c'.pending = none)
    (hexch : ∀ t, c'.exchanging = some t → c.exchanging = some t)
    (hknows : Knows (w.withRows (createRefreshToken w.rows id username)) c') :
    Inv ((w.withRows (createRefreshToken w.rows id username)).put i c') := by
  have hnone := (hi.pending i c id hc hid).1
  have hrows := create_of_none hnone username
  refine hi.put hc (hrows ▸ keeps_set hnone _) ?_ (fun _ h => h) ?_ ?_ ?_ hknows
  · intro x hx
    by_cases hxi : x = id
    · exact .inr (hxi ▸ hid)
    change createRefreshToken w.rows id username x ≠ none at hx
    rw [hrows, KMap.set_ne _ _ hxi] at hx
    exact .inl hx
  · intro x hp
    rw [hpend] at hp
    cases hp
  · intro t j d u ht hj hd hdu htu
    exact hj (hi.alone j i d c u t hd hc hdu (hexch t ht) htu.symm)
  · rintro j d t - - - ⟨r, hr, hlive⟩
    refine ⟨r, ?_, hlive⟩
    change createRefreshToken w.rows id username t.tokenID = some r
    rw [hrows, set_of_ne_none hnone (by simp [hr]), hr]

lemma owned_create {id : Nat} (hid : c.pending = some id) (username : Bytes) :
    Owned (createRefreshToken w.rows id username) id username := by
  rw [create_of_none (hi.pending i c id hc hid).1]
  exact ⟨_, KMap.set_self _ _ _, rfl⟩

end

lemma Inv.issued (h : Owned w.rows token.tokenID token.username) :
    Inv { w with issued := token :: w.issued } := by
  refine { hi with handed := fun t ht => ?_, knows := fun j d hd => ?_, safe := { hi.safe with } }
  · obtain rfl | ht := mem_cons.1 ht
    · exact h
    · exact hi.handed t ht
  · exact (hi.knows j d hd).mono (fun _ h => mem_cons_of_mem _ h) (.refl _) fun _ _ h => h

lemma Inv.exchanged (newTokenID : Nat) (hrev : Revoked w.rows token.tokenID)
    (hnew : token.tokenID ∉ w.exchanged) (hlive : token.tokenID ∉ w.ended) :
    Inv (w.exchange token newTokenID) := by
  refine ⟨hi.handed, hi.drawn, hi.pending, hi.apart, fun j d hd => ?_, hi.alone, fun id hid => ?_,
    fun id hid => ?_, ?_, ?_⟩
  · exact (hi.knows j d hd).mono (fun _ h => h) (.refl _) fun _ _ h => h
  · obtain hid | hid := mem_append.1 hid
    · exact hi.spent id hid
    · exact mem_singleton.1 hid ▸ hrev
  · simp only [World.exchange, if_neg hlive] at hid
    exact hi.ended id hid
  · refine nodup_append.2 ⟨hi.safe.once, nodup_singleton _, ?_⟩
    rintro a ha _ hb rfl
    exact hnew (mem_singleton.1 hb ▸ ha)
  · simpa only [World.exchange, if_neg hlive] using hi.safe.ended

end

end

section
variable {env : Env} {w w' : World} {i : Nat} {reply : Reply} {fresh : Except String Nat}

section

variable (hi : Inv w)
include hi

lemma inv_loginCreate {tokenID : Nat} (hc : w.calls[i]? = some (.loginCreate username tokenID))
    (h : advance env w i reply fresh (.loginCreate username tokenID) = some w') : Inv w' := by
  cases reply with
  | ok =>
    cases h
    refine (hi.create hc rfl username (.done _) rfl nofun trivial).issued ?_
    exact owned_create hi hc rfl username
  | failed applied =>
    cases applied with
    | true =>
      cases h
      exact hi.create hc rfl username (.done _) rfl nofun trivial
    | false =>
      cases h
      exact hi.fail hc _

lemma inv_refreshCheck (hc : w.calls[i]? = some (.refreshCheck token))
    (hok : OrderlyAt w reply (.refreshCheck token))
    (h : advance env w i reply fresh (.refreshCheck token) = some w') : Inv w' := by
  rw [advance] at h
  split at h
  · cases h
    exact hi.fail hc _
  split at h
  · cases h
    exact hi.fail hc _
  rename_i hrev
  have hissued : token ∈ w.issued := hi.knows i _ hc
  obtain ⟨r, hr, -⟩ := hi.handed token hissued
  have hlive : Live w.rows token.tokenID := ⟨r, hr, by simpa [isRefreshTokenRevoked, hr] using hrev⟩
  refine hi.draw hc (.refreshCreate token) (fun _ => rfl) ?_ (fun _ => ⟨hissued, hlive⟩) h
  intro id t j d u ht hj hd hdu htu
  cases ht
  have hother := hok d (mem_of_getElem? hd)
  simp [hdu, htu] at hother

lemma inv_refreshCreate {newTokenID : Nat}
    (hc : w.calls[i]? = some (.refreshCreate token newTokenID))
    (h : advance env w i reply fresh (.refreshCreate token newTokenID) = some w') : Inv w' := by
  obtain ⟨hissued, r, hr, hlive⟩ := hi.knows i _ hc
  cases reply with
  | ok =>
    cases h
    refine hi.create hc rfl token.username (.refreshRevoke token newTokenID) rfl (fun _ h => h)
      ⟨hissued, ⟨r, ?_, hlive⟩, ?_⟩
    · have hnone := (hi.pending i _ _ hc rfl).1
      change createRefreshToken w.rows newTokenID token.username token.tokenID = some r
      rw [create_of_none hnone, set_of_ne_none hnone (by simp [hr]), hr]
    · exact owned_create hi hc rfl token.username
  | failed applied =>
    cases applied with
    | true =>
      cases h
      exact hi.create hc rfl token.username (.done _) rfl nofun trivial
    | false =>
      cases h
      exact hi.fail hc _

lemma inv_refreshRevoke {newTokenID : Nat}
    (hc : w.calls[i]? = some (.refreshRevoke token newTokenID)) (hok : reply.applied = true)
    (h : advance env w i reply fresh (.refreshRevoke token newTokenID) = some w') : Inv w' := by
  obtain ⟨hissued, hlive, hown⟩ := hi.knows i _ hc
  simp only [advance, hok, if_true] at h
  cases h
  have hkeeps : Keeps w.rows (revokeRefreshToken w.rows token.tokenID) := keeps_mark _ _
  -- the row is revoked and the call ends
  have hput : Inv { w with
      rows := revokeRefreshToken w.rows token.tokenID
      calls := w.calls.set i (.done (.tokens ⟨token.username, newTokenID⟩)) } := by
    refine hi.put hc hkeeps ?_ (fun _ h => h) nofun nofun ?_ trivial
    · intro id hid
      refine .inl fun hnone => hid ?_
      simp [revokeRefreshToken, hnone]
    intro j d t hj hd ht hl
    refine revoke_other (fun heq => hj ?_) hl
    exact hi.alone j i d _ t token hd hc ht rfl heq
  have hrev : Revoked (revokeRefreshToken w.rows token.tokenID) token.tokenID :=
    revoke_self (hi.handed token hissued)
  have hexch := hput.exchanged newTokenID hrev (fun h => hlive.not_revoked (hi.spent _ h))
    fun h => hlive.not_revoked (hi.ended _ h)
  exact hexch.issued (hkeeps.owned hown)

lemma inv_changeRevoke (hc : w.calls[i]? = some (.changeRevoke username))
    (hok : OrderlyAt w reply (.changeRevoke username))
    (h : advance env w i reply fresh (.changeRevoke username) = some w') : Inv w' := by
  obtain ⟨happlied, hfree⟩ := hok
  simp only [advance, happlied, if_true] at h
  cases h
  have hkeeps : Keeps w.rows (revokeAllRefreshTokensForUser w.rows username) := keeps_mark _ _
  have hput : Inv { w with
      rows := revokeAllRefreshTokensForUser w.rows username
      calls := w.calls.set i (.done .changed) } := by
    refine hi.put hc hkeeps ?_ (fun _ h => h) nofun nofun ?_ trivial
    · intro id hid
      refine .inl fun hnone => hid ?_
      simp [revokeAllRefreshTokensForUser, hnone]
    intro j d t _ hd ht hl
    have hne : t.username ≠ username := by
      have := hfree d (mem_of_getElem? hd)
      simpa [ht] using this
    have hissued : t ∈ w.issued := by
      have hk := hi.knows j d hd
      cases d <;> simp only [Call.exchanging, Option.some.injEq, reduceCtorEq] at ht
      · exact ht ▸ hk.1
      · exact ht ▸ hk.1
    exact revokeAll_other hne (hi.handed t hissued) hl
  refine { hput with ended := fun id hid => ?_, safe := { hput.safe with } }
  obtain hid | hid := mem_append.1 hid
  · obtain ⟨t, ht, rfl⟩ := mem_map.1 hid
    obtain ⟨hti, htu⟩ := mem_filter.1 ht
    have hu : t.username = username := by simpa using htu
    exact revokeAll_self (hu ▸ hi.handed t hti)
  · exact hput.ended id hid

lemma inv_advance (hc : w.calls[i]? = some c) (hok : OrderlyAt w reply c)
    (h : advance env w i reply fresh c = some w') : Inv w' := by
  cases c with
  | loginRead username password =>
    rw [advance] at h
    split at h
    · exact hi.draw hc (.loginCreate username) (fun _ => rfl) nofun (fun _ => trivial) h
    · cases h
      exact hi.fail hc _
  | loginCreate username tokenID => exact inv_loginCreate hi hc h
  | refreshCheck token => exact inv_refreshCheck hi hc hok h
  | refreshCreate token newTokenID => exact inv_refreshCreate hi hc h
  | refreshRevoke token newTokenID => exact inv_refreshRevoke hi hc hok h
  | changeRead username oldPassword newPassword =>
    rw [advance] at h
    split at h
    · cases h
      exact hi.fail hc _
    split at h
    · cases h
      exact hi.fail hc _
    · cases h
      exact hi.quiet hc w.users ⟨rfl, rfl⟩ trivial
  | changeSet username newHash =>
    simp only [advance] at h
    split at h
    · cases h
      split
      · exact hi.quiet hc _ (idle_changeRevoke _) trivial
      · exact hi.quiet hc w.users (idle_changeRevoke _) trivial
    cases h
    split
    · exact hi.quiet hc _ (idle_done _) trivial
    · exact hi.fail hc _
  | changeRevoke username => exact inv_changeRevoke hi hc hok h
  | done r => cases h

end

lemma inv_step (w : World) (e : Event) (w' : World) (hi : Inv w) (hok : Orderly w e)
    (h : step env w e = some w') : Inv w' := by
  cases e with
  | login username password =>
    cases h
    split
    · exact hi.push (idle_done _) trivial
    · exact hi.push ⟨rfl, rfl⟩ trivial
  | refresh token expired =>
    rw [step] at h
    split at h <;> cases h
    rename_i ht
    cases expired
    · exact hi.push ⟨rfl, rfl⟩ ht
    · exact hi.push (idle_done _) trivial
  | refreshForged empty =>
    cases h
    exact hi.push (idle_done _) trivial
  | changePassword username oldPassword newPassword =>
    cases h
    split_ifs
    · exact hi.push (idle_done _) trivial
    · exact hi.push (idle_done _) trivial
    · exact hi.push (idle_done _) trivial
    · exact hi.push ⟨rfl, rfl⟩ trivial
  | go i reply fresh =>
    obtain ⟨c, hc, h⟩ := bind_eq_some_iff.1 h
    exact inv_advance hi hc (hok c hc) h

end

/-- **Refresh tokens are exchanged once and end with the password** in every orderly run. -/
theorem tokens_single_use (env : Env) (users : KMap Bytes Bytes) (es : List Event) (w : World)
    (hm : Meets (step env) Orderly (start users) es)
    (h : exec (step env) (start users) es = some w) : Safe w :=
  (exec_inv inv_step (inv_start users) hm h).safe

def demoEnv : Env where
  compareHashAndPassword stored candidate := stored == ascii "$2" ++ candidate
  hashPassword password := some (ascii "$2" ++ password)

/-- One user, with the password as it was configured. -/
def demoUsers : KMap Bytes Bytes := KMap.empty.set (ascii "admin") (ascii "secret")

/-- The first call is a login that gets token `0`. -/
def loggedIn : List Event :=
  [.login (ascii "admin") (ascii "secret"), .go 0 .ok (.ok 0), .go 0 .ok (.ok 0)]

/-- The refresh with `token` runs as call `i` and draws `new`; `reply` answers its end. -/
def refreshed (i token new : Nat) (reply : Reply) : List Event :=
  [.refresh ⟨ascii "admin", token⟩ false, .go i .ok (.ok new), .go i .ok (.ok new),
    .go i reply (.ok new)]

def changed (i : Nat) (reply : Reply) : List Event :=
  [.changePassword (ascii "admin") (ascii "secret") (ascii "sesame"), .go i .ok (.ok 0),
    .go i .ok (.ok 0), .go i reply (.ok 0)]

def World.facts (w : World) : List Nat × List Nat × List Nat := (w.exchanged, w.ended, w.misused)

/-- Token `0` is exchanged for `1`, the password is changed, and `1` is tried. -/
def orderlyRun : List Event :=
  loggedIn ++ refreshed 1 0 1 .ok ++ changed 2 .ok ++
    [.refresh ⟨ascii "admin", 1⟩ false, .go 3 .ok (.ok 2)]

theorem change_ends_refreshed_token :
    ∃ w, exec (step demoEnv) (start demoUsers) orderlyRun = some w ∧ w.exchanged = [0] ∧
      w.ended = [1, 0] ∧ Safe w := by
  have hm : Meets (step demoEnv) Orderly (start demoUsers) orderlyRun := by decide +kernel
  refine leads World.facts ([0], [1, 0], []) (by decide +kernel) fun w hw hf => ?_
  exact ⟨congrArg Prod.fst hf, congrArg (·.2.1) hf,
    tokens_single_use demoEnv demoUsers orderlyRun w hm hw⟩

/-- **A failed revocation is ignored**: a token is exchanged twice, or after a password change. -/
theorem failed_revocation_ignored : (∃ w, exec (step demoEnv) (start demoUsers)
        (loggedIn ++ refreshed 1 0 1 (.failed false) ++ refreshed 2 0 2 .ok) = some w ∧
      w.facts = ([0, 0], [], [])) ∧
    ∃ w, exec (step demoEnv) (start demoUsers)
        (loggedIn ++ changed 1 (.failed false) ++ refreshed 2 0 1 .ok) = some w ∧
      w.facts = ([0], [1, 0], [0]) := by
  constructor
  · apply map_eq_some_iff.1
    decide +kernel
  · apply map_eq_some_iff.1
    decide +kernel

/-- **Overlapping calls**, with no failure: two refreshes both find token `0` not revoked, and one
that has found it so outlives the password change. -/
theorem overlap_exchanges_twice : (∃ w, exec (step demoEnv) (start demoUsers)
        (loggedIn ++ [.refresh ⟨ascii "admin", 0⟩ false, .go 1 .ok (.ok 1)] ++
          refreshed 2 0 2 .ok ++ [.go 1 .ok (.ok 1), .go 1 .ok (.ok 1)]) = some w ∧
      w.facts = ([0, 0], [], [])) ∧
    ∃ w, exec (step demoEnv) (start demoUsers)
        (loggedIn ++ [.refresh ⟨ascii "admin", 0⟩ false, .go 1 .ok (.ok 1)] ++ changed 2 .ok ++
          [.go 1 .ok (.ok 1), .go 1 .ok (.ok 1)] ++ refreshed 3 1 2 .ok) = some w ∧
      w.facts = ([0, 1], [2, 1, 0], [0, 1]) := by
  constructor
  · apply map_eq_some_iff.1
    decide +kernel
  · apply map_eq_some_iff.1
    decide +kernel

end CubeSandbox.Auth
