import ThreadLink.Gateway.Roster

/-!
# The accounts of the sessions

An account is never removed. So the id a session has taken on when it was authenticated is
that of an account as long as the gateway runs, whatever the account is renamed to.

## What is proved

* `Known.step` — the id of a session that is authenticated is that of an account, whatever happens.
-/

namespace ThreadLink.Gateway

open Text Runs

namespace GatewayServer

variable {P : Cause → Prop} {s s' t u : GatewayServer} {e : Event} {c : Cause} {w x : WsId}

/-- Accounts are not removed. -/
theorem outcome_ids {a : Attempt} {account : UserRecord} {users : Users}
    (h : s.outcome a = some (account, users)) : s.store.users.ids ⊆ users.ids := by
  cases a with
  | register username password =>
    obtain ⟨users', hu, he⟩ := Option.map_eq_some_iff.mp h
    obtain ⟨-, rfl⟩ := Prod.mk.inj he
    rw [Users.ids, Users.ids, Users.rows_insert hu, List.map_append]
    exact List.subset_append_left ..
  | login id username ok =>
    obtain ⟨-, he⟩ := Option.ite_none_right_eq_some.mp h
    obtain ⟨-, rfl⟩ := Prod.mk.inj (Option.some.inj he)
    exact List.Subset.refl _

theorem Change.ids (h : Change s e t) : s.store.users.ids ⊆ t.store.users.ids := by
  cases h with
  | elsewhere _ ho => exact outcome_ids ho
  | joined _ ho => exact outcome_ids ho
  | wsClose =>
    rw [leave_eq]
    exact List.Subset.refl _
  | rename =>
    show _ ⊆ ((s.store.users.rename _ _).getD s.store.users).ids
    rw [Users.ids_rename]
    exact List.Subset.refl _
  | backendClose _ f => cases f <;> exact List.Subset.refl _
  | shutdown =>
    rw [close_eq]
    exact List.Subset.refl _
  | _ => exact List.Subset.refl _

/-- An attempt that waits has waited before, or it is that of a message: it is sound, and its
session is there and not authenticated. -/
theorem Change.hashing (h : Change s e t) : ∀ a ∈ t.hashing, a ∈ s.hashing ∨
    ∃ n v, e = .message a.1 n v ∧ a.2.Sound s.store.users ∧ s.live a.1 = true ∧
      (s.sessions a.1).authenticated = false := by
  intro a ha
  cases h with
  | suspend hl a' hauth hu =>
    rcases List.mem_append.mp ha with ha | ha
    · exact .inl ha
    · rw [List.mem_singleton.mp ha]
      exact .inr ⟨_, _, rfl, hu, hl, hauth⟩
  | refused => exact .inl (List.mem_of_mem_eraseIdx ha)
  | elsewhere => exact .inl (List.mem_of_mem_eraseIdx ha)
  | joined => exact .inl (List.mem_of_mem_eraseIdx ha)
  | wsClose =>
    rw [leave_eq] at ha
    exact .inl ha
  | backendClose _ f => cases f <;> exact .inl ha
  | shutdown =>
    rw [close_eq] at ha
    exact .inl ha
  | _ => exact .inl ha

/-! ### The ids of the sessions -/

/-- The sessions have accounts. -/
structure Known (s : GatewayServer) : Prop where
  /-- Only authenticated sessions join. -/
  joined : Joined s
  /-- The id of one is that of an account. -/
  session : ∀ w, (s.sessions w).authenticated = true → (s.sessions w).id ∈ s.store.users.ids
  /-- So is the one that a `login` waits for. -/
  login : ∀ a ∈ s.hashing, ∀ id username ok, a.2 = .login id username ok → id ∈ s.store.users.ids

theorem known_init (env : Env) (config : GatewayConfig) : Known (init env config) where
  joined := joined_init env config
  session _ h := by simp [init] at h
  login _ h := absurd h List.not_mem_nil

/-- The account that an attempt gives is one. -/
theorem Known.outcome (h : Known s) {i : ℕ} {a : Attempt} {account : UserRecord} {users : Users}
    (hi : s.hashing[i]? = some (w, a)) (ho : s.outcome a = some (account, users)) :
    account.id ∈ users.ids := by
  cases a with
  | register username password =>
    obtain ⟨users', hu, he⟩ := Option.map_eq_some_iff.mp ho
    obtain ⟨rfl, rfl⟩ := Prod.mk.inj he
    rw [Users.ids, Users.rows_insert hu, List.map_append]
    exact List.mem_append_right _ (List.mem_singleton_self _)
  | login id username ok =>
    obtain ⟨-, he⟩ := Option.ite_none_right_eq_some.mp ho
    obtain ⟨rfl, rfl⟩ := Prod.mk.inj (Option.some.inj he)
    exact h.login _ (List.mem_of_getElem? hi) _ _ _ rfl

theorem Known.change (h : Known s) (hc : Change s e t) : Known t := by
  have hids := hc.ids
  have hlogin : ∀ a ∈ t.hashing, ∀ id username ok, a.2 = .login id username ok →
      id ∈ t.store.users.ids := by
    intro a ha id username ok he
    rcases hc.hashing a ha with ha | ⟨_, _, -, ha, -⟩
    · exact hids (h.login a ha id username ok he)
    · rw [he] at ha
      exact hids (Users.mem_ids_of_usernameOf ha)
  refine ⟨h.joined.moves hc.moves, ?_, hlogin⟩
  intro w ha
  have hstays (hs : Stays s t) : (t.sessions w).id ∈ t.store.users.ids := by
    rw [(hs.sessions w).links.authenticated] at ha
    rw [(hs.sessions w).links.id]
    exact hids (h.session w ha)
  cases hc.moves with
  | arrives =>
    by_cases hw : w = s.nextWs
    · subst hw
      rw [sessions_onConnection_self] at ha
      cases ha
    · rw [sessions_onConnection_of_ne s hw] at ha ⊢
      exact h.session w ha
  | @joins i w' a account users hi ho =>
    by_cases hw : w = w'
    · subst hw
      rw [sessions_join_self]
      exact h.outcome hi ho
    · rw [sessions_join_of_ne _ hw] at ha ⊢
      exact hids (h.session w ha)
  | leaves hs => exact hstays hs
  | fails hs => exact hstays hs
  | stays hs => exact hstays hs

/-- A deed stores no accounts. -/
theorem Known.deeds (h : Known s) (hd : Deeds P s t) : Known t := by
  have hs := hd.same
  refine ⟨h.joined.deeds hd, ?_, ?_⟩
  · intro w ha
    obtain ⟨p, q, hw⟩ := hs.sessions w
    rw [hw] at ha ⊢
    rw [hs.users]
    exact h.session w ha
  · intro a ha
    rw [hs.users]
    rw [hs.hashing] at ha
    exact h.login a ha

theorem Known.step (h : Known s) (hs : s.step e = some s') : Known s' := by
  obtain ⟨t, hc, hd⟩ := step_deeds hs
  exact (h.change hc).deeds hd

end GatewayServer

end ThreadLink.Gateway
