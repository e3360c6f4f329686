import ThreadLink.Gateway.Queue

/-!
# Before a session is authenticated

Until a `register` or a `login` has succeeded, a session is not to be seen and sees
nothing. This module has the authentication gate as an invariant of the gateway.

## What is proved

* `Joined.authenticated_step` — a session that is authenticated stays so.
* `Joined.sends` — what is not an error is sent to authenticated sessions only.
* `nothing_before_authentication` — a session that is not authenticated has been sent errors
  only, has no backend connection and no entry in the roster, changes no row but for an
  account it registers, and has its other messages wait in order.
-/

namespace ThreadLink.Gateway

open Text Runs

/-- Whether an event is an error. -/
def ServerMessage.isError : ServerMessage → Bool
  | .error _ _ _ => true
  | _ => false

namespace GatewayServer

variable {P : Cause → Prop} {past : List (GatewayServer × Event)} {s s' t u : GatewayServer}
  {e : Event} {c : Cause}
  {w x : WsId} {b : BackendId}

/-! ### Authenticated sessions -/

/-- A session that is authenticated stays so. -/
theorem Joined.authenticated_moves (h : Joined s) (hm : Moves s e t)
    (ha : (s.sessions x).authenticated = true) : (t.sessions x).authenticated = true := by
  cases hm with
  | arrives =>
    rw [sessions_onConnection_of_ne s (Nat.ne_of_lt (h.lt_nextWs ha))]
    exact ha
  | @joins i w a account users =>
    by_cases hx : x = w
    · subst hx
      rw [sessions_join_self]
      rfl
    · rw [sessions_join_of_ne _ hx]
      exact ha
  | leaves hs => rw [(hs.sessions x).links.authenticated, ha]
  | fails hs => rw [(hs.sessions x).links.authenticated, ha]
  | stays hs => rw [(hs.sessions x).links.authenticated, ha]

theorem Deeds.authenticated (h : Deeds P s t) (x : WsId) :
    (t.sessions x).authenticated = (s.sessions x).authenticated := by
  obtain ⟨p, q, hx⟩ := h.same.sessions x
  rw [hx]

theorem Joined.authenticated_step (h : Joined s) (hs : s.step e = some s')
    (ha : (s.sessions x).authenticated = true) : (s'.sessions x).authenticated = true := by
  obtain ⟨t, hc, hd⟩ := step_deeds hs
  rw [hd.authenticated]
  exact h.authenticated_moves hc.moves ha

/-! ### What is sent -/

/-- Events are sent to sessions in the roster, or to the session that is acted for, of which
no message has to wait. -/
theorem Told.listed {m : Sent} (h : Told s c x m) :
    (∃ id, s.roster.find? id = some x) ∨ c.Acts x ∧ ∀ m, c ≠ .wait x m := by
  have hreached (hx : s.Reached x) : ∃ id, s.roster.find? id = some x := OrdMap.mem_values.mp hx.1
  cases h with
  | ready hc => rcases hc with rfl | rfl <;> exact .inr ⟨rfl, nofun⟩
  | announced hx => exact .inl (hreached hx)
  | renamed hx => exact .inl (hreached hx)
  | presence hx => exact .inl (hreached hx)
  | offline hx => exact .inl (hreached hx)
  | opened hp _ hx =>
    rcases hx with rfl | rfl
    · exact .inr ⟨rfl, nofun⟩
    · exact .inl ⟨_, (Option.filter_eq_some_iff.mp hp).1⟩
  | created _ _ _ _ hx => exact .inl ⟨_, hx⟩
  | group _ _ _ _ _ hx => exact .inl ⟨_, hx⟩
  | echo => exact .inr ⟨rfl, nofun⟩
  | relayed => exact .inr ⟨rfl, nofun⟩
  | priv => exact .inr ⟨rfl, nofun⟩
  | privSent => exact .inr ⟨rfl, nofun⟩

/-- A session that is acted for is authenticated, but if a message has to wait. -/
theorem Causes.authenticated (h : s.Causes e c) (hj : Joined s) (hs : s.step e = some s')
    (hx : c.Acts x) (hw : ∀ m, c ≠ .wait x m) : (s.sessions x).authenticated = true := by
  cases e with
  | message w n v =>
    rcases h with rfl | ⟨m, -, rfl | ⟨-, rfl⟩⟩
    · exact hx.elim
    · exact hx.elim
    · cases hi : s.immediate w with
      | false =>
        rw [hi] at hx hw
        obtain rfl : x = w := hx
        exact absurd rfl (hw m)
      | true =>
        rw [hi] at hx
        obtain rfl : x = w := hx
        exact (Bool.and_eq_true_iff.mp hi).1
  | backendFrame b p =>
    obtain rfl : x = (s.backends b).owner := h.acts x hx
    obtain ⟨-, hs⟩ := Option.ite_none_left_eq_some.mp hs
    obtain ⟨⟨hb, -⟩, -⟩ := Option.ite_none_right_eq_some.mp hs
    exact hj.owner_of_opened hb
  | _ => exact (h.acts x hx).elim

/-- **What is not an error** is sent to authenticated sessions only. -/
theorem Joined.sends {m : Sent} (hj : Joined s) (hs : s.step e = some s') (hc : Change s e t)
    (hd : Deeds (s.Causes e) t u) (h : s.Causes e c) (hm : Sends u c x m) :
    m.message.isError = true ∨ (u.sessions x).authenticated = true := by
  have hju := (hj.moves hc.moves).deeds hd
  cases hm with
  | error => exact .inl rfl
  | loggedOut ha => exact .inr ha
  | told _ ht =>
    refine .inr ?_
    rcases ht.listed with ⟨id, hx⟩ | ⟨hx, hw⟩
    · exact hju.roster id x hx
    · rw [hd.authenticated]
      exact hj.authenticated_moves hc.moves (h.authenticated hj hs hx hw)

/-! ### What is stored -/

/-- An answer, or a message that has to wait, stores nothing. -/
theorem Deeds.store (h : Deeds P s t) (hP : ∀ c, P c → c = .answer ∨ ∃ w m, c = .wait w m) :
    t.store = s.store := by
  induction h with
  | refl => rfl
  | @tail t u _ hd ih =>
    obtain ⟨c, hc, hd⟩ := hd
    rw [← ih]
    have hm (w : WsId) (m : ClientMessage) : c ≠ .message w m := by
      rintro rfl
      rcases hP _ hc with h | ⟨_, _, h⟩ <;> cases h
    cases hd with
    | append => exact absurd rfl (hm _ _)
    | createGroup => exact absurd rfl (hm _ _)
    | ensureDirect ho => cases ho <;> rcases hP _ hc with h | ⟨_, _, h⟩ <;> cases h
    | nick => rw [sendLine_eq]
    | chat => exact absurd rfl (hm _ _)
    | direct => exact absurd rfl (hm _ _)
    | _ => rfl

/-- A message of a session that is not authenticated stores nothing. -/
theorem step_message_store {n : ℕ} {v : Option Json} (hs : s.step (.message w n v) = some s')
    (ha : (s.sessions w).authenticated = false) : s'.store = s.store := by
  obtain ⟨t, hc, hd⟩ := step_deeds hs
  have hi : s.immediate w = false := by rw [immediate, ha, Bool.false_and]
  rw [hd.store]
  · cases hc <;> rfl
  · rintro c (rfl | ⟨m, -, rfl | ⟨-, rfl⟩⟩)
    · exact .inl rfl
    · exact .inl rfl
    · rw [hi]
      exact .inr ⟨w, m, rfl⟩

/-- An attempt that completes stores nothing but an account that has been registered. -/
theorem step_authDone_store {i : ℕ} {a : Attempt} (hi : s.hashing[i]? = some (w, a))
    (hs : s.step (.authDone i) = some s') :
    s'.store = s.store ∨
    ∃ username password users, a = .register username password ∧
      s.store.users.insert ⟨s.env.uuid s.draws, username, password, s.env.now s.draws⟩ =
        some users ∧
      s'.store = { s.store with users := users } := by
  obtain ⟨t, hc, hd⟩ := step_deeds hs
  rw [hd.store fun c hc => .inl hc]
  have ho {w' : WsId} {a' : Attempt} {account : UserRecord} {users : Users}
    (h : s.hashing[i]? = some (w', a'))
      (ho : s.outcome a' = some (account, users)) : { s.store with users := users } = s.store ∨
      ∃ username password users', a = .register username password ∧
        s.store.users.insert ⟨s.env.uuid s.draws, username, password, s.env.now s.draws⟩ =
          some users' ∧
        ({ s.store with users := users } : Store) = { s.store with users := users' } := by
    obtain ⟨rfl, rfl⟩ := Prod.mk.inj (Option.some.inj (hi.symm.trans h))
    cases a with
    | register username password =>
      obtain ⟨users', hu, he⟩ := Option.map_eq_some_iff.mp ho
      obtain ⟨-, rfl⟩ := Prod.mk.inj he
      exact .inr ⟨username, password, users', rfl, hu, rfl⟩
    | login id username ok =>
      obtain ⟨-, he⟩ := Option.ite_none_right_eq_some.mp ho
      obtain ⟨-, rfl⟩ := Prod.mk.inj (Option.some.inj he)
      exact .inl rfl
  cases hc with
  | refused => exact .inl rfl
  | elsewhere h hou => exact ho h hou
  | joined h hou => exact ho h hou

/-! ### The gate -/

/-- What holds of the sessions that are not authenticated. -/
structure Gated (past : List (GatewayServer × Event)) (s : GatewayServer) : Prop where
  /-- Nothing has come from a session that has not arrived. -/
  fresh : Fresh past s
  /-- Only errors have been sent. -/
  sent : ∀ w, (s.sessions w).authenticated = false → ∀ m ∈ s.sent w, m.message.isError = true
  /-- The messages wait in order, and none has taken effect. -/
  queue : ∀ w, (s.sessions w).authenticated = false →
    (s.sessions w).pending = received past w ∧ effective past w = []

theorem gated_init (env : Env) (config : GatewayConfig) : Gated [] (init env config) where
  fresh := fresh_init env config
  sent _ _ _ h := absurd h List.not_mem_nil
  queue _ _ := ⟨rfl, rfl⟩

theorem Gated.step (h : Gated past s) (hs : s.step e = some s') : Gated (past ++ [(s, e)]) s' := by
  have hj := h.fresh.joined
  have hback {w : WsId} (ha : (s'.sessions w).authenticated = false) :
      (s.sessions w).authenticated = false := by
    rw [← Bool.not_eq_true] at ha ⊢
    exact fun h => ha (hj.authenticated_step hs h)
  refine ⟨h.fresh.step hs, ?_, ?_⟩
  · intro w ha m hm
    obtain ⟨t, hc, hd, hsent⟩ := step_sent hs
    obtain ⟨extra, he, hq⟩ := hsent w
    rw [he] at hm
    rcases List.mem_append.mp hm with hm | hm
    · exact h.sent w (hback ha) m hm
    · obtain ⟨u, c, hu, hcc, hm, -⟩ := hq m hm
      apply (hj.sends hs hc hu hcc hm).resolve_right
      intro hau
      rw [hu.authenticated, ← hd.authenticated, ha] at hau
      cases hau
  · intro w ha
    have hn : s.announced e ≠ some w := fun hn => by
      have := hj.authenticated_of_announced hs hn
      rw [hback ha] at this
      cases this
    have hi : s.immediate w = false := by rw [immediate, hback ha, Bool.false_and]
    rw [received_append, effective_append, handles, if_neg hn, hi]
    by_cases hnew : e = .connection ∧ w = s.nextWs
    · obtain ⟨rfl, rfl⟩ := hnew
      obtain ⟨-, hs⟩ := Option.ite_none_left_eq_some.mp hs
      obtain ⟨-, hs⟩ := Option.ite_none_left_eq_some.mp hs
      rw [← Option.some.inj hs, sessions_onConnection_self, h.fresh.received _ le_rfl,
        h.fresh.effective _ le_rfl]
      exact ⟨rfl, rfl⟩
    · obtain ⟨hp, he⟩ := h.queue w (hback ha)
      rw [step_pending hs fun he hw => hnew ⟨he, hw⟩, if_neg hn, hi, hp, he]
      exact ⟨rfl, rfl⟩

theorem gated_of_path {C : GatewayServer → Event → Prop} {env : Env} {config : GatewayConfig}
    (h : PathIn step C (init env config) past s) : Gated past s :=
  h.invariant (gated_init env config) fun _ _ _ _ hg _ hs => hg.step hs

/-- **Nothing before authentication**: as long as a session is not authenticated it has been
sent errors only, no backend connection is made for it and it is not in the roster; its
frames change no row but for the account that a `register` of it inserts; and its other
messages that are valid wait in order, none of which has taken effect. -/
theorem nothing_before_authentication {env : Env} {config : GatewayConfig}
    (h : Path step (init env config) past s) (w : WsId)
    (ha : (s.sessions w).authenticated = false) :
    (∀ m ∈ s.sent w, m.message.isError = true) ∧
    (s.sessions w).backend = none ∧ (∀ b < s.nextBackend, (s.backends b).owner ≠ w) ∧
    (∀ id, s.roster.find? id ≠ some w) ∧
    (∀ n v s', s.step (.message w n v) = some s' → s'.store = s.store) ∧
    (∀ i a s', s.hashing[i]? = some (w, a) → s.step (.authDone i) = some s' →
      s'.store = s.store ∨
      ∃ username password users, a = .register username password ∧
        s.store.users.insert ⟨s.env.uuid s.draws, username, password, s.env.now s.draws⟩ =
          some users ∧
        s'.store = { s.store with users := users }) ∧
    (s.sessions w).pending = received past w ∧ effective past w = [] := by
  have hg := gated_of_path h
  have hj := hg.fresh.joined
  refine ⟨hg.sent w ha, ?_, ?_, ?_, fun n v s' hs => step_message_store hs ha,
    fun i a s' hi hs => step_authDone_store hi hs, hg.queue w ha⟩
  · by_contra hb
    rw [hj.backend w hb] at ha
    cases ha
  · intro b hb ho
    rw [← ho, hj.owner b hb] at ha
    cases ha
  · intro id hid
    rw [hj.roster id w hid] at ha
    cases ha

/-- A presence is set before the session is authenticated. -/
def presenceFirst : List Event :=
  [.connection, .message 0 70 (some (presenceMessage "away")), .message 0 3 none]

set_option maxRecDepth 8000 in
theorem presence_waits :
    ∃ past s, Path step (init .sample {}) past s ∧ received past 0 = [.setPresence .away] ∧
      (s.sessions 0).pending = [.setPresence .away] ∧ effective past 0 = [] := by
  have h : (execAllIn step (fun _ _ => True) (init .sample {}) presenceFirst).map (fun s =>
      (s.sessions 0).authenticated) = some false := by decide
  obtain ⟨s, hs, ha⟩ := exists_pathIn_of_execAllIn h
  have hr : received (trace step (init .sample {}) presenceFirst) 0 = [.setPresence .away] := by
    decide
  obtain ⟨-, -, -, -, -, -, hp, he⟩ := nothing_before_authentication hs 0 ha
  exact ⟨_, s, hs, hr, hp.trans hr, he⟩

end GatewayServer

end ThreadLink.Gateway
