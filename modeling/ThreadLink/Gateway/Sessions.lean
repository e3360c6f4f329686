import ThreadLink.Gateway.Handlers

/-!
# Sessions, the roster and the backend connections

`handleAuth` looks at `authenticated` before it waits for the password hash and does not
look again afterwards. So a session may join the roster twice. This module has what
holds of the sessions, the roster and the backend connections in the runs in which that
does not happen.

## What is proved

* `one_connection_per_session` — if a session only ever joins once, every session in the
  roster is there under its own id, and has one backend connection.
-/

namespace ThreadLink.Gateway

open Text Runs

namespace GatewayServer

variable {s s' t : GatewayServer} {e : Event} {w x : WsId} {b c : BackendId}

/-! ### Joining -/

/-- The session that an event lets join the roster. -/
def joins (s : GatewayServer) : Event → Option WsId
  | .authDone i =>
    match s.hashing[i]? with
    | none => none
    | some (w, a) =>
      match s.outcome a with
      | none => none
      | some (account, _) => if s.connectedElsewhere account.id then none else some w
  | _ => none

/-- **The condition**: no session joins that has joined before. -/
def JoinsOnce (s : GatewayServer) (e : Event) : Prop :=
  ∀ w ∈ s.joins e, (s.sessions w).authenticated = false

instance (s : GatewayServer) (e : Event) : Decidable (JoinsOnce s e) :=
  inferInstanceAs (Decidable (∀ w ∈ s.joins e, _))

theorem mem_joins {i : ℕ} {a : Attempt} {account : UserRecord} {users : Users}
    (h : s.hashing[i]? = some (w, a)) (ho : s.outcome a = some (account, users))
    (hc : s.connectedElsewhere account.id = false) : w ∈ s.joins (.authDone i) := by
  simp [joins, h, ho, hc]

/-- Sessions join when a hash is there. -/
theorem exists_authDone (h : s.joins e = some w) : ∃ i, e = .authDone i := by
  cases e with
  | authDone i => exact ⟨i, rfl⟩
  | _ => cases h

/-! ### How sessions, roster and backend connections hang together -/

/-- The roster and the backend connections belong to the sessions. -/
structure Wired (s : GatewayServer) : Prop where
  /-- A session that has not arrived is none. -/
  unborn : ∀ w, s.nextWs ≤ w → (s.sessions w).ws = .unborn ∧ (s.sessions w).authenticated = false
  /-- Only sessions that have arrived wait for a hash. -/
  hashing : ∀ a ∈ s.hashing, a.1 < s.nextWs
  /-- A session is in the roster under its id. -/
  roster : ∀ id w, s.roster.find? id = some w → (s.sessions w).id = id ∧
    (s.sessions w).authenticated = true
  /-- A backend connection is the one of its owner. -/
  backend : ∀ w b, (s.sessions w).backend = some b ↔ b < s.nextBackend ∧ (s.backends b).owner = w
  /-- Who is authenticated has one. -/
  authenticated : ∀ w, (s.sessions w).authenticated = (s.sessions w).backend.isSome
  /-- A backend connection that has not been created has no socket. -/
  uncreated : ∀ b, s.nextBackend ≤ b → (s.backends b).socket = .unborn
  /-- A backend connection that has been closed has ended. -/
  flag : ∀ b, (s.backends b).closed = true → (s.backends b).socket = .ended

theorem Wired.lt_nextWs (h : Wired s) (hw : (s.sessions w).ws ≠ .unborn) : w < s.nextWs :=
  Nat.lt_of_not_le fun hle => hw (h.unborn w hle).1

theorem Wired.lt_of_live (h : Wired s) (hw : s.live w) : w < s.nextWs :=
  h.lt_nextWs fun hu => by simp [live, hu] at hw

theorem Wired.lt_nextBackend (h : Wired s) (hb : (s.backends b).socket ≠ .unborn) :
    b < s.nextBackend :=
  Nat.lt_of_not_le fun hle => hb (h.uncreated b hle)

/-- The owner of a backend connection has no other. -/
theorem Wired.backend_owner (h : Wired s) (hb : (s.backends b).socket ≠ .unborn) :
    (s.sessions (s.backends b).owner).backend = some b :=
  (h.backend _ b).mpr ⟨h.lt_nextBackend hb, rfl⟩

theorem wired_init (env : Env) (config : GatewayConfig) : Wired (init env config) where
  unborn _ _ := ⟨rfl, rfl⟩
  hashing _ h := absurd h List.not_mem_nil
  roster _ _ h := by simp [init] at h
  backend w b := by simp [init]
  authenticated _ := rfl
  uncreated _ _ := rfl
  flag _ h := by simp [init] at h

theorem Wired.same (h : Wired s) (hs : Same s t) : Wired t := by
  have hl (w : WsId) : (t.sessions w).ws = (s.sessions w).ws ∧
    (t.sessions w).id = (s.sessions w).id ∧
      (t.sessions w).authenticated = (s.sessions w).authenticated ∧
      (t.sessions w).backend = (s.sessions w).backend := by
    obtain ⟨p, q, hw⟩ := hs.sessions w
    rw [hw]
    exact ⟨rfl, rfl, rfl, rfl⟩
  constructor
  · intro w hw
    rw [(hl w).1, (hl w).2.2.1]
    exact h.unborn w (hs.nextWs ▸ hw)
  · rw [hs.hashing, hs.nextWs]; exact h.hashing
  · intro id w hw
    rw [(hl w).2.1, (hl w).2.2.1]
    exact h.roster id w (hs.roster ▸ hw)
  · intro w b
    rw [(hl w).2.2.2, hs.nextBackend, hs.backends]
    exact h.backend w b
  · intro w
    rw [(hl w).2.2.1, (hl w).2.2.2]
    exact h.authenticated w
  · rw [hs.nextBackend, hs.backends]; exact h.uncreated
  · rw [hs.backends]; exact h.flag

/-- A change of a session that leaves alone what it is linked to. -/
structure Session.SameLinks (y z : Session) : Prop where
  /-- The id. -/
  id : z.id = y.id
  /-- Whether it is authenticated. -/
  authenticated : z.authenticated = y.authenticated
  /-- The backend connection. -/
  backend : z.backend = y.backend
  /-- A WebSocket that has not arrived does not. -/
  unborn : y.ws = .unborn → z.ws = .unborn

theorem Wired.modifySession (h : Wired s) {f : Session → Session}
    (hf : Session.SameLinks (s.sessions w) (f (s.sessions w))) : Wired (s.modifySession w f) := by
  have hl (x : WsId) : Session.SameLinks (s.sessions x) ((s.modifySession w f).sessions x) := by
    by_cases hx : x = w
    · subst hx; rw [sessions_modifySession_self]; exact hf
    · rw [sessions_modifySession_of_ne s hx]; exact ⟨rfl, rfl, rfl, id⟩
  constructor
  · intro x hx
    obtain ⟨h1, h2⟩ := h.unborn x hx
    exact ⟨(hl x).unborn h1, (hl x).authenticated.trans h2⟩
  · exact h.hashing
  · intro id x hx
    obtain ⟨h1, h2⟩ := h.roster id x hx
    exact ⟨(hl x).id.trans h1, (hl x).authenticated.trans h2⟩
  · intro x b
    rw [(hl x).backend]
    exact h.backend x b
  · intro x
    rw [(hl x).authenticated, (hl x).backend]
    exact h.authenticated x
  · exact h.uncreated
  · exact h.flag

theorem Wired.closeWs (h : Wired s) (w : WsId) : Wired (s.closeWs w) := by
  apply h.modifySession
  split
  · rename_i ho
    exact ⟨rfl, rfl, rfl, fun hu => by simp [ho] at hu⟩
  · exact ⟨rfl, rfl, rfl, id⟩

theorem Wired.modifyBackend (h : Wired s) {f : BackendConnection → BackendConnection}
    (hb : b < s.nextBackend) (hf : (f (s.backends b)).owner = (s.backends b).owner)
    (hc : (f (s.backends b)).closed = true → (f (s.backends b)).socket = .ended) :
    Wired (s.modifyBackend b f) := by
  refine ⟨h.unborn, h.hashing, h.roster, ?_, h.authenticated, ?_, ?_⟩
  · intro x c
    have ho : ((s.modifyBackend b f).backends c).owner = (s.backends c).owner := by
      by_cases hc : c = b
      · subst hc; rw [backends_modifyBackend_self]; exact hf
      · rw [backends_modifyBackend_of_ne s hc]
    rw [ho]
    exact h.backend x c
  · intro c hc
    rw [backends_modifyBackend_of_ne s (by rintro rfl; exact absurd hb (Nat.not_lt.mpr hc))]
    exact h.uncreated c hc
  · intro c hcl
    by_cases hcb : c = b
    · subst hcb
      rw [backends_modifyBackend_self] at hcl ⊢
      exact hc hcl
    · rw [backends_modifyBackend_of_ne s hcb] at hcl ⊢
      exact h.flag c hcl

theorem owner_close (connection : BackendConnection) :
    connection.close.owner = connection.owner := by
  unfold BackendConnection.close
  split <;> rfl

/-- A connection that has been closed has ended. -/
theorem Wired.ended_close (h : Wired s) (b : BackendId) : (s.backends b).close.socket = .ended := by
  unfold BackendConnection.close
  split
  · rename_i hc
    exact h.flag b hc
  · rfl

theorem Wired.closeConnection (h : Wired s) (hb : b < s.nextBackend) :
    Wired (s.modifyBackend b .close) :=
  h.modifyBackend hb (owner_close _) fun _ => h.ended_close b

theorem Wired.closeBackend (h : Wired s) (w : WsId) : Wired (s.closeBackend w) := by
  unfold GatewayServer.closeBackend
  split
  · exact h
  · rename_i b hb
    exact h.closeConnection ((h.backend w b).mp hb).1

theorem Wired.remove (h : Wired s) (id : Units) : Wired (s.remove id) where
  unborn := h.unborn
  hashing := h.hashing
  roster id' w hw := by
    rw [GatewayServer.remove, OrdMap.find?_erase] at hw
    split at hw
    · cases hw
    · exact h.roster id' w hw
  backend := h.backend
  authenticated := h.authenticated
  uncreated := h.uncreated
  flag := h.flag

theorem Wired.leave (h : Wired s) (w : WsId) : Wired (s.leave w) := by
  have hm : Wired (s.modifySession w fun session => { session with closed := true }) :=
    h.modifySession ⟨rfl, rfl, rfl, id⟩
  unfold GatewayServer.leave
  dsimp only
  split
  · exact hm
  · exact (hm.closeBackend w).remove _

theorem Wired.wake (h : Wired s) (i : ℕ) : Wired (s.wake i) :=
  ⟨h.unborn, fun a ha => h.hashing a (List.mem_of_mem_eraseIdx ha), h.roster, h.backend,
    h.authenticated, h.uncreated,
    h.flag⟩

theorem Wired.suspend (h : Wired s) (hw : w < s.nextWs) (a : Attempt) :
    Wired { s with hashing := s.hashing ++ [(w, a)] } := by
  refine ⟨h.unborn, ?_, h.roster, h.backend, h.authenticated, h.uncreated, h.flag⟩
  intro a ha
  rcases List.mem_append.mp ha with ha | ha
  · exact h.hashing a ha
  · rw [List.mem_singleton.mp ha]
    exact hw

theorem Wired.raise (h : Wired s) (fault : Fault) : Wired (s.raise fault) :=
  ⟨h.unborn, h.hashing, h.roster, h.backend, h.authenticated, h.uncreated, h.flag⟩

theorem Wired.setUsers (h : Wired s) (users : Users) : Wired (s.setUsers users) :=
  ⟨h.unborn, h.hashing, h.roster, h.backend, h.authenticated, h.uncreated, h.flag⟩

theorem sessions_onConnection_self (s : GatewayServer) :
    s.onConnection.sessions s.nextWs =
    { id := units "pending:" ++ s.env.uuid s.draws, ws := .opened } :=
  Function.update_self ..

theorem sessions_onConnection_of_ne (s : GatewayServer) (h : x ≠ s.nextWs) :
    s.onConnection.sessions x = s.sessions x :=
  Function.update_of_ne h ..

theorem Wired.onConnection (h : Wired s) : Wired s.onConnection := by
  have hn := h.unborn s.nextWs le_rfl
  have hb : (s.sessions s.nextWs).backend = none := by
    have := h.authenticated s.nextWs
    rwa [hn.2, eq_comm, Option.isSome_eq_false_iff, Option.isNone_iff_eq_none] at this
  have hl (x : WsId) : (s.onConnection.sessions x).authenticated = (s.sessions x).authenticated ∧
      (s.onConnection.sessions x).backend = (s.sessions x).backend ∧
      (x ≠ s.nextWs → s.onConnection.sessions x = s.sessions x) := by
    by_cases hx : x = s.nextWs
    · subst hx
      rw [sessions_onConnection_self]
      exact ⟨hn.2.symm, hb.symm, fun hx => absurd rfl hx⟩
    · rw [sessions_onConnection_of_ne s hx]
      exact ⟨rfl, rfl, fun _ => rfl⟩
  constructor
  · intro x hx
    have hx' : s.nextWs < x := hx
    rw [(hl x).2.2 hx'.ne']
    exact h.unborn x hx'.le
  · exact fun a ha => Nat.lt_succ_of_lt (h.hashing a ha)
  · intro id x hx
    obtain ⟨h1, h2⟩ := h.roster id x hx
    have hne : x ≠ s.nextWs := by rintro rfl; simp [hn.2] at h2
    rw [(hl x).2.2 hne]
    exact ⟨h1, h2⟩
  · intro x b
    rw [(hl x).2.1]
    exact h.backend x b
  · intro x
    rw [(hl x).1, (hl x).2.1]
    exact h.authenticated x
  · exact h.uncreated
  · exact h.flag

/-- A session that has joined. -/
def Session.joined (session : Session) (account : UserRecord) (b : BackendId) : Session :=
  { session with
    id := account.id
    authenticated := true
    desiredUsername := some account.username
    backend := some b }

theorem sessions_join_self (s : GatewayServer) (w : WsId) (account : UserRecord) :
    (s.join w account).sessions w = Session.joined (s.sessions w) account s.nextBackend := by
  simp [GatewayServer.join, add, createBackendConnection, modifySession, Session.joined]

theorem sessions_join_of_ne (s : GatewayServer) (h : x ≠ w) (account : UserRecord) :
    (s.join w account).sessions x = s.sessions x := by
  simp [GatewayServer.join, add, createBackendConnection, modifySession, h]

theorem Wired.join (h : Wired s) (hw : w < s.nextWs) (ha : (s.sessions w).authenticated = false)
    (account : UserRecord) : Wired (s.join w account) := by
  have hn : (s.sessions w).backend = none := by
    have := h.authenticated w
    rwa [ha, eq_comm, Option.isSome_eq_false_iff, Option.isNone_iff_eq_none] at this
  have hself := sessions_join_self s w account
  have hother {x : WsId} (hx : x ≠ w) := sessions_join_of_ne s hx account
  constructor
  · intro x hx
    have hne : x ≠ w := by rintro rfl; exact absurd hw (Nat.not_lt.mpr hx)
    rw [hother hne]
    exact h.unborn x hx
  · exact h.hashing
  · intro id x hx
    have hx : (s.roster.insert account.id w).find? id = some x := hx
    rw [OrdMap.find?_insert] at hx
    split at hx
    · rename_i hid
      cases hx
      rw [hself]
      exact ⟨hid.symm, rfl⟩
    · obtain ⟨h1, h2⟩ := h.roster id x hx
      have hne : x ≠ w := by rintro rfl; simp [ha] at h2
      rw [hother hne]
      exact ⟨h1, h2⟩
  · intro x b
    show _ ↔ b < s.nextBackend + 1 ∧
      ((Function.update s.backends s.nextBackend ⟨w, .connecting, false⟩) b).owner = x
    by_cases hb : b = s.nextBackend
    · subst hb
      rw [Function.update_self]
      by_cases hx : x = w
      · subst hx
        rw [hself]
        exact ⟨fun _ => ⟨Nat.lt_succ_self _, rfl⟩, fun _ => rfl⟩
      · rw [hother hx, h.backend]
        constructor
        · intro hlt; exact absurd hlt.1 (Nat.lt_irrefl _)
        · intro hlt; exact absurd hlt.2.symm hx
    · rw [Function.update_of_ne hb]
      by_cases hx : x = w
      · subst hx
        rw [hself]
        constructor
        · intro hb'
          exact absurd (Option.some.inj hb').symm hb
        · rintro ⟨hlt, ho⟩
          have hno := (h.backend x b).mpr ⟨Nat.lt_of_le_of_ne (Nat.le_of_lt_succ hlt) hb, ho⟩
          rw [hn] at hno
          cases hno
      · rw [hother hx, h.backend]
        constructor
        · rintro ⟨hlt, ho⟩
          exact ⟨Nat.lt_succ_of_lt hlt, ho⟩
        · rintro ⟨hlt, ho⟩
          exact ⟨Nat.lt_of_le_of_ne (Nat.le_of_lt_succ hlt) hb, ho⟩
  · intro x
    by_cases hx : x = w
    · subst hx; rw [hself]; rfl
    · rw [hother hx]; exact h.authenticated x
  · intro b hb
    have hb : s.nextBackend < b := hb
    rw [show (s.join w account).backends b = _ from Function.update_of_ne hb.ne' ..]
    exact h.uncreated b hb.le
  · intro b hb
    by_cases hbn : b = s.nextBackend
    · subst hbn
      rw [show (s.join w account).backends s.nextBackend = _ from Function.update_self ..] at hb
      cases hb
    · rw [show (s.join w account).backends b = _ from Function.update_of_ne hbn ..] at hb ⊢
      exact h.flag b hb

theorem Wired.close (h : Wired s) : Wired s.close := by
  obtain ⟨t, ht, hc⟩ := close_rule h fun t w ht => (ht.closeBackend w).closeWs w
  rw [hc]
  exact ⟨ht.unborn, ht.hashing, ht.roster, ht.backend, ht.authenticated, ht.uncreated, ht.flag⟩

theorem Wired.connected (h : Wired s) (hb : (s.backends b).socket = .connecting) :
    Wired (s.modifyBackend b fun connection => { connection with socket := .opened }) := by
  refine h.modifyBackend (h.lt_nextBackend (by rw [hb]; exact nofun)) rfl ?_
  intro hc
  have he := h.flag b hc
  rw [hb] at he
  cases he

theorem Wired.step (h : Wired s) (hf : JoinsOnce s e) (hs : s.step e = some s') : Wired s' := by
  obtain ⟨t, hc, hq⟩ := step_change hs
  refine Wired.same ?_ hq.same
  cases hc with
  | connection => exact h.onConnection
  | message => exact h
  | raised => exact h.raise _
  | suspend hl => exact h.suspend (h.lt_of_live hl) _
  | logout => exact h.closeWs _
  | wsClosing => exact h.closeWs _
  | wsClose hl =>
    refine (h.modifySession ⟨rfl, rfl, rfl, ?_⟩).leave _
    intro hu
    simp [live, hu] at hl
  | wsCloseAgain hl =>
    refine h.modifySession ⟨rfl, rfl, rfl, ?_⟩
    intro hu
    simp [live, hu] at hl
  | refused => exact h.wake _
  | elsewhere => exact (h.wake _).setUsers _
  | joined hi ho hc =>
    exact ((h.wake _).setUsers _).join (h.hashing _ (List.mem_of_getElem? hi))
      (hf _ (mem_joins hi ho hc)) _
  | connected hb => exact h.connected hb
  | connectFailed hb =>
    exact ((h.modifyBackend (h.lt_nextBackend (by rw [hb]; exact nofun)) rfl fun _ => rfl).closeWs
      _).remove _
  | frame => exact h
  | nickTaken => exact h.closeWs _
  | welcome => exact h.modifySession ⟨rfl, rfl, rfl, id⟩
  | welcomeReady => exact h.modifySession ⟨rfl, rfl, rfl, id⟩
  | nickReady => exact h.modifySession ⟨rfl, rfl, rfl, id⟩
  | @rename b _ _ newNick =>
    have hm :=
      h.modifySession (w := (s.backends b).owner) (f := fun session => session.rename newNick)
      ⟨rfl, rfl, rfl, id⟩
    exact hm.setUsers _
  | oversized hb => exact h.closeConnection (h.lt_nextBackend (by rw [hb]; exact nofun))
  | @backendClose b hb f =>
    have hm := h.modifyBackend (b := b)
      (f := fun connection => { connection with socket := .ended, closed := true })
      (h.lt_nextBackend (by rw [hb]; exact nofun)) rfl fun _ => rfl
    cases f with
    | true => exact hm
    | false => exact hm.closeWs _
  | shutdown => exact h.close

theorem wired_of_run {env : Env} {config : GatewayConfig}
    (h : RunIn step JoinsOnce (init env config) s) : Wired s :=
  h.invariant (wired_init env config) fun _ _ _ hw hc hs => hw.step hc hs

/-- **One place, one connection**: if no session joins twice, a session is in the roster
under its own id only, no two are there for one account, and a session has created no
other backend connection than the one it has. -/
theorem one_connection_per_session {env : Env} {config : GatewayConfig}
    (h : RunIn step JoinsOnce (init env config) s) :
    (∀ id w, s.roster.find? id = some w → (s.sessions w).id = id) ∧
    (∀ id id' w, s.roster.find? id = some w → s.roster.find? id' = some w → id = id') ∧
    (∀ id id' w w', s.roster.find? id = some w → s.roster.find? id' = some w' →
      (s.sessions w).id = (s.sessions w').id → w = w') ∧
    (∀ b < s.nextBackend, (s.sessions (s.backends b).owner).backend = some b) ∧
    ∀ b < s.nextBackend, ∀ c < s.nextBackend, (s.backends b).owner = (s.backends c).owner →
      b = c := by
  have hw := wired_of_run h
  have hid := fun id w hr => (hw.roster id w hr).1
  have hb := fun b hlt => (hw.backend _ b).mpr ⟨hlt, rfl⟩
  refine ⟨hid, ?_, ?_, hb, ?_⟩
  · intro id id' w hr hr'
    rw [← hid id w hr, hid id' w hr']
  · intro id id' w w' hr hr' he
    rw [hid id w hr, hid id' w' hr'] at he
    subst he
    exact Option.some.inj (hr.symm.trans hr')
  · intro b hlt c hlt' he
    have h1 := hb b hlt
    have h2 := hb c hlt'
    rw [he] at h1
    exact Option.some.inj (h1.symm.trans h2)

theorem sessions_closeBackend (s : GatewayServer) (w : WsId) :
    (s.closeBackend w).sessions = s.sessions := by
  unfold closeBackend
  split <;> rfl

/-- What `JSON.parse` makes of a `register` message. -/
def registerMessage (username : String) : Json :=
  .obj [(units "type", .str (units "register")), (units "username", .str (units username)),
    (units "password", .str (units "password"))]

/-- A WebSocket registers an account. -/
def oneRegister : List Event :=
  [.connection, .message 0 70 (some (registerMessage "alice")), .authDone 0]

/-- The second `register` arrives before the first is done: the `if` that refuses it is passed by
both. -/
def twoRegisters : List Event :=
  [.connection, .message 0 70 (some (registerMessage "alice")),
    .message 0 70 (some (registerMessage "bob")),
    .authDone 0, .authDone 0]

set_option maxRecDepth 4000 in
theorem one_connection_of_one_register :
    ∃ s, RunIn step JoinsOnce (init .sample {}) s ∧ s.roster.entries = [([3], 0)] ∧
      (s.sessions 0).id = [3] := by
  have h : (execAllIn step JoinsOnce (init .sample {}) oneRegister).map
    (fun s => s.roster.entries) =
      some [([3], 0)] := by decide
  obtain ⟨s, hs, hr⟩ := exists_runIn_of_execAllIn h
  have hf : s.roster.find? [3] = some 0 :=
    OrdMap.find?_eq_some.mpr (by rw [hr]; exact List.mem_singleton_self _)
  exact ⟨s, hs, hr, (one_connection_per_session hs).1 [3] 0 hf⟩

set_option maxRecDepth 4000 in
/-- **A session may join twice**: two overlapping `register` messages on one WebSocket put
it into the roster under two ids, one of which is not its own, and open two backend
connections. -/
theorem session_in_roster_twice :
    ∃ s, Run step (init .sample {}) s ∧ s.roster.entries = [([4], 0), ([5], 0)] ∧
      (s.sessions 0).id = [5] ∧
      s.nextBackend = 2 ∧ (s.backends 0).owner = 0 ∧ (s.backends 1).owner = 0 := by
  have h : (execAll step (init .sample {}) twoRegisters).map (fun s =>
      (s.roster.entries, (s.sessions 0).id, s.nextBackend, (s.backends 0).owner,
        (s.backends 1).owner)) =
      some ([([4], 0), ([5], 0)], [5], 2, 0, 0) := by decide
  obtain ⟨s, hs, he⟩ := exists_run_of_execAll h
  simp only [Prod.mk.injEq] at he
  exact ⟨s, hs, he⟩

end GatewayServer

end ThreadLink.Gateway
