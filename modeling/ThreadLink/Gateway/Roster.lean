import ThreadLink.Gateway.Sessions

/-!
# Who is taken out of the roster

`onClientClosed` and a failed `connect` take an entry out of the roster by the id of the
account. A session whose `connect` has failed is taken out twice: at once, and when its
WebSocket has closed. In between the account may log in again. This module has what holds
of the roster whatever happens, and what holds if nobody logs in in between.

## What is proved

* `Change.moves` — what changes of the sessions and of the roster if nobody arrives or joins.
* `joined_of_run` — in every run, only authenticated sessions are in the roster or own
  backend connections.
* `removes_own_only` — if no session joins under an account while another session of it has
  yet to be taken out, then a session takes out only itself, and a session that has not
  been closed, and whose `connect` has not failed, is found under its id.
-/

namespace ThreadLink.Gateway

open Text Runs

namespace GatewayServer

variable {P : Cause → Prop} {past : List (GatewayServer × Event)} {s s' t u : GatewayServer}
  {e : Event}
  {w x : WsId} {b : BackendId}

/-! ### When nobody arrives or joins -/

/-- A session that neither arrives nor joins. -/
structure Session.Stays (y z : Session) : Prop where
  /-- Its id, authentication and backend connection are the same. -/
  links : Session.SameLinks y z
  /-- If it has been closed it stays so. -/
  closed : y.closed = true → z.closed = true
  /-- Its WebSocket does not open. -/
  opened : z.ws = .opened → y.ws = .opened

theorem Session.Stays.refl (y : Session) : Session.Stays y y := ⟨⟨rfl, rfl, rfl, id⟩, id, id⟩

theorem Session.Stays.trans {y z z' : Session} (h : Session.Stays y z) (h' : Session.Stays z z') :
    Session.Stays y z' :=
  ⟨⟨h'.links.id.trans h.links.id, h'.links.authenticated.trans h.links.authenticated,
    h'.links.backend.trans h.links.backend, fun hu => h'.links.unborn (h.links.unborn hu)⟩,
    fun hc => h'.closed (h.closed hc), fun ho => h.opened (h'.opened ho)⟩

/-- A step in which no session arrives or joins: all there is to say of it but for the
roster. -/
structure Stays (s t : GatewayServer) : Prop where
  /-- The sessions. -/
  sessions : ∀ w, Session.Stays (s.sessions w) (t.sessions w)
  /-- The number of WebSockets. -/
  nextWs : t.nextWs = s.nextWs
  /-- The number of backend connections. -/
  nextBackend : t.nextBackend = s.nextBackend
  /-- Their owners. -/
  owner : ∀ b, (t.backends b).owner = (s.backends b).owner
  /-- No connection is set up. -/
  connecting : ∀ b, (t.backends b).socket = .connecting → (s.backends b).socket = .connecting
  /-- A connection that is there has been set up. -/
  opened : ∀ b, (t.backends b).socket = .opened → (s.backends b).socket = .connecting ∨
    (s.backends b).socket = .opened
  /-- Who waits for a hash has waited before or has arrived. -/
  hashing : ∀ a ∈ t.hashing, a ∈ s.hashing ∨ s.live a.1 = true

theorem Stays.refl (s : GatewayServer) : Stays s s :=
  ⟨fun _ => .refl _, rfl, rfl, fun _ => rfl, fun _ => id, fun _ => .inr, fun _ => .inl⟩

theorem Same.stays (h : Same s t) : Stays s t where
  sessions w := by
    obtain ⟨p, q, hw⟩ := h.sessions w
    rw [hw]
    exact ⟨⟨rfl, rfl, rfl, id⟩, id, id⟩
  nextWs := h.nextWs
  nextBackend := h.nextBackend
  owner b := by rw [h.backends]
  connecting b := by rw [h.backends]; exact id
  opened b := by rw [h.backends]; exact .inr
  hashing a ha := .inl (h.hashing ▸ ha)

theorem Stays.modifySession (h : Stays s t) {f : Session → Session}
    (hf : Session.Stays (t.sessions w) (f (t.sessions w))) : Stays s (t.modifySession w f) := by
  refine ⟨fun x => (h.sessions x).trans ?_, h.nextWs, h.nextBackend, h.owner, h.connecting,
    h.opened, h.hashing⟩
  by_cases hx : x = w
  · subst hx
    rw [sessions_modifySession_self]
    exact hf
  · rw [sessions_modifySession_of_ne t hx]
    exact .refl _

theorem Stays.modifyBackend (h : Stays s t) {f : BackendConnection → BackendConnection}
    (ho : (f (t.backends b)).owner = (t.backends b).owner)
    (hc : (f (t.backends b)).socket = .connecting → (t.backends b).socket = .connecting)
    (hn : (f (t.backends b)).socket = .opened → (t.backends b).socket = .connecting ∨
      (t.backends b).socket = .opened) :
    Stays s (t.modifyBackend b f) := by
  refine ⟨h.sessions, h.nextWs, h.nextBackend, ?_, ?_, ?_, h.hashing⟩
  · intro c
    by_cases hcb : c = b
    · subst hcb
      rw [backends_modifyBackend_self, ho, h.owner]
    · rw [backends_modifyBackend_of_ne t hcb, h.owner]
  · intro c hcc
    by_cases hcb : c = b
    · subst hcb
      rw [backends_modifyBackend_self] at hcc
      exact h.connecting c (hc hcc)
    · rw [backends_modifyBackend_of_ne t hcb] at hcc
      exact h.connecting c hcc
  · intro c hcc
    by_cases hcb : c = b
    · subst hcb
      rw [backends_modifyBackend_self] at hcc
      rcases hn hcc with hn | hn
      · exact .inl (h.connecting c hn)
      · exact h.opened c hn
    · rw [backends_modifyBackend_of_ne t hcb] at hcc
      exact h.opened c hcc

/-- A connection that is closed is not set up. -/
theorem Stays.closeConnection (h : Stays s t) (b : BackendId) :
    Stays s (t.modifyBackend b .close) := by
  apply h.modifyBackend (owner_close _)
  · intro hc
    unfold BackendConnection.close at hc
    split at hc
    · exact hc
    · cases hc
  · intro hc
    unfold BackendConnection.close at hc
    split at hc
    · exact .inr hc
    · cases hc

theorem Stays.closeWs (h : Stays s t) (w : WsId) : Stays s (t.closeWs w) := by
  apply h.modifySession
  split
  · rename_i ho
    exact ⟨⟨rfl, rfl, rfl, fun hu => by simp [ho] at hu⟩, id, nofun⟩
  · exact .refl _

theorem Stays.closeBackend (h : Stays s t) (w : WsId) : Stays s (t.closeBackend w) := by
  unfold GatewayServer.closeBackend
  split
  · exact h
  · exact h.closeConnection _

/-- The roster does not matter. -/
theorem Stays.remove (h : Stays s t) (id : Units) : Stays s (t.remove id) :=
  ⟨h.sessions, h.nextWs, h.nextBackend, h.owner, h.connecting, h.opened, h.hashing⟩

theorem Stays.leave (h : Stays s t) (w : WsId) : Stays s (t.leave w) := by
  have hm : Stays s (t.modifySession w fun session => { session with closed := true }) :=
    h.modifySession ⟨⟨rfl, rfl, rfl, id⟩, fun _ => rfl, id⟩
  unfold GatewayServer.leave
  dsimp only
  split
  · exact hm
  · exact (hm.closeBackend w).remove _

theorem Stays.close (h : Stays s t) : Stays s t.close := by
  obtain ⟨u, hu, hc⟩ := close_rule h fun u w hu => (hu.closeBackend w).closeWs w
  rw [hc]
  exact ⟨hu.sessions, hu.nextWs, hu.nextBackend, hu.owner, hu.connecting, hu.opened, hu.hashing⟩

theorem roster_leave (ha : (s.sessions w).authenticated = true) :
    (s.leave w).roster = s.roster.erase (s.sessions w).id := by
  unfold leave closeBackend
  simp only [sessions_modifySession_self, ha, Bool.not_true, Bool.false_eq_true, if_false]
  split <;> simp [remove, modifyBackend, modifySession]

theorem roster_leave_of_not (ha : (s.sessions w).authenticated = false) :
    (s.leave w).roster = s.roster := by
  unfold leave
  simp [ha, modifySession]

theorem roster_close (s : GatewayServer) : s.close.roster = s.roster := by
  rw [close_eq]

/-- What an event does to the sessions and the roster. -/
inductive Moves (s : GatewayServer) : Event → GatewayServer → Prop where
  /-- A session arrives. -/
  | arrives : Moves s .connection s.onConnection
  /-- A session joins. -/
  | joins {i : ℕ} {w : WsId} {a : Attempt} {account : UserRecord} {users : Users}
    (h : s.hashing[i]? = some (w, a))
    (ho : s.outcome a = some (account, users)) (hc : s.connectedElsewhere account.id = false) :
    Moves s (.authDone i) (((s.wake i).setUsers users).join w account)
  /-- An authenticated session is closed and taken out. -/
  | leaves {w : WsId} {t : GatewayServer} (h : Stays s t) (hl : s.live w)
    (ha : (s.sessions w).authenticated = true)
    (hc : (s.sessions w).closed = false) (hc' : (t.sessions w).closed = true)
    (hr : t.roster = s.roster.erase (s.sessions w).id) : Moves s (.wsClose w) t
  /-- A session that cannot connect is taken out. -/
  | fails {b : BackendId} {t : GatewayServer} (h : Stays s t)
    (hb : (s.backends b).socket = .connecting)
    (hr : t.roster = s.roster.erase (s.sessions (s.backends b).owner).id) :
    Moves s (.connectFailed b) t
  /-- The roster stays as it is. -/
  | stays {e : Event} {t : GatewayServer} (h : Stays s t) (hr : t.roster = s.roster) : Moves s e t

/-- **What changes** of the sessions and of the roster. -/
theorem Change.moves (h : Change s e t) : Moves s e t := by
  have hs := Stays.refl s
  cases h with
  | connection => exact .arrives
  | message => exact .stays hs rfl
  | raised =>
    exact .stays ⟨hs.sessions, rfl, rfl, hs.owner, hs.connecting, hs.opened, hs.hashing⟩ rfl
  | suspend hl =>
    refine .stays ⟨hs.sessions, rfl, rfl, hs.owner, hs.connecting, hs.opened, ?_⟩ rfl
    intro a ha
    rcases List.mem_append.mp ha with ha | ha
    · exact .inl ha
    · rw [List.mem_singleton.mp ha]
      exact .inr hl
  | logout => exact .stays (hs.closeWs _) rfl
  | wsClosing => exact .stays (hs.closeWs _) rfl
  | @wsClose w hl hc =>
    have hw : (s.sessions w).ws ≠ .unborn := fun hu => by simp [live, hu] at hl
    have hm : Stays s (s.modifySession w fun session => { session with ws := .closed }) :=
      hs.modifySession ⟨⟨rfl, rfl, rfl, fun hu => absurd hu hw⟩, id, fun ho => by cases ho⟩
    have hcl : (((s.modifySession w fun session => { session with ws := .closed }).leave w).sessions
        w).closed = true := by
      unfold leave closeBackend
      dsimp only
      split
      · simp
      · split <;> simp [remove, modifyBackend]
    cases ha : (s.sessions w).authenticated with
    | true =>
      refine .leaves (hm.leave w) hl ha hc hcl ?_
      rw [roster_leave (by rw [sessions_modifySession_self]; exact ha), sessions_modifySession_self]
      rfl
    | false =>
      exact .stays (hm.leave w)
        (roster_leave_of_not (by rw [sessions_modifySession_self]; exact ha))
  | wsCloseAgain hl hc =>
    refine .stays (hs.modifySession ⟨⟨rfl, rfl, rfl, ?_⟩, id, fun ho => by cases ho⟩) rfl
    intro hu
    simp [live, hu] at hl
  | refused =>
    exact .stays ⟨hs.sessions, rfl, rfl, hs.owner, hs.connecting, hs.opened,
      fun a ha => .inl (List.mem_of_mem_eraseIdx ha)⟩ rfl
  | elsewhere =>
    exact .stays ⟨hs.sessions, rfl, rfl, hs.owner, hs.connecting, hs.opened,
      fun a ha => .inl (List.mem_of_mem_eraseIdx ha)⟩ rfl
  | joined hi ho hc => exact .joins hi ho hc
  | connected hb => exact .stays (hs.modifyBackend rfl (fun _ => hb) fun _ => .inl hb) rfl
  | @connectFailed b hb =>
    have hm :=
      hs.modifyBackend (b := b) (f := fun connection => { connection with socket := .ended }) rfl
      (fun hc => by cases hc) fun ho => by cases ho
    exact .fails ((hm.closeWs _).remove _) hb rfl
  | frame => exact .stays hs rfl
  | nickTaken => exact .stays (hs.closeWs _) rfl
  | welcome => exact .stays (hs.modifySession ⟨⟨rfl, rfl, rfl, id⟩, id, id⟩) rfl
  | welcomeReady => exact .stays (hs.modifySession ⟨⟨rfl, rfl, rfl, id⟩, id, id⟩) rfl
  | nickReady => exact .stays (hs.modifySession ⟨⟨rfl, rfl, rfl, id⟩, id, id⟩) rfl
  | @rename b _ _ newNick =>
    have hm :=
      hs.modifySession (w := (s.backends b).owner) (f := fun session => session.rename newNick)
      ⟨⟨rfl, rfl, rfl, id⟩, id, id⟩
    exact .stays ⟨hm.sessions, rfl, rfl, hm.owner, hm.connecting, hm.opened, hm.hashing⟩ rfl
  | @oversized b => exact .stays (hs.closeConnection b) rfl
  | @backendClose b _ f =>
    have hm := hs.modifyBackend (b := b)
      (f := fun connection => { connection with socket := .ended, closed := true })
      rfl (fun hc => by cases hc) fun ho => by cases ho
    cases f with
    | true => exact .stays hm rfl
    | false => exact .stays (hm.closeWs _) rfl
  | shutdown => exact .stays hs.close (roster_close s)

/-- If nobody arrives or joins. -/
theorem Change.stays (h : Change s e t) (hn : e ≠ .connection) (hj : ∀ i, e ≠ .authDone i) :
    Stays s t := by
  cases h.moves with
  | arrives => exact absurd rfl hn
  | @joins i => exact absurd rfl (hj i)
  | leaves hs => exact hs
  | fails hs => exact hs
  | stays hs => exact hs

/-- **How backend connections are created**: by joining. -/
theorem step_backends (hs : s.step e = some s') :
    (s'.nextBackend = s.nextBackend ∧ ∀ b, (s'.backends b).owner = (s.backends b).owner) ∨
      ∃ w, s.joins e = some w ∧ s'.nextBackend = s.nextBackend + 1 ∧
        (s'.backends s.nextBackend).owner = w ∧
        ∀ b, b ≠ s.nextBackend → (s'.backends b).owner = (s.backends b).owner := by
  obtain ⟨t, hc, hd⟩ := step_deeds hs
  rw [hd.same.nextBackend, hd.same.backends]
  cases hc.moves with
  | arrives => exact .inl ⟨rfl, fun _ => rfl⟩
  | @joins i w a account users hi ho hn =>
    refine .inr ⟨w, mem_joins hi ho hn, rfl, ?_, ?_⟩
    · show (Function.update s.backends s.nextBackend ⟨w, .connecting, false⟩ s.nextBackend).owner =
        w
      rw [Function.update_self]
    · intro b hb
      show (Function.update s.backends s.nextBackend _ b).owner = _
      rw [Function.update_of_ne hb]
  | leaves h => exact .inl ⟨h.nextBackend, h.owner⟩
  | fails h => exact .inl ⟨h.nextBackend, h.owner⟩
  | stays h => exact .inl ⟨h.nextBackend, h.owner⟩

/-- One whose frames can be read could be read before. -/
theorem readable_of_step (hs : s.step e = some s') (hb : b < s.nextBackend)
    (h : (s'.backends b).socket = .connecting ∨ (s'.backends b).socket = .opened) :
    (s.backends b).socket = .connecting ∨ (s.backends b).socket = .opened := by
  obtain ⟨t, hc, hd⟩ := step_deeds hs
  rw [hd.same.backends] at h
  have hstays (hS : Stays s t) : (s.backends b).socket = .connecting ∨
      (s.backends b).socket = .opened :=
    h.elim (fun h => .inl (hS.connecting b h)) (hS.opened b)
  cases hc.moves with
  | arrives => exact h
  | joins =>
    have he {connection : BackendConnection} :
        Function.update s.backends s.nextBackend connection b = s.backends b :=
      Function.update_of_ne hb.ne ..
    change (Function.update s.backends s.nextBackend _ b).socket = _ ∨
      (Function.update s.backends s.nextBackend _ b).socket = _ at h
    rwa [he] at h
  | leaves hS => exact hstays hS
  | fails hS => exact hstays hS
  | stays hS => exact hstays hS

/-- A backend connection keeps its owner. -/
theorem owner_step (hs : s.step e = some s') (hb : b < s.nextBackend) :
    b < s'.nextBackend ∧ (s'.backends b).owner = (s.backends b).owner := by
  rcases step_backends hs with ⟨hn, ho⟩ | ⟨_, -, hn, -, ho⟩
  · exact ⟨hn ▸ hb, ho b⟩
  · exact ⟨hn ▸ Nat.lt_succ_of_lt hb, ho b (Nat.ne_of_lt hb)⟩

/-! ### In every run -/

/-- Only authenticated sessions are in the roster or own backend connections. -/
structure Joined (s : GatewayServer) : Prop where
  /-- A session that has not arrived is none. -/
  unborn : ∀ w, s.nextWs ≤ w → (s.sessions w).ws = .unborn ∧ (s.sessions w).authenticated = false
  /-- Only sessions that have arrived wait for a hash. -/
  hashing : ∀ a ∈ s.hashing, a.1 < s.nextWs
  /-- A session in the roster is authenticated. -/
  roster : ∀ id w, s.roster.find? id = some w → (s.sessions w).authenticated = true
  /-- So is one with a backend connection. -/
  backend : ∀ w, (s.sessions w).backend ≠ none → (s.sessions w).authenticated = true
  /-- So is the owner of one. -/
  owner : ∀ b < s.nextBackend, (s.sessions (s.backends b).owner).authenticated = true
  /-- A backend connection that has not been created does not connect. -/
  uncreated : ∀ b, s.nextBackend ≤ b → (s.backends b).socket ≠ .connecting ∧
    (s.backends b).socket ≠ .opened

theorem joined_init (env : Env) (config : GatewayConfig) : Joined (init env config) where
  unborn _ _ := ⟨rfl, rfl⟩
  hashing _ h := absurd h List.not_mem_nil
  roster _ _ h := by simp [init] at h
  backend _ h := absurd rfl h
  owner b h := absurd h (Nat.not_lt_zero b)
  uncreated _ _ := ⟨nofun, nofun⟩

theorem Joined.lt_nextWs (h : Joined s) (ha : (s.sessions w).authenticated = true) : w < s.nextWs :=
  Nat.lt_of_not_le fun hle => by simp [(h.unborn w hle).2] at ha

theorem Joined.lt_nextBackend (h : Joined s) (hb : (s.backends b).socket = .connecting) :
    b < s.nextBackend :=
  Nat.lt_of_not_le fun hle => (h.uncreated b hle).1 hb

/-- A frame arrives for an authenticated session. -/
theorem Joined.owner_of_opened (h : Joined s) (hb : (s.backends b).socket = .opened) :
    (s.sessions (s.backends b).owner).authenticated = true :=
  h.owner b (Nat.lt_of_not_le fun hle => (h.uncreated b hle).2 hb)

theorem Joined.stays (h : Joined s) (hs : Stays s t)
    (hr : ∀ id w, t.roster.find? id = some w → s.roster.find? id = some w) : Joined t where
  unborn w hw := by
    obtain ⟨h1, h2⟩ := h.unborn w (hs.nextWs ▸ hw)
    exact ⟨(hs.sessions w).links.unborn h1, (hs.sessions w).links.authenticated.trans h2⟩
  hashing a ha := by
    rw [hs.nextWs]
    rcases hs.hashing a ha with ha | hl
    · exact h.hashing a ha
    · apply Nat.lt_of_not_le
      intro hle
      simp [live, (h.unborn a.1 hle).1] at hl
  roster id w hw := (hs.sessions w).links.authenticated.trans (h.roster id w (hr id w hw))
  backend w hw := by
    rw [(hs.sessions w).links.backend] at hw
    exact (hs.sessions w).links.authenticated.trans (h.backend w hw)
  owner b hb := by
    rw [hs.owner, (hs.sessions _).links.authenticated]
    exact h.owner b (hs.nextBackend ▸ hb)
  uncreated b hb := by
    obtain ⟨h1, h2⟩ := h.uncreated b (hs.nextBackend ▸ hb)
    exact ⟨fun hc => h1 (hs.connecting b hc), fun hc => (hs.opened b hc).elim h1 h2⟩

theorem Joined.onConnection (h : Joined s) : Joined s.onConnection := by
  have hn := h.unborn s.nextWs le_rfl
  have hauth (x : WsId) (hx : (s.sessions x).authenticated = true) :
      s.onConnection.sessions x = s.sessions x := by
    apply sessions_onConnection_of_ne s
    rintro rfl
    simp [hn.2] at hx
  constructor
  · intro x hx
    have hx' : s.nextWs < x := hx
    rw [sessions_onConnection_of_ne s hx'.ne']
    exact h.unborn x hx'.le
  · exact fun a ha => Nat.lt_succ_of_lt (h.hashing a ha)
  · intro id x hx
    have ha := h.roster id x hx
    rw [hauth x ha]
    exact ha
  · intro x hx
    by_cases hxn : x = s.nextWs
    · subst hxn
      rw [sessions_onConnection_self] at hx
      exact absurd rfl hx
    · rw [sessions_onConnection_of_ne s hxn] at hx ⊢
      exact h.backend x hx
  · intro b hb
    have ha := h.owner b hb
    show (s.onConnection.sessions (s.backends b).owner).authenticated = true
    rw [hauth _ ha]
    exact ha
  · exact h.uncreated

theorem Joined.join (h : Joined s) (hw : w < s.nextWs) (account : UserRecord) :
    Joined (s.join w account) := by
  have hauth (x : WsId) (hx : (s.sessions x).authenticated = true ∨ x = w) :
      ((s.join w account).sessions x).authenticated = true := by
    by_cases hxw : x = w
    · subst hxw
      rw [sessions_join_self]
      rfl
    · rw [sessions_join_of_ne s hxw]
      exact hx.resolve_right hxw
  constructor
  · intro x hx
    have hne : x ≠ w := by rintro rfl; exact absurd hw (Nat.not_lt.mpr hx)
    rw [sessions_join_of_ne s hne]
    exact h.unborn x hx
  · exact h.hashing
  · intro id x hx
    replace hx : (s.roster.insert account.id w).find? id = some x := hx
    rw [OrdMap.find?_insert] at hx
    split at hx
    · exact hauth x (.inr (Option.some.inj hx).symm)
    · exact hauth x (.inl (h.roster id x hx))
  · intro x hx
    by_cases hxw : x = w
    · exact hauth x (.inr hxw)
    · rw [sessions_join_of_ne s hxw] at hx
      exact hauth x (.inl (h.backend x hx))
  · intro b hb
    by_cases hbn : b = s.nextBackend
    · subst hbn
      rw [show (s.join w account).backends s.nextBackend = ⟨w, .connecting, false⟩ from
        Function.update_self ..]
      exact hauth w (.inr rfl)
    · rw [show (s.join w account).backends b = _ from Function.update_of_ne hbn ..]
      exact hauth _ (.inl (h.owner b (Nat.lt_of_le_of_ne (Nat.le_of_lt_succ hb) hbn)))
  · intro b hb
    have hb : s.nextBackend < b := hb
    rw [show (s.join w account).backends b = _ from Function.update_of_ne hb.ne' ..]
    exact h.uncreated b hb.le

theorem Joined.wake (h : Joined s) (i : ℕ) (users : Users) : Joined ((s.wake i).setUsers users) :=
  ⟨h.unborn, fun a ha => h.hashing a (List.mem_of_mem_eraseIdx ha), h.roster, h.backend, h.owner,
    h.uncreated⟩

/-- Taking an entry out. -/
theorem find?_of_erase {id id' : Units} {r : OrdMap Units WsId}
    (h : (r.erase id).find? id' = some w) : r.find? id' = some w ∧ id' ≠ id := by
  rw [OrdMap.find?_erase] at h
  split at h
  · cases h
  · rename_i hne
    exact ⟨h, hne⟩

theorem Joined.moves (h : Joined s) (hm : Moves s e t) : Joined t := by
  cases hm with
  | arrives => exact h.onConnection
  | joins hi => exact (h.wake _ _).join (h.hashing _ (List.mem_of_getElem? hi)) _
  | leaves hs _ _ _ _ hr => exact h.stays hs fun id w hw => (find?_of_erase (hr ▸ hw)).1
  | fails hs _ hr => exact h.stays hs fun id w hw => (find?_of_erase (hr ▸ hw)).1
  | stays hs hr => exact h.stays hs fun id w hw => hr ▸ hw

theorem Joined.deeds (h : Joined s) (hd : Deeds P s t) : Joined t :=
  h.stays hd.same.stays fun _ _ hw => hd.same.roster ▸ hw

theorem Joined.step (h : Joined s) (hs : s.step e = some s') : Joined s' := by
  obtain ⟨t, hc, hd⟩ := step_deeds hs
  exact (h.moves hc.moves).deeds hd

theorem joined_of_run {C : GatewayServer → Event → Prop} {env : Env} {config : GatewayConfig}
    (h : RunIn step C (init env config) s) : Joined s :=
  h.invariant (joined_init env config) fun _ _ _ hj _ hs => hj.step hs

/-! ### Taking out and logging in again -/

/-- The session that an event lets join, and the account it joins under. -/
def joinsAs (s : GatewayServer) : Event → Option (WsId × Units)
  | .authDone i =>
    match s.hashing[i]? with
    | none => none
    | some (w, a) =>
      match s.outcome a with
      | none => none
      | some (account, _) => if s.connectedElsewhere account.id then none else some (w, account.id)
  | _ => none

/-- The session has yet to be taken out: its close event is to come, or its `connect` may
fail. -/
def Leaves (s : GatewayServer) (w : WsId) : Prop :=
  (s.sessions w).closed = false ∨ ∃ b < s.nextBackend, (s.backends b).owner = w ∧
    (s.backends b).socket = .connecting

instance (s : GatewayServer) (w : WsId) : Decidable (Leaves s w) :=
  inferInstanceAs (Decidable (_ ∨ _))

/-- **The condition**: no session joins under an account while another session of it has
yet to be taken out. -/
def JoinsAlone (s : GatewayServer) (e : Event) : Prop :=
  ∀ j ∈ s.joinsAs e, ∀ x < s.nextWs, x ≠ j.1 → (s.sessions x).authenticated = true →
    (s.sessions x).id = j.2 →
    ¬Leaves s x

instance (s : GatewayServer) (e : Event) : Decidable (JoinsAlone s e) :=
  inferInstanceAs (Decidable (∀ j ∈ s.joinsAs e, _))

/-- The session whose `connect` an event says has failed. -/
def connectFails (s : GatewayServer) : Event → Option WsId
  | .connectFailed b => some (s.backends b).owner
  | _ => none

/-- The `connect` of the session has failed. -/
def ConnectFailed (past : List (GatewayServer × Event)) (w : WsId) : Prop :=
  ∃ a ∈ past, a.1.connectFails a.2 = some w

instance (past : List (GatewayServer × Event)) (w : WsId) : Decidable (ConnectFailed past w) :=
  inferInstanceAs (Decidable (∃ a ∈ past, _))

theorem ConnectFailed.append {a : GatewayServer × Event} (h : ConnectFailed past w) :
    ConnectFailed (past ++ [a]) w :=
  let ⟨a', ha, hb⟩ := h
  ⟨a', List.mem_append_left _ ha, hb⟩

/-- Who is found under the id of a session. -/
structure Found (past : List (GatewayServer × Event)) (s : GatewayServer) : Prop where
  /-- Only authenticated sessions join. -/
  joined : Joined s
  /-- A session that has yet to be taken out is the only one that may be found. -/
  own : ∀ w, (s.sessions w).authenticated = true → Leaves s w →
    ∀ x, s.roster.find? (s.sessions w).id = some x → x = w
  /-- It is found if it has not been closed and its `connect` has not failed. -/
  kept : ∀ w, (s.sessions w).authenticated = true → (s.sessions w).closed = false →
    ¬ConnectFailed past w →
    s.roster.find? (s.sessions w).id = some w

theorem found_init (env : Env) (config : GatewayConfig) : Found [] (init env config) where
  joined := joined_init env config
  own _ h := by simp [init] at h
  kept _ h := by simp [init] at h

theorem Stays.leaves (h : Stays s t) (hl : Leaves t w) : Leaves s w := by
  rcases hl with hc | ⟨b, hb, ho, hc⟩
  · left
    cases hs : (s.sessions w).closed with
    | false => rfl
    | true =>
      rw [(h.sessions w).closed hs] at hc
      cases hc
  · exact .inr ⟨b, h.nextBackend ▸ hb, (h.owner b).symm.trans ho, h.connecting b hc⟩

theorem Stays.open_of_open (h : Stays s t) (hc : (t.sessions w).closed = false) :
    (s.sessions w).closed = false := by
  cases hs : (s.sessions w).closed with
  | false => rfl
  | true =>
    rw [(h.sessions w).closed hs] at hc
    cases hc

/-- A step that takes nobody out. -/
theorem Found.stays (h : Found past s) (hs : Stays s t) (hr : t.roster = s.roster) :
    Found past t where
  joined := h.joined.stays hs fun _ _ hw => hr ▸ hw
  own w ha hl x hx := by
    rw [(hs.sessions w).links.authenticated] at ha
    rw [(hs.sessions w).links.id, hr] at hx
    exact h.own w ha (hs.leaves hl) x hx
  kept w ha hc hf := by
    rw [(hs.sessions w).links.authenticated] at ha
    rw [(hs.sessions w).links.id, hr]
    exact h.kept w ha (hs.open_of_open hc) hf

/-- A step that takes a session out, which is not found any more because it has been
closed or its `connect` has failed. -/
theorem Found.erase {past' : List (GatewayServer × Event)} (h : Found past s) (hs : Stays s t)
    (ha : (s.sessions w).authenticated = true) (hl : Leaves s w)
    (hr : t.roster = s.roster.erase (s.sessions w).id)
    (hp : ∀ x, ConnectFailed past x → ConnectFailed past' x)
    (hw : (t.sessions w).closed = true ∨ ConnectFailed past' w) : Found past' t where
  joined := h.joined.stays hs fun _ _ hx => (find?_of_erase (hr ▸ hx)).1
  own x hxa hxl y hy := by
    rw [(hs.sessions x).links.authenticated] at hxa
    rw [(hs.sessions x).links.id, hr] at hy
    exact h.own x hxa (hs.leaves hxl) y (find?_of_erase hy).1
  kept x hxa hxc hxf := by
    rw [(hs.sessions x).links.authenticated] at hxa
    have hk := h.kept x hxa (hs.open_of_open hxc) fun hf => hxf (hp x hf)
    have hne : (s.sessions x).id ≠ (s.sessions w).id := by
      intro he
      -- it would be found under the id of the session that is taken out
      obtain rfl := h.own w ha hl x (he ▸ hk)
      rcases hw with hw | hw
      · rw [hw] at hxc
        cases hxc
      · exact hxf hw
    rw [(hs.sessions x).links.id, hr, OrdMap.find?_erase_of_ne _ hne]
    exact hk

theorem Found.onConnection (h : Found past s) : Found past s.onConnection := by
  have hn := h.joined.unborn s.nextWs le_rfl
  have hauth (x : WsId) (hx : (s.onConnection.sessions x).authenticated = true) :
      s.onConnection.sessions x = s.sessions x := by
    apply sessions_onConnection_of_ne s
    rintro rfl
    rw [sessions_onConnection_self] at hx
    cases hx
  refine ⟨h.joined.onConnection, ?_, ?_⟩
  · intro w ha hl x hx
    have he := hauth w ha
    rw [he] at ha hx
    refine h.own w ha ?_ x hx
    rcases hl with hc | hb
    · exact .inl (he ▸ hc)
    · exact .inr hb
  · intro w ha hc hf
    have he := hauth w ha
    rw [he] at ha hc ⊢
    exact h.kept w ha hc hf

theorem Found.join (h : Found past s) (hw : w < s.nextWs) (account : UserRecord)
    (hj : ∀ x < s.nextWs, x ≠ w → (s.sessions x).authenticated = true →
      (s.sessions x).id = account.id → ¬Leaves s x) :
    Found past (s.join w account) := by
  have hroster : (s.join w account).roster = s.roster.insert account.id w := rfl
  refine ⟨h.joined.join hw account, ?_, ?_⟩
  · intro x ha hl y hy
    by_cases hxw : x = w
    · subst hxw
      rw [sessions_join_self, hroster] at hy
      exact (Option.some.inj ((OrdMap.find?_insert_self ..).symm.trans hy)).symm
    · rw [sessions_join_of_ne s hxw] at ha hy
      have hls : Leaves s x := by
        rcases hl with hc | ⟨b, hb, ho, hc⟩
        · rw [sessions_join_of_ne s hxw] at hc
          exact .inl hc
        · -- the new connection is the one of the session that joins
          have hbn : b ≠ s.nextBackend := by
            rintro rfl
            rw [show (s.join w account).backends s.nextBackend = ⟨w, .connecting, false⟩ from
              Function.update_self ..] at ho
            exact hxw ho.symm
          rw [show (s.join w account).backends b = _ from Function.update_of_ne hbn ..] at ho hc
          exact .inr ⟨b, h.joined.lt_nextBackend hc, ho, hc⟩
      have hne : (s.sessions x).id ≠ account.id :=
        fun he => hj x (h.joined.lt_nextWs ha) hxw ha he hls
      rw [hroster, OrdMap.find?_insert_of_ne _ hne] at hy
      exact h.own x ha hls y hy
  · intro x ha hc hf
    by_cases hxw : x = w
    · subst hxw
      rw [sessions_join_self, hroster]
      exact OrdMap.find?_insert_self ..
    · rw [sessions_join_of_ne s hxw] at ha hc ⊢
      have hne : (s.sessions x).id ≠ account.id :=
        fun he => hj x (h.joined.lt_nextWs ha) hxw ha he (.inl hc)
      rw [hroster, OrdMap.find?_insert_of_ne _ hne]
      exact h.kept x ha hc hf

theorem mem_joinsAs {i : ℕ} {a : Attempt} {account : UserRecord} {users : Users}
    (h : s.hashing[i]? = some (w, a)) (ho : s.outcome a = some (account, users))
    (hc : s.connectedElsewhere account.id = false) : (w, account.id) ∈ s.joinsAs (.authDone i) := by
  simp [joinsAs, h, ho, hc]

theorem Found.moves (h : Found past s) (hm : Moves s e t) (hj : JoinsAlone s e) :
    Found (past ++ [(s, e)]) t := by
  have hp (x : WsId) (hf : ConnectFailed past x) : ConnectFailed (past ++ [(s, e)]) x := hf.append
  have hmono {t : GatewayServer} (h : Found past t) : Found (past ++ [(s, e)]) t :=
    ⟨h.joined, h.own, fun w ha hc hf => h.kept w ha hc fun hx => hf (hp w hx)⟩
  cases hm with
  | arrives => exact hmono h.onConnection
  | @joins i w a account users hi ho hc =>
    have hk : Found past ((s.wake i).setUsers users) := ⟨h.joined.wake i users, h.own, h.kept⟩
    exact hmono
        (hk.join (h.joined.hashing _ (List.mem_of_getElem? hi)) account fun x hx hne ha hid =>
      hj _ (mem_joinsAs hi ho hc) x hx hne ha hid)
  | leaves hs _ ha hc hc' hr => exact h.erase hs ha (.inl hc) hr hp (.inl hc')
  | @fails b _ hs hb hr =>
    have hlt := h.joined.lt_nextBackend hb
    exact h.erase hs (h.joined.owner b hlt) (.inr ⟨b, hlt, rfl, hb⟩) hr hp
      (.inr ⟨(s, .connectFailed b), List.mem_append_right _ (List.mem_singleton_self _), rfl⟩)
  | stays hs hr => exact hmono (h.stays hs hr)

theorem Found.step (h : Found past s) (hj : JoinsAlone s e) (hs : s.step e = some s') :
    Found (past ++ [(s, e)]) s' := by
  obtain ⟨t, hc, hd⟩ := step_deeds hs
  exact (h.moves hc.moves hj).stays hd.same.stays hd.same.roster

theorem found_of_path {env : Env} {config : GatewayConfig}
    (h : PathIn step JoinsAlone (init env config) past s) : Found past s :=
  h.invariant (found_init env config) fun _ _ _ _ hk hc hs => hk.step hc hs

/-- An entry that is taken out is the one of the session that leaves. -/
theorem Found.removed (h : Found past s) (hs : s.step e = some s') {id : Units}
    (hx : s.roster.find? id = some x) (hn : s'.roster.find? id = none) :
    e = .wsClose x ∨ ∃ b, e = .connectFailed b ∧ (s.backends b).owner = x := by
  obtain ⟨t, hc, hd⟩ := step_deeds hs
  rw [hd.same.roster] at hn
  have herase {w : WsId} (ha : (s.sessions w).authenticated = true) (hl : Leaves s w)
      (hr : t.roster = s.roster.erase (s.sessions w).id) : x = w := by
    by_cases he : id = (s.sessions w).id
    · exact h.own w ha hl x (he ▸ hx)
    · rw [hr, OrdMap.find?_erase_of_ne _ he, hx] at hn
      cases hn
  cases hc.moves with
  | arrives =>
    rw [show s.onConnection.roster = s.roster from rfl, hx] at hn
    cases hn
  | @joins i w a account users hi ho hc =>
    replace hn : (s.roster.insert account.id w).find? id = none := hn
    rw [OrdMap.find?_insert, hx] at hn
    split at hn <;> cases hn
  | leaves _ _ ha ho _ hr => exact .inl (congrArg Event.wsClose (herase ha (.inl ho) hr).symm)
  | @fails b _ _ hb hr =>
    have hlt := h.joined.lt_nextBackend hb
    exact .inr ⟨b, rfl, (herase (h.joined.owner b hlt) (.inr ⟨b, hlt, rfl, hb⟩) hr).symm⟩
  | stays _ hr =>
    rw [hr, hx] at hn
    cases hn

/-! ### What a broadcast reaches -/

/-- Whether a broadcast is sent to a session, if it is in the roster. -/
def Hears (s : GatewayServer) (ex : Option Units) (x : WsId) : Prop :=
  some (s.sessions x).id ≠ ex ∧ (s.sessions x).welcomed = true ∧ (s.sessions x).ws = .opened

instance (s : GatewayServer) (ex : Option Units) (x : WsId) : Decidable (s.Hears ex x) :=
  inferInstanceAs (Decidable (_ ∧ _))

/-- What one step of a broadcast sends. -/
theorem sent_broadcast_one (s : GatewayServer) (m : ServerMessage) (ex : Option Units)
    (about : List WsId) (y x : WsId) :
    (if some (s.sessions y).id = ex then s
      else if !(s.sessions y).welcomed then s
      else s.sendTo y m about).sent x =
      s.sent x ++ if y = x ∧ s.Hears ex x then [⟨m, about⟩] else [] := by
  by_cases hyx : y = x
  · subst hyx
    by_cases hh : s.Hears ex y
    · obtain ⟨h1, h2, h3⟩ := hh
      have hh : s.Hears ex y := ⟨h1, h2, h3⟩
      simp [h1, h2, h3, hh, sendTo]
    · have hn : ¬(y = y ∧ s.Hears ex y) := fun h => hh h.2
      rw [if_neg hn, List.append_nil]
      split_ifs with h1 h2
      · rfl
      · rfl
      · unfold sendTo
        rw [if_neg fun ho => hh ⟨h1, by simpa using h2, ho⟩]
  · have hn : ¬(y = x ∧ s.Hears ex x) := fun h => hyx h.1
    rw [if_neg hn, List.append_nil]
    split_ifs
    · rfl
    · rfl
    · unfold sendTo
      split
      · exact Function.update_of_ne (Ne.symm hyx) ..
      · rfl

/-- What a broadcast sends to each session. -/
theorem sent_broadcastToAll (s : GatewayServer) (m : ServerMessage) (ex : Option Units)
    (about : List WsId) (x : WsId) :
    (s.broadcastToAll m ex about).sent x =
      s.sent x ++ if s.Hears ex x then List.replicate (s.roster.values.count x)
      ⟨m, about⟩ else [] := by
  unfold broadcastToAll
  generalize s.roster.values = l
  induction l generalizing s with
  | nil => simp
  | cons y l ih =>
    have hone := sent_broadcast_one s m ex about y x
    rw [List.foldl_cons, ih]
    generalize hu : (if some (s.sessions y).id = ex then s
      else if !(s.sessions y).welcomed then s
      else s.sendTo y m about) = u at hone ⊢
    have hs : u.sessions = s.sessions := by
      rw [← hu]
      split_ifs
      · rfl
      · rfl
      · rw [sendTo_eq]
    have hh : u.Hears ex x ↔ s.Hears ex x := by rw [Hears, Hears, hs]
    rw [hone, List.append_assoc]
    by_cases hx : s.Hears ex x
    · by_cases hyx : y = x
      · simp [hh, hx, hyx, List.replicate_succ]
      · simp [hh, hx, hyx]
    · simp [hh, hx]

/-- **A broadcast reaches** every session in the roster that has been welcomed, that is not
left out, and whose WebSocket is open. -/
theorem broadcast_reaches (hx : s.Reached w) (ho : (s.sessions w).ws = .opened) (m : ServerMessage)
    {ex : Option Units} (hne : some (s.sessions w).id ≠ ex) (about : List WsId) :
    s.sent w ++ [⟨m, about⟩] <+: (s.broadcastToAll m ex about).sent w := by
  have hh : s.Hears ex w := ⟨hne, hx.2, ho⟩
  obtain ⟨n, hn⟩ := Nat.exists_eq_succ_of_ne_zero (List.count_pos_iff.mpr hx.1).ne'
  rw [sent_broadcastToAll, if_pos hh, hn, List.replicate_succ]
  exact (List.prefix_append_right_inj _).mpr ⟨_, rfl⟩

/-- **A session takes out only itself**: if no session joins under an account while another
session of it has yet to be taken out, then an entry of the roster is taken out only by
the close event or the failed `connect` of the session it leads to; and a session that is
authenticated, that has not been closed and whose `connect` has not failed is found under
its id, and reached by broadcasts. -/
theorem removes_own_only {env : Env} {config : GatewayConfig}
    (h : PathIn step JoinsAlone (init env config) past s) :
    (∀ e s', s.step e = some s' → ∀ id x, s.roster.find? id = some x → s'.roster.find? id = none →
      e = .wsClose x ∨ ∃ b, e = .connectFailed b ∧ (s.backends b).owner = x) ∧
    ∀ w, (s.sessions w).authenticated = true → (s.sessions w).closed = false →
      ¬ConnectFailed past w →
      s.roster.find? (s.sessions w).id = some w ∧
      ∀ m ex about, (s.sessions w).welcomed = true → (s.sessions w).ws = .opened →
        some (s.sessions w).id ≠ ex →
        s.sent w ++ [⟨m, about⟩] <+: (s.broadcastToAll m ex about).sent w := by
  have hf := found_of_path h
  refine ⟨fun e s' hs id x hx hn => hf.removed hs hx hn, ?_⟩
  intro w ha hc hn
  have hk := hf.kept w ha hc hn
  exact ⟨hk, fun m ex about hw ho hne =>
    broadcast_reaches ⟨OrdMap.mem_values.mpr ⟨_, hk⟩, hw⟩ ho m hne about⟩

/-- A `login` message. -/
def loginMessage (username : String) : Json :=
  .obj [(units "type", .str (units "login")), (units "username", .str (units username)),
    (units "password", .str (units "password"))]

/-- The `connect` of a session fails, its WebSocket closes, and the account logs in again. -/
def loginAfterClose : List Event :=
  oneRegister ++ [.connectFailed 0, .wsClose 0, .connection,
    .message 1 70 (some (loginMessage "alice")), .authDone 0,
    .connected 1]

/-- The account logs in again before the WebSocket has closed. -/
def loginBeforeClose : List Event :=
  oneRegister ++ [.connectFailed 0, .connection, .message 1 70 (some (loginMessage "alice")),
    .authDone 0, .connected 1]

set_option maxRecDepth 8000 in
theorem found_after_login :
    ∃ past s, PathIn step JoinsAlone (init .sample {}) past s ∧ (s.sessions 1).id = [3] ∧
      s.roster.find? [3] = some 1 := by
  have h : (execAllIn step JoinsAlone (init .sample {}) loginAfterClose).map (fun s =>
      ((s.sessions 1).id, (s.sessions 1).authenticated, (s.sessions 1).closed)) =
      some ([3], true, false) := by decide
  obtain ⟨s, hs, he⟩ := exists_pathIn_of_execAllIn h
  simp only [Prod.mk.injEq] at he
  obtain ⟨hid, ha, hc⟩ := he
  have hn : ¬ConnectFailed (trace step (init .sample {}) loginAfterClose) 1 := by decide
  exact ⟨_, s, hs, hid, hid ▸ ((removes_own_only hs).2 1 ha hc hn).1⟩

set_option maxRecDepth 8000 in
/-- **A session may take out another**: the close event of a session whose `connect` has
failed takes out the session that has logged in to the account since. -/
theorem close_takes_out_other :
    ∃ s s', Run step (init .sample {}) s ∧ s.step (.wsClose 0) = some s' ∧
      s.roster.find? [3] = some 1 ∧ s'.roster.find? [3] = none ∧
      (s'.sessions 1).authenticated = true ∧ (s'.sessions 1).closed = false ∧
      (s'.backends 1).socket = .opened := by
  have h : (execAll step (init .sample {}) loginBeforeClose).bind
      (fun s => (s.step (.wsClose 0)).map fun s' =>
      (s.roster.find? [3], s'.roster.find? [3], (s'.sessions 1).authenticated,
        (s'.sessions 1).closed,
        (s'.backends 1).socket)) = some (some 1, none, true, false, .opened) := by decide
  obtain ⟨s, hs, h⟩ := Option.bind_eq_some_iff.mp h
  obtain ⟨s', hs', he⟩ := Option.map_eq_some_iff.mp h
  simp only [Prod.mk.injEq] at he
  exact ⟨s, s', run_of_execAll hs, hs', he⟩

end GatewayServer

end ThreadLink.Gateway
