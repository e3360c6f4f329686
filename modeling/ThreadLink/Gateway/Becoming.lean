import ThreadLink.Gateway.Sessions

/-!
# What becomes of a session

A step changes few things of a session besides its presence and its queue, which are its
own. Each is named here once, so that what holds of a session is a case analysis of it.

## What is proved

* `Change.becomes` — what a change makes of each session.
* `step_hears` — what a session goes by after a frame, and `goesBy_step`, after anything else.
-/

namespace ThreadLink.Gateway

open Text Runs

/-- Whether a session has been welcomed, and what it goes by. -/
def Session.goesBy (session : Session) : Bool × Units := (session.welcomed, session.nickname)

/-- What it goes by after an event of the chat server. -/
def Session.hear (session : Session) : BackendEvent → Bool × Units
  | .welcome nickname => (true, nickname)
  | .nick oldNick newNick =>
    (session.welcomed, if oldNick = session.nickname then newNick else session.nickname)
  | _ => session.goesBy

namespace GatewayServer

variable {s s' t : GatewayServer} {e : Event} {w x : WsId}

/-- What an event makes of a session. -/
inductive Becomes (s : GatewayServer) (x : WsId) : Event → Session → Prop where
  /-- Nothing happens to it. -/
  | stays {e : Event} : Becomes s x e (s.sessions x)
  /-- The gateway or the browser starts to close it. -/
  | closing {e : Event} (h : (s.sessions x).ws = .opened) :
    Becomes s x e { s.sessions x with ws := .closing }
  /-- It arrives. -/
  | arrives (h : x = s.nextWs) :
    Becomes s x .connection { id := units "pending:" ++ s.env.uuid s.draws, ws := .opened }
  /-- It has closed. -/
  | closed (h : s.live x) :
    Becomes s x (.wsClose x) { s.sessions x with ws := .closed, closed := true }
  /-- It joins. -/
  | joins {i : ℕ} {a : Attempt} {account : UserRecord} {users : Users}
    (h : s.hashing[i]? = some (x, a))
    (ho : s.outcome a = some (account, users)) (hc : s.connectedElsewhere account.id = false) :
    Becomes s x (.authDone i) (Session.joined (s.sessions x) account s.nextBackend)
  /-- It is welcomed and has to claim its username. -/
  | welcome {b : BackendId} {p : Bytes} {nickname : Units} (hb : (s.backends b).socket = .opened)
    (ho : (s.backends b).owner = x) (he : parseBackendLine (utf8Decode p) = .welcome nickname)
    (hm : ((s.sessions x).welcome nickname).mustClaim = true) :
    Becomes s x (.backendFrame b p) ((s.sessions x).welcome nickname)
  /-- It is welcomed and is ready. -/
  | welcomeReady {b : BackendId} {p : Bytes} {nickname : Units}
    (hb : (s.backends b).socket = .opened)
    (ho : (s.backends b).owner = x) (he : parseBackendLine (utf8Decode p) = .welcome nickname)
    (hm : ((s.sessions x).welcome nickname).mustClaim = false) :
    Becomes s x (.backendFrame b p) ((s.sessions x).welcome nickname).ready
  /-- It takes a `NICK` for its own and is ready. -/
  | nickReady {b : BackendId} {p : Bytes} {newNick : Units} (hb : (s.backends b).socket = .opened)
    (ho : (s.backends b).owner = x)
      (he : parseBackendLine (utf8Decode p) = .nick (s.sessions x).nickname newNick)
    (hr : (s.sessions x).readyAnnounced = false) :
    Becomes s x (.backendFrame b p) ((s.sessions x).rename newNick).ready
  /-- It is ready and takes a `NICK` for its own. -/
  | rename {b : BackendId} {p : Bytes} {newNick : Units} (hb : (s.backends b).socket = .opened)
    (ho : (s.backends b).owner = x)
      (he : parseBackendLine (utf8Decode p) = .nick (s.sessions x).nickname newNick)
    (hr : (s.sessions x).readyAnnounced = true) :
    Becomes s x (.backendFrame b p) ((s.sessions x).rename newNick)

/-! ### What closes sessions -/

/-- A session that has been left alone, or that is being closed. -/
def Session.Shut (y z : Session) : Prop := z = y ∨ y.ws = .opened ∧ z = { y with ws := .closing }

theorem Session.Shut.trans {y z z' : Session} (h : Session.Shut y z) (h' : Session.Shut z z') :
    Session.Shut y z' := by
  rcases h with rfl | ⟨ho, rfl⟩
  · exact h'
  · rcases h' with rfl | ⟨ho', -⟩
    · exact .inr ⟨ho, rfl⟩
    · cases ho'

theorem shut_closeWs (s : GatewayServer) (w x : WsId) :
    Session.Shut (s.sessions x) ((s.closeWs w).sessions x) := by
  unfold closeWs
  by_cases hx : x = w
  · subst hx
    rw [sessions_modifySession_self]
    split
    · exact .inr ⟨‹_›, rfl⟩
    · exact .inl rfl
  · rw [sessions_modifySession_of_ne s hx]
    exact .inl rfl

theorem shut_close (s : GatewayServer) (x : WsId) :
    Session.Shut (s.sessions x) (s.close.sessions x) := by
  obtain ⟨t, ht, hc⟩ :=
    @close_rule s (fun t => Session.Shut (s.sessions x) (t.sessions x)) (.inl rfl)
    fun t w ht => ht.trans (sessions_closeBackend t w ▸ shut_closeWs (t.closeBackend w) w x)
  rw [hc]
  exact ht

theorem Becomes.of_shut {z : Session} (h : Session.Shut (s.sessions x) z) : Becomes s x e z := by
  rcases h with rfl | ⟨ho, rfl⟩
  · exact .stays
  · exact .closing ho

theorem sessions_leave_self (s : GatewayServer) (w : WsId) :
    (s.leave w).sessions w = { s.sessions w with closed := true } := by
  unfold leave
  dsimp only
  split
  · exact sessions_modifySession_self ..
  · rw [remove, sessions_closeBackend]
    exact sessions_modifySession_self ..

theorem sessions_leave_of_ne (s : GatewayServer) (h : x ≠ w) :
    (s.leave w).sessions x = s.sessions x := by
  unfold leave
  dsimp only
  split
  · exact sessions_modifySession_of_ne s h _
  · rw [remove, sessions_closeBackend]
    exact sessions_modifySession_of_ne s h _

/-! ### What a change makes of a session -/

theorem Becomes.modifySession {f : Session → Session}
    (h : x = w → Becomes s x e (f (s.sessions x))) :
    Becomes s x e ((s.modifySession w f).sessions x) := by
  by_cases hx : x = w
  · subst hx
    rw [sessions_modifySession_self]
    exact h rfl
  · rw [sessions_modifySession_of_ne s hx]
    exact .stays

/-- **What a change makes of a session.** -/
theorem Change.becomes (h : Change s e t) (x : WsId) : Becomes s x e (t.sessions x) := by
  cases h with
  | connection =>
    by_cases hx : x = s.nextWs
    · rw [hx, sessions_onConnection_self]
      exact .arrives rfl
    · rw [sessions_onConnection_of_ne s hx]
      exact .stays
  | message => exact .stays
  | raised => exact .stays
  | suspend => exact .stays
  | logout => exact .of_shut (shut_closeWs s _ x)
  | wsClosing => exact .of_shut (shut_closeWs s _ x)
  | @wsClose w hl =>
    by_cases hx : x = w
    · subst hx
      rw [sessions_leave_self, sessions_modifySession_self]
      exact .closed hl
    · rw [sessions_leave_of_ne _ hx, sessions_modifySession_of_ne s hx]
      exact .stays
  | @wsCloseAgain w hl hc =>
    refine .modifySession ?_
    intro hx
    subst hx
    have hc : ({ s.sessions x with ws := .closed } : Session) =
        { s.sessions x with ws := .closed, closed := true } := by
      rw [← hc]
    rw [hc]
    exact .closed hl
  | refused => exact .stays
  | elsewhere => exact .stays
  | @joined i w a account users hi ho hc =>
    by_cases hx : x = w
    · subst hx
      rw [sessions_join_self]
      exact .joins hi ho hc
    · rw [sessions_join_of_ne _ hx]
      exact .stays
  | connected => exact .stays
  | connectFailed => exact .of_shut (shut_closeWs _ _ x)
  | frame => exact .stays
  | nickTaken => exact .of_shut (shut_closeWs s _ x)
  | welcome hb he hm =>
    refine .modifySession ?_
    intro hx
    subst hx
    exact .welcome hb rfl he hm
  | welcomeReady hb he hm =>
    refine .modifySession ?_
    intro hx
    subst hx
    exact .welcomeReady hb rfl he hm
  | nickReady hb he hn hr =>
    refine .modifySession ?_
    intro hx
    subst hx
    exact .nickReady hb rfl (hn ▸ he) hr
  | @rename b _ _ newNick hb he hn hr =>
    refine Becomes.modifySession (w := (s.backends b).owner)
      (f := fun session => session.rename newNick) ?_
    intro hx
    subst hx
    exact .rename hb rfl (hn ▸ he) hr
  | oversized => exact .stays
  | @backendClose b _ f =>
    cases f with
    | true => exact .stays
    | false => exact .of_shut (shut_closeWs _ _ x)
  | shutdown => exact .of_shut (shut_close s x)

/-- What a step makes of a session: its presence and its queue are its own. -/
theorem step_becomes (hs : s.step e = some s') (x : WsId) :
    ∃ z presence pending, Becomes s x e z ∧
      s'.sessions x = { z with presence := presence, pending := pending } := by
  obtain ⟨t, hc, hd⟩ := step_deeds hs
  obtain ⟨presence, pending, hx⟩ := hd.same.sessions x
  exact ⟨_, presence, pending, hc.becomes x, hx⟩

/-! ### What a session goes by -/

theorem goesBy_closeWs (w x : WsId) :
    ((s.closeWs w).sessions x).goesBy = (s.sessions x).goesBy := by
  rcases shut_closeWs s w x with h | ⟨-, h⟩ <;> rw [h]
  rfl

/-- A frame arrives on an open connection. -/
theorem opened_of_frame {b : BackendId} {p : Bytes} (hs : s.step (.backendFrame b p) = some s') :
    (s.backends b).socket = .opened := by
  obtain ⟨t, hc, -⟩ := step_deeds hs
  cases hc <;> assumption

/-- **A frame tells its owner what it goes by.** -/
theorem step_hears {b : BackendId} {p : Bytes} (hs : s.step (.backendFrame b p) = some s') :
    (s'.sessions (s.backends b).owner).goesBy =
      (s.sessions (s.backends b).owner).hear (parseBackendLine (utf8Decode p)) := by
  obtain ⟨t, hc, hd⟩ := step_deeds hs
  obtain ⟨presence, pending, hx⟩ := hd.same.sessions (s.backends b).owner
  have hg : (s'.sessions (s.backends b).owner).goesBy =
      (t.sessions (s.backends b).owner).goesBy := by
    rw [hx]
    rfl
  rw [hg]
  cases hc with
  | frame hb hw hn =>
    cases he : parseBackendLine (utf8Decode p) with
    | welcome nickname => exact absurd he (hw nickname)
    | nick oldNick newNick =>
      show _ = (_, if oldNick = (s.sessions (s.backends b).owner).nickname then _ else _)
      rw [if_neg (hn oldNick newNick he)]
      rfl
    | _ => rfl
  | nickTaken hb he =>
    rw [he]
    exact goesBy_closeWs ..
  | welcome hb he =>
    rw [he, sessions_modifySession_self]
    rfl
  | welcomeReady hb he =>
    rw [he, sessions_modifySession_self]
    rfl
  | nickReady hb he hn =>
    rw [he, sessions_modifySession_self]
    show _ = (_, if _ then _ else _)
    rw [if_pos hn]
    rfl
  | @rename _ _ _ newNick hb he hn =>
    rw [he]
    show ((s.modifySession _ fun session => session.rename newNick).sessions _).goesBy =
      (_, if _ then _ else _)
    rw [sessions_modifySession_self, if_pos hn]
    rfl

/-- What else happens does not: a session that is there and has joined goes by the same. -/
theorem goesBy_step (hs : s.step e = some s')
    (ho : ∀ b p, e = .backendFrame b p → (s.backends b).owner ≠ x)
    (hx : e = .connection → x ≠ s.nextWs) : (s'.sessions x).goesBy = (s.sessions x).goesBy := by
  obtain ⟨z, presence, pending, hb, hz⟩ := step_becomes hs x
  rw [hz]
  cases hb with
  | stays | closing | closed | joins => rfl
  | arrives h => exact absurd h (hx rfl)
  | welcome _ how => exact absurd how (ho _ _ rfl)
  | welcomeReady _ how => exact absurd how (ho _ _ rfl)
  | nickReady _ how => exact absurd how (ho _ _ rfl)
  | rename _ how => exact absurd how (ho _ _ rfl)

/-- Who has joined stays so. -/
theorem unauthenticated_of_step (hs : s.step e = some s')
    (ha : (s'.sessions x).authenticated = false) :
    (s.sessions x).authenticated = false ∨ x = s.nextWs := by
  obtain ⟨z, presence, pending, hb, hz⟩ := step_becomes hs x
  rw [hz] at ha
  cases hb with
  | arrives h => exact .inr h
  | joins => cases ha
  | _ => exact .inl ha

/-- **`ready` says what the session goes by.** -/
theorem ready_of_step (hs : s.step e = some s') (x : WsId) :
    ∃ extra, s'.sent x = s.sent x ++ extra ∧ ∀ m ∈ extra, ∀ id n users conversations messages,
      m.message = .ready id n users conversations messages → n = (s'.sessions x).nickname := by
  obtain ⟨t, hc, hd⟩ := step_deeds hs
  obtain ⟨extra, he, hx⟩ := hd.sent x
  refine ⟨extra, hc.sent_eq ▸ he, ?_⟩
  intro m hm id n users conversations messages hr
  obtain ⟨u, c, -, -, hsends, hu⟩ := hx m hm
  cases hsends with
  | error | loggedOut => cases hr
  | told ho ht =>
    cases ht with
    | ready =>
      obtain ⟨-, rfl, -⟩ := ServerMessage.ready.inj hr
      obtain ⟨presence, pending, hs'⟩ := hu.same.sessions x
      rw [hs']
    | _ => cases hr

end GatewayServer

end ThreadLink.Gateway
