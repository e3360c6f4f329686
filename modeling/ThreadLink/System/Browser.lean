import ThreadLink.Frontend.ChatProvider
import ThreadLink.Gateway.Authentication

/-!
# A browser and the gateway

The browser opens one WebSocket after the other, and each has a session of its own at the gateway.
Once the browser shows a user, what it sends is to be taken as that user's. It logs in when the user
asks for it, but not when the transport has connected again by itself.

## The model

* `arrive` — a WebSocket of the browser reaches the gateway, which makes a session.
* What the gateway has sent to the session arrives in order, until the socket closes.
* What arrives at the gateway is left open: any message on any WebSocket.

## What is proved

* `acts_as_user` — in the runs in which no socket opens while the browser shows a user, and no
  session that has announced an account takes on another, the current session is authenticated as
  the user.
-/

namespace ThreadLink

open Text Gateway Runs Frontend

namespace Gateway.GatewayServer

variable {s s' t u : GatewayServer} {e : Event} {w x : WsId}

/-! ### What `ready` says -/

/-- A session has the id it had, or takes on an account. -/
theorem Joined.id_step (h : Joined s) (hs : s.step e = some s')
    (ha : (s.sessions x).authenticated = true) :
    (s'.sessions x).id = (s.sessions x).id ∨ (x, (s'.sessions x).id) ∈ s.joinsAs e := by
  obtain ⟨t, hc, hd⟩ := step_deeds hs
  obtain ⟨p, q, hx⟩ := hd.same.sessions x
  have hid : (s'.sessions x).id = (t.sessions x).id := by rw [hx]
  rw [hid]
  cases hc.moves with
  | arrives =>
    rw [sessions_onConnection_of_ne s (Nat.ne_of_lt (h.lt_nextWs ha))]
    exact .inl rfl
  | @joins i w a account users hi ho helse =>
    by_cases hxw : x = w
    · subst hxw
      rw [sessions_join_self]
      exact .inr (mem_joinsAs hi ho helse)
    · rw [sessions_join_of_ne _ hxw]
      exact .inl rfl
  | leaves hs => exact .inl (hs.sessions x).links.id
  | fails hs => exact .inl (hs.sessions x).links.id
  | stays hs => exact .inl (hs.sessions x).links.id

/-- A `ready` is no error, and is for the account of the session. -/
theorem id_of_sends {c : Cause} {m : Sent} (hm : Sends u c x m) {userId : Units}
    (hr : ChatProvider.readyFor m.message = some userId) :
    m.message.isError = false ∧ (u.sessions x).id = userId := by
  cases hm with
  | error => cases hr
  | loggedOut => cases hr
  | told _ ht =>
    cases ht with
    | ready hc => exact ⟨rfl, Option.some.inj hr⟩
    | _ => cases hr

/-- A `ready` that is sent is for the account of the session. -/
theorem Joined.ready_step (h : Joined s) (hs : s.step e = some s') {m : Sent} (hm : m ∈ s'.sent x)
    {userId : Units} (hr : ChatProvider.readyFor m.message = some userId) :
    m ∈ s.sent x ∨ (s'.sessions x).authenticated = true ∧ (s'.sessions x).id = userId := by
  obtain ⟨t, hc, hd, hsent⟩ := step_sent hs
  obtain ⟨extra, he, hq⟩ := hsent x
  rw [he] at hm
  rcases List.mem_append.mp hm with hm | hm
  · exact .inl hm
  · obtain ⟨u, c, hu, hcc, hsends, hd'⟩ := hq m hm
    obtain ⟨p, q, hx⟩ := hd'.same.sessions x
    obtain ⟨herror, hid⟩ := id_of_sends hsends hr
    right
    rw [hx]
    refine ⟨(h.sends hs hc hu hcc hsends).resolve_left ?_, hid⟩
    rw [herror]
    exact Bool.false_ne_true

/-- Only errors are sent to a session that is not authenticated. -/
theorem Joined.errors_step (h : Joined s)
    (herrors : ∀ w, (s.sessions w).authenticated = false → ∀ m ∈ s.sent w, m.message.isError = true)
    (hs : s.step e = some s') :
    ∀ w, (s'.sessions w).authenticated = false → ∀ m ∈ s'.sent w, m.message.isError = true := by
  intro w ha m hm
  obtain ⟨t, hc, hd, hsent⟩ := step_sent hs
  obtain ⟨extra, he, hq⟩ := hsent w
  rw [he] at hm
  rcases List.mem_append.mp hm with hm | hm
  · refine herrors w ?_ m hm
    rw [← Bool.not_eq_true] at ha ⊢
    exact fun hauth => ha (h.authenticated_step hs hauth)
  · obtain ⟨u, c, hu, hcc, hsends, hd'⟩ := hq m hm
    apply (h.sends hs hc hu hcc hsends).resolve_right
    intro hau
    rw [← hd'.authenticated, ha] at hau
    cases hau

end Gateway.GatewayServer

theorem readyFor_of_isError {m : ServerMessage} (h : m.isError = true) :
    ChatProvider.readyFor m = none := by
  cases m with
  | error => rfl
  | _ => cases h

/-! ### The machine -/

/-- A browser and the gateway. -/
structure Browsing where
  /-- The gateway. -/
  gateway : GatewayServer
  /-- The browser. -/
  browser : ChatProvider
  /-- The session of a socket that has arrived. -/
  session : SocketId → Option WsId
  /-- How many events of its session have arrived at a socket. -/
  arrived : SocketId → ℕ

namespace Browsing

/-- Both are started. -/
def init (env : Env) (config : GatewayConfig) (gatewayUrl : Units) : Browsing where
  gateway := .init env config
  browser := .init gatewayUrl
  session _ := none
  arrived _ := 0

/-- What can happen. -/
inductive Event where
  /-- The gateway handles an event. -/
  | gateway (e : GatewayServer.Event)
  /-- A socket reaches the gateway. -/
  | arrive (id : SocketId)
  /-- The next event of its session arrives at a socket. -/
  | message (id : SocketId) (uuid now : Units)
  /-- Anything else at the browser. -/
  | browser (e : ChatProvider.Event)

/-- The state of a socket, if it has not fired `close`. -/
def socket? (s : Browsing) (id : SocketId) : Option WebSocket :=
  s.browser.clientRef.bind fun client => client.sockets.find? id

/-- What the network lets happen at the browser: a socket opens when it has arrived, and messages
are those of the session. -/
def possible (s : Browsing) : ChatProvider.Event → Bool
  | .transport (.opened id) _ _ => (s.session id).isSome
  | .transport (.message _ _) _ _ => false
  | _ => true

/-- One event. -/
def step (s : Browsing) : Event → Option Browsing
  | .gateway e => do
    let gateway ← s.gateway.step e
    some { s with gateway := gateway }
  | .arrive id => do
    guard ((s.socket? id).isSome ∧ s.session id = none)
    let gateway ← s.gateway.step .connection
    some { s with
      gateway := gateway
      session := Function.update s.session id (some s.gateway.nextWs) }
  | .message id uuid now => do
    let w ← s.session id
    let m ← (s.gateway.sent w)[s.arrived id]?
    let browser ← s.browser.step (.transport (.message id (some m.message)) uuid now)
    some { s with browser := browser, arrived := Function.update s.arrived id (s.arrived id + 1) }
  | .browser e => do
    guard (s.possible e)
    let browser ← s.browser.step e
    some { s with browser := browser }

/-- The session of the current socket. -/
def current (s : Browsing) : Option WsId :=
  (s.browser.clientRef.bind ThreadLinkClient.socket).bind s.session

/-- **The claim**: what the browser sends is taken as that of the user it shows. -/
def ActsAsUser (s : Browsing) : Prop :=
  ∀ userId, s.browser.state.userId = some userId → s.browser.state.connectionStatus = .connected →
    ∃ w, s.current = some w ∧ (s.gateway.sessions w).authenticated = true ∧
      (s.gateway.sessions w).id = userId

/-- **The condition**: no socket opens while the browser shows a user, and no session of the browser
that has announced an account takes on another. -/
def Undisturbed (s : Browsing) : Event → Prop
  | .browser (.transport (.opened id) _ _) =>
    s.browser.clientRef.bind ThreadLinkClient.socket = some id →
    s.browser.state.userId = none
  | .gateway e =>
    ∀ j ∈ s.gateway.joinsAs e, (∃ id, s.session id = some j.1) → ∀ m ∈ s.gateway.sent j.1,
    ∀ userId, ChatProvider.readyFor m.message = some userId → userId = j.2
  | _ => True

/-! ### The invariant -/

variable {s s' : Browsing} {e : Event}

/-- How browser and gateway hang together. -/
structure InTouch (s : Browsing) : Prop where
  /-- Only authenticated sessions join. -/
  joined : s.gateway.Joined
  /-- A session that is not authenticated has been sent errors. -/
  errors : ∀ w, (s.gateway.sessions w).authenticated = false →
    ∀ m ∈ s.gateway.sent w, m.message.isError = true
  /-- A session of the browser that has announced an account has it. -/
  announced : ∀ id w, s.session id = some w → ∀ m ∈ s.gateway.sent w, ∀ userId,
    ChatProvider.readyFor m.message = some userId →
      (s.gateway.sessions w).authenticated = true ∧ (s.gateway.sessions w).id = userId
  /-- Without a transport there is nothing to show. -/
  idle : s.browser.clientRef = none → s.browser.state.connectionStatus = .idle ∧
    s.browser.state.userId = none
  /-- The transport. -/
  steady : ∀ client, s.browser.clientRef = some client → client.Steady ∧
    s.browser.state.connectionStatus = client.status ∧
    (client.status = .connected → ∃ id, client.socket = some id ∧ (s.session id).isSome)
  /-- The user has been announced by the current session. -/
  user : ∀ userId, s.browser.state.userId = some userId →
    s.browser.state.connectionStatus = .connected →
    ∃ w, s.current = some w ∧ ∃ m ∈ s.gateway.sent w, ChatProvider.readyFor m.message = some userId

theorem InTouch.actsAsUser (h : InTouch s) : ActsAsUser s := by
  intro userId hu hc
  obtain ⟨w, hw, m, hm, hr⟩ := h.user userId hu hc
  obtain ⟨id, -, hid⟩ := Option.bind_eq_some_iff.mp hw
  exact ⟨w, hw, h.announced id w hid m hm userId hr⟩

theorem inTouch_init (env : Env) (config : GatewayConfig) (gatewayUrl : Units) :
    InTouch (init env config gatewayUrl) where
  joined := GatewayServer.joined_init env config
  errors w _ m hm := absurd hm List.not_mem_nil
  announced id w hw := by cases hw
  idle _ := ⟨rfl, rfl⟩
  steady client hc := by cases hc
  user userId hu := by cases hu

/-- An event of the gateway. -/
theorem InTouch.gateway (h : InTouch s) {e : GatewayServer.Event} {g : GatewayServer}
    (hs : s.gateway.step e = some g)
    (hC : ∀ j ∈ s.gateway.joinsAs e, (∃ id, s.session id = some j.1) → ∀ m ∈ s.gateway.sent j.1,
      ∀ userId, ChatProvider.readyFor m.message = some userId → userId = j.2) :
    InTouch { s with gateway :=
  g } where
  joined := h.joined.step hs
  errors := h.joined.errors_step h.errors hs
  announced id w hw m hm userId hr := by
    rcases h.joined.ready_step hs hm hr with hm | hnew
    · obtain ⟨ha, hid⟩ := h.announced id w hw m hm userId hr
      refine ⟨h.joined.authenticated_step hs ha, ?_⟩
      rcases h.joined.id_step hs ha with hsame | hj
      · exact hsame.trans hid
      · exact (hC _ hj ⟨id, hw⟩ m hm userId hr).symm
    · exact hnew
  idle := h.idle
  steady := h.steady
  user userId hu hc := by
    obtain ⟨w, hw, m, hm, hr⟩ := h.user userId hu hc
    obtain ⟨t, -, -, hsent⟩ := GatewayServer.step_sent hs
    obtain ⟨extra, he, -⟩ := hsent w
    exact ⟨w, hw, m, he ▸ List.mem_append_left _ hm, hr⟩

/-- A socket arrives: its session has been sent nothing but errors. -/
theorem InTouch.arrive (h : InTouch s) {id : SocketId} (hid : s.session id = none) :
    InTouch { s with session := Function.update s.session id (some s.gateway.nextWs) } := by
  have hother {id' : SocketId} {w : WsId} (hw : s.session id' = some w) :
      Function.update s.session id (some s.gateway.nextWs) id' = some w := by
    rw [Function.update_of_ne]
    · exact hw
    · rintro rfl
      rw [hid] at hw
      cases hw
  refine ⟨h.joined, h.errors, ?_, h.idle, ?_, ?_⟩
  · intro id' w hw m hm userId hr
    dsimp only at hw
    by_cases hne : id' = id
    · -- the session has not arrived yet
      subst hne
      rw [Function.update_self] at hw
      obtain rfl := Option.some.inj hw
      rw [readyFor_of_isError (h.errors _ (h.joined.unborn _ le_rfl).2 m hm)] at hr
      cases hr
    · rw [Function.update_of_ne hne] at hw
      exact h.announced id' w hw m hm userId hr
  · intro client hc
    obtain ⟨hsteady, hstatus, hconn⟩ := h.steady client hc
    refine ⟨hsteady, hstatus, ?_⟩
    intro hc
    obtain ⟨id', hid', hw⟩ := hconn hc
    obtain ⟨w, hw⟩ := Option.isSome_iff_exists.mp hw
    exact ⟨id', hid', Option.isSome_iff_exists.mpr ⟨w, hother hw⟩⟩
  · intro userId hu hc
    obtain ⟨w, hw, hm⟩ := h.user userId hu hc
    obtain ⟨id', hid', hw⟩ := Option.bind_eq_some_iff.mp hw
    exact ⟨w, Option.bind_eq_some_iff.mpr ⟨id', hid', hother hw⟩, hm⟩

/-- An event of the browser. -/
theorem InTouch.browser (h : InTouch s) {e : ChatProvider.Event} {p : ChatProvider}
    (hs : s.browser.step e = some p) (arrived : SocketId → ℕ)
    (hopen : ∀ id uuid now, e = .transport (.opened id) uuid now → (s.session id).isSome ∧
      (s.browser.clientRef.bind ThreadLinkClient.socket = some id → s.browser.state.userId = none))
    (hmessage : ∀ id m uuid now, e = .transport (.message id (some m)) uuid now →
      ∃ w, s.session id = some w ∧ ∃ m' ∈ s.gateway.sent w, m'.message = m) :
    InTouch { s with browser := p, arrived := arrived } := by
  cases ChatProvider.change_of_step hs with
  | kept hk =>
    refine ⟨h.joined, h.errors, h.announced, ?_, ?_, ?_⟩
    · intro hc
      obtain ⟨h1, h2⟩ := h.idle (hk.clientRef.symm.trans hc)
      exact ⟨hk.connectionStatus.trans h1, hk.userId.trans h2⟩
    · intro client hc
      obtain ⟨h1, h2, h3⟩ := h.steady client (hk.clientRef.symm.trans hc)
      exact ⟨h1, hk.connectionStatus.trans h2, h3⟩
    · intro userId hu hc
      obtain ⟨w, hw, hm⟩ :=
        h.user userId (hk.userId.symm.trans hu) (hk.connectionStatus.symm.trans hc)
      refine ⟨w, ?_, hm⟩
      show (p.clientRef.bind ThreadLinkClient.socket).bind s.session = some w
      rw [hk.clientRef]
      exact hw
  | @created _ _ thrown hn hc hstatus hu =>
    have hne := ThreadLinkClient.status_connect (.init true 5) thrown
    refine ⟨h.joined, h.errors, h.announced, ?_, ?_, ?_⟩
    · intro hnone
      exact absurd (hc.symm.trans hnone) (by simp)
    · intro client hc'
      obtain rfl := Option.some.inj (hc.symm.trans hc')
      exact ⟨(ThreadLinkClient.steady_init true 5).connect thrown, hstatus, fun hc => absurd hc hne⟩
    · intro userId hu'
      have hnone := (h.idle hn).2
      rw [hu userId hu'] at hnone
      cases hnone
  | @transport event uuid now client client' _ hf hc hs' hfollows =>
    obtain ⟨hsteady, hstatus, hconn⟩ := h.steady client hc
    have hstatus' : p.state.connectionStatus = client'.status := by
      rw [hfollows.connectionStatus, ThreadLinkClient.told_step hs']
      exact congrArg (List.foldl _ · _) hstatus
    have hclient : p.clientRef = some client' := hfollows.clientRef
    refine ⟨h.joined, h.errors, h.announced, ?_, ?_, ?_⟩
    · intro hnone
      exact absurd (hclient.symm.trans hnone) (by simp)
    · intro client'' hc''
      obtain rfl := Option.some.inj (hclient.symm.trans hc'')
      refine ⟨hsteady.step hs', hstatus', ?_⟩
      intro hcon
      obtain ⟨hsocket, hwas | ⟨id, rfl, hid⟩⟩ := ThreadLinkClient.connected_step hsteady hs' hcon
      · obtain ⟨id, hid, hw⟩ := hconn hwas
        exact ⟨id, hsocket.trans hid, hw⟩
      · exact ⟨id, hsocket.trans hid, (hopen id uuid now rfl).1⟩
    · intro userId hu hcon
      have hcurrent : (p.clientRef.bind ThreadLinkClient.socket).bind s.session =
          client'.socket.bind s.session := by
        rw [hclient]
        rfl
      have hbefore : s.current = client.socket.bind s.session := by
        rw [current, hc]
        rfl
      obtain ⟨hsocket, hwas⟩ :=
        ThreadLinkClient.connected_step hsteady hs' (hstatus'.symm.trans hcon)
      rcases hfollows.userId userId hu with hold | ⟨m, hm, hr⟩
      · rcases hwas with hwas | ⟨id, rfl, hid⟩
        · obtain ⟨w, hw, hm⟩ := h.user userId hold (hstatus.trans hwas)
          refine ⟨w, hcurrent.trans ?_, hm⟩
          rw [hsocket, ← hbefore]
          exact hw
        · -- it is just open, and the browser shows no user
          have hnone := (hopen id uuid now rfl).2 (by rw [hc]; exact hid)
          rw [show s.browser.state.userId = some userId from hold] at hnone
          cases hnone
      · obtain ⟨id, rfl, hid⟩ := ThreadLinkClient.event_step hsteady hs' hm
        obtain ⟨w, hw, m', hm', rfl⟩ := hmessage id m uuid now rfl
        refine ⟨w, hcurrent.trans ?_, m', hm', hr⟩
        rw [hsocket, hid]
        exact hw

/-- **One event.** -/
theorem InTouch.step (h : InTouch s) (hC : Undisturbed s e) (hs : s.step e = some s') :
    InTouch s' := by
  cases e with
  | gateway e =>
    obtain ⟨g, hg, hs⟩ := Option.bind_eq_some_iff.mp hs
    cases hs
    exact h.gateway hg hC
  | arrive id =>
    obtain ⟨u, hguard, hs⟩ := Option.bind_eq_some_iff.mp hs
    obtain ⟨g, hg, hs⟩ := Option.bind_eq_some_iff.mp hs
    cases hs
    have harrived := h.arrive ((Option.guard_eq_some' _).mp hguard).2
    exact harrived.gateway hg fun j hj => by cases hj
  | message id uuid now =>
    obtain ⟨w, hw, hs⟩ := Option.bind_eq_some_iff.mp hs
    obtain ⟨m, hm, hs⟩ := Option.bind_eq_some_iff.mp hs
    obtain ⟨p, hp, hs⟩ := Option.bind_eq_some_iff.mp hs
    cases hs
    refine h.browser hp _ (fun id' uuid' now' he => by cases he) ?_
    intro id' m' uuid' now' he
    cases he
    exact ⟨w, hw, m, List.mem_of_getElem? hm, rfl⟩
  | browser e =>
    obtain ⟨u, hguard, hs⟩ := Option.bind_eq_some_iff.mp hs
    obtain ⟨p, hp, hs⟩ := Option.bind_eq_some_iff.mp hs
    cases hs
    have hpossible := (Option.guard_eq_some' _).mp hguard
    apply h.browser hp _
    · intro id uuid now he
      cases he
      exact ⟨hpossible, hC⟩
    · intro id m uuid now he
      cases he
      cases hpossible

/-- **Acting as the user.** In every run in which no socket opens while the browser shows a user,
and no session of the browser that has announced an account takes on another, whatever else
happens: whenever the browser shows a user and is connected, the session of its current socket
is authenticated as that user. -/
theorem acts_as_user {env : Env} {config : GatewayConfig} {gatewayUrl : Units}
    (h : RunIn step Undisturbed (init env config gatewayUrl) s) : ActsAsUser s := by
  have hI : InTouch s := by
    apply h.invariant (I := InTouch) (inTouch_init env config gatewayUrl)
    intro s e s' hI hC hs
    exact hI.step hC hs
  exact hI.actsAsUser

/-- The user registers, and `ready` arrives. -/
def logsIn : List Event :=
  [.browser (.mount none), .arrive 0, .browser (.transport (.opened 0) [] []),
    .browser (.authenticate (.register (units "alice") (units "password")) none),
    .gateway (.message 0 70 (some (GatewayServer.registerMessage "alice"))), .gateway (.authDone 0),
    .gateway (.connected 0),
    .gateway (.backendFrame 0 (bytes "WELCOME User1")),
    .gateway (.backendFrame 0 (bytes "NICK User1 alice")),
    .message 0 [] []]

/-- A test for the condition: a session that joins has been sent nothing. -/
def joinsFirst (s : Browsing) : Event → Bool
  | .browser (.transport (.opened _) _ _) => s.browser.state.userId == none
  | .gateway e => (s.gateway.joinsAs e).all fun j => (s.gateway.sent j.1).isEmpty
  | _ => true

theorem undisturbed_of_joinsFirst (h : joinsFirst s e = true) : Undisturbed s e := by
  cases e with
  | gateway e =>
    intro j hj _ m hm
    have hempty : (s.gateway.sent j.1).isEmpty = true := by
      replace h : (s.gateway.joinsAs e).all (fun j => (s.gateway.sent j.1).isEmpty) = true := h
      rw [Option.mem_def.mp hj] at h
      exact h
    rw [List.isEmpty_iff.mp hempty] at hm
    cases hm
  | browser e =>
    cases e with
    | transport event uuid now =>
      cases event with
      | opened id => exact fun _ => beq_iff_eq.mp h
      | _ => trivial
    | _ => trivial
  | _ => trivial

set_option maxRecDepth 16000 in
theorem alice_acts_as_alice : ∃ s : Browsing, s.browser.state.userId = some [3] ∧
    ∃ w, s.current = some w ∧ (s.gateway.sessions w).authenticated = true ∧
      (s.gateway.sessions w).id = [3] := by
  obtain ⟨s, h, hu, hc⟩ :=
    exists_runIn_of_any step (fun s e => joinsFirst s e = true) (init .sample {} []) logsIn
    (fun s => s.browser.state.userId = some [3] ∧ s.browser.state.connectionStatus = .connected)
      (by decide)
  exact ⟨s, hu, acts_as_user (h.mono fun _ _ => undisturbed_of_joinsFirst) [3] hu hc⟩

/-- The connection drops, and the transport connects again. -/
def connectsAgain : List Event :=
  logsIn ++ [.browser (.transport (.close 0) [] []), .gateway (.wsClose 0),
    .browser (.transport (.timer 0 none) [] []),
    .arrive 1, .browser (.transport (.opened 1) [] [])]

set_option maxRecDepth 16000 in
/-- **Nobody logs in again**: the browser still shows the user and is connected, but the session of
the new socket is not authenticated. -/
theorem session_is_nobody : ¬ ∀ s, Run step (init .sample {} []) s → ActsAsUser s := by
  intro hall
  obtain ⟨s, h, hu, hc, hw, ha⟩ := exists_run_of_any step (init .sample {} []) connectsAgain
    (fun s => s.browser.state.userId = some [3] ∧ s.browser.state.connectionStatus = .connected ∧
      s.current = some 1 ∧
      (s.gateway.sessions 1).authenticated = false) (by decide)
  obtain ⟨w, hw', ha', -⟩ := hall s h [3] hu hc
  obtain rfl := Option.some.inj (hw.symm.trans hw')
  rw [ha] at ha'
  cases ha'

end Browsing

end ThreadLink
