import ThreadLink.Gateway.Deeds

/-!
# What an event can change

Every event handler of the gateway makes one change to what the sessions, the roster,
the backend connections and the accounts are (`Change`); the rest are deeds: it sends
events, gives lines to the backend connection of the session it acts for, and keeps
messages and conversations.

## What is proved

* `step_deeds` — the change an event makes, and the causes of the deeds that follow. Every
  invariant of the gateway is derived from it.
* `step_change` — where it does not matter what the deeds are, they are `Quiet`.
-/

namespace ThreadLink.Gateway

open Text Relation

/-- An attempt that may wait for a hash: a valid name to register, or an account there is. -/
def Attempt.Sound (users : Users) : Attempt → Prop
  | .register username _ => validateUsername username = none
  | .login id username _ => users.usernameOf id = some username

/-- Whether a message is about the session itself: `register`, `login` or `logout`. -/
def ClientMessage.isSession : ClientMessage → Bool
  | .register _ _ | .login _ _ | .logout => true
  | _ => false

namespace GatewayServer

/-- Whether `handleClientMessage` forwards a message to the chat server. -/
def forwards (s : GatewayServer) : ClientMessage → Bool
  | .setNickname _ => true
  | .sendMessage .everyone _ => true
  | .sendMessage (.direct peerId) _ => (s.online? peerId).isSome
  | _ => false

/-- What `onClientRaw` passes to `handleClientMessage` at once. -/
def handled? (s : GatewayServer) (w : WsId) (byteLength : ℕ) (parsed : Option Json) :
    Option ClientMessage :=
  if s.config.maxClientMessageBytes < byteLength then none
  else
    match parsed.map validateClientMessage with
    | some (.ok (.ok message)) =>
      if (s.sessions w).authenticated && (s.sessions w).welcomed then some message else none
    | _ => none

/-- The message that `onClientRaw` finds valid. -/
def valid? (s : GatewayServer) (byteLength : ℕ) (parsed : Option Json) : Option ClientMessage :=
  if s.config.maxClientMessageBytes < byteLength then none
  else
    match parsed.map validateClientMessage with
    | some (.ok (.ok message)) => some message
    | _ => none

/-- A message of the session is handled when it arrives. -/
def immediate (s : GatewayServer) (w : WsId) : Bool :=
  (s.sessions w).authenticated && (s.sessions w).welcomed

/-- Whether an event of the chat server makes a session ready. -/
def announces (s : GatewayServer) (w : WsId) : BackendEvent → Bool
  | .welcome nickname => !((s.sessions w).welcome nickname).mustClaim
  | .nick oldNick _ => oldNick == (s.sessions w).nickname && !(s.sessions w).readyAnnounced
  | _ => false

/-- Whether it gives a session that is ready a new nickname. -/
def renames (s : GatewayServer) (w : WsId) : BackendEvent → Bool
  | .nick oldNick _ => oldNick == (s.sessions w).nickname && (s.sessions w).readyAnnounced
  | _ => false

/-- The causes of what is done about a valid message. -/
def MessageCauses (s : GatewayServer) (w : WsId) (m : ClientMessage) (c : Cause) : Prop :=
  c = .answer ∨ m.isSession = false ∧ c = if s.immediate w then .message w m else .wait w m

/-- The causes of what is done about an event of the chat server. -/
def EventCauses (s : GatewayServer) (w : WsId) (e : BackendEvent) (c : Cause) : Prop :=
  c = .event w e ∨
  s.announces w e = true ∧ (c = .ready w ∨ ∃ m ∈ (s.sessions w).pending, c = .message w m) ∨
  s.renames w e = true ∧ c = .rename w

/-- The causes of what an event makes the gateway do. -/
def Causes (s : GatewayServer) : Event → Cause → Prop
  | .message w n v, c => c = .answer ∨ ∃ m, s.valid? n v = some m ∧ s.MessageCauses w m c
  | .backendFrame b p, c => s.EventCauses (s.backends b).owner (parseBackendLine (utf8Decode p)) c
  | .wsClose w, c =>
    c = .leave w ∧ (s.sessions w).closed = false ∧ (s.sessions w).authenticated = true ∧
      (s.sessions w).welcomed = true
  | _, c => c = .answer

variable {A : WsId → Prop} {L : Prop} {P : Cause → Prop} {c : Cause} {s s' t u : GatewayServer}
  {w x : WsId}

@[simp] theorem sessions_modifySession_self (s : GatewayServer) (w : WsId) (f : Session → Session) :
    (s.modifySession w f).sessions w = f (s.sessions w) :=
  Function.update_self ..

@[simp] theorem sessions_modifySession_of_ne (s : GatewayServer) {w x : WsId} (h : x ≠ w)
    (f : Session → Session) : (s.modifySession w f).sessions x = s.sessions x :=
  Function.update_of_ne h ..

@[simp] theorem modifySession_modifySession (s : GatewayServer) (w : WsId)
    (f g : Session → Session) :
    (s.modifySession w f).modifySession w g = s.modifySession w fun session => g (f session) := by
  simp [modifySession]

@[simp] theorem id_closeWs (s : GatewayServer) (w x : WsId) :
    ((s.closeWs w).sessions x).id = (s.sessions x).id := by
  unfold closeWs
  by_cases hx : x = w
  · subst hx
    rw [sessions_modifySession_self]
    split <;> rfl
  · rw [sessions_modifySession_of_ne s hx]

@[simp] theorem backends_modifyBackend_self (s : GatewayServer) (b : BackendId)
    (f : BackendConnection → BackendConnection) :
    (s.modifyBackend b f).backends b = f (s.backends b) :=
  Function.update_self ..

@[simp] theorem backends_modifyBackend_of_ne (s : GatewayServer) {b c : BackendId} (h : c ≠ b)
    (f : BackendConnection → BackendConnection) : (s.modifyBackend b f).backends c = s.backends c :=
  Function.update_of_ne h ..

/-! ### What changes nothing that matters -/

/-- One thing a handler that acts for the sessions of `A` does besides its change. An
event it sends says of no other session that it is online than of one in the roster, or
of one it acts for. It gives lines to a backend connection only if `L`. -/
inductive Does (A : WsId → Prop) (L : Prop) (s : GatewayServer) : GatewayServer → Prop where
  /-- An event is sent. -/
  | send (x : WsId) (m : Sent) (h : ∀ y ∈ m.about, y ∈ s.roster.values ∨ A y) :
    Does A L s { s with sent := Function.update s.sent x (s.sent x ++ [m]) }
  /-- The presence or the queue of a session changes. -/
  | own (w : WsId) (h : A w) (presence : Presence) (pending : List ClientMessage) :
    Does A L s (s.modifySession w fun session =>
      { session with presence := presence, pending := pending })
  /-- Messages or conversations are kept. -/
  | keep (store : Store) (draws : ℕ) (h : store.users = s.store.users) :
    Does A L s { s with store := store, draws := draws }
  /-- A `/nick` line is given to the backend connection. -/
  | nick (w : WsId) (h : A w) (hl : L) (nickname : Units) :
    Does A L s (s.sendLine w ⟨formatNickCommand nickname, none⟩)
  /-- A chat line is. -/
  | chat (w : WsId) (h : A w) (hl : L) (text : Units) :
    Does A L s (s.forward ⟨w, none, text⟩ (formatChatLine text))
  /-- A `/msg` line is. -/
  | direct (w : WsId) (h : A w) (hl : L) (peerId : Units) (peer : WsId)
    (hp : s.online? peerId = some peer)
    (text : Units) :
    Does A L s (s.forward ⟨w, some peer, text⟩ (formatMsgCommand (s.sessions peer).nickname text))

/-- What a handler does besides its change. -/
def Quiet (A : WsId → Prop) (L : Prop) : GatewayServer → GatewayServer → Prop :=
  ReflTransGen (Does A L)

theorem Quiet.refl (s : GatewayServer) : Quiet A L s s := ReflTransGen.refl

theorem Quiet.trans (h : Quiet A L s t) (h' : Quiet A L t u) : Quiet A L s u :=
  ReflTransGen.trans h h'

theorem users_ensureDirect (st : Store) (now a b : Units) :
    (st.ensureDirect now a b).1.users = st.users := by
  unfold Store.ensureDirect
  dsimp only
  split <;> rfl

/-! ### What quiet steps keep -/

/-- The sessions are the same but for presence and queue, and so is what a change is
about. -/
structure Same (s t : GatewayServer) : Prop where
  /-- The platform. -/
  env : t.env = s.env
  /-- The configuration. -/
  config : t.config = s.config
  /-- The sessions. -/
  sessions : ∀ w, ∃ presence pending,
    t.sessions w = { s.sessions w with presence := presence, pending := pending }
  /-- The number of WebSockets. -/
  nextWs : t.nextWs = s.nextWs
  /-- The roster. -/
  roster : t.roster = s.roster
  /-- The backend connections. -/
  backends : t.backends = s.backends
  /-- Their number. -/
  nextBackend : t.nextBackend = s.nextBackend
  /-- The attempts that wait. -/
  hashing : t.hashing = s.hashing
  /-- The accounts. -/
  users : t.store.users = s.store.users
  /-- Whether the gateway shuts down. -/
  closing : t.closing = s.closing

theorem Same.refl (s : GatewayServer) : Same s s :=
  ⟨rfl, rfl, fun _ => ⟨_, _, rfl⟩, rfl, rfl, rfl, rfl, rfl, rfl, rfl⟩

theorem Same.trans (h : Same s t) (h' : Same t u) : Same s u where
  env := h'.env.trans h.env
  config := h'.config.trans h.config
  sessions w := by
    obtain ⟨p, q, hw⟩ := h.sessions w
    obtain ⟨p', q', hw'⟩ := h'.sessions w
    exact ⟨p', q', by rw [hw', hw]⟩
  nextWs := h'.nextWs.trans h.nextWs
  roster := h'.roster.trans h.roster
  backends := h'.backends.trans h.backends
  nextBackend := h'.nextBackend.trans h.nextBackend
  hashing := h'.hashing.trans h.hashing
  users := h'.users.trans h.users
  closing := h'.closing.trans h.closing

theorem Same.sendLine (s : GatewayServer) (w : WsId) (line : Line) :
    Same s (s.sendLine w line) := by
  rw [sendLine_eq]
  exact ⟨rfl, rfl, fun _ => ⟨_, _, rfl⟩, rfl, rfl, rfl, rfl, rfl, rfl, rfl⟩

theorem Same.forward (s : GatewayServer) (request : Request) (line : Units) :
    Same s (s.forward request line) :=
  Same.trans (t := { s with requests := s.requests ++ [request] })
    ⟨rfl, rfl, fun _ => ⟨_, _, rfl⟩, rfl, rfl, rfl, rfl, rfl, rfl, rfl⟩ (.sendLine ..)

theorem Does.same (h : Does A L s t) : Same s t := by
  cases h with
  | send => exact ⟨rfl, rfl, fun _ => ⟨_, _, rfl⟩, rfl, rfl, rfl, rfl, rfl, rfl, rfl⟩
  | own w _ presence pending =>
    refine ⟨rfl, rfl, ?_, rfl, rfl, rfl, rfl, rfl, rfl, rfl⟩
    intro x
    by_cases hx : x = w
    · subst hx
      exact ⟨presence, pending, sessions_modifySession_self ..⟩
    · exact ⟨_, _, sessions_modifySession_of_ne s hx _⟩
  | keep store draws h => exact ⟨rfl, rfl, fun _ => ⟨_, _, rfl⟩, rfl, rfl, rfl, rfl, rfl, h, rfl⟩
  | nick => exact .sendLine ..
  | chat => exact .forward ..
  | direct => exact .forward ..

theorem Quiet.same (h : Quiet A L s t) : Same s t := by
  induction h with
  | refl => exact .refl s
  | tail _ h ih => exact ih.trans h.same

/-- Everything sent between two states says only of sessions of `P` that they are online. -/
def Heard (P : WsId → Prop) (s t : GatewayServer) : Prop :=
  ∀ x, ∃ extra, t.sent x = s.sent x ++ extra ∧ ∀ m ∈ extra, ∀ y ∈ m.about, P y

theorem Heard.of_eq {P : WsId → Prop} (h : t.sent = s.sent) : Heard P s t := fun x =>
  ⟨[], by rw [h, List.append_nil], fun _ hm => absurd hm List.not_mem_nil⟩

theorem Heard.trans {P : WsId → Prop} (h : Heard P s t) (h' : Heard P t u) : Heard P s u := by
  intro x
  obtain ⟨l, hl, hp⟩ := h x
  obtain ⟨l', hl', hp'⟩ := h' x
  refine ⟨l ++ l', by rw [hl', hl, List.append_assoc], ?_⟩
  intro m hm
  rcases List.mem_append.mp hm with hm | hm
  · exact hp m hm
  · exact hp' m hm

theorem Heard.mono {P Q : WsId → Prop} (hPQ : ∀ y, P y → Q y) (h : Heard P s t) :
    Heard Q s t := fun x =>
  let ⟨l, hl, hp⟩ := h x
  ⟨l, hl, fun m hm y hy => hPQ y (hp m hm y hy)⟩

theorem Does.heard (h : Does A L s t) : Heard (fun y => y ∈ s.roster.values ∨ A y) s t := by
  cases h with
  | send x m hm =>
    intro y
    by_cases hy : y = x
    · subst hy
      refine ⟨[m], Function.update_self .., ?_⟩
      intro m' hm'
      rw [List.mem_singleton.mp hm']
      exact hm
    · exact ⟨[], by simp [Function.update_of_ne hy], fun _ hm => absurd hm List.not_mem_nil⟩
  | own => exact .of_eq rfl
  | keep => exact .of_eq rfl
  | nick => exact .of_eq (by rw [sendLine_eq])
  | chat => exact .of_eq (by rw [forward, sendLine_eq])
  | direct => exact .of_eq (by rw [forward, sendLine_eq])

/-- A handler says of no other session that it is online than of one in the roster or of
one it acts for. -/
theorem Quiet.heard (h : Quiet A L s t) : Heard (fun y => y ∈ s.roster.values ∨ A y) s t := by
  induction h with
  | refl => exact .of_eq rfl
  | tail hs h ih =>
    refine ih.trans (h.heard.mono ?_)
    intro y hy
    rwa [Quiet.same hs |>.roster] at hy

/-! ### Deeds are quiet -/

/-- The roster and who has been welcomed are the same. -/
theorem Same.online? (h : Same s t) (userId : Units) : t.online? userId = s.online? userId := by
  unfold GatewayServer.online?
  rw [h.roster]
  congr 1
  funext w
  obtain ⟨p, q, hw⟩ := h.sessions w
  rw [hw]

/-- Whether lines are given to a backend connection for it. -/
def Lines (s : GatewayServer) : Cause → Prop
  | .message _ m => s.forwards m = true
  | .event _ _ => True
  | _ => False

/-- Who is online decides whether a line is given. -/
theorem lines_congr (h : ∀ userId, t.online? userId = s.online? userId) :
    t.Lines c ↔ s.Lines c := by
  cases c with
  | message w m =>
    cases m with
    | sendMessage target text =>
      cases target with
      | direct peerId => simp only [Lines, forwards, h]
      | everyone => rfl
      | group => rfl
    | _ => rfl
  | _ => rfl

/-- An event is about sessions in the roster, or the one it is sent for. -/
theorem Told.about {m : Sent} (h : Told s c x m) :
    ∀ y ∈ m.about, y ∈ s.roster.values ∨ c.Acts y := by
  cases h with
  | ready => exact fun y hy => .inl (List.mem_filter.mp hy).1
  | announced => exact fun y hy => .inr (List.mem_singleton.mp hy)
  | renamed => exact fun y hy => .inr (List.mem_singleton.mp hy)
  | presence => exact fun y hy => .inr (List.mem_singleton.mp hy)
  | _ => exact fun y hy => absurd hy List.not_mem_nil

theorem Deed.quiet (h : Deed s c t) (hA : ∀ w, c.Acts w → A w) (hl : s.Lines c → L) :
    Quiet A L s t := by
  apply ReflTransGen.single
  cases h with
  | error => exact .send _ _ fun _ hy => absurd hy List.not_mem_nil
  | loggedOut => exact .send _ _ fun _ hy => absurd hy List.not_mem_nil
  | tell _ h => exact .send _ _ fun y hy => (h.about y hy).imp_right (hA y)
  | @presence w p => exact .own w (hA w rfl) p (s.sessions w).pending
  | @wait w m => exact .own w (hA w rfl) (s.sessions w).presence ((s.sessions w).pending ++ [m])
  | @drain w => exact .own w (hA w rfl) (s.sessions w).presence []
  | @draw c draws => exact .keep s.store draws rfl
  | @append w target text m draws => exact .keep _ draws rfl
  | ensureDirect => exact .keep _ _ (users_ensureDirect ..)
  | createGroup => exact .keep _ _ rfl
  | nick hc =>
    rcases hc with rfl | ⟨own, rfl⟩
    · exact .nick _ (hA _ rfl) (hl rfl) _
    · exact .nick _ (hA _ rfl) (hl trivial) _
  | chat => exact .chat _ (hA _ rfl) (hl rfl) _
  | direct hp => exact .direct _ (hA _ rfl) (hl (by rw [Lines, forwards, hp]; rfl)) _ _ hp _

/-- What a handler does is quiet. -/
theorem Deeds.quiet (h : Deeds P s t) (hA : ∀ c, P c → ∀ w, c.Acts w → A w)
    (hl : ∀ c, P c → s.Lines c → L) : Quiet A L s t := by
  induction h with
  | refl => exact .refl s
  | tail _ hd ih =>
    obtain ⟨c, hc, hd⟩ := hd
    exact ih.trans (hd.quiet (hA c hc) fun h => hl c hc ((lines_congr ih.same.online?).mp h))

theorem Deeds.same (h : Deeds P s t) : Same s t :=
  (h.quiet (A := fun _ => True) (L := True) (fun _ _ _ _ => trivial) fun _ _ _ => trivial).same

/-! ### Changes -/

/-- The session an event acts for. -/
def Acts (s : GatewayServer) : Event → WsId → Prop
  | .message w _ _, x => x = w
  | .backendFrame b _, x => x = (s.backends b).owner
  | _, _ => False

/-- Whether an event may give lines to a backend connection: a message that is forwarded,
or a frame of the chat server. -/
def Forwards (s : GatewayServer) : Event → Prop
  | .message w n v => ∃ m, s.handled? w n v = some m ∧ s.forwards m = true
  | .backendFrame _ _ => True
  | _ => False

/-- The account an attempt gives, and the table of the accounts after it. -/
def outcome (s : GatewayServer) : Attempt → Option (UserRecord × Users)
  | .register username password =>
    let id := s.env.uuid s.draws
    (s.store.users.insert ⟨id, username, password, s.env.now s.draws⟩).map fun users =>
      (⟨id, username⟩, users)
  | .login id username ok => if ok then some (⟨id, username⟩, s.store.users) else none

/-- Replace the table of the accounts. -/
def setUsers (s : GatewayServer) (users : Users) : GatewayServer :=
  { s with store := { s.store with users := users } }

/-- An attempt no longer waits. -/
def wake (s : GatewayServer) (i : ℕ) : GatewayServer := { s with hashing := s.hashing.eraseIdx i }

/-- The change an event makes. -/
inductive Change (s : GatewayServer) : Event → GatewayServer → Prop where
  /-- A WebSocket arrives. -/
  | connection : Change s .connection s.onConnection
  /-- A message changes nothing that matters. -/
  | message {w : WsId} {n : ℕ} {v : Option Json} (h : s.live w) : Change s (.message w n v) s
  /-- The validator raises. -/
  | raised {w : WsId} {n : ℕ} {v : Option Json} (h : s.live w) :
    Change s (.message w n v) (s.raise .typeError)
  /-- An attempt has to wait for a hash. -/
  | suspend {w : WsId} {n : ℕ} {v : Option Json} (h : s.live w) (a : Attempt)
    (ha : (s.sessions w).authenticated = false)
    (hu : a.Sound s.store.users) :
    Change s (.message w n v) { s with hashing := s.hashing ++ [(w, a)] }
  /-- `logout`. -/
  | logout {w : WsId} {n : ℕ} {v : Option Json} (h : s.live w) :
    Change s (.message w n v) (s.closeWs w)
  /-- The browser closes. -/
  | wsClosing {w : WsId} (h : s.live w) : Change s (.wsClosing w) (s.closeWs w)
  /-- The WebSocket has closed. -/
  | wsClose {w : WsId} (h : s.live w) (hc : (s.sessions w).closed = false) :
    Change s (.wsClose w)
      ((s.modifySession w fun session => { session with ws := .closed }).leave w)
  /-- It had been closed. -/
  | wsCloseAgain {w : WsId} (h : s.live w) (hc : (s.sessions w).closed = true) :
    Change s (.wsClose w) (s.modifySession w fun session => { session with ws := .closed })
  /-- An attempt fails. -/
  | refused {i : ℕ} {w : WsId} {a : Attempt} (h : s.hashing[i]? = some (w, a)) :
    Change s (.authDone i) (s.wake i)
  /-- An attempt succeeds for an account that is connected elsewhere. -/
  | elsewhere {i : ℕ} {w : WsId} {a : Attempt} {account : UserRecord} {users : Users}
    (h : s.hashing[i]? = some (w, a)) (ho : s.outcome a = some (account, users))
    (hc : s.connectedElsewhere account.id = true) :
    Change s (.authDone i) ((s.wake i).setUsers users)
  /-- An attempt succeeds. -/
  | joined {i : ℕ} {w : WsId} {a : Attempt} {account : UserRecord} {users : Users}
    (h : s.hashing[i]? = some (w, a)) (ho : s.outcome a = some (account, users))
    (hc : s.connectedElsewhere account.id = false) :
    Change s (.authDone i) (((s.wake i).setUsers users).join w account)
  /-- A backend connection is there. -/
  | connected {b : BackendId} (h : (s.backends b).socket = .connecting) :
    Change s (.connected b)
      (s.modifyBackend b fun connection => { connection with socket := .opened })
  /-- It cannot be had. -/
  | connectFailed {b : BackendId} (h : (s.backends b).socket = .connecting) :
    Change s (.connectFailed b)
      (((s.modifyBackend b fun connection => { connection with socket := .ended }).closeWs
        (s.backends b).owner).remove
        (s.sessions (s.backends b).owner).id)
  /-- A frame changes nothing that matters. -/
  | frame {b : BackendId} {p : Bytes} (h : (s.backends b).socket = .opened)
    (hw : ∀ nickname, parseBackendLine (utf8Decode p) ≠ .welcome nickname)
    (hn : ∀ oldNick newNick, parseBackendLine (utf8Decode p) = .nick oldNick newNick →
      oldNick ≠ (s.sessions (s.backends b).owner).nickname) : Change s (.backendFrame b p) s
  /-- The username is taken by another connection of the chat server. -/
  | nickTaken {b : BackendId} {p : Bytes} {code text : Units} (h : (s.backends b).socket = .opened)
    (he : parseBackendLine (utf8Decode p) = .err code text) :
    Change s (.backendFrame b p) (s.closeWs (s.backends b).owner)
  /-- A session is welcomed and has to claim its username. -/
  | welcome {b : BackendId} {p : Bytes} {nickname : Units} (h : (s.backends b).socket = .opened)
    (he : parseBackendLine (utf8Decode p) = .welcome nickname)
    (hm : ((s.sessions (s.backends b).owner).welcome nickname).mustClaim = true) :
    Change s (.backendFrame b p)
      (s.modifySession (s.backends b).owner fun session => session.welcome nickname)
  /-- A session is welcomed and is ready. -/
  | welcomeReady {b : BackendId} {p : Bytes} {nickname : Units}
    (h : (s.backends b).socket = .opened)
    (he : parseBackendLine (utf8Decode p) = .welcome nickname)
    (hm : ((s.sessions (s.backends b).owner).welcome nickname).mustClaim = false) :
    Change s (.backendFrame b p)
      (s.modifySession (s.backends b).owner fun session => (session.welcome nickname).ready)
  /-- A session takes a `NICK` for its own and is ready. -/
  | nickReady {b : BackendId} {p : Bytes} {oldNick newNick : Units}
    (h : (s.backends b).socket = .opened)
    (he : parseBackendLine (utf8Decode p) = .nick oldNick newNick)
    (hn : oldNick = (s.sessions (s.backends b).owner).nickname)
    (hr : (s.sessions (s.backends b).owner).readyAnnounced = false) :
    Change s (.backendFrame b p)
      (s.modifySession (s.backends b).owner fun session => (session.rename newNick).ready)
  /-- A session that is ready takes a `NICK` for its own. -/
  | rename {b : BackendId} {p : Bytes} {oldNick newNick : Units}
    (h : (s.backends b).socket = .opened)
    (he : parseBackendLine (utf8Decode p) = .nick oldNick newNick)
    (hn : oldNick = (s.sessions (s.backends b).owner).nickname)
    (hr : (s.sessions (s.backends b).owner).readyAnnounced = true) :
    Change s (.backendFrame b p)
      ((s.modifySession (s.backends b).owner fun session => session.rename newNick).renameUser
        (s.sessions (s.backends b).owner).id newNick)
  /-- A frame is too large. -/
  | oversized {b : BackendId} (h : (s.backends b).socket = .opened) :
    Change s (.backendOversized b) (s.modifyBackend b .close)
  /-- A backend connection has ended. -/
  | backendClose {b : BackendId} (h : (s.backends b).socket = .opened) (f : Bool) :
    Change s (.backendClose b)
      (let s' := s.modifyBackend b fun connection =>
        { connection with socket := .ended, closed := true }
       if f then s' else s'.closeWs (s.backends b).owner)
  /-- The gateway shuts down. -/
  | shutdown : Change s .shutdown s.close

/-- A session that has been sent an error may be closed first. -/
theorem closeWs_sendError (x : WsId) (code text : Units) (conversationId : Option Units) (w : WsId)
    (hc : P c) : Deeds P (s.closeWs w) ((s.sendError x code text conversationId).closeWs w) := by
  unfold sendError sendTo
  split
  · exact (Deeds.refl _).then hc (.error x code text conversationId)
  · exact .refl _

theorem handleRegister_change {n : ℕ} {v : Option Json} (h : s.live w) (username password : Units)
    (hc : P .answer) :
    ∃ t, Change s (.message w n v) t ∧ t.fault = s.fault ∧
      Deeds P t (s.handleRegister w username password) := by
  unfold handleRegister
  dsimp only
  split
  · exact ⟨s, .message h, rfl, (Deeds.refl s).error hc ..⟩
  rename_i ha
  split
  · exact ⟨s, .message h, rfl, (Deeds.refl s).error hc ..⟩
  rename_i hu
  split
  · exact ⟨s, .message h, rfl, (Deeds.refl s).error hc ..⟩
  split
  · exact ⟨s, .message h, rfl, (Deeds.refl s).error hc ..⟩
  · exact ⟨_, .suspend h (.register username _) (by simpa using ha) hu, rfl,
      (Deeds.refl _).then hc (.draw (Nat.le_succ _))⟩

theorem handleLogin_change {n : ℕ} {v : Option Json} (h : s.live w) (username password : Units)
    (hc : P .answer) :
    ∃ t, Change s (.message w n v) t ∧ t.fault = s.fault ∧
      Deeds P t (s.handleLogin w username password) := by
  unfold handleLogin
  dsimp only
  split
  · exact ⟨s, .message h, rfl, (Deeds.refl s).error hc ..⟩
  rename_i ha
  split
  · exact ⟨s, .message h, rfl, (Deeds.refl s).error hc ..⟩
  · rename_i row hf
    have hu : s.store.users.usernameOf row.id = some row.username :=
      Users.usernameOf_eq_some.mpr ⟨row, (Users.findByUsername_eq_some.mp hf).1, rfl, rfl⟩
    exact ⟨_, .suspend h (.login row.id row.username _) (by simpa using ha) hu, rfl, .refl _⟩

theorem handleLogout_change {n : ℕ} {v : Option Json} (h : s.live w) (hc : P .answer) :
    ∃ t, Change s (.message w n v) t ∧ t.fault = s.fault ∧ Deeds P t (s.handleLogout w) := by
  unfold handleLogout
  split
  · exact ⟨s, .message h, rfl, (Deeds.refl s).error hc ..⟩
  · rename_i ha
    have ha : ((s.closeWs w).sessions w).authenticated = true := by
      unfold closeWs
      rw [sessions_modifySession_self]
      split <;> simpa using ha
    have ho : ((s.closeWs w).sessions w).ws ≠ .opened := by
      unfold closeWs
      rw [sessions_modifySession_self]
      split
      · exact nofun
      · assumption
    refine ⟨_, .logout h, rfl, ?_⟩
    unfold sendTo
    split
    · exact (Deeds.refl _).then hc (.loggedOut ha ho)
    · exact .refl _

theorem onClientMessage_change {n : ℕ} {v : Option Json} (h : s.live w) (m : ClientMessage) :
    ∃ t, Change s (.message w n v) t ∧ t.fault = s.fault ∧
      Deeds (s.MessageCauses w m) t (s.onClientMessage w m) := by
  have hq (m : ClientMessage) (hm : m.isSession = false) : Deeds (s.MessageCauses w m) s
      (if !(s.sessions w).authenticated || !(s.sessions w).welcomed then
        s.modifySession w fun session => { session with pending := session.pending ++ [m] }
      else s.handleClientMessage w m) := by
    have hi : s.immediate w = ((s.sessions w).authenticated && (s.sessions w).welcomed) := rfl
    split
    · rename_i hr
      have hi : s.immediate w = false := by
        rw [hi, Bool.and_eq_false_iff]
        simpa using hr
      exact (Deeds.refl s).then (.inr ⟨hm, by rw [hi]; rfl⟩) .wait
    · rename_i hr
      have hi : s.immediate w = true := by
        rw [hi]
        simpa using hr
      exact handleClientMessage_deeds (.inr ⟨hm, by rw [hi]; rfl⟩)
  cases m with
  | register username password => exact handleRegister_change h username password (.inl rfl)
  | login username password => exact handleLogin_change h username password (.inl rfl)
  | logout => exact handleLogout_change h (.inl rfl)
  | setNickname => exact ⟨s, .message h, rfl, hq _ rfl⟩
  | sendMessage => exact ⟨s, .message h, rfl, hq _ rfl⟩
  | createGroup => exact ⟨s, .message h, rfl, hq _ rfl⟩
  | setPresence => exact ⟨s, .message h, rfl, hq _ rfl⟩
  | requestState => exact ⟨s, .message h, rfl, hq _ rfl⟩

theorem onClientRaw_change {n : ℕ} {v : Option Json} (h : s.live w) :
    ∃ t, Change s (.message w n v) t ∧
      Deeds (s.Causes (.message w n v)) t (s.onClientRaw w n v) := by
  unfold onClientRaw
  split
  · exact ⟨s, .message h, (Deeds.refl s).error (.inl rfl) ..⟩
  rename_i hn
  split
  · exact ⟨s, .message h, (Deeds.refl s).error (.inl rfl) ..⟩
  rename_i value
  split
  · exact ⟨_, .raised h, .refl _⟩
  · exact ⟨s, .message h, (Deeds.refl s).error (.inl rfl) ..⟩
  · rename_i m hm
    have hv : s.valid? n (some value) = some m := by
      simp only [valid?, if_neg hn, Option.map_some, hm]
    obtain ⟨t, hc, -, hd⟩ := onClientMessage_change (n := n) (v := some value) h m
    exact ⟨t, hc, hd.mono fun c hc => .inr ⟨m, hv, hc⟩⟩

theorem onClientClosed_change (h : s.live w) :
    ∃ t, Change s (.wsClose w) t ∧ Deeds (s.Causes (.wsClose w)) t
      ((s.modifySession w fun session => { session with ws := .closed }).onClientClosed w) := by
  unfold onClientClosed
  simp only [sessions_modifySession_self]
  split
  · rename_i hc
    exact ⟨_, .wsCloseAgain h hc, .refl _⟩
  · rename_i hc
    refine ⟨_, .wsClose h (by simpa using hc), ?_⟩
    split
    · rename_i ha
      simp only [Bool.and_eq_true] at ha
      have hid :
        (((s.modifySession w fun session => { session with ws := .closed }).leave w).sessions
          w).id =
          (s.sessions w).id := by
        unfold leave closeBackend
        dsimp only
        split
        · simp
        · split <;> simp [remove, modifyBackend]
      refine (Deeds.refl _).broadcast ⟨rfl, by simpa using hc, ha⟩ _ _ _ ?_
      intro sent x hx hne
      rw [← hid] at hne ⊢
      exact .offline hx fun he => hne (congrArg some he)
    · exact .refl _

theorem resumeAuth_change {i : ℕ} {a : Attempt} (h : s.hashing[i]? = some (w, a)) :
    ∃ t, Change s (.authDone i) t ∧
      Deeds (s.Causes (.authDone i)) t ((s.wake i).resumeAuth w a) := by
  have hcause : s.Causes (.authDone i) .answer := rfl
  -- how often was drawn does not matter
  have hj {account : UserRecord} {users : Users} (ho : s.outcome a = some (account, users))
    {draws : ℕ}
      (hd : s.draws ≤ draws) : ∃ t, Change s (.authDone i) t ∧ Deeds (s.Causes (.authDone i)) t
        (finishAuth { (s.wake i).setUsers users with draws := draws } w account) := by
    cases hc : s.connectedElsewhere account.id with
    | true =>
      refine ⟨_, .elsewhere h ho hc, ?_⟩
      rw [finishAuth, if_pos (by exact hc)]
      exact ((Deeds.refl _).then hcause (.draw (s := (s.wake i).setUsers users) hd)).error hcause ..
    | false =>
      refine ⟨_, .joined h ho hc, ?_⟩
      rw [finishAuth, if_neg (by rw [Bool.not_eq_true]; exact hc)]
      exact (Deeds.refl _).then hcause (.draw (s := ((s.wake i).setUsers users).join w account) hd)
  cases a with
  | register username password =>
    unfold resumeAuth
    dsimp only
    split
    · exact ⟨_, .refused h, (Deeds.refl _).error hcause ..⟩
    · rename_i users hi
      exact @hj ⟨s.env.uuid s.draws, username⟩ users (Option.map_eq_some_iff.mpr ⟨users, hi, rfl⟩) _
        (Nat.le_succ _)
  | login id username ok =>
    unfold resumeAuth
    dsimp only
    split
    · rename_i hok
      exact @hj ⟨id, username⟩ s.store.users (if_pos hok) _ le_rfl
    · exact ⟨_, .refused h, (Deeds.refl _).error hcause ..⟩

theorem onConnectFailed_change {b : BackendId} (h : (s.backends b).socket = .connecting) :
    ∃ t, Change s (.connectFailed b) t ∧ Deeds (s.Causes (.connectFailed b)) t
      ((s.modifyBackend b fun connection => { connection with socket := .ended }).onConnectFailed
        (s.backends b).owner) := by
  refine ⟨_, .connectFailed h, ?_⟩
  unfold onConnectFailed
  dsimp only
  rw [id_closeWs]
  unfold sendError sendTo
  split
  · exact (Deeds.refl _).then (c := .answer) rfl (.error _ _ _ _)
  · exact .refl _

theorem onWelcome_change {b : BackendId} {p : Bytes} {nickname : Units}
    (h : (s.backends b).socket = .opened)
    (he : parseBackendLine (utf8Decode p) = .welcome nickname) :
    ∃ t, Change s (.backendFrame b p) t ∧
      Deeds (s.EventCauses (s.backends b).owner (.welcome nickname)) t
        (s.onWelcome (s.backends b).owner nickname) := by
  unfold onWelcome
  simp only [sessions_modifySession_self]
  split
  · rename_i hm
    exact ⟨_, .welcome h he hm, (Deeds.refl _).then (.inl rfl) (.nick (.inr ⟨nickname, rfl⟩))⟩
  · rename_i hm
    refine ⟨_, .welcomeReady h he (by simpa using hm), ?_⟩
    rw [← modifySession_modifySession _ _ (fun session => session.welcome nickname) Session.ready]
    have ha : s.announces (s.backends b).owner (.welcome nickname) = true := by
      rw [announces]
      simpa using hm
    refine announceReady_deeds (.inr (.inl ⟨ha, .inl rfl⟩)) fun m hm =>
      .inr (.inl ⟨ha, .inr ⟨m, ?_, rfl⟩⟩)
    simpa [Session.welcome] using hm

theorem sendTo_renameUser (s : GatewayServer) (x : WsId) (m : ServerMessage) (about : List WsId)
    (id n : Units) :
    (s.renameUser id n).sendTo x m about = (s.sendTo x m about).renameUser id n := by
  unfold sendTo
  by_cases h : (s.sessions x).ws = .opened
  · rw [if_pos h, if_pos (show ((s.renameUser id n).sessions x).ws = _ from h)]
    rfl
  · rw [if_neg h, if_neg (show ¬((s.renameUser id n).sessions x).ws = _ from h)]

/-- Persisting a name and announcing it do not depend on each other. -/
theorem broadcastToAll_renameUser (s : GatewayServer) (m : ServerMessage) (x : Option Units)
    (about : List WsId) (id n : Units) :
    (s.renameUser id n).broadcastToAll m x about =
    (s.broadcastToAll m x about).renameUser id n := by
  unfold broadcastToAll
  rw [show (s.renameUser id n).roster = s.roster from rfl]
  generalize s.roster.values = l
  induction l generalizing s with
  | nil => rfl
  | cons y l ih =>
    simp only [List.foldl_cons, show (s.renameUser id n).sessions = s.sessions from rfl]
    split_ifs
    · exact ih s
    · exact ih s
    · rw [sendTo_renameUser, ih]

theorem onNick_change {b : BackendId} {p : Bytes} {oldNick newNick : Units}
    (h : (s.backends b).socket = .opened)
    (he : parseBackendLine (utf8Decode p) = .nick oldNick newNick) :
    ∃ t, Change s (.backendFrame b p) t ∧
      Deeds (s.EventCauses (s.backends b).owner (.nick oldNick newNick)) t
        (s.onNick (s.backends b).owner oldNick newNick) := by
  unfold onNick
  split
  · rename_i hn
    simp only [sessions_modifySession_self]
    split
    · rename_i hr
      have hr : (s.sessions (s.backends b).owner).readyAnnounced = false := by
        simpa [Session.rename] using hr
      refine ⟨_, .nickReady h he hn hr, ?_⟩
      rw [← modifySession_modifySession _ _ (fun session => session.rename newNick) Session.ready]
      have ha : s.announces (s.backends b).owner (.nick oldNick newNick) = true := by
        simp [announces, hn, hr]
      refine announceReady_deeds (.inr (.inl ⟨ha, .inl rfl⟩)) fun m hm =>
        .inr (.inl ⟨ha, .inr ⟨m, ?_, rfl⟩⟩)
      simpa [Session.rename] using hm
    · rename_i hr
      have hr : (s.sessions (s.backends b).owner).readyAnnounced = true := by
        simpa [Session.rename] using hr
      refine ⟨_, .rename h he hn hr, ?_⟩
      rw [show ((s.sessions (s.backends b).owner).rename newNick).id =
        (s.sessions (s.backends b).owner).id from rfl,
        ← broadcastToAll_renameUser]
      have ha : s.renames (s.backends b).owner (.nick oldNick newNick) = true := by
        simp [renames, hn, hr]
      exact (Deeds.refl _).broadcast (.inr (.inr ⟨ha, rfl⟩)) _ _ _ fun sent x hx _ => .renamed hx
  · rename_i hn
    refine ⟨s, .frame h (by simp [he]) ?_, .refl s⟩
    intro o n ho
    rw [he, BackendEvent.nick.injEq] at ho
    exact ho.1 ▸ hn

theorem onBackendEvent_change {b : BackendId} {p : Bytes} (h : (s.backends b).socket = .opened) :
    ∃ t, Change s (.backendFrame b p) t ∧ Deeds (s.Causes (.backendFrame b p)) t
      (s.onBackendEvent (s.backends b).owner (parseBackendLine (utf8Decode p))) := by
  show ∃ t, _ ∧ Deeds (s.EventCauses (s.backends b).owner (parseBackendLine (utf8Decode p))) t _
  have hf {t : GatewayServer} {P : Cause → Prop}
    (hw : ∀ nickname, parseBackendLine (utf8Decode p) ≠ .welcome nickname)
      (hn : ∀ oldNick newNick, parseBackendLine (utf8Decode p) ≠ .nick oldNick newNick)
        (hd : Deeds P s t) :
      ∃ t', Change s (.backendFrame b p) t' ∧ Deeds P t' t :=
    ⟨s, .frame h hw fun o n ho => absurd ho (hn o n), hd⟩
  cases he : parseBackendLine (utf8Decode p) with
  | welcome nickname => exact onWelcome_change h he
  | nick oldNick newNick => exact onNick_change h he
  | msg sender text =>
    refine hf (by simp [he]) (by simp [he]) ?_
    exact ((Deeds.refl s).then (.inl rfl) (.draw (Nat.le_succ _))).tell (.inl rfl)
      (.relayed rfl rfl rfl rfl)
  | priv sender text =>
    refine hf (by simp [he]) (by simp [he]) ?_
    have hc : s.EventCauses (s.backends b).owner (.priv sender text)
        (.event (s.backends b).owner (.priv sender text)) :=
      .inl rfl
    exact (((Deeds.refl s).then hc (.ensureDirect .sender)).then hc (.draw (Nat.le_succ _))).tell hc
      (.priv rfl rfl rfl rfl)
  | privSent recipient text =>
    refine hf (by simp [he]) (by simp [he]) ?_
    have hc : s.EventCauses (s.backends b).owner (.privSent recipient text)
        (.event (s.backends b).owner (.privSent recipient text)) := .inl rfl
    exact (((Deeds.refl s).then hc (.ensureDirect .recipient)).then hc (.draw (Nat.le_succ _))).tell
      hc (.privSent rfl rfl rfl)
  | err code text =>
    unfold onBackendEvent
    dsimp only
    split
    · exact ⟨_, .nickTaken h he, closeWs_sendError _ _ _ _ _ (.inl rfl)⟩
    · exact hf (by simp [he]) (by simp [he]) ((Deeds.refl s).error (.inl rfl) ..)
  | sys => exact hf (by simp [he]) (by simp [he]) (.refl s)
  | list => exact hf (by simp [he]) (by simp [he]) (.refl s)
  | unknown => exact hf (by simp [he]) (by simp [he]) (.refl s)

/-- **What a step can do**: one change, and deeds that the event is the cause of. -/
theorem step_deeds {e : Event} (h : s.step e = some s') :
    ∃ t, Change s e t ∧ Deeds (s.Causes e) t s' := by
  unfold step at h
  split at h
  · cases h
  cases e with
  | connection =>
    obtain ⟨-, h⟩ := Option.ite_none_left_eq_some.mp h
    exact ⟨_, .connection, Option.some.inj h ▸ .refl _⟩
  | message w n v =>
    obtain ⟨hl, h⟩ := Option.ite_none_right_eq_some.mp h
    exact Option.some.inj h ▸ onClientRaw_change hl
  | wsClosing w =>
    obtain ⟨hl, h⟩ := Option.ite_none_right_eq_some.mp h
    exact ⟨_, .wsClosing hl, Option.some.inj h ▸ .refl _⟩
  | wsClose w =>
    obtain ⟨hl, h⟩ := Option.ite_none_right_eq_some.mp h
    exact Option.some.inj h ▸ onClientClosed_change hl
  | authDone i =>
    obtain ⟨⟨w, a⟩, hi, h⟩ := Option.map_eq_some_iff.mp h
    exact h ▸ resumeAuth_change hi
  | connected b =>
    obtain ⟨hs, h⟩ := Option.ite_none_right_eq_some.mp h
    exact ⟨_, .connected hs, Option.some.inj h ▸ .refl _⟩
  | connectFailed b =>
    obtain ⟨hs, h⟩ := Option.ite_none_right_eq_some.mp h
    exact Option.some.inj h ▸ onConnectFailed_change hs
  | backendFrame b p =>
    obtain ⟨hs, h⟩ := Option.ite_none_right_eq_some.mp h
    exact Option.some.inj h ▸ onBackendEvent_change hs.1
  | backendOversized b =>
    obtain ⟨hs, h⟩ := Option.ite_none_right_eq_some.mp h
    exact ⟨_, .oversized hs, Option.some.inj h ▸ .refl _⟩
  | backendClose b =>
    obtain ⟨hs, h⟩ := Option.ite_none_right_eq_some.mp h
    rw [← Option.some.inj h]
    split
    · exact ⟨_, .backendClose hs true, .refl _⟩
    · unfold onBackendClosed
      split
      · exact ⟨_, .backendClose hs true, .refl _⟩
      · exact ⟨_, .backendClose hs false, closeWs_sendError _ _ _ _ _ (c := .answer) rfl⟩
  | shutdown =>
    obtain ⟨-, h⟩ := Option.ite_none_left_eq_some.mp h
    exact ⟨_, .shutdown, Option.some.inj h ▸ .refl _⟩

/-- Deeds are done for the session an event acts for. -/
theorem Causes.acts {e : Event} (h : s.Causes e c) : ∀ x, c.Acts x → s.Acts e x := by
  cases e with
  | message w n v =>
    rcases h with rfl | ⟨m, -, rfl | ⟨-, rfl⟩⟩
    · exact fun _ hx => hx.elim
    · exact fun _ hx => hx.elim
    · intro x hx
      cases hi : s.immediate w <;> rw [hi] at hx <;> exact hx
  | backendFrame b p =>
    rcases h with rfl | ⟨-, rfl | ⟨m, -, rfl⟩⟩ | ⟨-, rfl⟩ <;> exact fun _ hx => hx
  | wsClose w =>
    obtain ⟨rfl, -⟩ := h
    exact fun _ hx => hx.elim
  | _ =>
    obtain rfl : c = .answer := h
    exact fun _ hx => hx.elim

/-- A message that is valid and handled at once is what `onClientRaw` passes on. -/
theorem handled?_of_valid {n : ℕ} {v : Option Json} {m : ClientMessage} (hv : s.valid? n v = some m)
    (hi : s.immediate w = true) : s.handled? w n v = some m := by
  unfold valid? at hv
  unfold handled?
  split at hv
  · cases hv
  · rename_i hn
    rw [if_neg hn]
    split at hv
    · rename_i message hm
      rw [← hv]
      exact if_pos hi
    · cases hv

/-- Lines are given to a backend connection only by events that may. -/
theorem Causes.forwards {e : Event} (h : s.Causes e c) (hl : s.Lines c) : s.Forwards e := by
  cases e with
  | message w n v =>
    rcases h with rfl | ⟨m, hm, rfl | ⟨-, rfl⟩⟩
    · exact hl.elim
    · exact hl.elim
    · cases hi : s.immediate w with
      | false => rw [hi] at hl; exact hl.elim
      | true =>
        rw [hi] at hl
        exact ⟨m, handled?_of_valid hm hi, hl⟩
  | backendFrame => trivial
  | wsClose w =>
    obtain ⟨rfl, -⟩ := h
    exact hl.elim
  | _ =>
    obtain rfl : c = .answer := h
    exact hl.elim

/-- The change a message makes leaves alone who is online. -/
theorem Change.online?_message {n : ℕ} {v : Option Json} (h : Change s (.message w n v) t)
    (userId : Units) : t.online? userId = s.online? userId := by
  cases h with
  | message => rfl
  | raised => rfl
  | suspend => rfl
  | logout =>
    unfold online? closeWs
    congr 1
    funext x
    by_cases hx : x = w
    · subst hx
      rw [sessions_modifySession_self]
      split <;> rfl
    · rw [sessions_modifySession_of_ne s hx]

/-! ### What no change touches -/

/-- Leaving changes the sessions, the roster and the backend connections. -/
theorem leave_eq (s : GatewayServer) (w : WsId) :
    s.leave w =
      { s with
        sessions := (s.leave w).sessions
        roster := (s.leave w).roster
        backends := (s.leave w).backends } := by
  unfold leave closeBackend
  dsimp only
  split
  · rfl
  · split <;> rfl

/-- **Shutting down** closes one session of the roster after the other. -/
theorem close_rule {P : GatewayServer → Prop} (h0 : P s)
    (hP : ∀ t w, P t → P ((t.closeBackend w).closeWs w)) :
    ∃ t, P t ∧ s.close = { t with closing := true } := by
  refine ⟨_, ?_, rfl⟩
  exact List.foldlRecOn _ _ h0 fun t ht w _ => hP t w ht

/-- Shutting down changes the sessions and the backend connections. -/
theorem close_eq (s : GatewayServer) :
    s.close =
      { s with sessions := s.close.sessions, backends := s.close.backends, closing := true } := by
  have hP (t : GatewayServer) (w : WsId)
      (ht : t = { s with sessions := t.sessions, backends := t.backends }) :
      (t.closeBackend w).closeWs w =
        { s with
          sessions := ((t.closeBackend w).closeWs w).sessions
          backends := ((t.closeBackend w).closeWs w).backends } := by
    have hb : t.closeBackend w = { t with backends := (t.closeBackend w).backends } := by
      unfold closeBackend
      split <;> rfl
    rw [hb, ht]
    rfl
  obtain ⟨t, ht, hc⟩ :=
    @close_rule s (fun t => t = { s with sessions := t.sessions, backends := t.backends }) rfl hP
  rw [hc, ht]

/-- A change sends nothing. -/
theorem Change.sent_eq {e : Event} (h : Change s e t) : t.sent = s.sent := by
  cases h with
  | wsClose => rw [leave_eq]; rfl
  | backendClose _ f => cases f <;> rfl
  | shutdown => rw [close_eq]
  | _ => rfl

/-- It keeps no messages or conversations. -/
theorem Change.store_eq {e : Event} (h : Change s e t) :
    t.store = { s.store with users := t.store.users } := by
  cases h with
  | wsClose => rw [leave_eq]; rfl
  | backendClose _ f => cases f <;> rfl
  | shutdown => rw [close_eq]
  | _ => rfl

/-- **What a step sends**, each event by one of its deeds. -/
theorem step_sent {e : Event} (hs : s.step e = some s') :
    ∃ t, Change s e t ∧ Deeds (s.Causes e) t s' ∧ ∀ x, ∃ extra, s'.sent x = s.sent x ++ extra ∧
      ∀ m ∈ extra, ∃ u c, Deeds (s.Causes e) t u ∧ s.Causes e c ∧ Sends u c x m ∧
        Deeds (s.Causes e) u s' := by
  obtain ⟨t, hc, hd⟩ := step_deeds hs
  refine ⟨t, hc, hd, ?_⟩
  intro x
  obtain ⟨extra, he, hq⟩ := hd.sent x
  exact ⟨extra, by rw [he, hc.sent_eq], hq⟩

/-- **What a step can do**, where it does not matter what the deeds are: one change, and
the rest is quiet. -/
theorem step_change {e : Event} (h : s.step e = some s') :
    ∃ t, Change s e t ∧ Quiet (s.Acts e) (s.Forwards e) t s' := by
  obtain ⟨t, hc, hd⟩ := step_deeds h
  refine ⟨t, hc, hd.quiet (fun c h => h.acts) ?_⟩
  intro c h hl
  cases e with
  | message w n v => exact h.forwards ((lines_congr hc.online?_message).mp hl)
  | backendFrame => trivial
  | wsClose w =>
    obtain ⟨rfl, -⟩ := h
    exact hl.elim
  | _ =>
    obtain rfl : c = .answer := h
    exact hl.elim

end GatewayServer

end ThreadLink.Gateway
