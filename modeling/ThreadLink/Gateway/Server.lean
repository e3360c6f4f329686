import ThreadLink.Gateway.BackendMessages
import ThreadLink.Gateway.Store
import ThreadLink.Lib.OrdMap
import ThreadLink.Lib.Runs
import Mathlib.Logic.Function.Basic

/-!
# The gateway as a machine

`src/gatewayServer.ts`, with `src/session.ts`, `src/sessionManager.ts` and
`src/backendConnection.ts`. The gateway is one thread that handles one event after
the other. An event handler runs to its end, or to an `await` that has to wait; the
functions of this module are named after the source's, and what stands after such an
`await` is a function of its own, run by a later event.

## The model

* The only `await` that waits with something left to do is that of a password hash in
  `register` and `login`: `hashing` has the attempts that wait, and they may complete in
  any order. An attempt that fails before it has to hash is answered at once.
* Of a WebSocket message the event has the number of its bytes and what `JSON.parse`
  makes of them, if it does not throw. Messages may arrive until the WebSocket is closed,
  also after `ws.close()`.
* A backend connection may deliver any frame while its socket is open; a chunk with
  several frames is several events. `Backend.Server` says what the chat server sends.
* `writeFrame` does not fail. A line is given to the socket as text; `outbox` has all the
  lines of a connection in order.
* An exception that leaves a handler and a rejection that nobody handles end the process:
  no event follows a `fault`.
* `sent`, `requests`, the serial of a line, and whom an event of `sent` is `about` record
  what happened. No handler reads them.

Not modelled: the log, and what the close codes and reasons tell the browser.
-/

namespace ThreadLink.Gateway

open Text Runs
open Json (TypeError)

/-- The fields of `GatewayConfig` that the server uses. -/
structure GatewayConfig where
  /-- Cap on a WebSocket message, in bytes. -/
  maxClientMessageBytes : ℕ := 16 * 1024
  /-- Cap on a frame of the chat server, in bytes. -/
  backendMaxMessageBytes : ℕ := 8192
  deriving DecidableEq, Repr

/-- A WebSocket and its session, numbered in the order of arrival. -/
abbrev WsId := ℕ

/-- A backend connection, numbered in the order of creation. -/
abbrev BackendId := ℕ

/-- `readyState` of a WebSocket. -/
inductive ReadyState where
  /-- Not yet there. -/
  | unborn
  /-- `OPEN`. -/
  | opened
  /-- `CLOSING`. -/
  | closing
  /-- `CLOSED`. -/
  | closed
  deriving DecidableEq, Repr

/-- `Session`, with the state of its WebSocket. -/
structure Session where
  /-- The account, once there is one. -/
  id : Units := []
  /-- The WebSocket. -/
  ws : ReadyState := .unborn
  /-- Register or login has succeeded. -/
  authenticated : Bool := false
  /-- The backend connection. -/
  backend : Option BackendId := none
  /-- The live nickname. -/
  nickname : Units := []
  /-- The username to claim. -/
  desiredUsername : Option Units := none
  /-- `ready` has been announced. -/
  readyAnnounced : Bool := false
  /-- The presence. -/
  presence : Presence := .online
  /-- The chat server has welcomed the session. -/
  welcomed : Bool := false
  /-- The close event has been handled. -/
  closed : Bool := false
  /-- Messages that wait until the session is ready. -/
  pending : List ClientMessage := []
  deriving DecidableEq, Repr

/-- A `welcome` arrives. -/
def Session.welcome (session : Session) (nickname : Units) : Session :=
  { session with welcomed := true, nickname := nickname }

/-- Whether `desiredUsername` is set and not the nickname: an empty one counts as not
set. -/
def Session.mustClaim (session : Session) : Bool :=
  match session.desiredUsername with
  | none => false
  | some username => !username.isEmpty && username != session.nickname

/-- A `nick` arrives that is the session's own. -/
def Session.rename (session : Session) (newNick : Units) : Session :=
  { session with
    nickname := newNick
    desiredUsername := if session.desiredUsername = some newNick then none
      else session.desiredUsername }

/-- `ready` is announced. -/
def Session.ready (session : Session) : Session := { session with readyAnnounced := true }

/-- A TCP socket. -/
inductive SocketState where
  /-- Not yet there. -/
  | unborn
  /-- `connect` has been called. -/
  | connecting
  /-- Connected. -/
  | opened
  /-- Failed, destroyed or ended. -/
  | ended
  deriving DecidableEq, Repr

/-- `BackendConnection`. It is created and its socket made by one handler, so that a
connection without a socket is never seen. -/
structure BackendConnection where
  /-- The session its listeners are for. -/
  owner : WsId := 0
  /-- The socket. -/
  socket : SocketState := .unborn
  /-- The flag `closed`. -/
  closed : Bool := false
  deriving DecidableEq, Repr

/-- `BackendConnection.close`. -/
def BackendConnection.close (b : BackendConnection) : BackendConnection :=
  if b.closed then b else { b with closed := true, socket := .ended }

/-- A line given to a socket. -/
structure Line where
  /-- The text. -/
  text : Units
  /-- The request it forwards, if it is a chat line or a private message. -/
  serial : Option ℕ
  deriving DecidableEq, Repr

/-- A message that has been accepted and forwarded: a public one, or a direct one to the
session of a peer. -/
structure Request where
  /-- The session that sent it. -/
  sender : WsId
  /-- The session of the peer. -/
  peer : Option WsId
  /-- Its text. -/
  text : Units
  deriving DecidableEq, Repr

/-- An event sent to a browser. -/
structure Sent where
  /-- The event. -/
  message : ServerMessage
  /-- The sessions it says are online. -/
  about : List WsId
  deriving DecidableEq, Repr

/-- What ends the process. -/
inductive Fault where
  /-- `validateClientMessage` raised. -/
  | typeError
  /-- `session.backend!` is null. -/
  | noBackend
  /-- `backend connection is not open`. -/
  | notOpen
  deriving DecidableEq, Repr

/-- What a password hash is waited for. It holds what the hash will say. -/
inductive Attempt where
  /-- `UserStore.register`. -/
  | register (username : Units) (password : PasswordRecord)
  /-- `UserStore.login`, for the account that was read. -/
  | login (id username : Units) (ok : Bool)
  deriving DecidableEq, Repr

/-- An account, as `register` and `login` return it. -/
structure UserRecord where
  /-- The account. -/
  id : Units
  /-- Its username. -/
  username : Units
  deriving DecidableEq, Repr

/-- `GatewayServer`. -/
structure GatewayServer where
  /-- The platform. -/
  env : Env
  /-- `config`. -/
  config : GatewayConfig
  /-- `users`, `conversations`, `messages`. -/
  store : Store
  /-- The sessions. -/
  sessions : WsId → Session
  /-- How many WebSockets have arrived. -/
  nextWs : ℕ
  /-- `SessionManager.byId`, the roster. -/
  roster : OrdMap Units WsId
  /-- The backend connections. -/
  backends : BackendId → BackendConnection
  /-- How many have been created. -/
  nextBackend : ℕ
  /-- The attempts that wait for a hash. -/
  hashing : List (WsId × Attempt)
  /-- How often an id, the clock or random bytes have been drawn. -/
  draws : ℕ
  /-- `close` has been called. -/
  closing : Bool
  /-- What ended the process. -/
  fault : Option Fault
  /-- What has been sent to each WebSocket. -/
  sent : WsId → List Sent
  /-- What has been given to each backend connection. -/
  outbox : BackendId → List Line
  /-- The requests, by their serial. -/
  requests : List Request

namespace GatewayServer

/-- The gateway on a fresh database. -/
def init (env : Env) (config : GatewayConfig) : GatewayServer where
  env := env
  config := config
  store := .init (env.now 0)
  sessions _ := {}
  nextWs := 0
  roster := .empty
  backends _ := {}
  nextBackend := 0
  hashing := []
  draws := 1
  closing := false
  fault := none
  sent _ := []
  outbox _ := []
  requests := []

/-- Change a session. -/
def modifySession (s : GatewayServer) (w : WsId) (f : Session → Session) : GatewayServer :=
  { s with sessions := Function.update s.sessions w (f (s.sessions w)) }

/-- Change a backend connection. -/
def modifyBackend (s : GatewayServer) (b : BackendId) (f : BackendConnection → BackendConnection) :
    GatewayServer :=
  { s with backends := Function.update s.backends b (f (s.backends b)) }

/-- An exception or a rejection that nobody handles; the first ends the process. -/
def raise (s : GatewayServer) (fault : Fault) : GatewayServer :=
  { s with fault := s.fault.or (some fault) }

/-! ### What is sent -/

/-- `sendTo`. -/
def sendTo (s : GatewayServer) (w : WsId) (message : ServerMessage) (about : List WsId := []) :
    GatewayServer :=
  if (s.sessions w).ws = .opened then
    { s with sent := Function.update s.sent w (s.sent w ++ [⟨message, about⟩]) }
  else s

/-- `sendTo`, of an error. -/
def sendError (s : GatewayServer) (w : WsId) (code message : Units)
    (conversationId : Option Units := none) :
    GatewayServer :=
  s.sendTo w (.error code message conversationId)

/-- `broadcastToAll`. -/
def broadcastToAll (s : GatewayServer) (message : ServerMessage) (excludeSessionId : Option Units)
    (about : List WsId) : GatewayServer :=
  s.roster.values.foldl (fun s w =>
    if some (s.sessions w).id = excludeSessionId then s
    else if !(s.sessions w).welcomed then s
    else s.sendTo w message about) s

/-- `ws.close`. -/
def closeWs (s : GatewayServer) (w : WsId) : GatewayServer :=
  s.modifySession w fun session => if session.ws = .opened then { session with ws := .closing }
  else session

/-- `session.backend!.sendLine`. -/
def sendLine (s : GatewayServer) (w : WsId) (line : Line) : GatewayServer :=
  match (s.sessions w).backend with
  | none => s.raise .noBackend
  | some b =>
    if (s.backends b).closed then s.raise .notOpen
    else { s with outbox := Function.update s.outbox b (s.outbox b ++ [line]) }

/-! ### The roster -/

/-- `SessionManager.add`. -/
def add (s : GatewayServer) (sessionId : Units) (w : WsId) : GatewayServer :=
  { s with roster := s.roster.insert sessionId w }

/-- `SessionManager.remove`. -/
def remove (s : GatewayServer) (sessionId : Units) : GatewayServer :=
  { s with roster := s.roster.erase sessionId }

/-- `SessionManager.get`, of a session that is welcomed. -/
def online? (s : GatewayServer) (userId : Units) : Option WsId :=
  (s.roster.find? userId).filter fun w => (s.sessions w).welcomed

/-- `SessionManager.findByNickname`. -/
def findByNickname (s : GatewayServer) (nickname : Units) : Option WsId :=
  s.roster.values.find? fun w => (s.sessions w).welcomed && (s.sessions w).nickname == nickname

/-- `summarize`. -/
def summarize (s : GatewayServer) (w : WsId) : UserSummary :=
  ⟨(s.sessions w).id, (s.sessions w).nickname, (s.sessions w).presence⟩

/-- The sessions of `SessionManager.welcomedUsers`. -/
def welcomedSessions (s : GatewayServer) : List WsId :=
  s.roster.values.filter fun w => (s.sessions w).welcomed

/-- `sendReady`. -/
def sendReady (s : GatewayServer) (w : WsId) : GatewayServer :=
  let session := s.sessions w
  let users := s.welcomedSessions.map s.summarize
  let conversations :=
    Store.publicConversation (users.map (·.id)) :: s.store.conversationsFor session.id
  s.sendTo w
    (.ready session.id session.nickname users conversations (s.store.historyForUser session.id))
    s.welcomedSessions

/-! ### Messages of a client -/

/-- A message with the id and the time of the next draw. -/
def message (s : GatewayServer) (conversationId : Units) (senderId senderUsername : Option Units)
    (text : Units) : MessageSummary :=
  ⟨s.env.uuid s.draws, conversationId, senderId, senderUsername, text, s.env.now s.draws⟩

/-- `MessageStore.append`, of a message of session `w`. -/
def append (s : GatewayServer) (w : WsId) (conversationId text : Units) :
    MessageSummary × GatewayServer :=
  let message :=
  s.message conversationId (some (s.sessions w).id) (some (s.sessions w).nickname) text
  (message, { s with store := s.store.append message, draws := s.draws + 1 })

/-- `ConversationManager.ensureDirect`. -/
def ensureDirect (s : GatewayServer) (a b : Units) : ConversationSummary × GatewayServer :=
  let r := s.store.ensureDirect (s.env.now s.draws) a b
  (r.2, { s with store := r.1, draws := s.draws + 1 })

/-- `handleCreateGroup`. -/
def handleCreateGroup (s : GatewayServer) (w : WsId) (name : Units) (memberIds : List Units) :
    GatewayServer :=
  let uniqueIds := ((s.sessions w).id :: memberIds).eraseDups
  let unknown := uniqueIds.filter fun id => (s.online? id).isNone
  if unknown ≠ [] then
    s.sendError w (units "UNKNOWN_MEMBER")
      (units "Unknown or offline user id(s): " ++ (units ", ").intercalate unknown)
  else
    let r := s.store.createGroup (units "group:" ++ s.env.uuid s.draws) (s.env.now s.draws) name
      uniqueIds
    let s := { s with store := r.1, draws := s.draws + 1 }
    uniqueIds.foldl (fun s id =>
      match s.roster.find? id with
      | some member => s.sendTo member (.conversationCreated r.2)
      | none => s) s

/-- Forward a request: `sendLine`, of a line with the next serial. -/
def forward (s : GatewayServer) (request : Request) (line : Units) : GatewayServer :=
  { s with requests := s.requests ++ [request] }.sendLine request.sender
    ⟨line, some s.requests.length⟩

/-- `handleSendMessage`, the conversation with a peer: both are told if it is new. -/
def openDirect (s : GatewayServer) (w peer : WsId) : Units × GatewayServer :=
  let id := directConversationId (s.sessions w).id (s.sessions peer).id
  let (conversation, s') := s.ensureDirect (s.sessions w).id (s.sessions peer).id
  (conversation.id,
    if s.store.hasDirect id then s'
    else (s'.sendTo w (.conversationCreated conversation)).sendTo peer
      (.conversationCreated conversation))

/-- `handleSendMessage`. -/
def handleSendMessage (s : GatewayServer) (w : WsId) (target : MessageTarget) (text : Units) :
    GatewayServer :=
  let sessionId := (s.sessions w).id
  match target with
  | .everyone =>
    let (own, s) := s.append w publicConversationId text
    (s.sendTo w (.message own)).forward ⟨w, none, text⟩ (formatChatLine text)
  | .direct peerId =>
    match s.online? peerId with
    | none =>
      s.sendError w (units "USER_NOT_FOUND") (units "That user is not currently online.")
        (some (directConversationId sessionId peerId))
    | some peer =>
      let (conversationId, s) := s.openDirect w peer
      let (_, s) := s.append w conversationId text
      s.forward ⟨w, some peer, text⟩ (formatMsgCommand (s.sessions peer).nickname text)
  | .group groupId =>
    match (s.store.getGroup groupId).filter fun memberIds => memberIds.contains sessionId with
    | none =>
      s.sendError w (units "NOT_A_MEMBER") (units "You are not a member of that group.")
        (some groupId)
    | some memberIds =>
      let (summary, s) := s.append w groupId text
      memberIds.foldl (fun s memberId =>
        match s.roster.find? memberId with
        | some member => s.sendTo member (.message summary)
        | none => s) s

/-- `handleClientMessage`. -/
def handleClientMessage (s : GatewayServer) (w : WsId) : ClientMessage → GatewayServer
  | .setNickname nickname => s.sendLine w ⟨formatNickCommand nickname, none⟩
  | .setPresence presence =>
    let s := s.modifySession w fun session => { session with presence := presence }
    s.broadcastToAll (.userUpdate (s.summarize w)) none [w]
  | .requestState => s.sendReady w
  | .createGroup name memberIds => s.handleCreateGroup w name memberIds
  | .sendMessage target text => s.handleSendMessage w target text
  | .register _ _ | .login _ _ | .logout => s

/-- `handleLogout`. -/
def handleLogout (s : GatewayServer) (w : WsId) : GatewayServer :=
  if !(s.sessions w).authenticated
  then s.sendError w (units "NOT_AUTHENTICATED") (units "Not logged in.")
  else (s.sendTo w .loggedOut).closeWs w

/-! ### Authentication -/

/-- `handleAuth`, up to its first `await`, for `register`. -/
def handleRegister (s : GatewayServer) (w : WsId) (username password : Units) : GatewayServer :=
  let failed (message : Units) : GatewayServer := s.sendError w (units "REGISTER_FAILED") message
  if (s.sessions w).authenticated then s.sendError w (units "ALREADY_AUTHENTICATED")
    (units "Already logged in.")
  else
    match validateUsername username with
    | some error => failed error
    | none =>
      match validatePassword password with
      | some error => failed error
      | none =>
        if (s.store.users.findByUsername username).isSome
          then failed (units "That username is already taken.")
        else
          let record := hashPassword s.env password (s.env.randomBytes s.draws)
          { s with hashing := s.hashing ++ [(w, .register username record)], draws := s.draws + 1 }

/-- `handleAuth`, up to its first `await`, for `login`. -/
def handleLogin (s : GatewayServer) (w : WsId) (username password : Units) : GatewayServer :=
  if (s.sessions w).authenticated then s.sendError w (units "ALREADY_AUTHENTICATED")
    (units "Already logged in.")
  else
    match s.store.users.findByUsername username with
    | none => s.sendError w (units "LOGIN_FAILED") (units "Invalid username or password.")
    | some row =>
      let ok := verifyPassword s.env password row.password
      { s with hashing := s.hashing ++ [(w, .login row.id row.username ok)] }

/-- `createBackendConnection` and `connect`. -/
def createBackendConnection (s : GatewayServer) (w : WsId) : GatewayServer :=
  { s.modifySession w (fun session => { session with backend := some s.nextBackend }) with
    backends := Function.update s.backends s.nextBackend ⟨w, .connecting, false⟩
    nextBackend := s.nextBackend + 1 }

/-- A session of the account is in the roster and has not been closed. -/
def connectedElsewhere (s : GatewayServer) (userId : Units) : Bool :=
  match s.roster.find? userId with
  | some existing => !(s.sessions existing).closed
  | none => false

/-- The session takes the account on, joins the roster and connects to the chat server. -/
def join (s : GatewayServer) (w : WsId) (account : UserRecord) : GatewayServer :=
  let s := s.modifySession w fun session =>
    { session with
      id := account.id
      authenticated := true
      desiredUsername := some account.username }
  (s.add account.id w).createBackendConnection w

/-- `handleAuth`, once the account is known. -/
def finishAuth (s : GatewayServer) (w : WsId) (account : UserRecord) : GatewayServer :=
  if s.connectedElsewhere account.id then
    s.sendError w (units "ALREADY_LOGGED_IN") (units "This account is already connected elsewhere.")
  else s.join w account

/-- `handleAuth`, once the hash is there. An `INSERT` that fails is answered as one that repeats a
username is; for an id that has been drawn twice SQLite would name `users.id`. -/
def resumeAuth (s : GatewayServer) (w : WsId) : Attempt → GatewayServer
  | .register username password =>
    let id := s.env.uuid s.draws
    match s.store.users.insert ⟨id, username, password, s.env.now s.draws⟩ with
    | none =>
      s.sendError w (units "REGISTER_FAILED") (units "UNIQUE constraint failed: users.username")
    | some users =>
      { s with store := { s.store with users := users }, draws := s.draws + 1 }.finishAuth w
        ⟨id, username⟩
  | .login id username ok =>
    if ok then s.finishAuth w ⟨id, username⟩
    else s.sendError w (units "LOGIN_FAILED") (units "Invalid username or password.")

/-! ### The WebSocket -/

/-- `onConnection`. -/
def onConnection (s : GatewayServer) : GatewayServer :=
  { s.modifySession s.nextWs
    (fun _ => { id := units "pending:" ++ s.env.uuid s.draws, ws := .opened }) with
    nextWs := s.nextWs + 1
    draws := s.draws + 1 }

/-- `session.backend?.close()`. -/
def closeBackend (s : GatewayServer) (w : WsId) : GatewayServer :=
  match (s.sessions w).backend with
  | none => s
  | some b => s.modifyBackend b .close

/-- `onClientClosed`, of a session that has not been closed, up to what it announces. -/
def leave (s : GatewayServer) (w : WsId) : GatewayServer :=
  let s := s.modifySession w fun session => { session with closed := true }
  if !(s.sessions w).authenticated then s
  else (s.closeBackend w).remove (s.sessions w).id

/-- `onClientClosed`. -/
def onClientClosed (s : GatewayServer) (w : WsId) : GatewayServer :=
  let session := s.sessions w
  if session.closed then s
  else if session.authenticated && session.welcomed then
    (s.leave w).broadcastToAll (.userOffline session.id) (some session.id) []
  else s.leave w

/-- `onClientRaw`, of a message that is valid. -/
def onClientMessage (s : GatewayServer) (w : WsId) (message : ClientMessage) : GatewayServer :=
  match message with
  | .register username password => s.handleRegister w username password
  | .login username password => s.handleLogin w username password
  | .logout => s.handleLogout w
  | message =>
    if !(s.sessions w).authenticated || !(s.sessions w).welcomed then
      s.modifySession w fun session => { session with pending := session.pending ++ [message] }
    else s.handleClientMessage w message

/-- `onClientRaw`, of so many bytes, with what `JSON.parse` makes of them. -/
def onClientRaw (s : GatewayServer) (w : WsId) (byteLength : ℕ) (parsed : Option Json) :
    GatewayServer :=
  if s.config.maxClientMessageBytes < byteLength then
    s.sendError w (units "MESSAGE_TOO_LARGE")
      (units "Message exceeds the " ++ units (toString s.config.maxClientMessageBytes) ++
        units "-byte limit.")
  else
    match parsed with
    | none => s.sendError w (units "BAD_JSON") (units "Message was not valid JSON.")
    | some value =>
      match validateClientMessage value with
      | .error _ => s.raise .typeError
      | .ok (.error error) => s.sendError w (units "BAD_MESSAGE") error
      | .ok (.ok message) => s.onClientMessage w message

/-! ### The chat server -/

/-- `announceReady`. -/
def announceReady (s : GatewayServer) (w : WsId) : GatewayServer :=
  let s := (s.modifySession w Session.ready).sendReady w
  let s := s.broadcastToAll (.userUpdate (s.summarize w)) (some (s.sessions w).id) [w]
  let queued := (s.sessions w).pending
  queued.foldl (fun s message => s.handleClientMessage w message)
    (s.modifySession w fun session => { session with pending := [] })

/-- The case `welcome` of `onBackendEvent`. -/
def onWelcome (s : GatewayServer) (w : WsId) (nickname : Units) : GatewayServer :=
  let s := s.modifySession w fun session => session.welcome nickname
  if (s.sessions w).mustClaim then
    s.sendLine w ⟨formatNickCommand ((s.sessions w).desiredUsername.getD []), none⟩
  else s.announceReady w

/-- `UserStore.rename`; what it throws is swallowed. -/
def renameUser (s : GatewayServer) (userId newUsername : Units) : GatewayServer :=
  { s with store := { s.store with
    users := (s.store.users.rename userId newUsername).getD s.store.users } }

/-- The case `nick` of `onBackendEvent`. -/
def onNick (s : GatewayServer) (w : WsId) (oldNick newNick : Units) : GatewayServer :=
  if oldNick = (s.sessions w).nickname then
    let s := s.modifySession w fun session => session.rename newNick
    if !(s.sessions w).readyAnnounced then s.announceReady w
    else (s.broadcastToAll (.userUpdate (s.summarize w)) none [w]).renameUser
      (s.sessions w).id newNick
  else s

/-- The id of the session that uses a nickname, if there is one. -/
def idByNickname (s : GatewayServer) (nickname : Units) : Option Units :=
  (s.findByNickname nickname).map fun w => (s.sessions w).id

/-- `onBackendEvent`. -/
def onBackendEvent (s : GatewayServer) (w : WsId) : BackendEvent → GatewayServer
  | .welcome nickname => s.onWelcome w nickname
  | .nick oldNick newNick => s.onNick w oldNick newNick
  | .msg sender text =>
    let message := s.message publicConversationId (s.idByNickname sender) (some sender) text
    { s with draws := s.draws + 1 }.sendTo w (.message message)
  | .priv sender text =>
    let senderId := s.idByNickname sender
    let (conversation, s) := s.ensureDirect (s.sessions w).id (senderId.getD sender)
    let message := s.message conversation.id senderId (some sender) text
    { s with draws := s.draws + 1 }.sendTo w (.message message)
  | .privSent recipient text =>
    let (conversation, s) :=
      s.ensureDirect (s.sessions w).id ((s.idByNickname recipient).getD recipient)
    let message :=
      s.message conversation.id (some (s.sessions w).id) (some (s.sessions w).nickname) text
    { s with draws := s.draws + 1 }.sendTo w (.message message)
  | .err code text =>
    if !(s.sessions w).readyAnnounced && code == units "NICK_TAKEN" then
      (s.sendError w (units "LOGIN_FAILED")
        (units
          "This account appears to be connected elsewhere already. Try again shortly.")).closeWs w
    else s.sendError w code text
  | .sys _ | .list _ _ | .unknown _ => s

/-- `onBackendClosed`. -/
def onBackendClosed (s : GatewayServer) (w : WsId) : GatewayServer :=
  if (s.sessions w).closed then s
  else
    (s.sendError w (units "BACKEND_DISCONNECTED")
      (units "Lost connection to the ThreadLink server.")).closeWs w

/-- `handleAuth`, when `connect` has failed. -/
def onConnectFailed (s : GatewayServer) (w : WsId) : GatewayServer :=
  let s :=
  (s.sendError w (units "BACKEND_UNAVAILABLE")
    (units "Could not reach the ThreadLink server.")).closeWs w
  s.remove (s.sessions w).id

/-- `close`. -/
def close (s : GatewayServer) : GatewayServer :=
  { s.roster.values.foldl (fun s w => (s.closeBackend w).closeWs w) s with closing := true }

/-! ### Events -/

/-- What the gateway handles. -/
inductive Event where
  /-- A WebSocket arrives. -/
  | connection
  /-- A message on a WebSocket: how many bytes, and what `JSON.parse` makes of them. -/
  | message (w : WsId) (byteLength : ℕ) (parsed : Option Json)
  /-- The browser starts the closing handshake. -/
  | wsClosing (w : WsId)
  /-- A WebSocket has closed. -/
  | wsClose (w : WsId)
  /-- The hash of an attempt is there. -/
  | authDone (i : ℕ)
  /-- `connect` succeeds. -/
  | connected (b : BackendId)
  /-- `connect` fails. -/
  | connectFailed (b : BackendId)
  /-- A frame from the chat server. -/
  | backendFrame (b : BackendId) (payload : Bytes)
  /-- The header of a frame that is too large. -/
  | backendOversized (b : BackendId)
  /-- The socket of a backend connection has closed. -/
  | backendClose (b : BackendId)
  /-- SIGINT or SIGTERM. -/
  | shutdown

/-- A WebSocket is there and not closed. -/
def live (s : GatewayServer) (w : WsId) : Bool :=
  (s.sessions w).ws == .opened || (s.sessions w).ws == .closing

/-- Handle an event; `none` if it cannot happen. -/
def handle (s : GatewayServer) : Event → Option GatewayServer
  | .connection => if s.closing then none else some s.onConnection
  | .message w byteLength parsed =>
    if s.live w then some (s.onClientRaw w byteLength parsed) else none
  | .wsClosing w => if s.live w then some (s.closeWs w) else none
  | .wsClose w =>
    if s.live w then some
      ((s.modifySession w fun session => { session with ws := .closed }).onClientClosed w)
    else none
  | .authDone i =>
    s.hashing[i]?.map fun a => { s with hashing := s.hashing.eraseIdx i }.resumeAuth a.1 a.2
  | .connected b =>
    if (s.backends b).socket = .connecting then
      some (s.modifyBackend b fun connection => { connection with socket := .opened })
    else none
  | .connectFailed b =>
    if (s.backends b).socket = .connecting then
      some
        ((s.modifyBackend b fun connection => { connection with socket := .ended }).onConnectFailed
        (s.backends b).owner)
    else none
  | .backendFrame b payload =>
    if (s.backends b).socket = .opened ∧ payload.length ≤ s.config.backendMaxMessageBytes then
      some (s.onBackendEvent (s.backends b).owner (parseBackendLine (utf8Decode payload)))
    else none
  | .backendOversized b =>
    if (s.backends b).socket = .opened then some (s.modifyBackend b .close) else none
  | .backendClose b =>
    if (s.backends b).socket = .opened then
      let s' := s.modifyBackend b fun connection =>
        { connection with socket := .ended, closed := true }
      some (if (s.backends b).closed then s' else s'.onBackendClosed (s.backends b).owner)
    else none
  | .shutdown => if s.closing then none else some s.close

/-- One step of the gateway. -/
def step (s : GatewayServer) (e : Event) : Option GatewayServer :=
  if s.fault.isSome then none else s.handle e

end GatewayServer

end ThreadLink.Gateway
