import Mathlib.Data.List.DropRight
import Mathlib.Logic.Function.Basic
import ThreadLink.Frontend.WebSocketClient
import ThreadLink.Gateway.Store

/-!
# The browser

`context/ChatProvider.tsx`: the state of the reducer, the transport, and what the components call.

## The model

* `dispatch` reduces at once. `stateRef` has the state that was rendered last.
* The callbacks of the transport run when the method or the handler that calls them has ended;
  none of them calls something after which the transport goes on.
* `given` has what has been given to each socket, in order.
* A server event comes with what `createId` and the clock give when it is reduced.

Not modelled: what the components show, and that the username is saved for the login form.

## What is proved

* `change_of_step` — the user and the status of the connection only change with what the
  transport reports.
-/

namespace ThreadLink.Frontend

open Text Gateway Runs

/-- What `String.prototype.trim` takes away. -/
def isWhitespace (u : UInt16) : Bool :=
  [0x09, 0x0a, 0x0b, 0x0c, 0x0d, 0x20, 0xa0, 0x1680, 0x2028, 0x2029, 0x202f, 0x205f, 0x3000,
    0xfeff].contains u ||
    (0x2000 ≤ u && u ≤ 0x200a)

/-- `String.prototype.trim`. -/
def trim (text : Units) : Units := (text.dropWhile isWhitespace).rdropWhile isWhitespace

/-- `PendingAuth`. -/
inductive PendingAuth where
  /-- `"register"`. -/
  | register (username password : Units)
  /-- `"login"`. -/
  | login (username password : Units)
  deriving DecidableEq, Repr

/-- The message that it becomes. -/
def PendingAuth.message : PendingAuth → ClientMessage
  | .register username password => .register username password
  | .login username password => .login username password

/-- `ChatProvider`. -/
structure ChatProvider where
  /-- `state`. -/
  state : ChatState
  /-- `stateRef`. -/
  stateRef : ChatState
  /-- `clientRef`. -/
  clientRef : Option ThreadLinkClient
  /-- `pendingAuthRef`. -/
  pendingAuthRef : Option PendingAuth
  /-- What has been given to each socket. -/
  given : SocketId → List ClientMessage

/-- Whether an id is there: an empty one counts as none. -/
def truthy (id : Option Units) : Bool := !(id.getD []).isEmpty

/-- Whether `onStatusChange` dispatches `LOGGED_OUT`. -/
def logsOut (stateRef : ChatState) (status : ConnectionStatus) : Bool :=
  status == .failed && truthy stateRef.userId

namespace ChatProvider

/-- The first render. -/
def init (gatewayUrl : Units) : ChatProvider where
  state := createInitialState gatewayUrl
  stateRef := createInitialState gatewayUrl
  clientRef := none
  pendingAuthRef := none
  given _ := []

/-- `dispatch`. -/
def dispatch (p : ChatProvider) (a : ChatAction) : ChatProvider :=
  { p with state := chatReducer p.state a }

/-! ### The transport -/

/-- A message is sent, if there is a transport. What it reports is handled. -/
def send (p : ChatProvider) (message : ClientMessage) : ChatProvider :=
  match p.clientRef with
  | none => p
  | some client =>
    match client.openSocket with
    | none => p.dispatch (.setError (some (units "Not connected to gateway")))
    | some id => { p with given := Function.update p.given id (p.given id ++ [message]) }

/-- `onStatusChange`, what it does when the transport is connected. -/
def sendPending (p : ChatProvider) (status : ConnectionStatus) : ChatProvider :=
  match p.pendingAuthRef with
  | some pending =>
    if status = .connected then { p with pendingAuthRef := none }.send pending.message else p
  | none => p

/-- `onStatusChange`. -/
def onStatusChange (p : ChatProvider) (status : ConnectionStatus) : ChatProvider :=
  let p := (p.dispatch (.setStatus status)).sendPending status
  if logsOut p.stateRef status then p.dispatch .loggedOut else p

/-- A report of the transport is handled. -/
def handle (id now : Units) (p : ChatProvider) : Report → ChatProvider
  | .status status => p.onStatusChange status
  | .event message => p.dispatch (handleServerEvent p.stateRef id now message)
  | .error message => p.dispatch (.setError (some message))
  | .sent _ _ => p

/-- The transport has changed, and its reports are handled. -/
def follow (p : ChatProvider) (client : ThreadLinkClient) (id now : Units) : ChatProvider :=
  client.reports.foldl (handle id now) { p with clientRef := some client }

/-- `ensureClient`. -/
def ensureClient (p : ChatProvider) (thrown : Option (Option Units)) : ChatProvider :=
  match p.clientRef with
  | some _ => p
  | none => p.follow ((ThreadLinkClient.init true 5).connect thrown) [] []

/-! ### What the components call -/

/-- `register` and `login`. -/
def authenticate (p : ChatProvider) (pending : PendingAuth) (thrown : Option (Option Units)) :
    ChatProvider :=
  let p := (p.dispatch (.setAuthenticating true)).ensureClient thrown
  if (p.clientRef.map ThreadLinkClient.isConnected).getD false then p.send pending.message
  else { p with pendingAuthRef := some pending }

/-- `sendMessage`. -/
def sendMessage (p : ChatProvider) (content : Units) : ChatProvider :=
  let trimmed := trim content
  if trimmed.isEmpty then p
  else
    let current := p.stateRef
    if !(p.clientRef.map ThreadLinkClient.isConnected).getD false then
      p.dispatch (.setError (some (units "Not connected to gateway")))
    else
      match current.conversations.find? current.activeConversationId with
      | none => p
      | some active =>
        match active.type with
        | .everyone => p.send (.sendMessage .everyone trimmed)
        | .direct =>
          if truthy active.peerId then p.send
            (.sendMessage (.direct (active.peerId.getD [])) trimmed) else p
        | .group => p.send (.sendMessage (.group active.id) trimmed)

/-- `changeNickname`. -/
def changeNickname (p : ChatProvider) (nickname : Units) : ChatProvider :=
  let trimmed := trim nickname
  if trimmed.isEmpty then p.dispatch (.setError (some (units "Nickname cannot be empty")))
  else
    let sent := (p.clientRef.bind ThreadLinkClient.openSocket).isSome
    let p := p.send (.setNickname trimmed)
    if sent then p.dispatch (.setNicknameModal false) else p

/-- `startDirectConversation`. -/
def startDirectConversation (p : ChatProvider) (peerId : Units) : ChatProvider :=
  let current := p.stateRef
  let userId := current.userId.getD []
  if !truthy current.userId || peerId == userId then p
  else
    let conversationId := directConversationId userId peerId
    let p := if (current.conversations.find? conversationId).isNone then
        p.dispatch (.conversationCreated ⟨conversationId, .direct, [], [userId, peerId]⟩)
      else p
    p.dispatch (.setActiveConversation conversationId)

/-- `createGroup`. -/
def createGroup (p : ChatProvider) (name : Units) (memberIds : List Units) : ChatProvider :=
  let trimmed := trim name
  if trimmed.isEmpty || memberIds.isEmpty then p
  else (p.dispatch .markPendingGroupCreation).send (.createGroup trimmed memberIds)

/-! ### The machine -/

/-- What can happen. -/
inductive Event where
  /-- The effect after the first render. -/
  | mount (thrown : Option (Option Units))
  /-- The effect after any render. -/
  | render
  /-- The transport handles an event of the browser. -/
  | transport (e : ThreadLinkClient.Event) (id now : Units)
  /-- `register` or `login`. -/
  | authenticate (pending : PendingAuth) (thrown : Option (Option Units))
  /-- `logout`. -/
  | logout
  /-- `sendMessage`. -/
  | sendMessage (content : Units)
  /-- `changeNickname`. -/
  | changeNickname (nickname : Units)
  /-- `setPresence`. -/
  | setPresence (presence : Presence)
  /-- `selectConversation` and `openPublicConversation`. -/
  | selectConversation (conversationId : Units)
  /-- `startDirectConversation`. -/
  | startDirectConversation (peerId : Units)
  /-- `createGroup`. -/
  | createGroup (name : Units) (memberIds : List Units)
  /-- `setSidebarOpen`. -/
  | setSidebarOpen (isOpen : Bool)
  /-- `setNicknameModalOpen`. -/
  | setNicknameModalOpen (isOpen : Bool)
  /-- `setNewGroupModalOpen`. -/
  | setNewGroupModalOpen (isOpen : Bool)

/-- An event that the browser fires at the transport: no method is called. -/
def fired : ThreadLinkClient.Event → Bool
  | .connect _ | .disconnect | .send _ => false
  | _ => true

/-- One event. -/
def step (p : ChatProvider) : Event → Option ChatProvider
  | .mount thrown => some (p.ensureClient thrown)
  | .render => some { p with stateRef := p.state }
  | .transport e id now => do
    guard (fired e)
    let client ← p.clientRef
    let client ← client.step e
    some (p.follow client id now)
  | .authenticate pending thrown => some (p.authenticate pending thrown)
  | .logout => some (p.send .logout)
  | .sendMessage content => some (p.sendMessage content)
  | .changeNickname nickname => some (p.changeNickname nickname)
  | .setPresence presence => some (p.send (.setPresence presence))
  | .selectConversation conversationId => some (p.dispatch (.setActiveConversation conversationId))
  | .startDirectConversation peerId => some (p.startDirectConversation peerId)
  | .createGroup name memberIds => some (p.createGroup name memberIds)
  | .setSidebarOpen isOpen => some (p.dispatch (.setSidebarOpen isOpen))
  | .setNicknameModalOpen isOpen => some (p.dispatch (.setNicknameModal isOpen))
  | .setNewGroupModalOpen isOpen => some (p.dispatch (.setNewGroupModal isOpen))

/-! ### The user and the status of the connection -/

variable {p p' p'' : ChatProvider} {e : Event}

/-- Nothing of it changes. -/
structure Kept (p p' : ChatProvider) : Prop where
  /-- The transport. -/
  clientRef : p'.clientRef = p.clientRef
  /-- The status. -/
  connectionStatus : p'.state.connectionStatus = p.state.connectionStatus
  /-- The user. -/
  userId : p'.state.userId = p.state.userId

theorem Kept.refl (p : ChatProvider) : Kept p p := ⟨rfl, rfl, rfl⟩

theorem Kept.trans (h : Kept p p') (h' : Kept p' p'') : Kept p p'' :=
  ⟨h'.clientRef.trans h.clientRef, h'.connectionStatus.trans h.connectionStatus,
    h'.userId.trans h.userId⟩

/-- An action that changes neither the user nor the status. -/
def plain : ChatAction → Bool
  | .setStatus _ | .ready _ _ _ _ _ | .loggedOut => false
  | _ => true

theorem plain_chatReducer (c : ChatState) {a : ChatAction} (ha : plain a = true) :
    (chatReducer c a).userId = c.userId ∧
    (chatReducer c a).connectionStatus = c.connectionStatus := by
  cases a with
  | setStatus | ready | loggedOut => cases ha
  | conversationCreated conversation =>
    show (reduceConversationCreated c conversation).userId = _ ∧
      (reduceConversationCreated c conversation).connectionStatus = _
    unfold reduceConversationCreated
    dsimp only
    split <;> exact ⟨rfl, rfl⟩
  | errorMessage code message conversationId id now =>
    show (reduceErrorMessage c message conversationId id now).userId = _ ∧
      (reduceErrorMessage c message conversationId id now).connectionStatus = _
    unfold reduceErrorMessage
    dsimp only
    split <;> exact ⟨rfl, rfl⟩
  | setActiveConversation conversationId =>
    show (reduceSetActive c conversationId).userId = _ ∧
      (reduceSetActive c conversationId).connectionStatus = _
    unfold reduceSetActive
    split <;> exact ⟨rfl, rfl⟩
  | _ => exact ⟨rfl, rfl⟩

theorem kept_dispatch (p : ChatProvider) {a : ChatAction} (ha : plain a = true) :
    Kept p (p.dispatch a) :=
  ⟨rfl, (plain_chatReducer p.state ha).2, (plain_chatReducer p.state ha).1⟩

theorem kept_send (p : ChatProvider) (message : ClientMessage) : Kept p (p.send message) := by
  unfold send
  split
  · exact .refl p
  · split
    · exact kept_dispatch p rfl
    · exact ⟨rfl, rfl, rfl⟩

theorem kept_sendPending (p : ChatProvider) (status : ConnectionStatus) :
    Kept p (p.sendPending status) := by
  unfold sendPending
  split
  · split
    · rename_i pending _ _
      have hsend := kept_send { p with pendingAuthRef := none } pending.message
      exact ⟨hsend.clientRef, hsend.connectionStatus, hsend.userId⟩
    · exact .refl p
  · exact .refl p

/-- The account of a `ready`. -/
def readyFor : ServerMessage → Option Units
  | .ready userId _ _ _ _ => some userId
  | _ => none

/-- What reports do: the status becomes the last of them, and there is no new user but that of
a `ready`. -/
structure Follows (reports : List Report) (p p' : ChatProvider) : Prop where
  /-- The transport does not change. -/
  clientRef : p'.clientRef = p.clientRef
  /-- The status. -/
  connectionStatus : p'.state.connectionStatus =
    reports.foldl ThreadLinkClient.statusAfter p.state.connectionStatus
  /-- The user. -/
  userId : ∀ u, p'.state.userId = some u → p.state.userId = some u ∨ ∃ m, .event m ∈ reports ∧
    readyFor m = some u

theorem Follows.trans {reports reports' : List Report} (h : Follows reports p p')
    (h' : Follows reports' p' p'') : Follows (reports ++ reports') p p'' := by
  refine ⟨h'.clientRef.trans h.clientRef, ?_, ?_⟩
  · rw [h'.connectionStatus, h.connectionStatus, List.foldl_append]
  · intro u hu
    rcases h'.userId u hu with hu | ⟨m, hm, hr⟩
    · rcases h.userId u hu with hu | ⟨m, hm, hr⟩
      · exact .inl hu
      · exact .inr ⟨m, List.mem_append_left _ hm, hr⟩
    · exact .inr ⟨m, List.mem_append_right _ hm, hr⟩

theorem Kept.follows {r : Report} (h : Kept p p')
    (hr : ThreadLinkClient.statusAfter p.state.connectionStatus r = p.state.connectionStatus) :
    Follows [r] p p' :=
  ⟨h.clientRef, h.connectionStatus.trans hr.symm, fun _ hu => .inl (h.userId ▸ hu)⟩

theorem follows_onStatusChange (p : ChatProvider) (status : ConnectionStatus) :
    Follows [.status status] p (p.onStatusChange status) := by
  have hpending := kept_sendPending (p.dispatch (.setStatus status)) status
  unfold onStatusChange
  dsimp only
  split
  · exact ⟨hpending.clientRef, hpending.connectionStatus, fun u hu => by cases hu⟩
  · exact ⟨hpending.clientRef, hpending.connectionStatus, fun u hu => .inl (hpending.userId ▸ hu)⟩

theorem follows_handle (id now : Units) (p : ChatProvider) (r : Report) :
    Follows [r] p (handle id now p r) := by
  cases r with
  | status status => exact follows_onStatusChange p status
  | error message => exact (kept_dispatch p rfl).follows rfl
  | sent socket message => exact (Kept.refl p).follows rfl
  | event message =>
    have hplain (h : plain (handleServerEvent p.stateRef id now message) = true) :
        Follows [.event message] p (handle id now p (.event message)) :=
        (kept_dispatch p h).follows rfl
    cases message with
    | ready userId username users conversations messages =>
      exact ⟨rfl, rfl, fun u hu => .inr ⟨_, .head _, hu⟩⟩
    | loggedOut => exact ⟨rfl, rfl, fun u hu => by cases hu⟩
    | error code message conversationId =>
      apply hplain
      unfold handleServerEvent
      dsimp only
      split <;> rfl
    | _ => exact hplain rfl

/-- **What is reported is followed.** -/
theorem follows_follow (p : ChatProvider) (client : ThreadLinkClient) (id now : Units) :
    Follows client.reports { p with clientRef := some client } (p.follow client id now) := by
  unfold follow
  generalize { p with clientRef := some client } = q
  induction client.reports using List.reverseRecOn with
  | nil => exact ⟨rfl, rfl, fun u hu => .inl hu⟩
  | append_singleton reports r ih =>
    rw [List.foldl_append]
    exact ih.trans (follows_handle id now _ r)

/-- What changes. -/
inductive Change (p : ChatProvider) : Event → ChatProvider → Prop where
  /-- Nothing. -/
  | kept {e : Event} {p' : ChatProvider} (h : Kept p p') : Change p e p'
  /-- The transport is made. -/
  | created {e : Event} {p' : ChatProvider} {thrown : Option (Option Units)}
    (hn : p.clientRef = none)
    (hc : p'.clientRef = some ((ThreadLinkClient.init true 5).connect thrown))
    (hs : p'.state.connectionStatus = ((ThreadLinkClient.init true 5).connect thrown).status)
    (hu : ∀ u, p'.state.userId = some u → p.state.userId = some u) : Change p e p'
  /-- The transport handles an event of the browser. -/
  | transport {event : ThreadLinkClient.Event} {id now : Units} {client client' : ThreadLinkClient}
    {p' : ChatProvider}
    (hf : fired event = true) (hc : p.clientRef = some client)
      (hs : client.step event = some client')
    (h : Follows client'.reports { p with clientRef := some client' } p') :
    Change p (.transport event id now) p'

theorem change_ensureClient (p : ChatProvider) (e : Event) (thrown : Option (Option Units)) :
    Change p e (p.ensureClient thrown) := by
  unfold ensureClient
  split
  · exact .kept (.refl p)
  · rename_i hn
    have hfollows := follows_follow p ((ThreadLinkClient.init true 5).connect thrown) [] []
    have htold :=
      ThreadLinkClient.told_connect p.state.connectionStatus (ThreadLinkClient.init true 5) thrown
    refine .created hn hfollows.clientRef (hfollows.connectionStatus.trans htold.symm) ?_
    intro u hu
    apply (hfollows.userId u hu).resolve_right
    rintro ⟨m, hm, -⟩
    have hreports := ThreadLinkClient.connect_reports (ThreadLinkClient.init true 5) thrown
    rw [show { ThreadLinkClient.init true 5 with reports := [] } = ThreadLinkClient.init true 5 from
      rfl] at hreports
    rw [hreports] at hm
    cases thrown <;> simp at hm

theorem Change.before (h : Change p' e p'') (hk : Kept p p') : Change p e p'' := by
  cases h with
  | kept h => exact .kept (hk.trans h)
  | created hn hc hs hu => exact .created (hk.clientRef ▸ hn) hc hs fun u h => hk.userId ▸ hu u h
  | transport hf hc hs h =>
    refine .transport hf (hk.clientRef ▸ hc) hs ⟨h.clientRef, ?_, ?_⟩
    · rw [h.connectionStatus]
      exact congrArg (List.foldl _ · _) hk.connectionStatus
    · intro u hu
      rcases h.userId u hu with hu | hu
      · exact .inl (hk.userId ▸ hu)
      · exact .inr hu

theorem Change.after (h : Change p e p') (hk : Kept p' p'') : Change p e p'' := by
  cases h with
  | kept h => exact .kept (h.trans hk)
  | created hn hc hs hu =>
    exact .created hn (hk.clientRef.trans hc) (hk.connectionStatus.trans hs) fun u h =>
      hu u (hk.userId ▸ h)
  | transport hf hc hs h =>
    exact .transport hf hc hs
      ⟨hk.clientRef.trans h.clientRef, hk.connectionStatus.trans h.connectionStatus,
      fun u hu => h.userId u (hk.userId ▸ hu)⟩

/-- **What changes.** -/
theorem change_of_step (hs : p.step e = some p') : Change p e p' := by
  cases e with
  | mount thrown =>
    cases hs
    exact change_ensureClient p _ thrown
  | render =>
    cases hs
    exact .kept ⟨rfl, rfl, rfl⟩
  | transport event id now =>
    obtain ⟨u, hf, hs⟩ := Option.bind_eq_some_iff.mp hs
    obtain ⟨client, hc, hs⟩ := Option.bind_eq_some_iff.mp hs
    obtain ⟨client', hs', hs⟩ := Option.bind_eq_some_iff.mp hs
    cases hs
    exact .transport ((Option.guard_eq_some' _).mp hf) hc hs' (follows_follow p client' id now)
  | authenticate pending thrown =>
    cases hs
    have hchange :=
      (change_ensureClient (p.dispatch (.setAuthenticating true)) (.authenticate pending thrown)
        thrown).before
      (kept_dispatch p rfl)
    unfold authenticate
    dsimp only
    split
    · exact hchange.after (kept_send _ _)
    · exact hchange.after ⟨rfl, rfl, rfl⟩
  | logout =>
    cases hs
    exact .kept (kept_send p _)
  | sendMessage content =>
    cases hs
    refine .kept ?_
    unfold sendMessage
    dsimp only
    split
    · exact .refl p
    · split
      · exact kept_dispatch p rfl
      · split
        · exact .refl p
        · split
          · exact kept_send p _
          · split
            · exact kept_send p _
            · exact .refl p
          · exact kept_send p _
  | changeNickname nickname =>
    cases hs
    refine .kept ?_
    unfold changeNickname
    dsimp only
    split
    · exact kept_dispatch p rfl
    · split
      · exact (kept_send p _).trans (kept_dispatch _ rfl)
      · exact kept_send p _
  | setPresence presence =>
    cases hs
    exact .kept (kept_send p _)
  | startDirectConversation peerId =>
    cases hs
    refine .kept ?_
    unfold startDirectConversation
    dsimp only
    split
    · exact .refl p
    · split
      · exact (kept_dispatch p rfl).trans (kept_dispatch _ rfl)
      · exact kept_dispatch p rfl
  | createGroup name memberIds =>
    cases hs
    refine .kept ?_
    unfold createGroup
    dsimp only
    split
    · exact .refl p
    · exact (kept_dispatch p rfl).trans (kept_send _ _)
  | selectConversation | setSidebarOpen | setNicknameModalOpen | setNewGroupModalOpen =>
    cases hs
    exact .kept (kept_dispatch p rfl)

end ChatProvider

end ThreadLink.Frontend
