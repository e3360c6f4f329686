import Mathlib.Data.List.Sort
import ThreadLink.Gateway.ClientProtocol
import ThreadLink.Lib.OrdMap

/-!
# The state of the browser

`context/chatState.ts`, and what `context/ChatProvider.tsx` makes of an event of the
gateway. The reducer takes a state and an action to a state.

## The model

* A `Record` is a map that keeps the order of insertion. Its keys are ids that the gateway
  makes; none looks like an array index, which an object would put first.
* An action `ERROR_MESSAGE` holds what `createId` and the clock give when it is reduced.
* A `Date` is the text it is made of.
* `handleServerEvent` looks at the state that was rendered last, which need not be the
  state the action is reduced in.

Not modelled: that the username is saved for the login form.

## What is proved

* `users_of_replays` — whatever state was rendered and whatever is drawn, the users map after
  a sequence of events is what `usersStep` folds of them.
-/

namespace ThreadLink.Frontend

open Text Gateway

/-! ### Data -/

/-- `PUBLIC_CONVERSATION_ID`. -/
def publicConversationId : Units := units "public"

/-- `directConversationId`: `sort` compares code units. -/
def directConversationId (a b : Units) : Units :=
  units "direct:" ++ List.intercalate (units ":") ([a, b].insertionSort (· ≤ ·))

/-- `MessageKind`. -/
inductive MessageKind where
  /-- `"chat"`. -/
  | chat
  /-- `"system"`. -/
  | system
  /-- `"error"`. -/
  | error
  deriving DecidableEq, Repr

/-- `ConnectionStatus`. -/
inductive ConnectionStatus where
  /-- `"idle"`. -/
  | idle
  /-- `"connecting"`. -/
  | connecting
  /-- `"connected"`. -/
  | connected
  /-- `"disconnected"`. -/
  | disconnected
  /-- `"reconnecting"`. -/
  | reconnecting
  /-- `"failed"`. -/
  | failed
  deriving DecidableEq, Repr

/-- `User`. -/
structure User where
  /-- The account. -/
  id : Units
  /-- Its live nickname. -/
  nickname : Units
  /-- Its presence. -/
  presence : Presence
  deriving DecidableEq, Repr

/-- `Message`. -/
structure Message where
  /-- The message. -/
  id : Units
  /-- Its kind. -/
  kind : MessageKind
  /-- The account that sent it. -/
  senderId : Option Units
  /-- The nickname it was sent under. -/
  sender : Option Units := none
  /-- The text. -/
  content : Units
  /-- When it was made. -/
  timestamp : Units
  /-- The user has sent it. -/
  isOwn : Bool
  deriving DecidableEq, Repr

/-- `Conversation`. -/
structure Conversation where
  /-- The conversation. -/
  id : Units
  /-- Its kind. -/
  type : ConversationKind
  /-- Its title. -/
  title : Units
  /-- The other user of a direct conversation. -/
  peerId : Option Units := none
  /-- Its members, if it has a list of them. -/
  memberIds : Option (List Units) := none
  /-- Its messages. -/
  messages : List Message := []
  /-- How many of them have not been seen. -/
  unreadCount : ℕ := 0
  deriving DecidableEq, Repr

/-- `ChatState`. -/
structure ChatState where
  /-- The state of the WebSocket. -/
  connectionStatus : ConnectionStatus
  /-- Where the gateway is. -/
  gatewayUrl : Units
  /-- The account, if logged in. -/
  userId : Option Units
  /-- Its nickname. -/
  nickname : Units
  /-- Its presence. -/
  presence : Presence
  /-- Who is online. -/
  users : OrdMap Units User
  /-- The conversations. -/
  conversations : OrdMap Units Conversation
  /-- The one that is shown. -/
  activeConversationId : Units
  /-- The sidebar is open. -/
  sidebarOpen : Bool
  /-- The dialog for a new nickname is. -/
  nicknameModalOpen : Bool
  /-- The dialog for a new group is. -/
  newGroupModalOpen : Bool
  /-- A group has been asked for. -/
  pendingGroupCreation : Bool
  /-- A register or login is under way. -/
  authenticating : Bool
  /-- What the login screen shows. -/
  authError : Option Units
  /-- What the chat shows. -/
  lastError : Option Units
  /-- `ready` has arrived once. -/
  hasConnectedOnce : Bool

/-- `ChatAction`. -/
inductive ChatAction where
  /-- `SET_STATUS`. -/
  | setStatus (status : ConnectionStatus)
  /-- `READY`. -/
  | ready (userId username : Units) (users : List UserSummary)
    (conversations : List ConversationSummary)
    (messages : List MessageSummary)
  /-- `USER_UPDATE`. -/
  | userUpdate (user : UserSummary)
  /-- `USER_OFFLINE`. -/
  | userOffline (userId : Units)
  /-- `CONVERSATION_CREATED`. -/
  | conversationCreated (conversation : ConversationSummary)
  /-- `MESSAGE_RECEIVED`. -/
  | messageReceived (message : MessageSummary)
  /-- `ERROR_MESSAGE`, with the id and the time it is given. -/
  | errorMessage (code message : Units) (conversationId : Option Units) (id now : Units)
  /-- `SET_ACTIVE_CONVERSATION`. -/
  | setActiveConversation (conversationId : Units)
  /-- `SET_SIDEBAR_OPEN`. -/
  | setSidebarOpen (isOpen : Bool)
  /-- `SET_NICKNAME_MODAL`. -/
  | setNicknameModal (isOpen : Bool)
  /-- `SET_NEW_GROUP_MODAL`. -/
  | setNewGroupModal (isOpen : Bool)
  /-- `MARK_PENDING_GROUP_CREATION`. -/
  | markPendingGroupCreation
  /-- `SET_ERROR`. -/
  | setError (message : Option Units)
  /-- `SET_AUTHENTICATING`. -/
  | setAuthenticating (value : Bool)
  /-- `AUTH_ERROR`. -/
  | authError (message : Units)
  /-- `LOGGED_OUT`. -/
  | loggedOut

/-! ### The reducer -/

/-- `createPublicConversation`. -/
def createPublicConversation (memberIds : List Units) : Conversation :=
  { id := publicConversationId, type := .everyone, title := units "Public Chat",
    memberIds := some memberIds }

/-- `conversationFromSummary`. -/
def conversationFromSummary (summary : ConversationSummary) (selfId : Units) : Conversation :=
  match summary.kind with
  | .direct =>
    { id := summary.id, type := .direct, title := summary.title,
      peerId := summary.memberIds.find? (· != selfId) }
  | .group =>
    { id := summary.id, type := .group, title := summary.title,
      memberIds := some summary.memberIds }
  | .everyone => createPublicConversation summary.memberIds

/-- `messageFromSummary`. -/
def messageFromSummary (m : MessageSummary) (selfId : Units) : Message :=
  { id := m.id, kind := .chat, senderId := m.senderId, sender := m.senderUsername,
    content := m.text,
    timestamp := m.timestamp, isOwn := m.senderId == some selfId }

/-- A user, as the map has it. -/
def userFromSummary (u : UserSummary) : User := ⟨u.id, u.username, u.presence⟩

/-- The case `READY`, the users. -/
def readyUsers (users : List UserSummary) : OrdMap Units User :=
  users.foldl (fun m u => m.insert u.id (userFromSummary u)) .empty

/-- The case `READY`, the conversations: the public one is made of the users, and a message
of a conversation that is not there is dropped. -/
def readyConversations (userId : Units) (users : List UserSummary)
    (conversations : List ConversationSummary) (messages : List MessageSummary) :
    OrdMap Units Conversation :=
  let known := conversations.foldl (fun m summary =>
      if summary.id = publicConversationId then m
        else m.insert summary.id (conversationFromSummary summary userId))
    (OrdMap.empty.insert publicConversationId (createPublicConversation (users.map (·.id))))
  messages.foldl (fun known m => known.modify m.conversationId fun conv =>
    { conv with messages := conv.messages ++ [messageFromSummary m userId] }) known

/-- The conversations, with other members of the public one, if it is there. -/
def withPublicMembers (conversations : OrdMap Units Conversation) (f : List Units → List Units) :
    OrdMap Units Conversation :=
  match conversations.find? publicConversationId with
  | none => conversations
  | some publicConv =>
    conversations.insert publicConversationId
      { publicConv with memberIds := some (f (publicConv.memberIds.getD [])) }

/-- The case `USER_UPDATE`. -/
def reduceUserUpdate (state : ChatState) (u : UserSummary) : ChatState :=
  let user := userFromSummary u
  let isSelf := state.userId == some u.id
  { state with
    users := state.users.insert user.id user
    nickname := if isSelf then user.nickname else state.nickname
    presence := if isSelf then user.presence else state.presence
    conversations := withPublicMembers state.conversations fun memberIds =>
      if memberIds.contains user.id then memberIds else memberIds ++ [user.id] }

/-- The case `CONVERSATION_CREATED`: what is known of its messages is kept, and a group that
was asked for is shown. -/
def reduceConversationCreated (state : ChatState) (summary : ConversationSummary) : ChatState :=
  let userId := state.userId.getD []
  if userId.isEmpty then state
  else
    let existing := state.conversations.find? summary.id
    let incoming := conversationFromSummary summary userId
    let merged := match existing with
      | some conv => { incoming with messages := conv.messages, unreadCount := conv.unreadCount }
      | none => incoming
    let isNewGroupIJustCreated := state.pendingGroupCreation && summary.kind == .group &&
      summary.memberIds.contains userId && existing.isNone
    { state with
      conversations := state.conversations.insert merged.id merged
      activeConversationId := if isNewGroupIJustCreated then merged.id
        else state.activeConversationId
      pendingGroupCreation := if isNewGroupIJustCreated then false else state.pendingGroupCreation
      newGroupModalOpen := if isNewGroupIJustCreated then false else state.newGroupModalOpen }

/-- The case `MESSAGE_RECEIVED`: a conversation that is not there is made. -/
def reduceMessageReceived (state : ChatState) (m : MessageSummary) : ChatState :=
  let conversation := (state.conversations.find? m.conversationId).getD
    (if m.conversationId = publicConversationId then createPublicConversation []
      else
        { id := m.conversationId, type := .direct,
          title := m.senderUsername.getD (units "Unknown") })
  let message := messageFromSummary m (state.userId.getD [])
  let isActive := state.activeConversationId == conversation.id
  { state with
    conversations := state.conversations.insert conversation.id
      { conversation with
        messages := conversation.messages ++ [message]
        unreadCount := if isActive then 0 else conversation.unreadCount + 1 } }

/-- The case `ERROR_MESSAGE`. -/
def reduceErrorMessage (state : ChatState) (text : Units) (conversationId : Option Units)
    (id now : Units) : ChatState :=
  let conversationId := conversationId.getD state.activeConversationId
  let message : Message :=
    { id := id, kind := .error, senderId := none, content := text, timestamp := now,
      isOwn := false }
  match state.conversations.find? conversationId with
  | none => { state with lastError := some text }
  | some conversation =>
    { state with
      lastError := some text
      conversations := state.conversations.insert conversationId
        { conversation with messages := conversation.messages ++ [message] } }

/-- The case `SET_ACTIVE_CONVERSATION`. -/
def reduceSetActive (state : ChatState) (conversationId : Units) : ChatState :=
  match state.conversations.find? conversationId with
  | none => state
  | some conversation =>
    { state with
      activeConversationId := conversationId
      conversations :=
        state.conversations.insert conversationId { conversation with unreadCount := 0 }
      sidebarOpen := false }

/-- `chatReducer`. -/
def chatReducer (state : ChatState) : ChatAction → ChatState
  | .setStatus status => { state with connectionStatus := status }
  | .ready userId username users conversations messages =>
    { state with
      userId := some userId
      nickname := username
      presence := .online
      users := readyUsers users
      conversations := readyConversations userId users conversations messages
      activeConversationId := publicConversationId
      authenticating := false
      authError := none
      hasConnectedOnce := true }
  | .userUpdate user => reduceUserUpdate state user
  | .userOffline userId =>
    { state with
      users := state.users.erase userId
      conversations := withPublicMembers state.conversations fun memberIds =>
        memberIds.filter (· != userId) }
  | .conversationCreated conversation => reduceConversationCreated state conversation
  | .messageReceived message => reduceMessageReceived state message
  | .errorMessage _ message conversationId id now =>
    reduceErrorMessage state message conversationId id now
  | .setActiveConversation conversationId => reduceSetActive state conversationId
  | .setSidebarOpen isOpen => { state with sidebarOpen := isOpen }
  | .setNicknameModal isOpen => { state with nicknameModalOpen := isOpen }
  | .setNewGroupModal isOpen => { state with newGroupModalOpen := isOpen }
  | .markPendingGroupCreation => { state with pendingGroupCreation := true }
  | .setError message => { state with lastError := message }
  | .setAuthenticating value =>
    { state with authenticating := value, authError := if value then none else state.authError }
  | .authError message => { state with authenticating := false, authError := some message }
  | .loggedOut =>
    { state with
      userId := none
      nickname := []
      presence := .online
      users := .empty
      conversations := OrdMap.empty.insert publicConversationId (createPublicConversation [])
      activeConversationId := publicConversationId
      authenticating := false
      lastError := none }

/-- `createInitialState`. -/
def createInitialState (gatewayUrl : Units) : ChatState where
  connectionStatus := .idle
  gatewayUrl := gatewayUrl
  userId := none
  nickname := []
  presence := .online
  users := .empty
  conversations := OrdMap.empty.insert publicConversationId (createPublicConversation [])
  activeConversationId := publicConversationId
  sidebarOpen := false
  nicknameModalOpen := false
  newGroupModalOpen := false
  pendingGroupCreation := false
  authenticating := false
  authError := none
  lastError := none
  hasConnectedOnce := false

/-! ### Events of the gateway -/

/-- `handleServerEvent`, of an event that arrives when `rendered` is the last state that was
rendered. -/
def handleServerEvent (rendered : ChatState) (id now : Units) : ServerMessage → ChatAction
  | .ready userId username users conversations messages =>
    .ready userId username users conversations messages
  | .loggedOut => .loggedOut
  | .userUpdate user => .userUpdate user
  | .userOffline userId => .userOffline userId
  | .conversationCreated conversation => .conversationCreated conversation
  | .message message => .messageReceived message
  | .error code message conversationId =>
    if rendered.userId.isNone then .authError message
      else .errorMessage code message conversationId id now

/-- Replaying events: each is made an action, which is reduced. -/
inductive Replays (c : ChatState) : List ServerMessage → ChatState → Prop where
  /-- Nothing has arrived. -/
  | refl : Replays c [] c
  /-- One more event arrives. -/
  | tail {events : List ServerMessage} {c' rendered : ChatState} {id now : Units}
    (h : Replays c events c')
    (m : ServerMessage) :
    Replays c (events ++ [m]) (chatReducer c' (handleServerEvent rendered id now m))

/-- Any events can be replayed. -/
theorem exists_replays (c : ChatState) (events : List ServerMessage) :
    ∃ c', Replays c events c' := by
  induction events using List.reverseRecOn with
  | nil => exact ⟨c, .refl⟩
  | append_singleton events m ih =>
    obtain ⟨c', hc⟩ := ih
    exact ⟨_, @Replays.tail c _ c' c' [] [] hc m⟩

/-- What an event does to the users map. -/
def usersStep (users : OrdMap Units User) : ServerMessage → OrdMap Units User
  | .ready _ _ users _ _ => readyUsers users
  | .loggedOut => .empty
  | .userUpdate user => users.insert user.id (userFromSummary user)
  | .userOffline userId => users.erase userId
  | .conversationCreated _ | .message _ | .error _ _ _ => users

/-- What an event does to the users map does not depend on what was rendered or is drawn. -/
theorem users_chatReducer (c rendered : ChatState) (id now : Units) (m : ServerMessage) :
    (chatReducer c (handleServerEvent rendered id now m)).users = usersStep c.users m := by
  cases m with
  | ready => rfl
  | loggedOut => rfl
  | userUpdate => rfl
  | userOffline => rfl
  | conversationCreated conversation =>
    show (reduceConversationCreated c conversation).users = c.users
    unfold reduceConversationCreated
    dsimp only
    split <;> rfl
  | message => rfl
  | error code message conversationId =>
    unfold handleServerEvent
    dsimp only
    split
    · rfl
    · show (reduceErrorMessage c message conversationId id now).users = c.users
      unfold reduceErrorMessage
      dsimp only
      split <;> rfl

/-- **The users map of a replay.** -/
theorem users_of_replays {c c' : ChatState} {events : List ServerMessage}
    (h : Replays c events c') : c'.users = events.foldl usersStep c.users := by
  induction h with
  | refl => rfl
  | tail _ m ih => rw [users_chatReducer, ih, List.foldl_append, List.foldl_cons, List.foldl_nil]

theorem readyUsers_append (users : List UserSummary) (u : UserSummary) :
    readyUsers (users ++ [u]) = (readyUsers users).insert u.id (userFromSummary u) := by
  rw [readyUsers, List.foldl_append]
  rfl

/-- Only users of the list are in the map. -/
theorem find?_readyUsers_eq_none {users : List UserSummary} {id : Units}
    (h : ∀ u ∈ users, u.id ≠ id) : (readyUsers users).find? id = none := by
  induction users using List.reverseRecOn with
  | nil => rfl
  | append_singleton users v ih =>
    rw [readyUsers_append,
      OrdMap.find?_insert_of_ne _ (h v (List.mem_append_right _ List.mem_cons_self)).symm]
    exact ih fun u hu => h u (List.mem_append_left _ hu)

/-- A user of the list is, if no other has the same id. -/
theorem find?_readyUsers {users : List UserSummary} {u : UserSummary} (hu : u ∈ users)
    (hn : ∀ v ∈ users, v.id = u.id → v = u) :
    (readyUsers users).find? u.id = some (userFromSummary u) := by
  induction users using List.reverseRecOn with
  | nil => cases hu
  | append_singleton users v ih =>
    rw [readyUsers_append]
    by_cases hid : v.id = u.id
    · obtain rfl := hn v (List.mem_append_right _ List.mem_cons_self) hid
      exact OrdMap.find?_insert_self ..
    · rw [OrdMap.find?_insert_of_ne _ (Ne.symm hid)]
      refine ih ?_ fun w hw => hn w (List.mem_append_left _ hw)
      rcases List.mem_append.mp hu with hu | hu
      · exact hu
      · rw [List.mem_singleton.mp hu] at hid
        exact absurd rfl hid

end ThreadLink.Frontend
