import ThreadLink.Gateway.Server

/-!
# What a handler does, and why

A handler is a sequence of deeds: it sends an event, keeps a message or a conversation,
gives a line to a backend connection, or changes the presence or the queue of the session
it acts for. A deed has a cause: the message that is handled, the session that becomes
ready, is renamed or leaves, or the event of the chat server that has arrived.

## What is proved

* `handleClientMessage_deeds` — what handling a message of a client does.
* `announceReady_deeds` — what announcing a session does, the messages that have waited
  included.
-/

namespace ThreadLink.Gateway

open Text Relation

/-- Why a handler does something. -/
inductive Cause where
  /-- A message of a client is handled. -/
  | message (w : WsId) (m : ClientMessage)
  /-- A message of a client has to wait. -/
  | wait (w : WsId) (m : ClientMessage)
  /-- A session is ready. -/
  | ready (w : WsId)
  /-- A session that is ready has a new nickname. -/
  | rename (w : WsId)
  /-- A session leaves. -/
  | leave (w : WsId)
  /-- An event of the chat server has arrived. -/
  | event (w : WsId) (e : BackendEvent)
  /-- Something has to be answered. -/
  | answer
  deriving DecidableEq

/-- The session a cause acts for. -/
def Cause.Acts : Cause → WsId → Prop
  | .message w _, x | .wait w _, x | .ready w, x | .rename w, x | .event w _, x => x = w
  | .leave _, _ | .answer, _ => False

namespace GatewayServer

variable {P Q : Cause → Prop} {c : Cause} {s t u : GatewayServer} {w x : WsId}

/-! ### What is sent, and to whom -/

/-- What `sendReady` sends. -/
def readyMessage (s : GatewayServer) (w : WsId) : ServerMessage :=
  let users := s.welcomedSessions.map s.summarize
  .ready (s.sessions w).id (s.sessions w).nickname users
    (Store.publicConversation (users.map (·.id)) :: s.store.conversationsFor (s.sessions w).id)
    (s.store.historyForUser (s.sessions w).id)

/-- The users of a group that a session creates. -/
def groupIds (s : GatewayServer) (w : WsId) (memberIds : List Units) : List Units :=
  ((s.sessions w).id :: memberIds).eraseDups

/-- What a broadcast reaches: a session in the roster that has been welcomed. -/
def Reached (s : GatewayServer) (x : WsId) : Prop :=
  x ∈ s.roster.values ∧ (s.sessions x).welcomed = true

/-- The events that are sent for a reason. -/
inductive Told (s : GatewayServer) : Cause → WsId → Sent → Prop where
  /-- `ready`. -/
  | ready {c : Cause} {w : WsId} (hc : c = .ready w ∨ c = .message w .requestState) :
    Told s c w ⟨s.readyMessage w, s.welcomedSessions⟩
  /-- A session that is ready is announced to the others. -/
  | announced {w x : WsId} (hx : s.Reached x) (hne : (s.sessions x).id ≠ (s.sessions w).id) :
    Told s (.ready w) x ⟨.userUpdate (s.summarize w), [w]⟩
  /-- A new nickname is. -/
  | renamed {w x : WsId} (hx : s.Reached x) :
    Told s (.rename w) x ⟨.userUpdate (s.summarize w), [w]⟩
  /-- A presence is. -/
  | presence {w x : WsId} {p : Presence} (hx : s.Reached x) :
    Told s (.message w (.setPresence p)) x ⟨.userUpdate (s.summarize w), [w]⟩
  /-- A session that has left is. -/
  | offline {w x : WsId} (hx : s.Reached x) (hne : (s.sessions x).id ≠ (s.sessions w).id) :
    Told s (.leave w) x ⟨.userOffline (s.sessions w).id, []⟩
  /-- The sender's own copy of a public message, which is stored. -/
  | echo {w : WsId} {text : Units} {m : MessageSummary}
    (hm : Store.messageRow m ∈ s.store.messages)
    (hc : m.conversationId = publicConversationId) (hs : m.senderId = some (s.sessions w).id)
      (ht : m.text = text) :
    Told s (.message w (.sendMessage .everyone text)) w ⟨.message m, []⟩
  /-- A direct conversation is new. -/
  | opened {w x peer : WsId} {peerId text : Units} (hp : s.online? peerId = some peer)
    (hd : s.store.hasDirect (directConversationId (s.sessions w).id (s.sessions peer).id) = false)
    (hx : x = w ∨ x = peer) :
    Told s (.message w (.sendMessage (.direct peerId) text)) x
      ⟨.conversationCreated
        ⟨directConversationId (s.sessions w).id (s.sessions peer).id, .direct, [],
        [(s.sessions w).id, (s.sessions peer).id]⟩, []⟩
  /-- A group is new. -/
  | created {w x : WsId} {name id : Units} {memberIds : List Units}
    {conversation : ConversationSummary}
    (ho : ∀ i ∈ s.groupIds w memberIds, (s.online? i).isSome = true)
    (hc : conversation.memberIds = s.groupIds w memberIds)
    (hm : ∀ i ∈ s.groupIds w memberIds, (conversation.id, i) ∈ s.store.members.rows)
    (hi : id ∈ s.groupIds w memberIds) (hx : s.roster.find? id = some x) :
    Told s (.message w (.createGroup name memberIds)) x ⟨.conversationCreated conversation, []⟩
  /-- A message to a group. -/
  | group {w x : WsId} {groupId text id : Units} {memberIds : List Units} {m : MessageSummary}
    (hg : s.store.getGroup groupId = some memberIds) (hw : (s.sessions w).id ∈ memberIds)
    (hc : m.conversationId = groupId) (hs : m.senderId = some (s.sessions w).id)
    (hi : id ∈ memberIds) (hx : s.roster.find? id = some x) :
    Told s (.message w (.sendMessage (.group groupId) text)) x ⟨.message m, []⟩
  /-- A public message of another user. -/
  | relayed {w : WsId} {sender text : Units} {m : MessageSummary}
    (hc : m.conversationId = publicConversationId)
    (hs : m.senderId = s.idByNickname sender) (hn : m.senderUsername = some sender)
      (ht : m.text = text) :
    Told s (.event w (.msg sender text)) w ⟨.message m, []⟩
  /-- A direct message of another user. -/
  | priv {w : WsId} {sender text : Units} {m : MessageSummary}
    (hc : m.conversationId =
      directConversationId (s.sessions w).id ((s.idByNickname sender).getD sender))
    (hs : m.senderId = s.idByNickname sender) (hn : m.senderUsername = some sender)
      (ht : m.text = text) :
    Told s (.event w (.priv sender text)) w ⟨.message m, []⟩
  /-- A direct message has been delivered. -/
  | privSent {w : WsId} {recipient text : Units} {m : MessageSummary}
    (hc : m.conversationId =
      directConversationId (s.sessions w).id ((s.idByNickname recipient).getD recipient))
    (hs : m.senderId = some (s.sessions w).id) (ht : m.text = text) :
    Told s (.event w (.privSent recipient text)) w ⟨.message m, []⟩

/-- The conversations a text may be sent to. -/
def SentTo (s : GatewayServer) (w : WsId) : MessageTarget → Units → Prop
  | .everyone, id => id = publicConversationId
  | .direct peerId, id =>
    ∃ peer, s.online? peerId = some peer ∧
      id = directConversationId (s.sessions w).id (s.sessions peer).id
  | .group groupId, id =>
    id = groupId ∧ ∃ memberIds, s.store.getGroup groupId = some memberIds ∧
      (s.sessions w).id ∈ memberIds

/-- The other user of a direct conversation. -/
inductive Other (s : GatewayServer) : Cause → WsId → Units → Prop where
  /-- It is the peer of a message. -/
  | peer {w peer : WsId} {peerId text : Units} (hp : s.online? peerId = some peer) :
    Other s (.message w (.sendMessage (.direct peerId) text)) w (s.sessions peer).id
  /-- It is the sender of one. -/
  | sender {w : WsId} {sender text : Units} :
    Other s (.event w (.priv sender text)) w ((s.idByNickname sender).getD sender)
  /-- It is the recipient. -/
  | recipient {w : WsId} {recipient text : Units} :
    Other s (.event w (.privSent recipient text)) w ((s.idByNickname recipient).getD recipient)

/-- A user's text is kept in a conversation, as SQLite stores it. -/
def Keeps (s : GatewayServer) (conversationId senderId text : Units) : Prop :=
  ∃ m ∈ s.store.messages, m.conversationId = conversationId ∧ m.senderId = some senderId ∧
    m.text = stored text

/-! ### Deeds -/

/-- One thing a handler does. -/
inductive Deed (s : GatewayServer) : Cause → GatewayServer → Prop where
  /-- An error is sent. -/
  | error {c : Cause} (x : WsId) (code text : Units) (conversationId : Option Units) :
    Deed s c { s with
      sent := Function.update s.sent x (s.sent x ++ [⟨.error code text conversationId, []⟩]) }
  /-- A logout is confirmed, and the WebSocket closed. -/
  | loggedOut {x : WsId} (h : (s.sessions x).authenticated = true)
      (ho : (s.sessions x).ws ≠ .opened) :
    Deed s .answer { s with sent := Function.update s.sent x (s.sent x ++ [⟨.loggedOut, []⟩]) }
  /-- Another event is sent. -/
  | tell {c : Cause} {x : WsId} {m : Sent} (ho : (s.sessions x).ws = .opened) (h : Told s c x m) :
    Deed s c { s with sent := Function.update s.sent x (s.sent x ++ [m]) }
  /-- A presence changes. -/
  | presence {w : WsId} {p : Presence} :
    Deed s (.message w (.setPresence p))
      (s.modifySession w fun session => { session with presence := p })
  /-- A message has to wait. -/
  | wait {w : WsId} {m : ClientMessage} :
    Deed s (.wait w m)
      (s.modifySession w fun session => { session with pending := session.pending ++ [m] })
  /-- No message waits any more. -/
  | drain {w : WsId} :
    Deed s (.ready w) (s.modifySession w fun session => { session with pending := [] })
  /-- Ids, times or random bytes are drawn. -/
  | draw {c : Cause} {draws : ℕ} (hd : s.draws ≤ draws) : Deed s c { s with draws := draws }
  /-- A message is kept. -/
  | append {w : WsId} {target : MessageTarget} {text : Units} {m : MessageSummary} {draws : ℕ}
    (hd : s.draws ≤ draws)
    (hc : s.SentTo w target m.conversationId) (hs : m.senderId = some (s.sessions w).id)
      (ht : m.text = text) :
    Deed s (.message w (.sendMessage target text))
      { s with store := s.store.append m, draws := draws }
  /-- A direct conversation is. -/
  | ensureDirect {c : Cause} {w : WsId} {b : Units} (h : s.Other c w b) :
    Deed s c (s.ensureDirect (s.sessions w).id b).2
  /-- A group is. -/
  | createGroup {w : WsId} {name : Units} {memberIds : List Units}
    (ho : ∀ i ∈ s.groupIds w memberIds, (s.online? i).isSome = true) :
    Deed s (.message w (.createGroup name memberIds))
      { s with
        store :=
          (s.store.createGroup (units "group:" ++ s.env.uuid s.draws) (s.env.now s.draws) name
          (s.groupIds w memberIds)).1
        draws := s.draws + 1 }
  /-- A `/nick` line is given to the backend connection. -/
  | nick {c : Cause} {w : WsId} {nickname : Units}
    (hc : c = .message w (.setNickname nickname) ∨ ∃ own, c = .event w (.welcome own)) :
    Deed s c (s.sendLine w ⟨formatNickCommand nickname, none⟩)
  /-- A chat line is, when its text has been kept. -/
  | chat {w : WsId} {text : Units} (hk : s.Keeps publicConversationId (s.sessions w).id text) :
    Deed s (.message w (.sendMessage .everyone text))
      (s.forward ⟨w, none, text⟩ (formatChatLine text))
  /-- A `/msg` line is. -/
  | direct {w peer : WsId} {peerId text : Units} (hp : s.online? peerId = some peer)
    (hk : s.Keeps (directConversationId (s.sessions w).id (s.sessions peer).id)
      (s.sessions w).id text) :
    Deed s (.message w (.sendMessage (.direct peerId) text))
      (s.forward ⟨w, some peer, text⟩ (formatMsgCommand (s.sessions peer).nickname text))

/-- The events that are sent to a session: an error, the confirmation of a logout, and those
that are sent for a reason. -/
inductive Sends (s : GatewayServer) (c : Cause) (x : WsId) : Sent → Prop where
  /-- An error. -/
  | error (code text : Units) (conversationId : Option Units) :
    Sends s c x ⟨.error code text conversationId, []⟩
  /-- `loggedOut`. -/
  | loggedOut (h : (s.sessions x).authenticated = true) (ho : (s.sessions x).ws ≠ .opened) :
    Sends s c x ⟨.loggedOut, []⟩
  /-- Another event. -/
  | told {m : Sent} (ho : (s.sessions x).ws = .opened) (h : Told s c x m) : Sends s c x m

/-- A line given to a backend connection changes nothing else. -/
theorem sendLine_eq (s : GatewayServer) (w : WsId) (line : Line) :
    s.sendLine w line =
    { s with fault := (s.sendLine w line).fault, outbox := (s.sendLine w line).outbox } := by
  unfold sendLine
  split
  · rfl
  · split <;> rfl

/-- What a deed sends to a session: nothing, or one event. -/
theorem Deed.sent (h : Deed s c t) (x : WsId) :
    t.sent x = s.sent x ∨ ∃ m, t.sent x = s.sent x ++ [m] ∧ Sends s c x m := by
  have hone {y : WsId} {m : Sent} (hm : Sends s c y m) (sent : WsId → List Sent)
      (hs : sent = Function.update s.sent y (s.sent y ++ [m])) :
      sent x = s.sent x ∨ ∃ m, sent x = s.sent x ++ [m] ∧ Sends s c x m := by
    rw [hs]
    by_cases hx : x = y
    · subst hx
      exact .inr ⟨m, Function.update_self .., hm⟩
    · exact .inl (Function.update_of_ne hx ..)
  cases h with
  | error y code text conversationId => exact hone (.error code text conversationId) _ rfl
  | loggedOut h ho => exact hone (.loggedOut h ho) _ rfl
  | tell ho h => exact hone (.told ho h) _ rfl
  | nick => exact .inl (by rw [sendLine_eq])
  | chat => exact .inl (by rw [forward, sendLine_eq])
  | direct => exact .inl (by rw [forward, sendLine_eq])
  | _ => exact .inl rfl

theorem Deed.messages (h : Deed s c t) : t.store.messages = s.store.messages ∨
    ∃ w target m, t.store.messages = s.store.messages ++ [m] ∧ s.SentTo w target m.conversationId ∧
      m.senderId = some (s.sessions w).id := by
  cases h with
  | append _ hc hs => exact .inr ⟨_, _, _, rfl, hc, hs⟩
  | @ensureDirect c w other =>
    left
    show (s.store.ensureDirect _ _ _).1.messages = _
    unfold Store.ensureDirect
    dsimp only
    split <;> rfl
  | nick => exact .inl (by rw [sendLine_eq])
  | chat => exact .inl (by rw [forward, sendLine_eq])
  | direct => exact .inl (by rw [forward, sendLine_eq])
  | _ => exact .inl rfl

/-- What a handler does for causes of `P`. -/
def Deeds (P : Cause → Prop) : GatewayServer → GatewayServer → Prop :=
  ReflTransGen fun s t => ∃ c, P c ∧ Deed s c t

theorem Deeds.refl (s : GatewayServer) : Deeds P s s := ReflTransGen.refl

theorem Deeds.trans (h : Deeds P s t) (h' : Deeds P t u) : Deeds P s u := ReflTransGen.trans h h'

/-- One more thing is done. -/
theorem Deeds.then (h : Deeds P s t) (hc : P c) (h' : Deed t c u) : Deeds P s u :=
  ReflTransGen.tail h ⟨c, hc, h'⟩

theorem Deeds.mono (h : Deeds P s t) (hPQ : ∀ c, P c → Q c) : Deeds Q s t :=
  ReflTransGen.mono (fun _ _ ⟨c, hc, hd⟩ => ⟨c, hPQ c hc, hd⟩) _ _ h

/-- What has been sent to a session, each event by one of the deeds. -/
theorem Deeds.sent (h : Deeds P s t) (x : WsId) :
    ∃ extra, t.sent x = s.sent x ++ extra ∧
      ∀ m ∈ extra, ∃ u c, Deeds P s u ∧ P c ∧ Sends u c x m ∧ Deeds P u t := by
  induction h with
  | refl => exact ⟨[], (List.append_nil _).symm, fun _ hm => absurd hm List.not_mem_nil⟩
  | @tail u v hu hd ih =>
    obtain ⟨extra, he, hq⟩ := ih
    obtain ⟨c, hc, hd⟩ := hd
    have hold : ∀ m ∈ extra, ∃ u c, Deeds P s u ∧ P c ∧ Sends u c x m ∧ Deeds P u v := by
      intro m hm
      obtain ⟨u', c', hu', hc', hm', hd'⟩ := hq m hm
      exact ⟨u', c', hu', hc', hm', hd'.then hc hd⟩
    rcases hd.sent x with hx | ⟨m, hx, hm⟩
    · exact ⟨extra, hx.trans he, hold⟩
    · refine ⟨extra ++ [m], by rw [hx, he, List.append_assoc], ?_⟩
      intro m' hm'
      rcases List.mem_append.mp hm' with hm' | hm'
      · exact hold m' hm'
      · rw [List.mem_singleton.mp hm']
        exact ⟨u, c, hu, hc, hm, (Deeds.refl u).then hc hd⟩

/-- Sending changes the record of what was sent only. -/
theorem sendTo_eq (s : GatewayServer) (x : WsId) (m : ServerMessage) (about : List WsId) :
    s.sendTo x m about = { s with sent := (s.sendTo x m about).sent } := by
  unfold GatewayServer.sendTo
  split <;> rfl

/-- A session whose WebSocket is open is sent what it is sent. -/
theorem sent_sendTo_self {w : WsId} (ho : (s.sessions w).ws = .opened) (m : ServerMessage)
    (about : List WsId) : (s.sendTo w m about).sent w = s.sent w ++ [⟨m, about⟩] := by
  rw [sendTo, if_pos ho]
  exact Function.update_self ..

theorem Deeds.tell (h : Deeds P s t) (hc : P c) {m : ServerMessage} {about : List WsId}
    (ht : Told t c x ⟨m, about⟩) : Deeds P s (t.sendTo x m about) := by
  unfold sendTo
  split
  · rename_i ho
    exact h.then hc (.tell ho ht)
  · exact h

theorem Deeds.error (h : Deeds P s t) (hc : P c) (x : WsId) (code text : Units)
    (conversationId : Option Units) : Deeds P s (t.sendError x code text conversationId) := by
  unfold sendError sendTo
  split
  · exact h.then hc (.error x code text conversationId)
  · exact h

/-- What is sent to one after the other. -/
theorem Deeds.sends {α : Type*} {f : GatewayServer → α → GatewayServer} {l : List α}
    (h : Deeds P s t)
    (hf : ∀ a ∈ l, ∀ sent, ∃ sent', f { t with sent := sent } a = { t with sent := sent' } ∧
      Deeds P { t with sent := sent } { t with sent := sent' }) :
    Deeds P s (l.foldl f t) := by
  suffices ∀ (l' : List α), (∀ a ∈ l', a ∈ l) → ∀ sent, Deeds P s { t with sent := sent } →
      Deeds P s (l'.foldl f { t with sent := sent }) from this l (fun _ => id) t.sent h
  intro l'
  induction l' with
  | nil => exact fun _ _ h => h
  | cons a l' ih =>
    intro hl sent h
    obtain ⟨sent', he, hd⟩ := hf a (hl a List.mem_cons_self) sent
    rw [List.foldl_cons, he]
    exact ih (fun b hb => hl b (List.mem_cons_of_mem a hb)) sent' (h.trans hd)

/-- One event is sent, or none. -/
theorem Deeds.sends_one {sent : WsId → List Sent} {m : ServerMessage} {about : List WsId} (hc : P c)
    (ht : Told { t with sent := sent } c x ⟨m, about⟩) :
    ∃ sent', ({ t with sent := sent } : GatewayServer).sendTo x m about = { t with sent := sent' } ∧
      Deeds P { t with sent := sent } { t with sent := sent' } := by
  have he := sendTo_eq { t with sent := sent } x m about
  exact ⟨_, he, he ▸ (Deeds.refl _).tell hc ht⟩

/-- A broadcast. -/
theorem Deeds.broadcast (h : Deeds P s t) (hc : P c) (m : ServerMessage) (ex : Option Units)
    (about : List WsId)
    (ht : ∀ sent x, t.Reached x → some (t.sessions x).id ≠ ex →
      Told { t with sent := sent } c x ⟨m, about⟩) :
    Deeds P s (t.broadcastToAll m ex about) := by
  apply h.sends
  intro x hx sent
  dsimp only
  split_ifs with he hw
  · exact ⟨sent, rfl, .refl _⟩
  · exact ⟨sent, rfl, .refl _⟩
  · exact Deeds.sends_one hc (ht sent x ⟨hx, by simpa using hw⟩ he)

/-! ### Messages of a client -/

theorem handleCreateGroup_deeds {name : Units} {memberIds : List Units}
    (hc : P (.message w (.createGroup name memberIds))) :
    Deeds P s (s.handleCreateGroup w name memberIds) := by
  unfold handleCreateGroup
  dsimp only
  split
  · exact (Deeds.refl s).error hc ..
  · rename_i hu
    have ho : ∀ i ∈ s.groupIds w memberIds, (s.online? i).isSome = true := by
      simpa [groupIds, Option.isSome_iff_ne_none] using hu
    apply ((Deeds.refl s).then hc (.createGroup ho)).sends
    intro id hid sent
    split
    · rename_i member hm
      refine Deeds.sends_one hc (.created ho rfl ?_ hid hm)
      intro i hi
      exact Members.mem_rows_addAll.mpr (.inr ⟨i, hi, rfl⟩)
    · exact ⟨sent, rfl, .refl _⟩

/-- Keeping a direct conversation and sending do not depend on each other. -/
theorem ensureDirect_sendTo (s : GatewayServer) (x : WsId) (m : ServerMessage) (about : List WsId)
    (a b : Units) :
    ((s.sendTo x m about).ensureDirect a b).2 = (s.ensureDirect a b).2.sendTo x m about := by
  unfold sendTo ensureDirect
  dsimp only
  split <;> rfl

/-- A direct conversation is kept, and both users are told if it is new. -/
theorem openDirect_deeds {peer : WsId} {peerId text : Units} (hp : s.online? peerId = some peer)
    (hc : P (.message w (.sendMessage (.direct peerId) text))) :
    Deeds P s (s.openDirect w peer).2 := by
  unfold openDirect
  dsimp only
  split
  · exact (Deeds.refl s).then hc (.ensureDirect (.peer hp))
  · rename_i hd
    have hd : s.store.hasDirect (directConversationId (s.sessions w).id (s.sessions peer).id) =
        false := by
      simpa using hd
    -- both are told first
    rw [← ensureDirect_sendTo, ← ensureDirect_sendTo]
    have hw := (Deeds.refl s).tell hc (.opened (w := w) hp hd (.inl rfl))
    rw [sendTo_eq s w] at hw ⊢
    have hb := hw.tell hc (.opened (w := w) hp hd (.inr rfl))
    rw [sendTo_eq _ peer] at hb ⊢
    exact hb.then hc (.ensureDirect (.peer hp))

/-- The roster and the sessions stay as they are. -/
theorem openDirect_eq (s : GatewayServer) (w peer : WsId) :
    (s.openDirect w peer).2 =
      { s with
        store := (s.openDirect w peer).2.store
        draws := s.draws + 1
        sent := (s.openDirect w peer).2.sent } := by
  unfold openDirect
  dsimp only
  split
  · rfl
  · rw [sendTo_eq _ peer, sendTo_eq _ w]
    rfl

theorem handleSendMessage_deeds {target : MessageTarget} {text : Units}
    (hc : P (.message w (.sendMessage target text))) :
    Deeds P s (s.handleSendMessage w target text) := by
  unfold handleSendMessage
  cases target with
  | everyone =>
    have ha : Deeds P s (s.append w publicConversationId text).2 :=
      (Deeds.refl s).then hc (.append (Nat.le_succ _) rfl rfl rfl)
    have hm : Store.messageRow (s.append w publicConversationId text).1 ∈
        (s.append w publicConversationId text).2.store.messages :=
      List.mem_append_right _ (List.mem_singleton_self _)
    have ht := ha.tell hc (.echo (w := w) hm rfl rfl rfl)
    rw [sendTo_eq] at ht
    dsimp only
    rw [sendTo_eq]
    exact ht.then hc (.chat ⟨_, hm, rfl, rfl, rfl⟩)
  | direct peerId =>
    dsimp only
    split
    · exact (Deeds.refl s).error hc ..
    · rename_i peer hp
      have ho : Deeds P s (s.openDirect w peer).2 := openDirect_deeds hp hc
      rw [openDirect_eq] at ho ⊢
      have ha :
          Deeds P s (GatewayServer.append _ w
            (directConversationId (s.sessions w).id (s.sessions peer).id) text).2 :=
        ho.then hc (.append (Nat.le_succ _) ⟨peer, hp, rfl⟩ rfl rfl)
      exact ha.then hc
        (.direct hp ⟨_, List.mem_append_right _ (List.mem_singleton_self _), rfl, rfl, rfl⟩)
  | group groupId =>
    dsimp only
    split
    · exact (Deeds.refl s).error hc ..
    · rename_i memberIds hg
      obtain ⟨hg, hw⟩ := Option.filter_eq_some_iff.mp hg
      have hw : (s.sessions w).id ∈ memberIds := by simpa using hw
      have ha : Deeds P s (s.append w groupId text).2 :=
        (Deeds.refl s).then hc (.append (Nat.le_succ _) ⟨rfl, memberIds, hg, hw⟩ rfl rfl)
      apply ha.sends
      intro id hid sent
      split
      · rename_i member hm
        exact Deeds.sends_one hc (.group hg hw rfl rfl hid hm)
      · exact ⟨sent, rfl, .refl _⟩

theorem sendReady_deeds (hc : P c) (hw : c = .ready w ∨ c = .message w .requestState) :
    Deeds P s (s.sendReady w) :=
  (Deeds.refl s).tell hc (.ready hw)

/-- **Handling a message of a client** has that message for a cause. -/
theorem handleClientMessage_deeds {m : ClientMessage} (hc : P (.message w m)) :
    Deeds P s (s.handleClientMessage w m) := by
  cases m with
  | setNickname nickname => exact (Deeds.refl s).then hc (.nick (.inl rfl))
  | setPresence presence =>
    apply ((Deeds.refl s).then hc .presence).broadcast hc _ _ _
    intro sent x hx _
    exact .presence hx
  | requestState => exact sendReady_deeds hc (.inr rfl)
  | createGroup name memberIds => exact handleCreateGroup_deeds hc
  | sendMessage target text => exact handleSendMessage_deeds hc
  | register => exact .refl s
  | login => exact .refl s
  | logout => exact .refl s

/-- What has waited is handled in order. -/
theorem replay_deeds {queued : List ClientMessage} (h : Deeds P s t)
    (hc : ∀ m ∈ queued, P (.message w m)) :
    Deeds P s (queued.foldl (fun s m => s.handleClientMessage w m) t) := by
  induction queued generalizing t with
  | nil => exact h
  | cons m queued ih =>
    exact ih (h.trans (handleClientMessage_deeds (hc m List.mem_cons_self))) fun m' hm =>
      hc m' (List.mem_cons_of_mem m hm)

/-- A broadcast changes the record of what was sent only. -/
theorem broadcastToAll_eq (s : GatewayServer) (m : ServerMessage) (x : Option Units)
    (about : List WsId) :
    s.broadcastToAll m x about = { s with sent := (s.broadcastToAll m x about).sent } := by
  unfold GatewayServer.broadcastToAll
  generalize s.roster.values = l
  induction l generalizing s with
  | nil => rfl
  | cons y l ih =>
    simp only [List.foldl_cons]
    split_ifs
    · exact ih s
    · exact ih s
    · rw [ih, sendTo_eq s y m about]

/-- **Announcing a session**, after it has been marked as ready: it is told, then the others
are, then the messages that have waited are handled. -/
theorem announceReady_split (hc : P (.ready w)) :
    ∃ t, Deeds P ((s.modifySession w Session.ready).sendReady w) t ∧ (t.sessions w).pending = [] ∧
      s.announceReady w = (s.sessions w).pending.foldl
        (fun s m => s.handleClientMessage w m) t := by
  have hb := (Deeds.refl ((s.modifySession w Session.ready).sendReady w)).broadcast hc
    (.userUpdate (((s.modifySession w Session.ready).sendReady w).summarize w))
    (some ((((s.modifySession w Session.ready).sendReady w).sessions w).id)) [w]
      fun sent x hx hne =>
      .announced hx fun he => hne (congrArg some he)
  have hs :=
    sendTo_eq (s.modifySession w Session.ready) w ((s.modifySession w Session.ready).readyMessage w)
    (s.modifySession w Session.ready).welcomedSessions
  refine ⟨_, hb.then hc .drain, by simp [modifySession], ?_⟩
  unfold announceReady
  dsimp only
  congr 1
  rw [broadcastToAll_eq, show (s.modifySession w Session.ready).sendReady w = _ from hs]
  simp [modifySession, Session.ready]

/-- It has that for a cause, or the messages that have waited. -/
theorem announceReady_deeds (hc : P (.ready w))
    (hm : ∀ m ∈ (s.sessions w).pending, P (.message w m)) :
    Deeds P (s.modifySession w Session.ready) (s.announceReady w) := by
  obtain ⟨t, ht, -, he⟩ := announceReady_split (s := s) (w := w) hc
  rw [he]
  exact replay_deeds ((sendReady_deeds hc (.inl rfl)).trans ht) hm

end GatewayServer

end ThreadLink.Gateway
