import ThreadLink.Frontend.Conversations

/-!
# The messages of a group in the browser

`chatReducer` keeps the messages of a conversation as they come: those of the last `READY`, if it
has listed the conversation, and after them what has arrived since. What the user does in between,
and the errors that are shown among them, do not matter.

## The model

* `chatsStep` — what an event of the gateway does to the messages of a group.
* `Browses` — a browser that has heard some events, and whose user has done things in between.

## What is proved

* `shown_of_browses` — a browser shows what the events say.
-/

namespace ThreadLink.Frontend

open Text Gateway Runs

variable {c c' : ChatState} {a : ChatAction} {g : Units} {events : List ServerMessage}

/-- What an event does to the messages of a group. -/
def chatsStep (g : Units) (l : List MessageSummary) : ServerMessage → List MessageSummary
  | .ready _ _ _ conversations messages =>
    if ∃ conversation ∈ conversations, conversation.id = g
      then messages.filter fun m => m.conversationId == g else []
  | .loggedOut => []
  | .message m => if m.conversationId = g then l ++ [m] else l
  | .userUpdate _ | .userOffline _ | .conversationCreated _ | .error _ _ _ => l

/-- A message, but for whether it is the user's own. -/
def Message.record (m : Message) : Units × Option Units × Option Units × Units × Units :=
  (m.id, m.senderId, m.sender, m.content, m.timestamp)

/-- The same of what the gateway sends. -/
def recordOf (m : MessageSummary) : Units × Option Units × Option Units × Units × Units :=
  (m.id, m.senderId, m.senderUsername, m.text, m.timestamp)

/-- The chat messages that are shown in a conversation. -/
def shown (c : ChatState) (g : Units) :
    List (Units × Option Units × Option Units × Units × Units) :=
  ((messagesIn c g).filter fun m => m.kind == .chat).map Message.record

/-- What a user does, or the transport, and not the gateway: to start a direct conversation is to
have it created. -/
def ChatAction.isLocal : ChatAction → Bool
  | .conversationCreated conversation => conversation.kind == .direct
  | .setStatus _ | .setActiveConversation _ | .setSidebarOpen _ | .setNicknameModal _
  | .setNewGroupModal _ | .markPendingGroupCreation | .setError _ | .setAuthenticating _ => true
  | _ => false

/-- Only the public conversation is public. -/
def ServerMessage.Named : ServerMessage → Prop
  | .ready _ _ _ conversations _ =>
    ∀ conversation ∈ conversations, conversation.kind = .everyone →
      conversation.id = publicConversationId
  | .conversationCreated conversation => conversation.kind ≠ .everyone
  | _ => True

/-- A browser that has heard events. -/
inductive Browses (c : ChatState) : List ServerMessage → ChatState → Prop where
  /-- None yet. -/
  | refl : Browses c [] c
  /-- One more. -/
  | hear {events : List ServerMessage} {c' rendered : ChatState} {id now : Units}
    (h : Browses c events c') (m : ServerMessage) :
    Browses c (events ++ [m]) (chatReducer c' (handleServerEvent rendered id now m))
  /-- Something is done in between. -/
  | act {events : List ServerMessage} {c' : ChatState} {a : ChatAction} (h : Browses c events c')
    (ha : a.isLocal = true) : Browses c events (chatReducer c' a)

/-- The user may do nothing. -/
theorem browses_of_replays (h : Replays c events c') : Browses c events c' := by
  induction h with
  | refl => exact .refl
  | tail _ m ih => exact .hear ih m

/-- The messages of a list. -/
theorem records_messagesOf (u : Units) (messages : List MessageSummary) :
    ((messagesOf u g messages).filter fun m => m.kind == .chat).map Message.record =
      (messages.filter fun m => m.conversationId == g).map recordOf := by
  unfold messagesOf
  rw [List.filter_map, List.map_map, List.filter_eq_self.mpr]
  · rfl
  · intro m _
    rfl

/-- An action that appends nothing, or only errors. -/
theorem shown_append (h : Filed c) (hC : PublicNamed c a) (ha : a.resets = false)
    {l : List MessageSummary}
    (hl : ((appended g (c, a)).filter fun m => m.kind == .chat).map Message.record =
      l.map recordOf) :
    shown (chatReducer c a) g = shown c g ++ l.map recordOf := by
  rw [shown, messages_step h hC ha, List.filter_append, List.map_append, hl]
  rfl

/-- What is done in between does not matter. -/
theorem shown_local (h : Filed c) (ha : a.isLocal = true) :
    Filed (chatReducer c a) ∧ shown (chatReducer c a) g = shown c g := by
  have hC : PublicNamed c a := by
    cases a with
    | conversationCreated conversation =>
      intro hk
      have hd : conversation.kind = .direct := by simpa [ChatAction.isLocal] using ha
      rw [hd] at hk
      cases hk
    | _ => trivial
  have hr : a.resets = false := by cases a <;> first | rfl | cases ha
  refine ⟨h.step hC, ?_⟩
  have hnone : appended g (c, a) = [] := by cases a <;> first | rfl | cases ha
  have hs := shown_append h hC hr (g := g) (l := []) (by rw [hnone]; rfl)
  rwa [List.map_nil, List.append_nil] at hs

/-- **One event** does to what is shown of a group what it says. -/
theorem shown_event (h : Filed c) (hg : g ≠ publicConversationId) {m : ServerMessage}
    (hm : ServerMessage.Named m) {l : List MessageSummary} (hl : shown c g = l.map recordOf)
    (rendered : ChatState) (id now : Units) :
    Filed (chatReducer c (handleServerEvent rendered id now m)) ∧
      shown (chatReducer c (handleServerEvent rendered id now m)) g =
        (chatsStep g l m).map recordOf := by
  have hsame {a : ChatAction} (hC : PublicNamed c a) (ha : a.resets = false)
      (hn : (appended g (c, a)).filter (fun m => m.kind == .chat) = []) :
      Filed (chatReducer c a) ∧ shown (chatReducer c a) g = l.map recordOf := by
    refine ⟨h.step hC, ?_⟩
    have hs := shown_append h hC ha (g := g) (l := []) (by rw [hn]; rfl)
    rw [hs, hl, List.map_nil, List.append_nil]
  cases m with
  | ready userId username users conversations messages =>
    refine ⟨h.step hm, ?_⟩
    have hr : messagesIn (chatReducer c (.ready userId username users conversations messages)) g =
        if g = publicConversationId ∨ ∃ conversation ∈ conversations, conversation.id = g
          then messagesOf userId g messages else [] :=
      messages_reset [] rfl g
    show ((messagesIn (chatReducer c (.ready userId username users conversations messages))
      g).filter fun m => m.kind == .chat).map Message.record = (if _ then _ else _ : List _).map _
    rw [hr]
    simp only [hg, false_or]
    split
    · exact records_messagesOf ..
    · rfl
  | loggedOut =>
    refine ⟨h.step trivial, ?_⟩
    have hr := messages_reset (c := c) [] (a := .loggedOut) rfl g
    show ((messagesIn (chatReducer c .loggedOut) g).filter _).map _ = _
    rw [hr]
    rfl
  | userUpdate user => exact hsame trivial rfl rfl
  | userOffline userId => exact hsame trivial rfl rfl
  | conversationCreated conversation => exact hsame (fun hk => absurd hk hm) rfl rfl
  | message m =>
    refine ⟨h.step trivial, ?_⟩
    have hs : shown (chatReducer c (.messageReceived m)) g =
        shown c g ++ (if m.conversationId = g then [m] else []).map recordOf := by
      refine shown_append h (show PublicNamed c (.messageReceived m) from trivial) rfl ?_
      show ((if m.conversationId = g then _ else [] : List Message).filter _).map _ = _
      split <;> rfl
    show shown (chatReducer c (.messageReceived m)) g = (if _ then _ else _ : List _).map _
    rw [hs, hl]
    split
    · rw [List.map_append]
    · rw [List.map_nil, List.append_nil]
  | error code text conversationId =>
    show Filed (chatReducer c (if _ then _ else _)) ∧
      shown (chatReducer c (if _ then _ else _)) g = _
    split
    · exact hsame trivial rfl rfl
    · refine hsame trivial rfl ?_
      show (if _ then _ else [] : List Message).filter _ = _
      split <;> rfl

/-- **A browser shows what the events say.** -/
theorem shown_of_browses {gatewayUrl : Units} (h : Browses (createInitialState gatewayUrl) events c)
    (hn : ∀ m ∈ events, ServerMessage.Named m) (hg : g ≠ publicConversationId) :
    shown c g = (events.foldl (chatsStep g) []).map recordOf := by
  suffices Filed c ∧ shown c g = (events.foldl (chatsStep g) []).map recordOf from this.2
  induction h with
  | refl =>
    refine ⟨filed_init gatewayUrl, ?_⟩
    rw [shown, messagesIn, createInitialState, OrdMap.find?_insert, if_neg hg]
    rfl
  | hear _ m ih =>
    obtain ⟨hF, hs⟩ := ih fun m hm => hn m (List.mem_append_left _ hm)
    rw [List.foldl_append]
    exact shown_event hF hg (hn m (List.mem_append_right _ (List.mem_singleton_self m))) hs ..
  | act _ ha ih =>
    obtain ⟨hF, hs⟩ := ih hn
    obtain ⟨hF', hs'⟩ := shown_local hF ha (g := g)
    exact ⟨hF', hs'.trans hs⟩

end ThreadLink.Frontend
