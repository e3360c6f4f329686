import ThreadLink.Frontend.Conversations

/-!
# A conversation that is announced late

A message of a conversation that the browser does not know makes one with a title of its own, which
is taken for a direct one; the summary that arrives afterwards tells what it is.

## The model

* `upgraded` is the conversation that `CONVERSATION_CREATED` stores, as a function of the one that
  is there, as `received` is for `MESSAGE_RECEIVED`.

## What is proved

* `upgraded_received` — the two commute.
* `created_at_any_time` — the summary of a conversation may arrive at any place among its messages.
-/

namespace ThreadLink.Frontend

open Text Gateway

variable {c : ChatState} {summary : ConversationSummary} {m : MessageSummary}
  {old : Option Conversation} {u : Units}

/-- A conversation that is what its summary says, with the messages it has. -/
def upgraded (u : Units) (summary : ConversationSummary) (old : Option Conversation) :
    Conversation :=
  { conversationFromSummary summary u with
    messages := old.elim [] Conversation.messages
    unreadCount := old.elim 0 Conversation.unreadCount }

theorem upgraded_none (u : Units) (summary : ConversationSummary) :
    upgraded u summary none = conversationFromSummary summary u := by
  unfold upgraded conversationFromSummary
  split <;> rfl

/-- A conversation is announced of which the view takes no notice: no group has been asked for. -/
theorem reduceConversationCreated_eq_upgraded (hu : (c.userId.getD []).isEmpty = false)
    (hp : c.pendingGroupCreation = false) (hk : summary.kind ≠ .everyone) :
    reduceConversationCreated c summary = { c with
      conversations := c.conversations.insert summary.id
        (upgraded (c.userId.getD []) summary (c.conversations.find? summary.id)) } := by
  have hid : (conversationFromSummary summary (c.userId.getD [])).id = summary.id :=
    id_conversationFromSummary fun h => absurd h hk
  unfold reduceConversationCreated
  simp only [hu, hp, Bool.false_and, Bool.false_eq_true, if_false]
  cases c.conversations.find? summary.id with
  | none => simp only [hid, upgraded_none]
  | some conv => simp only [hid, upgraded, Option.elim_some]

/-- **A message and the summary commute.** -/
theorem upgraded_received (u active : Units) (summary : ConversationSummary) (m : MessageSummary)
    (old : Option Conversation) :
    upgraded u summary (some (received u active m old)) =
    received u active m (some (upgraded u summary old)) := by
  obtain ⟨-, hmessages, hunread⟩ := placeholder_fields m
  cases old with
  | none =>
    simp only [upgraded, received, Option.elim_some, Option.elim_none, Option.getD_none,
      Option.getD_some, hmessages, hunread]
  | some conv => rfl

/-- The browser has taken the summary before the message: it takes no notice of the order. -/
theorem created_received
    (hold : ∀ conv, c.conversations.find? summary.id = some conv → conv.id = summary.id)
    (hp : c.pendingGroupCreation = false) (hk : summary.kind ≠ .everyone)
    (hm : m.conversationId = summary.id) :
    reduceConversationCreated (reduceMessageReceived c m) summary =
      reduceMessageReceived (reduceConversationCreated c summary) m := by
  have hrec := reduceMessageReceived_eq_received (m := m) (hm ▸ hold)
  by_cases hu : (c.userId.getD []).isEmpty = true
  · have hnone {c' : ChatState} (h : c'.userId = c.userId) :
        reduceConversationCreated c' summary = c' := by
      rw [reduceConversationCreated, h, if_pos hu]
    rw [hnone (by rw [hrec]), hnone rfl]
  · rw [Bool.not_eq_true] at hu
    have hcre := reduceConversationCreated_eq_upgraded hu hp hk
    have hid : (conversationFromSummary summary (c.userId.getD [])).id = summary.id :=
      id_conversationFromSummary fun h => absurd h hk
    have hupg : ∀ conv, (reduceConversationCreated c summary).conversations.find?
      m.conversationId = some conv →
        conv.id = m.conversationId := by
      intro conv hf
      rw [hcre, hm, OrdMap.find?_insert_self] at hf
      rw [← Option.some.inj hf, hm]
      exact hid
    rw [reduceMessageReceived_eq_received hupg,
      reduceConversationCreated_eq_upgraded (by rw [hrec]; exact hu) (by rw [hrec]; exact hp) hk,
      hrec, hcre]
    simp only [hm, OrdMap.find?_insert_self, OrdMap.insert_insert, upgraded_received]

/-- After a message of a conversation, it is still stored under its id. -/
theorem id_of_received
    (hold : ∀ conv, c.conversations.find? summary.id = some conv → conv.id = summary.id)
    (hm : m.conversationId = summary.id) :
    ∀ conv, (reduceMessageReceived c m).conversations.find? summary.id = some conv →
      conv.id = summary.id := by
  intro conv hf
  rw [reduceMessageReceived_eq_received (m := m) (hm ▸ hold), hm, OrdMap.find?_insert_self] at hf
  rw [← Option.some.inj hf, id_received (m := m) (hm ▸ hold), hm]

/-- Messages arrive. -/
def messagesReceived (messages : List MessageSummary) : List ChatAction :=
  messages.map .messageReceived

/-- **The summary may arrive at any time.** When no group has been asked for, it makes no difference
to the state whether the summary of a direct or group conversation comes before its messages,
between them or after them. -/
theorem created_at_any_time (hold : Filed c) (hp : c.pendingGroupCreation = false)
    (hk : summary.kind = .direct ∨ summary.kind = .group) (before after : List MessageSummary)
    (hm : ∀ m ∈ before ++ after, m.conversationId = summary.id) :
    (messagesReceived before ++ .conversationCreated summary :: messagesReceived after).foldl
      chatReducer c =
      (.conversationCreated summary :: messagesReceived (before ++ after)).foldl chatReducer c := by
  have hkind : summary.kind ≠ .everyone := by
    rintro he
    rcases hk with hk | hk <;> rw [hk] at he <;> cases he
  -- each message before the summary changes places with it
  have hmove (before : List MessageSummary) (hb : ∀ m ∈ before, m.conversationId = summary.id) :
      ∀ c : ChatState,
      (∀ conv, c.conversations.find? summary.id = some conv → conv.id = summary.id) →
        c.pendingGroupCreation = false →
        reduceConversationCreated ((messagesReceived before).foldl chatReducer c) summary =
          (messagesReceived before).foldl chatReducer (reduceConversationCreated c summary) := by
    induction before with
    | nil => exact fun _ _ _ => rfl
    | cons m before ih =>
      intro c hold hp
      have hid := hb m (.head _)
      rw [messagesReceived, List.map_cons, List.foldl_cons, List.foldl_cons]
      refine (ih (fun m' h => hb m' (.tail _ h)) (reduceMessageReceived c m)
        (id_of_received hold hid) hp).trans ?_
      exact congrArg (messagesReceived before |>.foldl chatReducer)
        (created_received hold hp hkind hid)
  have happ : messagesReceived (before ++ after) =
      messagesReceived before ++ messagesReceived after := List.map_append
  rw [List.foldl_append, List.foldl_cons, List.foldl_cons, happ, List.foldl_append]
  exact congrArg (messagesReceived after |>.foldl chatReducer)
    (hmove before (fun m h => hm m (List.mem_append_left _ h)) c (hold summary.id) hp)

/-- The user of the examples has logged in. -/
def aliceIn : ChatState := chatReducer (createInitialState []) (.ready [3] (units "alice") [] [] [])

/-- One message of a group arrives before the group is announced, one after it. -/
theorem group_is_announced_late :
    (messagesReceived [groupMessage "first"] ++
      .conversationCreated lunch :: messagesReceived [groupMessage "second"]).foldl
        chatReducer aliceIn =
      (.conversationCreated lunch ::
        messagesReceived [groupMessage "first", groupMessage "second"]).foldl chatReducer aliceIn :=
  created_at_any_time (Filed.step (filed_init []) (by decide)) rfl (.inr rfl) [groupMessage "first"]
    [groupMessage "second"]
    (by decide)

end ThreadLink.Frontend
