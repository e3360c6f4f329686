import Mathlib.Data.List.DropRight
import ThreadLink.Frontend.Restore
import ThreadLink.Lib.Runs

/-!
# The conversations of a browser

Several cases of `chatReducer` make a conversation anew out of parts of the old one. This module
has what is left of it after any sequence of actions: which messages it has, and how many of them
count as unread.

## The model

* `step` makes a machine of the reducer, so that what has happened is the list of the states with
  the actions that were reduced in them.
* `READY` and `LOGGED_OUT` make all conversations anew.

## What is proved

* `messages_of_path` — a conversation has the messages that the last `READY` restored to it, and
  after them those that have been appended since.
* `coherent_of_path` — the conversations are stored under their ids, the public one has the users
  for members, and what is unread is what has been received since the conversation was shown.
-/

namespace ThreadLink.Frontend

open Text Gateway Runs

/-! ### What has happened -/

/-- One action. -/
def step (c : ChatState) (a : ChatAction) : Option ChatState := some (chatReducer c a)

/-- What has happened when actions are reduced one after the other. -/
def pastOf : ChatState → List ChatAction → List (ChatState × ChatAction)
  | _, [] => []
  | c, a :: actions => (c, a) :: pastOf (chatReducer c a) actions

/-- Any actions can be. -/
theorem path_of_actions {C : ChatState → ChatAction → Prop} {actions : List ChatAction}
    (c : ChatState) (h : ∀ e ∈ pastOf c actions, C e.1 e.2) :
    PathIn step C c (pastOf c actions) (actions.foldl chatReducer c) := by
  induction actions generalizing c with
  | nil => exact .refl
  | cons a actions ih =>
    have hfirst : PathIn step C c [(c, a)] (chatReducer c a) := .tail .refl (h _ (.head _)) rfl
    exact hfirst.append (ih _ fun e he => h e (List.mem_cons_of_mem _ he))

/-- An action that makes all conversations anew. -/
def ChatAction.resets : ChatAction → Bool
  | .ready _ _ _ _ _ | .loggedOut => true
  | _ => false

/-- What has happened since all conversations were made anew. -/
def sinceReset (past : List (ChatState × ChatAction)) : List (ChatState × ChatAction) :=
  past.rtakeWhile fun e => !e.2.resets

/-- The action that did it. -/
def lastReset (past : List (ChatState × ChatAction)) : Option ChatAction :=
  ((past.rdropWhile fun e => !e.2.resets).getLast?).map Prod.snd

variable {past : List (ChatState × ChatAction)} {c c' : ChatState} {a : ChatAction} {id : Units}
  {conv : Conversation} {conversations : OrdMap Units Conversation} {m : MessageSummary}
  {old : Option Conversation}

theorem sinceReset_concat (past : List (ChatState × ChatAction)) (c : ChatState) (a : ChatAction) :
    sinceReset (past ++ [(c, a)]) = if a.resets then [] else sinceReset past ++ [(c, a)] := by
  rw [sinceReset, List.rtakeWhile_concat]
  cases a.resets <;> rfl

theorem lastReset_concat (past : List (ChatState × ChatAction)) (c : ChatState) (a : ChatAction) :
    lastReset (past ++ [(c, a)]) = if a.resets then some a else lastReset past := by
  rw [lastReset, List.rdropWhile_concat]
  cases h : a.resets with
  | false => rfl
  | true => simp

/-! ### The conversations after an action -/

/-- A conversation that is not there is not changed. -/
theorem map_of_none {f : Conversation → Conversation} {k : Units} (h : conversations.find? k = none)
    (id : Units) :
    conversations.find? id = (conversations.find? id).map fun conv => if id = k then f conv
    else conv := by
  cases hf : conversations.find? id with
  | none => rfl
  | some conv =>
    rw [Option.map_some, if_neg]
    rintro rfl
    rw [h] at hf
    cases hf

theorem find?_withPublicMembers (f : List Units → List Units) (id : Units) :
    (withPublicMembers conversations f).find? id = (conversations.find? id).map fun conv =>
      if id = publicConversationId then { conv with memberIds := some (f (conv.memberIds.getD [])) }
      else conv := by
  unfold withPublicMembers
  split
  · exact map_of_none ‹_› id
  · exact OrdMap.find?_insert_of_found ‹_›
      (fun conv : Conversation => { conv with memberIds := some (f (conv.memberIds.getD [])) }) id

/-- The message that an error becomes. -/
def errorFrom (text id now : Units) : Message :=
  { id := id, kind := .error, senderId := none, content := text, timestamp := now, isOwn := false }

theorem find?_reduceErrorMessage (text : Units) (target : Option Units) (eid now id : Units) :
    (reduceErrorMessage c text target eid now).conversations.find? id =
    (c.conversations.find? id).map fun conv =>
      if id = target.getD c.activeConversationId
      then { conv with messages := conv.messages ++ [errorFrom text eid now] }
      else conv := by
  unfold reduceErrorMessage
  dsimp only
  split
  · exact map_of_none ‹_› id
  · exact OrdMap.find?_insert_of_found ‹_›
      (fun conv : Conversation =>
        { conv with messages := conv.messages ++ [errorFrom text eid now] }) id

theorem find?_reduceSetActive (target id : Units) :
    (reduceSetActive c target).conversations.find? id = (c.conversations.find? id).map fun conv =>
      if id = target then { conv with unreadCount := 0 } else conv := by
  unfold reduceSetActive
  split
  · exact map_of_none ‹_› id
  · exact OrdMap.find?_insert_of_found ‹_›
      (fun conv : Conversation => { conv with unreadCount := 0 }) id

/-- A conversation that is made of a summary has its id, if only the public one is public. -/
theorem id_conversationFromSummary {summary : ConversationSummary} {u : Units}
    (h : summary.kind = .everyone → summary.id = publicConversationId) :
    (conversationFromSummary summary u).id = summary.id := by
  unfold conversationFromSummary
  split
  · rfl
  · rfl
  · rename_i hk
    exact (h hk).symm

theorem unreadCount_conversationFromSummary (summary : ConversationSummary) (u : Units) :
    (conversationFromSummary summary u).unreadCount = 0 := by
  unfold conversationFromSummary
  split <;> rfl

/-- What holds of the conversations that `READY` makes: it does of the public one, and of each
that is made of a summary. -/
theorem forall_readyConversations {P : Units → Conversation → Prop} {u : Units}
    {users : List UserSummary} {summaries : List ConversationSummary}
    {messages : List MessageSummary}
    (h0 : P publicConversationId (createPublicConversation (users.map (·.id))))
    (hs : ∀ summary ∈ summaries, summary.id ≠ publicConversationId →
      P summary.id (conversationFromSummary summary u))
    (hm : ∀ id conv messages, P id conv → P id { conv with messages := messages }) :
    ∀ id conv, (readyConversations u users summaries messages).find? id = some conv →
      P id conv := by
  have hknown : ∀ known : OrdMap Units Conversation,
    (∀ id conv, known.find? id = some conv → P id conv) →
      ∀ id conv, (summaries.foldl (fun m summary => if summary.id = publicConversationId then m
        else m.insert summary.id (conversationFromSummary summary u)) known).find? id = some conv →
        P id conv := by
    induction summaries with
    | nil => exact fun known h => h
    | cons summary summaries ih =>
      intro known h
      rw [List.foldl_cons]
      refine ih (fun s hmem => hs s (List.mem_cons_of_mem _ hmem)) _ ?_
      by_cases hp : summary.id = publicConversationId
      · rw [if_pos hp]
        exact h
      · rw [if_neg hp]
        intro id conv hf
        rw [OrdMap.find?_insert] at hf
        split at hf
        · rename_i hid
          rw [hid, ← Option.some.inj hf]
          exact hs summary (.head _) hp
        · exact h id conv hf
  intro id conv hf
  rw [readyConversations, find?_addMessages, Option.map_eq_some_iff] at hf
  obtain ⟨conv', hf, rfl⟩ := hf
  refine hm id conv' _ (hknown _ ?_ id conv' hf)
  intro id conv h
  rw [OrdMap.find?_insert, OrdMap.find?_empty] at h
  split at h
  · rename_i hid
    rw [hid, ← Option.some.inj h]
    exact h0
  · cases h

/-- The messages of a conversation, none if there is no such. -/
def messagesIn (c : ChatState) (id : Units) : List Message :=
  (c.conversations.find? id).elim [] Conversation.messages

/-- How many of them are unread. -/
def unreadIn (c : ChatState) (id : Units) : ℕ :=
  (c.conversations.find? id).elim 0 Conversation.unreadCount

/-- Every conversation is stored under its id. -/
def Filed (c : ChatState) : Prop := ∀ id conv, c.conversations.find? id = some conv → conv.id = id

/-- **The condition**: only the public conversation is public. -/
def PublicNamed (_ : ChatState) : ChatAction → Prop
  | .ready _ _ _ summaries _ =>
    ∀ summary ∈ summaries, summary.kind = .everyone → summary.id = publicConversationId
  | .conversationCreated summary => summary.kind = .everyone → summary.id = publicConversationId
  | _ => True

instance decidablePublicNamed (c : ChatState) (a : ChatAction) : Decidable (PublicNamed c a) :=
  match a with
  | .ready _ _ _ summaries _ => inferInstanceAs
    (Decidable (∀ summary ∈ summaries, summary.kind = .everyone →
      summary.id = publicConversationId))
  | .conversationCreated summary =>
    inferInstanceAs (Decidable (summary.kind = .everyone → summary.id = publicConversationId))
  | .setStatus _ | .userUpdate _ | .userOffline _ | .messageReceived _ | .errorMessage _ _ _ _ _
  | .setActiveConversation _
  | .setSidebarOpen _ | .setNicknameModal _ | .setNewGroupModal _ | .markPendingGroupCreation
  | .setError _
  | .setAuthenticating _ | .authError _ | .loggedOut => isTrue trivial

/-- What `CONVERSATION_CREATED` does: a conversation keeps its messages and what is unread of them,
and only one that was not there is shown. -/
theorem reduceConversationCreated_cases (c : ChatState) {summary : ConversationSummary}
    (hs : summary.kind = .everyone → summary.id = publicConversationId) :
    reduceConversationCreated c summary = c ∨ ∃ merged,
      (reduceConversationCreated c summary).conversations = c.conversations.insert
        summary.id merged ∧
      merged.id = summary.id ∧ merged.messages = messagesIn c summary.id ∧
      merged.unreadCount = unreadIn c summary.id ∧
      (reduceConversationCreated c summary).users = c.users ∧
      ((reduceConversationCreated c summary).activeConversationId = c.activeConversationId ∨
        (reduceConversationCreated c summary).activeConversationId = summary.id ∧
        c.conversations.find? summary.id = none) := by
  unfold reduceConversationCreated
  dsimp only
  split
  · exact .inl rfl
  · right
    have hid (u : Units) := id_conversationFromSummary (u := u) hs
    cases hf : c.conversations.find? summary.id with
    | none =>
      refine ⟨conversationFromSummary summary (c.userId.getD []), ?_, hid _, ?_, ?_, rfl, ?_⟩
      · rw [hid]
      · rw [messagesIn, hf, messages_conversationFromSummary]
        rfl
      · rw [unreadIn, hf, unreadCount_conversationFromSummary]
        rfl
      · dsimp only
        split
        · exact .inr ⟨hid _, rfl⟩
        · exact .inl rfl
    | some conv =>
      refine ⟨{ conversationFromSummary summary (c.userId.getD []) with
        messages := conv.messages, unreadCount := conv.unreadCount }, ?_, hid _, ?_, ?_,
        rfl, .inl ?_⟩
      · exact congrArg (c.conversations.insert · _) (hid _)
      · rw [messagesIn, hf]
        rfl
      · rw [unreadIn, hf]
        rfl
      · rw [Option.isNone_some, Bool.and_false]
        rfl

/-- The conversation that a message makes. -/
def placeholder (m : MessageSummary) : Conversation :=
  if m.conversationId = publicConversationId then createPublicConversation []
  else { id := m.conversationId, type := .direct, title := m.senderUsername.getD (units "Unknown") }

/-- A conversation with one more message. -/
def received (u active : Units) (m : MessageSummary) (old : Option Conversation) : Conversation :=
  { old.getD (placeholder m) with
    messages := (old.getD (placeholder m)).messages ++ [messageFromSummary m u]
    unreadCount := if active == m.conversationId then 0
      else (old.getD (placeholder m)).unreadCount + 1 }

theorem placeholder_fields (m : MessageSummary) :
    (placeholder m).id = m.conversationId ∧ (placeholder m).messages = [] ∧
    (placeholder m).unreadCount = 0 := by
  unfold placeholder
  split
  · rename_i hp
    exact ⟨hp.symm, rfl, rfl⟩
  · exact ⟨rfl, rfl, rfl⟩

theorem id_received (hold : ∀ conv, old = some conv → conv.id = m.conversationId)
    (u active : Units) : (received u active m old).id = m.conversationId := by
  cases old with
  | none => exact (placeholder_fields m).1
  | some conv => exact hold conv rfl

theorem reduceMessageReceived_eq_received
    (hold : ∀ conv, c.conversations.find? m.conversationId = some conv →
      conv.id = m.conversationId) :
    reduceMessageReceived c m = { c with
      conversations := c.conversations.insert m.conversationId
        (received (c.userId.getD []) c.activeConversationId m
          (c.conversations.find? m.conversationId)) } := by
  have hid : ((c.conversations.find? m.conversationId).getD (placeholder m)).id =
      m.conversationId := by
    cases hf : c.conversations.find? m.conversationId with
    | none => exact (placeholder_fields m).1
    | some conv => exact hold conv hf
  show ({ c with
    conversations :=
      c.conversations.insert ((c.conversations.find? m.conversationId).getD (placeholder m)).id
      { (c.conversations.find? m.conversationId).getD (placeholder m) with
        messages := ((c.conversations.find? m.conversationId).getD (placeholder m)).messages ++
          [messageFromSummary m (c.userId.getD [])]
        unreadCount := if c.activeConversationId ==
          ((c.conversations.find? m.conversationId).getD (placeholder m)).id
          then 0 else ((c.conversations.find? m.conversationId).getD (placeholder m)).unreadCount +
          1 } } : ChatState) = _
  unfold received
  rw [hid]

/-- What `MESSAGE_RECEIVED` does. -/
theorem reduceMessageReceived_eq (h : Filed c) (m : MessageSummary) : ∃ conv,
    (reduceMessageReceived c m).conversations = c.conversations.insert m.conversationId conv ∧
    conv.id = m.conversationId ∧
    conv.messages = messagesIn c m.conversationId ++ [messageFromSummary m (c.userId.getD [])] ∧
    conv.unreadCount = (if c.activeConversationId = m.conversationId then 0
      else unreadIn c m.conversationId + 1) ∧
    (∀ old, c.conversations.find? m.conversationId = some old →
      conv.memberIds = old.memberIds) := by
  have hold : ∀ conv, c.conversations.find? m.conversationId = some conv →
      conv.id = m.conversationId := h _
  refine ⟨received (c.userId.getD []) c.activeConversationId m
    (c.conversations.find? m.conversationId), ?_, id_received hold _ _, ?_, ?_, ?_⟩
  · rw [reduceMessageReceived_eq_received hold]
  · show ((c.conversations.find? m.conversationId).getD (placeholder m)).messages ++ _ = _
    rw [messagesIn]
    cases c.conversations.find? m.conversationId with
    | none => rw [Option.getD_none, (placeholder_fields m).2.1]; rfl
    | some old => rfl
  · show (if c.activeConversationId == m.conversationId then 0
      else ((c.conversations.find? m.conversationId).getD (placeholder m)).unreadCount + 1) = _
    rw [unreadIn]
    simp only [beq_iff_eq]
    cases c.conversations.find? m.conversationId with
    | none => rw [Option.getD_none, (placeholder_fields m).2.2]; rfl
    | some old => rfl
  · intro old hf
    rw [hf]
    rfl

theorem filed_init (gatewayUrl : Units) : Filed (createInitialState gatewayUrl) := by
  intro id conv h
  rw [createInitialState, OrdMap.find?_insert] at h
  split at h
  · rename_i hid
    rw [← Option.some.inj h, hid]
    rfl
  · cases h

theorem Filed.insert (h : Filed c) (hc : c'.conversations = c.conversations.insert conv.id conv) :
    Filed c' := by
  intro id conv' hf
  rw [hc, OrdMap.find?_insert] at hf
  split at hf
  · rename_i hid
    rw [← Option.some.inj hf, hid]
  · exact h id conv' hf

/-- Replacing conversations by others with their ids. -/
theorem Filed.map (h : Filed c) {f : Units → Conversation → Conversation}
    (hf : ∀ id conv, (f id conv).id = conv.id)
    (hc : ∀ id, c'.conversations.find? id = (c.conversations.find? id).map (f id)) : Filed c' := by
  intro id conv hfind
  rw [hc, Option.map_eq_some_iff] at hfind
  obtain ⟨old, ho, rfl⟩ := hfind
  rw [hf]
  exact h id old ho

theorem Filed.step (h : Filed c) (hC : PublicNamed c a) : Filed (chatReducer c a) := by
  cases a with
  | ready userId username users summaries messages =>
    refine forall_readyConversations (P := fun id conv => conv.id = id) rfl ?_ fun _ _ _ => id
    intro summary hs _
    exact id_conversationFromSummary (hC summary hs)
  | userUpdate =>
    refine h.map (fun id conv => ?_) (find?_withPublicMembers _)
    split <;> rfl
  | userOffline =>
    refine h.map (fun id conv => ?_) (find?_withPublicMembers _)
    split <;> rfl
  | conversationCreated summary =>
    rcases reduceConversationCreated_cases c hC with he | ⟨merged, hm, hid, -⟩
    · show Filed (reduceConversationCreated c summary)
      rw [he]
      exact h
    · exact h.insert (hid ▸ hm)
  | messageReceived m =>
    obtain ⟨conv, hm, hid, -⟩ := reduceMessageReceived_eq h m
    exact h.insert (hid ▸ hm)
  | errorMessage code text target eid now =>
    refine h.map (fun id conv => ?_) (find?_reduceErrorMessage text target eid now)
    split <;> rfl
  | setActiveConversation target =>
    refine h.map (fun id conv => ?_) (find?_reduceSetActive target)
    split <;> rfl
  | loggedOut => exact filed_init []
  | _ => exact h

/-! ### The messages of a conversation -/

/-- What an action appends to a conversation: a message for it, or an error that is about it, if it
is there. -/
def appended (id : Units) (e : ChatState × ChatAction) : List Message :=
  match e.2 with
  | .messageReceived m =>
    if m.conversationId = id then [messageFromSummary m (e.1.userId.getD [])] else []
  | .errorMessage _ text target eid now =>
    if target.getD e.1.activeConversationId = id ∧ (e.1.conversations.find? id).isSome
      then [errorFrom text eid now] else []
  | _ => []

/-- The entries for a conversation in the history of the last `READY`. -/
def history (id : Units) (past : List (ChatState × ChatAction)) : List Message :=
  match lastReset past with
  | some (.ready userId _ _ _ messages) => messagesOf userId id messages
  | _ => []

/-- Those it restores: the conversation is the public one, or listed. -/
def restored (id : Units) (past : List (ChatState × ChatAction)) : List Message :=
  match lastReset past with
  | some (.ready userId _ _ summaries messages) =>
    if id = publicConversationId ∨ ∃ summary ∈ summaries, summary.id = id
      then messagesOf userId id messages else []
  | _ => []

theorem messagesIn_insert {k : Units} (hc : c'.conversations = c.conversations.insert k conv)
    (id : Units) : messagesIn c' id = if id = k then conv.messages else messagesIn c id := by
  rw [messagesIn, hc, OrdMap.find?_insert]
  split <;> rfl

theorem messagesIn_map {f : Conversation → Conversation}
    (hc : c'.conversations.find? id = (c.conversations.find? id).map f)
    (hf : ∀ conv, (f conv).messages = conv.messages) : messagesIn c' id = messagesIn c id := by
  unfold messagesIn
  rw [hc]
  cases c.conversations.find? id with
  | none => rfl
  | some conv => exact hf conv

/-- **One action**: what it appends is appended. -/
theorem messages_step (h : Filed c) (hC : PublicNamed c a) (ha : a.resets = false) (id : Units) :
    messagesIn (chatReducer c a) id = messagesIn c id ++ appended id (c, a) := by
  cases a with
  | ready => cases ha
  | loggedOut => cases ha
  | userUpdate =>
    refine (messagesIn_map (find?_withPublicMembers _ id) fun conv => ?_).trans
      (List.append_nil _).symm
    split <;> rfl
  | userOffline =>
    refine (messagesIn_map (find?_withPublicMembers _ id) fun conv => ?_).trans
      (List.append_nil _).symm
    split <;> rfl
  | conversationCreated summary =>
    show messagesIn (reduceConversationCreated c summary) id = messagesIn c id ++ []
    rw [List.append_nil]
    rcases reduceConversationCreated_cases c hC with he | ⟨merged, hm, -, hmessages, -⟩
    · rw [he]
    · rw [messagesIn_insert hm, hmessages]
      split
      · rename_i hid
        rw [hid]
      · rfl
  | messageReceived m =>
    show messagesIn (reduceMessageReceived c m) id =
      messagesIn c id ++ if m.conversationId = id then _ else []
    obtain ⟨conv, hm, -, hmessages, -⟩ := reduceMessageReceived_eq h m
    rw [messagesIn_insert hm, hmessages]
    by_cases hid : id = m.conversationId
    · rw [if_pos hid, if_pos hid.symm, hid]
    · rw [if_neg hid, if_neg (Ne.symm hid), List.append_nil]
  | errorMessage code text target eid now =>
    show messagesIn (reduceErrorMessage c text target eid now) id =
      messagesIn c id ++ if target.getD c.activeConversationId = id ∧
        (c.conversations.find? id).isSome then _ else []
    unfold messagesIn
    rw [find?_reduceErrorMessage]
    cases c.conversations.find? id with
    | none => simp
    | some conv =>
      by_cases hid : id = target.getD c.activeConversationId
      · simp [hid]
      · simp [hid, Ne.symm hid]
  | setActiveConversation target =>
    refine (messagesIn_map (find?_reduceSetActive target id) fun conv => ?_).trans
      (List.append_nil _).symm
    split <;> rfl
  | _ => exact (List.append_nil _).symm

/-- What is restored when all conversations are made anew. -/
theorem messages_reset (past : List (ChatState × ChatAction)) (ha : a.resets = true) (id : Units) :
    messagesIn (chatReducer c a) id = restored id (past ++ [(c, a)]) := by
  unfold restored
  rw [lastReset_concat, if_pos ha]
  cases a with
  | ready userId username users summaries messages =>
    obtain ⟨hdom, hmsg⟩ := @find?_readyConversations userId users summaries messages
    show messagesIn (chatReducer c _) id = if _ then _ else _
    unfold messagesIn
    show ((readyConversations userId users summaries messages).find? id).elim []
      Conversation.messages = _
    cases hf : (readyConversations userId users summaries messages).find? id with
    | none =>
      rw [if_neg]
      · rfl
      · rw [← hdom, hf]
        exact Bool.false_ne_true
    | some conv =>
      rw [if_pos ((hdom id).mp (by rw [hf]; rfl))]
      exact hmsg id conv hf
  | loggedOut =>
    show ((OrdMap.empty.insert publicConversationId (createPublicConversation [])).find? id).elim []
      Conversation.messages = []
    rw [OrdMap.find?_insert]
    split <;> rfl
  | _ => cases ha

/-- A conversation stays until all are made anew. -/
theorem find?_step (hC : PublicNamed c a) (ha : a.resets = false)
    (hf : (c.conversations.find? id).isSome) :
    ((chatReducer c a).conversations.find? id).isSome := by
  have hinsert {k : Units} {conv : Conversation} :
      ((c.conversations.insert k conv).find? id).isSome := by
    rw [OrdMap.find?_insert]
    split
    · rfl
    · exact hf
  cases a with
  | ready => cases ha
  | loggedOut => cases ha
  | userUpdate =>
    exact (congrArg Option.isSome (find?_withPublicMembers _ id)).trans (Option.isSome_map.trans hf)
  | userOffline =>
    exact (congrArg Option.isSome (find?_withPublicMembers _ id)).trans (Option.isSome_map.trans hf)
  | conversationCreated summary =>
    show ((reduceConversationCreated c summary).conversations.find? id).isSome
    rcases reduceConversationCreated_cases c hC with he | ⟨merged, hm, -⟩
    · rw [he]
      exact hf
    · rw [hm]
      exact hinsert
  | messageReceived m => exact hinsert
  | errorMessage code text target eid now =>
    exact (congrArg Option.isSome (find?_reduceErrorMessage text target eid now id)).trans
      (Option.isSome_map.trans hf)
  | setActiveConversation target =>
    exact (congrArg Option.isSome (find?_reduceSetActive target id)).trans
      (Option.isSome_map.trans hf)
  | _ => exact hf

/-- **The messages of a conversation.** In every run in which only the public conversation is
public, a conversation that is there has the entries that the last `READY` has restored to it, if
nobody has logged out since, and after them all that has been appended since, in order. Until the
next `READY` or `LOGGED_OUT` its messages only grow at the end. -/
theorem messages_of_path {gatewayUrl : Units}
    (h : PathIn step PublicNamed (createInitialState gatewayUrl) past c) :
    (∀ id conv, c.conversations.find? id = some conv →
      conv.messages = restored id past ++ (sinceReset past).flatMap (appended id)) ∧
    ∀ past' c', PathIn step (fun c a => PublicNamed c a ∧ a.resets = false) c past' c' →
      ∀ id conv, c.conversations.find? id = some conv →
        ∃ conv', c'.conversations.find? id = some conv' ∧ conv.messages <+: conv'.messages := by
  have hall : Filed c ∧ ∀ id,
      messagesIn c id = restored id past ++ (sinceReset past).flatMap (appended id) := by
    refine h.invariant (I := fun past c => Filed c ∧ ∀ id, messagesIn c id = restored id
      past ++ (sinceReset past).flatMap (appended id)) ⟨filed_init gatewayUrl, ?_⟩ ?_
    · intro id
      rw [messagesIn, createInitialState, OrdMap.find?_insert]
      split <;> rfl
    · rintro past c a _ ⟨hF, hM⟩ hC ⟨⟩
      refine ⟨hF.step hC, ?_⟩
      intro id
      rw [sinceReset_concat]
      cases ha : a.resets with
      | true => exact (messages_reset past ha id).trans (List.append_nil _).symm
      | false =>
        have hr : restored id (past ++ [(c, a)]) = restored id past := by
          rw [restored, lastReset_concat, ha]
          rfl
        rw [messages_step hF hC ha, hM, hr, if_neg Bool.false_ne_true, List.flatMap_append,
          List.flatMap_singleton,
          List.append_assoc]
  refine ⟨?_, ?_⟩
  · intro id conv hf
    rw [← hall.2 id, messagesIn, hf]
    rfl
  · intro past' c' h' id conv hf
    have hgrows : Filed c' ∧ ∃ conv', c'.conversations.find? id = some conv' ∧
        conv.messages <+: conv'.messages := by
      refine h'.runIn.invariant
        (I := fun c' => Filed c' ∧ ∃ conv', c'.conversations.find? id = some conv' ∧
        conv.messages <+: conv'.messages) ⟨hall.1, conv, hf, List.prefix_rfl⟩ ?_
      rintro c a _ ⟨hF, conv', hf', hp⟩ ⟨hC, ha⟩ ⟨⟩
      obtain ⟨conv'', hf''⟩ := Option.isSome_iff_exists.mp (find?_step hC ha (by rw [hf']; rfl))
      refine ⟨hF.step hC, conv'', hf'', hp.trans ?_⟩
      have hm := messages_step hF hC ha id
      rw [messagesIn, messagesIn, hf', hf''] at hm
      exact ⟨_, hm.symm⟩
    exact hgrows.2

/-- A message of the group `[9]`. -/
def groupMessage (text : String) : MessageSummary :=
  ⟨[8], [9], some [6], some (units "bob"), units text, []⟩

/-- The group. -/
def lunch : ConversationSummary := ⟨[9], .group, units "lunch", [[3], [6]]⟩

/-- A group with one message is restored, and another message arrives in it. -/
def restoresGroup : List ChatAction :=
  [.ready [3] (units "alice") [] [lunch] [groupMessage "hi"], .conversationCreated lunch,
    .messageReceived (groupMessage "there")]

theorem group_has_both_messages : ∃ conv,
    (restoresGroup.foldl chatReducer (createInitialState [])).conversations.find? [9] = some conv ∧
      conv.messages = [messageFromSummary (groupMessage "hi") [3],
        messageFromSummary (groupMessage "there") [3]] := by
  obtain ⟨conv, hf⟩ : ∃ conv,
      (restoresGroup.foldl chatReducer (createInitialState [])).conversations.find? [9] =
      some conv :=
    Option.isSome_iff_exists.mp (by decide)
  have h :=
    (messages_of_path (@path_of_actions _ restoresGroup (createInitialState []) (by decide))).1
      [9] conv hf
  exact ⟨conv, hf, h⟩

/-- A message of a group is in the history, but the group is not listed; it is created later. -/
def forgetsGroup : List ChatAction :=
  [.ready [3] (units "alice") [] [] [groupMessage "hi"], .conversationCreated lunch]

/-- **The history of a conversation that is not listed is dropped**, and stays so when the
conversation is created. -/
theorem history_dropped : ¬ ∀ past c, PathIn step PublicNamed (createInitialState []) past c →
    ∀ id conv, c.conversations.find? id = some conv →
      conv.messages = history id past ++ (sinceReset past).flatMap (appended id) := by
  intro hall
  obtain ⟨conv, hf⟩ : ∃ conv,
      (forgetsGroup.foldl chatReducer (createInitialState [])).conversations.find? [9] =
      some conv :=
    Option.isSome_iff_exists.mp (by decide)
  have hm : messagesIn (forgetsGroup.foldl chatReducer (createInitialState [])) [9] = [] := by
    decide
  have h := hall _ _ (@path_of_actions _ forgetsGroup (createInitialState []) (by decide))
    [9] conv hf
  rw [messagesIn, hf, Option.elim_some] at hm
  rw [hm] at h
  cases h

/-! ### The users and what is unread -/

/-- **The condition**: a roster has no user twice, and the public conversation is only listed by
`READY`. -/
def AsSent (_ : ChatState) : ChatAction → Prop
  | .ready _ _ users summaries _ => (users.map (·.id)).Nodup ∧
    ∀ summary ∈ summaries, summary.id ≠ publicConversationId → summary.kind ≠ .everyone
  | .conversationCreated summary => summary.id ≠ publicConversationId ∧ summary.kind ≠ .everyone
  | _ => True

instance decidableAsSent (c : ChatState) (a : ChatAction) : Decidable (AsSent c a) :=
  match a with
  | .ready _ _ users summaries _ => inferInstanceAs (Decidable ((users.map (·.id)).Nodup ∧
    ∀ summary ∈ summaries, summary.id ≠ publicConversationId → summary.kind ≠ .everyone))
  | .conversationCreated summary =>
    inferInstanceAs (Decidable (summary.id ≠ publicConversationId ∧ summary.kind ≠ .everyone))
  | .setStatus _ | .userUpdate _ | .userOffline _ | .messageReceived _ | .errorMessage _ _ _ _ _
  | .setActiveConversation _
  | .setSidebarOpen _ | .setNicknameModal _ | .setNewGroupModal _ | .markPendingGroupCreation
  | .setError _
  | .setAuthenticating _ | .authError _ | .loggedOut => isTrue trivial

theorem AsSent.publicNamed (h : AsSent c a) : PublicNamed c a := by
  cases a with
  | ready userId username users summaries messages =>
    intro summary hs hk
    by_contra hid
    exact h.2 summary hs hid hk
  | conversationCreated summary =>
    intro hk
    exact absurd hk h.2
  | _ => trivial

/-- The action is a message for a conversation. -/
def receives (id : Units) (e : ChatState × ChatAction) : Bool :=
  match e.2 with
  | .messageReceived m => m.conversationId == id
  | _ => false

/-- A conversation is made anew, or shown after the action. -/
def shows (id : Units) (e : ChatState × ChatAction) : Bool :=
  e.2.resets || (chatReducer e.1 e.2).activeConversationId == id

/-- How many messages a conversation has received since it was shown or made anew. -/
def missed (id : Units) (past : List (ChatState × ChatAction)) : ℕ :=
  countSince (shows id) (receives id) past

theorem unreadIn_insert {k : Units} (hc : c'.conversations = c.conversations.insert k conv)
    (id : Units) : unreadIn c' id = if id = k then conv.unreadCount else unreadIn c id := by
  rw [unreadIn, hc, OrdMap.find?_insert]
  split <;> rfl

theorem unreadIn_map {f : Conversation → Conversation}
    (hc : c'.conversations.find? id = (c.conversations.find? id).map f)
    (hf : ∀ conv, (f conv).unreadCount = conv.unreadCount) : unreadIn c' id = unreadIn c id := by
  unfold unreadIn
  rw [hc]
  cases c.conversations.find? id with
  | none => rfl
  | some conv => exact hf conv

/-- An action that changes neither what is shown nor what is unread. -/
theorem unread_of_same (h0 : unreadIn c c.activeConversationId = 0) (ha : a.resets = false)
    (hr : receives id (c, a) = false)
    (hactive : (chatReducer c a).activeConversationId = c.activeConversationId)
    (hsame : unreadIn (chatReducer c a) id = unreadIn c id) :
    unreadIn (chatReducer c a) id = if shows id (c, a) then 0
    else unreadIn c id + (receives id (c, a)).toNat := by
  rw [hsame, hr]
  unfold shows
  rw [ha, hactive]
  by_cases hid : c.activeConversationId = id
  · rw [← hid, h0]
    exact (ite_self 0).symm
  · rw [if_neg (by rw [Bool.false_or, beq_iff_eq]; exact hid)]
    rfl

/-- **One action**: what is shown or made anew has nothing unread, and a message counts for
a conversation that is not. -/
theorem unread_step (h : Filed c) (hC : PublicNamed c a)
    (h0 : unreadIn c c.activeConversationId = 0) (id : Units) :
    unreadIn (chatReducer c a) id = if shows id (c, a) then 0
    else unreadIn c id + (receives id (c, a)).toNat := by
  cases a with
  | ready userId username users summaries messages =>
    show unreadIn (chatReducer c _) id = 0
    show ((readyConversations userId users summaries messages).find? id).elim 0
      Conversation.unreadCount = 0
    cases hf : (readyConversations userId users summaries messages).find? id with
    | none => rfl
    | some conv =>
      refine forall_readyConversations (P := fun _ conv => conv.unreadCount = 0) rfl ?_
        (fun _ _ _ h => h) id conv hf
      intro summary _ _
      exact unreadCount_conversationFromSummary summary userId
  | loggedOut =>
    show ((OrdMap.empty.insert publicConversationId (createPublicConversation [])).find? id).elim 0
      Conversation.unreadCount = 0
    rw [OrdMap.find?_insert]
    split <;> rfl
  | userUpdate =>
    refine unread_of_same h0 rfl rfl rfl
      (unreadIn_map (find?_withPublicMembers _ id) fun conv => ?_)
    split <;> rfl
  | userOffline =>
    refine unread_of_same h0 rfl rfl rfl
      (unreadIn_map (find?_withPublicMembers _ id) fun conv => ?_)
    split <;> rfl
  | conversationCreated summary =>
    rcases reduceConversationCreated_cases c hC with he | ⟨merged, hm, -, -, hunread, -, hactive⟩
    · exact unread_of_same h0 rfl rfl (congrArg ChatState.activeConversationId he)
        (congrArg (unreadIn · id) he)
    · have hsame : unreadIn (chatReducer c (.conversationCreated summary)) id = unreadIn c id := by
        apply (unreadIn_insert hm id).trans
        rw [hunread]
        split
        · rename_i hid
          rw [hid]
        · rfl
      rcases hactive with hactive | ⟨hactive, hnew⟩
      · exact unread_of_same h0 rfl rfl hactive hsame
      · rw [hsame]
        unfold shows
        by_cases hid : summary.id = id
        · -- the group that is shown now was not there
          rw [if_pos, unreadIn, ← hid, hnew]
          · rfl
          · rw [Bool.or_eq_true, beq_iff_eq]
            exact .inr (hactive.trans hid)
        · rw [if_neg]
          · rfl
          · rw [Bool.or_eq_true, beq_iff_eq]
            exact not_or_intro Bool.false_ne_true fun he => hid (hactive.symm.trans he)
  | messageReceived m =>
    obtain ⟨conv, hm, -, -, hunread, -⟩ := reduceMessageReceived_eq h m
    have hactive : (chatReducer c (.messageReceived m)).activeConversationId =
        c.activeConversationId := rfl
    have hnew : unreadIn (chatReducer c (.messageReceived m)) id =
        if id = m.conversationId then conv.unreadCount else unreadIn c id := unreadIn_insert hm id
    by_cases hid : m.conversationId = id
    · rw [hnew, if_pos hid.symm, hunread]
      unfold shows receives
      rw [hactive]
      by_cases hshown : c.activeConversationId = id
      · simp [hid, hshown]
      · simp [ChatAction.resets, hid, hshown]
    · refine unread_of_same h0 rfl (beq_eq_false_iff_ne.mpr hid) hactive ?_
      rw [hnew, if_neg (Ne.symm hid)]
  | errorMessage code text target eid now =>
    refine unread_of_same h0 rfl rfl ?_
      (unreadIn_map (find?_reduceErrorMessage text target eid now id) fun conv => ?_)
    · show (reduceErrorMessage c text target eid now).activeConversationId = c.activeConversationId
      unfold reduceErrorMessage
      dsimp only
      split <;> rfl
    · split <;> rfl
  | setActiveConversation target =>
    have hfind : (chatReducer c (.setActiveConversation target)).conversations.find? id =
        (c.conversations.find? id).map fun conv =>
        if id = target then { conv with unreadCount := 0 } else conv :=
      find?_reduceSetActive target id
    cases hf : c.conversations.find? target with
    | none =>
      have he : chatReducer c (.setActiveConversation target) = c := by
        show reduceSetActive c target = c
        rw [reduceSetActive, hf]
      exact unread_of_same h0 rfl rfl (congrArg ChatState.activeConversationId he)
        (congrArg (unreadIn · id) he)
    | some conv =>
      have hactive : (chatReducer c (.setActiveConversation target)).activeConversationId =
          target := by
        show (reduceSetActive c target).activeConversationId = target
        rw [reduceSetActive, hf]
      unfold shows
      rw [hactive]
      by_cases hid : id = target
      · rw [if_pos, unreadIn, hfind, hid, hf]
        · simp
        · simp [hid]
      · rw [if_neg]
        · apply unreadIn_map hfind
          intro conv
          rw [if_neg hid]
        · simpa [ChatAction.resets] using Ne.symm hid
  | _ => exact unread_of_same h0 rfl rfl rfl rfl

/-- The members of the public conversation are the users, without any of them twice. -/
def Populated (c : ChatState) : Prop :=
  ∃ conv memberIds, c.conversations.find? publicConversationId = some conv ∧
    conv.memberIds = some memberIds ∧
    memberIds.Nodup ∧ ∀ id, id ∈ memberIds ↔ id ∈ c.users.keys

/-- Both stay when another conversation is stored. -/
theorem Populated.of_same (h : Populated c) (husers : c'.users = c.users)
    (hconv : ∀ conv, c.conversations.find? publicConversationId = some conv → ∃ conv',
      c'.conversations.find? publicConversationId = some conv' ∧ conv'.memberIds = conv.memberIds) :
    Populated c' := by
  obtain ⟨conv, memberIds, hf, hm, hn, hu⟩ := h
  obtain ⟨conv', hf', hm'⟩ := hconv conv hf
  exact ⟨conv', memberIds, hf', hm'.trans hm, hn, husers ▸ hu⟩

/-- Users and members change together. -/
theorem Populated.withPublicMembers (h : Populated c) {f : List Units → List Units}
    (hc : c'.conversations = withPublicMembers c.conversations f)
    (hf : ∀ memberIds, memberIds.Nodup → (∀ id, id ∈ memberIds ↔ id ∈ c.users.keys) →
      (f memberIds).Nodup ∧ ∀ id, id ∈ f memberIds ↔ id ∈ c'.users.keys) : Populated c' := by
  obtain ⟨conv, memberIds, hfind, hm, hn, hu⟩ := h
  refine ⟨{ conv with memberIds := some (f memberIds) }, f memberIds, ?_, rfl, hf memberIds hn hu⟩
  rw [hc, find?_withPublicMembers, hfind, Option.map_some, if_pos rfl, hm]
  rfl

/-- A conversation that is only changed elsewhere. -/
theorem forall_found_of_map {f : Conversation → Conversation}
    (hc : c'.conversations.find? id = (c.conversations.find? id).map f)
    (hf : ∀ conv, (f conv).memberIds = conv.memberIds) :
    ∀ conv, c.conversations.find? id = some conv → ∃ conv', c'.conversations.find? id = some conv' ∧
      conv'.memberIds = conv.memberIds := by
  intro conv hfind
  rw [hfind, Option.map_some] at hc
  exact ⟨f conv, hc, hf conv⟩

theorem mem_keys_readyUsers {users : List UserSummary} {id : Units} :
    id ∈ (readyUsers users).keys ↔ id ∈ users.map (·.id) := by
  induction users using List.reverseRecOn with
  | nil => rfl
  | append_singleton users u ih =>
    rw [readyUsers_append, OrdMap.mem_keys_insert, ih, List.map_append, List.mem_append, or_comm]
    exact or_congr_right List.mem_singleton.symm

theorem Populated.step (h : Populated c) (hF : Filed c) (hC : AsSent c a) :
    Populated (chatReducer c a) := by
  cases a with
  | ready userId username users summaries messages =>
    obtain ⟨conv, hf⟩ : ∃ conv, (readyConversations userId users summaries messages).find?
        publicConversationId = some conv :=
      Option.isSome_iff_exists.mp ((find?_readyConversations.1 _).mpr (.inl rfl))
    have hm : conv.memberIds = some (users.map (·.id)) := by
      refine forall_readyConversations
        (P := fun id conv => id = publicConversationId → conv.memberIds = some (users.map (·.id)))
        (fun _ => rfl) (fun summary _ hne hid => absurd hid hne) (fun _ _ _ h => h) _ conv hf rfl
    exact ⟨conv, users.map (·.id), hf, hm, hC.1, fun id => mem_keys_readyUsers.symm⟩
  | loggedOut =>
    refine ⟨createPublicConversation [], [], ?_, rfl, List.nodup_nil, fun id => Iff.rfl⟩
    exact OrdMap.find?_insert_self ..
  | userUpdate u =>
    refine h.withPublicMembers (f := fun memberIds => if memberIds.contains u.id then memberIds
      else memberIds ++ [u.id]) rfl ?_
    intro memberIds hn hu
    have hkeys (id : Units) : id ∈ (chatReducer c (.userUpdate u)).users.keys ↔
        id = u.id ∨ id ∈ c.users.keys := OrdMap.mem_keys_insert
    by_cases hmem : u.id ∈ memberIds
    · rw [if_pos (List.contains_iff_mem.mpr hmem)]
      refine ⟨hn, ?_⟩
      intro id
      rw [hkeys, hu]
      refine (or_iff_right_of_imp ?_).symm
      intro hid
      rw [hid, ← hu]
      exact hmem
    · rw [if_neg fun h => hmem (List.contains_iff_mem.mp h)]
      refine ⟨List.Nodup.append hn (List.nodup_singleton _) ?_, ?_⟩
      · rw [List.disjoint_singleton]
        exact hmem
      · intro id
        rw [hkeys, List.mem_append, hu, List.mem_singleton, or_comm]
  | userOffline userId =>
    refine h.withPublicMembers rfl fun memberIds hn hu => ⟨hn.filter _, ?_⟩
    intro id
    rw [List.mem_filter, hu, bne_iff_ne]
    exact OrdMap.mem_keys_erase.symm
  | conversationCreated summary =>
    rcases reduceConversationCreated_cases c hC.publicNamed with he
    | ⟨merged, hm, -, -, -, husers, -⟩
    · show Populated (reduceConversationCreated c summary)
      rw [he]
      exact h
    · refine h.of_same husers fun conv hf => ⟨conv, ?_, rfl⟩
      apply (congrArg (OrdMap.find? · publicConversationId) hm).trans
      rw [OrdMap.find?_insert_of_ne _ (Ne.symm hC.1)]
      exact hf
  | messageReceived m =>
    obtain ⟨conv, hm, -, -, -, hmembers⟩ := reduceMessageReceived_eq hF m
    refine h.of_same rfl ?_
    intro old hf
    have hfind : (chatReducer c (.messageReceived m)).conversations.find? publicConversationId =
        if publicConversationId = m.conversationId then some conv
        else c.conversations.find? publicConversationId :=
      (congrArg (OrdMap.find? · publicConversationId) hm).trans (OrdMap.find?_insert ..)
    split at hfind
    · rename_i hid
      exact ⟨conv, hfind, hmembers old (hid ▸ hf)⟩
    · exact ⟨old, hfind.trans hf, rfl⟩
  | errorMessage code text target eid now =>
    refine h.of_same ?_
      (forall_found_of_map (find?_reduceErrorMessage text target eid now _) fun conv => ?_)
    · show (reduceErrorMessage c text target eid now).users = c.users
      unfold reduceErrorMessage
      dsimp only
      split <;> rfl
    · split <;> rfl
  | setActiveConversation target =>
    refine h.of_same ?_ (forall_found_of_map (find?_reduceSetActive target _) fun conv => ?_)
    · show (reduceSetActive c target).users = c.users
      unfold reduceSetActive
      split <;> rfl
    · split <;> rfl
  | _ => exact h

/-- The conversation that is shown is there. -/
def Shown (c : ChatState) : Prop := (c.conversations.find? c.activeConversationId).isSome

theorem Shown.step (h : Shown c) (hC : PublicNamed c a) : Shown (chatReducer c a) := by
  have hsame (ha : a.resets = false)
      (hactive : (chatReducer c a).activeConversationId = c.activeConversationId) :
      Shown (chatReducer c a) := by
    rw [Shown, hactive]
    exact find?_step hC ha h
  cases a with
  | ready userId username users summaries messages =>
    exact (find?_readyConversations.1 _).mpr (.inl rfl)
  | loggedOut => exact congrArg Option.isSome (OrdMap.find?_insert_self ..)
  | conversationCreated summary =>
    rcases reduceConversationCreated_cases c hC with he | ⟨merged, hm, -, -, -, -, hactive⟩
    · exact hsame rfl (congrArg ChatState.activeConversationId he)
    · rcases hactive with hactive | ⟨hactive, -⟩
      · exact hsame rfl hactive
      · show ((reduceConversationCreated c summary).conversations.find? _).isSome
        rw [hm, show (chatReducer c (.conversationCreated summary)).activeConversationId =
          summary.id from hactive]
        exact congrArg Option.isSome (OrdMap.find?_insert_self ..)
  | errorMessage code text target eid now =>
    apply hsame rfl
    show (reduceErrorMessage c text target eid now).activeConversationId = c.activeConversationId
    unfold reduceErrorMessage
    dsimp only
    split <;> rfl
  | setActiveConversation target =>
    cases hf : c.conversations.find? target with
    | none =>
      have hc : reduceSetActive c target = c := by rw [reduceSetActive, hf]
      exact hsame rfl (congrArg ChatState.activeConversationId hc)
    | some conv =>
      show ((reduceSetActive c target).conversations.find?
        (reduceSetActive c target).activeConversationId).isSome
      rw [reduceSetActive, hf]
      exact congrArg Option.isSome (OrdMap.find?_insert_self ..)
  | _ => exact hsame rfl rfl

/-- What holds of a state after the actions of `past`. -/
structure Coherent (past : List (ChatState × ChatAction)) (c : ChatState) : Prop where
  /-- Every conversation is stored under its id. -/
  filed : Filed c
  /-- The one that is shown is there. -/
  shown : Shown c
  /-- The public one is, and its members are the users. -/
  populated : Populated c
  /-- A conversation has as many unread messages as it has missed. -/
  unread : ∀ id conv, c.conversations.find? id = some conv → conv.unreadCount = missed id past
  /-- The one that is shown has none. -/
  seen : ∀ conv, c.conversations.find? c.activeConversationId = some conv → conv.unreadCount = 0

/-- **The conversations of a browser.** After any actions that the gateway and the user can cause,
the state is coherent. -/
theorem coherent_of_path {gatewayUrl : Units}
    (h : PathIn step AsSent (createInitialState gatewayUrl) past c) : Coherent past c := by
  have hall : Filed c ∧ Shown c ∧ Populated c ∧ (∀ id, unreadIn c id = missed id past) ∧
      missed c.activeConversationId past = 0 := by
    refine h.invariant (I := fun past c => Filed c ∧ Shown c ∧ Populated c ∧
      (∀ id, unreadIn c id = missed id past) ∧ missed c.activeConversationId past = 0)
      ⟨filed_init gatewayUrl, ?_, ?_, ?_, rfl⟩ ?_
    · exact congrArg Option.isSome (OrdMap.find?_insert_self ..)
    · exact ⟨createPublicConversation [], [], OrdMap.find?_insert_self .., rfl, List.nodup_nil,
        fun id => Iff.rfl⟩
    · intro id
      rw [unreadIn, createInitialState, OrdMap.find?_insert]
      split <;> rfl
    · rintro past c a _ ⟨hF, hS, hP, hU, h0⟩ hC ⟨⟩
      have hN := hC.publicNamed
      refine ⟨hF.step hN, hS.step hN, hP.step hF hC, ?_, ?_⟩
      · intro id
        rw [missed, countSince_concat, ← missed, ← hU id]
        exact unread_step hF hN ((hU _).trans h0) id
      · rw [missed, countSince_concat, if_pos]
        unfold shows
        rw [beq_self_eq_true, Bool.or_true]
  obtain ⟨hF, hS, hP, hU, h0⟩ := hall
  have hunread (id : Units) (conv : Conversation) (hf : c.conversations.find? id = some conv) :
      conv.unreadCount = missed id past := by
    rw [← hU id, unreadIn, hf]
    rfl
  exact ⟨hF, hS, hP, hunread, fun conv hf => (hunread _ conv hf).trans h0⟩

/-- Alice has two messages in the group while the public conversation is shown, and one there. -/
def missesTwo : List ChatAction :=
  [.ready [3] (units "alice") [⟨[3], units "alice", .online⟩] [lunch] [],
    .messageReceived (groupMessage "hi"),
    .userUpdate ⟨[6], units "bob", .online⟩, .messageReceived (groupMessage "there"),
    .messageReceived ⟨[8], publicConversationId, some [6], some (units "bob"), units "all", []⟩]

theorem group_has_two_unread : ∃ conv,
    (missesTwo.foldl chatReducer (createInitialState [])).conversations.find? [9] = some conv ∧
    conv.unreadCount = 2 := by
  obtain ⟨conv, hf⟩ : ∃ conv,
      (missesTwo.foldl chatReducer (createInitialState [])).conversations.find? [9] = some conv :=
    Option.isSome_iff_exists.mp (by decide)
  have h :=
    (coherent_of_path (@path_of_actions _ missesTwo (createInitialState []) (by decide))).unread
      [9] conv hf
  refine ⟨conv, hf, h.trans ?_⟩
  decide

end ThreadLink.Frontend
