import ThreadLink.Frontend.ChatState
import ThreadLink.Gateway.Statements

/-!
# Restoring the conversations

On `ready` a browser has the conversations of its user and, in one list, their messages. The
gateway gets the two by two queries: `conversationsFor` joins the conversations and looks at
their kind, and `historyForUser` looks at the members only. The case `READY` of the reducer drops
a message whose conversation is not there.

## What is proved

* `find?_readyConversations` — which conversations the reducer makes, and with which messages.
* `listed_of_mem_history` — the two queries agree on every database there can be.
* `history_restored` — no message is dropped, and every conversation has its messages in the
  order of the history.
-/

namespace ThreadLink.Frontend

open Text Gateway

variable {u id : Units} {users : List UserSummary} {conversations : List ConversationSummary}
  {messages : List MessageSummary}

/-! ### The case `READY` -/

/-- The messages of a conversation, as the browser has them. -/
def messagesOf (u id : Units) (messages : List MessageSummary) : List Message :=
  (messages.filter fun m => m.conversationId == id).map fun m => messageFromSummary m u

/-- The loop over the messages puts each into its conversation. -/
theorem find?_addMessages (known : OrdMap Units Conversation) :
    (messages.foldl (fun known m => known.modify m.conversationId fun conv =>
        { conv with messages := conv.messages ++ [messageFromSummary m u] }) known).find? id =
      (known.find? id).map fun conv =>
      { conv with messages := conv.messages ++ messagesOf u id messages } := by
  induction messages generalizing known with
  | nil => simp [messagesOf]
  | cons m messages ih =>
    rw [List.foldl_cons, ih]
    by_cases hm : m.conversationId = id
    · subst hm
      rw [OrdMap.find?_modify_self, Option.map_map]
      apply Option.map_congr
      intro conv _
      simp [messagesOf]
    · rw [OrdMap.find?_modify_of_ne _ (Ne.symm hm)]
      apply Option.map_congr
      intro conv _
      have hf : messagesOf u id (m :: messages) = messagesOf u id messages := by
        unfold messagesOf
        rw [List.filter_cons_of_neg (by simpa using hm)]
      rw [hf]

theorem messages_conversationFromSummary (summary : ConversationSummary) :
    (conversationFromSummary summary u).messages = [] := by
  unfold conversationFromSummary
  split <;> rfl

/-- The loop over the conversations makes each of them, without messages. -/
theorem find?_addConversations {known : OrdMap Units Conversation}
    (hp : (known.find? publicConversationId).isSome)
    (hm : ∀ id conv, known.find? id = some conv → conv.messages = []) :
    let result := conversations.foldl (fun m summary =>
      if summary.id = publicConversationId then m
        else m.insert summary.id (conversationFromSummary summary u)) known
    (∀ id, (result.find? id).isSome ↔ (known.find? id).isSome ∨ ∃ c ∈ conversations, c.id = id) ∧
      ∀ id conv, result.find? id = some conv → conv.messages = [] := by
  induction conversations generalizing known with
  | nil => exact ⟨fun id => by simp, hm⟩
  | cons summary conversations ih =>
    simp only [List.foldl_cons, List.exists_mem_cons_iff]
    by_cases hs : summary.id = publicConversationId
    · rw [if_pos hs]
      obtain ⟨h1, h2⟩ := ih hp hm
      refine ⟨fun id => (h1 id).trans ?_, h2⟩
      constructor
      · rintro (h | h)
        · exact .inl h
        · exact .inr (.inr h)
      · rintro (h | rfl | h)
        · exact .inl h
        · exact .inl (hs ▸ hp)
        · exact .inr h
    · rw [if_neg hs]
      have hins (id : Units) :
        ((known.insert summary.id (conversationFromSummary summary u)).find? id).isSome ↔
          (known.find? id).isSome ∨ summary.id = id := by
        rw [OrdMap.find?_insert]
        split
        · rename_i he
          exact iff_of_true rfl (.inr he.symm)
        · rename_i he
          simp [Ne.symm he]
      have hmins : ∀ id conv,
        (known.insert summary.id (conversationFromSummary summary u)).find? id = some conv →
          conv.messages = [] := by
        intro id conv h
        rw [OrdMap.find?_insert] at h
        split at h
        · rw [← Option.some.inj h]
          exact messages_conversationFromSummary summary
        · exact hm id conv h
      obtain ⟨h1, h2⟩ := ih ((hins _).mpr (.inl hp)) hmins
      refine ⟨fun id => (h1 id).trans ?_, h2⟩
      rw [hins, or_assoc]

/-- **The conversations that are made**: the public one and those of the list, each with its
messages in the order in which they come. -/
theorem find?_readyConversations :
    (∀ id, ((readyConversations u users conversations messages).find? id).isSome ↔
        id = publicConversationId ∨ ∃ c ∈ conversations, c.id = id) ∧
      ∀ id conv, (readyConversations u users conversations messages).find? id = some conv →
        conv.messages = messagesOf u id messages := by
  have hfirst (id : Units) :
    ((OrdMap.empty.insert publicConversationId (createPublicConversation (users.map (·.id)))).find?
      id) = if id = publicConversationId then some (createPublicConversation (users.map (·.id)))
      else none := by
    rw [OrdMap.find?_insert, OrdMap.find?_empty]
  have hpub :
    ((OrdMap.empty.insert publicConversationId (createPublicConversation (users.map (·.id)))).find?
      publicConversationId).isSome := by
    rw [hfirst, if_pos rfl]
    rfl
  have hmsg : ∀ id conv,
    (OrdMap.empty.insert publicConversationId (createPublicConversation (users.map (·.id)))).find?
      id = some conv → conv.messages = [] := by
    intro id conv h
    rw [hfirst] at h
    split at h
    · rw [← Option.some.inj h]
      rfl
    · cases h
  obtain ⟨h1, h2⟩ := @find?_addConversations u conversations _ hpub hmsg
  constructor
  · intro id
    rw [readyConversations, find?_addMessages, Option.isSome_map, h1, hfirst]
    refine or_congr ?_ Iff.rfl
    split <;> simp [*]
  · intro id conv h
    rw [readyConversations, find?_addMessages, Option.map_eq_some_iff] at h
    obtain ⟨conv', hc, rfl⟩ := h
    show conv'.messages ++ _ = _
    rw [h2 id conv' hc, List.nil_append]

/-! ### The two queries -/

/-- **The two queries agree**: a message of the history is public, or its conversation is
listed. -/
theorem listed_of_mem_history {st : Store} (h : Stored st) {m : MessageSummary}
    (hm : m ∈ st.historyForUser u) :
    m.conversationId = publicConversationId ∨
    ∃ c ∈ st.conversationsFor u, c.id = m.conversationId := by
  obtain ⟨stored, -, rfl, hv⟩ := Store.mem_historyForUser.mp hm
  rcases hv with hp | hmem
  · exact .inl hp
  · obtain ⟨row, hr, hid⟩ := List.mem_map.mp (h.filed.members _ hmem)
    by_cases hk : row.kind = .everyone
    · exact .inl (hid.symm.trans (h.everyone hr hk))
    · exact .inr (Store.visible_iff.mpr ⟨⟨row, hr, hid, hk⟩, hmem⟩)

/-- **Restoring**: on every database there can be, for every user, each message of the history
is public or of a conversation that is listed. The reducer makes the public conversation and
those that are listed, drops no message, and gives every conversation its messages in the order
of the history. -/
theorem history_restored {st : Store} (h : Stored st) (u username : Units)
    (users : List UserSummary) (c : ChatState) : let conversations :=
  (chatReducer c (.ready u username users
      (Store.publicConversation (users.map (·.id)) :: st.conversationsFor u)
        (st.historyForUser u))).conversations
    (∀ m ∈ st.historyForUser u,
      m.conversationId = publicConversationId ∨
      ∃ c ∈ st.conversationsFor u, c.id = m.conversationId) ∧
    (∀ id, (conversations.find? id).isSome ↔
      id = publicConversationId ∨ ∃ c ∈ st.conversationsFor u, c.id = id) ∧
    (∀ m ∈ st.historyForUser u, ∃ conv, conversations.find? m.conversationId = some conv ∧
      messageFromSummary m u ∈ conv.messages) ∧
    ∀ id conv, conversations.find? id = some conv →
      conv.messages = ((st.historyForUser u).filter fun m => m.conversationId == id).map fun m =>
      messageFromSummary m u := by
  intro conversations
  obtain ⟨hdom, hmsg⟩ := @find?_readyConversations u users
    (Store.publicConversation (users.map (·.id)) :: st.conversationsFor u) (st.historyForUser u)
  have hids (id : Units) : (conversations.find? id).isSome ↔
      id = publicConversationId ∨ ∃ c ∈ st.conversationsFor u, c.id = id := by
    apply (hdom id).trans
    rw [List.exists_mem_cons_iff]
    constructor
    · rintro (h | h | h)
      · exact .inl h
      · exact .inl h.symm
      · exact .inr h
    · rintro (h | h)
      · exact .inl h
      · exact .inr (.inr h)
  have hlisted : ∀ m ∈ st.historyForUser u,
      m.conversationId = publicConversationId ∨
      ∃ c ∈ st.conversationsFor u, c.id = m.conversationId :=
    fun m hm => listed_of_mem_history h hm
  refine ⟨hlisted, hids, ?_, hmsg⟩
  intro m hm
  obtain ⟨conv, hc⟩ := Option.isSome_iff_exists.mp ((hids _).mpr (hlisted m hm))
  refine ⟨conv, hc, ?_⟩
  rw [hmsg _ _ hc]
  refine List.mem_map.mpr ⟨m, List.mem_filter.mpr ⟨hm, ?_⟩, rfl⟩
  exact beq_self_eq_true _

/-- A database with a direct message, which a user of it gets back. -/
theorem direct_message_restored :
    let m : MessageSummary :=
  ⟨[9], Gateway.directConversationId [3] [6], some [6], some (units "bob"), units "hi", []⟩
    let st := (Operation.append m).run ((Operation.ensureDirect [] [3] [6]).run (.init []))
    st.historyForUser [3] = [m] ∧
      ∃ conv, (chatReducer (createInitialState []) (.ready [3] (units "alice") []
          (Store.publicConversation [] :: st.conversationsFor [3])
            (st.historyForUser [3]))).conversations.find?
        (Gateway.directConversationId [3] [6]) = some conv ∧
        messageFromSummary m [3] ∈ conv.messages := by
  intro m st
  have hst : Stored st := ((Stored.fresh []).run _).run _
  have hh : st.historyForUser [3] = [m] := by
    have hrow : Store.messageRow m = m := by decide
    simp only [st, Operation.run, Store.append, Store.historyForUser, Store.historyRows, hrow]
    rw [List.filter_eq_self.mpr (by decide)]
    show (List.mergeSort [m] _).map Store.toSummary = [m]
    rw [List.mergeSort_singleton]
    decide
  refine ⟨hh, ?_⟩
  exact (history_restored hst [3] (units "alice") [] (createInitialState [])).2.2.1 m
    (hh ▸ List.mem_singleton_self m)

end ThreadLink.Frontend
