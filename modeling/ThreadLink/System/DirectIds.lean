import Mathlib.Data.Sym.Sym2
import ThreadLink.Frontend.ChatProvider
import ThreadLink.Gateway.Groups
import ThreadLink.Gateway.Membership

/-!
# The ids of direct conversations

Both tiers make the id of a direct conversation of the ids of its two users, each with a function of
its own: the gateway when the first message is sent, the browser when a user picks another one,
before there is anything at the gateway.

## What is proved

* `directConversationId_eq` — both functions make the same id.
* `directConversationId_eq_iff` — the id tells the pair, if the ids of the users have no `:`.
* `showDirect_active` — the conversation that a browser makes is the one that is shown.
* `direct_ids_agree` — **two pairs never share a conversation, and both tiers address the same
  one**.
-/

namespace ThreadLink.System

open Text Gateway Frontend

variable {a b c d now : Units} {st : Store} {p : ChatProvider} {summary : ConversationSummary}

/-! ### The ids -/

/-- Both tiers make the same id. -/
theorem directConversationId_eq (a b : Units) :
    Frontend.directConversationId a b = Gateway.directConversationId a b := by
  unfold Frontend.directConversationId Gateway.directConversationId
  by_cases h : b < a
  · have hsort : [a, b].insertionSort (· ≤ ·) = [b, a] := if_neg (List.not_le.mpr h)
    rw [hsort, if_pos h]
    simp [List.intercalate]
  · have hsort : [a, b].insertionSort (· ≤ ·) = [a, b] := if_pos (List.not_lt.mp h)
    rw [hsort, if_neg h]
    simp [List.intercalate]

/-- The id of a direct conversation tells the pair of its users. -/
theorem directConversationId_eq_iff (hab : colon ∉ a ∧ colon ∉ b) (hcd : colon ∉ c ∧ colon ∉ d) :
    Gateway.directConversationId a b = Gateway.directConversationId c d ↔ s(a, b) = s(c, d) := by
  rw [Sym2.eq_iff]
  constructor
  · exact directConversationId_inj hab hcd
  · rintro (⟨rfl, rfl⟩ | ⟨rfl, rfl⟩)
    · rfl
    · exact directConversationId_comm a b

/-- It is not that of the public conversation. -/
theorem directConversationId_ne_public (a b : Units) :
    Gateway.directConversationId a b ≠ Gateway.publicConversationId := by
  intro h
  have hpublic : ConversationKind.everyone.label <+: Gateway.directConversationId a b := by
    rw [h]
    exact List.prefix_refl _
  cases ConversationKind.eq_of_label hpublic (label_directConversationId a b)

/-! ### The browser -/

/-- A conversation is made if it is not there, and shown. -/
def showConversation (p : ChatProvider) (conversation : ConversationSummary) : ChatProvider :=
  (if (p.stateRef.conversations.find? conversation.id).isNone then
    p.dispatch (.conversationCreated conversation) else p).dispatch
    (.setActiveConversation conversation.id)

/-- A browser that picks a user shows the conversation that the gateway will make for the two,
whatever is in the database. -/
theorem startDirectConversation_eq (st : Store) (now : Units) (hu : p.stateRef.userId = some a)
    (ha : a ≠ []) (hb : b ≠ a) :
    p.startDirectConversation b = showConversation p (st.ensureDirect now a b).2 := by
  have htruthy : truthy (some a) = true := by
    cases a with
    | nil => exact absurd rfl ha
    | cons u a => rfl
  have hgo : ¬ (!truthy (some a) || b == a) = true := by
    rw [htruthy, beq_eq_false_iff_ne.mpr hb]
    decide
  unfold ChatProvider.startDirectConversation
  simp only [hu, Option.getD_some, if_neg hgo, directConversationId_eq]
  rfl

/-- What is dispatched makes it the one that is shown, under the id it has at the gateway. -/
theorem showConversation_active (hrendered : p.stateRef = p.state) (hu : p.state.userId = some a)
    (ha : a ≠ []) (hk : summary.kind = .direct) :
    (showConversation p summary).state.activeConversationId = summary.id ∧
      ((showConversation p summary).state.conversations.find? summary.id).isSome = true := by
  have hshow {q : ChatProvider} {conv : Conversation}
      (h : q.state.conversations.find? summary.id = some conv) :
      (q.dispatch (.setActiveConversation summary.id)).state.activeConversationId = summary.id ∧
        ((q.dispatch (.setActiveConversation summary.id)).state.conversations.find?
          summary.id).isSome = true := by
    simp only [ChatProvider.dispatch, chatReducer, reduceSetActive, h, OrdMap.find?_insert_self,
      Option.isSome_some, and_self]
  have hempty : ¬ a.isEmpty = true := fun h => ha (List.isEmpty_iff.mp h)
  unfold showConversation
  rw [hrendered]
  cases hfind : p.state.conversations.find? summary.id with
  | some conv => exact hshow hfind
  | none =>
    have hmade : (p.dispatch (.conversationCreated summary)).state.conversations.find? summary.id =
        some (conversationFromSummary summary a) := by
      have hid : (conversationFromSummary summary a).id = summary.id := by
        simp only [conversationFromSummary, hk]
      simp only [ChatProvider.dispatch, chatReducer, reduceConversationCreated, hu,
        Option.getD_some, if_neg hempty, hfind, hid, OrdMap.find?_insert_self]
    exact hshow hmade

/-! ### Both tiers -/

/-- **The ids of direct conversations.** For users whose ids have no `:`, two pairs have one id
exactly when they are the same pair; it is neither that of the public conversation nor one of a
group. The browser makes the id that the gateway makes, so the conversation that it shows when a
user picks another one is the one that the gateway makes for the two, whatever its database has. -/
theorem direct_ids_agree {a b c d : Units} (ha : colon ∉ a) (hb : colon ∉ b) (hc : colon ∉ c)
    (hd : colon ∉ d) :
    (Gateway.directConversationId a b = Gateway.directConversationId c d ↔ s(a, b) = s(c, d)) ∧
    Frontend.directConversationId a b = Gateway.directConversationId a b ∧
    (Gateway.directConversationId a b ≠ Gateway.publicConversationId ∧
      Frontend.directConversationId a b ≠ Frontend.publicConversationId ∧
      ¬ units "group:" <+: Gateway.directConversationId a b ∧
      ∀ uuid, Gateway.directConversationId a b ≠ Operation.groupId uuid) ∧
    (∀ (st st' : Store) (now now' : Units),
      (st.ensureDirect now a b).2.id = (st'.ensureDirect now' c d).2.id ↔ s(a, b) = s(c, d)) ∧
    ∀ (p : ChatProvider) (st : Store) (now : Units), p.stateRef.userId = some a → a ≠ [] → b ≠ a →
      p.startDirectConversation b = showConversation p (st.ensureDirect now a b).2 ∧
      (p.stateRef = p.state → (p.startDirectConversation b).state.activeConversationId =
        (st.ensureDirect now a b).2.id) := by
  have hiff := directConversationId_eq_iff ⟨ha, hb⟩ ⟨hc, hd⟩
  have hpublic := directConversationId_ne_public a b
  have hgroup := GatewayServer.not_group_direct a b
  refine ⟨hiff, directConversationId_eq a b, ⟨hpublic, ?_, hgroup, ?_⟩, ?_, ?_⟩
  · rw [directConversationId_eq]
    exact hpublic
  · intro uuid h
    rw [h] at hgroup
    exact hgroup (List.prefix_append _ _)
  · intro st st' now now'
    exact hiff
  · intro p st now hu hne hba
    have hshow := startDirectConversation_eq st now hu hne hba
    refine ⟨hshow, ?_⟩
    intro hrendered
    rw [hshow]
    exact (showConversation_active hrendered (hrendered ▸ hu) hne rfl).1

/-- The conversation of `b` and `a` is not that of `a` and `c`; the browser of `b` shows it. -/
theorem direct_ids_agree_of_letters :
    let state := chatReducer (createInitialState []) (.ready (units "b") (units "bob") [] [] [])
    let p : ChatProvider := { ChatProvider.init [] with state := state, stateRef := state }
    Gateway.directConversationId (units "b") (units "a") ≠
      Gateway.directConversationId (units "a") (units "c") ∧
      (p.startDirectConversation (units "a")).state.activeConversationId = units "direct:a:b" := by
  intro state p
  have h := direct_ids_agree (a := units "b") (b := units "a") (c := units "a") (d := units "c")
    (by decide) (by decide) (by decide) (by decide)
  constructor
  · rw [Ne, h.1]
    decide
  · rw [(h.2.2.2.2 p (.init []) [] rfl (by decide) (by decide)).2 rfl]
    decide

end ThreadLink.System
