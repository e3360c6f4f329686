import ThreadLink.Frontend.Summaries

/-!
# What a logout leaves behind

`LOGGED_OUT` sets the fields of the state one by one. Those that it does not name are as the last
user left them: two browsers that differ in them differ after it, and a group that has been asked
for takes over the view of the next user.

## What is proved

* `same_after_logout_iff` — nothing of the last user has an influence on what comes exactly if
  what `LOGGED_OUT` leaves is the same.
* `pending_group_survives_logout` — two reachable states, and the same login after both, that show
  different conversations.
-/

namespace ThreadLink.Frontend

open Text Gateway

/-- What `LOGGED_OUT` leaves of a user: three dialogs, a group that has been asked for, and what the
login screen shows. -/
structure Leftover where
  /-- The sidebar is open. -/
  sidebarOpen : Bool
  /-- The dialog for a new nickname is. -/
  nicknameModalOpen : Bool
  /-- The dialog for a new group is. -/
  newGroupModalOpen : Bool
  /-- A group has been asked for. -/
  pendingGroupCreation : Bool
  /-- What the login screen shows. -/
  authError : Option Units
  deriving DecidableEq

/-- What a user leaves. -/
def ChatState.leftover (c : ChatState) : Leftover :=
  ⟨c.sidebarOpen, c.nicknameModalOpen, c.newGroupModalOpen, c.pendingGroupCreation, c.authError⟩

variable {c d : ChatState}

/-- The leftover is still there after the logout. -/
theorem leftover_loggedOut (c : ChatState) : (chatReducer c .loggedOut).leftover = c.leftover := rfl

/-- After the logout, nothing else is. -/
theorem loggedOut_eq (hs : c.connectionStatus = d.connectionStatus)
    (hg : c.gatewayUrl = d.gatewayUrl) (hc : c.hasConnectedOnce = d.hasConnectedOnce)
    (hl : c.leftover = d.leftover) : chatReducer c .loggedOut = chatReducer d .loggedOut := by
  obtain ⟨hsidebar, hnickname, hgroup, hpending, hauth⟩ := Leftover.mk.inj hl
  simp only [chatReducer, hs, hg, hc, hsidebar, hnickname, hgroup, hpending, hauth]

/-- **When the last user has no influence.** Two states with the same connection are the same after
`LOGGED_OUT` and any actions exactly if the users leave the same. -/
theorem same_after_logout_iff (hs : c.connectionStatus = d.connectionStatus)
    (hg : c.gatewayUrl = d.gatewayUrl) (hc : c.hasConnectedOnce = d.hasConnectedOnce) :
    (∀ actions : List ChatAction,
      (.loggedOut :: actions).foldl chatReducer c = (.loggedOut :: actions).foldl chatReducer d) ↔
      c.leftover = d.leftover := by
  constructor
  · intro h
    have hout : chatReducer c .loggedOut = chatReducer d .loggedOut := h []
    rw [← leftover_loggedOut c, ← leftover_loggedOut d, hout]
  · intro hl actions
    rw [List.foldl_cons, List.foldl_cons, loggedOut_eq hs hg hc hl]

/-- Another user logs in after the logout, and is in a group that somebody creates. -/
def nextLogin : List ChatAction :=
  [.loggedOut, .ready [6] (units "bob") [] [] [], .conversationCreated lunch]

/-- A message that was there before the logout has no influence on what that user sees. -/
theorem message_has_no_influence :
    nextLogin.foldl chatReducer (chatReducer aliceIn (.messageReceived (groupMessage "hi"))) =
      nextLogin.foldl chatReducer aliceIn :=
  (same_after_logout_iff rfl rfl rfl).mpr rfl nextLogin.tail

/-- The user of the examples asks for a group. -/
def asksForGroup : ChatState := chatReducer aliceIn .markPendingGroupCreation

/-- **The group of another user.** Two states that are reached with the same connection; the user of
one has asked for a group. After the logout and the next login, a group that somebody else creates
takes over the view in one and not in the other. -/
theorem pending_group_survives_logout :
    asksForGroup.connectionStatus = aliceIn.connectionStatus ∧
    asksForGroup.gatewayUrl = aliceIn.gatewayUrl ∧
      asksForGroup.hasConnectedOnce = aliceIn.hasConnectedOnce ∧
      (nextLogin.foldl chatReducer asksForGroup).activeConversationId = [9] ∧
      (nextLogin.foldl chatReducer aliceIn).activeConversationId = publicConversationId := by
  decide

end ThreadLink.Frontend
