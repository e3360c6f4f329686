import ThreadLink.Frontend.Logout

/-!
# Whose group takes over the view

`createGroup` sets a flag, and a group that arrives while it is set is shown. The gateway does not
say whose group it is, nor that a request has failed in a way the reducer would notice, so the flag
stands for more than the requests that are under way.

## The model

* `Creating` is the state of a browser with the number of requests of the login session that have
  not been answered.
* The gateway answers a request with an error or with the group; `LOGGED_OUT` ends the session.
* Who has created a group is in the event. The reducer is given the same action.

## What is proved

* `pending_of_path` — the flag is set exactly if `createGroup` has been called since the last new
  group with the user in it arrived.
* `announced_takes_over_iff` — when a group of another user takes over the view.
* `view_is_own` — in the runs in which no group of another user arrives then, only groups that the
  user has created in this login session do.
* `refused_group_lets_others_in` — a run in which one does not.
-/

namespace ThreadLink.Frontend

open Text Gateway Runs

/-- A browser that creates groups. -/
structure Creating where
  /-- Its state. -/
  state : ChatState
  /-- How many requests of this login session have not been answered. -/
  requests : ℕ

namespace Creating

/-- What can happen. -/
inductive Event where
  /-- `createGroup` is called with a name and with members. -/
  | createGroup
  /-- The gateway answers a request with an error. -/
  | refused (code message : Units) (conversationId : Option Units) (rendered : ChatState)
    (id now : Units)
  /-- The gateway answers a request: the group has been created. -/
  | created (summary : ConversationSummary)
  /-- Somebody else has created a conversation. -/
  | announced (summary : ConversationSummary)
  /-- Any other action. -/
  | other (a : ChatAction)

/-- The action that is reduced. -/
def Event.action : Event → ChatAction
  | .createGroup => .markPendingGroupCreation
  | .refused code message conversationId rendered id now =>
    handleServerEvent rendered id now (.error code message conversationId)
  | .created summary | .announced summary => .conversationCreated summary
  | .other a => a

/-- Whether an action has an event of its own. -/
def special : ChatAction → Bool
  | .markPendingGroupCreation | .conversationCreated _ => true
  | _ => false

/-- The requests of the session after an event; `none` if it cannot happen. -/
def count (requests : ℕ) : Event → Option ℕ
  | .createGroup => some (requests + 1)
  | .refused _ _ _ _ _ _ | .created _ => if requests = 0 then none else some (requests - 1)
  | .announced _ => some requests
  | .other .loggedOut => some 0
  | .other a => if special a then none else some requests

/-- One event. -/
def step (s : Creating) (e : Event) : Option Creating :=
  (count s.requests e).map fun requests => ⟨chatReducer s.state e.action, requests⟩

/-- A browser that has been opened. -/
def init (gatewayUrl : Units) : Creating := ⟨createInitialState gatewayUrl, 0⟩

variable {past : List (Creating × Event)} {s s' : Creating} {e : Event}
  {summary : ConversationSummary}

/-- The group is new to the user, and has the user in it. -/
def IsNew (c : ChatState) (summary : ConversationSummary) : Prop :=
  (c.userId.getD []).isEmpty = false ∧ summary.kind = .group ∧
  summary.memberIds.contains (c.userId.getD []) = true ∧
    c.conversations.find? summary.id = none

instance (c : ChatState) (summary : ConversationSummary) : Decidable (IsNew c summary) :=
  inferInstanceAs (Decidable (_ ∧ _ ∧ _ ∧ _))

/-- A new group arrives. -/
def arrives (e : Creating × Event) : Bool :=
  match e.2.action with
  | .conversationCreated summary => decide (IsNew e.1.state summary)
  | _ => false

/-- `createGroup` is called. -/
def asks (e : Creating × Event) : Bool :=
  match e.2 with
  | .createGroup => true
  | _ => false

/-- **Some call of `createGroup` has not been followed by a new group.** -/
def Waits (past : List (Creating × Event)) : Prop := 0 < countSince arrives asks past

instance (past : List (Creating × Event)) : Decidable (Waits past) :=
  inferInstanceAs (Decidable (_ < _))

/-- What `CONVERSATION_CREATED` does to the view and to the flag. -/
theorem reduceConversationCreated_view (c : ChatState) (summary : ConversationSummary) :
    (reduceConversationCreated c summary).activeConversationId =
        (if c.pendingGroupCreation = true ∧ IsNew c summary then summary.id
          else c.activeConversationId) ∧
      (reduceConversationCreated c summary).pendingGroupCreation =
        (c.pendingGroupCreation && !decide (IsNew c summary)) := by
  have hflag : (!(c.userId.getD []).isEmpty &&
    (summary.kind == .group && summary.memberIds.contains (c.userId.getD []) &&
      (c.conversations.find? summary.id).isNone)) = decide (IsNew c summary) := by
    rw [Bool.eq_iff_iff, decide_eq_true_iff]
    simp only [IsNew, Bool.and_eq_true, Bool.not_eq_true', beq_iff_eq, Option.isNone_iff_eq_none,
      and_assoc]
  unfold reduceConversationCreated
  dsimp only
  by_cases hu : (c.userId.getD []).isEmpty = true
  · have hnot : ¬ IsNew c summary := fun h => by
      rw [h.1] at hu
      cases hu
    rw [if_pos hu, if_neg (fun h => hnot h.2), decide_eq_false hnot, Bool.not_false, Bool.and_true]
    exact ⟨rfl, rfl⟩
  · rw [Bool.not_eq_true] at hu
    rw [hu, Bool.not_false, Bool.true_and] at hflag
    rw [hu, if_neg Bool.false_ne_true, Bool.and_assoc, Bool.and_assoc,
      ← Bool.and_assoc (summary.kind == .group), hflag]
    by_cases hn : IsNew c summary
    · have hid : (conversationFromSummary summary (c.userId.getD [])).id = summary.id :=
        id_conversationFromSummary fun h => by rw [hn.2.1] at h; cases h
      rw [hn.2.2.2]
      cases c.pendingGroupCreation <;> simp [hn, hid]
    · cases c.pendingGroupCreation <;> simp [hn]

/-- No other action has to do with the flag. -/
theorem pending_chatReducer (c : ChatState) {a : ChatAction} (ha : special a = false) :
    (chatReducer c a).pendingGroupCreation = c.pendingGroupCreation := by
  cases a with
  | markPendingGroupCreation | conversationCreated => cases ha
  | errorMessage code text target id now =>
    show (reduceErrorMessage c text target id now).pendingGroupCreation = c.pendingGroupCreation
    unfold reduceErrorMessage
    dsimp only
    split <;> rfl
  | setActiveConversation target =>
    show (reduceSetActive c target).pendingGroupCreation = c.pendingGroupCreation
    unfold reduceSetActive
    split <;> rfl
  | _ => rfl

theorem special_handleServerEvent (rendered : ChatState) (id now code message : Units)
    (conversationId : Option Units) :
    special (handleServerEvent rendered id now (.error code message conversationId)) = false := by
  unfold handleServerEvent
  dsimp only
  split <;> rfl

/-- **What an event does to the flag.** -/
theorem pending_step (hs : step s e = some s') :
    s'.state.pendingGroupCreation =
    (asks (s, e) || s.state.pendingGroupCreation && !arrives (s, e)) := by
  obtain ⟨requests, hcount, rfl⟩ := Option.map_eq_some_iff.mp hs
  have hkept {a : ChatAction} (ha : special a = false) (he : e.action = a) : asks (s, e) = false →
      (chatReducer s.state e.action).pendingGroupCreation =
        (asks (s, e) || s.state.pendingGroupCreation && !arrives (s, e)) := by
    intro hno
    have harr : arrives (s, e) = false := by
      unfold arrives
      rw [show (s, e).2.action = a from he]
      cases a with
      | conversationCreated => cases ha
      | _ => rfl
    rw [he, pending_chatReducer _ ha, hno, harr, Bool.not_false, Bool.and_true, Bool.false_or]
  cases e with
  | createGroup => rfl
  | refused code message conversationId rendered id now =>
    exact hkept (special_handleServerEvent ..) rfl rfl
  | created summary | announced summary => exact (reduceConversationCreated_view s.state summary).2
  | other a =>
    refine hkept (a := a) ?_ rfl rfl
    cases a with
    | markPendingGroupCreation | conversationCreated => cases hcount
    | _ => rfl

/-- **What the flag stands for.** -/
theorem pending_of_path {gatewayUrl : Units} (h : Path step (init gatewayUrl) past s) :
    s.state.pendingGroupCreation = true ↔ Waits past := by
  refine h.invariant (I := fun past s => s.state.pendingGroupCreation = true ↔ Waits past) ?_ ?_
  · exact iff_of_false Bool.false_ne_true (Nat.lt_irrefl 0)
  · intro past s e s' ih _ hs
    rw [pending_step hs, Waits, countSince_concat]
    have hboth : arrives (s, e) = true → asks (s, e) = false := by
      intro ha
      cases e with
      | createGroup => cases ha
      | _ => rfl
    cases ha : arrives (s, e) with
    | true =>
      rw [hboth ha, if_pos rfl]
      exact iff_of_false (by simp) (Nat.lt_irrefl 0)
    | false =>
      rw [if_neg Bool.false_ne_true, Bool.not_false, Bool.and_true]
      unfold Waits at ih
      cases hk : asks (s, e) with
      | true => exact iff_of_true rfl (Nat.succ_pos _)
      | false =>
        rw [Bool.false_or, ih]
        rfl

/-- The login session ends. -/
def ends (e : Creating × Event) : Bool :=
  match e.2.action with
  | .loggedOut => true
  | _ => false

/-- The requests that wait for an answer are of this login session. -/
theorem requests_of_path {gatewayUrl : Units} (h : Path step (init gatewayUrl) past s) :
    s.requests ≤ countSince ends asks past := by
  refine h.invariant (I := fun past s => s.requests ≤ countSince ends asks past) (Nat.le_refl 0) ?_
  intro past s e s' ih _ hs
  obtain ⟨requests, hcount, rfl⟩ := Option.map_eq_some_iff.mp hs
  rw [countSince_concat]
  cases e with
  | createGroup =>
    rw [← Option.some.inj hcount]
    exact Nat.succ_le_succ ih
  | refused code message conversationId rendered id now =>
    have hends : ends (s, .refused code message conversationId rendered id now) = false := by
      unfold ends Event.action handleServerEvent
      dsimp only
      split
      · rename_i he
        split at he <;> cases he
      · rfl
    rw [hends, if_neg Bool.false_ne_true]
    obtain ⟨-, hr⟩ := Option.ite_none_left_eq_some.mp hcount
    have hr := Option.some.inj hr
    dsimp only
    omega
  | created summary =>
    obtain ⟨-, hr⟩ := Option.ite_none_left_eq_some.mp hcount
    have hr := Option.some.inj hr
    rw [show ends (s, .created summary) = false from rfl, if_neg Bool.false_ne_true]
    dsimp only
    omega
  | announced summary =>
    rw [← Option.some.inj hcount]
    exact ih
  | other a =>
    cases a with
    | loggedOut =>
      rw [← Option.some.inj hcount]
      exact Nat.zero_le _
    | markPendingGroupCreation | conversationCreated => cases hcount
    | _ =>
      rw [← Option.some.inj hcount]
      exact ih

/-- When a group takes over the view. -/
theorem takes_over_iff {gatewayUrl : Units} (h : Path step (init gatewayUrl) past s)
    (summary : ConversationSummary) :
    (chatReducer s.state (.conversationCreated summary)).activeConversationId ≠
      s.state.activeConversationId ↔
      Waits past ∧ IsNew s.state summary ∧ summary.id ≠ s.state.activeConversationId := by
  rw [← pending_of_path h,
      show (chatReducer s.state (.conversationCreated summary)).activeConversationId = _ from
    (reduceConversationCreated_view s.state summary).1]
  split
  · rename_i hn
    exact ⟨fun hne => ⟨hn.1, hn.2, hne⟩, fun hw => hw.2.2⟩
  · rename_i hn
    exact iff_of_false (fun hne => hne rfl) fun hw => hn ⟨hw.1, hw.2.1⟩

/-- **Whose group takes over the view.** In a run of a browser, only groups that the user has asked
for in the same login session are shown when they arrive, exactly if no group of another user is new
to the user when it arrives, and has the user in it, while some call of `createGroup` has not been
followed by a new group. -/
theorem view_is_own_iff {gatewayUrl : Units} (h : Path step (init gatewayUrl) past s) :
    (∀ before t e rest, past = before ++ (t, e) :: rest →
      ∀ summary, e.action = .conversationCreated summary →
      (chatReducer t.state e.action).activeConversationId ≠ t.state.activeConversationId →
        e = .created summary ∧ 0 < countSince ends asks before) ↔
      ∀ before t summary rest, past = before ++ (t, .announced summary) :: rest →
        ¬ (Waits before ∧ IsNew t.state summary ∧ summary.id ≠ t.state.activeConversationId) := by
  constructor
  · rintro hall before t summary rest rfl hw
    obtain ⟨u, hp, -, -⟩ := h.split
    obtain ⟨he, -⟩ :=
      hall before t (.announced summary) rest rfl summary rfl ((takes_over_iff hp summary).mpr hw)
    cases he
  · rintro hall before t e rest rfl summary he hne
    obtain ⟨u, hp, hs, -⟩ := h.split
    rw [he] at hne
    have hw := (takes_over_iff hp summary).mp hne
    cases e with
    | createGroup => cases he
    | refused code message conversationId rendered id now =>
      have hspecial := special_handleServerEvent rendered id now code message conversationId
      rw [show handleServerEvent rendered id now (.error code message conversationId) = _ from
        he] at hspecial
      cases hspecial
    | created summary' =>
      obtain ⟨requests, hcount, -⟩ := Option.map_eq_some_iff.mp hs
      obtain ⟨hpos, -⟩ := Option.ite_none_left_eq_some.mp hcount
      rw [ChatAction.conversationCreated.inj he]
      exact ⟨rfl, Nat.lt_of_lt_of_le (Nat.pos_of_ne_zero hpos) (requests_of_path hp)⟩
    | announced summary' =>
      rw [← ChatAction.conversationCreated.inj he] at hw
      exact absurd hw (hall before t summary' rest rfl)
    | other a =>
      obtain ⟨requests, hcount, -⟩ := Option.map_eq_some_iff.mp hs
      rw [show a = _ from he] at hcount
      cases hcount

/-- A user logs in and asks for a group, which is created. -/
def createsLunch : List Event :=
  [.other (.ready [3] (units "alice") [] [] []), .createGroup, .created lunch]

theorem lunch_is_shown : ∃ s, Path step (init []) (trace step (init []) createsLunch) s ∧
    s.state.activeConversationId = [9] ∧
    ∀ before t e rest, trace step (init []) createsLunch = before ++ (t, e) :: rest →
      ∀ summary, e.action = .conversationCreated summary →
        (chatReducer t.state e.action).activeConversationId ≠ t.state.activeConversationId →
          e = .created summary ∧ 0 < countSince ends asks before := by
  have hexec : (execAllIn step (fun _ _ => True) (init []) createsLunch).map
    (fun s => s.state.activeConversationId) =
      some [9] := by
    decide
  obtain ⟨s, hp, hs⟩ := exists_pathIn_of_execAllIn hexec
  refine ⟨s, hp, hs, (view_is_own_iff hp).mpr ?_⟩
  intro before t summary rest he
  -- nobody else has created anything
  have hmem : (t, Event.announced summary) ∈ trace step (init []) createsLunch := by
    rw [he]
    exact List.mem_append_right _ List.mem_cons_self
  have ha := mem_of_mem_trace hmem
  simp only [createsLunch, List.mem_cons, reduceCtorEq, List.not_mem_nil, or_false] at ha

/-- The user asks for a group with a member that has just gone, and the gateway refuses. -/
def refusedGroup : List Event :=
  [.other (.ready [3] (units "alice") [] [] []), .createGroup,
    .refused (units "UNKNOWN_MEMBER") (units "Unknown or offline user id(s): [7]") none
      aliceIn [] []]

/-- **A group that the user has not asked for takes over the view.** The request has been answered,
and somebody else creates a group. -/
theorem refused_group_lets_others_in : ∃ s, Run step (init []) s ∧ s.requests = 0 ∧
    s.state.activeConversationId = publicConversationId ∧ ∃ t, step s (.announced lunch) = some t ∧
    t.state.activeConversationId = lunch.id := by
  obtain ⟨s, hs, hr, ha, ht⟩ := exists_run_of_any step (init []) refusedGroup
    (fun s => s.requests = 0 ∧ s.state.activeConversationId = publicConversationId ∧
      ((step s (.announced lunch)).map fun t => t.state.activeConversationId) = some lunch.id)
      (by decide)
  obtain ⟨t, ht, hid⟩ := Option.map_eq_some_iff.mp ht
  exact ⟨s, hs, hr, ha, t, ht, hid⟩

end Creating

end ThreadLink.Frontend
