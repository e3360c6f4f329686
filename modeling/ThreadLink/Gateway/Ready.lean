import ThreadLink.Gateway.Groups

/-!
# What comes before `ready`

`ready` is the browser's signal that the session is live, and nothing is to be sent before
it. But who is sent an event is decided by who is in the roster, and by who has been welcomed,
and a session is both before it is ready: until the chat server confirms its username. This
module has what is sent first in the runs in which nothing happens that concerns a session
that waits for its `ready`.

## What is proved

* `Told.heeds` — `audience` has all sessions that an event sends something to, but for answers
  and `ready`.
* `step_greets` — a session is sent `ready` before anything else that announcing it sends.
* `ready_comes_first` — if no event has a session in its audience that has not been sent
  `ready`, and no session that is ready is welcomed again, then a session is sent `ready`
  first, and announced once.
-/

namespace ThreadLink.Gateway

open Text Runs

/-- Whether an event answers: an error, or `loggedOut`. -/
def ServerMessage.isAnswer : ServerMessage → Bool
  | .error _ _ _ | .loggedOut => true
  | _ => false

/-- Whether an event is `ready`. -/
def ServerMessage.isReady : ServerMessage → Bool
  | .ready _ _ _ _ _ => true
  | _ => false

/-! ### What comes first -/

/-- The first event that is not an answer is `ready`. -/
def Greeted (l : List Sent) : Prop :=
  ∀ m rest, l.filter (fun m => !m.message.isAnswer) = m :: rest → m.message.isReady = true

theorem greeted_nil : Greeted [] := fun _ _ h => by cases h

/-- If it has come, anything may follow. -/
theorem Greeted.append_of_ready {l : List Sent} (h : Greeted l)
    (hr : ∃ m ∈ l, m.message.isReady = true) (l' : List Sent) : Greeted (l ++ l') := by
  intro m rest he
  obtain ⟨m', hm', hr⟩ := hr
  have hne : m' ∈ l.filter fun m => !m.message.isAnswer := by
    refine List.mem_filter.mpr ⟨hm', ?_⟩
    cases hm : m'.message <;> rw [hm] at hr <;> first | rfl | cases hr
  rw [List.filter_append] at he
  cases hl : l.filter fun m => !m.message.isAnswer with
  | nil =>
    rw [hl] at hne
    exact absurd hne List.not_mem_nil
  | cons m'' rest' =>
    rw [hl, List.cons_append, List.cons.injEq] at he
    exact he.1 ▸ h m'' rest' hl

/-- Answers may always follow, and so may `ready`. -/
theorem Greeted.append {l l' : List Sent} (h : Greeted l) (h' : Greeted l') :
    Greeted (l ++ l') := by
  intro m rest he
  rw [List.filter_append] at he
  cases hl : l.filter fun m => !m.message.isAnswer with
  | nil =>
    rw [hl, List.nil_append] at he
    exact h' m rest he
  | cons m'' rest' =>
    rw [hl, List.cons_append, List.cons.injEq] at he
    exact he.1 ▸ h m'' rest' hl

/-- Nothing but answers and `ready`. -/
theorem greeted_of_forall {l : List Sent}
    (h : ∀ m ∈ l, m.message.isAnswer = true ∨ m.message.isReady = true) : Greeted l := by
  intro m rest he
  have hm : m ∈ l.filter fun m => !m.message.isAnswer := by rw [he]; exact List.mem_cons_self
  obtain ⟨hm, hn⟩ := List.mem_filter.mp hm
  exact (h m hm).resolve_left (by simpa using hn)

theorem greeted_cons {m : Sent} (h : m.message.isReady = true) (l : List Sent) : Greeted (m :: l) :=
  (greeted_of_forall (l := [m]) fun _ hm => .inr (List.mem_singleton.mp hm ▸ h)).append_of_ready
    ⟨m, List.mem_singleton_self m, h⟩ l

namespace GatewayServer

variable {P : Cause → Prop} {past : List (GatewayServer × Event)} {s s' t u : GatewayServer}
  {e : Event} {c : Cause}
  {w x : WsId} {b : BackendId}

/-! ### Whom an event concerns -/

/-- What a broadcast of an event reaches. -/
def reachedIn (s : GatewayServer) (e : Event) : List WsId :=
  s.roster.values.filter fun x => (s.sessions x).welcomed || s.welcomes e x

/-- The sessions that are found under some ids. -/
def found (s : GatewayServer) (ids : List Units) : List WsId := ids.filterMap s.roster.find?

/-- The sessions that are sent something about a message of `w` that an event lets take
effect. -/
def addresses (s : GatewayServer) (e : Event) (w : WsId) : ClientMessage → List WsId
  | .setPresence _ => s.reachedIn e
  | .createGroup _ memberIds =>
    if ∀ i ∈ s.groupIds w memberIds, (s.onlineIn? e i).isSome = true
      then s.found (s.groupIds w memberIds) else []
  | .sendMessage .everyone _ => [w]
  | .sendMessage (.direct peerId) _ =>
    match s.onlineIn? e peerId with
    | none => []
    | some peer =>
      if s.store.hasDirect (directConversationId (s.sessions w).id (s.sessions peer).id) then []
        else [w, peer]
  | .sendMessage (.group groupId) _ =>
    match (s.store.getGroup groupId).filter fun memberIds =>
        memberIds.contains (s.sessions w).id with
    | none => []
    | some memberIds => s.found memberIds
  | _ => []

/-- Those that an event of the chat server for `w` sends something to. If `w` is announced it is
sent `ready` before. -/
def hearers (s : GatewayServer) (e : Event) (w : WsId) : BackendEvent → List WsId
  | .msg _ _ | .priv _ _ | .privSent _ _ => [w]
  | event =>
    if s.announces w event then
      ((s.reachedIn e).filter (fun x => (s.sessions x).id ≠ (s.sessions w).id) ++
        (s.handles e w).flatMap (s.addresses e w)).filter (· ≠ w)
    else if s.renames w event then s.reachedIn e
    else []

/-- The sessions that an event sends something to, but for answers and `ready`. -/
def audience (s : GatewayServer) : Event → List WsId
  | .message w n v => (s.handles (.message w n v) w).flatMap (s.addresses (.message w n v) w)
  | .backendFrame b p =>
    s.hearers (.backendFrame b p) (s.backends b).owner (parseBackendLine (utf8Decode p))
  | .wsClose w =>
    if (s.sessions w).closed || !(s.sessions w).authenticated || !(s.sessions w).welcomed then []
    else
      (s.roster.erase (s.sessions w).id).values.filter fun x =>
        (s.sessions x).welcomed && (s.sessions x).id != (s.sessions w).id
  | _ => []

/-- Whether a session has been sent `ready`. -/
def isGreeted (s : GatewayServer) (x : WsId) : Bool := (s.sent x).any fun m => m.message.isReady

/-- **The condition**: no event concerns a session whose WebSocket is open and that has not
been sent `ready`, and no session is announced that has been announced before. -/
def ReadyFirst (s : GatewayServer) (e : Event) : Prop :=
  (∀ x ∈ s.audience e, (s.sessions x).ws = .opened → s.isGreeted x = true) ∧
    ∀ w ∈ s.announced e, (s.sessions w).readyAnnounced = false

instance (s : GatewayServer) (e : Event) : Decidable (ReadyFirst s e) :=
  inferInstanceAs (Decidable (_ ∧ _))

/-- An event concerns a session, or announces it. -/
def Heeds (s : GatewayServer) (e : Event) (x : WsId) : Prop :=
  x ∈ s.audience e ∨ s.announced e = some x

theorem hearers_of_announces {ev : BackendEvent} (h : s.announces w ev = true) :
    s.hearers e w ev =
      ((s.reachedIn e).filter (fun x => (s.sessions x).id ≠ (s.sessions w).id) ++
        (s.handles e w).flatMap (s.addresses e w)).filter (· ≠ w) := by
  cases ev with
  | welcome => exact if_pos h
  | nick => exact if_pos h
  | _ => cases h

theorem hearers_of_renames {ev : BackendEvent} (h : s.renames w ev = true) :
    s.hearers e w ev = s.reachedIn e := by
  cases ev with
  | nick oldNick newNick =>
    have hn : ¬s.announces w (.nick oldNick newNick) = true := by
      obtain ⟨-, hr⟩ := Bool.and_eq_true_iff.mp h
      simp [announces, hr]
    exact (if_neg hn).trans (if_pos h)
  | _ => cases h

/-- What reaches a session that is not the one that is announced. -/
theorem heeds_of_announces {p : Bytes}
    (h : s.announces (s.backends b).owner (parseBackendLine (utf8Decode p)) = true)
    (hx : x ∈ s.reachedIn (.backendFrame b p) ∧
      (s.sessions x).id ≠ (s.sessions (s.backends b).owner).id ∨
      x ∈ (s.handles (.backendFrame b p) (s.backends b).owner).flatMap
        (s.addresses (.backendFrame b p) (s.backends b).owner)) :
    Heeds s (.backendFrame b p) x := by
  by_cases hw : x = (s.backends b).owner
  · right
    rw [hw]
    exact announced_of_announces h
  · left
    rw [audience, hearers_of_announces h]
    refine List.mem_filter.mpr
      ⟨List.mem_append.mpr (hx.imp (fun h => List.mem_filter.mpr ⟨h.1, ?_⟩) id), by simpa using hw⟩
    simpa using h.2

/-- A message that takes effect concerns those it addresses. -/
theorem heeds_of_message {m : ClientMessage} (ha : s.Acts e w) (hm : m ∈ s.handles e w)
    (hx : x ∈ s.addresses e w m) : Heeds s e x := by
  cases e with
  | message w' n v =>
    obtain rfl : w = w' := ha
    exact .inl (List.mem_flatMap.mpr ⟨m, hm, hx⟩)
  | backendFrame b p =>
    obtain rfl : w = (s.backends b).owner := ha
    have han : s.announces (s.backends b).owner (parseBackendLine (utf8Decode p)) = true := by
      by_contra hn
      rw [handles, announced, if_neg hn, if_neg (fun h => by cases h)] at hm
      split at hm <;> cases hm
    exact heeds_of_announces han (.inr (List.mem_flatMap.mpr ⟨m, hm, hx⟩))
  | _ => exact ha.elim

/-- Who is reached when the deeds of an event are done. -/
theorem Change.reached (h : Change s e t) (hx : s.Acts e w) (hu : Same t u) (hr : u.Reached x) :
    x ∈ s.reachedIn e := by
  obtain ⟨hr, hw⟩ := hr
  rw [hu.roster, (h.of_acts hx).2] at hr
  refine List.mem_filter.mpr ⟨hr, ?_⟩
  obtain ⟨p, q, he⟩ := hu.sessions x
  rw [he] at hw
  rw [← h.welcomed (by rintro rfl; exact hx.elim)]
  exact hw

/-! ### Members of groups that are new -/

/-- Members are added to direct conversations, or to a group that is made. -/
theorem Deed.members (h : Deed s c t) : ∀ r ∈ t.store.members.rows, r ∈ s.store.members.rows ∨
    ¬ConversationKind.group.label <+: r.1 ∨
    ∃ w name memberIds, c = .message w (.createGroup name memberIds) ∧
      (∀ i ∈ s.groupIds w memberIds, (s.online? i).isSome = true) ∧
      r.2 ∈ s.groupIds w memberIds := by
  intro r hr
  cases h with
  | @ensureDirect c w other =>
    replace hr :
      r ∈ (s.store.ensureDirect (s.env.now s.draws) (s.sessions w).id other).1.members.rows := hr
    cases hd : s.store.hasDirect (directConversationId (s.sessions w).id other) with
    | true =>
      rw [Store.ensureDirect_of_hasDirect hd] at hr
      exact .inl hr
    | false =>
      rw [Store.ensureDirect_of_not hd] at hr
      rcases Members.mem_rows_add.mp hr with hr | rfl
      · rcases Members.mem_rows_add.mp hr with hr | rfl
        · exact .inl hr
        · exact .inr (.inl (not_group_direct _ _))
      · exact .inr (.inl (not_group_direct _ _))
  | createGroup ho =>
    rcases Members.mem_rows_addAll.mp hr with hr | ⟨userId, hu, rfl⟩
    · exact .inl hr
    · exact .inr (.inr ⟨_, _, _, rfl, ho, hu⟩)
  | nick =>
    rw [sendLine_eq] at hr
    exact .inl hr
  | chat =>
    rw [forward, sendLine_eq] at hr
    exact .inl hr
  | direct =>
    rw [forward, sendLine_eq] at hr
    exact .inl hr
  | _ => exact .inl hr

/-- The users of a group that is made when the deeds of an event are done. -/
theorem Change.groupIds (h : Change s e t) (hx : s.Acts e w) (hu : Same t u)
    (memberIds : List Units) : u.groupIds w memberIds = s.groupIds w memberIds := by
  unfold GatewayServer.groupIds
  rw [hu.id, ((h.of_acts hx).1.sessions w).links.id]

/-- Those who are made members of a group are told. -/
theorem Change.created {name : Units} {memberIds : List Units} {id : Units} (h : Change s e t)
    (hu : Same t u) (hc : s.Causes e (.message w (.createGroup name memberIds)))
    (ho : ∀ i ∈ u.groupIds w memberIds, (u.online? i).isSome = true)
    (hi : id ∈ u.groupIds w memberIds) (hx : s.roster.find? id = some x) : Heeds s e x := by
  have ha : s.Acts e w := hc.acts w rfl
  apply heeds_of_message ha hc.message
  rw [h.groupIds ha hu] at ho hi
  have ho : ∀ i ∈ s.groupIds w memberIds, (s.onlineIn? e i).isSome = true := fun i hi => by
    rw [← h.onlineIn? ha, ← hu.online?]
    exact ho i hi
  rw [addresses, if_pos ho]
  exact List.mem_filterMap.mpr ⟨id, hi, hx⟩

/-- A member of a group has been one before the event, or is told. -/
theorem Change.member (h : Change s e t) (hu : Deeds (s.Causes e) t u) : ∀ r ∈ u.store.members.rows,
    ConversationKind.group.label <+: r.1 → r ∈ s.store.members.rows ∨
    ∀ x, s.roster.find? r.2 = some x → Heeds s e x := by
  induction hu with
  | refl =>
    intro r hr _
    rw [h.store_eq] at hr
    exact .inl hr
  | @tail u v hu hd ih =>
    obtain ⟨c, hc, hd⟩ := hd
    intro r hr hg
    rcases hd.members r hr with hr | hn | ⟨w, name, memberIds, rfl, ho, hi⟩
    · exact ih r hr hg
    · exact absurd hg hn
    · exact .inr fun x hx => h.created (Deeds.same hu) hc ho hi hx

/-- A message to a group concerns its members. -/
theorem Change.group {groupId text id : Units} {memberIds : List Units} (h : Change s e t)
    (hu : Deeds (s.Causes e) t u) (hn : Numbered s)
    (hc : s.Causes e (.message w (.sendMessage (.group groupId) text)))
    (hg : u.store.getGroup groupId = some memberIds) (hw : (u.sessions w).id ∈ memberIds)
    (hi : id ∈ memberIds) (hx : s.roster.find? id = some x) : Heeds s e x := by
  have ha : s.Acts e w := hc.acts w rfl
  obtain ⟨hnt, hext⟩ := h.numbered hn
  obtain ⟨hnu, hext'⟩ := hu.numbered hnt
  obtain ⟨⟨r, hr, hid, hk⟩, hof⟩ := Store.getGroup_eq_some.mp hg
  have hl : ConversationKind.group.label <+: groupId := hid ▸ hk ▸ hnu.filed.label r hr
  by_cases hin : groupId ∈ s.store.conversations.rows.map (·.id)
  · -- the group was there, with the same members
    obtain ⟨r', hr', hid'⟩ := List.mem_map.mp hin
    have hget : s.store.getGroup groupId = some memberIds := by
      refine Store.getGroup_eq_some.mpr ⟨⟨r', hr', hid', hn.filed.kind hr' (hid' ▸ hl)⟩, ?_⟩
      rw [← hof]
      exact ((hext.trans hext').of groupId hin).symm
    apply heeds_of_message ha hc.message
    have hw' : memberIds.contains (s.sessions w).id = true := by
      rw [hu.same.id, ((h.of_acts ha).1.sessions w).links.id] at hw
      simpa using hw
    have hf : (s.store.getGroup groupId).filter
        (fun memberIds => memberIds.contains (s.sessions w).id) = some memberIds :=
      Option.filter_eq_some_iff.mpr ⟨hget, hw'⟩
    rw [addresses, hf]
    exact List.mem_filterMap.mpr ⟨id, hi, hx⟩
  · have hrow : (groupId, id) ∈ u.store.members.rows := Members.mem_of.mp (hof ▸ hi)
    rcases h.member hu _ hrow hl with hold | hheeds
    · exact absurd (hn.filed.members _ hold) hin
    · exact hheeds x hx

/-- Who is told that a session has left. -/
theorem Change.offline (h : Change s e t) (hu : Same t u) (hc : s.Causes e (.leave w))
    (hx : u.Reached x) (hne : (u.sessions x).id ≠ (u.sessions w).id) : x ∈ s.audience e := by
  cases e with
  | wsClose w' =>
    obtain ⟨hw, ho, ha, hwel⟩ := hc
    cases hw
    cases h with
    | wsCloseAgain _ hcl =>
      rw [hcl] at ho
      cases ho
    | wsClose hl _ =>
      have hstays :
          Stays s ((s.modifySession w fun session => { session with ws := .closed }).leave w) :=
        (Change.wsClose hl ho).stays nofun nofun
      have hwelx := (Change.wsClose hl ho).welcomed (x := x) nofun
      obtain ⟨hr, hw⟩ := hx
      rw [hu.roster, roster_leave (by rw [sessions_modifySession_self]; exact ha),
        sessions_modifySession_self] at hr
      rw [hu.id, hu.id, (hstays.sessions x).links.id, (hstays.sessions w).links.id] at hne
      obtain ⟨p, q, he⟩ := hu.sessions x
      rw [he] at hw
      rw [audience, if_neg (by simp [ho, ha, hwel])]
      refine List.mem_filter.mpr ⟨hr, ?_⟩
      have hw : (s.sessions x).welcomed = true := by
        rw [← Bool.or_false (s.sessions x).welcomed]
        exact hwelx.symm.trans hw
      rw [hw, Bool.true_and, bne_iff_ne]
      exact hne
  | message w' n v =>
    rcases hc with hc | ⟨m, -, hc | ⟨-, hc⟩⟩
    · cases hc
    · cases hc
    · split at hc <;> cases hc
  | backendFrame b p => rcases hc with hc | ⟨-, hc | ⟨m, -, hc⟩⟩ | ⟨-, hc⟩ <;> cases hc
  | _ => cases hc

/-- **Who is told** something that is not an answer or `ready` is in the audience of the event,
or announced by it. -/
theorem Told.heeds {m : Sent} (ht : Told u c x m) (h : Change s e t) (hu : Deeds (s.Causes e) t u)
    (hc : s.Causes e c) (hn : Numbered s) : m.message.isReady = true ∨ Heeds s e x := by
  have hs := hu.same
  have hid {w : WsId} (ha : s.Acts e w) (y : WsId) : (u.sessions y).id = (s.sessions y).id :=
    (hs.id y).trans ((h.of_acts ha).1.sessions y).links.id
  have hroster {w : WsId} (ha : s.Acts e w) : u.roster = s.roster :=
    hs.roster.trans (h.of_acts ha).2
  cases ht with
  | ready => exact .inl rfl
  | @announced w x hx hne =>
    right
    obtain ⟨b, p, rfl, rfl, ha⟩ := announced_eq_some hc.ready
    have hacts : s.Acts (.backendFrame b p) (s.backends b).owner := rfl
    rw [hid hacts, hid hacts] at hne
    exact heeds_of_announces ha (.inl ⟨h.reached hacts hs hx, hne⟩)
  | @renamed w x hx =>
    right
    obtain ⟨b, p, rfl, rfl, ha⟩ := hc.rename
    left
    rw [audience, hearers_of_renames ha]
    exact h.reached (w := (s.backends b).owner) rfl hs hx
  | presence hx =>
    right
    have ha : s.Acts e _ := hc.acts _ rfl
    exact heeds_of_message ha hc.message (h.reached ha hs hx)
  | @offline w x hx hne => exact .inr (.inl (h.offline hs hc hx hne))
  | echo => exact .inr (heeds_of_message (hc.acts _ rfl) hc.message (List.mem_singleton_self _))
  | @opened w x peer peerId text hp hd hx =>
    right
    have ha : s.Acts e w := hc.acts w rfl
    apply heeds_of_message ha hc.message
    rw [hs.online?, h.onlineIn? ha] at hp
    rw [hid ha, hid ha] at hd
    have hd : s.store.hasDirect (directConversationId (s.sessions w).id (s.sessions peer).id) =
        false := by
      rw [← Bool.not_eq_true] at hd ⊢
      intro hh
      obtain ⟨r, hr, hr'⟩ := Store.hasDirect_iff.mp hh
      refine hd (Store.hasDirect_iff.mpr ⟨r, hu.conversations ?_, hr'⟩)
      rwa [h.store_eq]
    simp only [addresses, hp, hd, Bool.false_eq_true, if_false]
    simpa using hx
  | created ho _ _ hi hx =>
    rw [hroster (hc.acts _ rfl)] at hx
    exact .inr (h.created hs hc ho hi hx)
  | group hg hw _ _ hi hx =>
    rw [hroster (hc.acts _ rfl)] at hx
    exact .inr (h.group hu hn hc hg hw hi hx)
  | relayed =>
    obtain ⟨b, p, rfl, rfl, he⟩ := hc.event
    right
    left
    rw [audience, he]
    exact List.mem_singleton_self _
  | priv =>
    obtain ⟨b, p, rfl, rfl, he⟩ := hc.event
    right
    left
    rw [audience, he]
    exact List.mem_singleton_self _
  | privSent =>
    obtain ⟨b, p, rfl, rfl, he⟩ := hc.event
    right
    left
    rw [audience, he]
    exact List.mem_singleton_self _

/-! ### In every run -/

/-- **Announcing a session** sends it `ready` first. -/
theorem step_greets (hs : s.step e = some s') (ha : s.announced e = some w)
    (ho : (s.sessions w).ws = .opened) :
    ∃ m rest, s'.sent w = s.sent w ++ m :: rest ∧ m.message.isReady = true := by
  obtain ⟨t, u, hc, hws, hd, -, rfl⟩ := step_announced hs ha
  have hr : (t.sendReady w).sent w = s.sent w ++ [⟨t.readyMessage w, t.welcomedSessions⟩] := by
    rw [← hc.sent_eq]
    show (t.sendTo w (t.readyMessage w) t.welcomedSessions).sent w = _
    rw [sendTo, if_pos (hws.trans ho)]
    exact Function.update_self ..
  obtain ⟨extra, he, -⟩ := hd.sent w
  have hreplay : Deeds (fun _ => True) u
      ((s.sessions w).pending.foldl (fun s m => s.handleClientMessage w m) u) :=
    replay_deeds (.refl u) fun _ _ => trivial
  obtain ⟨extra', he', -⟩ := hreplay.sent w
  refine ⟨⟨t.readyMessage w, t.welcomedSessions⟩, extra ++ extra', ?_, rfl⟩
  rw [he', he, hr, List.append_assoc, List.append_assoc]
  rfl

/-- A step that meets the condition sends `ready` first. -/
theorem greeted_step (hn : Numbered s) (hg : Greeted (s.sent x)) (hc : ReadyFirst s e)
    (hs : s.step e = some s') : Greeted (s'.sent x) := by
  obtain ⟨t, hch, -, hsent⟩ := step_sent hs
  obtain ⟨extra, he, hq⟩ := hsent x
  by_cases ho : s.announced e = some x ∧ (s.sessions x).ws = .opened
  · obtain ⟨m, rest, he, hm⟩ := step_greets hs ho.1 ho.2
    rw [he]
    exact hg.append (greeted_cons hm rest)
  -- what else is sent to a session that waits is an answer or `ready`
  rw [he]
  by_cases hr : ∃ m ∈ s.sent x, m.message.isReady = true
  · exact hg.append_of_ready hr extra
  refine hg.append (greeted_of_forall ?_)
  intro m hm
  obtain ⟨u, c, hu, hcc, hsend, -⟩ := hq m hm
  cases hsend with
  | error => exact .inl rfl
  | loggedOut => exact .inl rfl
  | told hopen ht =>
    right
    apply (ht.heeds hch hu hcc hn).resolve_right
    intro hheeds
    have hanswer : c ≠ .answer := by
      rintro rfl
      cases ht with
      | ready hc => rcases hc with hc | hc <;> cases hc
    have hstays : Stays s t := by
      apply hch.stays
      · rintro rfl
        exact hanswer hcc
      · rintro i rfl
        exact hanswer hcc
    have hopen : (s.sessions x).ws = .opened := by
      obtain ⟨p, q, hx⟩ := hu.same.sessions x
      rw [hx] at hopen
      exact (hstays.sessions x).opened hopen
    rcases hheeds with haud | hann
    · exact hr (List.any_eq_true.mp (hc.1 x haud hopen))
    · exact ho ⟨hann, hopen⟩

/-- The steps that announce a session. -/
def announcements (past : List (GatewayServer × Event)) (x : WsId) : List (GatewayServer × Event) :=
  past.filter fun a => a.1.announced a.2 = some x

/-- One step announces a session that has not been announced. -/
theorem announcements_step (hf : Fresh past s) (hc : ReadyFirst s e) (hs : s.step e = some s')
    (h : (announcements past x).length ≤ 1 ∧
      ((s.sessions x).readyAnnounced = false → announcements past x = [])) :
    (announcements (past ++ [(s, e)]) x).length ≤ 1 ∧
      ((s'.sessions x).readyAnnounced = false → announcements (past ++ [(s, e)]) x = []) := by
  obtain ⟨hlen, hnil⟩ := h
  by_cases ha : s.announced e = some x
  · have hn : e = .connection → x ≠ s.nextWs := by rintro rfl; cases ha
    have hr := (step_readyAnnounced hs hn).mpr (.inr ha)
    rw [announcements, List.filter_append, ← announcements, hnil (hc.2 x ha), List.nil_append]
    refine ⟨List.length_filter_le .., ?_⟩
    intro hf
    rw [hr] at hf
    cases hf
  · have heq : announcements (past ++ [(s, e)]) x = announcements past x := by
      rw [announcements, List.filter_append, List.filter_singleton]
      simp [ha, announcements]
    rw [heq]
    refine ⟨hlen, fun hr => hnil ?_⟩
    by_cases hn : e = .connection ∧ x = s.nextWs
    · obtain ⟨-, rfl⟩ := hn
      exact hf.ready _ le_rfl
    · have hstep := (step_readyAnnounced hs (x := x) fun he hx => hn ⟨he, hx⟩).not
      rw [hr, not_or] at hstep
      simpa using (hstep.mp nofun).1

/-- **`ready` comes first, and once**: if no id is drawn twice, no event concerns a session that
waits for its `ready`, and no session is announced again, then the first event that a session
is sent, but for errors and `loggedOut`, is `ready`, and it is announced at most once. -/
theorem ready_comes_first {env : Env} {config : GatewayConfig} (hu : Function.Injective env.uuid)
    (h : PathIn step ReadyFirst (init env config) past s) (x : WsId) :
    (∀ m rest, (s.sent x).filter (fun m => !m.message.isAnswer) = m :: rest →
      m.message.isReady = true) ∧
    (announcements past x).length ≤ 1 := by
  have hI := h.invariant (I := fun past s => (Numbered s ∧ Fresh past s ∧ Greeted (s.sent x)) ∧
      (announcements past x).length ≤ 1 ∧
      ((s.sessions x).readyAnnounced = false → announcements past x = []))
    ⟨⟨numbered_init hu config, fresh_init env config, greeted_nil⟩, Nat.zero_le _, fun _ => rfl⟩
    fun past s e s' ⟨⟨hn, hf, hg⟩, ha⟩ hc hs =>
      ⟨⟨(hn.step hs).1, hf.step hs, greeted_step hn hg hc hs⟩, announcements_step hf hc hs ha⟩
  exact ⟨hI.1.2.2, hI.2.1⟩

/-- A session is ready, and another has been welcomed under another name than its username. -/
def oneWaits : List Event :=
  oneRegister ++ [.connected 0, .backendFrame 0 (bytes "WELCOME alice"), .connection,
    .message 1 70 (some (registerMessage "bob")), .authDone 0, .connected 1,
    .backendFrame 1 (bytes "WELCOME User2")]

set_option maxRecDepth 8000 in
theorem ready_first_of_two :
    ∃ past s, PathIn step ReadyFirst (init .unary {}) past s ∧ s.isGreeted 1 = true ∧
      (s.sent 1).length = 2 ∧
      (announcements past 1).length ≤ 1 := by
  have h : (execAllIn step ReadyFirst (init .unary {}) (oneWaits ++
      [.backendFrame 1 (bytes "NICK User2 bob"), .backendFrame 1 (bytes "MSG alice hi")])).map
      (fun s => (s.isGreeted 1, (s.sent 1).length)) = some (true, 2) := by decide
  obtain ⟨s, hs, he⟩ := exists_pathIn_of_execAllIn h
  simp only [Prod.mk.injEq] at he
  exact ⟨_, s, hs, he.1, he.2, (ready_comes_first Env.uuid_unary hs 1).2⟩

set_option maxRecDepth 8000 in
/-- **A message may come before `ready`**: a public message reaches a session that has been
welcomed and waits for the `NICK` that confirms its username. -/
theorem message_before_ready :
    ∃ s, Run step (init .sample {}) s ∧
      (s.sent 1).map (·.message) =
        [.message ⟨[7], publicConversationId, some [3], some (units "alice"), units "hi",
          [7]⟩] := by
  have h :
    (execAll step (init .sample {}) (oneWaits ++ [.backendFrame 1 (bytes "MSG alice hi")])).map
      (fun s => (s.sent 1).map (·.message)) =
      some [.message ⟨[7], publicConversationId, some [3], some (units "alice"), units "hi",
        [7]⟩] := by decide
  exact exists_run_of_execAll h

end GatewayServer

end ThreadLink.Gateway
