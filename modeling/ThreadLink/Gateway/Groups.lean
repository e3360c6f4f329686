import ThreadLink.Gateway.Conversations

/-!
# Groups

The chat server has no groups: who belongs to a group and who is sent its messages is up to
the gateway. Nobody is ever added to a group after it has been made, and what a group says
reaches its members only, by whichever of the four ways: the notice that there is a group, a
message, the list of conversations and the history of `ready`.

## What is proved

* `Store.Extends` — what all operations on the store keep: the conversations there are, and
  their members.
* `entered_of_path` — a session in the roster has been authenticated as the account that it
  is found under.
* `Told.discloses` — what is sent of a group is sent to sessions of its members.
* `groups_reach_members_only` — the members of a group never change, only they are sent
  something of it, and only they have sent the messages that are stored of it.
-/

namespace ThreadLink.Gateway

open Text Runs

/-! ### In the store -/

namespace Store

variable {st st' st'' : Store} {a b g id now name userId : Units} {memberIds : List Units}

/-- Conversations are added, and those there are keep their members. -/
structure Extends (st st' : Store) : Prop where
  /-- No conversation is removed. -/
  conversations : st.conversations.rows ⊆ st'.conversations.rows
  /-- No member is. -/
  members : st.members.rows ⊆ st'.members.rows
  /-- A conversation has the same members. -/
  of : ∀ id ∈ st.conversations.rows.map (·.id), st'.members.of id = st.members.of id

theorem Extends.refl (st : Store) : Extends st st :=
  ⟨List.Subset.refl _, List.Subset.refl _, fun _ _ => rfl⟩

theorem Extends.trans (h : Extends st st') (h' : Extends st' st'') : Extends st st'' where
  conversations := List.Subset.trans h.conversations h'.conversations
  members := List.Subset.trans h.members h'.members
  of id hid := (h'.of id (List.map_subset _ h.conversations hid)).trans (h.of id hid)

/-- A group stays what it is. -/
theorem Extends.getGroup (h : Extends st st') (hg : st.getGroup g = some memberIds) :
    st'.getGroup g = some memberIds := by
  obtain ⟨⟨r, hr, hid, hk⟩, hm⟩ := getGroup_eq_some.mp hg
  refine getGroup_eq_some.mpr ⟨⟨r, h.conversations hr, hid, hk⟩, ?_⟩
  rw [h.of g (List.mem_map.mpr ⟨r, hr, hid⟩), hm]

theorem Filed.extends_ensureDirect (h : st.Filed) (now a b : Units) :
    Extends st (st.ensureDirect now a b).1 := by
  cases hd : st.hasDirect (directConversationId a b) with
  | true =>
    rw [ensureDirect_of_hasDirect hd]
    exact .refl st
  | false =>
    have hn := h.not_mem_of_hasDirect hd
    rw [ensureDirect_of_not hd]
    refine ⟨fun r hr => Conversations.mem_insertOrIgnore.mpr (.inl hr), ?_, ?_⟩
    · intro m hm
      exact Members.mem_rows_add.mpr (.inl (Members.mem_rows_add.mpr (.inl hm)))
    · intro id hid
      have hne : id ≠ directConversationId a b := fun he => hn (he ▸ hid)
      exact (Members.of_add_of_ne hne b).trans (Members.of_add_of_ne hne a)

theorem extends_createGroup (hid : id ∉ st.conversations.rows.map (·.id)) (now name : Units)
    (memberIds : List Units) : Extends st (st.createGroup id now name memberIds).1 where
  conversations r hr := Conversations.mem_insertOrIgnore.mpr (.inl hr)
  members m hm := Members.mem_rows_addAll.mpr (.inl hm)
  of id' hid' := by
    refine Members.of_addAll_of_ne ?_ memberIds
    rintro rfl
    exact hid hid'

/-- Whom a conversation is listed for. -/
theorem mem_of_conversationsFor {conversation : ConversationSummary}
    (h : conversation ∈ st.conversationsFor userId) :
    (conversation.id, userId) ∈ st.members.rows := by
  obtain ⟨m, hm, h⟩ := List.mem_flatMap.mp h
  obtain ⟨hm, hu⟩ := List.mem_filter.mp hm
  obtain ⟨r, hr, rfl⟩ := List.mem_map.mp h
  have hid : r.id = m.1 := by
    have := (List.mem_filter.mp hr).2
    simp only [Bool.and_eq_true, beq_iff_eq] at this
    exact this.1
  have hu : m.2 = userId := by simpa using hu
  show (r.id, userId) ∈ _
  rw [hid, ← hu]
  exact hm

/-- For whom a message is in the history. -/
theorem mem_of_historyForUser {m : MessageSummary} (h : m ∈ st.historyForUser userId) :
    m.conversationId = publicConversationId ∨ (m.conversationId, userId) ∈ st.members.rows := by
  obtain ⟨row, -, rfl, hv⟩ := mem_historyForUser.mp h
  exact hv

end Store

/-- Whether an event tells something of a conversation: a notice that it is there, a message,
or a list of conversations or of messages with it. -/
def ServerMessage.Discloses (conversationId : Units) : ServerMessage → Prop
  | .conversationCreated conversation => conversation.id = conversationId
  | .message m => m.conversationId = conversationId
  | .ready _ _ _ conversations messages =>
    (∃ conversation ∈ conversations, conversation.id = conversationId) ∨
      ∃ m ∈ messages, m.conversationId = conversationId
  | _ => False

namespace GatewayServer

variable {P : Cause → Prop} {past : List (GatewayServer × Event)} {s s' t u : GatewayServer}
  {e : Event} {c : Cause}
  {w x : WsId} {g : Units}

/-! ### Groups are numbered -/

/-- The ids of the groups have been drawn. -/
structure Numbered (s : GatewayServer) : Prop where
  /-- No id is drawn twice. -/
  uuid : Function.Injective s.env.uuid
  /-- The conversations are filed. -/
  filed : s.store.Filed
  /-- A group has an id that has been drawn. -/
  group : ∀ r ∈ s.store.conversations.rows, r.kind = .group →
    ∃ k < s.draws, r.id = units "group:" ++ s.env.uuid k

theorem numbered_init {env : Env} (hu : Function.Injective env.uuid) (config : GatewayConfig) :
    Numbered (init env config) where
  uuid := hu
  filed := Store.filed_init _
  group r hr hk := by
    rw [List.mem_singleton.mp hr] at hk
    cases hk

/-- The next group is a new one. -/
theorem Numbered.fresh (h : Numbered s) :
    units "group:" ++ s.env.uuid s.draws ∉ s.store.conversations.rows.map (·.id) := by
  intro hm
  obtain ⟨r, hr, hid⟩ := List.mem_map.mp hm
  obtain ⟨k, hk, hk'⟩ := h.group r hr (h.filed.kind (k := .group) hr (hid ▸ List.prefix_append ..))
  rw [hid] at hk'
  exact absurd (h.uuid (List.append_cancel_left hk')) (Nat.ne_of_gt hk)

/-- More draws do not matter. -/
theorem Numbered.draws (h : Numbered s) {draws : ℕ} (hd : s.draws ≤ draws) :
    Numbered { s with draws := draws } where
  uuid := h.uuid
  filed := h.filed
  group r hr hk := by
    obtain ⟨k, hlt, hid⟩ := h.group r hr hk
    exact ⟨k, Nat.lt_of_lt_of_le hlt hd, hid⟩

/-- A deed adds conversations at most. -/
theorem Deed.numbered (h : Deed s c t) (hn : Numbered s) :
    Numbered t ∧ s.store.Extends t.store := by
  cases h with
  | draw hd => exact ⟨hn.draws hd, .refl _⟩
  | append hd =>
    have hd := hn.draws hd
    exact ⟨⟨hd.uuid, ⟨hd.filed.label, hd.filed.members⟩, hd.group⟩, List.Subset.refl _,
      List.Subset.refl _, fun _ _ => rfl⟩
  | @ensureDirect c w other =>
    have hd := hn.draws (Nat.le_succ s.draws)
    refine ⟨⟨hn.uuid, hn.filed.ensureDirect .., ?_⟩, hn.filed.extends_ensureDirect ..⟩
    intro r hr hk
    refine hd.group r ?_ hk
    replace hr :
      r ∈ (s.store.ensureDirect (s.env.now s.draws) (s.sessions w).id other).1.conversations.rows :=
      hr
    cases hh : s.store.hasDirect (directConversationId (s.sessions w).id other) with
    | true => rwa [Store.ensureDirect_of_hasDirect hh] at hr
    | false =>
      rw [Store.ensureDirect_of_not hh] at hr
      rcases Conversations.mem_insertOrIgnore.mp hr with hr | ⟨-, rfl⟩
      · exact hr
      · cases hk
  | createGroup =>
    refine ⟨⟨hn.uuid, hn.filed.createGroup .., ?_⟩, Store.extends_createGroup hn.fresh ..⟩
    intro r hr hk
    rcases Conversations.mem_insertOrIgnore.mp hr with hr | ⟨-, rfl⟩
    · obtain ⟨k, hlt, hid⟩ := hn.group r hr hk
      exact ⟨k, Nat.lt_succ_of_lt hlt, hid⟩
    · exact ⟨s.draws, Nat.lt_succ_self _, rfl⟩
  | nick =>
    rw [sendLine_eq]
    exact ⟨⟨hn.uuid, hn.filed, hn.group⟩, .refl _⟩
  | chat =>
    rw [forward, sendLine_eq]
    exact ⟨⟨hn.uuid, hn.filed, hn.group⟩, .refl _⟩
  | direct =>
    rw [forward, sendLine_eq]
    exact ⟨⟨hn.uuid, hn.filed, hn.group⟩, .refl _⟩
  | _ => exact ⟨⟨hn.uuid, hn.filed, hn.group⟩, .refl _⟩

theorem Deeds.numbered (h : Deeds P s t) (hn : Numbered s) :
    Numbered t ∧ s.store.Extends t.store := by
  induction h with
  | refl => exact ⟨hn, .refl _⟩
  | tail _ hd ih =>
    obtain ⟨c, -, hd⟩ := hd
    obtain ⟨hn', he⟩ := hd.numbered ih.1
    exact ⟨hn', ih.2.trans he⟩

/-- No change draws back. -/
theorem Change.draws (h : Change s e t) : t.env = s.env ∧ s.draws ≤ t.draws := by
  cases h with
  | connection => exact ⟨rfl, Nat.le_succ _⟩
  | wsClose =>
    rw [leave_eq]
    exact ⟨rfl, le_rfl⟩
  | backendClose _ f => cases f <;> exact ⟨rfl, le_rfl⟩
  | shutdown =>
    rw [close_eq]
    exact ⟨rfl, le_rfl⟩
  | _ => exact ⟨rfl, le_rfl⟩

theorem Change.numbered (h : Change s e t) (hn : Numbered s) :
    Numbered t ∧ s.store.Extends t.store := by
  obtain ⟨he, hd⟩ := h.draws
  have hs := h.store_eq
  have hc : t.store.conversations = s.store.conversations := by rw [hs]
  have hm : t.store.members = s.store.members := by rw [hs]
  refine ⟨⟨he ▸ hn.uuid, ⟨hc ▸ hn.filed.label, hc ▸ hm ▸ hn.filed.members⟩, ?_⟩, ?_⟩
  · intro r hr hk
    obtain ⟨k, hlt, hid⟩ := hn.group r (hc ▸ hr) hk
    exact ⟨k, Nat.lt_of_lt_of_le hlt hd, he ▸ hid⟩
  · exact ⟨hc ▸ List.Subset.refl _, hm ▸ List.Subset.refl _, fun id _ => by rw [hm]⟩

/-- A step adds conversations at most. -/
theorem Numbered.step (h : Numbered s) (hs : s.step e = some s') :
    Numbered s' ∧ s.store.Extends s'.store := by
  obtain ⟨t, hc, hd⟩ := step_deeds hs
  obtain ⟨ht, he⟩ := hc.numbered h
  obtain ⟨hs', he'⟩ := hd.numbered ht
  exact ⟨hs', he.trans he'⟩

/-! ### Who has been authenticated as whom -/

/-- A session has been authenticated as an account. -/
def AuthenticatedAs (past : List (GatewayServer × Event)) (w : WsId) (id : Units) : Prop :=
  ∃ a ∈ past, a.1.joinsAs a.2 = some (w, id)

theorem AuthenticatedAs.append {a : GatewayServer × Event} {id : Units}
    (h : AuthenticatedAs past w id) : AuthenticatedAs (past ++ [a]) w id := by
  obtain ⟨a', ha, hj⟩ := h
  exact ⟨a', List.mem_append_left _ ha, hj⟩

/-- Sessions are what they have been authenticated as. -/
structure Entered (past : List (GatewayServer × Event)) (s : GatewayServer) : Prop where
  /-- Only authenticated sessions join. -/
  joined : Joined s
  /-- In the roster. -/
  roster : ∀ id w, s.roster.find? id = some w → AuthenticatedAs past w id
  /-- And by their id. -/
  session : ∀ w, (s.sessions w).authenticated = true → AuthenticatedAs past w (s.sessions w).id

theorem entered_init (env : Env) (config : GatewayConfig) : Entered [] (init env config) where
  joined := joined_init env config
  roster _ _ h := by simp [init] at h
  session _ h := by simp [init] at h

theorem Entered.change (h : Entered past s) (hc : Change s e t) : Entered (past ++ [(s, e)]) t := by
  have hstays (hs : Stays s t)
      (hr : ∀ id w, t.roster.find? id = some w → s.roster.find? id = some w) :
      Entered (past ++ [(s, e)]) t := by
    refine ⟨h.joined.moves hc.moves, fun id w hw => (h.roster id w (hr id w hw)).append, ?_⟩
    intro w ha
    rw [(hs.sessions w).links.authenticated] at ha
    rw [(hs.sessions w).links.id]
    exact (h.session w ha).append
  cases hm : hc.moves with
  | arrives =>
    refine ⟨h.joined.onConnection, fun id w hw => (h.roster id w hw).append, ?_⟩
    intro w ha
    by_cases hw : w = s.nextWs
    · subst hw
      rw [sessions_onConnection_self] at ha
      cases ha
    · rw [sessions_onConnection_of_ne s hw] at ha ⊢
      exact (h.session w ha).append
  | @joins i w' a account users hi ho hce =>
    have hnew : AuthenticatedAs (past ++ [(s, .authDone i)]) w' account.id :=
      ⟨_, List.mem_append_right _ (List.mem_singleton_self _), mem_joinsAs hi ho hce⟩
    refine ⟨h.joined.moves hc.moves, ?_, ?_⟩
    · intro id w hw
      replace hw : (s.roster.insert account.id w').find? id = some w := hw
      rw [OrdMap.find?_insert] at hw
      split at hw
      · rename_i hid
        obtain rfl := Option.some.inj hw
        exact hid ▸ hnew
      · exact (h.roster id w hw).append
    · intro w ha
      by_cases hw : w = w'
      · subst hw
        rw [sessions_join_self]
        exact hnew
      · rw [sessions_join_of_ne _ hw] at ha ⊢
        exact (h.session w ha).append
  | leaves hs _ _ _ _ hr => exact hstays hs fun id w hw => (find?_of_erase (hr ▸ hw)).1
  | fails hs _ hr => exact hstays hs fun id w hw => (find?_of_erase (hr ▸ hw)).1
  | stays hs hr => exact hstays hs fun id w hw => hr ▸ hw

theorem Entered.deeds (h : Entered past s) (hd : Deeds P s t) : Entered past t := by
  refine ⟨h.joined.deeds hd, fun id w hw => h.roster id w (hd.same.roster ▸ hw), ?_⟩
  intro w ha
  rw [hd.authenticated] at ha
  rw [hd.same.id]
  exact h.session w ha

theorem Entered.step (h : Entered past s) (hs : s.step e = some s') :
    Entered (past ++ [(s, e)]) s' := by
  obtain ⟨t, hc, hd⟩ := step_deeds hs
  exact (h.change hc).deeds hd

/-! ### What is sent of a group -/

theorem not_group_public : ¬ConversationKind.group.label <+: publicConversationId := by decide

theorem not_group_direct (a b : Units) :
    ¬ConversationKind.group.label <+: directConversationId a b := fun h => by
  cases ConversationKind.eq_of_label h (label_directConversationId a b)

/-- **What is sent of a group** is sent to a session that is found under a member's id, or
that is acted for and has one. -/
theorem Told.discloses {m : Sent} (h : Told u c x m) (hg : ConversationKind.group.label <+: g)
    (hm : m.message.Discloses g) : ∃ id, (g, id) ∈ u.store.members.rows ∧
      (u.roster.find? id = some x ∨ c.Acts x ∧ (∀ m, c ≠ .wait x m) ∧ id = (u.sessions x).id) := by
  cases h with
  | ready hc =>
    have hx : c.Acts x ∧ ∀ m, c ≠ .wait x m := by rcases hc with rfl | rfl <;> exact ⟨rfl, nofun⟩
    refine ⟨(u.sessions x).id, ?_, .inr ⟨hx.1, hx.2, rfl⟩⟩
    rcases hm with ⟨conversation, hm, rfl⟩ | ⟨message, hm, rfl⟩
    · rcases List.mem_cons.mp hm with rfl | hm
      · exact absurd hg not_group_public
      · exact Store.mem_of_conversationsFor hm
    · exact (Store.mem_of_historyForUser hm).resolve_left fun he => not_group_public (he ▸ hg)
  | announced => exact hm.elim
  | renamed => exact hm.elim
  | presence => exact hm.elim
  | offline => exact hm.elim
  | echo _ hc =>
    obtain rfl : _ = g := hm
    exact absurd (hc ▸ hg) not_group_public
  | opened =>
    obtain rfl : _ = g := hm
    exact absurd hg (not_group_direct _ _)
  | created _ _ hmem hi hx =>
    obtain rfl : _ = g := hm
    exact ⟨_, hmem _ hi, .inl hx⟩
  | group hget _ hc _ hi hx =>
    obtain rfl : _ = g := hm
    obtain ⟨-, rfl⟩ := Store.getGroup_eq_some.mp hget
    exact ⟨_, hc ▸ Members.mem_of.mp hi, .inl hx⟩
  | relayed hc =>
    obtain rfl : _ = g := hm
    exact absurd (hc ▸ hg) not_group_public
  | priv hc =>
    obtain rfl : _ = g := hm
    exact absurd (hc ▸ hg) (not_group_direct _ _)
  | privSent hc =>
    obtain rfl : _ = g := hm
    exact absurd (hc ▸ hg) (not_group_direct _ _)

/-! ### In every run -/

/-- What is kept of a group has been sent by a member. -/
def Signed (s : GatewayServer) : Prop :=
  ∀ m ∈ s.store.messages, ConversationKind.group.label <+: m.conversationId →
    ∃ id, (m.conversationId, id) ∈ s.store.members.rows ∧ m.senderId = some id

/-- A message is kept of a group only if its sender is a member. -/
theorem SentTo.member {target : MessageTarget} {id : Units} (h : s.SentTo w target id)
    (hg : ConversationKind.group.label <+: id) :
    (id, (s.sessions w).id) ∈ s.store.members.rows := by
  cases target with
  | everyone =>
    obtain rfl : id = publicConversationId := h
    exact absurd hg not_group_public
  | direct peerId =>
    obtain ⟨peer, -, rfl⟩ := h
    exact absurd hg (not_group_direct _ _)
  | group groupId =>
    obtain ⟨rfl, memberIds, hget, hw⟩ := h
    obtain ⟨-, rfl⟩ := Store.getGroup_eq_some.mp hget
    exact Members.mem_of.mp hw

theorem Deed.signed (h : Deed s c t) (hn : Numbered s) (hs : Signed s) : Signed t := by
  have hmem := (h.numbered hn).2.members
  have hold {m : MessageSummary} (hm : m ∈ s.store.messages)
      (hg : ConversationKind.group.label <+: m.conversationId) :
      ∃ id, (m.conversationId, id) ∈ t.store.members.rows ∧ m.senderId = some id := by
    obtain ⟨id, hid, hsender⟩ := hs m hm hg
    exact ⟨id, hmem hid, hsender⟩
  intro m hm hg
  rcases h.messages with he | ⟨w, target, m', he, hto, hsender⟩
  · exact hold (he ▸ hm) hg
  · rw [he] at hm
    rcases List.mem_append.mp hm with hm | hm
    · exact hold hm hg
    · obtain rfl := List.mem_singleton.mp hm
      exact ⟨_, hmem (hto.member hg), hsender⟩

theorem Deeds.signed (h : Deeds P s t) (hn : Numbered s) (hs : Signed s) : Signed t := by
  induction h with
  | refl => exact hs
  | tail hu hd ih =>
    obtain ⟨c, -, hd⟩ := hd
    exact hd.signed (Deeds.numbered hu hn).1 ih

/-- What holds of the groups. -/
structure Confined (past : List (GatewayServer × Event)) (s : GatewayServer) : Prop where
  /-- They are numbered. -/
  numbered : Numbered s
  /-- Sessions are what they have been authenticated as. -/
  entered : Entered past s
  /-- What has been sent of one has been sent to its members. -/
  sent : ∀ x, ∀ m ∈ s.sent x, ∀ g, ConversationKind.group.label <+: g → m.message.Discloses g →
    ∃ id, (g, id) ∈ s.store.members.rows ∧ AuthenticatedAs past x id
  /-- What is kept has been sent by them. -/
  signed : Signed s

theorem confined_init {env : Env} (hu : Function.Injective env.uuid) (config : GatewayConfig) :
    Confined [] (init env config) where
  numbered := numbered_init hu config
  entered := entered_init env config
  sent _ _ h := absurd h List.not_mem_nil
  signed _ h := absurd h List.not_mem_nil

theorem Confined.step (h : Confined past s) (hs : s.step e = some s') :
    Confined (past ++ [(s, e)]) s' := by
  have hj := h.entered.joined
  obtain ⟨hn', hext⟩ := h.numbered.step hs
  obtain ⟨t, hc, hd, hsent⟩ := step_sent hs
  have hnt := (hc.numbered h.numbered).1
  refine ⟨hn', h.entered.step hs, ?_, ?_⟩
  · intro x m hm g hg hdis
    obtain ⟨extra, he, hq⟩ := hsent x
    rw [he] at hm
    rcases List.mem_append.mp hm with hm | hm
    · obtain ⟨id, hid, ha⟩ := h.sent x m hm g hg hdis
      exact ⟨id, hext.members hid, ha.append⟩
    · obtain ⟨u, c, hu, hcc, hsend, hd'⟩ := hq m hm
      cases hsend with
      | error => exact hdis.elim
      | loggedOut => exact hdis.elim
      | told _ htold =>
        have heu := (h.entered.change hc).deeds hu
        obtain ⟨id, hid, hx⟩ := htold.discloses hg hdis
        refine ⟨id, (hd'.numbered (hu.numbered hnt).1).2.members hid, ?_⟩
        rcases hx with hx | ⟨hx, hw, rfl⟩
        · exact heu.roster id x hx
        · apply heu.session x
          rw [hu.authenticated]
          exact hj.authenticated_moves hc.moves (hcc.authenticated hj hs hx hw)
  · apply hd.signed hnt
    intro m hm hg
    have he := hc.store_eq
    have hm : m ∈ s.store.messages := by rwa [he] at hm
    obtain ⟨id, hid, hsender⟩ := h.signed m hm hg
    exact ⟨id, (hc.numbered h.numbered).2.members hid, hsender⟩

theorem confined_of_path {C : GatewayServer → Event → Prop} {env : Env} {config : GatewayConfig}
    (hu : Function.Injective env.uuid) (h : PathIn step C (init env config) past s) :
    Confined past s :=
  h.invariant (confined_init hu config) fun _ _ _ _ hg _ hs => hg.step hs

/-- **Groups reach their members only**: if no id is drawn twice, the members of a group never
change; a notice of the group, a message of it, or a `ready` that lists it or its messages is
sent only to a session that has been authenticated as a member; and a message that is stored
of it has a member for its sender. -/
theorem groups_reach_members_only {env : Env} {config : GatewayConfig}
    (hu : Function.Injective env.uuid) (h : Path step (init env config) past s)
    {memberIds : List Units} (hg : s.store.getGroup g = some memberIds) :
    (∀ s', Run step s s' → s'.store.getGroup g = some memberIds) ∧
    (∀ x, ∀ m ∈ s.sent x, m.message.Discloses g → ∃ id ∈ memberIds, AuthenticatedAs past x id) ∧
    ∀ m ∈ s.store.messages, m.conversationId = g → ∃ id ∈ memberIds, m.senderId = some id := by
  have hc := confined_of_path hu h
  obtain ⟨⟨r, hr, rfl, hk⟩, hof⟩ := Store.getGroup_eq_some.mp hg
  have hl : ConversationKind.group.label <+: r.id := hk ▸ hc.numbered.filed.label r hr
  have hmem {id : Units} (hid : (r.id, id) ∈ s.store.members.rows) : id ∈ memberIds :=
    hof ▸ Members.mem_of.mpr hid
  refine ⟨?_, ?_, ?_⟩
  · intro s' hrun
    have hext :=
      (hrun.invariant (I := fun t => Numbered t ∧ s.store.Extends t.store) ⟨hc.numbered, .refl _⟩
      fun t e t' ⟨hn, hext⟩ _ hs => ⟨(hn.step hs).1, hext.trans (hn.step hs).2⟩).2
    exact hext.getGroup hg
  · intro x m hm hd
    obtain ⟨id, hid, ha⟩ := hc.sent x m hm r.id hl hd
    exact ⟨id, hmem hid, ha⟩
  · intro m hm he
    obtain ⟨id, hid, hsender⟩ := hc.signed m hm (he ▸ hl)
    exact ⟨id, hmem (he ▸ hid), hsender⟩

/-- A `createGroup` message. -/
def groupMessage (memberIds : List Units) : Json :=
  .obj [(units "type", .str (units "createGroup")), (units "name", .str (units "friends")),
    (units "memberIds", .arr (memberIds.map .str))]

/-- A message to a group. -/
def sendGroupMessage (groupId : Units) (text : String) : Json :=
  .obj [(units "type", .str (units "sendMessage")), (units "text", .str (units text)),
    (units "target", .obj [(units "kind", .str (units "group")), (units "groupId", .str groupId)])]

/-- A group of two, and a message to it. -/
def groupOfTwo : List Event :=
  twoReady ++ [.message 0 70 (some (groupMessage [List.replicate 6 1])),
    .message 1 70 (some (sendGroupMessage (units "group:" ++ List.replicate 7 1) "hi"))]

set_option maxRecDepth 8000 in
theorem group_of_two :
    ∃ past s, Path step (init .unary {}) past s ∧
      s.store.getGroup (units "group:" ++ List.replicate 7 1) = some
        [List.replicate 3 1, List.replicate 6 1] ∧
      (∃ m ∈ s.sent 1, m.message.Discloses (units "group:" ++ List.replicate 7 1)) ∧
      ∃ id ∈ [List.replicate 3 1, List.replicate 6 1], AuthenticatedAs past 1 id := by
  have h : (execAllIn step (fun _ _ => True) (init .unary {}) groupOfTwo).map (fun s =>
      (s.store.getGroup (units "group:" ++ List.replicate 7 1), (s.sent 1)[2]?)) =
      some (some [List.replicate 3 1, List.replicate 6 1],
        some ⟨.message ⟨List.replicate 8 1, units "group:" ++ List.replicate 7 1,
          some (List.replicate 6 1),
          some (units "bob"), units "hi", [8]⟩, []⟩) := by decide
  obtain ⟨s, hs, he⟩ := exists_pathIn_of_execAllIn h
  simp only [Prod.mk.injEq] at he
  obtain ⟨hg, hm⟩ := he
  have hm := List.mem_of_getElem? hm
  exact ⟨_, s, hs, hg, ⟨_, hm, rfl⟩,
    (groups_reach_members_only Env.uuid_unary hs hg).2.1 1 _ hm rfl⟩

end GatewayServer

end ThreadLink.Gateway
