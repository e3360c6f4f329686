import ThreadLink.Gateway.Lifetimes
import ThreadLink.Gateway.Membership

/-!
# Direct conversations are private

The id of a direct conversation names its two users, and whatever the gateway does with it, it
does for a session of one of them: `handleSendMessage` makes the id of the sender and of its peer,
the cases `priv` and `privSent` that of the session they are for. The other user is not
always an account: a line may come from a nickname that no session uses any more.

## The model

* `Between` — whose conversation it is.
* `start` — the gateway as it is when it has just been started, on any disk.

## What is proved

* `between_iff` — two users whose ids have no colon are found again in the id.
* `Told.discloses_direct` — what is sent of a direct conversation is sent to one of the two.
* `private_of_lives` — members and senders of direct conversations are such users, wherever the
  process has been stopped.
* `direct_stays_private` — **what two users write to each other is told to no session that has
  not been authenticated as one of them**, in every life of the gateway.
-/

namespace ThreadLink.Gateway

open Text Runs

/-- It is a direct conversation of this user. -/
def Between (g id : Units) : Prop := ∃ other, g = directConversationId id other

theorem between_left (a b : Units) : Between (directConversationId a b) a := ⟨b, rfl⟩

theorem between_right (a b : Units) : Between (directConversationId a b) b :=
  ⟨a, directConversationId_comm a b⟩

theorem count_directConversationId (a b : Units) :
    (directConversationId a b).count colon = 2 + (a.count colon + b.count colon) := by
  have hdirect : (units "direct:").count colon = 1 := by decide
  have hcolon : (units ":").count colon = 1 := by decide
  unfold directConversationId
  split
  rename_i x y he
  rw [List.count_append, List.count_append, List.count_append, hdirect, hcolon]
  split at he <;> cases he <;> omega

/-- **The users are found again** in the id, if theirs have no colon. -/
theorem between_iff {a b id : Units} (ha : colon ∉ a) (hb : colon ∉ b) :
    Between (directConversationId a b) id ↔ id = a ∨ id = b := by
  constructor
  · rintro ⟨other, he⟩
    -- there are no more colons on one side than on the other
    have hc := congrArg (List.count colon) he
    rw [count_directConversationId, count_directConversationId, List.count_eq_zero.mpr ha,
      List.count_eq_zero.mpr hb] at hc
    have hid : colon ∉ id := List.count_eq_zero.mp (by omega)
    have ho : colon ∉ other := List.count_eq_zero.mp (by omega)
    rcases directConversationId_inj ⟨hid, ho⟩ ⟨ha, hb⟩ he.symm with ⟨h, -⟩ | ⟨h, -⟩
    · exact .inl h
    · exact .inr h
  · rintro (rfl | rfl)
    · exact between_left ..
    · exact between_right ..

/-- Direct conversations have only such users for members and for senders. -/
structure Store.Private (st : Store) : Prop where
  /-- The members. -/
  members : ∀ g id, (g, id) ∈ st.members.rows → ConversationKind.direct.label <+: g → Between g id
  /-- The senders. -/
  signed : ∀ m ∈ st.messages, ConversationKind.direct.label <+: m.conversationId →
    ∃ id, Between m.conversationId id ∧ m.senderId = some id

namespace Store.Private

variable {st st' : Store} {g a b id now : Units}

theorem init (now : Units) : (Store.init now).Private :=
  ⟨fun _ _ hm => absurd hm List.not_mem_nil, fun _ hm => absurd hm List.not_mem_nil⟩

/-- A part of the database is private. -/
theorem within (h : st'.Private) (hw : st.Within st') : st.Private :=
  ⟨fun g id hm => h.members g id (hw.members hm), fun m hm => h.signed m (hw.messages hm)⟩

theorem ensureDirect (h : st.Private) (now a b : Units) : (st.ensureDirect now a b).1.Private := by
  cases hd : st.hasDirect (directConversationId a b) with
  | true => rwa [ensureDirect_of_hasDirect hd]
  | false =>
    rw [ensureDirect_of_not hd]
    refine ⟨fun g id hm hg => ?_, h.signed⟩
    rcases Members.mem_rows_add.mp hm with hm | he
    · rcases Members.mem_rows_add.mp hm with hm | he
      · exact h.members g id hm hg
      · cases he
        exact between_left ..
    · cases he
      exact between_right ..

theorem createGroup (h : st.Private) (id now name : Units) (memberIds : List Units) :
    (st.createGroup (units "group:" ++ id) now name memberIds).1.Private := by
  refine ⟨fun g id' hm hg => ?_, h.signed⟩
  rcases Members.mem_rows_addAll.mp hm with hm | ⟨userId, -, he⟩
  · exact h.members g id' hm hg
  · cases he
    exact absurd (ConversationKind.eq_of_label (k := .group) (List.prefix_append ..) hg) (by decide)

theorem append (h : st.Private) {m : MessageSummary}
    (hm : ConversationKind.direct.label <+: m.conversationId →
      ∃ id, Between m.conversationId id ∧ m.senderId = some id) : (st.append m).Private := by
  refine ⟨h.members, fun m' hm' => ?_⟩
  rcases List.mem_append.mp hm' with hm' | hm'
  · exact h.signed m' hm'
  · rw [List.mem_singleton.mp hm']
    exact hm

end Store.Private

namespace GatewayServer

variable {P : Cause → Prop} {past : List (GatewayServer × Event)} {env : Env}
  {s s' t u : GatewayServer} {e : Event} {c : Cause} {w x : WsId} {a b g : Units} {d : Disk}

/-! ### What a handler does -/

theorem not_direct_public : ¬ConversationKind.direct.label <+: publicConversationId := by decide

/-- Who sends to a direct conversation is one of its users, or a member of it. -/
theorem SentTo.between {target : MessageTarget} {id : Units} (h : s.SentTo w target id)
    (hs : s.store.Private) (hg : ConversationKind.direct.label <+: id) :
    Between id (s.sessions w).id := by
  cases target with
  | everyone =>
    obtain rfl : id = publicConversationId := h
    exact absurd hg not_direct_public
  | direct peerId =>
    obtain ⟨peer, -, rfl⟩ := h
    exact between_left ..
  | group groupId =>
    obtain ⟨rfl, memberIds, hget, hw⟩ := h
    obtain ⟨-, rfl⟩ := Store.getGroup_eq_some.mp hget
    exact hs.members _ _ (Members.mem_of.mp hw) hg

theorem Deed.private (h : Deed s c t) (hs : s.store.Private) : t.store.Private := by
  cases h with
  | append _ hc hsender _ => exact hs.append fun hg => ⟨_, hc.between hs hg, hsender⟩
  | ensureDirect => exact hs.ensureDirect ..
  | createGroup => exact hs.createGroup ..
  | nick => rwa [sendLine_eq]
  | chat => rwa [forward, sendLine_eq]
  | direct => rwa [forward, sendLine_eq]
  | _ => exact hs

theorem Deeds.private (h : Deeds P s t) (hs : s.store.Private) : t.store.Private := by
  induction h with
  | refl => exact hs
  | tail _ hd ih =>
    obtain ⟨c, -, hd⟩ := hd
    exact hd.private ih

theorem Change.private (h : Change s e t) (hs : s.store.Private) : t.store.Private := by
  have he := h.store_eq
  exact ⟨by rw [he]; exact hs.members, by rw [he]; exact hs.signed⟩

/-- **What is sent of a direct conversation** is sent to a session that is found under the id
of one of its users, or that is in the roster or acted for and has one. -/
theorem Told.discloses_direct {m : Sent} (h : Told u c x m) (hs : u.store.Private)
    (hg : ConversationKind.direct.label <+: g) (hm : m.message.Discloses g) :
    ∃ id, Between g id ∧ (u.roster.find? id = some x ∨
      (x ∈ u.roster.values ∨ c.Acts x ∧ ∀ m, c ≠ .wait x m) ∧ id = (u.sessions x).id) := by
  cases h with
  | ready hc =>
    have hx : c.Acts x ∧ ∀ m, c ≠ .wait x m := by rcases hc with rfl | rfl <;> exact ⟨rfl, nofun⟩
    refine ⟨(u.sessions x).id, hs.members _ _ ?_ hg, .inr ⟨.inr hx, rfl⟩⟩
    rcases hm with ⟨conversation, hm, rfl⟩ | ⟨message, hm, rfl⟩
    · rcases List.mem_cons.mp hm with rfl | hm
      · exact absurd hg not_direct_public
      · exact Store.mem_of_conversationsFor hm
    · exact (Store.mem_of_historyForUser hm).resolve_left fun he => not_direct_public (he ▸ hg)
  | announced => exact hm.elim
  | renamed => exact hm.elim
  | presence => exact hm.elim
  | offline => exact hm.elim
  | echo _ hc =>
    obtain rfl : _ = g := hm
    exact absurd (hc ▸ hg) not_direct_public
  | @opened w _ peer peerId text hp _ hx =>
    obtain rfl : _ = g := hm
    rcases hx with rfl | rfl
    · exact ⟨_, between_left .., .inr ⟨.inr ⟨rfl, nofun⟩, rfl⟩⟩
    · have hr := (Option.filter_eq_some_iff.mp hp).1
      exact ⟨_, between_right .., .inr ⟨.inl (OrdMap.mem_values.mpr ⟨peerId, hr⟩), rfl⟩⟩
  | created _ _ hmem hi hx =>
    obtain rfl : _ = g := hm
    exact ⟨_, hs.members _ _ (hmem _ hi) hg, .inl hx⟩
  | group hget _ hc _ hi hx =>
    obtain rfl : _ = g := hm
    obtain ⟨-, rfl⟩ := Store.getGroup_eq_some.mp hget
    exact ⟨_, hs.members _ _ (hc ▸ Members.mem_of.mp hi) hg, .inl hx⟩
  | relayed hc =>
    obtain rfl : _ = g := hm
    exact absurd (hc ▸ hg) not_direct_public
  | priv hc =>
    obtain rfl : _ = g := hm
    exact ⟨_, hc ▸ between_left .., .inr ⟨.inr ⟨rfl, nofun⟩, rfl⟩⟩
  | privSent hc =>
    obtain rfl : _ = g := hm
    exact ⟨_, hc ▸ between_left .., .inr ⟨.inr ⟨rfl, nofun⟩, rfl⟩⟩

/-! ### In every life -/

theorem private_step (hs : s.step e = some s') (h : s.store.Private) : s'.store.Private := by
  obtain ⟨t, hc, hd⟩ := step_deeds hs
  exact hd.private (hc.private h)

/-- **Direct conversations have two users**, wherever the process has been stopped. -/
theorem private_of_lives (h : (process env).Lives s t) (hs : s.store.Private) :
    t.store.Private := by
  induction h with
  | refl => exact hs
  | step _ ha ih => exact private_step ha ih
  | stop _ hv ih =>
    obtain ⟨config, rfl⟩ := hv
    exact ⟨ih.members, ih.signed⟩
  | tear _ ha hl hb hl' ht hv ih =>
    -- what is left is a part of what the whole step would have written
    have hpart := (ht.within hb).trans (within_of_trace hl')
    have hd := (private_step ha ih).within hpart
    obtain ⟨config, rfl⟩ := hv
    exact ⟨hd.members, hd.signed⟩

/-- The gateway has just been started, on a new database (`init`) or on one that is there
(`boot`). -/
def start (env : Env) (config : GatewayConfig) (d : Disk) : GatewayServer :=
  { init env config with store := d.store, draws := d.draws }

/-- What holds of direct conversations in a life. -/
structure Discreet (past : List (GatewayServer × Event)) (s : GatewayServer) : Prop where
  /-- Sessions are what they have been authenticated as. -/
  entered : Entered past s
  /-- The database. -/
  store : s.store.Private
  /-- What has been sent of one has been sent to one of its users. -/
  sent : ∀ x, ∀ m ∈ s.sent x, ∀ g, ConversationKind.direct.label <+: g → m.message.Discloses g →
    ∃ id, Between g id ∧ AuthenticatedAs past x id

theorem discreet_start (config : GatewayConfig) (h : d.store.Private) :
    Discreet [] (start env config d) where
  entered := by
    have hj := joined_init env config
    exact ⟨⟨hj.unborn, hj.hashing, hj.roster, hj.backend, hj.owner, hj.uncreated⟩,
      (entered_init env config).roster, (entered_init env config).session⟩
  store := h
  sent _ _ hm := absurd hm List.not_mem_nil

theorem Discreet.step (h : Discreet past s) (hs : s.step e = some s') :
    Discreet (past ++ [(s, e)]) s' := by
  have hj := h.entered.joined
  obtain ⟨t, hc, hd, hsent⟩ := step_sent hs
  refine ⟨h.entered.step hs, private_step hs h.store, ?_⟩
  intro x m hm g hg hdis
  obtain ⟨extra, he, hq⟩ := hsent x
  rw [he] at hm
  rcases List.mem_append.mp hm with hm | hm
  · obtain ⟨id, hid, ha⟩ := h.sent x m hm g hg hdis
    exact ⟨id, hid, ha.append⟩
  · obtain ⟨u, c, hu, hcc, hsend, -⟩ := hq m hm
    cases hsend with
    | error => exact hdis.elim
    | loggedOut => exact hdis.elim
    | told _ htold =>
      have heu := (h.entered.change hc).deeds hu
      obtain ⟨id, hid, hx⟩ := htold.discloses_direct (hu.private (hc.private h.store)) hg hdis
      refine ⟨id, hid, ?_⟩
      rcases hx with hx | ⟨hx | ⟨hx, hw⟩, rfl⟩
      · exact heu.roster id x hx
      · obtain ⟨id', hr⟩ := OrdMap.mem_values.mp hx
        exact heu.session x (heu.joined.roster id' x hr)
      · apply heu.session x
        rw [hu.authenticated]
        exact hj.authenticated_moves hc.moves (hcc.authenticated hj hs hx hw)

/-- **Direct conversations stay private.** In every life of the gateway: what it sends of the
direct conversation of two users, whose ids have no colon, it sends to sessions only that have
been authenticated in this life as one of the two; and all messages that are stored of it, and
its members, are theirs. -/
theorem direct_stays_private {config config' : GatewayConfig}
    (h : (process env).Lives (init env config) (start env config' d))
    (hp : Path step (start env config' d) past s) (ha : colon ∉ a) (hb : colon ∉ b) :
    (∀ x, ∀ m ∈ s.sent x, m.message.Discloses (directConversationId a b) →
      AuthenticatedAs past x a ∨ AuthenticatedAs past x b) ∧
    (∀ m ∈ s.store.messages, m.conversationId = directConversationId a b →
      m.senderId = some a ∨ m.senderId = some b) ∧
    ∀ id ∈ s.store.members.of (directConversationId a b), id = a ∨ id = b := by
  have hd : d.store.Private := private_of_lives h (Store.Private.init _)
  have hs : Discreet past s := hp.invariant (discreet_start config' hd)
    fun _ _ _ _ hs _ hstep => hs.step hstep
  have hl := label_directConversationId a b
  refine ⟨?_, ?_, ?_⟩
  · intro x m hm hdis
    obtain ⟨id, hid, hauth⟩ := hs.sent x m hm _ hl hdis
    rcases (between_iff ha hb).mp hid with rfl | rfl
    · exact .inl hauth
    · exact .inr hauth
  · intro m hm he
    obtain ⟨id, hid, hsender⟩ := hs.store.signed m hm (he ▸ hl)
    rw [he] at hid
    rcases (between_iff ha hb).mp hid with rfl | rfl
    · exact .inl hsender
    · exact .inr hsender
  · intro id hid
    exact (between_iff ha hb).mp (hs.store.members _ _ (Members.mem_of.mp hid) hl)

/-- The conversation of the first two users. -/
def directOfTwo : Units := directConversationId (List.replicate 3 1) (List.replicate 6 1)

/-- A `ready` that lists a conversation. -/
def listsConversation (id : Units) : ServerMessage → Bool
  | .ready _ _ _ conversations _ => conversations.any fun c => c.id == id
  | _ => false

theorem discloses_of_lists {id : Units} {m : ServerMessage} (h : listsConversation id m = true) :
    m.Discloses id := by
  cases m with
  | ready =>
    obtain ⟨c, hc, he⟩ := List.any_eq_true.mp h
    exact .inl ⟨c, hc, eq_of_beq he⟩
  | _ => cases h

/-- The database that a process leaves behind when it is stopped. -/
def leftBy (s : GatewayServer) : Disk := ⟨s.store.reopen (Env.unary.now s.draws), s.draws + 1⟩

/-- The first user logs in. -/
def aliceAgain : List Event :=
  [.connection, .message 0 70 (some (loginMessage "alice")), .authDone 0, .connected 0,
    .backendFrame 0 (bytes "WELCOME alice")]

set_option maxRecDepth 16000 in
/-- One user writes to another, and the process is stopped. In its next life the first user logs in
and is sent the conversation. -/
theorem direct_after_stop :
    ∃ d past s, (process .unary).Lives (init .unary {}) (start .unary {} d) ∧
      Path step (start .unary {} d) past s ∧
      (∃ m ∈ s.sent 0, m.message.Discloses directOfTwo) ∧
      (AuthenticatedAs past 0 (List.replicate 3 1) ∨
        AuthenticatedAs past 0 (List.replicate 6 1)) ∧
      ∀ m ∈ s.store.messages, m.conversationId = directOfTwo →
        m.senderId = some (List.replicate 3 1) ∨ m.senderId = some (List.replicate 6 1) := by
  have h : (execAll step (init .unary {})
      (twoReady ++ [.message 0 70 (some (directMessage (List.replicate 6 1) "hi"))])).any
        (fun s => (execAllIn step (fun _ _ => True) (start .unary {} (leftBy s))
            aliceAgain).any fun s' =>
          (s'.sent 0).any fun m => listsConversation directOfTwo m.message) = true := by decide
  obtain ⟨s, hs, h⟩ := (Option.any_eq_true ..).mp h
  obtain ⟨s', hs', h⟩ := (Option.any_eq_true ..).mp h
  obtain ⟨m, hm, hlists⟩ := List.any_eq_true.mp h
  have hl : (process .unary).Lives (init .unary {}) s := Process.lives_of_run (run_of_execAll hs)
  have hstart : (process .unary).Lives (init .unary {}) (start .unary {} (leftBy s)) :=
    hl.stop ⟨{}, rfl⟩
  have hp := pathIn_of_execAllIn hs'
  have hdis := discloses_of_lists hlists
  obtain ⟨hsent, hmessages, -⟩ := direct_stays_private hstart hp
    (a := List.replicate 3 1) (b := List.replicate 6 1) (by decide) (by decide)
  exact ⟨leftBy s, _, s', hstart, hp, ⟨m, hm, hdis⟩, hsent 0 m hm hdis, hmessages⟩

end GatewayServer

end ThreadLink.Gateway
