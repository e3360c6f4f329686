import ThreadLink.Gateway.Accounts
import ThreadLink.Gateway.Authentication

/-!
# Direct conversations

`ensureDirect` makes a conversation of the two ids that it is given. `handleSendMessage`
gives it the id of a peer that is online, which may be the sender itself, and the cases
`priv` and `privSent` of `onBackendEvent` give it the nickname of the line if nobody uses
that nickname any more. This module has what holds of the direct conversations in the runs
in which neither happens.

## What is proved

* `Store.Dialogues.ensureDirect` — a direct conversation of two different accounts has these
  for members.
* `direct_conversations_are_pairs` — if every direct conversation that is asked for is there
  or has another account for its other user, then all direct conversations are such.
-/

namespace ThreadLink.Gateway

open Text Runs

/-! ### In the store -/

namespace Store

variable {st : Store} {a b id : Units}

/-- A conversation of two different accounts. -/
def Paired (st : Store) (id : Units) : Prop :=
  ∃ a b, a ≠ b ∧ a ∈ st.users.ids ∧ b ∈ st.users.ids ∧ st.members.of id = [a, b] ∧
    id = directConversationId a b

/-- All direct conversations are such. -/
structure Dialogues (st : Store) : Prop where
  /-- The conversations are filed. -/
  filed : st.Filed
  /-- The direct ones have two members. -/
  paired : ∀ r ∈ st.conversations.rows, r.kind = .direct → st.Paired r.id

theorem dialogues_init (now : Units) : (init now).Dialogues where
  filed := filed_init now
  paired r hr hk := by
    rw [List.mem_singleton.mp hr] at hk
    cases hk

/-- More accounts do not matter. -/
theorem Dialogues.users (h : st.Dialogues) {users : Users} (hu : st.users.ids ⊆ users.ids) :
    ({ st with users := users } : Store).Dialogues where
  filed := ⟨h.filed.label, h.filed.members⟩
  paired r hr hk := by
    obtain ⟨a, b, hne, ha, hb, hm, hid⟩ := h.paired r hr hk
    exact ⟨a, b, hne, hu ha, hu hb, hm, hid⟩

theorem Dialogues.append (h : st.Dialogues) (m : MessageSummary) : (st.append m).Dialogues :=
  ⟨⟨h.filed.label, h.filed.members⟩, h.paired⟩

/-- **A direct conversation** of two different accounts has these for members. -/
theorem Dialogues.ensureDirect (h : st.Dialogues) (now : Units)
    (hab : st.hasDirect (directConversationId a b) = true ∨ a ≠ b ∧ a ∈ st.users.ids ∧
      b ∈ st.users.ids) :
    (st.ensureDirect now a b).1.Dialogues := by
  refine ⟨h.filed.ensureDirect now a b, ?_⟩
  cases hd : st.hasDirect (directConversationId a b) with
  | true =>
    rw [ensureDirect_of_hasDirect hd]
    exact h.paired
  | false =>
    obtain ⟨hne, ha, hb⟩ := hab.resolve_left (by rw [hd]; exact nofun)
    have hn := h.filed.not_mem_of_hasDirect hd
    rw [ensureDirect_of_not hd]
    intro r hr hk
    rcases Conversations.mem_insertOrIgnore.mp hr with hr | ⟨-, rfl⟩
    · obtain ⟨a', b', hne', ha', hb', hm, hid⟩ := h.paired r hr hk
      refine ⟨a', b', hne', ha', hb', ?_, hid⟩
      have hrn : r.id ≠ directConversationId a b := fun he => hn (List.mem_map.mpr ⟨r, hr, he⟩)
      show Members.of (Members.add _ _ _) _ = _
      rw [Members.of_add_of_ne hrn, Members.of_add_of_ne hrn, hm]
    · -- nobody is a member of a conversation that is not there
      have hnil := h.filed.of_eq_nil hn
      have ha0 : (directConversationId a b, a) ∉ st.members.rows := by
        rw [← Members.mem_of, hnil]
        exact List.not_mem_nil
      have hb0 :
          (directConversationId a b, b) ∉ (st.members.add (directConversationId a b) a).rows := by
        rw [← Members.mem_of, Members.of_add ha0, hnil]
        simpa using hne.symm
      refine ⟨a, b, hne, ha, hb, ?_, rfl⟩
      show Members.of (Members.add _ _ _) _ = _
      rw [Members.of_add hb0, Members.of_add ha0, hnil]
      rfl

/-- A group is no direct conversation. -/
theorem Dialogues.createGroup (h : st.Dialogues) (id now name : Units) (memberIds : List Units) :
    (st.createGroup (units "group:" ++ id) now name memberIds).1.Dialogues := by
  refine ⟨h.filed.createGroup id now name memberIds, ?_⟩
  intro r hr hk
  rcases Conversations.mem_insertOrIgnore.mp hr with hr | ⟨-, rfl⟩
  · obtain ⟨a, b, hne, ha, hb, hm, hid⟩ := h.paired r hr hk
    refine ⟨a, b, hne, ha, hb, ?_, hid⟩
    have hrn : r.id ≠ units "group:" ++ id := fun he => by
      have hg := h.filed.kind (k := .group) hr (he ▸ List.prefix_append ..)
      rw [hk] at hg
      cases hg
    show Members.of (List.foldl _ _ _) _ = _
    rw [Members.of_addAll_of_ne hrn, hm]
  · cases hk

end Store

namespace GatewayServer

variable {P : Cause → Prop} {s s' t u : GatewayServer} {e : Event} {c : Cause} {w x : WsId}
  {b : BackendId}

/-! ### Who asks for a direct conversation, and with whom -/

/-- `SessionManager.get`, of a session that is welcomed before or by an event. -/
def onlineIn? (s : GatewayServer) (e : Event) (userId : Units) : Option WsId :=
  (s.roster.find? userId).filter fun w => (s.sessions w).welcomed || s.welcomes e w

/-- The user that a direct message is for. -/
def peerOf? (s : GatewayServer) (e : Event) : ClientMessage → Option Units
  | .sendMessage (.direct peerId) _ => (s.onlineIn? e peerId).map fun peer => (s.sessions peer).id
  | _ => none

/-- The direct conversations that an event asks for: for whom, and with whom. -/
def asks (s : GatewayServer) : Event → List (WsId × Units)
  | .message w n v =>
    (s.handles (.message w n v) w).filterMap fun m =>
      (s.peerOf? (.message w n v) m).map fun id => (w, id)
  | .backendFrame b p =>
    let w := (s.backends b).owner
    ((s.handles (.backendFrame b p) w).filterMap fun m =>
      (s.peerOf? (.backendFrame b p) m).map fun id => (w, id)) ++
      match parseBackendLine (utf8Decode p) with
      | .priv nickname _ | .privSent nickname _ => [(w, (s.idByNickname nickname).getD nickname)]
      | _ => []
  | _ => []

/-- **The condition**: a direct conversation that an event asks for is there, or its other
user is another account. -/
def TalksToOthers (s : GatewayServer) (e : Event) : Prop :=
  ∀ a ∈ s.asks e, s.store.hasDirect (directConversationId (s.sessions a.1).id a.2) = true ∨
    (s.sessions a.1).id ≠ a.2 ∧ a.2 ∈ s.store.users.ids

instance (s : GatewayServer) (e : Event) : Decidable (TalksToOthers s e) :=
  inferInstanceAs (Decidable (∀ a ∈ s.asks e, _))

theorem Same.findByNickname (h : Same s t) (nickname : Units) :
    t.findByNickname nickname = s.findByNickname nickname := by
  unfold GatewayServer.findByNickname
  rw [h.roster]
  congr 1
  funext w
  obtain ⟨p, q, hw⟩ := h.sessions w
  rw [hw]

theorem Same.idByNickname (h : Same s t) (nickname : Units) :
    t.idByNickname nickname = s.idByNickname nickname := by
  unfold GatewayServer.idByNickname
  rw [h.findByNickname]
  congr 1
  funext w
  exact h.id w

/-- An event that acts for a session moves nobody. -/
theorem Change.of_acts (h : Change s e t) (hx : s.Acts e x) : Stays s t ∧ t.roster = s.roster := by
  cases h.moves with
  | stays hs hr => exact ⟨hs, hr⟩
  | _ => exact hx.elim

theorem Change.onlineIn? (h : Change s e t) (hx : s.Acts e x) (userId : Units) :
    t.online? userId = s.onlineIn? e userId := by
  unfold GatewayServer.online? GatewayServer.onlineIn?
  rw [(h.of_acts hx).2]
  congr 1
  funext w
  apply h.welcomed
  rintro rfl
  exact hx.elim

/-- The frame of a direct message changes nothing. -/
theorem Change.eq_of_frame {p : Bytes} {ev : BackendEvent} (h : Change s (.backendFrame b p) t)
    (he : parseBackendLine (utf8Decode p) = ev) (hw : ∀ nickname, ev ≠ .welcome nickname)
    (hn : ∀ oldNick newNick, ev ≠ .nick oldNick newNick) (hr : ∀ code text, ev ≠ .err code text) :
    t = s := by
  subst he
  cases h with
  | frame => rfl
  | nickTaken _ he => exact absurd he (hr _ _)
  | welcome _ he => exact absurd he (hw _)
  | welcomeReady _ he => exact absurd he (hw _)
  | nickReady _ he => exact absurd he (hn _ _)
  | rename _ he => exact absurd he (hn _ _)

/-- A direct conversation that a deed keeps is one that the event asks for. -/
theorem Change.asks {other : Units} (h : Change s e t) (hu : Same t u) (hc : s.Causes e c)
    (ho : u.Other c w other) : (w, other) ∈ s.asks e ∧ (u.sessions w).id = (s.sessions w).id := by
  have hacts : s.Acts e w := hc.acts w (by cases ho <;> rfl)
  have hid (x : WsId) : (u.sessions x).id = (s.sessions x).id :=
    (hu.id x).trans ((h.of_acts hacts).1.sessions x).links.id
  refine ⟨?_, hid w⟩
  cases ho with
  | @peer w peer peerId text hp =>
    have hm := hc.message
    have hpeer : s.peerOf? e (.sendMessage (.direct peerId) text) = some (u.sessions peer).id := by
      rw [hu.online?, h.onlineIn? hacts] at hp
      simp only [peerOf?, hp, Option.map_some, hid]
    cases e with
    | message w' n v =>
      obtain rfl : w = w' := hacts
      exact List.mem_filterMap.mpr ⟨_, hm, by rw [hpeer]; rfl⟩
    | backendFrame b p =>
      obtain rfl : w = (s.backends b).owner := hacts
      exact List.mem_append_left _ (List.mem_filterMap.mpr ⟨_, hm, by rw [hpeer]; rfl⟩)
    | _ => exact hacts.elim
  | @sender w other text | @recipient w other text =>
    obtain ⟨b, p, rfl, rfl, he⟩ := hc.event
    obtain rfl := h.eq_of_frame he nofun nofun nofun
    rw [hu.idByNickname]
    apply List.mem_append_right _
    rw [he]
    exact List.mem_singleton_self _

/-! ### In every run -/

/-- A deed removes no conversation. -/
theorem Deed.conversations (h : Deed s c t) :
    s.store.conversations.rows ⊆ t.store.conversations.rows := by
  cases h with
  | @ensureDirect c w other =>
    show _ ⊆ (s.store.ensureDirect _ _ _).1.conversations.rows
    unfold Store.ensureDirect
    dsimp only
    split
    · exact List.Subset.refl _
    · exact fun r hr => Conversations.mem_insertOrIgnore.mpr (.inl hr)
  | createGroup => exact fun r hr => Conversations.mem_insertOrIgnore.mpr (.inl hr)
  | nick => rw [sendLine_eq]; exact List.Subset.refl _
  | chat => rw [forward, sendLine_eq]; exact List.Subset.refl _
  | direct => rw [forward, sendLine_eq]; exact List.Subset.refl _
  | _ => exact List.Subset.refl _

theorem Deeds.conversations (h : Deeds P s t) :
    s.store.conversations.rows ⊆ t.store.conversations.rows := by
  induction h with
  | refl => exact List.Subset.refl _
  | tail _ hd ih =>
    obtain ⟨c, -, hd⟩ := hd
    exact List.Subset.trans ih hd.conversations

/-- A deed keeps the direct conversations what they are, if the one it asks for is. -/
theorem Deed.dialogues (h : Deed s c t) (hs : s.store.Dialogues)
    (hc : ∀ w other, s.Other c w other →
      s.store.hasDirect (directConversationId (s.sessions w).id other) = true ∨
        (s.sessions w).id ≠ other ∧ (s.sessions w).id ∈ s.store.users.ids ∧
          other ∈ s.store.users.ids) :
    t.store.Dialogues := by
  cases h with
  | append => exact hs.append _
  | ensureDirect ho => exact hs.ensureDirect _ (hc _ _ ho)
  | createGroup => exact hs.createGroup ..
  | nick => rw [sendLine_eq]; exact hs
  | chat => rw [forward, sendLine_eq]; exact hs
  | direct => rw [forward, sendLine_eq]; exact hs
  | _ => exact hs

theorem dialogues_step (hk : Known s) (h : s.store.Dialogues) (hc : TalksToOthers s e)
    (hs : s.step e = some s') : s'.store.Dialogues := by
  obtain ⟨t, ht, hd⟩ := step_deeds hs
  have hkt := hk.change ht
  have hdt : t.store.Dialogues := by
    rw [ht.store_eq]
    exact h.users ht.ids
  have hrows : t.store.conversations.rows = s.store.conversations.rows := by rw [ht.store_eq]
  suffices ∀ u, Deeds (s.Causes e) t u → u.store.Dialogues from this s' hd
  intro u hu
  induction hu with
  | refl => exact hdt
  | @tail u v hu hd ih =>
    obtain ⟨c, hcause, hd⟩ := hd
    apply hd.dialogues ih
    intro w other ho
    obtain ⟨hask, hid⟩ := ht.asks (Deeds.same hu) hcause ho
    have hw : (s.sessions w).authenticated = true := by
      refine hcause.authenticated hk.joined hs (by cases ho <;> rfl) ?_
      rintro m rfl
      cases ho
    have husers : s.store.users.ids ⊆ u.store.users.ids := by
      rw [(Deeds.same hu).users]
      exact ht.ids
    rw [hid]
    rcases hc _ hask with hh | ⟨hne, ho⟩
    · -- it is there already
      left
      obtain ⟨r, hr, he⟩ := Store.hasDirect_iff.mp hh
      exact Store.hasDirect_iff.mpr ⟨r, Deeds.conversations hu (hrows ▸ hr), he⟩
    · exact .inr ⟨hne, husers (hk.session w hw), husers ho⟩

/-- **Direct conversations are pairs**: if every direct conversation that is asked for is
there, or has another account for its other user, then a direct conversation has two members,
two different accounts, and its id is the one of these two. -/
theorem direct_conversations_are_pairs {env : Env} {config : GatewayConfig}
    (h : RunIn step TalksToOthers (init env config) s) :
    ∀ r ∈ s.store.conversations.rows, r.kind = .direct →
      ∃ a b, a ≠ b ∧ (∃ row ∈ s.store.users.rows, row.id = a) ∧
        (∃ row ∈ s.store.users.rows, row.id = b) ∧
        s.store.members.of r.id = [a, b] ∧ r.id = directConversationId a b := by
  have hd := (h.invariant (I := fun s => Known s ∧ s.store.Dialogues)
    ⟨known_init env config, Store.dialogues_init _⟩ fun s e s' ⟨hk, hd⟩ hc hs =>
    ⟨hk.step hs, dialogues_step hk hd hc hs⟩).2
  intro r hr hk
  obtain ⟨a, b, hne, ha, hb, hm, hid⟩ := hd.paired r hr hk
  exact ⟨a, b, hne, List.mem_map.mp ha, List.mem_map.mp hb, hm, hid⟩

/-- A direct message. -/
def directMessage (peerId : Units) (text : String) : Json :=
  .obj [(units "type", .str (units "sendMessage")), (units "text", .str (units text)),
    (units "target", .obj [(units "kind", .str (units "direct")), (units "peerId", .str peerId)])]

/-- Two sessions are ready. -/
def twoReady : List Event :=
  oneRegister ++ [.connected 0, .backendFrame 0 (bytes "WELCOME alice"), .connection,
    .message 1 70 (some (registerMessage "bob")), .authDone 0, .connected 1,
    .backendFrame 1 (bytes "WELCOME bob")]

set_option maxRecDepth 8000 in
theorem direct_conversation_of_two :
    ∃ s, RunIn step TalksToOthers (init .sample {}) s ∧
      s.store.members.of (directConversationId [3] [6]) = [[3], [6]] ∧
      ∃ row ∈ s.store.users.rows, row.id = [3] := by
  have h : (execAllIn step TalksToOthers (init .sample {})
    (twoReady ++ [.message 0 70 (some (directMessage [6] "hi"))])).map
      (fun s => (s.store.conversations.rows.map fun r => (r.id, r.kind),
        s.store.members.of (directConversationId [3] [6]))) =
      some ([(publicConversationId, .everyone), (directConversationId [3] [6], .direct)],
        [[3], [6]]) := by decide
  obtain ⟨s, hs, he⟩ := exists_runIn_of_execAllIn h
  simp only [Prod.mk.injEq] at he
  obtain ⟨hc, hm⟩ := he
  have hmem : (directConversationId [3] [6], ConversationKind.direct) ∈
      s.store.conversations.rows.map fun r => (r.id, r.kind) := by
    rw [hc]
    exact List.mem_cons_of_mem _ (List.mem_singleton_self _)
  obtain ⟨r, hr, he⟩ := List.mem_map.mp hmem
  obtain ⟨hid, hk⟩ := Prod.mk.inj he
  obtain ⟨a, b, -, ha, -, hab, -⟩ := direct_conversations_are_pairs hs r hr hk
  rw [hid, hm] at hab
  exact ⟨s, hs, hm, (List.cons.inj hab).1 ▸ ha⟩

set_option maxRecDepth 8000 in
/-- **A direct conversation may have one member**: a session sends a direct message to its own
id. -/
theorem direct_conversation_of_one :
    ∃ s, Run step (init .sample {}) s ∧
      s.store.conversations.rows.map (fun r => (r.id, r.kind)) =
        [(publicConversationId, .everyone), (directConversationId [3] [3], .direct)] ∧
      s.store.members.of (directConversationId [3] [3]) = [[3]] := by
  have h :
    (execAll step (init .sample {})
      (twoReady ++ [.message 0 70 (some (directMessage [3] "hi"))])).map
      (fun s => (s.store.conversations.rows.map fun r => (r.id, r.kind),
        s.store.members.of (directConversationId [3] [3]))) =
      some ([(publicConversationId, .everyone), (directConversationId [3] [3], .direct)],
        [[3]]) := by decide
  obtain ⟨s, hs, he⟩ := exists_run_of_execAll h
  simp only [Prod.mk.injEq] at he
  exact ⟨s, hs, he⟩

end GatewayServer

end ThreadLink.Gateway
