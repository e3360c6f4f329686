import ThreadLink.Frontend.Conversations
import ThreadLink.Gateway.Replicas

/-!
# The user's own profile

The state has the nickname and the presence of the user twice: in fields of their own, and in the
map of the users that are online. `USER_UPDATE` changes both alike; `READY` takes the field for the
presence to be `"online"`, and the map from the snapshot.

## What is proved

* `profile_agrees_iff` — the two agree throughout exactly if each snapshot lists the user, if it
  does, under the nickname it gives and as online.
* `tellsOwn_readyMessage_iff` — the nickname is never wrong in what the gateway sends, and the
  presence is only if the user is away.
* `away_shows_online` — a user that is away and asks for the state.
-/

namespace ThreadLink.Frontend

open Text Gateway Runs

variable {past : List (ChatState × ChatAction)} {c : ChatState} {a : ChatAction}

/-- **The two copies of the profile agree.** -/
def ProfileAgrees (c : ChatState) : Prop :=
  ∀ userId user, c.userId = some userId → c.users.find? userId = some user →
    c.nickname = user.nickname ∧ c.presence = user.presence

/-- **The condition**: a snapshot lists the user, if it does, under the nickname it gives and as
online. -/
def TellsOwn : ChatAction → Prop
  | .ready userId username users _ _ =>
    ∀ user, (readyUsers users).find? userId = some user → user.nickname = username ∧
      user.presence = .online
  | _ => True

/-- An action that changes nothing of the profile. -/
theorem ProfileAgrees.of_same (h : ProfileAgrees c) {c' : ChatState} (hid : c'.userId = c.userId)
    (hu : c'.users = c.users) (hn : c'.nickname = c.nickname) (hp : c'.presence = c.presence) :
    ProfileAgrees c' := by
  intro userId user h1 h2
  rw [hn, hp]
  exact h userId user (hid ▸ h1) (hu ▸ h2)

/-- After a snapshot, they agree if it tells so. -/
theorem profileAgrees_ready (c : ChatState) (userId username : Units) (users : List UserSummary)
    (summaries : List ConversationSummary) (messages : List MessageSummary) :
    ProfileAgrees (chatReducer c (.ready userId username users summaries messages)) ↔
      TellsOwn (.ready userId username users summaries messages) := by
  constructor
  · intro h user hf
    obtain ⟨hn, hp⟩ := h userId user rfl hf
    exact ⟨hn.symm, hp.symm⟩
  · intro h id user hid hf
    obtain rfl := Option.some.inj hid
    obtain ⟨hn, hp⟩ := h user hf
    exact ⟨hn.symm, hp.symm⟩

/-- **One action.** -/
theorem ProfileAgrees.step_iff (h : ProfileAgrees c) (a : ChatAction) :
    ProfileAgrees (chatReducer c a) ↔ TellsOwn a := by
  cases a with
  | ready userId username users summaries messages =>
    exact profileAgrees_ready c userId username users summaries messages
  | userUpdate u =>
    refine iff_of_true ?_ trivial
    intro userId user hid hf
    have hid : c.userId = some userId := hid
    have hf : (c.users.insert u.id (userFromSummary u)).find? userId = some user := hf
    show (if c.userId == some u.id then u.username else c.nickname) = user.nickname ∧
      (if c.userId == some u.id then u.presence else c.presence) = user.presence
    rw [hid]
    by_cases hu : userId = u.id
    · rw [hu, OrdMap.find?_insert_self] at hf
      rw [hu, beq_self_eq_true, if_pos rfl, if_pos rfl, ← Option.some.inj hf]
      exact ⟨rfl, rfl⟩
    · rw [OrdMap.find?_insert_of_ne _ hu] at hf
      rw [beq_false_of_ne fun he => hu (Option.some.inj he), if_neg Bool.false_ne_true,
        if_neg Bool.false_ne_true]
      exact h userId user hid hf
  | userOffline id =>
    refine iff_of_true ?_ trivial
    intro userId user hid hf
    have hf : (c.users.erase id).find? userId = some user := hf
    rw [OrdMap.find?_erase] at hf
    split at hf
    · cases hf
    · exact h userId user hid hf
  | conversationCreated summary =>
    have hsame : ProfileAgrees (reduceConversationCreated c summary) := by
      unfold reduceConversationCreated
      dsimp only
      split <;> exact h.of_same rfl rfl rfl rfl
    exact iff_of_true hsame trivial
  | errorMessage code text target id now =>
    have hsame : ProfileAgrees (reduceErrorMessage c text target id now) := by
      unfold reduceErrorMessage
      dsimp only
      split <;> exact h.of_same rfl rfl rfl rfl
    exact iff_of_true hsame trivial
  | setActiveConversation target =>
    have hsame : ProfileAgrees (reduceSetActive c target) := by
      unfold reduceSetActive
      split <;> exact h.of_same rfl rfl rfl rfl
    exact iff_of_true hsame trivial
  | loggedOut => exact iff_of_true (fun _ _ hid => by cases hid) trivial
  | _ => exact iff_of_true (h.of_same rfl rfl rfl rfl) trivial

/-- **When the profile agrees.** It does in every state of a run of the reducer exactly if each
snapshot that is reduced lists the user, if it does, under the nickname it gives and as online. -/
theorem profile_agrees_iff {gatewayUrl : Units}
    (h : Path step (createInitialState gatewayUrl) past c) :
    ((∀ e ∈ past, ProfileAgrees e.1) ∧ ProfileAgrees c) ↔ ∀ e ∈ past, TellsOwn e.2 := by
  refine h.invariant (I := fun past c => ((∀ e ∈ past, ProfileAgrees e.1) ∧ ProfileAgrees c) ↔
    ∀ e ∈ past, TellsOwn e.2) ?_ ?_
  · refine iff_of_true ⟨fun e he => absurd he List.not_mem_nil, ?_⟩ fun e he =>
      absurd he List.not_mem_nil
    intro userId user hid
    cases hid
  · intro past c a c' ih _ hs
    obtain rfl : chatReducer c a = c' := Option.some.inj hs
    simp only [List.forall_mem_append, List.forall_mem_singleton]
    rw [← ih]
    constructor
    · rintro ⟨⟨hpast, hc⟩, hc'⟩
      exact ⟨⟨hpast, hc⟩, (hc.step_iff a).mp hc'⟩
    · rintro ⟨⟨hpast, hc⟩, ha⟩
      exact ⟨⟨hpast, hc⟩, (hc.step_iff a).mpr ha⟩

end ThreadLink.Frontend

namespace ThreadLink.Gateway.GatewayServer

open Text Runs Frontend

variable {s : GatewayServer} {w : WsId}

/-- **What the gateway sends** to a session that is ready: the nickname is the one in the list, and
the presence is `"online"` unless the user is away. -/
theorem tellsOwn_readyMessage_iff (h : Placed s) (hr : (s.sessions w).readyAnnounced = true)
    (ho : (s.sessions w).ws = .opened) (rendered : ChatState) (id now : Units) :
    TellsOwn (handleServerEvent rendered id now (s.readyMessage w)) ↔
    (s.sessions w).presence = .online := by
  have hshows : Shows s (usersStep .empty (s.readyMessage w)) := h.shows_ready w
  have hf : (readyUsers (s.welcomedSessions.map s.summarize)).find? (s.sessions w).id =
      some (s.user w) :=
    (hshows (s.sessions w).id).1 w (h.listed w hr ho) hr
  show (∀ user, (readyUsers (s.welcomedSessions.map s.summarize)).find?
    (s.sessions w).id = some user →
    user.nickname = (s.sessions w).nickname ∧ user.presence = .online) ↔ _
  rw [hf]
  constructor
  · intro hall
    exact (hall (s.user w) rfl).2
  · rintro hp user he
    rw [← Option.some.inj he]
    exact ⟨rfl, hp⟩

/-- What is sent to a user that logs in, goes away and asks for the state. -/
def awayAsks : List Event :=
  oneRegister ++ [.connected 0, .backendFrame 0 (bytes "WELCOME alice"),
    .message 0 70 (some (presenceMessage "away")),
    .message 0 70 (some (.obj [(units "type", .str (units "requestState"))]))]

/-- Whether the last event lists the user `[3]`, who is `"alice"`, as away. -/
def endsAway (events : List ServerMessage) : Bool :=
  match events.getLast? with
  | some (.ready userId username users _ _) => userId == [3] && username == units "alice" &&
    (readyUsers users).find? [3] == some ⟨[3], units "alice", .away⟩
  | _ => false

set_option maxRecDepth 8000 in
/-- **A user that is away is shown as online**, by the field, and as away, by the map. -/
theorem away_shows_online : ∃ s, Run step (init .sample {}) s ∧ (s.sessions 0).presence = .away ∧
    (∃ c, Replays (createInitialState []) ((s.sent 0).map (·.message)) c) ∧
    ∀ c, Replays (createInitialState []) ((s.sent 0).map (·.message)) c → c.userId = some [3] ∧
      c.presence = .online ∧ c.users.find? [3] = some ⟨[3], units "alice", .away⟩ := by
  obtain ⟨s, hs, hp, hlast⟩ := exists_run_of_any step (init .sample {}) awayAsks
    (fun s => (s.sessions 0).presence = .away ∧ endsAway ((s.sent 0).map (·.message)) = true)
      (by decide)
  refine ⟨s, hs, hp, exists_replays _ _, ?_⟩
  intro c hc
  generalize (s.sent 0).map (·.message) = events at hlast hc
  cases hc with
  | refl => cases hlast
  | @tail events c' rendered id now _ m =>
    rw [endsAway, List.getLast?_concat] at hlast
    cases m with
    | ready userId username users summaries messages =>
      simp only [Bool.and_eq_true, beq_iff_eq] at hlast
      obtain ⟨⟨rfl, -⟩, hf⟩ := hlast
      exact ⟨rfl, rfl, hf⟩
    | _ => cases hlast

end ThreadLink.Gateway.GatewayServer

namespace ThreadLink.Frontend

open Text Gateway Runs

/-- A user logs in, goes away and comes back. -/
def awayAndBack : List ChatAction :=
  [.ready [3] (units "alice") [⟨[3], units "alice", .online⟩] [] [],
    .userUpdate ⟨[3], units "alice", .away⟩,
    .userUpdate ⟨[3], units "alice", .online⟩]

theorem away_and_back_agrees :
    ProfileAgrees (awayAndBack.foldl chatReducer (createInitialState [])) := by
  refine ((profile_agrees_iff
    (@path_of_actions _ awayAndBack (createInitialState []) fun _ _ => trivial)).mpr ?_).2
  intro e he
  have hready : (readyUsers [⟨[3], units "alice", .online⟩]).find? [3] =
      some ⟨[3], units "alice", .online⟩ := by decide
  simp only [awayAndBack, pastOf, List.mem_cons, List.not_mem_nil, or_false] at he
  rcases he with rfl | rfl | rfl
  · intro user hf
    rw [← Option.some.inj (hready.symm.trans hf)]
    exact ⟨rfl, rfl⟩
  · trivial
  · trivial

end ThreadLink.Frontend
