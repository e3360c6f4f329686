import ThreadLink.Gateway.Database
import ThreadLink.Gateway.Faults
import ThreadLink.Gateway.Requests

/-!
# The lives of the gateway

`index.ts` opens the database, makes a server for it, and closes it when a signal arrives. The
process may end in other ways: an exception that nobody handles, or a `SIGKILL` in the middle of
a handler. Whatever has been written by then is there when the gateway starts again, and nothing
else is: no session, no roster, no backend connection.

## The model

* `process` — the gateway with its database for a disk; it starts in `boot`, with whatever
  configuration.
* `Commits` — what a handler does to the database is a sequence of writes, and a message of a
  group is in it before anybody is told.

## What is proved

* `step_commits` — a step is such a sequence.
* `keys_are_new` — in every life the next ids are new, so that no `INSERT` is refused for its
  primary key.
* `nothing_is_lost` — **whatever the gateway has told, forwarded or stored is there in all its
  later lives**, wherever it has been stopped.
-/

namespace ThreadLink.Gateway

open Text Runs

namespace GatewayServer

variable {env : Env} {s s' t u : GatewayServer} {e : Event} {w x : WsId}

/-! ### The process -/

/-- What outlives the process. -/
def disk (s : GatewayServer) : Disk := ⟨s.store, s.draws⟩

/-- The gateway starts on a database that is there. -/
def boot (env : Env) (config : GatewayConfig) (d : Disk) : GatewayServer :=
  { init env config with store := d.store.reopen (env.now d.draws), draws := d.draws + 1 }

/-- **The gateway as a process.** -/
def process (env : Env) : Process GatewayServer Event Disk Write where
  step := step
  disk := disk
  Writes := Writes env
  Tears := Tears env
  Starts d s := ∃ config, s = boot env config d

/-! ### What a handler commits -/

/-- **The database changes by writes**, and whoever is told a message of a group is told one
that is in it. -/
structure Commits (s t : GatewayServer) : Prop where
  /-- The platform. -/
  env : t.env = s.env
  /-- The writes. -/
  writes : ∃ l, Trace (Writes s.env) s.disk l t.disk
  /-- The messages of groups. -/
  told : ∀ x m about, ⟨.message m, about⟩ ∈ t.sent x →
    ConversationKind.group.label <+: m.conversationId →
      ⟨.message m, about⟩ ∈ s.sent x ∨ Store.messageRow m ∈ t.store.messages

/-- The messages stay. -/
theorem Commits.messages (h : Commits s t) : s.store.messages ⊆ t.store.messages := by
  obtain ⟨l, hl⟩ := h.writes
  exact (within_of_trace hl).messages

theorem Commits.trans (h : Commits s t) (h' : Commits t u) : Commits s u where
  env := h'.env.trans h.env
  writes :=
    let ⟨_, hl⟩ := h.writes
    let ⟨_, hl'⟩ := h'.writes
    ⟨_, hl.append (h.env ▸ hl')⟩
  told x m about hm hg := by
    rcases h'.told x m about hm hg with hm | hm
    · exact (h.told x m about hm hg).imp id (h'.messages ·)
    · exact .inr hm

/-- Nothing is written. -/
theorem trace_draw (hst : t.store = s.store) (hd : s.draws ≤ t.draws) :
    ∃ l, Trace (Writes env) s.disk l t.disk := by
  refine ⟨[.draw], .concat .nil ?_⟩
  unfold disk
  rw [hst]
  exact .draw hd

theorem Commits.draw (he : t.env = s.env) (hst : t.store = s.store) (hd : s.draws ≤ t.draws)
    (hs : t.sent = s.sent) : Commits s t where
  env := he
  writes := trace_draw hst hd
  told _ _ _ hm _ := .inl (hs ▸ hm)

theorem Commits.refl (s : GatewayServer) : Commits s s := .draw rfl rfl le_rfl rfl

/-- One thing is written. -/
theorem Commits.write {write : Write} (he : t.env = s.env) (hw : Writes s.env s.disk write t.disk)
    (hs : t.sent = s.sent) : Commits s t where
  env := he
  writes := ⟨[write], .concat .nil hw⟩
  told _ _ _ hm _ := .inl (hs ▸ hm)

/-- An event is sent; if it is a message of a group, it is one that is kept. -/
theorem Commits.sendTo (s : GatewayServer) (x : WsId) (message : ServerMessage)
    (about : List WsId) (h : ∀ m, message = .message m →
      ConversationKind.group.label <+: m.conversationId →
        Store.messageRow m ∈ s.store.messages) :
    Commits s (s.sendTo x message about) := by
  have he := sendTo_eq s x message about
  refine ⟨by rw [he], trace_draw (by rw [he]) (by rw [he]), ?_⟩
  intro y m about' hm hg
  unfold GatewayServer.sendTo at hm ⊢
  split at hm
  · rename_i ho
    rw [if_pos ho]
    by_cases hy : y = x
    · subst hy
      replace hm : _ ∈ Function.update s.sent y _ y := hm
      rw [Function.update_self] at hm
      rcases List.mem_append.mp hm with hm | hm
      · exact .inl hm
      · have hm := List.mem_singleton.mp hm
        exact .inr (h m (congrArg Sent.message hm).symm hg)
    · replace hm : _ ∈ Function.update s.sent x _ y := hm
      rw [Function.update_of_ne hy] at hm
      exact .inl hm
  · exact .inl hm

theorem Commits.sendError (s : GatewayServer) (x : WsId) (code text : Units)
    (conversationId : Option Units) : Commits s (s.sendError x code text conversationId) :=
  Commits.sendTo s x _ [] nofun

/-- One thing is done after the other. -/
theorem Commits.foldl {α : Type*} {f : GatewayServer → α → GatewayServer} {l : List α}
    (hf : ∀ t a, Commits s t → Commits t (f t a)) : Commits s (l.foldl f s) := by
  suffices ∀ t, Commits s t → Commits s (l.foldl f t) from this s (.refl s)
  induction l with
  | nil => exact fun t h => h
  | cons a l ih => exact fun t h => ih _ (h.trans (hf t a h))

theorem Commits.broadcastToAll (s : GatewayServer) (message : ServerMessage) (ex : Option Units)
    (about : List WsId) (h : ∀ m, message ≠ .message m) :
    Commits s (s.broadcastToAll message ex about) := by
  unfold GatewayServer.broadcastToAll
  refine Commits.foldl fun t x _ => ?_
  split_ifs
  · exact .refl t
  · exact .refl t
  · exact .sendTo t x _ about fun m hm => absurd hm (h m)

theorem Commits.sendLine (s : GatewayServer) (x : WsId) (line : Line) :
    Commits s (s.sendLine x line) := by
  rw [sendLine_eq]
  exact .draw rfl rfl le_rfl rfl

theorem Commits.forward (s : GatewayServer) (request : Request) (line : Units) :
    Commits s (s.forward request line) :=
  Commits.trans (t := { s with requests := s.requests ++ [request] }) (.draw rfl rfl le_rfl rfl)
    (.sendLine ..)

/-! ### Messages of a client -/

theorem Commits.append (s : GatewayServer) (w : WsId) (conversationId text : Units) :
    Commits s (s.append w conversationId text).2 ∧
      Store.messageRow (s.append w conversationId text).1 ∈
        (s.append w conversationId text).2.store.messages := by
  have hdrawn : (Operation.append (s.append w conversationId text).1).DrawnAt s.env s.disk.draws :=
    ⟨rfl, rfl⟩
  exact ⟨.write rfl (.operation hdrawn) rfl, List.mem_append_right _ (List.mem_singleton_self _)⟩

theorem Commits.ensureDirect (s : GatewayServer) (a b : Units) :
    Commits s (s.ensureDirect a b).2 := by
  have hdrawn : (Operation.ensureDirect (s.env.now s.draws) a b).DrawnAt s.env s.disk.draws := rfl
  exact .write rfl (.operation hdrawn) rfl

theorem Commits.openDirect (s : GatewayServer) (w peer : WsId) :
    Commits s (s.openDirect w peer).2 := by
  unfold GatewayServer.openDirect
  dsimp only
  split
  · exact .ensureDirect ..
  · exact ((Commits.ensureDirect ..).trans (.sendTo _ w _ [] (by exact nofun))).trans
      (.sendTo _ peer _ [] (by exact nofun))

theorem Commits.handleCreateGroup (s : GatewayServer) (w : WsId) (name : Units)
    (memberIds : List Units) : Commits s (s.handleCreateGroup w name memberIds) := by
  unfold GatewayServer.handleCreateGroup
  dsimp only
  split
  · exact .sendError ..
  · let op : Operation := .createGroup (s.env.uuid s.draws) (s.env.now s.draws) name
      ((s.sessions w).id :: memberIds).eraseDups
    have hdrawn : op.DrawnAt s.env s.disk.draws := ⟨rfl, rfl⟩
    have hmade : Commits s { s with store := op.run s.store, draws := s.draws + 1 } :=
      .write rfl (.operation hdrawn) rfl
    apply hmade.trans
    refine .foldl fun t id _ => ?_
    split
    · refine .sendTo t _ _ [] fun m hm => ?_
      cases hm
    · exact .refl t

theorem Commits.handleSendMessage (s : GatewayServer) (w : WsId) (target : MessageTarget)
    (text : Units) : Commits s (s.handleSendMessage w target text) := by
  unfold GatewayServer.handleSendMessage
  cases target with
  | everyone =>
    obtain ⟨ha, hm⟩ := Commits.append s w publicConversationId text
    refine (ha.trans (.sendTo _ w _ [] ?_)).trans (.forward ..)
    intro m he _
    exact ServerMessage.message.inj he ▸ hm
  | direct peerId =>
    dsimp only
    split
    · exact .sendError ..
    · exact ((Commits.openDirect ..).trans (Commits.append ..).1).trans (.forward ..)
  | group groupId =>
    dsimp only
    split
    · exact .sendError ..
    · obtain ⟨ha, hm⟩ := Commits.append s w groupId text
      refine ha.trans (.foldl fun t id ht => ?_)
      split
      · refine .sendTo t _ _ [] fun m he _ => ?_
        exact ServerMessage.message.inj he ▸ ht.messages hm
      · exact .refl t

/-- **Handling a message of a client.** -/
theorem Commits.handleClientMessage (s : GatewayServer) (w : WsId) (m : ClientMessage) :
    Commits s (s.handleClientMessage w m) := by
  cases m with
  | setNickname nickname => exact .sendLine ..
  | setPresence presence =>
    have hset : Commits s
        (s.modifySession w fun session => { session with presence := presence }) :=
      .draw rfl rfl le_rfl rfl
    exact hset.trans (.broadcastToAll _ _ none [w] (by exact nofun))
  | requestState => exact .sendTo _ w _ _ (by exact nofun)
  | createGroup name memberIds => exact .handleCreateGroup ..
  | sendMessage target text => exact .handleSendMessage ..
  | register => exact .refl s
  | login => exact .refl s
  | logout => exact .refl s

theorem Commits.announceReady (s : GatewayServer) (w : WsId) : Commits s (s.announceReady w) := by
  unfold GatewayServer.announceReady
  have hready : Commits s (s.modifySession w Session.ready) := .draw rfl rfl le_rfl rfl
  have hsent : Commits s ((s.modifySession w Session.ready).sendReady w) :=
    hready.trans (.sendTo _ w _ _ (by exact nofun))
  have hall := hsent.trans (.broadcastToAll _
    (.userUpdate (((s.modifySession w Session.ready).sendReady w).summarize w))
    (some (((s.modifySession w Session.ready).sendReady w).sessions w).id) [w] nofun)
  have hdrained := hall.trans (.draw (t := GatewayServer.modifySession _ w fun session =>
    { session with pending := [] }) rfl rfl le_rfl rfl)
  exact hdrained.trans (.foldl fun t m _ => .handleClientMessage t w m)

theorem Commits.closeWs (s : GatewayServer) (w : WsId) : Commits s (s.closeWs w) :=
  .draw rfl rfl le_rfl rfl

theorem Commits.onClientRaw (s : GatewayServer) (w : WsId) (n : ℕ) (v : Option Json) :
    Commits s (s.onClientRaw w n v) := by
  unfold GatewayServer.onClientRaw
  split
  · exact .sendError ..
  · split
    · exact .sendError ..
    · split
      · exact .draw rfl rfl le_rfl rfl
      · exact .sendError ..
      · rename_i m _
        have hother (hm : Commits s (s.handleClientMessage w m)) :
            Commits s (if !(s.sessions w).authenticated || !(s.sessions w).welcomed then
              s.modifySession w fun session => { session with pending := session.pending ++ [m] }
              else s.handleClientMessage w m) := by
          split
          · exact .draw rfl rfl le_rfl rfl
          · exact hm
        cases m with
        | register username password =>
          show Commits s (s.handleRegister w username password)
          unfold handleRegister
          dsimp only
          split
          · exact .sendError ..
          · split
            · exact .sendError ..
            · split
              · exact .sendError ..
              · split
                · exact .sendError ..
                · exact .draw rfl rfl (Nat.le_succ _) rfl
        | login username password =>
          show Commits s (s.handleLogin w username password)
          unfold handleLogin
          split
          · exact .sendError ..
          · split
            · exact .sendError ..
            · exact .draw rfl rfl le_rfl rfl
        | logout =>
          show Commits s (s.handleLogout w)
          unfold handleLogout
          split
          · exact .sendError ..
          · exact (Commits.sendTo s w _ [] (by exact nofun)).trans (.closeWs ..)
        | setNickname nickname => exact hother (.handleClientMessage ..)
        | setPresence presence => exact hother (.handleClientMessage ..)
        | requestState => exact hother (.handleClientMessage ..)
        | createGroup name memberIds => exact hother (.handleClientMessage ..)
        | sendMessage target text => exact hother (.handleClientMessage ..)

theorem Commits.finishAuth (s : GatewayServer) (w : WsId) (account : UserRecord) :
    Commits s (s.finishAuth w account) := by
  unfold GatewayServer.finishAuth
  split
  · exact .sendError ..
  · exact .draw rfl rfl le_rfl rfl

theorem Commits.resumeAuth (s : GatewayServer) (w : WsId) (a : Attempt) :
    Commits s (s.resumeAuth w a) := by
  unfold GatewayServer.resumeAuth
  cases a with
  | register username password =>
    dsimp only
    split
    · exact .sendError ..
    · rename_i users hu
      have hinsert : Commits s
          { s with store := { s.store with users := users }, draws := s.draws + 1 } :=
        .write rfl (.register rfl hu) rfl
      exact hinsert.trans (.finishAuth ..)
  | login id username ok =>
    dsimp only
    split
    · exact .finishAuth ..
    · exact .sendError ..

theorem Commits.onConnectFailed (s : GatewayServer) (w : WsId) :
    Commits s (s.onConnectFailed w) :=
  (Commits.sendError s w _ _ none).trans (.draw rfl rfl le_rfl rfl)

theorem Commits.onBackendClosed (s : GatewayServer) (w : WsId) :
    Commits s (s.onBackendClosed w) := by
  unfold GatewayServer.onBackendClosed
  split
  · exact .refl s
  · exact (Commits.sendError ..).trans (.closeWs ..)

theorem Commits.onClientClosed (s : GatewayServer) (w : WsId) :
    Commits s (s.onClientClosed w) := by
  have hleave : Commits s (s.leave w) := by
    rw [leave_eq]
    exact .draw rfl rfl le_rfl rfl
  unfold GatewayServer.onClientClosed
  dsimp only
  split
  · exact .refl s
  · split
    · exact hleave.trans (.broadcastToAll _ _ _ [] (by exact nofun))
    · exact hleave

theorem Commits.renameUser (s : GatewayServer) (userId newUsername : Units) :
    Commits s (s.renameUser userId newUsername) := by
  unfold GatewayServer.renameUser
  cases hr : s.store.users.rename userId newUsername with
  | none => exact .draw rfl rfl le_rfl rfl
  | some users => exact .write rfl (.rename hr) rfl

/-- An event of the chat server. -/
theorem Commits.onBackendEvent (s : GatewayServer) (w : WsId) (e : BackendEvent) :
    Commits s (s.onBackendEvent w e) := by
  unfold GatewayServer.onBackendEvent
  cases e with
  | welcome nickname =>
    show Commits s (s.onWelcome w nickname)
    have hset : Commits s (s.modifySession w fun session => session.welcome nickname) :=
      .draw rfl rfl le_rfl rfl
    unfold onWelcome
    dsimp only
    split
    · exact hset.trans (.sendLine ..)
    · exact hset.trans (.announceReady ..)
  | nick oldNick newNick =>
    show Commits s (s.onNick w oldNick newNick)
    have hset : Commits s (s.modifySession w fun session => session.rename newNick) :=
      .draw rfl rfl le_rfl rfl
    unfold onNick
    dsimp only
    split
    · split
      · exact hset.trans (.announceReady ..)
      · have htold := hset.trans (.broadcastToAll _ (.userUpdate
          ((s.modifySession w fun session => session.rename newNick).summarize w)) none [w] nofun)
        exact htold.trans (.renameUser ..)
    · exact .refl s
  | msg sender text =>
    have hdraw : Commits s { s with draws := s.draws + 1 } := .draw rfl rfl (Nat.le_succ _) rfl
    refine hdraw.trans (.sendTo _ w _ [] fun m he hg => ?_)
    rw [← ServerMessage.message.inj he] at hg
    exact absurd hg not_group_public
  | priv sender text =>
    have hdraw (t : GatewayServer) : Commits t { t with draws := t.draws + 1 } :=
      .draw rfl rfl (Nat.le_succ _) rfl
    refine ((Commits.ensureDirect s _ _).trans (hdraw _)).trans (.sendTo _ w _ [] fun m he hg => ?_)
    rw [← ServerMessage.message.inj he] at hg
    exact absurd hg (not_group_direct _ _)
  | privSent recipient text =>
    have hdraw (t : GatewayServer) : Commits t { t with draws := t.draws + 1 } :=
      .draw rfl rfl (Nat.le_succ _) rfl
    refine ((Commits.ensureDirect s _ _).trans (hdraw _)).trans (.sendTo _ w _ [] fun m he hg => ?_)
    rw [← ServerMessage.message.inj he] at hg
    exact absurd hg (not_group_direct _ _)
  | err code text =>
    dsimp only
    split
    · exact (Commits.sendError ..).trans (.closeWs ..)
    · exact .sendError ..
  | sys text => exact .refl s
  | list count names => exact .refl s
  | unknown line => exact .refl s

/-- **A step of the gateway is a sequence of writes.** -/
theorem step_commits (hs : s.step e = some s') : Commits s s' := by
  have hmodify (t : GatewayServer) (b : BackendId) (f : BackendConnection → BackendConnection) :
      Commits t (t.modifyBackend b f) := .draw rfl rfl le_rfl rfl
  have hif {p : Prop} [Decidable p] {t : GatewayServer}
      (h : (if p then some t else none) = some s') (ht : Commits s t) : Commits s s' := by
    split at h
    · exact Option.some.inj h ▸ ht
    · cases h
  have hunless {p : Prop} [Decidable p] {t : GatewayServer}
      (h : (if p then none else some t) = some s') (ht : Commits s t) : Commits s s' := by
    split at h
    · cases h
    · exact Option.some.inj h ▸ ht
  unfold step at hs
  split at hs
  · cases hs
  · cases e with
    | connection => exact hunless hs (.draw rfl rfl (Nat.le_succ _) rfl)
    | message w n v => exact hif hs (.onClientRaw ..)
    | wsClosing w => exact hif hs (.closeWs ..)
    | wsClose w =>
      have hset : Commits s (s.modifySession w fun session => { session with ws := .closed }) :=
        .draw rfl rfl le_rfl rfl
      exact hif hs (hset.trans (.onClientClosed ..))
    | authDone i =>
      obtain ⟨a, -, rfl⟩ := Option.map_eq_some_iff.mp hs
      have hwake : Commits s { s with hashing := s.hashing.eraseIdx i } := .draw rfl rfl le_rfl rfl
      exact hwake.trans (.resumeAuth ..)
    | connected b => exact hif hs (hmodify ..)
    | connectFailed b => exact hif hs ((hmodify s b _).trans (.onConnectFailed ..))
    | backendFrame b p => exact hif hs (.onBackendEvent ..)
    | backendOversized b => exact hif hs (hmodify ..)
    | backendClose b =>
      refine hif hs ?_
      split
      · exact hmodify ..
      · exact (hmodify s b _).trans (.onBackendClosed ..)
    | shutdown =>
      refine hunless hs ?_
      rw [close_eq]
      exact .draw rfl rfl le_rfl rfl

/-! ### All lives -/

/-- What the gateway has told of groups is in the database. -/
def Honest (env : Env) (s : GatewayServer) : Prop :=
  s.env = env ∧ ∀ x m about, ⟨.message m, about⟩ ∈ s.sent x →
    ConversationKind.group.label <+: m.conversationId → Store.messageRow m ∈ s.store.messages

theorem honest_init (env : Env) (config : GatewayConfig) : Honest env (init env config) :=
  ⟨rfl, fun _ _ _ hm => absurd hm List.not_mem_nil⟩

theorem process_goes (env : Env) : (process env).Goes (Honest env) where
  step {s e s'} h hs := by
    have hc := step_commits hs
    refine ⟨hc.env.trans h.1, ?_⟩
    intro x m about hm hg
    rcases hc.told x m about hm hg with hm | hm
    · exact hc.messages (h.2 x m about hm hg)
    · exact hm
  start := by
    rintro d s ⟨config, rfl⟩
    exact ⟨rfl, fun _ _ _ hm => absurd hm List.not_mem_nil⟩
  writes h hs := h.1 ▸ (step_commits hs).writes

theorem keyed_init (env : Env) (config : GatewayConfig) : Keyed env (init env config).disk where
  stored := .fresh _
  nodup := List.nodup_nil
  message _ hm := absurd hm List.not_mem_nil
  group r hr hk := by
    rw [List.mem_singleton.mp hr] at hk
    cases hk
  account _ hm := absurd hm List.not_mem_nil

/-- **Whenever it is stopped** the gateway keeps the keys apart, and its database grows. -/
theorem keyed_of_lives (hu : Function.Injective env.uuid) (hs : Honest env s)
    (hk : Keyed env s.disk) (h : (process env).Lives s t) :
    Honest env t ∧ Keyed env t.disk ∧ s.store.Grows t.store := by
  refine h.disk (I := fun d => Keyed env d ∧ s.store.Grows d.store) (process_goes env) hs
    ⟨hk, .refl _⟩ ?_ ?_ ?_
  · intro d w d' hd hw
    obtain ⟨hk', hg⟩ := hd.1.writes hu hw
    exact ⟨hk', hd.2.trans hg⟩
  · intro d w d' hd hw
    obtain ⟨hk', hg⟩ := hd.1.tears hu hw
    exact ⟨hk', hd.2.trans hg⟩
  · rintro d v hd ⟨config, rfl⟩
    obtain ⟨hk', hg⟩ := hd.1.reopen (env.now d.draws)
    exact ⟨hk', hd.2.trans hg⟩

/-- **No `INSERT` is refused for its primary key**, in any life: no two messages have one id,
and what is drawn next is not an id of a message, of a group or of an account. -/
theorem keys_are_new {config : GatewayConfig} (hu : Function.Injective env.uuid)
    (h : (process env).Lives (init env config) s) :
    (s.store.messages.map (·.id)).Nodup ∧ ∀ n, s.draws ≤ n →
      env.uuid n ∉ s.store.messages.map (·.id) ∧
      units "group:" ++ env.uuid n ∉ s.store.conversations.rows.map (·.id) ∧
      env.uuid n ∉ s.store.users.ids := by
  obtain ⟨-, hk, -⟩ := keyed_of_lives hu (honest_init env config) (keyed_init env config) h
  exact ⟨hk.nodup, fun n hn => hk.fresh hu hn⟩

/-- The ids of two accounts and of what has arrived since. -/
theorem keys_after_stop : ∃ s, (process .unary).Lives (init .unary {}) s ∧
    (s.store.messages.map (·.id)).Nodup ∧
    List.replicate 2 1 ∉ s.store.users.ids := by
  have hl : (process .unary).Lives (init .unary {}) (boot .unary {} (init .unary {}).disk) :=
    .stop .refl ⟨{}, rfl⟩
  obtain ⟨hn, hk⟩ := keys_are_new Env.uuid_unary hl
  exact ⟨_, hl, hn, (hk 2 le_rfl).2.2⟩

/-- **Nothing is lost.** After a step of the gateway, in any life of it, and in all its later
lives: the database has what it had, every history is in its order, and the groups have their
members; every message of a group that somebody has been told is stored; and so is the text of
every request that the step has forwarded, both as SQLite stores a text. -/
theorem nothing_is_lost {config : GatewayConfig} (hu : Function.Injective env.uuid)
    (h : (process env).Lives (init env config) s) (hs : s.step e = some s')
    (h' : (process env).Lives s' t) :
    s'.store.Grows t.store ∧
      (∀ u, (s'.store.historyForUser u).Sublist (t.store.historyForUser u)) ∧
      (∀ g memberIds, s'.store.getGroup g = some memberIds →
        t.store.getGroup g = some memberIds) ∧
      (∀ x m about, ⟨.message m, about⟩ ∈ s'.sent x →
        ConversationKind.group.label <+: m.conversationId →
          Store.messageRow m ∈ t.store.messages) ∧
      ∃ new, s'.requests = s.requests ++ new ∧
        ∀ r ∈ new, t.Keeps (s'.conversationOf r) (s'.sessions r.sender).id r.text := by
  obtain ⟨hh, hk, -⟩ := keyed_of_lives hu (honest_init env config) (keyed_init env config)
    (h.step hs)
  obtain ⟨-, -, hg⟩ := keyed_of_lives hu hh hk h'
  obtain ⟨-, new, hn, hf⟩ := step_files hs
  refine ⟨hg, hg.historyForUser_sublist, fun g memberIds => hg.extends.getGroup, ?_, new, hn, ?_⟩
  · intro x m about hm hl
    exact hg.messages.subset (hh.2 x m about hm hl)
  · intro r hr
    obtain ⟨m, hm, hkeeps⟩ := hf r hr
    exact ⟨m, hg.messages.subset hm, hkeeps⟩

set_option maxRecDepth 8000 in
/-- A message is sent to all, and the process is stopped. -/
theorem stopped_after_message :
    ∃ s t, (process .unary).Lives (init .unary {}) s ∧ t = boot .unary {} s.disk ∧
      t.Keeps publicConversationId (List.replicate 3 1) (units "hi") := by
  have h : ((execAll step (init .unary {}) twoReady).bind fun s =>
      (step s (.message 0 70 (some (publicMessage "hi")))).map fun s' =>
        (s.requests.length, s'.requests, (s'.sessions 0).id)) =
      some (0, [⟨0, none, units "hi"⟩], List.replicate 3 1) := by decide
  obtain ⟨s, hs, h⟩ := Option.bind_eq_some_iff.mp h
  obtain ⟨s', hs', h⟩ := Option.map_eq_some_iff.mp h
  simp only [Prod.mk.injEq] at h
  obtain ⟨hlen, hreq, hid⟩ := h
  have hl : (process .unary).Lives (init .unary {}) s := Process.lives_of_run (run_of_execAll hs)
  have hstop : (process .unary).Lives s' (boot .unary {} s'.disk) := .stop .refl ⟨{}, rfl⟩
  obtain ⟨-, -, -, -, new, hn, hk⟩ := nothing_is_lost Env.uuid_unary hl hs' hstop
  rw [List.length_eq_zero_iff.mp hlen, hreq, List.nil_append] at hn
  have hkeeps := hk ⟨0, none, units "hi"⟩ (hn ▸ List.mem_cons_self)
  exact ⟨s', _, hl.step hs', rfl, hid ▸ hkeeps⟩

end GatewayServer

end ThreadLink.Gateway
