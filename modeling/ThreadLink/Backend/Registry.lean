import ThreadLink.Backend.Server

/-!
# The registry and the descriptors

Who owns an open descriptor, and which connections are in the registry. A
connection is in the hands of the accept thread until its handler thread is
started, and of that thread until it has closed the descriptor; so the blocks a
thread still has to run say at which stage its connection is (`HandlerTodo`,
`MainTodo`).

## What is proved

* `Inv` holds of every state the server reaches (`inv_of_run`): a descriptor is
  open exactly while its connection is, and a registered descriptor is open.
* `exec_serves` — what a handler thread's block may change while it serves its
  client; `exec_announces` — what a broadcast may.
-/

namespace ThreadLink.Backend

open Text Runs

/-! ### Stages and blocks -/

/-- The descriptor is open. -/
def Stage.Open (st : Stage) : Prop := st ≠ .unborn ∧ st ≠ .closed

/-- The connection is in the hands of the accept thread. -/
def Stage.Early (st : Stage) : Prop := st = .accepted ∨ st = .rejected ∨ st = .registered

/-- The connection has a record in the registry. -/
def Stage.Listed (st : Stage) : Prop := st = .registered ∨ st = .serving

theorem Stage.Early.open {st : Stage} (h : st.Early) : st.Open := by
  rcases h with rfl | rfl | rfl <;> exact ⟨by decide, by decide⟩

/-- A block of a broadcast. -/
def Op.Announces : Op → Prop
  | .broadcast _ _ _ _ => True
  | .sendFrame _ f => ∃ about taken, f.cause = .broadcast about taken
  | _ => False

/-- A block a handler thread runs for the client at `fd`. -/
def Op.Serves (fd : Fd) : Op → Prop
  | .handleChat fd' _ _ | .handleNick fd' _ | .handleMsg fd' _ _ _ | .handleList fd' => fd' = fd
  | .sendToFd fd' f | .sendFrame fd' f => f.cause = .direct → fd' = fd
  | .broadcast _ _ _ _ => True
  | _ => False

/-- A block of the accept loop, after or before `accept_one`, or of `shutdown_all`. -/
def Op.Control : Op → Prop
  | .reap _ | .joinEntry _ | .collectFds | .shutdownFd _ | .collectThreads | .joinThread _
  | .closeListener => True
  | op => op.Announces

theorem Op.Announces.serves {op : Op} (h : op.Announces) (fd : Fd) : op.Serves fd := by
  cases op <;> simp_all [Op.Announces, Op.Serves]
  obtain ⟨a, n, h⟩ := h
  simp [h]

theorem Op.Announces.control {op : Op} (h : op.Announces) : op.Control := by
  cases op <;> simp_all [Op.Announces, Op.Control]

namespace Server

/-! ### What a block changes -/

/-- What a block that serves or announces leaves alone: everything but the nicknames
in the registry and what has been written. -/
structure Mild (s s' : Server) : Prop where
  /-- The configuration. -/
  config : s'.config = s.config
  /-- Open descriptors. -/
  fds : s'.fds = s.fds
  /-- The count of connections. -/
  nextConn : s'.nextConn = s.nextConn
  /-- What the threads have to do. -/
  todo : s'.todo = s.todo
  /-- Running threads. -/
  alive : s'.alive = s.alive
  /-- Descriptor numbers. -/
  fdOf : s'.fdOf = s.fdOf
  /-- Stages. -/
  stage : s'.stage = s.stage
  /-- Assigned names. -/
  assigned : s'.assigned = s.assigned
  /-- Which descriptors have a record, and whether it is welcomed. -/
  welcomed : ∀ fd, (s'.clients.find? fd).map (·.welcomed) = (s.clients.find? fd).map (·.welcomed)

theorem Mild.refl (s : Server) : Mild s s := ⟨rfl, rfl, rfl, rfl, rfl, rfl, rfl, rfl, fun _ => rfl⟩

/-- **What `send_frame` does**: nothing, or it writes the frame to the connection the
descriptor stands for, or it breaks that connection. -/
theorem sendFrame_cases (s : Server) (fd : Fd) (f : Frame) (ok : Bool) :
    s.sendFrame fd f ok = s ∨
    (∃ c, s.fds fd = some c ∧ s.broken c = false ∧
      s.sendFrame fd f ok =
      { s with written := Function.update s.written c (s.written c ++ [f]) }) ∨
    (∃ c, s.fds fd = some c ∧
      s.sendFrame fd f ok = { s with broken := Function.update s.broken c true }) := by
  unfold sendFrame
  by_cases hl : s.config.1.maxMessageSize < f.line.payload.length
  · simp [hl]
  · rw [if_neg hl]
    cases hfd : s.fds fd with
    | none => simp
    | some c =>
      cases hb : s.broken c
      · cases ok <;> simp [hb]
      · simp [hb]

theorem mild_sendFrame (s : Server) (fd : Fd) (f : Frame) (ok : Bool) :
    Mild s (s.sendFrame fd f ok) := by
  rcases s.sendFrame_cases fd f ok with h | ⟨c, -, -, h⟩ | ⟨c, -, h⟩ <;> rw [h]
  · exact .refl s
  · exact ⟨rfl, rfl, rfl, rfl, rfl, rfl, rfl, rfl, fun _ => rfl⟩
  · exact ⟨rfl, rfl, rfl, rfl, rfl, rfl, rfl, rfl, fun _ => rfl⟩

theorem clients_sendFrame (s : Server) (fd : Fd) (f : Frame) (ok : Bool) :
    (s.sendFrame fd f ok).clients = s.clients := by
  rcases s.sendFrame_cases fd f ok with h | ⟨c, -, -, h⟩ | ⟨c, -, h⟩ <;> rw [h]

theorem mild_renameClient (s : Server) (t : Tid) (fd : Fd) (newNick : Bytes) :
    Mild s (s.renameClient t fd newNick).1 := by
  unfold renameClient
  split
  · exact .refl s
  · split
    · exact .refl s
    · refine ⟨rfl, rfl, rfl, rfl, rfl, rfl, rfl, rfl, ?_⟩
      intro fd'
      by_cases h : fd' = fd
      · subst h
        simp [Function.comp_def]
      · simp [h]

theorem find?_renameClient_of_ne (s : Server) (t : Tid) {fd fd' : Fd} (h : fd' ≠ fd)
    (newNick : Bytes) :
    (s.renameClient t fd newNick).1.clients.find? fd' = s.clients.find? fd' := by
  unfold renameClient
  split
  · rfl
  · split
    · rfl
    · simp [h]

variable {s s' : Server} {t : Tid} {ch : Choice} {op : Op} {new : List Op}

/-! ### What a block does -/

/-- What `accept_one` has still to do after the WELCOME frame of `nickname`. -/
def afterWelcome (fd : Fd) (c : ConnId) (nickname : Bytes) : List Op :=
  [.markWelcomed fd, .startThread fd c,
    .broadcast (.sys (nickname ++ bytes " has joined.")) fd (some c) none]

/-- **What a block can come to**, one case for each way through `exec`. -/
inductive Done (s : Server) (t : Tid) (ch : Choice) : Op → Server → List Op → Prop
  /-- `::accept` fails. -/
  | refused : Done s t ch .accept s []
  /-- A connection is accepted, on a descriptor number that is free. -/
  | accepted (hfd : ¬ ch.fd < 0) (hfree : s.fds ch.fd = none) :
    Done s t ch .accept
      { s with
        nextConn := s.nextConn + 1
        fds := Function.update s.fds ch.fd (some s.nextConn)
        fdOf := Function.update s.fdOf s.nextConn ch.fd
        stage := Function.update s.stage s.nextConn .accepted }
      [.register ch.fd s.nextConn]
  /-- There is no room for another client. -/
  | full {fd : Fd} {c : ConnId} (hf : s.config.1.maxClients ≤ s.clients.size) :
    Done s t ch (.register fd c) { s with stage := Function.update s.stage c .rejected }
      [.sendFrame fd serverFull, .closeFd fd]
  /-- A client is registered, under a default nickname. -/
  | registered {fd : Fd} {c : ConnId} {nickname : Bytes}
    (hf : ¬ s.config.1.maxClients ≤ s.clients.size)
    (hn : assignDefaultNickname s.nicknames = some nickname) :
    Done s t ch (.register fd c)
      { s with
        clients := s.clients.emplace fd ⟨nickname, false⟩
        stage := Function.update s.stage c .registered
        assigned := Function.update s.assigned c (some nickname) }
      (.sendToFd fd (welcomeFrame nickname) :: afterWelcome fd c nickname)
  /-- A client is welcomed. -/
  | welcomed {fd : Fd} :
    Done s t ch (.markWelcomed fd)
      { s with clients := s.clients.modify fd fun r => { r with welcomed := true } } []
  /-- A handler thread is started. -/
  | started {fd : Fd} {c : ConnId} :
    Done s t ch (.startThread fd c)
      { s with
        clientThreads := s.clientThreads ++ [⟨fd, c⟩]
        alive := Function.update s.alive c true
        stage := Function.update s.stage c .serving } []
  /-- A frame is for nobody. -/
  | unsent {fd : Fd} {f : Frame} (hr : s.clients.find? fd = none) : Done s t ch (.sendToFd fd f) s []
  /-- A frame is for a client. -/
  | sent {fd : Fd} {f : Frame} {r : ClientRecord} (hr : s.clients.find? fd = some r) :
    Done s t ch (.sendToFd fd f) s [.sendFrame fd f]
  /-- A frame is sent. -/
  | frame {fd : Fd} {f : Frame} : Done s t ch (.sendFrame fd f) (s.sendFrame fd f ch.ok) []
  /-- A frame for each welcomed client is to be sent. -/
  | broadcast {line : ServerLine} {excludeFd : Fd} {about : Option ConnId} {serial : Option ℕ} :
    Done s t ch (.broadcast line excludeFd about serial) s
      ((s.targets excludeFd).map fun fd =>
        .sendFrame fd ⟨line, .broadcast about s.nextConn, serial⟩)
  /-- A chat line is of nobody. -/
  | unsaid {fd : Fd} {line : Bytes} {serial : Option ℕ} (hr : s.clients.find? fd = none) :
    Done s t ch (.handleChat fd line serial) s []
  /-- A chat line is broadcast. -/
  | said {fd : Fd} {line : Bytes} {serial : Option ℕ} {r : ClientRecord}
    (hr : s.clients.find? fd = some r) :
    Done s t ch (.handleChat fd line serial) s [.broadcast (.msg r.nickname line) fd t.conn serial]
  /-- A client is renamed, or told why not. -/
  | renamed {fd : Fd} {newNick : Bytes} :
    Done s t ch (.handleNick fd newNick) (s.renameClient t fd newNick).1
      (s.renameClient t fd newNick).2
  /-- A private message is on its way. -/
  | routed {fd : Fd} {target text : Bytes} {serial : Option ℕ} :
    Done s t ch (.handleMsg fd target text serial) s (s.routeMsg t fd target text serial)
  /-- A client is told who is there. -/
  | listed {fd : Fd} : Done s t ch (.handleList fd) s (s.listClients fd)
  /-- A client is erased. -/
  | erased {fd : Fd} :
    Done s t ch (.eraseClient fd) (s.eraseClient t fd).1 (s.eraseClient t fd).2
  /-- A descriptor is closed. -/
  | closed {fd : Fd} :
    Done s t ch (.closeFd fd)
      { s.setStage fd .closed with fds := Function.update s.fds fd none } []
  /-- A handler thread ends. -/
  | ended {c : ConnId} (ht : t = .handler c) :
    Done s t ch .endThread { s with alive := Function.update s.alive c false } []
  /-- There is no other thread to look at. -/
  | reaped {i : ℕ} (hi : s.clientThreads[i]? = none) : Done s t ch (.reap i) s []
  /-- The client of a thread is there. -/
  | kept {i : ℕ} {e : ThreadEntry} (hi : s.clientThreads[i]? = some e)
    (hc : s.clients.contains e.fd = true) : Done s t ch (.reap i) s [.reap (i + 1)]
  /-- The client of a thread is gone. -/
  | dropped {i : ℕ} {e : ThreadEntry} (hi : s.clientThreads[i]? = some e)
    (hc : s.clients.contains e.fd = false) : Done s t ch (.reap i) s [.joinEntry i]
  /-- A thread is joined and its entry erased. -/
  | joinedEntry {i : ℕ} {e : ThreadEntry} (hi : s.clientThreads[i]? = some e)
    (ha : s.alive e.thread = false) :
    Done s t ch (.joinEntry i) { s with clientThreads := s.clientThreads.eraseIdx i } [.reap i]
  /-- The descriptors are to be shut down. -/
  | collectedFds : Done s t ch .collectFds s (s.clients.keys.map .shutdownFd)
  /-- A descriptor is closed already. -/
  | unshut {fd : Fd} (hfd : s.fds fd = none) : Done s t ch (.shutdownFd fd) s []
  /-- A descriptor is shut down. -/
  | shut {fd : Fd} {c : ConnId} (hfd : s.fds fd = some c) :
    Done s t ch (.shutdownFd fd) { s with broken := Function.update s.broken c true } []
  /-- The threads are to be joined. -/
  | collectedThreads :
    Done s t ch .collectThreads { s with clientThreads := [] }
      (s.clientThreads.map fun e => .joinThread e.thread)
  /-- A thread is joined. -/
  | joinedThread {c : ConnId} (ha : s.alive c = false) : Done s t ch (.joinThread c) s []
  /-- The listening socket is closed. -/
  | closedListener : Done s t ch .closeListener s []

theorem register_full {fd : Fd} {c : ConnId} (hf : s.config.1.maxClients ≤ s.clients.size) :
    s.register fd c = some ({ s with stage := Function.update s.stage c .rejected },
      [.sendFrame fd serverFull, .closeFd fd]) := by
  simp [register, hf]

theorem register_room {fd : Fd} {c : ConnId} (hf : ¬ s.config.1.maxClients ≤ s.clients.size)
    (h : s.register fd c = some (s', new)) :
    ∃ nickname, assignDefaultNickname s.nicknames = some nickname ∧
      s' = { s with
        clients := s.clients.emplace fd ⟨nickname, false⟩
        stage := Function.update s.stage c .registered
        assigned := Function.update s.assigned c (some nickname) } ∧
      new = .sendToFd fd (welcomeFrame nickname) :: afterWelcome fd c nickname := by
  rw [register, if_neg hf] at h
  obtain ⟨nickname, hn, h⟩ := Option.map_eq_some_iff.mp h
  simp only [Prod.mk.injEq] at h
  exact ⟨nickname, hn, h.1.symm, h.2.symm⟩

/-- A block that runs has come to one of these. -/
theorem exec_done (h : s.exec t ch op = some (s', new)) : Done s t ch op s' new := by
  cases op with
  | accept =>
    simp only [exec] at h
    split_ifs at h with hfd hfree
    · cases h
      exact .refused
    · cases h
      exact .accepted hfd (by simpa using hfree)
  | register fd c =>
    by_cases hf : s.config.1.maxClients ≤ s.clients.size
    · simp only [exec, register_full hf] at h
      cases h
      exact .full hf
    · obtain ⟨nickname, hn, rfl, rfl⟩ := register_room hf h
      exact .registered hf hn
  | sendToFd fd f =>
    simp only [exec] at h
    split at h
    · cases h
      exact .unsent ‹_›
    · cases h
      exact .sent ‹_›
  | handleChat fd line serial =>
    simp only [exec] at h
    split at h
    · cases h
      exact .unsaid ‹_›
    · cases h
      exact .said ‹_›
  | endThread =>
    simp only [exec] at h
    split at h
    · cases h
    · cases h
      exact .ended rfl
  | reap i =>
    simp only [exec] at h
    split at h
    · cases h
      exact .reaped ‹_›
    · rename_i e hi
      cases hc : s.clients.contains e.fd with
      | true =>
        rw [hc, if_pos rfl] at h
        cases h
        exact .kept hi hc
      | false =>
        rw [hc, if_neg Bool.false_ne_true] at h
        cases h
        exact .dropped hi hc
  | joinEntry i =>
    simp only [exec] at h
    split at h
    · cases h
    · rename_i e hi
      split_ifs at h with ha
      cases h
      exact .joinedEntry hi (Bool.eq_false_iff.mpr ha)
  | shutdownFd fd =>
    simp only [exec] at h
    split at h
    · cases h
      exact .unshut ‹_›
    · cases h
      exact .shut ‹_›
  | joinThread c =>
    simp only [exec] at h
    split_ifs at h with ha
    cases h
    exact .joinedThread (Bool.eq_false_iff.mpr ha)
  | handleNick fd newNick =>
    have hs := congrArg Prod.fst (Option.some.inj h)
    have hnew := congrArg Prod.snd (Option.some.inj h)
    subst hs hnew
    exact .renamed
  | eraseClient fd =>
    have hs := congrArg Prod.fst (Option.some.inj h)
    have hnew := congrArg Prod.snd (Option.some.inj h)
    subst hs hnew
    exact .erased
  | markWelcomed | startThread | sendFrame | broadcast | handleMsg | handleList | closeFd
  | collectFds | collectThreads | closeListener =>
    cases h
    constructor

/-- **A block of a broadcast** changes no record, and leaves only blocks of the
broadcast to run. -/
theorem exec_announces (hop : op.Announces) (h : s.exec t ch op = some (s', new)) :
    Mild s s' ∧ s'.clients = s.clients ∧ ∀ op' ∈ new, op'.Announces := by
  cases exec_done h with
  | @broadcast line excludeFd about serial =>
    refine ⟨.refl s, rfl, ?_⟩
    intro op' hop'
    obtain ⟨fd, -, rfl⟩ := List.mem_map.mp hop'
    exact ⟨about, s.nextConn, rfl⟩
  | frame => exact ⟨mild_sendFrame .., clients_sendFrame .., by simp⟩
  | _ => simp [Op.Announces] at hop

/-- **A block that serves the client at `fd`** changes no other client's record, and
leaves only blocks that serve it to run. -/
theorem exec_serves {fd : Fd} (hop : op.Serves fd) (h : s.exec t ch op = some (s', new)) :
    Mild s s' ∧ (∀ fd', fd' ≠ fd → s'.clients.find? fd' = s.clients.find? fd') ∧
    ∀ op' ∈ new, op'.Serves fd := by
  cases exec_done h with
  | broadcast =>
    obtain ⟨hm, hc, hn⟩ := exec_announces (by trivial) h
    exact ⟨hm, fun _ _ => by rw [hc], fun op' hop' => (hn op' hop').serves fd⟩
  | unsent | unsaid => exact ⟨.refl s, fun _ _ => rfl, by simp⟩
  | sent => exact ⟨.refl s, fun _ _ => rfl, by simpa [Op.Serves] using hop⟩
  | frame => exact ⟨mild_sendFrame .., fun _ _ => by rw [clients_sendFrame], by simp⟩
  | said => exact ⟨.refl s, fun _ _ => rfl, by simp [Op.Serves]⟩
  | @renamed fd' newNick =>
    obtain rfl : fd' = fd := hop
    refine ⟨mild_renameClient .., fun fd hfd => find?_renameClient_of_ne s t hfd newNick, ?_⟩
    intro op' hop'
    unfold renameClient at hop'
    split at hop'
    · simp only [List.mem_singleton] at hop'
      subst hop'
      simp [sendError, Op.Serves]
    · split at hop'
      · simp at hop'
      · simp only [List.mem_singleton] at hop'
        subst hop'
        trivial
  | @routed fd' target text serial =>
    obtain rfl : fd' = fd := hop
    refine ⟨.refl s, fun _ _ => rfl, ?_⟩
    intro op' hop'
    unfold routeMsg at hop'
    split at hop'
    · simp at hop'
    · simp only at hop'
      split_ifs at hop' <;> simp only [List.mem_cons, List.not_mem_nil, or_false] at hop'
      · subst hop'
        simp [sendError, Op.Serves]
      · subst hop'
        simp [sendError, Op.Serves]
      · rcases hop' with rfl | rfl <;> simp [Op.Serves]
  | @listed fd' =>
    obtain rfl : fd' = fd := hop
    refine ⟨.refl s, fun _ _ => rfl, ?_⟩
    intro op' hop'
    simp only [listClients, List.mem_singleton] at hop'
    subst hop'
    simp [Op.Serves]
  | _ => simp [Op.Serves] at hop

/-! ### The blocks a thread still has to run -/

/-- What the handler thread of a connection has still to do, by the stage of the
connection and whether the thread is running. -/
inductive HandlerTodo (fd : Fd) : Stage → Bool → List Op → Prop
  /-- The thread has not been started. -/
  | unborn : HandlerTodo fd .unborn false []
  | early {st : Stage} (h : st.Early) : HandlerTodo fd st false []
  /-- It serves its client. -/
  | serving {l : List Op} (h : ∀ op ∈ l, op.Serves fd) : HandlerTodo fd .serving true l
  /-- It has left its loop. -/
  | leaving {l : List Op} (h : ∀ op ∈ l, op.Serves fd) :
    HandlerTodo fd .serving true (l ++ teardown fd)
  /-- It has erased the record, and announces that the client has left. -/
  | erased {l : List Op} (h : ∀ op ∈ l, op.Announces) :
      HandlerTodo fd .erased true (l ++ [.closeFd fd, .endThread])
  /-- It has closed the descriptor. -/
  | closed : HandlerTodo fd .closed true [.endThread]
  /-- It has ended, or was never started. -/
  | ended : HandlerTodo fd .closed false []

/-- What `accept_one` has still to do for a connection that has no handler thread
yet. -/
inductive Admit (s : Server) (c : ConnId) : List Op → Prop
  | register (h : s.stage c = .accepted) : Admit s c [.register (s.fdOf c) c]
  | reject (h : s.stage c = .rejected) :
      Admit s c [.sendFrame (s.fdOf c) serverFull, .closeFd (s.fdOf c)]
  | close (h : s.stage c = .rejected) : Admit s c [.closeFd (s.fdOf c)]
  | welcome {nickname : Bytes} (h : s.stage c = .registered) (ha : s.assigned c = some nickname)
      (hr : s.clients.find? (s.fdOf c) = some ⟨nickname, false⟩) :
      Admit s c (.sendToFd (s.fdOf c) (welcomeFrame nickname) :: afterWelcome (s.fdOf c) c nickname)
  | write {nickname : Bytes} (h : s.stage c = .registered) (ha : s.assigned c = some nickname)
      (hr : s.clients.find? (s.fdOf c) = some ⟨nickname, false⟩) :
      Admit s c (.sendFrame (s.fdOf c) (welcomeFrame nickname) ::
        afterWelcome (s.fdOf c) c nickname)
  | mark {nickname : Bytes} (h : s.stage c = .registered) (ha : s.assigned c = some nickname)
      (hr : s.clients.find? (s.fdOf c) = some ⟨nickname, false⟩) :
      Admit s c (afterWelcome (s.fdOf c) c nickname)
  | start {nickname : Bytes} (h : s.stage c = .registered) (ha : s.assigned c = some nickname)
      (hr : s.clients.find? (s.fdOf c) = some ⟨nickname, true⟩) :
      Admit s c (afterWelcome (s.fdOf c) c nickname).tail

/-- What the accept thread has still to do. At most one connection is in its hands. -/
inductive MainTodo (s : Server) : List Op → Prop
  /-- It goes on with its loop, or shuts the server down. -/
  | control {l : List Op} (h : ∀ op ∈ l, op.Control) (he : ∀ c, ¬ (s.stage c).Early) : MainTodo s l
  /-- It is going to accept a connection. -/
  | waiting {l : List Op} (h : ∀ op ∈ l, op.Control) (he : ∀ c, ¬ (s.stage c).Early) :
      MainTodo s (l ++ [.accept])
  /-- It has accepted one. -/
  | admitting {c : ConnId} {l : List Op} (ha : Admit s c l)
      (he : ∀ c', (s.stage c').Early → c' = c) :
      MainTodo s l

/-- **The invariant of the registry.** -/
structure Inv (s : Server) : Prop where
  /-- What the handler threads have to do. -/
  handler : ∀ c, HandlerTodo (s.fdOf c) (s.stage c) (s.alive c) (s.todo (.handler c))
  /-- What the accept thread has to do. -/
  main : MainTodo s (s.todo .main)
  /-- A descriptor is open exactly while the connection it was given to is. -/
  fds_iff : ∀ fd c, s.fds fd = some c ↔ s.fdOf c = fd ∧ (s.stage c).Open
  /-- Descriptor numbers are not negative. -/
  fd_nonneg : ∀ fd c, s.fds fd = some c → 0 ≤ fd
  /-- Connections are numbered in the order of acceptance. -/
  unborn_iff : ∀ c, s.stage c = .unborn ↔ s.nextConn ≤ c
  /-- A record belongs to the connection that has its descriptor. -/
  owner : ∀ fd r, s.clients.find? fd = some r → ∃ c, s.fds fd = some c ∧ (s.stage c).Listed
  /-- A connection has a record from its registration until its handler erases it. -/
  listed : ∀ c, (s.stage c).Listed → ∃ r, s.clients.find? (s.fdOf c) = some r
  /-- A connection whose handler runs has been welcomed. -/
  welcomed : ∀ c r, s.stage c = .serving → s.clients.find? (s.fdOf c) = some r → r.welcomed = true

theorem inv_init (config : LoadedConfig) : Inv (init config) where
  handler _ := .unborn
  main := .control (by simp [init]) fun c h => by rcases h with h | h | h <;> cases h
  fds_iff fd c := by simp [init, Stage.Open]
  fd_nonneg _ _ h := by cases h
  unborn_iff c := by simp [init]
  owner _ _ h := by cases h
  listed c h := by rcases h with h | h <;> cases h
  welcomed c r h := by cases h

namespace Inv

variable (hI : Inv s)
include hI

theorem fds_fdOf {c : ConnId} (h : (s.stage c).Open) : s.fds (s.fdOf c) = some c :=
  (hI.fds_iff _ _).mpr ⟨rfl, h⟩

/-- Two open connections do not share a descriptor number. -/
theorem fdOf_injective {c c' : ConnId} (h : (s.stage c).Open) (h' : (s.stage c').Open)
    (he : s.fdOf c = s.fdOf c') : c = c' := by
  have h1 := hI.fds_fdOf h
  rw [he, hI.fds_fdOf h'] at h1
  exact (Option.some.inj h1).symm

/-- An open connection that is not listed has no record. -/
theorem find?_of_not_listed {c : ConnId} (h : (s.stage c).Open) (hl : ¬ (s.stage c).Listed) :
    s.clients.find? (s.fdOf c) = none := by
  cases hr : s.clients.find? (s.fdOf c) with
  | none => rfl
  | some r =>
    obtain ⟨c', h1, h2⟩ := hI.owner _ r hr
    rw [hI.fds_fdOf h] at h1
    exact absurd (Option.some.inj h1 ▸ h2) hl

theorem not_open_of_none {fd : Fd} (h : s.fds fd = none) {c : ConnId} (hc : s.fdOf c = fd) :
    ¬ (s.stage c).Open := fun ho => by
  rw [(hI.fds_iff fd c).mpr ⟨hc, ho⟩] at h
  cases h

end Inv

/-! ### What one block preserves -/

/-- What a thread has to do is replaced. -/
def setTodo (s : Server) (t : Tid) (l : List Op) : Server :=
  { s with todo := Function.update s.todo t l }

/-- What a thread may have to do. -/
def TodoOk (s : Server) : Tid → List Op → Prop
  | .main, l => MainTodo s l
  | .handler c, l => HandlerTodo (s.fdOf c) (s.stage c) (s.alive c) l

theorem Inv.todoOk (hI : Inv s) : ∀ t, TodoOk s t (s.todo t)
  | .main => hI.main
  | .handler c => hI.handler c

theorem Admit.early {c : ConnId} {l : List Op} (h : Admit s c l) : (s.stage c).Early := by
  cases h <;> simp_all [Stage.Early]

/-- What the accept thread has to do depends on the connection in its hands alone. -/
theorem MainTodo.congr {l : List Op} (h : MainTodo s l)
    (he : ∀ c, (s'.stage c).Early → (s.stage c).Early)
    (hs : ∀ c, (s.stage c).Early → s'.stage c = s.stage c ∧ s'.fdOf c = s.fdOf c ∧
      s'.assigned c = s.assigned c ∧ s'.clients.find? (s.fdOf c) = s.clients.find? (s.fdOf c)) :
    MainTodo s' l := by
  cases h with
  | control h hn => exact .control h fun c hc => hn c (he c hc)
  | waiting h hn => exact .waiting h fun c hc => hn c (he c hc)
  | @admitting c l ha hn =>
    obtain ⟨h1, h2, h3, h4⟩ := hs c ha.early
    refine .admitting ?_ fun c' hc' => hn c' (he c' hc')
    cases ha with
    | register h => rw [← h2]; exact .register (h1.trans h)
    | reject h => rw [← h2]; exact .reject (h1.trans h)
    | close h => rw [← h2]; exact .close (h1.trans h)
    | welcome h ha hr => rw [← h2]; exact .welcome (h1.trans h) (h3.trans ha) (h2 ▸ h4.trans hr)
    | write h ha hr => rw [← h2]; exact .write (h1.trans h) (h3.trans ha) (h2 ▸ h4.trans hr)
    | mark h ha hr => rw [← h2]; exact .mark (h1.trans h) (h3.trans ha) (h2 ▸ h4.trans hr)
    | start h ha hr => rw [← h2]; exact .start (h1.trans h) (h3.trans ha) (h2 ▸ h4.trans hr)

/-- The invariant holds after a change of what one thread has to do. -/
theorem Inv.setTodo_of (hI : ∀ t', t' ≠ t → TodoOk s t' (s.todo t')) {l : List Op}
    (hl : TodoOk s t l) (hf : ∀ fd c, s.fds fd = some c ↔ s.fdOf c = fd ∧ (s.stage c).Open)
    (hn : ∀ fd c, s.fds fd = some c → 0 ≤ fd) (hu : ∀ c, s.stage c = .unborn ↔ s.nextConn ≤ c)
    (ho : ∀ fd r, s.clients.find? fd = some r → ∃ c, s.fds fd = some c ∧ (s.stage c).Listed)
    (hs : ∀ c, (s.stage c).Listed → ∃ r, s.clients.find? (s.fdOf c) = some r)
    (hw : ∀ c r, s.stage c = .serving → s.clients.find? (s.fdOf c) = some r → r.welcomed = true) :
    Inv (s.setTodo t l) := by
  have key : ∀ t', TodoOk s t' ((s.setTodo t l).todo t') := fun t' => by
    by_cases h : t' = t
    · subst h; simpa [setTodo] using hl
    · simpa [setTodo, h] using hI t' h
  exact ⟨fun c => key (.handler c),
    (key .main).congr (fun _ h => h) fun _ _ => ⟨rfl, rfl, rfl, rfl⟩,
    hf, hn, hu, ho, hs, hw⟩

theorem Mild.isSome_find? (hm : Mild s s') (fd : Fd) :
    (s'.clients.find? fd).isSome = (s.clients.find? fd).isSome := by
  have h := congrArg Option.isSome (hm.welcomed fd)
  simpa using h

/-- **A mild block** preserves the invariant. -/
theorem Inv.run_mild (hI : Inv s) (hm : Mild s s')
    (hr : ∀ c, (s.stage c).Early → s'.clients.find? (s.fdOf c) = s.clients.find? (s.fdOf c))
    {l : List Op} (hl : TodoOk s t l) : Inv (s'.setTodo t l) := by
  have hcongr : ∀ t l, TodoOk s t l → TodoOk s' t l := fun t l hl => by
    cases t with
    | main =>
      refine MainTodo.congr hl (fun c h => hm.stage ▸ h) ?_
      intro c hc
      exact ⟨by rw [hm.stage], by rw [hm.fdOf], by rw [hm.assigned], hr c hc⟩
    | handler c => simpa only [TodoOk, hm.stage, hm.fdOf, hm.alive] using hl
  refine .setTodo_of (fun t' _ => hm.todo ▸ hcongr t' _ (hI.todoOk t')) (hcongr t l hl) ?_ ?_
    ?_ ?_ ?_ ?_
  · simpa only [hm.stage, hm.fdOf, hm.fds] using hI.fds_iff
  · simpa only [hm.fds] using hI.fd_nonneg
  · simpa only [hm.stage, hm.nextConn] using hI.unborn_iff
  · intro fd r h
    have h' : (s.clients.find? fd).isSome := by rw [← hm.isSome_find?, h]; rfl
    obtain ⟨r', hr'⟩ := Option.isSome_iff_exists.mp h'
    simpa only [hm.stage, hm.fds] using hI.owner fd r' hr'
  · intro c h
    obtain ⟨r, hr⟩ := hI.listed c (hm.stage ▸ h)
    rw [hm.fdOf]
    exact Option.isSome_iff_exists.mp (by rw [hm.isSome_find?, hr]; rfl)
  · intro c r h hr
    obtain ⟨r', hr'⟩ := hI.listed c (.inr (hm.stage ▸ h))
    rw [hm.fdOf] at hr
    have hw := hm.welcomed (s.fdOf c)
    rw [hr, hr'] at hw
    exact (Option.some.inj hw).trans (hI.welcomed c r' (hm.stage ▸ h) hr')

theorem setStage_of {c : ConnId} {fd : Fd} (h : s.fds fd = some c) (st : Stage) :
    s.setStage fd st = { s with stage := Function.update s.stage c st } := by
  simp [setStage, h]

theorem eraseClient_of {c : ConnId} {fd : Fd} {r : ClientRecord} (h : s.fds fd = some c)
    (hr : s.clients.find? fd = some r) :
    s.eraseClient t fd =
      ({ s with clients := s.clients.erase fd, stage := Function.update s.stage c .erased },
        if r.nickname.isEmpty then []
        else [.broadcast (.sys (r.nickname ++ bytes " has left.")) fd t.conn none]) := by
  simp [eraseClient, hr, setStage, h]

/-- **A block of the accept loop or of `shutdown_all`** is mild. -/
theorem exec_control (hop : op.Control) (h : s.exec t ch op = some (s', new)) :
    Mild s s' ∧ s'.clients = s.clients ∧ ∀ op' ∈ new, op'.Control := by
  have announces (ha : op.Announces) :
      Mild s s' ∧ s'.clients = s.clients ∧ ∀ op' ∈ new, op'.Control :=
    have ⟨hm, hc, hn⟩ := exec_announces ha h
    ⟨hm, hc, fun op' hop' => (hn op' hop').control⟩
  cases exec_done h with
  | broadcast => exact announces hop
  | frame => exact announces hop
  | reaped | unshut | joinedThread | closedListener => exact ⟨.refl s, rfl, by simp⟩
  | kept | dropped => exact ⟨.refl s, rfl, by simp [Op.Control]⟩
  | joinedEntry =>
    exact ⟨⟨rfl, rfl, rfl, rfl, rfl, rfl, rfl, rfl, fun _ => rfl⟩, rfl, by simp [Op.Control]⟩
  | shut => exact ⟨⟨rfl, rfl, rfl, rfl, rfl, rfl, rfl, rfl, fun _ => rfl⟩, rfl, by simp⟩
  | collectedFds =>
    refine ⟨.refl s, rfl, ?_⟩
    intro op' hop'
    obtain ⟨fd, -, rfl⟩ := List.mem_map.mp hop'
    trivial
  | collectedThreads =>
    refine ⟨⟨rfl, rfl, rfl, rfl, rfl, rfl, rfl, rfl, fun _ => rfl⟩, rfl, ?_⟩
    intro op' hop'
    obtain ⟨e, -, rfl⟩ := List.mem_map.mp hop'
    trivial
  | _ => simp [Op.Control, Op.Announces] at hop

/-- **`::accept`**: a new connection gets a free descriptor number. -/
theorem Inv.run_accept (hI : Inv s) (he : ∀ c, ¬ (s.stage c).Early)
    (h : s.exec .main ch .accept = some (s', new)) : Inv (s'.setTodo .main new) := by
  cases exec_done h with
  | refused => exact hI.run_mild (.refl s) (fun _ _ => rfl) (.control (by simp) he)
  | accepted h0 h1 =>
    have hnew : s.stage s.nextConn = .unborn := (hI.unborn_iff _).mpr le_rfl
    -- a connection that is not the new one keeps its stage and its descriptor
    have hne {c : ConnId} (hc : s.stage c ≠ .unborn) : c ≠ s.nextConn := fun h => hc (h ▸ hnew)
    have hlisted {c : ConnId} (hc : (s.stage c).Listed) : c ≠ s.nextConn :=
      hne (by rcases hc with hc | hc <;> rw [hc] <;> decide)
    refine .setTodo_of ?_ ?_ ?_ ?_ ?_ ?_ ?_ ?_
    · intro t' ht'
      cases t' with
      | main => exact absurd rfl ht'
      | handler c =>
        have hc := hI.handler c
        by_cases hcn : c = s.nextConn
        · subst hcn
          rw [hnew] at hc
          simp only [TodoOk, Function.update_self]
          generalize s.todo (.handler s.nextConn) = l at hc ⊢
          generalize s.alive s.nextConn = al at hc ⊢
          cases hc with
          | unborn => exact .early (.inl rfl)
          | early => exact .early (.inl rfl)
        · simpa [TodoOk, hcn] using hc
    · refine .admitting (c := s.nextConn) ?_ ?_
      · have := Admit.register (s := { s with
          nextConn := s.nextConn + 1
          fds := Function.update s.fds ch.fd (some s.nextConn)
          fdOf := Function.update s.fdOf s.nextConn ch.fd
          stage := Function.update s.stage s.nextConn .accepted }) (c := s.nextConn) (by simp)
        simpa using this
      · intro c hc
        by_contra hcn
        simp only [Function.update_of_ne hcn] at hc
        exact he c hc
    · intro fd c
      by_cases hfd : fd = ch.fd
      · subst hfd
        simp only [Function.update_self, Option.some.injEq]
        constructor
        · rintro rfl
          simp [Stage.Open]
        · rintro ⟨h2, h3⟩
          by_contra hcn
          rw [Function.update_of_ne (Ne.symm hcn)] at h2 h3
          exact hI.not_open_of_none h1 h2 h3
      · by_cases hcn : c = s.nextConn
        · subst hcn
          simp only [Function.update_of_ne hfd, Function.update_self]
          constructor
          · intro h2
            exact absurd hnew ((hI.fds_iff _ _).mp h2).2.1
          · rintro ⟨rfl, -⟩
            exact absurd rfl hfd
        · simpa [hfd, hcn] using hI.fds_iff fd c
    · intro fd c
      by_cases hfd : fd = ch.fd
      · subst hfd
        intro _
        exact not_lt.mp h0
      · simpa [hfd] using hI.fd_nonneg fd c
    · intro c
      by_cases hcn : c = s.nextConn
      · subst hcn
        simp
      · have := hI.unborn_iff c
        simp only [Function.update_of_ne hcn, this]
        change s.nextConn ≤ c ↔ s.nextConn + 1 ≤ c
        have := Nat.lt_or_gt_of_ne hcn
        omega
    · intro fd r hfr
      obtain ⟨c, h2, h3⟩ := hI.owner fd r hfr
      have hfd : fd ≠ ch.fd := fun h => by rw [h, h1] at h2; cases h2
      exact ⟨c, by simpa [hfd] using h2, by simpa [hlisted h3] using h3⟩
    · intro c hc
      have hcn : c ≠ s.nextConn := by
        rintro rfl
        rcases hc with hc | hc <;> simp at hc
      simp only [Function.update_of_ne hcn] at hc ⊢
      exact hI.listed c hc
    · intro c r hc hr
      have hcn : c ≠ s.nextConn := by
        rintro rfl
        simp at hc
      simp only [Function.update_of_ne hcn] at hc hr
      exact hI.welcomed c r hc hr

/-- A block that changes one connection only. -/
structure Only (c : ConnId) (s s' : Server) : Prop where
  /-- The count of connections. -/
  nextConn : s'.nextConn = s.nextConn
  /-- What the threads have to do. -/
  todo : s'.todo = s.todo
  /-- Descriptor numbers. -/
  fdOf : s'.fdOf = s.fdOf
  /-- Running threads. -/
  alive : ∀ c', c' ≠ c → s'.alive c' = s.alive c'
  /-- Stages. -/
  stage : ∀ c', c' ≠ c → s'.stage c' = s.stage c'
  /-- Assigned names. -/
  assigned : ∀ c', c' ≠ c → s'.assigned c' = s.assigned c'
  /-- Open descriptors. -/
  fds : ∀ fd, fd ≠ s.fdOf c → s'.fds fd = s.fds fd
  /-- Records. -/
  clients : ∀ fd, fd ≠ s.fdOf c → s'.clients.find? fd = s.clients.find? fd

/-- **A block that changes one connection** preserves the invariant if it leaves that
connection in order. -/
theorem Inv.run_only (hI : Inv s) {c : ConnId} (hc : (s.stage c).Open) (h : Only c s s')
    (hb : s'.stage c ≠ .unborn)
    (hfds : s'.fds (s.fdOf c) = if s'.stage c = .closed then none else some c)
    (hlist : (s'.stage c).Listed ↔ (s'.clients.find? (s.fdOf c)).isSome)
    (hw : ∀ r, s'.stage c = .serving → s'.clients.find? (s.fdOf c) = some r → r.welcomed = true)
    (hmain : t ≠ .main → ¬ (s.stage c).Early ∧ ¬ (s'.stage c).Early)
    (hhandler : t ≠ .handler c →
      HandlerTodo (s.fdOf c) (s'.stage c) (s'.alive c) (s.todo (.handler c)))
    {l : List Op} (hl : TodoOk s' t l) : Inv (s'.setTodo t l) := by
  have hfd {c' : ConnId} (hc' : c' ≠ c) (ho : (s.stage c').Open) : s.fdOf c' ≠ s.fdOf c := fun he =>
    hc' (hI.fdOf_injective ho hc he)
  have hopen {c' : ConnId} (hl : (s.stage c').Listed) : (s.stage c').Open := by
    rcases hl with hl | hl <;> rw [hl] <;> exact ⟨by decide, by decide⟩
  refine .setTodo_of ?_ hl ?_ ?_ ?_ ?_ ?_ ?_
  · intro t' ht'
    rw [h.todo]
    cases t' with
    | main =>
      obtain ⟨h1, h2⟩ := hmain (Ne.symm ht')
      apply hI.main.congr
      · intro c' hc'
        have hne : c' ≠ c := fun he => h2 (he ▸ hc')
        exact h.stage c' hne ▸ hc'
      · intro c' hc'
        have hne : c' ≠ c := fun he => h1 (he ▸ hc')
        exact ⟨h.stage c' hne, by rw [h.fdOf], h.assigned c' hne, h.clients _ (hfd hne hc'.open)⟩
    | handler c' =>
      simp only [TodoOk, h.fdOf]
      by_cases hne : c' = c
      · subst hne
        exact hhandler (Ne.symm ht')
      · rw [h.stage c' hne, h.alive c' hne]
        exact hI.handler c'
  · intro fd c'
    rw [h.fdOf]
    by_cases hfd' : fd = s.fdOf c
    · subst hfd'
      rw [hfds]
      by_cases hne : c' = c
      · subst hne
        by_cases hcl : s'.stage c' = .closed <;> simp [hcl, Stage.Open, hb]
      · rw [h.stage c' hne]
        constructor
        · intro h1
          split_ifs at h1
          exact absurd (Option.some.inj h1).symm hne
        · rintro ⟨h1, h2⟩
          exact absurd h1 (hfd hne h2)
    · rw [h.fds fd hfd', hI.fds_iff]
      by_cases hne : c' = c
      · subst hne
        constructor <;> rintro ⟨h1, -⟩ <;> exact absurd h1.symm hfd'
      · rw [h.stage c' hne]
  · intro fd c' h1
    by_cases hfd' : fd = s.fdOf c
    · exact hI.fd_nonneg fd c (hfd' ▸ hI.fds_fdOf hc)
    · exact hI.fd_nonneg fd c' (h.fds fd hfd' ▸ h1)
  · intro c'
    rw [h.nextConn]
    by_cases hne : c' = c
    · subst hne
      have h1 := hI.unborn_iff c'
      simp [hb, ← h1, hc.1]
    · rw [h.stage c' hne]
      exact hI.unborn_iff c'
  · intro fd r hr
    by_cases hfd' : fd = s.fdOf c
    · subst hfd'
      have h1 := hlist.mpr (by rw [hr]; rfl)
      refine ⟨c, ?_, h1⟩
      rw [hfds, if_neg]
      rcases h1 with h1 | h1 <;> rw [h1] <;> decide
    · rw [h.clients fd hfd'] at hr
      obtain ⟨c', h1, h2⟩ := hI.owner fd r hr
      have hne : c' ≠ c := fun he => hfd' (he ▸ ((hI.fds_iff _ _).mp h1).1.symm)
      exact ⟨c', by rw [h.fds fd hfd', h1], by rw [h.stage c' hne]; exact h2⟩
  · intro c' hl'
    rw [h.fdOf]
    by_cases hne : c' = c
    · subst hne
      exact Option.isSome_iff_exists.mp (hlist.mp hl')
    · rw [h.stage c' hne] at hl'
      rw [h.clients _ (hfd hne (hopen hl'))]
      exact hI.listed c' hl'
  · intro c' r h1 hr
    rw [h.fdOf] at hr
    by_cases hne : c' = c
    · subst hne
      exact hw r h1 hr
    · rw [h.stage c' hne] at h1
      rw [h.clients _ (hfd hne (hopen (.inr h1)))] at hr
      exact hI.welcomed c' r h1 hr

/-- The next block of a handler thread. -/
inductive HandlerNext (fd : Fd) : Stage → Bool → Op → List Op → Prop
  | serves {op : Op} {rest : List Op} (h : op.Serves fd)
      (hr : ∀ new : List Op, (∀ op' ∈ new, op'.Serves fd) →
        HandlerTodo fd .serving true (new ++ rest)) :
      HandlerNext fd .serving true op rest
  | erase : HandlerNext fd .serving true (.eraseClient fd) [.closeFd fd, .endThread]
  | announces {op : Op} {rest : List Op} (h : op.Announces)
      (hr : ∀ new : List Op, (∀ op' ∈ new, op'.Announces) →
        HandlerTodo fd .erased true (new ++ rest)) :
      HandlerNext fd .erased true op rest
  | close : HandlerNext fd .erased true (.closeFd fd) [.endThread]
  | end : HandlerNext fd .closed true .endThread []

theorem HandlerTodo.next {fd : Fd} {st : Stage} {al : Bool} {op : Op} {rest : List Op}
    (h : HandlerTodo fd st al (op :: rest)) : HandlerNext fd st al op rest := by
  generalize hl : op :: rest = l at h
  cases h with
  | unborn | early | ended => cases hl
  | closed => cases hl; exact .end
  | serving h =>
    subst hl
    obtain ⟨h1, h2⟩ := List.forall_mem_cons.mp h
    exact .serves h1 fun new hn => .serving (List.forall_mem_append.mpr ⟨hn, h2⟩)
  | @leaving l h =>
    cases l with
    | nil => cases hl; exact .erase
    | cons op' l =>
      cases hl
      obtain ⟨h1, h2⟩ := List.forall_mem_cons.mp h
      refine .serves h1 ?_
      intro new hn
      rw [List.append_eq, ← List.append_assoc]
      exact .leaving (List.forall_mem_append.mpr ⟨hn, h2⟩)
  | @erased l h =>
    cases l with
    | nil => cases hl; exact .close
    | cons op' l =>
      cases hl
      obtain ⟨h1, h2⟩ := List.forall_mem_cons.mp h
      refine .announces h1 ?_
      intro new hn
      rw [List.append_eq, ← List.append_assoc]
      exact .erased (List.forall_mem_append.mpr ⟨hn, h2⟩)

theorem Stage.not_early_of_eq {st : Stage} (h : st = .serving ∨ st = .erased ∨ st = .closed) :
    ¬ st.Early := by
  rintro (h' | h' | h') <;> rcases h with h | h | h <;> rw [h] at h' <;> cases h'

/-- **A block of a handler thread** preserves the invariant. -/
theorem Inv.run_handler (hI : Inv s) {c : ConnId} {rest : List Op}
    (ht : s.todo (.handler c) = op :: rest) (h : s.exec (.handler c) ch op = some (s', new)) :
    Inv (s'.setTodo (.handler c) (new ++ rest)) := by
  have hn := (ht ▸ hI.handler c).next
  generalize hst : s.stage c = st at hn
  generalize hal : s.alive c = al at hn
  cases hn with
  | serves hop hr =>
    obtain ⟨hm, hc, hnew⟩ := exec_serves hop h
    refine hI.run_mild hm (fun c' hc' => hc _ ?_) ?_
    · intro he
      have := hI.fdOf_injective hc'.open (hst ▸ ⟨by decide, by decide⟩) he
      subst this
      exact Stage.not_early_of_eq (.inl hst) hc'
    · simp only [TodoOk, hst, hal]
      exact hr new hnew
  | announces hop hr =>
    obtain ⟨hm, hc, hnew⟩ := exec_announces hop h
    refine hI.run_mild hm (fun c' _ => by rw [hc]) ?_
    simp only [TodoOk, hst, hal]
    exact hr new hnew
  | erase =>
    have hfd := hI.fds_fdOf (c := c) (hst ▸ ⟨by decide, by decide⟩)
    obtain ⟨r, hr⟩ := hI.listed c (.inr hst)
    simp only [exec, eraseClient_of hfd hr, Option.some.injEq, Prod.mk.injEq] at h
    obtain ⟨h1, h2⟩ := h
    refine hI.run_only (c := c) (hst ▸ ⟨by decide, by decide⟩) ?_ ?_ ?_ ?_ ?_ ?_ (by simp) ?_
    · subst h1
      exact ⟨rfl, rfl, rfl, fun _ _ => rfl,
        fun c' hc' => by simp [hc'], fun _ _ => rfl, fun _ _ => rfl,
        fun fd hfd' => by simp [hfd']⟩
    · subst h1; simp
    · subst h1; simp [hfd]
    · subst h1; simp [Stage.Listed]
    · subst h1; simp
    · subst h1
      simpa [hst] using ⟨Stage.not_early_of_eq (.inl rfl), Stage.not_early_of_eq (.inr (.inl rfl))⟩
    · subst h1
      simp only [TodoOk, Function.update_self, hal]
      refine .erased ?_
      intro op' hop'
      rw [← h2] at hop'
      split_ifs at hop'
      · cases hop'
      · simp only [List.mem_singleton] at hop'
        subst hop'
        trivial
  | close =>
    have hfd := hI.fds_fdOf (c := c) (hst ▸ ⟨by decide, by decide⟩)
    simp only [exec, Option.some.injEq, Prod.mk.injEq] at h
    obtain ⟨h1, rfl⟩ := h
    rw [setStage_of hfd] at h1
    refine hI.run_only (c := c) (hst ▸ ⟨by decide, by decide⟩) ?_ ?_ ?_ ?_ ?_ ?_ (by simp) ?_
    · subst h1
      exact ⟨rfl, rfl, rfl, fun _ _ => rfl, fun c' hc' => by simp [hc'], fun _ _ => rfl,
        fun fd hfd' => by simp [hfd'], fun fd hfd' => rfl⟩
    · subst h1; simp
    · subst h1; simp
    · subst h1
      simp [Stage.Listed, hI.find?_of_not_listed (c := c) (hst ▸ ⟨by decide, by decide⟩)
        (by simp [hst, Stage.Listed])]
    · subst h1; simp
    · subst h1
      simpa [hst]
        using ⟨Stage.not_early_of_eq (.inr (.inl rfl)), Stage.not_early_of_eq (.inr (.inr rfl))⟩
    · subst h1
      simpa only [TodoOk, Function.update_self, hal] using .closed
  | «end» =>
    simp only [exec, Option.some.injEq, Prod.mk.injEq] at h
    obtain ⟨rfl, rfl⟩ := h
    refine .setTodo_of ?_ ?_ hI.fds_iff hI.fd_nonneg hI.unborn_iff hI.owner hI.listed hI.welcomed
    · intro t' ht'
      cases t' with
      | main => exact hI.main.congr (fun _ h => h) fun _ _ => ⟨rfl, rfl, rfl, rfl⟩
      | handler c' =>
        have hne : c' ≠ c := fun he => ht' (he ▸ rfl)
        simpa [TodoOk, hne] using hI.handler c'
    · simp only [TodoOk, Function.update_self, hst]
      exact .ended

/-- Registering a connection. -/
theorem Inv.run_register (hI : Inv s) {c : ConnId} (hc : s.stage c = .accepted)
    (he : ∀ c', (s.stage c').Early → c' = c)
    (h : s.exec .main ch (.register (s.fdOf c) c) = some (s', new)) :
    Inv (s'.setTodo .main new) := by
  have ho : (s.stage c).Open := hc ▸ ⟨by decide, by decide⟩
  have hfd := hI.fds_fdOf ho
  have hn := hI.find?_of_not_listed ho (by simp [hc, Stage.Listed])
  have hto := hI.handler c
  rw [hc] at hto
  generalize hal : s.alive c = al at hto
  generalize htd : s.todo (.handler c) = td at hto
  cases exec_done h with
  | full hf =>
    refine hI.run_only ho ?_ ?_ ?_ ?_ ?_ (by simp) ?_ ?_
    · exact ⟨rfl, rfl, rfl, fun _ _ => rfl,
        fun c' hc' => by simp [hc'], fun _ _ => rfl, fun _ _ => rfl,
        fun _ _ => rfl⟩
    · simp
    · simp [hfd]
    · simp [Stage.Listed, hn]
    · simp
    · intro _
      simp only [Function.update_self]
      cases hto
      simpa [hal, htd] using HandlerTodo.early (.inr (.inl rfl))
    · refine .admitting (c := c) ?_ ?_
      · exact .reject (s := { s with stage := Function.update s.stage c .rejected }) (by simp)
      · intro c' hc'
        by_contra hne
        simp only [Function.update_of_ne hne] at hc'
        exact hne (he c' hc')
  | @registered _ _ nickname hf hnick =>
    have hk : s.fdOf c ∉ s.clients.keys := OrdMap.find?_eq_none.mp hn
    refine hI.run_only ho ?_ ?_ ?_ ?_ ?_ (by simp) ?_ ?_
    · exact ⟨rfl, rfl, rfl, fun _ _ => rfl,
        fun c' hc' => by simp [hc'], fun c' hc' => by simp [hc'],
        fun _ _ => rfl, fun fd hfd' => OrdMap.find?_emplace_of_ne _ hfd' _⟩
    · simp
    · simp [hfd]
    · simp [Stage.Listed, OrdMap.find?_emplace_self hk]
    · simp
    · intro _
      simp only [Function.update_self]
      cases hto
      simpa [hal, htd] using HandlerTodo.early (.inr (.inr rfl))
    · refine .admitting (c := c) ?_ ?_
      · exact Admit.welcome (s := { s with
          clients := s.clients.emplace (s.fdOf c) ⟨nickname, false⟩
          stage := Function.update s.stage c .registered
          assigned := Function.update s.assigned c (some nickname) }) (by simp) (by simp)
          (OrdMap.find?_emplace_self hk _)
      · intro c' hc'
        by_contra hne
        simp only [Function.update_of_ne hne] at hc'
        exact hne (he c' hc')

/-- Closing a rejected connection. -/
theorem Inv.run_reject (hI : Inv s) {c : ConnId} (hc : s.stage c = .rejected)
    (he : ∀ c', (s.stage c').Early → c' = c)
    (h : s.exec .main ch (.closeFd (s.fdOf c)) = some (s', new)) : Inv (s'.setTodo .main new) := by
  have ho : (s.stage c).Open := hc ▸ ⟨by decide, by decide⟩
  have hfd := hI.fds_fdOf ho
  have hto := hI.handler c
  rw [hc] at hto
  generalize hal : s.alive c = al at hto
  generalize htd : s.todo (.handler c) = td at hto
  simp only [exec, setStage_of hfd, Option.some.injEq, Prod.mk.injEq] at h
  obtain ⟨h1, rfl⟩ := h
  refine hI.run_only ho ?_ ?_ ?_ ?_ ?_ (by simp) ?_ ?_
  · subst h1
    exact ⟨rfl, rfl, rfl, fun _ _ => rfl, fun c' hc' => by simp [hc'], fun _ _ => rfl,
      fun fd hfd' => by simp [hfd'], fun _ _ => rfl⟩
  · subst h1; simp
  · subst h1; simp
  · subst h1
    simp [Stage.Listed, hI.find?_of_not_listed ho (by simp [hc, Stage.Listed])]
  · subst h1; simp
  · subst h1
    intro _
    simp only [Function.update_self]
    cases hto
    simpa [hal, htd] using HandlerTodo.ended
  · refine .control (by simp) ?_
    intro c' hc'
    subst h1
    by_cases hne : c' = c
    · subst hne
      simp [Stage.Early] at hc'
    · simp only [Function.update_of_ne hne] at hc'
      exact hne (he c' hc')

/-- Marking a connection welcomed. -/
theorem Inv.run_mark (hI : Inv s) {c : ConnId} {nickname : Bytes} (hc : s.stage c = .registered)
    (ha : s.assigned c = some nickname) (hrec : s.clients.find? (s.fdOf c) = some ⟨nickname, false⟩)
    (he : ∀ c', (s.stage c').Early → c' = c)
    (h : s.exec .main ch (.markWelcomed (s.fdOf c)) = some (s', new)) :
    Inv (s'.setTodo .main (new ++ (afterWelcome (s.fdOf c) c nickname).tail)) := by
  have ho : (s.stage c).Open := hc ▸ ⟨by decide, by decide⟩
  simp only [exec, Option.some.injEq, Prod.mk.injEq] at h
  obtain ⟨h1, rfl⟩ := h
  refine hI.run_only ho ?_ ?_ ?_ ?_ ?_ (by simp) ?_ ?_
  · subst h1
    exact ⟨rfl, rfl, rfl, fun _ _ => rfl, fun _ _ => rfl, fun _ _ => rfl, fun _ _ => rfl,
      fun fd hfd' => by simp [hfd']⟩
  · subst h1; simp [hc]
  · subst h1; simp [hc, hI.fds_fdOf ho]
  · subst h1; simp [hc, Stage.Listed, hrec]
  · subst h1; simp [hc]
  · subst h1
    intro _
    exact hI.handler c
  · subst h1
    refine .admitting (c := c) ?_ he
    exact Admit.start (s := { s with
      clients := s.clients.modify (s.fdOf c) fun r => { r with welcomed := true } }) hc ha
      (by simp [hrec])

/-- Starting the handler thread of a connection. -/
theorem Inv.run_start (hI : Inv s) {c : ConnId} {nickname : Bytes} (hc : s.stage c = .registered)
    (hrec : s.clients.find? (s.fdOf c) = some ⟨nickname, true⟩) {rest : List Op}
    (hr : ∀ op ∈ rest, op.Control) (he : ∀ c', (s.stage c').Early → c' = c)
    (h : s.exec .main ch (.startThread (s.fdOf c) c) = some (s', new)) :
    Inv (s'.setTodo .main (new ++ rest)) := by
  have ho : (s.stage c).Open := hc ▸ ⟨by decide, by decide⟩
  have hto := hI.handler c
  rw [hc] at hto
  generalize hal : s.alive c = al at hto
  generalize htd : s.todo (.handler c) = td at hto
  simp only [exec, Option.some.injEq, Prod.mk.injEq] at h
  obtain ⟨h1, rfl⟩ := h
  refine hI.run_only ho ?_ ?_ ?_ ?_ ?_ (by simp) ?_ ?_
  · subst h1
    exact ⟨rfl, rfl, rfl, fun c' hc' => by simp [hc'], fun c' hc' => by simp [hc'], fun _ _ => rfl,
      fun _ _ => rfl, fun _ _ => rfl⟩
  · subst h1; simp
  · subst h1; simp [hI.fds_fdOf ho]
  · subst h1; simp [Stage.Listed, hrec]
  · subst h1; simp [hrec]
  · subst h1
    intro _
    simp only [Function.update_self]
    cases hto
    simpa [htd] using HandlerTodo.serving (l := []) (by simp)
  · refine .control hr ?_
    intro c' hc'
    subst h1
    by_cases hne : c' = c
    · subst hne
      simp [Stage.Early] at hc'
    · simp only [Function.update_of_ne hne] at hc'
      exact hne (he c' hc')

/-- The next block of the accept thread. -/
inductive MainNext (s : Server) : Op → List Op → Prop
  | control {op : Op} {rest : List Op} (h : op.Control) (he : ∀ c, ¬ (s.stage c).Early)
      (hr : ∀ {s' : Server} {new : List Op}, (∀ op' ∈ new, op'.Control) →
        (∀ c, ¬ (s'.stage c).Early) →
        MainTodo s' (new ++ rest)) : MainNext s op rest
  | accept (he : ∀ c, ¬ (s.stage c).Early) : MainNext s .accept []
  | admission {c : ConnId} {op : Op} {rest : List Op} (ha : Admit s c (op :: rest))
      (he : ∀ c', (s.stage c').Early → c' = c) : MainNext s op rest

theorem MainTodo.next {rest : List Op} (h : MainTodo s (op :: rest)) : MainNext s op rest := by
  generalize hl : op :: rest = l at h
  cases h with
  | control h he =>
    subst hl
    obtain ⟨h1, h2⟩ := List.forall_mem_cons.mp h
    exact .control h1 he fun hn he => .control (List.forall_mem_append.mpr ⟨hn, h2⟩) he
  | @waiting l h he =>
    cases l with
    | nil =>
      cases hl
      exact .accept he
    | cons op' l =>
      cases hl
      obtain ⟨h1, h2⟩ := List.forall_mem_cons.mp h
      refine .control h1 he fun hn he => ?_
      rw [List.append_eq, ← List.append_assoc]
      exact .waiting (List.forall_mem_append.mpr ⟨hn, h2⟩) he
  | admitting ha he => exact .admission (hl ▸ ha) he

theorem Inv.main_next (hI : Inv s) {rest : List Op} (ht : s.todo .main = op :: rest) :
    MainNext s op rest :=
  (ht ▸ hI.main).next

/-- **A block of the accept thread** preserves the invariant. -/
theorem Inv.run_main (hI : Inv s) {rest : List Op} (ht : s.todo .main = op :: rest)
    (h : s.exec .main ch op = some (s', new)) : Inv (s'.setTodo .main (new ++ rest)) := by
  cases hI.main_next ht with
  | control hc he hr =>
    obtain ⟨hm, hcl, hn⟩ := exec_control hc h
    exact hI.run_mild hm (fun _ _ => by rw [hcl]) (hr hn he)
  | accept he =>
    rw [List.append_nil]
    exact hI.run_accept he h
  | @admission c _ _ ha he =>
    have hsend {fd : Fd} {f : Frame} (hop : op = .sendFrame fd f) (hrest : Admit s c rest) :
        Inv (s'.setTodo .main (new ++ rest)) := by
      subst hop
      simp only [exec, Option.some.injEq, Prod.mk.injEq] at h
      obtain ⟨rfl, rfl⟩ := h
      exact hI.run_mild (mild_sendFrame ..) (fun _ _ => by rw [clients_sendFrame])
        (.admitting hrest he)
    cases ha with
    | register hc =>
      rw [List.append_nil]
      exact hI.run_register hc he h
    | reject hc => exact hsend rfl (.close hc)
    | close hc =>
      rw [List.append_nil]
      exact hI.run_reject hc he h
    | welcome hc ha hrec =>
      simp only [exec, hrec, Option.some.injEq, Prod.mk.injEq] at h
      obtain ⟨rfl, rfl⟩ := h
      exact hI.run_mild (.refl s) (fun _ _ => rfl) (.admitting (.write hc ha hrec) he)
    | write hc ha hrec => exact hsend rfl (.mark hc ha hrec)
    | mark hc ha hrec => exact hI.run_mark hc ha hrec he h
    | start hc ha hrec =>
      exact hI.run_start hc hrec (by simp [Op.Control, Op.Announces]) he h

/-! ### What one step preserves -/

/-- The step in which a thread runs its next block. -/
theorem step_run (h : step s (.run t ch) = some s') :
    ∃ op rest s₁ new, s.todo t = op :: rest ∧ s.exec t ch op = some (s₁, new) ∧
      s' = s₁.setTodo t (new ++ rest) := by
  simp only [step] at h
  split at h
  · cases h
  · rename_i op rest ht
    obtain ⟨⟨s₁, new⟩, h1, h2⟩ := Option.map_eq_some_iff.mp h
    exact ⟨op, rest, s₁, new, ht, h1, h2.symm⟩

/-- The step in which a handler thread receives a frame. -/
theorem step_recv {c : ConnId} (h : step s (.recv c) = some s') :
    s.alive c = true ∧ s.todo (.handler c) = [] ∧
      ∃ k f rest, s.fds (s.fdOf c) = some k ∧ s.inbox k = f :: rest ∧ s' = { s with
        inbox := Function.update s.inbox k rest
        todo := Function.update s.todo (.handler c) (handleFrame s.config.1 (s.fdOf c) f) } := by
  simp only [step, Bool.and_eq_true, List.isEmpty_iff, Option.ite_none_right_eq_some] at h
  obtain ⟨⟨ha, ht⟩, h⟩ := h
  obtain ⟨k, hk, h⟩ := Option.bind_eq_some_iff.mp h
  split at h
  · cases h
  · rename_i f rest hin
    exact ⟨ha, ht, k, f, rest, hk, hin, (Option.some.inj h).symm⟩

theorem sendError_serves (fd : Fd) (code text : Bytes) :
    ∀ op ∈ [sendError fd code text], op.Serves fd := by
  simp [sendError, Op.Serves]

theorem handleNick_serves (fd : Fd) (args : Bytes) : ∀ op ∈ handleNick fd args, op.Serves fd := by
  unfold handleNick
  split
  · exact sendError_serves fd _ _
  · exact sendError_serves fd _ _
  · split_ifs
    · simp [Op.Serves]
    · exact sendError_serves fd _ _

theorem handleMsg_serves (fd : Fd) (args : Bytes) (serial : Option ℕ) :
    ∀ op ∈ handleMsg fd args serial, op.Serves fd := by
  unfold handleMsg
  simp only
  split_ifs
  · exact sendError_serves fd _ _
  · simp [Op.Serves]

/-- What a handler thread does with a line serves its client, unless it leaves its
loop. -/
theorem handleLine_serves (fd : Fd) (raw : Bytes) (serial : Option ℕ) :
    (∀ op ∈ handleLine fd raw serial, op.Serves fd) ∨ handleLine fd raw serial = teardown fd := by
  simp only [handleLine]
  by_cases h1 : (stripLine raw).isEmpty
  · rw [if_pos h1]
    exact .inl (by simp)
  rw [if_neg h1]
  by_cases h2 : (stripLine raw).head? = some 47
  · rw [if_pos h2]
    split_ifs
    · exact .inl (handleNick_serves fd _)
    · exact .inl (handleMsg_serves fd _ _)
    · exact .inl (by simp [Op.Serves])
    · exact .inr rfl
    · exact .inl (sendError_serves fd _ _)
  · rw [if_neg h2]
    exact .inl (by simp [Op.Serves])

/-- What a handler thread does with a frame serves its client, and may end with
leaving the loop. -/
theorem handleFrame_serves (cfg : Config) (fd : Fd) (f : ClientFrame) :
    ∃ l, (∀ op ∈ l, op.Serves fd) ∧
      (handleFrame cfg fd f = l ∨ handleFrame cfg fd f = l ++ teardown fd) := by
  unfold handleFrame
  split_ifs
  · exact ⟨_, sendError_serves fd _ _, .inr rfl⟩
  · rcases handleLine_serves fd f.payload f.serial with h | h
    · exact ⟨_, h, .inl rfl⟩
    · exact ⟨[], by simp, .inr h⟩

/-- An accept thread that is between two passes of its loop has no connection in its
hands. -/
theorem Inv.not_early_of_idle (hI : Inv s) (ht : s.todo .main = []) (c : ConnId) :
    ¬ (s.stage c).Early := by
  have hm := ht ▸ hI.main
  generalize hl : ([] : List Op) = l at hm
  cases hm with
  | control _ he => exact he c
  | waiting => simp at hl
  | admitting ha => cases ha <;> simp [afterWelcome] at hl

/-- A handler thread that is waiting for a frame serves its client. -/
theorem Inv.serving_of_idle (hI : Inv s) {c : ConnId} (ha : s.alive c = true)
    (ht : s.todo (.handler c) = []) : s.stage c = .serving := by
  have h := hI.handler c
  rw [ha, ht] at h
  generalize s.stage c = st at h
  generalize hl : ([] : List Op) = l at h
  generalize hal : true = al at h
  cases h with
  | unborn | early | ended => cases hal
  | serving | leaving => rfl
  | erased | closed => simp at hl

/-- What a thread has to do may be replaced, in a state in which the invariant holds. -/
theorem Inv.setTodo (hI : Inv s) {l : List Op} (hl : TodoOk s t l) : Inv (s.setTodo t l) :=
  hI.run_mild (.refl s) (fun _ _ => rfl) hl

/-- A change of what the invariant does not look at. -/
theorem Inv.congr (hI : Inv s) (hm : Mild s s')
    (hc : ∀ fd, s'.clients.find? fd = s.clients.find? fd) : Inv s' := by
  have h := hI.run_mild hm (fun _ _ => hc _) hI.main (t := .main)
  have he : s'.setTodo .main (s.todo .main) = s' := by
    simp [Server.setTodo, ← hm.todo]
  exact he ▸ h

/-- **Every step** preserves the invariant. -/
theorem Inv.step (hI : Inv s) {a : Action} (h : step s a = some s') : Inv s' := by
  cases a with
  | iterate ready =>
    simp only [Server.step, Bool.and_eq_true, List.isEmpty_iff, Option.ite_none_right_eq_some,
      Option.some.injEq] at h
    obtain ⟨⟨-, hc⟩, rfl⟩ := h
    have he := hI.not_early_of_idle hc
    cases ready
    · exact hI.setTodo (t := .main) (.control (by simp [Op.Control]) he)
    · exact hI.setTodo (t := .main) (.waiting (l := [.reap 0]) (by simp [Op.Control]) he)
  | leaveLoop =>
    simp only [Server.step, Bool.and_eq_true, List.isEmpty_iff, Option.ite_none_right_eq_some,
      Option.some.injEq] at h
    obtain ⟨⟨-, hc⟩, rfl⟩ := h
    have hI' : Inv { s with stopping := true } :=
      hI.congr ⟨rfl, rfl, rfl, rfl, rfl, rfl, rfl, rfl, fun _ => rfl⟩ fun _ => rfl
    refine hI'.setTodo (t := .main) (.control ?_ (hI.not_early_of_idle hc))
    simp [shutdownAll, Op.Control, Op.Announces]
  | requestShutdown =>
    cases h
    exact hI.congr ⟨rfl, rfl, rfl, rfl, rfl, rfl, rfl, rfl, fun _ => rfl⟩ fun _ => rfl
  | run t ch =>
    obtain ⟨op, rest, s₁, new, ht, he, rfl⟩ := step_run h
    cases t with
    | main => exact hI.run_main ht he
    | handler c => exact hI.run_handler ht he
  | recv c =>
    obtain ⟨ha, ht, k, f, rest, -, -, rfl⟩ := step_recv h
    have hI' : Inv { s with inbox := Function.update s.inbox k rest } :=
      hI.congr ⟨rfl, rfl, rfl, rfl, rfl, rfl, rfl, rfl, fun _ => rfl⟩ fun _ => rfl
    apply hI'.setTodo (t := .handler c)
    simp only [TodoOk, hI.serving_of_idle ha ht, ha]
    obtain ⟨l, hl, he | he⟩ := handleFrame_serves s.config.1 (s.fdOf c) f
    · rw [he]; exact .serving hl
    · rw [he]; exact .leaving hl
  | recvEnd c =>
    simp only [Server.step, Bool.and_eq_true, List.isEmpty_iff, Option.ite_none_right_eq_some,
      Option.some.injEq] at h
    obtain ⟨hc, rfl⟩ := h
    apply hI.setTodo (t := .handler c)
    simp only [TodoOk, hI.serving_of_idle hc.1 hc.2, hc.1]
    exact .leaving (l := []) (by simp)
  | arrive c f =>
    cases h
    exact hI.congr ⟨rfl, rfl, rfl, rfl, rfl, rfl, rfl, rfl, fun _ => rfl⟩ fun _ => rfl
  | rehash es =>
    simp only [Server.step] at h
    split_ifs at h with he
    simp only [Option.some.injEq] at h
    subst h
    exact hI.congr ⟨rfl, rfl, rfl, rfl, rfl, rfl, rfl, rfl, fun _ => by simp⟩ fun _ => by simp

/-- **The invariant holds of every state the server reaches.** -/
theorem inv_of_run {config : LoadedConfig} (h : Run step (init config) s) : Inv s :=
  h.invariant (inv_init config) fun _ _ _ hI _ hs => hI.step hs

/-! ### Progress -/

theorem exec_isSome_of_serves {t : Tid} {fd : Fd} (h : op.Serves fd) (s : Server) (ch : Choice) :
    (s.exec t ch op).isSome = true := by
  cases op with
  | sendToFd fd' f | handleChat fd' text serial =>
    simp only [exec]
    split <;> rfl
  | sendFrame | broadcast | handleNick | handleMsg | handleList => rfl
  | _ => exact h.elim

/-- **A handler thread can run** while it has something to do: it never waits for another. -/
theorem handler_runs {c : ConnId} (hI : Inv s) (hne : s.todo (.handler c) ≠ []) (ch : Choice) :
    (step s (.run (.handler c) ch)).isSome = true := by
  cases ht : s.todo (.handler c) with
  | nil => exact absurd ht hne
  | cons op rest =>
    have hn := (ht ▸ hI.handler c).next
    have hexec : (s.exec (.handler c) ch op).isSome = true := by
      generalize s.stage c = st at hn
      generalize s.alive c = al at hn
      cases hn with
      | serves h => exact exec_isSome_of_serves h s ch
      | announces h => exact exec_isSome_of_serves (h.serves (s.fdOf c)) s ch
      | erase | close | «end» => rfl
    simp only [step, ht, Option.isSome_map, hexec]

end Server

end ThreadLink.Backend
