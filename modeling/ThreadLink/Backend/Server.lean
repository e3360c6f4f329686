import ThreadLink.Backend.Commands
import ThreadLink.Lib.OrdMap
import ThreadLink.Lib.Runs
import Mathlib.Data.List.Sort
import Mathlib.Logic.Function.Basic

/-!
# The chat server as a machine

`src/Server.cpp` serves each client with a thread of its own; the accept thread
takes new connections and, at the end, shuts the server down. The threads share
the registry `clients_` under one mutex and write to sockets outside it. Here the
server is a machine: its state has the registry, the thread list, the descriptor
table of the process, and for each thread the blocks it has still to run; an
action lets one thread run its next block.

## The model

* A descriptor number is free again once it is closed; `::accept` may return any
  free number.
* A frame is written as a whole or not at all. A write that fails breaks the
  connection, and nothing more is written to it. A frame over the size limit is
  not written. A write is a step that can always be taken: that `::send` may wait
  for a client that does not read is said where it matters, in `Shutdown.lean`.
* `recv_frame` returns the next frame the client has sent, or, at any time, that
  the connection has ended (`recvEnd`): a peer may close or reset at any moment.
* The order in which an iteration over `clients_` sees the records is
  unspecified: `rehash` may change it between any two blocks.
* `stage`, `assigned`, `fdOf` and `written` record what happened to each accepted
  connection. The code has no such table (it knows only descriptor numbers), and
  no block reads them, except that `fdOf c` is the argument `fd` the handler thread
  of connection `c` was started with.

Not modelled: the write mutexes (a write is one step here), the log, and what
`select` waits for.
-/

namespace ThreadLink.Backend

open Text Runs

/-- `ClientRecord`, without its write mutex. -/
structure ClientRecord where
  /-- The nickname. -/
  nickname : Bytes
  /-- False until the client's own WELCOME has been sent. -/
  welcomed : Bool
  deriving DecidableEq, Repr

/-- `ThreadEntry`; the thread is named by the connection it was started for. -/
structure ThreadEntry where
  /-- The descriptor number. -/
  fd : Fd
  /-- The thread. -/
  thread : ConnId
  deriving DecidableEq, Repr

/-- How far a connection has come. -/
inductive Stage where
  /-- Not accepted. -/
  | unborn
  /-- Accepted; `accept_one` has not yet decided about it. -/
  | accepted
  /-- Rejected for lack of room. -/
  | rejected
  /-- In the registry, its handler thread not yet started. -/
  | registered
  /-- In the registry, served by its handler thread. -/
  | serving
  /-- Erased from the registry, not yet closed. -/
  | erased
  /-- Closed by the server. -/
  | closed
  deriving DecidableEq, Repr

/-- The state of the server. -/
structure Server where
  /-- `config_`. -/
  config : LoadedConfig
  /-- `running_`. -/
  running : Bool
  /-- `clients_`. -/
  clients : OrdMap Fd ClientRecord
  /-- `client_threads_`. -/
  clientThreads : List ThreadEntry
  /-- The open descriptors of accepted connections. -/
  fds : Fd → Option ConnId
  /-- How many connections have been accepted. -/
  nextConn : ℕ
  /-- What each thread has still to do. -/
  todo : Tid → List Op
  /-- Which handler threads are running. -/
  alive : ConnId → Bool
  /-- The accept loop has been left. -/
  stopping : Bool
  /-- What the clients have sent and the server has not received. -/
  inbox : ConnId → List ClientFrame
  /-- Nothing more can be written to the connection. -/
  broken : ConnId → Bool
  /-- All frames written to a connection, in order. -/
  written : ConnId → List Frame
  /-- The descriptor number of a connection. -/
  fdOf : ConnId → Fd
  /-- How far it has come. -/
  stage : ConnId → Stage
  /-- The default nickname it was assigned. -/
  assigned : ConnId → Option Bytes

namespace Server

/-- The server before its accept loop. -/
def init (config : LoadedConfig) : Server where
  config := config
  running := true
  clients := .empty
  clientThreads := []
  fds _ := none
  nextConn := 0
  todo _ := []
  alive _ := false
  stopping := false
  inbox _ := []
  broken _ := false
  written _ := []
  fdOf _ := -1
  stage _ := .unborn
  assigned _ := none

/-- The nicknames in the registry. -/
def nicknames (s : Server) : List Bytes := s.clients.values.map (·.nickname)

/-- The threads that may have something to do. -/
def threads (s : Server) : List Tid := .main :: (List.range s.nextConn).map .handler

/-- Move the connection behind a descriptor to a stage. -/
def setStage (s : Server) (fd : Fd) (st : Stage) : Server where
  __ := s
  stage :=
    match s.fds fd with
    | some c => Function.update s.stage c st
    | none => s.stage

/-- What the environment chooses for a block. -/
structure Choice where
  /-- What `::accept` returns. -/
  fd : Fd := -1
  /-- Whether the kernel takes a frame. -/
  ok : Bool := true
  deriving DecidableEq, Repr

/-- `send_frame` to a descriptor: the frame goes to whatever connection the
descriptor number stands for. -/
def sendFrame (s : Server) (fd : Fd) (f : Frame) (ok : Bool) : Server :=
  if s.config.1.maxMessageSize < f.line.payload.length then s
  else
    match s.fds fd with
    | none => s
    | some c =>
      if s.broken c then s
      else if ok then { s with written := Function.update s.written c (s.written c ++ [f]) }
      else { s with broken := Function.update s.broken c true }

/-- The frame that rejects a client. -/
def serverFull : Frame :=
  ⟨.err (bytes "SERVER_FULL") (bytes "Server is full, try again later"), .direct, none⟩

/-- The frame that welcomes a client. -/
def welcomeFrame (nickname : Bytes) : Frame := ⟨.welcome nickname, .direct, none⟩

/-- `accept_one`, from the registration on. -/
def register (s : Server) (fd : Fd) (c : ConnId) : Option (Server × List Op) :=
  if s.config.1.maxClients ≤ s.clients.size then
    some ({ s with stage := Function.update s.stage c .rejected },
      [.sendFrame fd serverFull, .closeFd fd])
  else (assignDefaultNickname s.nicknames).map fun nickname =>
    ({ s with
        clients := s.clients.emplace fd ⟨nickname, false⟩
        stage := Function.update s.stage c .registered
        assigned := Function.update s.assigned c (some nickname) },
      [.sendToFd fd (welcomeFrame nickname), .markWelcomed fd, .startThread fd c,
        .broadcast (.sys (nickname ++ bytes " has joined.")) fd (some c) none])

/-- Whom a broadcast goes to. -/
def targets (s : Server) (excludeFd : Fd) : List Fd :=
  (s.clients.entries.filter fun e => e.1 != excludeFd && e.2.welcomed).map Prod.fst

/-- The descriptor of the welcomed client that uses a nickname, `-1` if there is none. -/
def findTarget (s : Server) (target : Bytes) : Fd :=
  match s.clients.entries.find? fun e => e.2.welcomed && e.2.nickname == target with
  | some e => e.1
  | none => -1

/-- Whether another client uses a nickname. -/
def taken (s : Server) (fd : Fd) (newNick : Bytes) : Bool :=
  s.clients.entries.any fun e => e.1 != fd && e.2.nickname == newNick

/-- The locked block of `handle_nick`, run by thread `t`. -/
def renameClient (s : Server) (t : Tid) (fd : Fd) (newNick : Bytes) : Server × List Op :=
  if s.taken fd newNick then
    (s, [sendError fd (bytes "NICK_TAKEN")
      (bytes "Nickname '" ++ newNick ++ bytes "' is already in use")])
  else
    match s.clients.find? fd with
    | none => (s, [])
    | some rec =>
      ({ s with clients := s.clients.modify fd fun r => { r with nickname := newNick } },
        [.broadcast (.nick rec.nickname newNick) (-1) t.conn none])

/-- The locked block of `handle_msg`, run by thread `t`, and what follows it. -/
def routeMsg (s : Server) (t : Tid) (fd : Fd) (target text : Bytes) (serial : Option ℕ) : List Op :=
  match s.clients.find? fd with
  | none => []
  | some rec =>
    let targetFd := s.findTarget target
    if targetFd = -1 then
      [sendError fd (bytes "USER_NOT_FOUND") (bytes "User '" ++ target ++ bytes "' not found")]
    else if targetFd = fd then
      [sendError fd (bytes "MSG_SELF") (bytes "You cannot send a private message to yourself")]
    else
      [.sendToFd targetFd ⟨.priv rec.nickname text, .priv t.conn (s.fds targetFd), serial⟩,
        .sendToFd fd ⟨.privSent target text, .direct, serial⟩]

/-- The locked block of `handle_list`, and what follows it. -/
def listClients (s : Server) (fd : Fd) : List Op :=
  let names := (s.clients.values.filter (·.welcomed)).map (·.nickname)
  [.sendToFd fd ⟨.list (names.insertionSort (· ≤ ·)), .direct, none⟩]

/-- The block of `handle_client` that erases the record, run by thread `t`. -/
def eraseClient (s : Server) (t : Tid) (fd : Fd) : Server × List Op :=
  match s.clients.find? fd with
  | none => (s.setStage fd .erased, [])
  | some rec =>
    ({ s with clients := s.clients.erase fd }.setStage fd .erased,
      if rec.nickname.isEmpty then []
      else [.broadcast (.sys (rec.nickname ++ bytes " has left.")) fd t.conn none])

/-- Run a block of thread `t`: the new state, and the blocks that come before the rest
of what the thread has to do. `none` if the block has to wait. -/
def exec (s : Server) (t : Tid) (ch : Choice) : Op → Option (Server × List Op)
  | .accept =>
    if ch.fd < 0 then some (s, [])
    else if (s.fds ch.fd).isSome then none
    else
      some ({ s with
          nextConn := s.nextConn + 1
          fds := Function.update s.fds ch.fd (some s.nextConn)
          fdOf := Function.update s.fdOf s.nextConn ch.fd
          stage := Function.update s.stage s.nextConn .accepted },
        [.register ch.fd s.nextConn])
  | .register fd c => s.register fd c
  | .markWelcomed fd =>
    some ({ s with clients := s.clients.modify fd fun r => { r with welcomed := true } }, [])
  | .startThread fd c =>
    some ({ s with
        clientThreads := s.clientThreads ++ [⟨fd, c⟩]
        alive := Function.update s.alive c true
        stage := Function.update s.stage c .serving }, [])
  | .sendToFd fd f =>
    match s.clients.find? fd with
    | none => some (s, [])
    | some _ => some (s, [.sendFrame fd f])
  | .sendFrame fd f => some (s.sendFrame fd f ch.ok, [])
  | .broadcast line excludeFd about serial =>
    some (s, (s.targets excludeFd).map fun fd =>
      .sendFrame fd ⟨line, .broadcast about s.nextConn, serial⟩)
  | .handleChat fd line serial =>
    match s.clients.find? fd with
    | none => some (s, [])
    | some rec => some (s, [.broadcast (.msg rec.nickname line) fd t.conn serial])
  | .handleNick fd newNick => some (s.renameClient t fd newNick)
  | .handleMsg fd target text serial => some (s, s.routeMsg t fd target text serial)
  | .handleList fd => some (s, s.listClients fd)
  | .eraseClient fd => some (s.eraseClient t fd)
  | .closeFd fd => some ({ s.setStage fd .closed with fds := Function.update s.fds fd none }, [])
  | .endThread =>
    match t with
    | .main => none
    | .handler c => some ({ s with alive := Function.update s.alive c false }, [])
  | .reap i =>
    match s.clientThreads[i]? with
    | none => some (s, [])
    | some e => some (s, if s.clients.contains e.fd then [.reap (i + 1)] else [.joinEntry i])
  | .joinEntry i =>
    match s.clientThreads[i]? with
    | none => none
    | some e =>
      if s.alive e.thread then none
      else some ({ s with clientThreads := s.clientThreads.eraseIdx i }, [.reap i])
  | .collectFds => some (s, s.clients.keys.map .shutdownFd)
  | .shutdownFd fd =>
    match s.fds fd with
    | none => some (s, [])
    | some c => some ({ s with broken := Function.update s.broken c true }, [])
  | .collectThreads =>
    some ({ s with clientThreads := [] }, s.clientThreads.map fun e => .joinThread e.thread)
  | .joinThread c => if s.alive c then none else some (s, [])
  | .closeListener => some (s, [])

/-- What can happen. -/
inductive Action where
  /-- A pass of the accept loop; `ready` if there is a connection to accept. -/
  | iterate (ready : Bool)
  /-- The accept loop is left: `running_` is false, or `select` failed. -/
  | leaveLoop
  /-- A signal, or `SHUTDOWN` on the console. -/
  | requestShutdown
  /-- A thread runs its next block. -/
  | run (t : Tid) (ch : Choice)
  /-- `recv_frame` returns a frame to a handler thread. -/
  | recv (c : ConnId)
  /-- `recv_frame` returns that the connection has ended. -/
  | recvEnd (c : ConnId)
  /-- The client at the other end of a connection sends a frame. -/
  | arrive (c : ConnId) (f : ClientFrame)
  /-- The order of iteration over `clients_` changes. -/
  | rehash (es : List (Fd × ClientRecord))
  deriving DecidableEq, Repr

/-- `shutdown_all`. -/
def shutdownAll : List Op :=
  [.broadcast (.sys (bytes "Server is shutting down. Goodbye!")) (-1) none none,
    .collectFds, .collectThreads, .closeListener]

/-- One step of the server. -/
def step (s : Server) : Action → Option Server
  | .iterate ready =>
    if s.running && !s.stopping && (s.todo .main).isEmpty then
      some { s with
        todo := Function.update s.todo .main (.reap 0 :: if ready then [.accept] else []) }
    else none
  | .leaveLoop =>
    if !s.stopping && (s.todo .main).isEmpty then
      some { s with stopping := true, todo := Function.update s.todo .main shutdownAll }
    else none
  | .requestShutdown => some { s with running := false }
  | .run t ch =>
    match s.todo t with
    | [] => none
    | op :: rest =>
      (s.exec t ch op).map fun r => { r.1 with todo := Function.update r.1.todo t (r.2 ++ rest) }
  | .recv c =>
    if s.alive c && (s.todo (.handler c)).isEmpty then
      (s.fds (s.fdOf c)).bind fun k =>
        match s.inbox k with
        | [] => none
        | f :: rest =>
          some { s with
            inbox := Function.update s.inbox k rest
            todo := Function.update s.todo (.handler c) (handleFrame s.config.1 (s.fdOf c) f) }
    else none
  | .recvEnd c =>
    if s.alive c && (s.todo (.handler c)).isEmpty then
      some { s with todo := Function.update s.todo (.handler c) (teardown (s.fdOf c)) }
    else none
  | .arrive c f => some { s with inbox := Function.update s.inbox c (s.inbox c ++ [f]) }
  | .rehash es =>
    if h : es.Perm s.clients.entries then some { s with clients := s.clients.permute es h }
      else none

end Server

end ThreadLink.Backend
