import ThreadLink.Lib.Text

/-!
# The chat server: its lines and commands

The C++ server (`src/Server.cpp`) exchanges frames with its clients; the payload
of a frame is a line of bytes. This module has the lines the server says
(`ServerLine`), what it does with a line it is told (`handleLine`), and the
nicknames.

## The model

A function of the server is a sequence of blocks, each of which runs under one
lock or makes one system call; what happens between two blocks is up to the
scheduler. So a function is modelled as the list of the blocks (`Op`) it will
run: `handleLine fd raw` is what the handler thread of descriptor `fd` has to do
after it has received `raw`. `Backend.Server` says what a block does.

A frame carries, besides its line, what it was caused by (`Cause`, `serial`).
This is not in the code; no block reads it. It lets us say which connection a
frame was meant for.
-/

namespace ThreadLink.Backend

open Text

/-- A descriptor number; `-1` is none. -/
abbrev Fd := ℤ

/-- An accepted connection, numbered in the order of acceptance. A descriptor
number may stand for several connections, one after the other. -/
abbrev ConnId := ℕ

/-- The configuration. -/
structure Config where
  /-- TCP listen port. -/
  port : ℤ := 8080
  /-- Simultaneous connections. -/
  maxClients : ℤ := 100
  /-- Frame payload cap, on send and on receive. -/
  maxMessageSize : ℕ := 8192
  /-- Name of the least level that is logged. -/
  logLevel : Bytes := bytes "INFO"

/-- The ranges `load_config` guarantees; the server is only ever built from what it
returns. -/
structure Config.InRange (cfg : Config) : Prop where
  /-- `MIN_PORT` to `MAX_PORT`. -/
  port : 1 ≤ cfg.port ∧ cfg.port ≤ 65535
  /-- `MIN_MAX_CLIENTS` to `MAX_MAX_CLIENTS`. -/
  maxClients : 1 ≤ cfg.maxClients ∧ cfg.maxClients ≤ 10000
  /-- `MIN_MAX_MESSAGE_SIZE` to `MAX_MAX_MESSAGE_SIZE`. -/
  maxMessageSize : 64 ≤ cfg.maxMessageSize ∧ cfg.maxMessageSize ≤ 16 * 1024 * 1024

/-- A configuration in range. -/
abbrev LoadedConfig := { cfg : Config // cfg.InRange }

/-- The built-in defaults are in range. -/
theorem Config.default_inRange : Config.InRange {} :=
  ⟨by decide, by decide, by decide⟩

/-- The configuration without a file, environment or arguments. -/
def LoadedConfig.default : LoadedConfig := ⟨{}, Config.default_inRange⟩

/-! ### What the server says -/

/-- A line of the server. -/
inductive ServerLine where
  /-- `WELCOME <nickname>`. -/
  | welcome (nickname : Bytes)
  /-- `SYS <free text>`. -/
  | sys (text : Bytes)
  /-- `MSG <sender> <text>`. -/
  | msg (sender text : Bytes)
  /-- `PRIV <sender> <text>`. -/
  | priv (sender text : Bytes)
  /-- `PRIV_SENT <recipient> <text>`. -/
  | privSent (recipient text : Bytes)
  /-- `NICK <old> <new>`. -/
  | nick (oldNick newNick : Bytes)
  /-- `LIST <count> <name> ...`. -/
  | list (names : List Bytes)
  /-- `ERR <code> <free text>`. -/
  | err (code text : Bytes)
  deriving DecidableEq, Repr

/-- The payload of a line. -/
def ServerLine.payload : ServerLine → Bytes
  | .welcome n => bytes "WELCOME " ++ n
  | .sys t => bytes "SYS " ++ t
  | .msg s t => bytes "MSG " ++ s ++ bytes " " ++ t
  | .priv s t => bytes "PRIV " ++ s ++ bytes " " ++ t
  | .privSent r t => bytes "PRIV_SENT " ++ r ++ bytes " " ++ t
  | .nick o n => bytes "NICK " ++ o ++ bytes " " ++ n
  | .list ns => bytes "LIST " ++ bytes (toString ns.length) ++ ns.flatMap fun n => bytes " " ++ n
  | .err c t => bytes "ERR " ++ c ++ bytes " " ++ t

/-- What a frame was caused by. -/
inductive Cause where
  /-- A frame for the connection the thread serves or has just accepted. -/
  | direct
  /-- A broadcast about a connection. The set of targets was fixed when `taken`
  connections had been accepted. -/
  | broadcast (about : Option ConnId) (taken : ℕ)
  /-- A private message of connection `sender`; `holder` is the connection that held
  the target nickname when it was looked up. -/
  | priv (sender : Option ConnId) (holder : Option ConnId)
  deriving DecidableEq, Repr

/-- A frame the server sends. -/
structure Frame where
  /-- The line. -/
  line : ServerLine
  /-- What it was caused by. -/
  cause : Cause
  /-- The client frame it answers or relays, where that has a number. -/
  serial : Option ℕ := none
  deriving DecidableEq, Repr

/-- A frame a client sends, numbered where we want to follow it. -/
structure ClientFrame where
  /-- The payload. -/
  payload : Bytes
  /-- The number. -/
  serial : Option ℕ := none
  deriving DecidableEq, Repr

/-! ### Blocks -/

/-- A thread: the accept thread, or the handler thread of a connection. -/
inductive Tid where
  /-- The thread of `run`. -/
  | main
  /-- The thread started for a connection. -/
  | handler (c : ConnId)
  deriving DecidableEq, Repr

/-- The connection a thread serves. -/
def Tid.conn : Tid → Option ConnId
  | .main => none
  | .handler c => some c

/-- A block: what runs under one lock, or one system call. -/
inductive Op where
  /-- `::accept`. -/
  | accept
  /-- `accept_one`, the block that registers the client. -/
  | register (fd : Fd) (c : ConnId)
  /-- `accept_one`, the block that marks the client welcomed. -/
  | markWelcomed (fd : Fd)
  /-- `accept_one`, the block that starts the handler thread. -/
  | startThread (fd : Fd) (c : ConnId)
  /-- `send_to_fd`, the block that looks up the client. -/
  | sendToFd (fd : Fd) (f : Frame)
  /-- `send_frame`, under the client's write mutex. -/
  | sendFrame (fd : Fd) (f : Frame)
  /-- `broadcast`, the block that fixes the targets. -/
  | broadcast (line : ServerLine) (excludeFd : Fd) (about : Option ConnId) (serial : Option ℕ)
  /-- `handle_line`, the block of a chat line. -/
  | handleChat (fd : Fd) (line : Bytes) (serial : Option ℕ)
  /-- `handle_nick`, the locked block. -/
  | handleNick (fd : Fd) (newNick : Bytes)
  /-- `handle_msg`, the locked block. -/
  | handleMsg (fd : Fd) (target text : Bytes) (serial : Option ℕ)
  /-- `handle_list`, the locked block. -/
  | handleList (fd : Fd)
  /-- `handle_client`, the block that erases the record. -/
  | eraseClient (fd : Fd)
  /-- `::close`, in the destructor of a `Socket`. -/
  | closeFd (fd : Fd)
  /-- `handle_client` returns. -/
  | endThread
  /-- `reap_finished_threads`, at an index of `client_threads_`. -/
  | reap (i : ℕ)
  /-- `reap_finished_threads`, the join at an index. -/
  | joinEntry (i : ℕ)
  /-- `shutdown_all`, the block that collects the descriptors. -/
  | collectFds
  /-- `::shutdown`. -/
  | shutdownFd (fd : Fd)
  /-- `shutdown_all`, the block that takes the threads. -/
  | collectThreads
  /-- `shutdown_all`, the join of a thread. -/
  | joinThread (c : ConnId)
  /-- `shutdown_all`, closing the listener. -/
  | closeListener
  deriving DecidableEq, Repr

/-- Where a block will deliver a frame, and which. -/
def Op.delivery : Op → Option (Fd × Frame)
  | .sendToFd fd f => some (fd, f)
  | .sendFrame fd f => some (fd, f)
  | _ => none

/-- The number of the client frame a block comes from, where it has one. -/
def Op.serial : Op → Option ℕ
  | .sendToFd _ f | .sendFrame _ f => f.serial
  | .broadcast _ _ _ serial | .handleChat _ _ serial | .handleMsg _ _ _ serial => serial
  | _ => none

/-- `send_error`. -/
def sendError (fd : Fd) (code text : Bytes) : Op := .sendToFd fd ⟨.err code text, .direct, none⟩

/-! ### Nicknames -/

/-- `MAX_NICKNAME_LENGTH`. -/
def maxNicknameLength : ℕ := 24

/-- `std::isalnum` in the "C" locale. -/
def isalnum (b : UInt8) : Bool :=
  (48 ≤ b.toNat && b.toNat ≤ 57) || (65 ≤ b.toNat && b.toNat ≤ 90) ||
  (97 ≤ b.toNat && b.toNat ≤ 122)

/-- A character a nickname may have: a letter, a digit, `_` or `-`. -/
def isNicknameByte (b : UInt8) : Bool := isalnum b || b == 95 || b == 45

/-- `is_valid_nickname`. -/
def isValidNickname (nick : Bytes) : Bool :=
  !nick.isEmpty && nick.length ≤ maxNicknameLength && nick.all isNicknameByte

/-- The default nickname with number `n`. -/
def defaultNickname (n : ℕ) : Bytes := bytes "User" ++ bytes (toString n)

/-- The loop of `assign_default_nickname_locked` from number `n`, with the number of
rounds it may make. -/
def assignFrom (names : List Bytes) : ℕ → ℕ → Option Bytes
  | 0, _ => none
  | fuel + 1, n =>
    if defaultNickname n ∈ names then assignFrom names fuel (n + 1) else some (defaultNickname n)

/-- `assign_default_nickname_locked`, for the nicknames in use. -/
def assignDefaultNickname (names : List Bytes) : Option Bytes :=
  assignFrom names (names.length + 1) 1

/-! ### What the server is told -/

/-- `split_first`. -/
def splitFirst (s : Bytes) : Bytes × Bytes := Text.splitFirst 32 s

/-- What `std::isspace` is true of in the "C" locale. -/
def isspace (b : UInt8) : Bool := b == 32 || (9 ≤ b.toNat && b.toNat ≤ 13)

/-- The words `iss >> word` extracts one after the other. -/
def words (s : Bytes) : List Bytes := (s.splitOnP isspace).filter fun w => !w.isEmpty

/-- The loop that takes trailing CR and LF off a line. -/
def stripLine (raw : Bytes) : Bytes := raw.rdropWhile fun b => b == 13 || b == 10

/-- What `handle_client` does after its loop. -/
def teardown (fd : Fd) : List Op := [.eraseClient fd, .closeFd fd, .endThread]

/-- `handle_nick`, up to its locked block. -/
def handleNick (fd : Fd) (args : Bytes) : List Op :=
  match words args with
  | _ :: _ :: _ => [sendError fd (bytes "NICK_INVALID") (bytes "Nickname must not contain spaces")]
  | [] => [sendError fd (bytes "NICK_EMPTY") (bytes "Usage: /nick <name>")]
  | [newNick] =>
    if isValidNickname newNick then [.handleNick fd newNick]
    else [sendError fd (bytes "NICK_INVALID")
      (bytes "Nickname must be 1-" ++ bytes (toString maxNicknameLength) ++
        bytes " characters: letters, digits, '_' or '-' only")]

/-- `handle_msg`, up to its locked block. -/
def handleMsg (fd : Fd) (args : Bytes) (serial : Option ℕ) : List Op :=
  let (target, text) := splitFirst args
  if target.isEmpty || text.isEmpty then
    [sendError fd (bytes "MSG_USAGE") (bytes "Usage: /msg <nickname> <message>")]
  else [.handleMsg fd target text serial]

/-- `handle_line`; `/exit` ends the loop of `handle_client`. -/
def handleLine (fd : Fd) (raw : Bytes) (serial : Option ℕ) : List Op :=
  let line := stripLine raw
  if line.isEmpty then []
  else if line.head? = some 47 then
    let (cmd, rest) := splitFirst line
    if cmd = bytes "/nick" then handleNick fd rest
    else if cmd = bytes "/msg" then handleMsg fd rest serial
    else if cmd = bytes "/list" then [.handleList fd]
    else if cmd = bytes "/exit" then teardown fd
    else [sendError fd (bytes "BAD_CMD") (bytes "Unknown command '" ++ cmd ++ bytes "'")]
  else [.handleChat fd line serial]

/-- What `handle_client` does with a frame it has received. -/
def handleFrame (cfg : Config) (fd : Fd) (f : ClientFrame) : List Op :=
  if cfg.maxMessageSize < f.payload.length then
    sendError fd (bytes "FRAME_TOO_LARGE") (bytes "Message exceeds the server's maximum size") ::
      teardown fd
  else handleLine fd f.payload f.serial

example : handleLine 5 (bytes "/nick alice\r\n") none = [.handleNick 5 (bytes "alice")] := by decide

end ThreadLink.Backend
