import Mathlib.Data.Option.Basic
import ThreadLink.Frontend.ChatState
import ThreadLink.Lib.Runs

/-!
# The transport of the browser

`lib/websocket-client.ts`: one WebSocket after the other, and a timer between them. The browser
runs one event handler after the other, and each runs to its end.

## The model

* `sockets` has the WebSockets that have not fired `close`, also those whose handlers have been
  taken away. The four handlers of a socket are set and taken away together.
* An `error` is fired at a socket that is `CLOSED` from then on, so that nothing but `close`
  follows it. A socket may fire `close` at any time.
* `timers` has what the browser will run, which need not be what `reconnectTimer` says.
* `reports` has the calls of `onStatusChange`, `onEvent` and `onError` since the last event
  began, and what has been given to the socket. The callbacks do not call the client.
* The event of a message has what `parseInbound` makes of it, if it is a text.
* The number of attempts is a count.

Not modelled: the url.

## What is proved

* `steady_of_run` — in every run a socket that has handlers is `this.socket`, at most one timer is
  pending, and none while there is a socket; after `disconnect` nothing happens until `connect`.
-/

namespace ThreadLink.Frontend

open Text Gateway Runs

/-- A WebSocket, numbered in the order of creation. -/
abbrev SocketId := ℕ

/-- A timer, numbered in the order of creation. -/
abbrev TimerId := ℕ

/-- `readyState`. -/
inductive WebSocket.ReadyState where
  /-- `CONNECTING`. -/
  | connecting
  /-- `OPEN`. -/
  | opened
  /-- `CLOSING`. -/
  | closing
  /-- `CLOSED`. -/
  | closed
  deriving DecidableEq, Repr

/-- A WebSocket that has not fired `close`. -/
structure WebSocket where
  /-- Its state. -/
  readyState : WebSocket.ReadyState := .connecting
  /-- It has handlers. -/
  wired : Bool := true
  deriving DecidableEq, Repr

/-- `socket.close()`, if the socket is open or opening. -/
def WebSocket.close (s : WebSocket) : WebSocket :=
  { s with readyState := if s.readyState = .opened ∨ s.readyState = .connecting then .closing
    else s.readyState }

/-- What the client does that can be seen from outside. -/
inductive Report where
  /-- `onStatusChange`. -/
  | status (status : ConnectionStatus)
  /-- `onEvent`. -/
  | event (message : ServerMessage)
  /-- `onError`. -/
  | error (message : Units)
  /-- `socket.send`. -/
  | sent (socket : SocketId) (message : ClientMessage)
  deriving DecidableEq, Repr

/-- `ThreadLinkClient`, with the sockets and the timers of the browser. -/
structure ThreadLinkClient where
  /-- The current socket. -/
  socket : Option SocketId
  /-- The status. -/
  status : ConnectionStatus
  /-- Whether to reconnect. -/
  reconnectEnabled : Bool
  /-- How often. -/
  maxReconnectAttempts : ℕ
  /-- How often it has been tried. -/
  reconnectAttempts : ℕ
  /-- The timer of the next attempt. -/
  reconnectTimer : Option TimerId
  /-- `disconnect` has been called. -/
  intentionalClose : Bool
  /-- The sockets that have not fired `close`. -/
  sockets : OrdMap SocketId WebSocket
  /-- How many have been made. -/
  nextSocket : ℕ
  /-- The pending timers, with the delay in milliseconds. -/
  timers : OrdMap TimerId ℕ
  /-- How many have been made. -/
  nextTimer : ℕ
  /-- What the last event has made it report. -/
  reports : List Report

namespace ThreadLinkClient

/-- The constructor. -/
def init (reconnect : Bool) (maxReconnectAttempts : ℕ) : ThreadLinkClient where
  socket := none
  status := .idle
  reconnectEnabled := reconnect
  maxReconnectAttempts := maxReconnectAttempts
  reconnectAttempts := 0
  reconnectTimer := none
  intentionalClose := false
  sockets := .empty
  nextSocket := 0
  timers := .empty
  nextTimer := 0
  reports := []

/-! ### The methods -/

/-- `setStatus`. -/
def setStatus (c : ThreadLinkClient) (status : ConnectionStatus) : ThreadLinkClient :=
  { c with status := status, reports := c.reports ++ [.status status] }

/-- `onError`. -/
def onError (c : ThreadLinkClient) (message : Units) : ThreadLinkClient :=
  { c with reports := c.reports ++ [.error message] }

/-- `clearReconnectTimer`. -/
def clearReconnectTimer (c : ThreadLinkClient) : ThreadLinkClient :=
  match c.reconnectTimer with
  | none => c
  | some timer => { c with timers := c.timers.erase timer, reconnectTimer := none }

/-- `closeSocket`. -/
def closeSocket (c : ThreadLinkClient) (updateStatus : Bool) : ThreadLinkClient :=
  match c.socket with
  | none => c
  | some id =>
    let c := { c with
      socket := none
      sockets := c.sockets.modify id fun s => { s.close with wired := false } }
    if updateStatus && c.status != .failed then c.setStatus .disconnected else c

/-- `connect`. The constructor of the socket may throw something, which may have a message. -/
def connect (c : ThreadLinkClient) (thrown : Option (Option Units)) : ThreadLinkClient :=
  let c := { c with intentionalClose := false }
  let c := (c.clearReconnectTimer.closeSocket false).setStatus .connecting
  match thrown with
  | some message => (c.setStatus .failed).onError (message.getD (units "Unable to open WebSocket"))
  | none =>
    { c with
      socket := some c.nextSocket
      sockets := c.sockets.insert c.nextSocket {}
      nextSocket := c.nextSocket + 1 }

/-- `disconnect`. -/
def disconnect (c : ThreadLinkClient) : ThreadLinkClient :=
  let c := { c with intentionalClose := true }
  (c.clearReconnectTimer.closeSocket true).setStatus .disconnected

/-- `scheduleReconnect`. -/
def scheduleReconnect (c : ThreadLinkClient) : ThreadLinkClient :=
  let c := c.setStatus .reconnecting
  let c := { c with reconnectAttempts := c.reconnectAttempts + 1 }
  let delay := Nat.min (1000 * Nat.pow 2 (c.reconnectAttempts - 1)) 10000
  { c with
    reconnectTimer := some c.nextTimer
    timers := c.timers.insert c.nextTimer delay
    nextTimer := c.nextTimer + 1 }

/-- The current socket, if it is open. -/
def openSocket (c : ThreadLinkClient) : Option SocketId :=
  c.socket.filter fun id => (c.sockets.find? id).map WebSocket.readyState == some .opened

/-- `send`. It returns whether there is an `openSocket`. -/
def send (c : ThreadLinkClient) (message : ClientMessage) : ThreadLinkClient :=
  match c.openSocket with
  | none => c.onError (units "Not connected to gateway")
  | some id => { c with reports := c.reports ++ [.sent id message] }

/-- `isConnected`. -/
def isConnected (c : ThreadLinkClient) : Bool := c.status == .connected && c.openSocket.isSome

/-! ### The handlers of a socket -/

/-- `onopen`. -/
def onopen (c : ThreadLinkClient) : ThreadLinkClient :=
  let c := { c with reconnectAttempts := 0 }
  c.setStatus .connected

/-- `onmessage`. -/
def onmessage (c : ThreadLinkClient) (parsed : Option ServerMessage) : ThreadLinkClient :=
  match parsed with
  | none => c
  | some message => { c with reports := c.reports ++ [.event message] }

/-- `onerror`. -/
def onerror (c : ThreadLinkClient) : ThreadLinkClient :=
  (if c.status = .connecting then c.setStatus .failed else c).onError
    (units "WebSocket connection error")

/-- `onclose`. -/
def onclose (c : ThreadLinkClient) : ThreadLinkClient :=
  let c := { c with socket := none }
  if c.intentionalClose then c.setStatus .disconnected
  else if c.reconnectEnabled && c.reconnectAttempts < c.maxReconnectAttempts
  then c.scheduleReconnect
  else c.setStatus (if c.reconnectAttempts > 0 then .failed else .disconnected)

/-! ### The machine -/

/-- What can happen. -/
inductive Event where
  /-- `connect` is called. -/
  | connect (thrown : Option (Option Units))
  /-- `disconnect` is called. -/
  | disconnect
  /-- A method is called that sends a message. -/
  | send (message : ClientMessage)
  /-- A socket is open. -/
  | opened (id : SocketId)
  /-- The gateway begins to close a socket. -/
  | closing (id : SocketId)
  /-- A message arrives. -/
  | message (id : SocketId) (parsed : Option ServerMessage)
  /-- A socket fires `error`. -/
  | error (id : SocketId)
  /-- A socket fires `close`. -/
  | close (id : SocketId)
  /-- A timer runs. -/
  | timer (id : TimerId) (thrown : Option (Option Units))
  deriving DecidableEq, Repr

/-- A socket changes its state. -/
def becomes (c : ThreadLinkClient) (id : SocketId) (readyState : WebSocket.ReadyState) :
    ThreadLinkClient :=
  { c with sockets := c.sockets.modify id fun s => { s with readyState := readyState } }

/-- One event. -/
def step (c : ThreadLinkClient) (e : Event) : Option ThreadLinkClient :=
  let c := { c with reports := [] }
  match e with
  | .connect thrown => some (c.connect thrown)
  | .disconnect => some c.disconnect
  | .send message => some (c.send message)
  | .opened id => do
    let s ← c.sockets.find? id
    guard (s.readyState = .connecting)
    let c := c.becomes id .opened
    some (if s.wired then c.onopen else c)
  | .closing id => do
    let s ← c.sockets.find? id
    guard (s.readyState = .opened)
    some (c.becomes id .closing)
  | .message id parsed => do
    let s ← c.sockets.find? id
    guard (s.readyState = .opened)
    some (if s.wired then c.onmessage parsed else c)
  | .error id => do
    let s ← c.sockets.find? id
    guard (s.readyState ≠ .closed)
    let c := c.becomes id .closed
    some (if s.wired then c.onerror else c)
  | .close id => do
    let s ← c.sockets.find? id
    let c := { c with sockets := c.sockets.erase id }
    some (if s.wired then c.onclose else c)
  | .timer id thrown => do
    guard (c.timers.contains id)
    let c := { c with timers := c.timers.erase id }
    some (c.connect thrown)

/-! ### Sockets and timers -/

/-- What holds between the client and the browser. -/
structure Steady (c : ThreadLinkClient) : Prop where
  /-- A socket that has handlers is the current one. -/
  own : ∀ id s, c.sockets.find? id = some s → s.wired → c.socket = some id
  /-- The current one has. -/
  attached : ∀ id, c.socket = some id → ∃ s, c.sockets.find? id = some s ∧ s.wired
  /-- The timer of the next attempt is the only one. -/
  timers : ∀ t, t ∈ c.timers.keys ↔ c.reconnectTimer = some t
  /-- There is none while there is a socket. -/
  alone : ∀ t, c.reconnectTimer = some t → c.socket = none
  /-- It is not tried too often. -/
  attempts : c.reconnectAttempts ≤ c.maxReconnectAttempts

variable {c c' : ThreadLinkClient} {e : Event} {id : SocketId}

/-- No timer is pending. -/
theorem Steady.timers_of_none (h : Steady c) (ht : c.reconnectTimer = none) (t : TimerId) :
    t ∉ c.timers.keys := by
  rw [h.timers, ht]
  exact fun he => by cases he

theorem Steady.timer_of_socket (h : Steady c) (hid : c.socket = some id) :
    c.reconnectTimer = none := by
  by_contra hne
  obtain ⟨t, ht⟩ := Option.ne_none_iff_exists'.mp hne
  exact absurd (hid.symm.trans (h.alone t ht)) (by simp)

theorem Steady.setStatus (h : Steady c) (status : ConnectionStatus) : Steady (c.setStatus status) :=
  ⟨h.own, h.attached, h.timers, h.alone, h.attempts⟩

theorem Steady.onError (h : Steady c) (message : Units) : Steady (c.onError message) :=
  ⟨h.own, h.attached, h.timers, h.alone, h.attempts⟩

theorem Steady.clearReconnectTimer (h : Steady c) :
    Steady c.clearReconnectTimer ∧ c.clearReconnectTimer.reconnectTimer = none := by
  unfold ThreadLinkClient.clearReconnectTimer
  split
  · exact ⟨h, ‹_›⟩
  · rename_i timer ht
    refine ⟨⟨h.own, h.attached, ?_, (fun t he => by cases he), h.attempts⟩, rfl⟩
    intro t
    rw [OrdMap.mem_keys_erase, h.timers, ht]
    refine iff_of_false (fun hm => hm.2 (Option.some.inj hm.1).symm) fun he => by cases he

/-- No socket has handlers after `closeSocket`. -/
theorem Steady.closeSocket (h : Steady c) (updateStatus : Bool) :
    Steady (c.closeSocket updateStatus) ∧ (c.closeSocket updateStatus).socket = none ∧
      (c.closeSocket updateStatus).reconnectTimer = c.reconnectTimer := by
  unfold ThreadLinkClient.closeSocket
  split
  · exact ⟨h, ‹_›, rfl⟩
  · rename_i id hid
    have hclosed : Steady { c with
        socket := none
        sockets := c.sockets.modify id fun s => { s.close with wired := false } } := by
      refine ⟨?_, (fun id' he => by cases he), h.timers, fun _ _ => rfl, h.attempts⟩
      intro id' s hf hw
      exfalso
      by_cases hne : id' = id
      · rw [hne, OrdMap.find?_modify_self, Option.map_eq_some_iff] at hf
        obtain ⟨s', -, rfl⟩ := hf
        cases hw
      · rw [OrdMap.find?_modify_of_ne _ hne] at hf
        exact hne (Option.some.inj ((h.own id' s hf hw).symm.trans hid))
    dsimp only
    split
    · exact ⟨hclosed.setStatus _, rfl, rfl⟩
    · exact ⟨hclosed, rfl, rfl⟩

/-- Both are gone after the two calls with which `connect` and `disconnect` begin. -/
theorem Steady.cleared (h : Steady c) (updateStatus : Bool) :
    Steady (c.clearReconnectTimer.closeSocket updateStatus) ∧
      (c.clearReconnectTimer.closeSocket updateStatus).socket = none ∧
      (c.clearReconnectTimer.closeSocket updateStatus).reconnectTimer = none := by
  obtain ⟨hclear, ht⟩ := h.clearReconnectTimer
  obtain ⟨hclose, hsocket, htimer⟩ := hclear.closeSocket updateStatus
  exact ⟨hclose, hsocket, htimer.trans ht⟩

theorem Steady.connect (h : Steady c) (thrown : Option (Option Units)) :
    Steady (c.connect thrown) := by
  have h0 : Steady { c with intentionalClose := false } :=
    ⟨h.own, h.attached, h.timers, h.alone, h.attempts⟩
  obtain ⟨hclear, hsocket, htimer⟩ := h0.cleared false
  unfold ThreadLinkClient.connect
  dsimp only
  cases thrown with
  | some message => exact ((hclear.setStatus _).setStatus _).onError _
  | none =>
    refine ⟨?_, ?_, hclear.timers, ?_, hclear.attempts⟩
    · intro id s hf hw
      dsimp only at hf ⊢
      rw [OrdMap.find?_insert] at hf
      split at hf
      · rename_i he
        rw [he]
      · exact absurd (hsocket.symm.trans (hclear.own id s hf hw)) (by simp)
    · intro id he
      dsimp only at he
      obtain rfl := Option.some.inj he
      exact ⟨{}, OrdMap.find?_insert_self .., rfl⟩
    · intro t ht
      exact absurd (htimer.symm.trans ht) (by simp)

theorem Steady.disconnect (h : Steady c) : Steady c.disconnect ∧ c.disconnect.socket = none ∧
    c.disconnect.reconnectTimer = none := by
  have h0 : Steady { c with intentionalClose := true } :=
    ⟨h.own, h.attached, h.timers, h.alone, h.attempts⟩
  obtain ⟨hclear, hsocket, htimer⟩ := h0.cleared true
  exact ⟨hclear.setStatus _, hsocket, htimer⟩

theorem Steady.send (h : Steady c) (message : ClientMessage) : Steady (c.send message) := by
  unfold ThreadLinkClient.send
  split
  · exact h.onError _
  · exact ⟨h.own, h.attached, h.timers, h.alone, h.attempts⟩

/-- A socket has handlers or not, whatever its state. -/
theorem Steady.becomes (h : Steady c) (id : SocketId) (readyState : WebSocket.ReadyState) :
    Steady (c.becomes id readyState) := by
  have hfind (id' : SocketId) :
      (c.becomes id readyState).sockets.find? id' = (c.sockets.find? id').map fun s =>
      if id' = id then { s with readyState := readyState } else s := by
    show (c.sockets.modify id _).find? id' = _
    by_cases hne : id' = id
    · rw [hne, OrdMap.find?_modify_self]
      simp only [if_true]
    · rw [OrdMap.find?_modify_of_ne _ hne]
      simp only [if_neg hne, Option.map_id']
  refine ⟨?_, ?_, h.timers, h.alone, h.attempts⟩
  · intro id' s hf hw
    rw [hfind, Option.map_eq_some_iff] at hf
    obtain ⟨s', hf, rfl⟩ := hf
    apply h.own id' s' hf
    split at hw <;> exact hw
  · intro id' he
    obtain ⟨s, hf, hw⟩ := h.attached id' he
    rw [hfind, hf]
    refine ⟨_, rfl, ?_⟩
    split <;> exact hw

theorem Steady.onopen (h : Steady c) : Steady c.onopen :=
  ⟨h.own, h.attached, h.timers, h.alone, Nat.zero_le _⟩

theorem Steady.onmessage (h : Steady c) (parsed : Option ServerMessage) :
    Steady (c.onmessage parsed) := by
  cases parsed with
  | none => exact h
  | some message => exact ⟨h.own, h.attached, h.timers, h.alone, h.attempts⟩

theorem Steady.onerror (h : Steady c) : Steady c.onerror := by
  unfold ThreadLinkClient.onerror
  split
  · exact (h.setStatus _).onError _
  · exact h.onError _

theorem Steady.scheduleReconnect (h : Steady c) (hs : c.socket = none)
    (ht : c.reconnectTimer = none) (ha : c.reconnectAttempts < c.maxReconnectAttempts) :
    Steady c.scheduleReconnect := by
  refine ⟨h.own, h.attached, ?_, fun _ _ => hs, ha⟩
  intro t
  show t ∈ (c.timers.insert c.nextTimer _).keys ↔ some c.nextTimer = some t
  rw [OrdMap.mem_keys_insert, or_iff_left (h.timers_of_none ht t), Option.some_inj, eq_comm]

/-- A socket that has no handlers fires `close`. -/
theorem Steady.erase (h : Steady c) {s : WebSocket} (hf : c.sockets.find? id = some s)
    (hw : ¬ s.wired) : Steady { c with sockets := c.sockets.erase id } := by
  refine ⟨?_, ?_, h.timers, h.alone, h.attempts⟩
  · intro id' s' hf'
    dsimp only at hf'
    rw [OrdMap.find?_erase] at hf'
    split at hf'
    · cases hf'
    · exact h.own id' s' hf'
  · intro id' he
    obtain ⟨s', hf', hw'⟩ := h.attached id' he
    have hne : id' ≠ id := by
      rintro rfl
      rw [hf] at hf'
      exact hw (Option.some.inj hf' ▸ hw')
    exact ⟨s', (OrdMap.find?_erase_of_ne _ hne).trans hf', hw'⟩

/-- The current socket fires `close`. -/
theorem Steady.lose (h : Steady c) (hid : c.socket = some id) :
    Steady { c with sockets := c.sockets.erase id, socket := none } ∧ c.reconnectTimer = none := by
  refine ⟨⟨?_, (fun id' he => by cases he), h.timers, fun _ _ => rfl, h.attempts⟩,
    h.timer_of_socket hid⟩
  intro id' s' hf' hw'
  dsimp only at hf'
  rw [OrdMap.find?_erase] at hf'
  split at hf'
  · cases hf'
  · rename_i hne
    exact absurd (Option.some.inj ((h.own id' s' hf' hw').symm.trans hid)) hne

theorem Steady.onclose (h : Steady c) (hid : c.socket = some id) :
    Steady (onclose { c with sockets := c.sockets.erase id }) := by
  obtain ⟨hlost, ht⟩ := h.lose hid
  unfold ThreadLinkClient.onclose
  dsimp only
  split
  · exact hlost.setStatus _
  · split
    · rename_i ha
      rw [Bool.and_eq_true, decide_eq_true_eq] at ha
      exact hlost.scheduleReconnect rfl ht ha.2
    · exact hlost.setStatus _

/-- `connect` clears the timer that has run, so that it makes no difference who calls it. -/
theorem connect_of_timer {t : TimerId} (ht : c.reconnectTimer = some t)
    (thrown : Option (Option Units)) :
    connect { c with reports := [], timers := c.timers.erase t } thrown =
    connect { c with reports := [] } thrown := by
  have hclear : clearReconnectTimer
    { c with reports := [], timers := c.timers.erase t, intentionalClose := false } =
      clearReconnectTimer { c with reports := [], intentionalClose := false } := by
    unfold clearReconnectTimer
    dsimp only
    rw [ht]
    dsimp only
    rw [OrdMap.erase_erase]
  unfold connect
  dsimp only
  rw [hclear]

/-- What an event does. The state that follows has the reports of this event only. -/
inductive Change (c : ThreadLinkClient) : Event → ThreadLinkClient → Prop where
  /-- `connect` is called. -/
  | connect (thrown : Option (Option Units)) :
    Change c (.connect thrown) (connect { c with reports := [] } thrown)
  /-- `disconnect` is called. -/
  | disconnect : Change c .disconnect (disconnect { c with reports := [] })
  /-- A message is sent. -/
  | send (message : ClientMessage) :
    Change c (.send message) (send { c with reports := [] } message)
  /-- A socket is open. -/
  | opened {id : SocketId} {s : WebSocket} (hf : c.sockets.find? id = some s)
      (hr : s.readyState = .connecting) :
    Change c (.opened id) (if s.wired then (becomes { c with reports := [] } id .opened).onopen
      else becomes { c with reports := [] } id .opened)
  /-- A socket begins to close. -/
  | closing {id : SocketId} {s : WebSocket} (hf : c.sockets.find? id = some s)
      (hr : s.readyState = .opened) :
    Change c (.closing id) (becomes { c with reports := [] } id .closing)
  /-- A message arrives. -/
  | message {id : SocketId} {s : WebSocket} (hf : c.sockets.find? id = some s)
    (hr : s.readyState = .opened)
    (parsed : Option ServerMessage) :
    Change c (.message id parsed)
      (if s.wired then onmessage { c with reports := [] } parsed else { c with reports := [] })
  /-- A socket fires `error`. -/
  | error {id : SocketId} {s : WebSocket} (hf : c.sockets.find? id = some s)
      (hr : s.readyState ≠ .closed) :
    Change c (.error id) (if s.wired then (becomes { c with reports := [] } id .closed).onerror
      else becomes { c with reports := [] } id .closed)
  /-- A socket fires `close`. -/
  | close {id : SocketId} {s : WebSocket} (hf : c.sockets.find? id = some s) :
    Change c (.close id)
      (if s.wired then onclose { c with reports := [], sockets := c.sockets.erase id }
      else { c with reports := [], sockets := c.sockets.erase id })
  /-- A timer runs. -/
  | timer {id : TimerId} (ht : id ∈ c.timers.keys) (thrown : Option (Option Units)) :
    Change c (.timer id thrown)
      (connect { c with reports := [], timers := c.timers.erase id } thrown)

theorem change_of_step (h : step c e = some c') : Change c e c' := by
  cases e with
  | connect thrown =>
    cases h
    exact .connect thrown
  | disconnect =>
    cases h
    exact .disconnect
  | send message =>
    cases h
    exact .send message
  | opened id =>
    obtain ⟨s, hf, h⟩ := Option.bind_eq_some_iff.mp h
    obtain ⟨u, hr, h⟩ := Option.bind_eq_some_iff.mp h
    cases h
    exact .opened hf ((Option.guard_eq_some' _).mp hr)
  | closing id =>
    obtain ⟨s, hf, h⟩ := Option.bind_eq_some_iff.mp h
    obtain ⟨u, hr, h⟩ := Option.bind_eq_some_iff.mp h
    cases h
    exact .closing hf ((Option.guard_eq_some' _).mp hr)
  | message id parsed =>
    obtain ⟨s, hf, h⟩ := Option.bind_eq_some_iff.mp h
    obtain ⟨u, hr, h⟩ := Option.bind_eq_some_iff.mp h
    cases h
    exact @Change.message c id s hf ((Option.guard_eq_some' _).mp hr) parsed
  | error id =>
    obtain ⟨s, hf, h⟩ := Option.bind_eq_some_iff.mp h
    obtain ⟨u, hr, h⟩ := Option.bind_eq_some_iff.mp h
    cases h
    exact .error hf ((Option.guard_eq_some' _).mp hr)
  | close id =>
    obtain ⟨s, hf, h⟩ := Option.bind_eq_some_iff.mp h
    cases h
    exact .close hf
  | timer id thrown =>
    obtain ⟨u, ht, h⟩ := Option.bind_eq_some_iff.mp h
    cases h
    exact @Change.timer c id (OrdMap.contains_iff.mp ((Option.guard_eq_some' _).mp ht)) thrown

theorem steady_init (reconnect : Bool) (maxReconnectAttempts : ℕ) :
    Steady (init reconnect maxReconnectAttempts) := by
  refine ⟨?_, ?_, ?_, ?_, Nat.zero_le _⟩
  · intro id s hf
    cases hf
  · intro id he
    cases he
  · intro t
    exact iff_of_false (by intro h; cases h) (by intro h; cases h)
  · intro t he
    cases he

/-- **One event.** -/
theorem Steady.step (h : Steady c) (hs : step c e = some c') : Steady c' := by
  have h0 : Steady { c with reports := [] } := ⟨h.own, h.attached, h.timers, h.alone, h.attempts⟩
  cases change_of_step hs with
  | connect thrown => exact h0.connect thrown
  | disconnect => exact h0.disconnect.1
  | send message => exact h0.send message
  | opened hf hr =>
    split
    · exact (h0.becomes _ _).onopen
    · exact h0.becomes _ _
  | closing hf hr => exact h0.becomes _ _
  | message hf hr parsed =>
    split
    · exact h0.onmessage parsed
    · exact h0
  | error hf hr =>
    split
    · exact (h0.becomes _ _).onerror
    · exact h0.becomes _ _
  | close hf =>
    split
    · rename_i hw
      exact h0.onclose (h.own _ _ hf hw)
    · rename_i hw
      exact h0.erase hf hw
  | timer ht thrown =>
    rw [connect_of_timer ((h.timers _).mp ht)]
    exact h0.connect thrown

/-! ### After `disconnect` -/

/-- The event is not a call of `connect`. -/
def Event.Idle : Event → Prop
  | .connect _ => False
  | _ => True

instance decidableIdle (e : Event) : Decidable e.Idle :=
  match e with
  | .connect _ => isFalse fun h => h
  | .disconnect | .send _ | .opened _ | .closing _ | .message _ _ | .error _ | .close _
  | .timer _ _ => isTrue trivial

/-- Nothing can happen. -/
structure Silent (n : ℕ) (c : ThreadLinkClient) : Prop where
  /-- The invariant. -/
  steady : Steady c
  /-- There is no socket. -/
  socket : c.socket = none
  /-- No timer is pending. -/
  timer : c.reconnectTimer = none
  /-- The status says so. -/
  status : c.status = .disconnected
  /-- No socket has been made. -/
  made : c.nextSocket = n

theorem nextSocket_cleared (c : ThreadLinkClient) (updateStatus : Bool) :
    (c.clearReconnectTimer.closeSocket updateStatus).nextSocket = c.nextSocket := by
  have hclear : c.clearReconnectTimer.nextSocket = c.nextSocket := by
    unfold clearReconnectTimer
    split <;> rfl
  unfold closeSocket
  split
  · exact hclear
  · dsimp only
    split
    · exact hclear
    · exact hclear

theorem silent_of_disconnect (h : Steady c) : Silent c.nextSocket c.disconnect := by
  obtain ⟨hsteady, hsocket, htimer⟩ := h.disconnect
  exact ⟨hsteady, hsocket, htimer, rfl, nextSocket_cleared { c with intentionalClose := true } true⟩

/-- What an event reports of which nobody is told: that a message cannot be sent, or, when
`disconnect` is called once more, the same status. -/
def Quiet (e : Event) (reports : List Report) : Prop :=
  ∀ r ∈ reports, (∃ message, r = .error message) ∨ e = .disconnect ∧ r = .status .disconnected

/-- **One event after `disconnect`.** -/
theorem Silent.step {n : ℕ} (h : Silent n c) (he : e.Idle) (hs : step c e = some c') :
    Silent n c' ∧ Quiet e c'.reports := by
  have hunwired {id : SocketId} {s : WebSocket} (hf : c.sockets.find? id = some s) : ¬ s.wired := by
    intro hw
    exact absurd (h.socket.symm.trans (h.steady.own id s hf hw)) (by simp)
  have hsteady : Steady c' := h.steady.step hs
  have hnone : Quiet e [] := fun r hr => by cases hr
  cases change_of_step hs with
  | connect thrown => exact absurd he id
  | disconnect =>
    have hreports : (disconnect { c with reports := [] }).reports = [.status .disconnected] := by
      unfold disconnect clearReconnectTimer closeSocket
      dsimp only
      rw [h.timer]
      dsimp only
      rw [h.socket]
      rfl
    have h0 : Steady { c with reports := [] } :=
      ⟨h.steady.own, h.steady.attached, h.steady.timers, h.steady.alone, h.steady.attempts⟩
    refine ⟨h.made ▸ silent_of_disconnect h0, ?_⟩
    intro r hr
    rw [hreports] at hr
    exact .inr ⟨rfl, List.mem_singleton.mp hr⟩
  | send message =>
    have hsend : send { c with reports := [] } message =
        { c with reports := [.error (units "Not connected to gateway")] } := by
      unfold send openSocket
      dsimp only
      rw [h.socket]
      rfl
    rw [hsend] at hsteady ⊢
    refine ⟨⟨hsteady, h.socket, h.timer, h.status, h.made⟩, ?_⟩
    intro r hr
    exact .inl ⟨_, List.mem_singleton.mp hr⟩
  | opened hf hr =>
    rw [if_neg (hunwired hf)] at hsteady ⊢
    exact ⟨⟨hsteady, h.socket, h.timer, h.status, h.made⟩, hnone⟩
  | closing hf hr => exact ⟨⟨hsteady, h.socket, h.timer, h.status, h.made⟩, hnone⟩
  | message hf hr parsed =>
    rw [if_neg (hunwired hf)] at hsteady ⊢
    exact ⟨⟨hsteady, h.socket, h.timer, h.status, h.made⟩, hnone⟩
  | error hf hr =>
    rw [if_neg (hunwired hf)] at hsteady ⊢
    exact ⟨⟨hsteady, h.socket, h.timer, h.status, h.made⟩, hnone⟩
  | close hf =>
    rw [if_neg (hunwired hf)] at hsteady ⊢
    exact ⟨⟨hsteady, h.socket, h.timer, h.status, h.made⟩, hnone⟩
  | timer ht thrown => exact absurd ht (h.steady.timers_of_none h.timer _)

/-- The options do not change. -/
theorem options_step (hs : step c e = some c') :
    c'.reconnectEnabled = c.reconnectEnabled ∧
    c'.maxReconnectAttempts = c.maxReconnectAttempts := by
  have hcleared (c : ThreadLinkClient) (b : Bool) :
      (c.clearReconnectTimer.closeSocket b).reconnectEnabled = c.reconnectEnabled ∧
        (c.clearReconnectTimer.closeSocket b).maxReconnectAttempts = c.maxReconnectAttempts := by
    unfold clearReconnectTimer closeSocket setStatus
    grind
  have hconnect (c : ThreadLinkClient) (thrown : Option (Option Units)) :
      (c.connect thrown).reconnectEnabled = c.reconnectEnabled ∧
        (c.connect thrown).maxReconnectAttempts = c.maxReconnectAttempts := by
    unfold connect
    cases thrown <;> exact hcleared { c with intentionalClose := false } false
  cases change_of_step hs with
  | connect thrown => exact hconnect _ thrown
  | disconnect => exact hcleared { c with reports := [], intentionalClose := true } true
  | send message =>
    unfold send onError
    grind
  | opened hf hr => split <;> exact ⟨rfl, rfl⟩
  | closing hf hr => exact ⟨rfl, rfl⟩
  | message hf hr parsed =>
    unfold onmessage
    grind
  | error hf hr =>
    unfold onerror onError setStatus becomes
    grind
  | close hf =>
    unfold onclose scheduleReconnect setStatus
    grind
  | timer ht thrown => exact hconnect _ thrown

/-! ### What is reported -/

/-- What `connect` reports. -/
theorem connect_reports (c : ThreadLinkClient) (thrown : Option (Option Units)) :
    (connect { c with reports := [] } thrown).reports = .status .connecting ::
      thrown.elim [] fun message =>
      [.status .failed, .error (message.getD (units "Unable to open WebSocket"))] := by
  have hcleared :
      (closeSocket (clearReconnectTimer { c with reports := [], intentionalClose := false })
        false).reports = [] := by
    unfold closeSocket clearReconnectTimer
    dsimp only
    split
    · split <;> rfl
    · split <;> rfl
  unfold connect
  cases thrown with
  | none => exact congrArg (· ++ [Report.status .connecting]) hcleared
  | some message =>
    exact congrArg (fun l => ((l ++ [Report.status .connecting]) ++ [.status .failed]) ++
      [.error (message.getD (units "Unable to open WebSocket"))]) hcleared

/-- A report of a status. -/
def statusAfter (status : ConnectionStatus) : Report → ConnectionStatus
  | .status status' => status'
  | _ => status

/-- The status is the last that has been reported. -/
def Told (status : ConnectionStatus) (c : ThreadLinkClient) : Prop :=
  c.status = c.reports.foldl statusAfter status

theorem told_setStatus (status : ConnectionStatus) (c : ThreadLinkClient)
    (status' : ConnectionStatus) : Told status (c.setStatus status') := by
  rw [Told, setStatus, List.foldl_append]
  rfl

theorem Told.onError {status : ConnectionStatus} (h : Told status c) (message : Units) :
    Told status (c.onError message) := by
  rw [Told, ThreadLinkClient.onError, List.foldl_append]
  exact h

theorem told_connect (status : ConnectionStatus) (c : ThreadLinkClient)
    (thrown : Option (Option Units)) : Told status (c.connect thrown) := by
  unfold connect
  cases thrown with
  | none => exact told_setStatus ..
  | some message => exact (told_setStatus ..).onError _

/-- **The status is what has been reported of it.** -/
theorem told_step (hs : c.step e = some c') : Told c.status c' := by
  have h0 : Told c.status { c with reports := [] } := rfl
  cases change_of_step hs with
  | connect thrown => exact told_connect ..
  | disconnect => exact told_setStatus ..
  | send message =>
    unfold send
    split
    · exact h0.onError _
    · rfl
  | opened =>
    split
    · exact told_setStatus ..
    · exact h0
  | closing => exact h0
  | message hf hr parsed =>
    split
    · cases parsed with
      | none => exact h0
      | some m => rfl
    · exact h0
  | error =>
    split
    · unfold onerror
      split
      · exact (told_setStatus ..).onError _
      · exact h0.onError _
    · exact h0
  | close =>
    split
    · unfold onclose scheduleReconnect
      dsimp only
      split
      · exact told_setStatus ..
      · split <;> exact told_setStatus ..
    · exact h0
  | timer ht thrown => exact told_connect ..

theorem status_connect (c : ThreadLinkClient) (thrown : Option (Option Units)) :
    (c.connect thrown).status ≠ .connected := by
  unfold connect
  cases thrown <;> exact fun hc => by cases hc

/-- Who is connected has been, or the current socket has just been open. -/
theorem connected_step (h : Steady c) (hs : c.step e = some c') (hc : c'.status = .connected) :
    c'.socket = c.socket ∧ (c.status = .connected ∨ ∃ id, e = .opened id ∧ c.socket = some id) := by
  cases change_of_step hs with
  | connect thrown => exact absurd hc (status_connect _ thrown)
  | disconnect => cases hc
  | send message =>
    unfold send at hc ⊢
    split at hc <;> exact ⟨rfl, .inl hc⟩
  | @opened id s hf hr =>
    by_cases hw : s.wired
    · rw [if_pos hw]
      exact ⟨rfl, .inr ⟨id, rfl, h.own id s hf hw⟩⟩
    · rw [if_neg hw] at hc ⊢
      exact ⟨rfl, .inl hc⟩
  | closing => exact ⟨rfl, .inl hc⟩
  | @message id s hf hr parsed =>
    by_cases hw : s.wired
    · rw [if_pos hw] at hc ⊢
      cases parsed <;> exact ⟨rfl, .inl hc⟩
    · rw [if_neg hw] at hc ⊢
      exact ⟨rfl, .inl hc⟩
  | @error id s hf hr =>
    by_cases hw : s.wired
    · rw [if_pos hw] at hc ⊢
      have hsocket : (becomes { c with reports := [] } id .closed).onerror.socket = c.socket := by
        unfold onerror
        split <;> rfl
      unfold onerror at hc
      split at hc
      · cases hc
      · exact ⟨hsocket, .inl hc⟩
    · rw [if_neg hw] at hc ⊢
      exact ⟨rfl, .inl hc⟩
  | @close id s hf =>
    by_cases hw : s.wired
    · rw [if_pos hw] at hc
      unfold onclose scheduleReconnect at hc
      dsimp only at hc
      split at hc
      · cases hc
      · split at hc
        · cases hc
        · rw [show ∀ (c : ThreadLinkClient) (st : ConnectionStatus),
            (c.setStatus st).status = st from fun _ _ => rfl] at hc
          split at hc <;> cases hc
    · rw [if_neg hw] at hc ⊢
      exact ⟨rfl, .inl hc⟩
  | timer ht thrown => exact absurd hc (status_connect _ thrown)

/-- No event is reported. -/
def Eventless (c : ThreadLinkClient) : Prop := ∀ m, .event m ∉ c.reports

theorem Eventless.setStatus (h : Eventless c) (status : ConnectionStatus) :
    Eventless (c.setStatus status) := by
  intro m hm
  rcases List.mem_append.mp hm with hm | hm
  · exact h m hm
  · cases List.mem_singleton.mp hm

theorem Eventless.onError (h : Eventless c) (message : Units) : Eventless (c.onError message) := by
  intro m hm
  rcases List.mem_append.mp hm with hm | hm
  · exact h m hm
  · cases List.mem_singleton.mp hm

theorem Eventless.cleared (h : Eventless c) (updateStatus : Bool) :
    Eventless (c.clearReconnectTimer.closeSocket updateStatus) := by
  have hclear : Eventless c.clearReconnectTimer := by
    unfold ThreadLinkClient.clearReconnectTimer
    split <;> exact h
  unfold ThreadLinkClient.closeSocket
  split
  · exact hclear
  · dsimp only
    split
    · exact Eventless.setStatus hclear .disconnected
    · exact hclear

/-- An event that is reported has arrived at the current socket. -/
theorem event_step (h : Steady c) (hs : c.step e = some c') {m : ServerMessage}
    (hm : .event m ∈ c'.reports) : ∃ id, e = .message id (some m) ∧ c.socket = some id := by
  have h0 : Eventless { c with reports := [] } := fun m hm => by cases hm
  have hconnect (thrown : Option (Option Units)) :
      Eventless (connect { c with reports := [] } thrown) := by
    intro m hm
    rw [connect_reports] at hm
    cases thrown <;> simp at hm
  cases change_of_step hs with
  | connect thrown => exact absurd hm (hconnect thrown m)
  | disconnect =>
    have hnone : Eventless (disconnect { c with reports := [] }) := by
      refine Eventless.setStatus (Eventless.cleared ?_ true) _
      exact h0
    exact absurd hm (hnone m)
  | send message =>
    unfold send at hm
    split at hm
    · exact absurd hm (h0.onError _ m)
    · cases List.mem_singleton.mp hm
  | opened =>
    split at hm
    · cases List.mem_singleton.mp hm
    · cases hm
  | closing => cases hm
  | @message id s hf hr parsed =>
    by_cases hw : s.wired
    · rw [if_pos hw] at hm
      cases parsed with
      | none => cases hm
      | some m' =>
        cases List.mem_singleton.mp hm
        exact ⟨id, rfl, h.own id s hf hw⟩
    · rw [if_neg hw] at hm
      cases hm
  | @error id =>
    split at hm
    · have hnone : Eventless (becomes { c with reports := [] } id .closed).onerror := by
        unfold onerror
        split
        · exact Eventless.onError (Eventless.setStatus h0 .failed) _
        · exact Eventless.onError h0 _
      exact absurd hm (hnone m)
    · cases hm
  | close =>
    split at hm
    · unfold onclose scheduleReconnect at hm
      dsimp only at hm
      split at hm
      · cases List.mem_singleton.mp hm
      · split at hm <;> cases List.mem_singleton.mp hm
    · cases hm
  | timer ht thrown =>
    rw [connect_of_timer ((h.timers _).mp ht)] at hm
    exact absurd hm (hconnect thrown m)

/-- **The transport of the browser.** In every run, a socket that has not fired `close` and has
handlers is the current one; at most one timer is pending, and then there is no current socket; it
is not tried too often to reconnect. After `disconnect` and until `connect` is called, no event
and no change of status is reported, no timer is set and no socket is made. -/
theorem steady_of_run {reconnect : Bool} {maxReconnectAttempts : ℕ}
    (h : Run step (init reconnect maxReconnectAttempts) c) :
    (∀ id s, c.sockets.find? id = some s → s.wired → c.socket = some id) ∧
    c.timers.size ≤ 1 ∧ (∀ t ∈ c.timers.keys, c.socket = none) ∧
    c.reconnectAttempts ≤ maxReconnectAttempts ∧
    ∀ c₁ c₂ c₃ e, step c .disconnect = some c₁ → RunIn step (fun _ e => e.Idle) c₁ c₂ → e.Idle →
      step c₂ e = some c₃ →
      Quiet e c₃.reports ∧ c₃.status = .disconnected ∧ c₃.timers.keys = [] ∧
      c₃.nextSocket = c₁.nextSocket := by
  have hsteady : Steady c ∧ c.maxReconnectAttempts = maxReconnectAttempts := by
    refine h.invariant (I := fun c => Steady c ∧ c.maxReconnectAttempts = maxReconnectAttempts)
      ⟨steady_init reconnect maxReconnectAttempts, rfl⟩ ?_
    rintro c e c' ⟨hI, hm⟩ _ hs
    exact ⟨hI.step hs, (options_step hs).2.trans hm⟩
  obtain ⟨hI, hm⟩ := hsteady
  refine ⟨hI.own, OrdMap.size_le_one ?_, fun t ht => hI.alone t ((hI.timers t).mp ht),
    hm ▸ hI.attempts, ?_⟩
  · intro t ht t' ht'
    exact Option.some.inj (((hI.timers t).mp ht).symm.trans ((hI.timers t').mp ht'))
  · intro c₁ c₂ c₃ e hd hrun he hs
    have h0 : Steady { c with reports := [] } :=
      ⟨hI.own, hI.attached, hI.timers, hI.alone, hI.attempts⟩
    cases hd
    have hsilent : Silent c.nextSocket c₂ := by
      apply hrun.invariant (I := Silent c.nextSocket) (silent_of_disconnect h0)
      intro c e c' hI he hs
      exact (hI.step he hs).1
    obtain ⟨hafter, hquiet⟩ := hsilent.step he hs
    refine ⟨hquiet, hafter.status, ?_, hafter.made.trans (silent_of_disconnect h0).made.symm⟩
    exact List.eq_nil_iff_forall_not_mem.mpr (hafter.steady.timers_of_none hafter.timer)

/-- The gateway closes a socket, and the timer has made the next. -/
theorem steady_after_timer : ∃ c : ThreadLinkClient, c.reconnectAttempts = 1 ∧ c.socket = some 1 ∧
      ∀ t ∈ c.timers.keys, c.socket = none := by
  obtain ⟨c, h, hp⟩ :=
    exists_run_of_any step (init true 5) [.connect none, .opened 0, .close 0, .timer 0 none]
    (fun c => c.reconnectAttempts = 1 ∧ c.socket = some 1) (by decide)
  exact ⟨c, hp.1, hp.2, (steady_of_run h).2.2.1⟩

end ThreadLinkClient

end ThreadLink.Frontend
