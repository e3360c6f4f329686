import ThreadLink.Gateway.Becoming
import ThreadLink.Gateway.Closing
import ThreadLink.Gateway.Roster
import ThreadLink.Gateway.WireProtocol

/-!
# Lost backend connections

What becomes of a session whose connection to the chat server ends. `Gateway.Server` has
frames, headers that are too large and the end of a connection as events; here is where
they come from, the listeners that `wireSocket` puts on a connected socket.

The flag `closed` of a `BackendConnection` is set by the gateway that closes it, by the
close event of the socket, and by the listener of `data` when a frame is too large. In the
last case nobody is told: the close event finds the flag set.

## The model

* A socket emits its close event once, and nothing after it; after `destroy` it has no
  more data. An error is followed by the close event.
* `emitted` has all that the connection has emitted, in order.

## What is proved

* `WiredConnection.closes_iff` — a connection that ends without its owner closing it emits
  `close` exactly once, unless a frame was too large; then it never does.
* `WiredConnection.Drives.step` — what the sockets do is what the gateway's events say.
* `lost_of_run` — if no frame is too large, and sessions join once and before they are
  closed, then a session with a connection that has ended is being closed, and its close
  event takes it out of the roster.
-/

namespace ThreadLink.Gateway

open Text Framing Runs

/-! ### The listeners of a connected socket -/

/-- What a `BackendConnection` emits. -/
inductive Emitted where
  /-- `event`. -/
  | event (e : BackendEvent)
  /-- `close`. -/
  | close
  /-- `error`. -/
  | error
  deriving DecidableEq, Repr

/-- `BackendConnection`, from `wireSocket` on. -/
structure WiredConnection where
  /-- `decoder`. -/
  decoder : FrameDecoder
  /-- The flag `closed`. -/
  closed : Bool := false
  /-- `socket.destroy` has been called. -/
  destroyed : Bool := false
  /-- The socket has emitted its close event. -/
  ended : Bool := false
  /-- What has been emitted. -/
  emitted : List Emitted := []
  deriving DecidableEq, Repr

/-- What happens to it. -/
inductive SocketEvent where
  /-- The socket has data. -/
  | data (chunk : Bytes)
  /-- The socket fails. -/
  | error
  /-- The socket has closed. -/
  | close
  /-- The gateway calls `close`. -/
  | ownerClose
  deriving DecidableEq, Repr

/-- The bytes it brings. -/
def SocketEvent.bytes : SocketEvent → Bytes
  | .data chunk => chunk
  | _ => []

namespace WiredConnection

/-- A connection whose `connect` has succeeded. -/
def connected (maxMessageBytes : ℕ) : WiredConnection := { decoder := ⟨maxMessageBytes, []⟩ }

/-- `emit`. -/
def emit (c : WiredConnection) (e : Emitted) : WiredConnection :=
  { c with emitted := c.emitted ++ [e] }

/-- `close`. -/
def close (c : WiredConnection) : WiredConnection :=
  if c.closed then c else { c with closed := true, destroyed := true }

/-- What a frame is emitted as. -/
def eventOf (frame : Bytes) : Emitted := .event (parseBackendLine (utf8Decode frame))

/-- The listener of `data`. -/
def onData (c : WiredConnection) (chunk : Bytes) : WiredConnection :=
  let (pushed, decoder) := c.decoder.push chunk
  let c := pushed.frames.foldl (fun c frame => c.emit (eventOf frame)) { c with decoder := decoder }
  if pushed.tooLarge then c.close else c

/-- The listener of `close`. -/
def onClose (c : WiredConnection) : WiredConnection :=
  if c.closed then c else { c with closed := true }.emit .close

/-- The socket emits its close event. -/
def finish (c : WiredConnection) : WiredConnection := { c with ended := true }

/-- One step. -/
def step (c : WiredConnection) (e : SocketEvent) : Option WiredConnection :=
  match e with
  | .data chunk => if c.ended || c.destroyed then none else some (c.onData chunk)
  | .error => if c.ended then none else some (c.emit .error)
  | .close => if c.ended then none else some c.finish.onClose
  | .ownerClose => some c.close

variable {c c' : WiredConnection} {past : List (WiredConnection × SocketEvent)} {max : ℕ}

/-- What has been received. -/
def received (past : List (WiredConnection × SocketEvent)) : Bytes :=
  past.flatMap fun a => a.2.bytes

/-- How often `close` has been emitted. -/
def closes (c : WiredConnection) : ℕ := c.emitted.count .close

theorem foldl_emit (frames : List Bytes) (c : WiredConnection) :
    frames.foldl (fun c frame => c.emit (eventOf frame)) c =
    { c with emitted := c.emitted ++ frames.map eventOf } := by
  induction frames generalizing c with
  | nil => rw [List.foldl_nil, List.map_nil, List.append_nil]
  | cons frame frames ih =>
    rw [List.foldl_cons, ih, List.map_cons, emit, List.append_assoc]
    rfl

/-- The connection with the frames of a chunk emitted. -/
def advance (c : WiredConnection) (chunk : Bytes) : WiredConnection :=
  { c with
    decoder :=
      ⟨c.decoder.maxPayloadSize, (split c.decoder.maxPayloadSize (c.decoder.buffer ++ chunk)).rest⟩
    emitted := c.emitted ++ (split c.decoder.maxPayloadSize (c.decoder.buffer ++ chunk)).frames.map
      eventOf }

theorem onData_eq (c : WiredConnection) (chunk : Bytes) :
    c.onData chunk =
      if (split c.decoder.maxPayloadSize (c.decoder.buffer ++ chunk)).oversized
      then (c.advance chunk).close
      else c.advance chunk := by
  unfold onData
  rw [FrameDecoder.push_eq]
  dsimp only
  rw [foldl_emit]
  rfl

theorem close_of_open (h : c.closed = false) :
    c.close = { c with closed := true, destroyed := true } :=
  if_neg (h ▸ Bool.false_ne_true)

@[simp] theorem closes_emit_error (c : WiredConnection) : (c.emit .error).closes = c.closes := by
  simp [closes, emit]

/-- Frames are not emitted as `close`. -/
theorem count_map_eventOf (frames : List Bytes) : (frames.map eventOf).count .close = 0 := by
  rw [List.count_eq_zero]
  intro hmem
  obtain ⟨frame, -, he⟩ := List.mem_map.mp hmem
  cases he

theorem closes_advance (c : WiredConnection) (chunk : Bytes) :
    (c.advance chunk).closes = c.closes := by
  unfold closes advance
  rw [List.count_append, count_map_eventOf, Nat.add_zero]

/-- What the flag and `emitted` say of any connection. -/
structure Told (c : WiredConnection) : Prop where
  /-- The flag has two causes. -/
  closed : c.closed = (c.destroyed || c.ended)
  /-- `close` has been emitted if the socket has ended by itself. -/
  closes : c.closes = if c.ended && !c.destroyed then 1 else 0

theorem Told.onData (h : Told c) (he : c.ended = false) (hd : c.destroyed = false) (chunk : Bytes) :
    Told (c.onData chunk) := by
  have hcl : (c.advance chunk).closed = false := by
    show c.closed = false
    rw [h.closed, hd, he]
    rfl
  have hz : (c.advance chunk).closes = 0 := by
    rw [closes_advance, h.closes, he]
    rfl
  have hend : (c.advance chunk).ended = false := he
  rw [onData_eq]
  split
  · rw [close_of_open hcl]
    exact ⟨rfl, hz.trans (by rw [hend]; rfl)⟩
  · exact ⟨h.closed, hz.trans (by rw [hend]; rfl)⟩

theorem Told.onClose (h : Told c) (he : c.ended = false) : Told c.finish.onClose := by
  have hf : c.finish.closed = c.destroyed := by
    show c.closed = c.destroyed
    rw [h.closed, he, Bool.or_false]
  have hz : c.finish.closes = 0 := by
    show c.closes = 0
    rw [h.closes, he]
    rfl
  unfold WiredConnection.onClose
  cases hd : c.destroyed with
  | true =>
    have hdf : c.finish.destroyed = true := hd
    rw [if_pos (hf.trans hd)]
    exact ⟨by rw [hf, hd, hdf]; rfl, by rw [hz, hdf]; rfl⟩
  | false =>
    have hdf : c.finish.destroyed = false := hd
    rw [if_neg (hf.trans hd ▸ Bool.false_ne_true)]
    refine ⟨(Bool.or_true _).symm, ?_⟩
    show (c.finish.emitted ++ [Emitted.close]).count Emitted.close =
      if true && !c.finish.destroyed then 1 else 0
    rw [List.count_append, show c.finish.emitted.count Emitted.close = 0 from hz, hdf]
    rfl

theorem Told.close (h : Told c) : Told c.close := by
  unfold WiredConnection.close
  split
  · exact h
  · rename_i hc
    have hn : c.destroyed = false ∧ c.ended = false :=
      Bool.or_eq_false_iff.mp (h.closed ▸ Bool.eq_false_iff.mpr hc)
    refine ⟨rfl, ?_⟩
    show c.closes = if c.ended && !true then 1 else 0
    rw [h.closes, hn.2]
    rfl

theorem Told.step (h : Told c) {e : SocketEvent} (hs : c.step e = some c') : Told c' := by
  cases e with
  | data chunk =>
    obtain ⟨hg, he⟩ := Option.ite_none_left_eq_some.mp hs
    rw [Bool.not_eq_true, Bool.or_eq_false_iff] at hg
    cases he
    exact h.onData hg.1 hg.2 chunk
  | error =>
    obtain ⟨-, he⟩ := Option.ite_none_left_eq_some.mp hs
    cases he
    exact ⟨h.closed, (closes_emit_error c).trans h.closes⟩
  | close =>
    obtain ⟨hg, he⟩ := Option.ite_none_left_eq_some.mp hs
    cases he
    exact h.onClose (Bool.eq_false_iff.mpr hg)
  | ownerClose =>
    cases hs
    exact h.close

theorem told_of_path (h : Path step (connected max) past c) : Told c :=
  h.invariant (I := fun _ c => Told c) ⟨rfl, rfl⟩ fun _ _ _ _ ih _ hs => ih.step hs

/-- What holds of a connection that its owner has not closed, and that was set up with
the limit. -/
structure Heard (max : ℕ) (stream : Bytes) (c : WiredConnection) : Prop where
  /-- The limit. -/
  maxPayloadSize : c.decoder.maxPayloadSize = max
  /-- The decoder has what is left of the stream. -/
  buffer : c.decoder.buffer = (split max stream).rest
  /-- The connection is destroyed when a frame is too large. -/
  destroyed : c.destroyed = (split max stream).oversized

theorem heard_connected (max : ℕ) : Heard max [] (connected max) := by
  have hs : split max [] = ⟨[], false, []⟩ := split_of_short (Nat.succ_pos 3)
  exact ⟨rfl, by rw [hs]; rfl, by rw [hs]; rfl⟩

theorem Heard.onData {stream : Bytes} (h : Heard max stream c) (hcl : c.closed = false)
    (hd : c.destroyed = false) (chunk : Bytes) : Heard max (stream ++ chunk) (c.onData chunk) := by
  have ho : (split max stream).oversized = false := h.destroyed ▸ hd
  have hbuf : (c.advance chunk).decoder.buffer = (split max (stream ++ chunk)).rest := by
    rw [split_append ho, ← h.buffer, ← h.maxPayloadSize]
    rfl
  have hov : (split max (stream ++ chunk)).oversized =
      (split c.decoder.maxPayloadSize (c.decoder.buffer ++ chunk)).oversized := by
    rw [split_append ho, h.buffer, h.maxPayloadSize]
  have hadv : (c.advance chunk).closed = false := hcl
  rw [onData_eq]
  cases hs : (split c.decoder.maxPayloadSize (c.decoder.buffer ++ chunk)).oversized with
  | true =>
    rw [if_pos rfl, close_of_open hadv]
    exact ⟨h.maxPayloadSize, hbuf, (hov.trans hs).symm⟩
  | false =>
    rw [if_neg Bool.false_ne_true]
    exact ⟨h.maxPayloadSize, hbuf, hd.trans (hov.trans hs).symm⟩

theorem heard_of_path (h : Path step (connected max) past c) (hn : ∀ a ∈ past, a.2 ≠ .ownerClose) :
    Heard max (received past) c := by
  refine (h.invariant (I := fun past c => Told c ∧
    ((∀ a ∈ past, a.2 ≠ .ownerClose) → Heard max (received past) c))
    ⟨⟨rfl, rfl⟩, fun _ => heard_connected max⟩ fun past c e c' ih _ hs => ⟨ih.1.step hs, ?_⟩).2 hn
  intro hn
  have hc := ih.2 fun a ha => hn a (List.mem_append_left _ ha)
  have hr : received (past ++ [(c, e)]) = received past ++ e.bytes := by
    rw [received, List.flatMap_append, List.flatMap_singleton]
    rfl
  rw [hr]
  cases e with
  | data chunk =>
    obtain ⟨hg, he⟩ := Option.ite_none_left_eq_some.mp hs
    rw [Bool.not_eq_true, Bool.or_eq_false_iff] at hg
    cases he
    exact hc.onData (by rw [ih.1.closed, hg.1, hg.2]; rfl) hg.2 chunk
  | error =>
    obtain ⟨-, he⟩ := Option.ite_none_left_eq_some.mp hs
    cases he
    rw [show SocketEvent.error.bytes = [] from rfl, List.append_nil]
    exact ⟨hc.maxPayloadSize, hc.buffer, hc.destroyed⟩
  | close =>
    obtain ⟨-, he⟩ := Option.ite_none_left_eq_some.mp hs
    cases he
    rw [show SocketEvent.close.bytes = [] from rfl, List.append_nil]
    unfold onClose
    split <;> exact ⟨hc.maxPayloadSize, hc.buffer, hc.destroyed⟩
  | ownerClose => exact absurd rfl (hn _ (List.mem_append_right _ (List.mem_singleton_self _)))

/-- **A connection that ends by itself** emits `close` once if no frame was too large, and
never if one was. -/
theorem closes_iff (h : Path step (connected max) past c) (hn : ∀ a ∈ past, a.2 ≠ .ownerClose)
    (he : c.ended = true) : c.closes = 1 ↔ (split max (received past)).oversized = false := by
  rw [(told_of_path h).closes, he, (heard_of_path h hn).destroyed]
  cases (split max (received past)).oversized with
  | true => exact ⟨fun hz => absurd hz Nat.zero_ne_one, fun ht => by cases ht⟩
  | false => exact ⟨fun _ => rfl, fun _ => rfl⟩

theorem ended_onData (c : WiredConnection) (chunk : Bytes) : (c.onData chunk).ended = c.ended := by
  rw [onData_eq]
  unfold close
  split <;> first | rfl | (split <;> rfl)

/-- The data may come in one chunk, and the connection end then. -/
theorem exists_ended (max : ℕ) (chunk : Bytes) : ∃ past c, Path step (connected max) past c ∧
    (∀ a ∈ past, a.2 ≠ .ownerClose) ∧ received past = chunk ∧ c.ended = true := by
  have hd : (connected max).step (.data chunk) = some ((connected max).onData chunk) := rfl
  have hc : ((connected max).onData chunk).step .close =
      some ((connected max).onData chunk).finish.onClose := by
    apply if_neg
    rw [ended_onData]
    exact Bool.false_ne_true
  refine ⟨_, _, (PathIn.refl.tail trivial hd).tail trivial hc, ?_, ?_, ?_⟩
  · intro a ha
    rcases List.mem_append.mp ha with ha | ha
    · rw [List.mem_singleton.mp ha]
      exact nofun
    · rw [List.mem_singleton.mp ha]
      exact nofun
  · show chunk ++ ([] ++ []) = chunk
    rw [List.append_nil, List.append_nil]
  · unfold onClose
    split <;> rfl

/-! ### What the gateway is told -/

/-- The gateway's events that come of what happens to the socket of connection `b`. -/
def events (c : WiredConnection) (b : BackendId) : SocketEvent → List GatewayServer.Event
  | .data chunk =>
    (c.decoder.push chunk).1.frames.map (.backendFrame b) ++
      if (c.decoder.push chunk).1.tooLarge then [.backendOversized b] else []
  | .close => if c.destroyed then [] else [.backendClose b]
  | .error | .ownerClose => []

/-- The gateway sees the connection as its connection `b`. -/
structure Drives (c : WiredConnection) (s : GatewayServer) (b : BackendId) : Prop where
  /-- The socket. -/
  socket : (s.backends b).socket = if c.destroyed || c.ended then .ended else .opened
  /-- The flag. -/
  closed : (s.backends b).closed = c.closed
  /-- The limit. -/
  max : s.config.backendMaxMessageBytes = c.decoder.maxPayloadSize

/-- The gateway handles the events, all of them or until it ends with a fault. -/
inductive Handles : GatewayServer → List GatewayServer.Event → GatewayServer → Prop where
  /-- No event is left. -/
  | done (s : GatewayServer) : Handles s [] s
  /-- The process has ended. -/
  | fault {s : GatewayServer} (h : s.fault.isSome = true) (es : List GatewayServer.Event) :
    Handles s es s
  /-- An event is handled. -/
  | next {s t u : GatewayServer} {e : GatewayServer.Event} {es : List GatewayServer.Event}
    (h : s.step e = some t)
    (h' : Handles t es u) : Handles s (e :: es) u

variable {s t : GatewayServer} {b : BackendId}

/-- A frame leaves the connections alone. -/
theorem backends_of_frame {p : Bytes} (hs : s.step (.backendFrame b p) = some t) :
    t.backends = s.backends ∧ t.config = s.config := by
  obtain ⟨u, hc, hq⟩ := GatewayServer.step_change hs
  rw [hq.same.backends, hq.same.config]
  cases hc <;> exact ⟨rfl, rfl⟩

theorem frame_possible {p : Bytes} (hf : s.fault = none) (ho : (s.backends b).socket = .opened)
    (hp : p.length ≤ s.config.backendMaxMessageBytes) :
    ∃ t, s.step (.backendFrame b p) = some t := by
  have hn : ¬s.fault.isSome = true := by rw [hf]; exact Bool.false_ne_true
  exact ⟨_, (if_neg hn).trans (if_pos ⟨ho, hp⟩)⟩

/-- The frames of a chunk are handled one after the other, and then what follows. -/
theorem handles_frames {Q : GatewayServer → Prop} {es : List GatewayServer.Event}
    (frames : List Bytes)
    (hrest : ∀ t : GatewayServer, t.fault = none → t.backends = s.backends → t.config = s.config →
      ∃ u, Handles t es u ∧ (u.fault.isSome = true ∨ Q u))
    (ho : (s.backends b).socket = .opened)
    (hl : ∀ p ∈ frames, p.length ≤ s.config.backendMaxMessageBytes) :
    ∃ u, Handles s (frames.map (.backendFrame b) ++ es) u ∧ (u.fault.isSome = true ∨ Q u) := by
  induction frames generalizing s with
  | nil =>
    cases hf : s.fault with
    | some fault => exact ⟨s, .fault (by rw [hf]; rfl) _, .inl (by rw [hf]; rfl)⟩
    | none => exact hrest s hf rfl rfl
  | cons p frames ih =>
    cases hf : s.fault with
    | some fault => exact ⟨s, .fault (by rw [hf]; rfl) _, .inl (by rw [hf]; rfl)⟩
    | none =>
      obtain ⟨t, ht⟩ := frame_possible hf ho (hl p List.mem_cons_self)
      obtain ⟨hb, hcfg⟩ := backends_of_frame ht
      obtain ⟨u, hu, hq⟩ :=
        ih (fun v hv hvb hvc => hrest v hv (hvb.trans hb) (hvc.trans hcfg)) (by rw [hb]; exact ho)
        fun q hq => by rw [hcfg]; exact hl q (List.mem_cons_of_mem _ hq)
      exact ⟨u, .next ht hu, hq⟩

theorem Drives.onData (h : Drives c s b) (he : c.ended = false) (hd : c.destroyed = false)
    (hcl : c.closed = false) (chunk : Bytes) :
    ∃ u, Handles s (c.events b (.data chunk)) u ∧
      (u.fault.isSome = true ∨ Drives (c.onData chunk) u b) := by
  have ho : (s.backends b).socket = .opened := by rw [h.socket, hd, he]; rfl
  rw [onData_eq, events, FrameDecoder.push_eq]
  refine handles_frames _ ?_ ho fun p hp => h.max ▸ length_le_of_mem_frames hp
  intro t hf hb hcfg
  have hsock : (t.backends b).socket = .opened := by rw [hb]; exact ho
  have hadv : (c.advance chunk).closed = false := hcl
  cases hov : (split c.decoder.maxPayloadSize (c.decoder.buffer ++ chunk)).oversized with
  | true =>
    rw [if_pos rfl, close_of_open hadv]
    have hn : ¬t.fault.isSome = true := by rw [hf]; exact Bool.false_ne_true
    have hclose : (t.backends b).close =
        { t.backends b with closed := true, socket := .ended } := by
      rw [hb]
      exact if_neg (h.closed.trans hcl ▸ Bool.false_ne_true)
    have hself := GatewayServer.backends_modifyBackend_self t b .close
    rw [hclose] at hself
    refine ⟨t.modifyBackend b .close, .next ((if_neg hn).trans (if_pos hsock)) (.done _),
      .inr ⟨?_, ?_, ?_⟩⟩
    · rw [hself]
      rfl
    · rw [hself]
      rfl
    · exact (congrArg _ hcfg).trans h.max
  | false =>
    rw [if_neg Bool.false_ne_true]
    refine ⟨t, .done _, .inr ⟨?_, ?_, (congrArg _ hcfg).trans h.max⟩⟩
    · rw [hb]
      exact h.socket
    · rw [hb]
      exact h.closed

theorem Drives.onClose (h : Drives c s b) (he : c.ended = false) (hcl : c.closed = c.destroyed)
    (hf : s.fault = none) :
    ∃ u, Handles s (c.events b .close) u ∧ Drives c.finish.onClose u b := by
  show ∃ u, Handles s (if c.destroyed then [] else [.backendClose b]) u ∧
    Drives (if c.closed then c.finish else { c.finish with closed := true }.emit .close) u b
  cases hd : c.destroyed with
  | true =>
    rw [hcl, hd, if_pos rfl, if_pos rfl]
    have hs := h.socket
    rw [hd] at hs
    refine ⟨s, .done s, ?_, h.closed, h.max⟩
    rw [show c.finish.destroyed = true from hd]
    exact hs
  | false =>
    rw [hcl, hd, if_neg Bool.false_ne_true, if_neg Bool.false_ne_true]
    have ho : (s.backends b).socket = .opened := by rw [h.socket, hd, he]; rfl
    have hn : ¬s.fault.isSome = true := by rw [hf]; exact Bool.false_ne_true
    have hb : (s.backends b).closed = false := by rw [h.closed, hcl, hd]
    have hs : s.step (.backendClose b) = some ((s.modifyBackend b fun connection =>
        { connection with socket := .ended, closed := true }).onBackendClosed
        (s.backends b).owner) := by
      refine (if_neg hn).trans ((if_pos ho).trans ?_)
      rw [hb]
      rfl
    refine ⟨_, .next hs (.done _), ?_⟩
    have hkeep (t : GatewayServer) (w : WsId) : (t.onBackendClosed w).backends = t.backends ∧
        (t.onBackendClosed w).config = t.config := by
      unfold GatewayServer.onBackendClosed GatewayServer.sendError GatewayServer.sendTo
      split
      · exact ⟨rfl, rfl⟩
      · split <;> exact ⟨rfl, rfl⟩
    refine ⟨?_, ?_, (congrArg GatewayConfig.backendMaxMessageBytes (hkeep _ _).2).trans h.max⟩
    · rw [(hkeep _ _).1, GatewayServer.backends_modifyBackend_self]
      show SocketState.ended = if c.destroyed || true then .ended else .opened
      rw [Bool.or_true]
      rfl
    · rw [(hkeep _ _).1, GatewayServer.backends_modifyBackend_self]
      rfl

/-- **The gateway is told** what happens to the socket of a connection: it handles the
events that come of it, unless it ends with a fault, and sees the connection as it is
then. -/
theorem Drives.step (h : Drives c s b) (ht : Told c) (hf : s.fault = none) {e : SocketEvent}
    (he : e ≠ .ownerClose) (hs : c.step e = some c') :
    ∃ u, Handles s (c.events b e) u ∧ (u.fault.isSome = true ∨ Drives c' u b) := by
  cases e with
  | data chunk =>
    obtain ⟨hg, he⟩ := Option.ite_none_left_eq_some.mp hs
    rw [Bool.not_eq_true, Bool.or_eq_false_iff] at hg
    cases he
    exact h.onData hg.1 hg.2 (by rw [ht.closed, hg.1, hg.2]; rfl) chunk
  | error =>
    obtain ⟨-, he⟩ := Option.ite_none_left_eq_some.mp hs
    cases he
    exact ⟨s, .done s, .inr ⟨h.socket, h.closed, h.max⟩⟩
  | close =>
    obtain ⟨hg, he⟩ := Option.ite_none_left_eq_some.mp hs
    cases he
    have hend := Bool.eq_false_iff.mpr hg
    obtain ⟨u, hu, hd⟩ := h.onClose hend (by rw [ht.closed, hend, Bool.or_false]) hf
    exact ⟨u, hu, .inr hd⟩
  | ownerClose => exact absurd rfl he

/-- The gateway closes a connection. -/
theorem Drives.ownerClose (h : Drives c s b) : Drives c.close (s.modifyBackend b .close) b := by
  have hself := GatewayServer.backends_modifyBackend_self s b .close
  cases hc : c.closed with
  | true =>
    have hb : (s.backends b).close = s.backends b := if_pos (h.closed.trans hc)
    have hcc : c.close = c := if_pos hc
    rw [hb] at hself
    rw [hcc]
    exact ⟨by rw [hself]; exact h.socket, by rw [hself]; exact h.closed, h.max⟩
  | false =>
    have hb : (s.backends b).close = { s.backends b with closed := true, socket := .ended } :=
      if_neg (h.closed.trans hc ▸ Bool.false_ne_true)
    rw [hb] at hself
    rw [close_of_open hc]
    exact ⟨by rw [hself]; rfl, by rw [hself], h.max⟩

end WiredConnection

/-! ### Sessions that have lost their connection -/

namespace GatewayServer

variable {s s' t : GatewayServer} {e : Event} {w x : WsId} {b : BackendId}

/-- Whether it is a frame that is too large. -/
def Event.isOversized : Event → Bool
  | .backendOversized _ => true
  | _ => false

/-- **The condition**: no frame is too large, and no session joins that has joined before
or has been closed. -/
def Unbroken (s : GatewayServer) (e : Event) : Prop := e.isOversized = false ∧ JoinsOpen s e

instance (s : GatewayServer) (e : Event) : Decidable (Unbroken s e) :=
  inferInstanceAs (Decidable (_ ∧ _))

theorem ws_closeWs_self (s : GatewayServer) (w : WsId) :
    ((s.closeWs w).sessions w).ws ≠ .opened := by
  unfold closeWs
  rw [sessions_modifySession_self]
  split
  · exact nofun
  · assumption

theorem ended_closeBackend (hb : ((s.closeBackend w).backends b).socket = .ended) :
    (s.backends b).socket = .ended ∨ (s.sessions w).backend = some b := by
  unfold closeBackend at hb
  split at hb
  · exact .inl hb
  · rename_i c hc
    by_cases hbc : b = c
    · exact .inr (hbc ▸ hc)
    · rw [backends_modifyBackend_of_ne s hbc] at hb
      exact .inl hb

theorem ended_leave (hb : ((s.leave w).backends b).socket = .ended) :
    (s.backends b).socket = .ended ∨ (s.sessions w).backend = some b := by
  unfold leave at hb
  dsimp only at hb
  split at hb
  · exact .inl hb
  · have hc := ended_closeBackend (b := b) hb
    rw [sessions_modifySession_self] at hc
    exact hc

theorem ended_modifyBackend {f : BackendConnection → BackendConnection}
    (hb : ((s.modifyBackend x f).backends b).socket = .ended) :
    (s.backends b).socket = .ended ∨ b = x := by
  by_cases hbx : b = x
  · exact .inr hbx
  · rw [backends_modifyBackend_of_ne s hbx] at hb
    exact .inl hb

/-- A session without its connection to the chat server is being closed. -/
structure Severed (s : GatewayServer) : Prop where
  /-- Closed sessions have left. -/
  tidy : Tidy s
  /-- The owner of a connection that has ended has no open WebSocket. -/
  shut : ∀ b, (s.backends b).socket = .ended → (s.sessions (s.backends b).owner).ws ≠ .opened

theorem severed_init (env : Env) (config : GatewayConfig) : Severed (init env config) where
  tidy := tidy_init env config
  shut _ h := by simp [init] at h

/-- A step in which nobody arrives or joins has to close the owners of the connections it
ends. -/
theorem Severed.stays (h : Severed s) (ht : Tidy t) (hs : Stays s t)
    (hb : ∀ b, (t.backends b).socket = .ended → (s.backends b).socket = .ended ∨
      (t.sessions (s.backends b).owner).ws ≠ .opened) :
    Severed t := by
  refine ⟨ht, ?_⟩
  intro b he
  rw [hs.owner]
  rcases hb b he with he | hw
  · exact fun ho => h.shut b he ((hs.sessions _).opened ho)
  · exact hw

/-- A step that ends no connection. -/
theorem Severed.of_backends (h : Severed s) (ht : Tidy t) (hs : Stays s t)
    (hb : t.backends = s.backends) : Severed t :=
  h.stays ht hs fun _ he => .inl (hb ▸ he)

theorem Severed.same (h : Severed s) (hs : Same s t) : Severed t :=
  h.of_backends (h.tidy.same hs) hs.stays hs.backends

theorem Severed.onConnection (h : Severed s) : Severed s.onConnection := by
  refine ⟨h.tidy.onConnection, ?_⟩
  intro b hb
  have hbs : (s.backends b).socket = .ended := hb
  have hu : (s.backends b).socket ≠ .unborn := by rw [hbs]; exact nofun
  have hne : (s.backends b).owner ≠ s.nextWs := by
    intro ho
    have hbk := h.tidy.wired.backend_owner hu
    have ha := h.tidy.wired.authenticated (s.backends b).owner
    rw [hbk, ho, (h.tidy.wired.unborn s.nextWs le_rfl).2] at ha
    cases ha
  show (s.onConnection.sessions (s.backends b).owner).ws ≠ .opened
  rw [sessions_onConnection_of_ne s hne]
  exact h.shut b hbs

theorem Severed.join (h : Severed s) (hw : w < s.nextWs) (ha : (s.sessions w).authenticated = false)
    (hc : (s.sessions w).closed = false) (account : UserRecord) : Severed (s.join w account) := by
  refine ⟨h.tidy.join hw ha hc account, ?_⟩
  intro b hb
  have hbn : b ≠ s.nextBackend := by
    rintro rfl
    rw [show (s.join w account).backends s.nextBackend = _ from Function.update_self ..] at hb
    cases hb
  have hbs : (s.join w account).backends b = s.backends b := Function.update_of_ne hbn ..
  rw [hbs] at hb ⊢
  have hws (y : WsId) : ((s.join w account).sessions y).ws = (s.sessions y).ws := by
    by_cases hy : y = w
    · rw [hy, sessions_join_self]
      rfl
    · rw [sessions_join_of_ne s hy]
  rw [hws]
  exact h.shut b hb

/-- Closing a session of the roster with its connection. -/
theorem ended_closeBoth (hw : Wired t)
    (hb : (((t.closeBackend w).closeWs w).backends b).socket = .ended) :
    (t.backends b).socket = .ended ∨
    (((t.closeBackend w).closeWs w).sessions (t.backends b).owner).ws ≠ .opened := by
  rcases ended_closeBackend hb with he | hbk
  · exact .inl he
  · right
    rw [((hw.backend w b).mp hbk).2]
    exact ws_closeWs_self _ w

theorem Severed.close (h : Severed s) : Severed s.close := by
  obtain ⟨t, ⟨ht, hs, hb⟩, hc⟩ :=
    @close_rule s (fun t => Tidy t ∧ Stays s t ∧ ∀ b, (t.backends b).socket = .ended →
      (s.backends b).socket = .ended ∨ (t.sessions (s.backends b).owner).ws ≠ .opened)
    ⟨h.tidy, .refl s, fun _ => .inl⟩ (by
      rintro t w ⟨ht, hs, hb⟩
      have hcl := ((Stays.refl t).closeBackend w).closeWs w
      refine ⟨(ht.closeBackend w).closeWs w, (hs.closeBackend w).closeWs w, ?_⟩
      intro b he
      rcases ended_closeBoth ht.wired he with he | hn
      · exact (hb b he).imp_right fun hn ho => hn ((hcl.sessions _).opened ho)
      · exact .inr (hs.owner b ▸ hn))
  apply h.stays h.tidy.close ((Stays.refl s).close)
  intro b he
  rw [hc] at he ⊢
  exact hb b he

/-- What the end of a connection does: its owner is told and closed. -/
theorem Severed.backendClose_eq (h : Severed s) (hs : s.step (.backendClose b) = some s') :
    s' =
    ((s.modifyBackend b fun connection =>
      { connection with socket := .ended, closed := true }).sendError
      (s.backends b).owner (units "BACKEND_DISCONNECTED")
      (units "Lost connection to the ThreadLink server.")).closeWs (s.backends b).owner := by
  obtain ⟨-, hs⟩ := Option.ite_none_left_eq_some.mp hs
  obtain ⟨ho, hs⟩ := Option.ite_none_right_eq_some.mp hs
  have hflag : (s.backends b).closed = false := by
    cases hc : (s.backends b).closed with
    | false => rfl
    | true =>
      have he := h.tidy.wired.flag b hc
      rw [ho] at he
      cases he
  have hopen : (s.sessions (s.backends b).owner).closed = false :=
    h.tidy.owner_open (by rw [ho]; exact nofun) (by rw [ho]; exact nofun)
  rw [hflag, if_neg Bool.false_ne_true] at hs
  exact (Option.some.inj hs).symm.trans (if_neg (hopen ▸ Bool.false_ne_true))

theorem Severed.backendClose (h : Severed s) (hf : JoinsOpen s (.backendClose b))
    (hs : s.step (.backendClose b) = some s') : Severed s' := by
  obtain ⟨t, hc, hq⟩ := step_change hs
  have hst : Stays s s' := by
    have ht := hc.stays nofun nofun
    exact ⟨fun w => (ht.sessions w).trans (hq.same.stays.sessions w),
      hq.same.nextWs.trans ht.nextWs,
      hq.same.nextBackend.trans ht.nextBackend, fun b => (hq.same.stays.owner b).trans (ht.owner b),
      fun b hb => ht.connecting b (hq.same.stays.connecting b hb), fun b hb =>
      ht.opened b (hq.same.backends ▸ hb),
      fun a ha => ht.hashing a (hq.same.hashing ▸ ha)⟩
  apply h.stays (h.tidy.step hf hs) hst
  intro c hce
  rw [h.backendClose_eq hs] at hce ⊢
  generalize hm : (s.modifyBackend b fun connection =>
    { connection with socket := .ended, closed := true }) = m at hce ⊢
  have hsame : Same m (m.sendError (s.backends b).owner (units "BACKEND_DISCONNECTED")
      (units "Lost connection to the ThreadLink server.")) := by
    unfold sendError sendTo
    split
    · exact ⟨rfl, rfl, fun _ => ⟨_, _, rfl⟩, rfl, rfl, rfl, rfl, rfl, rfl, rfl⟩
    · exact .refl m
  have hcm : (m.backends c).socket = .ended := hsame.backends ▸ hce
  subst hm
  rcases ended_modifyBackend hcm with he | rfl
  · exact .inl he
  · exact .inr (ws_closeWs_self _ _)

/-- The other changes. -/
theorem Severed.change (h : Severed s) (hf : Unbroken s e) (hn : ∀ b, e ≠ .backendClose b)
    (hc : Change s e t) : Severed t := by
  have ht := h.tidy.change hf.2 hc
  have hw := h.tidy.wired
  cases hc with
  | connection => exact h.onConnection
  | @joined i w a account users hi ho hcl =>
    obtain ⟨ha, hopen⟩ := hf.2 _ (mem_joins hi ho hcl)
    have hu : Severed ((s.wake i).setUsers users) := ⟨(h.tidy.wake _).setUsers _, h.shut⟩
    exact hu.join (hw.hashing _ (List.mem_of_getElem? hi)) ha hopen _
  | refused => exact ⟨ht, h.shut⟩
  | elsewhere => exact ⟨ht, h.shut⟩
  | oversized => cases hf.1
  | @backendClose b => exact absurd rfl (hn b)
  | shutdown => exact h.close
  | @wsClose w hl hopen =>
    refine h.stays ht ((Change.wsClose hl hopen).stays nofun nofun) ?_
    intro b hb
    rcases ended_leave hb with he | hbk
    · exact .inl he
    · right
      rw [sessions_modifySession_self] at hbk
      rw [((hw.backend w b).mp hbk).2, sessions_leave_self, sessions_modifySession_self]
      exact nofun
  | @connectFailed b hb =>
    refine h.stays ht ((Change.connectFailed hb).stays nofun nofun) ?_
    intro c hc
    replace hc :
        ((s.modifyBackend b fun connection => { connection with socket := .ended }).backends
          c).socket = .ended :=
      hc
    rcases ended_modifyBackend hc with he | rfl
    · exact .inl he
    · exact .inr (ws_closeWs_self _ _)
  | @connected b hb =>
    refine h.stays ht ((Change.connected hb).stays nofun nofun) ?_
    intro c hc
    by_cases hcb : c = b
    · subst hcb
      rw [backends_modifyBackend_self] at hc
      cases hc
    · rw [backends_modifyBackend_of_ne s hcb] at hc
      exact .inl hc
  | message hl => exact h
  | raised hl => exact ⟨ht, h.shut⟩
  | suspend hl => exact ⟨ht, h.shut⟩
  | logout hl => exact h.of_backends ht ((Stays.refl s).closeWs _) rfl
  | wsClosing hl => exact h.of_backends ht ((Stays.refl s).closeWs _) rfl
  | wsCloseAgain hl hcl =>
    exact h.of_backends ht ((Change.wsCloseAgain hl hcl).stays nofun nofun) rfl
  | frame => exact h
  | nickTaken => exact h.of_backends ht ((Stays.refl s).closeWs _) rfl
  | welcome hb he hm => exact h.of_backends ht ((Change.welcome hb he hm).stays nofun nofun) rfl
  | welcomeReady hb he hm =>
    exact h.of_backends ht ((Change.welcomeReady hb he hm).stays nofun nofun) rfl
  | nickReady hb he ho hr =>
    exact h.of_backends ht ((Change.nickReady hb he ho hr).stays nofun nofun) rfl
  | rename hb he ho hr => exact h.of_backends ht ((Change.rename hb he ho hr).stays nofun nofun) rfl

theorem Severed.step (h : Severed s) (hf : Unbroken s e) (hs : s.step e = some s') :
    Severed s' := by
  by_cases hbc : ∃ b, e = .backendClose b
  · obtain ⟨b, rfl⟩ := hbc
    exact h.backendClose hf.2 hs
  · obtain ⟨t, hc, hq⟩ := step_change hs
    exact (h.change hf (fun b he => hbc ⟨b, he⟩) hc).same hq.same

theorem severed_of_run {env : Env} {config : GatewayConfig}
    (h : RunIn step Unbroken (init env config) s) : Severed s :=
  h.invariant (severed_init env config) fun _ _ _ hs hf hst => hs.step hf hst

/-! ### Sessions that have arrived -/

/-- A session does not arrive twice. -/
theorem arrived_step (hs : s.step e = some s') (hx : (s.sessions x).ws ≠ .unborn) :
    (s'.sessions x).ws ≠ .unborn := by
  obtain ⟨z, presence, pending, hz, hx'⟩ := step_becomes hs x
  rw [hx']
  cases hz with
  | closing => exact nofun
  | arrives => exact nofun
  | closed => exact nofun
  | _ => exact hx

/-- Who waits for a hash has waited before or has sent a message. -/
theorem hashing_step (hs : s.step e = some s') {a : WsId × Attempt} (ha : a ∈ s'.hashing) :
    a ∈ s.hashing ∨ s.live a.1 = true := by
  obtain ⟨t, hc, hq⟩ := step_change hs
  rw [hq.same.hashing] at ha
  cases hc.moves with
  | arrives => exact .inl ha
  | joins => exact .inl (List.mem_of_mem_eraseIdx ha)
  | leaves h => exact h.hashing a ha
  | fails h => exact h.hashing a ha
  | stays h => exact h.hashing a ha

/-- Who is authenticated, or waits to be, has arrived. -/
structure Arrived (s : GatewayServer) : Prop where
  /-- Who is authenticated. -/
  authenticated : ∀ w, (s.sessions w).authenticated = true → (s.sessions w).ws ≠ .unborn
  /-- Who waits. -/
  hashing : ∀ a ∈ s.hashing, (s.sessions a.1).ws ≠ .unborn

theorem Arrived.step (h : Arrived s) (hs : s.step e = some s') : Arrived s' := by
  constructor
  · intro w ha
    by_cases has : (s.sessions w).authenticated = true
    · exact arrived_step hs (h.authenticated w has)
    · apply arrived_step hs
      obtain ⟨z, presence, pending, hz, hw⟩ := step_becomes hs w
      rw [hw] at ha
      cases hz with
      | joins hi => exact h.hashing _ (List.mem_of_getElem? hi)
      | arrives => cases ha
      | _ => exact absurd ha has
  · intro a ha
    rcases hashing_step hs ha with ha | hl
    · exact arrived_step hs (h.hashing a ha)
    · exact arrived_step hs fun hu => by simp [live, hu] at hl

theorem arrived_of_run {C : GatewayServer → Event → Prop} {env : Env} {config : GatewayConfig}
    (h : RunIn step C (init env config) s) : Arrived s :=
  h.invariant ⟨fun _ ha => (by cases ha), fun _ ha => absurd ha List.not_mem_nil⟩
    fun _ _ _ ha _ hs => ha.step hs

/-- A session whose connection has ended is being closed while it is in the roster, and
its close event takes it out. -/
theorem Severed.leaves_roster (h : Severed s) (ha : Arrived s) {id : Units}
    (hw : s.roster.find? id = some w) (hb : (s.sessions w).backend = some b)
    (he : (s.backends b).socket = .ended) :
    (s.sessions w).ws = .closing ∧ ∀ s', s.step (.wsClose w) = some s' → w ∉ s'.roster.values := by
  have ho := ((h.tidy.wired.backend w b).mp hb).2
  have hopen := h.tidy.listed id w hw
  have hauth := (h.tidy.wired.roster id w hw).2
  have hnc : (s.sessions w).ws ≠ .closed := by
    intro hc
    rw [(h.tidy.closed_iff w).mpr hc] at hopen
    cases hopen
  have hnu := ha.authenticated w hauth
  have hno := h.shut b he
  rw [ho] at hno
  refine ⟨?_, ?_⟩
  · cases hws : (s.sessions w).ws with
    | closing => rfl
    | unborn => exact absurd hws hnu
    | opened => exact absurd hws hno
    | closed => exact absurd hws hnc
  · intro s' hs hm
    obtain ⟨t, hc, hq⟩ := step_change hs
    obtain ⟨id', hid⟩ := OrdMap.mem_values.mp hm
    rw [hq.same.roster] at hid
    cases hc with
    | wsClose hl =>
      rw [roster_leave (by rw [sessions_modifySession_self]; exact hauth),
        sessions_modifySession_self] at hid
      obtain ⟨hid, hne⟩ := find?_of_erase hid
      exact hne (h.tidy.wired.roster id' w hid).1.symm
    | wsCloseAgain hl hcl =>
      rw [hopen] at hcl
      cases hcl

/-- What the browser of a session gets whose connection has ended. -/
def disconnected : Sent :=
  ⟨.error (units "BACKEND_DISCONNECTED") (units "Lost connection to the ThreadLink server.") none,
    []⟩

/-- The end of a connection is told to the browser, and its WebSocket closed. -/
theorem Severed.told (h : Severed s) (hs : s.step (.backendClose b) = some s') :
    (s'.sessions (s.backends b).owner).ws ≠ .opened ∧
    ((s.sessions (s.backends b).owner).ws = .opened →
      s'.sent (s.backends b).owner = s.sent (s.backends b).owner ++ [disconnected]) := by
  rw [h.backendClose_eq hs]
  refine ⟨ws_closeWs_self _ _, ?_⟩
  intro ho
  generalize hm :
    (s.modifyBackend b fun connection => { connection with socket := .ended, closed := true }) = m
  have hsess : m.sessions = s.sessions := by rw [← hm]; rfl
  have hsent : m.sent = s.sent := by rw [← hm]; rfl
  rw [sendError, sendTo, hsess, if_pos ho, ← hsent]
  exact Function.update_self ..

/-- **A lost connection is reported.** A connection that ends by itself emits `close` once,
unless a frame was too large; what happens to its socket is what the gateway handles; and
where no frame is too large and no session joins twice or late, the browser is told and its
WebSocket closed, and a session without its connection is on its way out of the roster. -/
theorem lost_connection_is_reported (max : ℕ) (env : Env) (config : GatewayConfig) :
    (∀ (past : List (WiredConnection × SocketEvent)) (c : WiredConnection),
      Path WiredConnection.step (.connected max) past c → (∀ a ∈ past, a.2 ≠ .ownerClose) →
      c.ended = true →
      (c.closes = 1 ↔ (split max (WiredConnection.received past)).oversized = false)) ∧
    (∀ (past : List (WiredConnection × SocketEvent)) (c c' : WiredConnection)
      (s : GatewayServer) (b : BackendId) (e : SocketEvent),
      Path WiredConnection.step (.connected max) past c → c.Drives s b →
      s.fault = none → e ≠ .ownerClose → c.step e = some c' →
      ∃ u, WiredConnection.Handles s (c.events b e) u ∧ (u.fault.isSome = true ∨ c'.Drives u b)) ∧
    ∀ s : GatewayServer, RunIn step Unbroken (init env config) s →
      (∀ b s', s.step (.backendClose b) = some s' →
        (s'.sessions (s.backends b).owner).ws ≠ .opened ∧
        ((s.sessions (s.backends b).owner).ws = .opened →
          s'.sent (s.backends b).owner = s.sent (s.backends b).owner ++ [disconnected])) ∧
      ∀ id w b, s.roster.find? id = some w → (s.sessions w).backend = some b →
        (s.backends b).socket = .ended →
        (s.sessions w).ws = .closing ∧ ∀ s', s.step (.wsClose w) = some s' →
          w ∉ s'.roster.values := by
  refine ⟨fun past c hp hn he => WiredConnection.closes_iff hp hn he, ?_, ?_⟩
  · intro past c c' s b e hp hd hf he hs
    exact hd.step (WiredConnection.told_of_path hp) hf he hs
  · intro s hr
    have hsev := severed_of_run hr
    refine ⟨fun b s' hs => hsev.told hs, ?_⟩
    intro id w b hw hb he
    exact hsev.leaves_roster (arrived_of_run hr) hw hb he

/-- A session has joined and is connected. -/
def oneConnected : List Event := oneRegister ++ [.connected 0]

set_option maxRecDepth 4000 in
theorem alice_is_told :
    (∃ past c, Path WiredConnection.step (.connected 8192) past c ∧ c.ended = true ∧ c.closes = 1) ∧
    ∃ s s', RunIn step Unbroken (init .sample {}) s ∧ s.step (.backendClose 0) = some s' ∧
      s'.sent 0 = s.sent 0 ++ [disconnected] := by
  obtain ⟨hc, -, hr⟩ := lost_connection_is_reported 8192 .sample {}
  constructor
  · obtain ⟨past, c, hp, hn, hs, he⟩ := WiredConnection.exists_ended 8192 (encode [])
    refine ⟨past, c, hp, he, (hc past c hp hn he).mpr ?_⟩
    rw [hs, ← List.append_nil (encode []), split_encode_append (Nat.zero_le _) (by decide),
      split_of_short (by decide)]
  · have h : (execAllIn step Unbroken (init .sample {}) oneConnected).map (fun s =>
        ((s.step (.backendClose 0)).isSome, (s.backends 0).owner, (s.sessions 0).ws)) =
        some (true, 0, .opened) := by
      decide
    obtain ⟨s, hs, he⟩ := exists_runIn_of_execAllIn h
    simp only [Prod.mk.injEq] at he
    obtain ⟨hstep, ho, hws⟩ := he
    obtain ⟨s', hs'⟩ := Option.isSome_iff_exists.mp hstep
    have ht := ((hr s hs).1 0 s' hs').2
    rw [ho] at ht
    exact ⟨s, s', hs, hs', ht hws⟩

/-- The header of a frame of 8193 bytes. -/
def largeHeader : Bytes := writeHeader 8193

set_option maxRecDepth 4000 in
/-- **It is not reported** if the connection ends because of a frame that is too large:
nobody is told, and the session stays in the roster with an open WebSocket. -/
theorem oversized_is_not_reported :
    (∃ past c, Path WiredConnection.step (.connected 8192) past c ∧
      (∀ a ∈ past, a.2 ≠ .ownerClose) ∧
      c.ended = true ∧ c.closes ≠ 1) ∧
    ∃ s, Run step (init .sample {}) s ∧ s.fault = none ∧ s.roster.values = [0] ∧
      (s.sessions 0).backend = some 0 ∧
      (s.backends 0).socket = .ended ∧ (s.sessions 0).ws = .opened ∧
      s.step (.backendClose 0) = none := by
  constructor
  · obtain ⟨past, c, hp, hn, hs, he⟩ := WiredConnection.exists_ended 8192 largeHeader
    refine ⟨past, c, hp, hn, he, ?_⟩
    intro hone
    have hov := (WiredConnection.closes_iff hp hn he).mp hone
    rw [hs, split_of_oversized (by decide) (by decide)] at hov
    cases hov
  · obtain ⟨s, hs, hf, hr, hb, he, hws, hn⟩ := exists_run_of_any step (init .sample {})
      (oneConnected ++ [.backendOversized 0]) (fun s => s.fault = none ∧ s.roster.values = [0] ∧
        (s.sessions 0).backend = some 0 ∧ (s.backends 0).socket = .ended ∧
        (s.sessions 0).ws = .opened ∧
        (s.step (.backendClose 0)).isNone = true) (by decide)
    exact ⟨s, hs, hf, hr, hb, he, hws, Option.isNone_iff_eq_none.mp hn⟩

end GatewayServer

end ThreadLink.Gateway
