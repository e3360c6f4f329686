import ThreadLink.Backend.Mirror
import ThreadLink.Gateway.Standing
import ThreadLink.System.Lines

/-!
# The gateway and the chat server

Both machines run side by side. A backend connection of the gateway is a TCP connection that
the chat server accepts at some time after `connect`; what is written at one end arrives in
order at the other. The chat server may have other clients too.

## The model

* `conn`, `transmitted` and `read` say which connection of the chat server belongs to a
  backend connection, how many of its lines have arrived, and how many frames have been read.
  They are the TCP connections, which neither program has as data.
* A connection may end at either side at any time, for the other side as well: `backendClose`
  and `connectFailed` are events of the gateway, `recvEnd` and a write that fails are the chat
  server's. So lines and frames may be lost, but only all that come after.
* A frame over the gateway's limit is not read: the decoder reports it and nothing after it.
* `accounts` records for each request the accounts of its sender and of its peer. Nothing
  reads it.

## What is proved

* `step_moves` — what a step does.
* `gateway_of_run`, `server_of_run` — a run of the network is a run of each machine.
* `Linked` — two backend connections are two connections of the chat server; `heard_step`,
  what the gateway reads of one.
* `Sound` — what holds of both machines in every run.
-/

namespace ThreadLink.System

open Text Runs Backend Gateway

/-- The gateway, the chat server, and the connections between them. -/
structure Network where
  /-- The gateway. -/
  gateway : GatewayServer
  /-- The chat server. -/
  server : Server
  /-- The connection the chat server has accepted for a backend connection. -/
  conn : BackendId → Option ConnId
  /-- How many lines of a backend connection have arrived. -/
  transmitted : BackendId → ℕ
  /-- How many frames the gateway has read from it. -/
  read : BackendId → ℕ
  /-- The accounts of the sender and of the peer of each request. -/
  accounts : List (Units × Option Units)

/-- What can happen. -/
inductive Action where
  /-- The gateway handles an event that is no frame. -/
  | gateway (e : GatewayServer.Event)
  /-- The gateway reads the next frame of a backend connection. -/
  | deliver (b : BackendId)
  /-- The chat server makes a step for itself or for another client. -/
  | server (a : Server.Action)
  /-- It accepts a backend connection. -/
  | accept (b : BackendId) (ch : Server.Choice)
  /-- The next line of a backend connection arrives there. -/
  | transmit (b : BackendId)

namespace Network

/-- Two programs that have just been started. -/
def init (env : Env) (gateway : GatewayConfig) (server : LoadedConfig) : Network where
  gateway := .init env gateway
  server := .init server
  conn _ := none
  transmitted _ := 0
  read _ := 0
  accounts := []

/-- An event that comes with a frame. -/
def isFrame : GatewayServer.Event → Bool
  | .backendFrame _ _ | .backendOversized _ => true
  | _ => false

/-- A connection of the chat server is a backend connection of the gateway. -/
def IsLinked (s : Network) (c : ConnId) : Prop := ∃ b < s.gateway.nextBackend, s.conn b = some c

instance (s : Network) (c : ConnId) : Decidable (s.IsLinked c) :=
  inferInstanceAs (Decidable (∃ b < _, _))

/-- What the chat server does without the gateway: only other clients send it anything. -/
def Foreign (s : Network) : Server.Action → Prop
  | .arrive c f => c < s.server.nextConn ∧ ¬ s.IsLinked c ∧ f.serial = none
  | _ => True

instance (s : Network) (a : Server.Action) : Decidable (s.Foreign a) :=
  match a with
  | .arrive _ _ => inferInstanceAs (Decidable (_ ∧ _ ∧ _))
  | .iterate _ | .leaveLoop | .requestShutdown | .run _ _ | .recv _ | .recvEnd _ | .rehash _ =>
    isTrue trivial

/-- The next line of a backend connection to arrive, and where. -/
def nextLine (s : Network) (b : BackendId) : Option (ConnId × Line) :=
  (s.conn b).bind fun c => ((s.gateway.outbox b)[s.transmitted b]?).map fun line => (c, line)

/-- What the chat server has written to a backend connection. -/
def frames (s : Network) (b : BackendId) : List Frame := (s.conn b).elim [] s.server.written

/-- The frames the gateway has read from it. -/
def heard (s : Network) (b : BackendId) : List Frame := (s.frames b).take (s.read b)

/-- The next frame to read. -/
def nextFrame (s : Network) (b : BackendId) : Option Frame := (s.frames b)[s.read b]?

/-- The gateway reads a frame. -/
def Fits (s : Network) (f : Frame) : Prop :=
  f.line.payload.length ≤ s.gateway.config.backendMaxMessageBytes

instance (s : Network) (f : Frame) : Decidable (s.Fits f) := inferInstanceAs (Decidable (_ ≤ _))

/-- What the gateway handles in a step. -/
def event? (s : Network) : Action → Option GatewayServer.Event
  | .gateway e => if isFrame e then none else some e
  | .deliver b =>
    (s.nextFrame b).map fun f => if s.Fits f then .backendFrame b f.line.payload
      else .backendOversized b
  | .server _ | .accept _ _ | .transmit _ => none

/-- What the chat server does in a step. -/
def action? (s : Network) : Action → Option Server.Action
  | .gateway _ | .deliver _ => none
  | .server a => if s.Foreign a then some a else none
  | .accept b ch =>
    if b < s.gateway.nextBackend ∧ s.conn b = none ∧ (s.server.todo .main).head? = some .accept ∧
        0 ≤ ch.fd then
      some (.run .main ch)
    else none
  | .transmit b => (s.nextLine b).map fun l => .arrive l.1 ⟨utf8Encode l.2.text, l.2.serial⟩

/-- The accounts of a request. -/
def accountsOf (g : GatewayServer) (r : Request) : Units × Option Units :=
  ((g.sessions r.sender).id, r.peer.map fun peer => (g.sessions peer).id)

/-- The gateway has handled an event. -/
def handled (s : Network) (g : GatewayServer) : Network :=
  { s with gateway := g, accounts := s.accounts ++
    (g.requests.drop s.accounts.length).map (accountsOf g) }

/-- One step. -/
def step (s : Network) (a : Action) : Option Network :=
  match a with
  | .gateway _ => (s.event? a).bind fun e => (s.gateway.step e).map s.handled
  | .deliver b =>
    (s.event? a).bind fun e => (s.gateway.step e).map fun g =>
      match e with
      | .backendFrame _ _ => { s.handled g with read := Function.update s.read b (s.read b + 1) }
      | _ => s.handled g
  | .server _ => (s.action? a).bind fun a' => (s.server.step a').map fun t => { s with server := t }
  | .accept b _ =>
    (s.action? a).bind fun a' => (s.server.step a').map fun t =>
      { s with server := t, conn := Function.update s.conn b (some s.server.nextConn) }
  | .transmit b =>
    (s.action? a).bind fun a' => (s.server.step a').map fun t =>
      { s with server := t, transmitted := Function.update s.transmitted b (s.transmitted b + 1) }

variable {s s' t : Network} {a : Action} {b : BackendId} {c : ConnId} {f : Frame}

/-- **What a step does.** -/
inductive Moves (s : Network) : Action → Network → Prop where
  /-- The gateway handles an event that is no frame. -/
  | gateway {e : GatewayServer.Event} {g : GatewayServer} (hn : isFrame e = false)
      (h : s.gateway.step e = some g) :
    Moves s (.gateway e) (s.handled g)
  /-- It reads a frame. -/
  | deliver {b : BackendId} {f : Frame} {g : GatewayServer} (hf : s.nextFrame b = some f)
    (hm : s.Fits f)
    (h : s.gateway.step (.backendFrame b f.line.payload) = some g) :
    Moves s (.deliver b) { s.handled g with read := Function.update s.read b (s.read b + 1) }
  /-- It finds one too large. -/
  | oversized {b : BackendId} {f : Frame} {g : GatewayServer} (hf : s.nextFrame b = some f)
    (hm : ¬ s.Fits f)
    (h : s.gateway.step (.backendOversized b) = some g) : Moves s (.deliver b) (s.handled g)
  /-- The chat server makes a step. -/
  | server {a : Server.Action} {t : Server} (hf : s.Foreign a) (h : s.server.step a = some t) :
    Moves s (.server a) { s with server := t }
  /-- It accepts a backend connection. -/
  | accept {b : BackendId} {ch : Server.Choice} {t : Server} (hb : b < s.gateway.nextBackend)
    (hn : s.conn b = none)
    (ht : (s.server.todo .main).head? = some .accept) (hfd : 0 ≤ ch.fd)
      (h : s.server.step (.run .main ch) = some t) :
    Moves s (.accept b ch)
      { s with server := t, conn := Function.update s.conn b (some s.server.nextConn) }
  /-- A line arrives. -/
  | transmit {b : BackendId} {c : ConnId} {line : Line} {t : Server}
    (hl : s.nextLine b = some (c, line))
    (h : s.server.step (.arrive c ⟨utf8Encode line.text, line.serial⟩) = some t) :
    Moves s (.transmit b)
      { s with server := t, transmitted := Function.update s.transmitted b (s.transmitted b + 1) }

theorem step_moves (h : s.step a = some s') : Moves s a s' := by
  unfold step at h
  cases a with
  | gateway e =>
    obtain ⟨e', he, h⟩ := Option.bind_eq_some_iff.mp h
    obtain ⟨g, hg, rfl⟩ := Option.map_eq_some_iff.mp h
    simp only [event?] at he
    split at he
    · cases he
    · obtain rfl := Option.some.inj he
      exact .gateway (by simpa using ‹¬ isFrame e = true›) hg
  | deliver b =>
    obtain ⟨e, he, h⟩ := Option.bind_eq_some_iff.mp h
    obtain ⟨g, hg, rfl⟩ := Option.map_eq_some_iff.mp h
    obtain ⟨f, hf, rfl⟩ := Option.map_eq_some_iff.mp he
    by_cases hm : s.Fits f
    · simp only [if_pos hm] at hg ⊢
      exact .deliver hf hm hg
    · simp only [if_neg hm] at hg ⊢
      exact .oversized hf hm hg
  | server a =>
    obtain ⟨a', ha, h⟩ := Option.bind_eq_some_iff.mp h
    obtain ⟨t, ht, rfl⟩ := Option.map_eq_some_iff.mp h
    simp only [action?] at ha
    split at ha
    · obtain rfl := Option.some.inj ha
      exact .server ‹_› ht
    · cases ha
  | accept b ch =>
    obtain ⟨a', ha, h⟩ := Option.bind_eq_some_iff.mp h
    obtain ⟨t, ht, rfl⟩ := Option.map_eq_some_iff.mp h
    simp only [action?] at ha
    split at ha
    · rename_i hc
      obtain rfl := Option.some.inj ha
      exact .accept hc.1 hc.2.1 hc.2.2.1 hc.2.2.2 ht
    · cases ha
  | transmit b =>
    obtain ⟨a', ha, h⟩ := Option.bind_eq_some_iff.mp h
    obtain ⟨t, ht, rfl⟩ := Option.map_eq_some_iff.mp h
    obtain ⟨⟨c, line⟩, hl, rfl⟩ := Option.map_eq_some_iff.mp ha
    exact .transmit hl ht

/-! ### The two machines -/

/-- A condition on the steps of the gateway. -/
def OfGateway (D : GatewayServer → GatewayServer.Event → Prop) (s : Network) (a : Action) : Prop :=
  ∀ e ∈ s.event? a, D s.gateway e

instance (D : GatewayServer → GatewayServer.Event → Prop) [∀ g e, Decidable (D g e)] (s : Network)
    (a : Action) : Decidable (OfGateway D s a) :=
  inferInstanceAs (Decidable (∀ e ∈ s.event? a, _))

/-- A condition on the steps of the chat server. -/
def OfServer (D : Server → Server.Action → Prop) (s : Network) (a : Action) : Prop :=
  ∀ a' ∈ s.action? a, D s.server a'

instance (D : Server → Server.Action → Prop) [∀ t a, Decidable (D t a)] (s : Network) (a : Action) :
    Decidable (OfServer D s a) := inferInstanceAs (Decidable (∀ a' ∈ s.action? a, _))

/-- What a step is to the gateway. -/
theorem Moves.gateway_step (h : Moves s a s') :
    s'.gateway = s.gateway ∨ ∃ e ∈ s.event? a, s.gateway.step e = some s'.gateway := by
  cases h with
  | gateway hn h => exact .inr ⟨_, by simp [event?, hn], h⟩
  | deliver hf hm h => exact .inr ⟨_, by simp [event?, hf, hm], h⟩
  | oversized hf hm h => exact .inr ⟨_, by simp [event?, hf, hm], h⟩
  | server | accept | transmit => exact .inl rfl

/-- What it is to the chat server. -/
theorem Moves.server_step (h : Moves s a s') :
    s'.server = s.server ∨ ∃ a' ∈ s.action? a, s.server.step a' = some s'.server := by
  cases h with
  | gateway | deliver | oversized => exact .inl rfl
  | server hf h => exact .inr ⟨_, by simp [action?, hf], h⟩
  | accept hb hn ht hfd h => exact .inr ⟨_, by simp [action?, hb, hn, ht, hfd], h⟩
  | transmit hl h => exact .inr ⟨_, by simp [action?, hl], h⟩

/-- **A run of the network is a run of the gateway.** -/
theorem gateway_of_run {D : GatewayServer → GatewayServer.Event → Prop}
    (h : RunIn step (OfGateway D) s t) : RunIn GatewayServer.step D s.gateway t.gateway := by
  apply h.map Network.gateway
  intro s a s' hc hs
  rcases (step_moves hs).gateway_step with he | ⟨e, he, hs⟩
  · exact .inl he
  · exact .inr ⟨e, hc e he, hs⟩

/-- **And of the chat server.** -/
theorem server_of_run {D : Server → Server.Action → Prop} (h : RunIn step (OfServer D) s t) :
    RunIn Server.step D s.server t.server := by
  apply h.map Network.server
  intro s a s' hc hs
  rcases (step_moves hs).server_step with he | ⟨a', ha, hs⟩
  · exact .inl he
  · exact .inr ⟨a', hc a' ha, hs⟩

/-! ### The connections -/

/-- How the connections hang together. -/
structure Linked (s : Network) : Prop where
  /-- A connection that has been accepted had been created. -/
  created : ∀ b c, s.conn b = some c → b < s.gateway.nextBackend
  /-- It is one of the chat server's. -/
  accepted : ∀ b c, s.conn b = some c → c < s.server.nextConn
  /-- It is accepted once. -/
  injective : ∀ b b' c, s.conn b = some c → s.conn b' = some c → b = b'
  /-- Only what has been written is read. -/
  read : ∀ b, s.read b ≤ (s.frames b).length

theorem linked_init (env : Env) (gateway : GatewayConfig) (server : LoadedConfig) :
    Linked (init env gateway server) where
  created _ _ h := by cases h
  accepted _ _ h := by cases h
  injective _ _ _ h := by cases h
  read _ := le_rfl

theorem frames_of_conn (h : s.conn b = some c) : s.frames b = s.server.written c := by
  rw [frames, h]
  rfl

theorem frames_of_none (h : s.conn b = none) : s.frames b = [] := by
  rw [frames, h]
  rfl

/-- A frame that is read is the next after those that have been read. -/
theorem heard_concat (hf : s.nextFrame b = some f) :
    (s.frames b).take (s.read b + 1) = s.heard b ++ [f] := by
  unfold nextFrame at hf
  rw [List.take_add_one, hf]
  rfl

theorem mem_frames (hf : s.nextFrame b = some f) : f ∈ s.frames b := List.mem_of_getElem? hf

/-- What a step of the gateway does to what connections it has. -/
theorem created_step (hs : s.step a = some s') (hb : b < s.gateway.nextBackend) :
    b < s'.gateway.nextBackend := by
  rcases (step_moves hs).gateway_step with he | ⟨e, -, hs⟩
  · rw [he]
    exact hb
  · exact (GatewayServer.owner_step hs hb).1

/-- The chat server accepts a connection with the next number. -/
theorem accept_step {t u : Server} {ch : Server.Choice} (ht : (t.todo .main).head? = some .accept)
    (hfd : 0 ≤ ch.fd) (h : t.step (.run .main ch) = some u) : u.nextConn = t.nextConn + 1 := by
  obtain ⟨op, rest, t₁, new, hto, he, rfl⟩ := Server.step_run h
  rw [hto] at ht
  obtain rfl := Option.some.inj ht
  simp only [Server.exec, if_neg (not_lt.mpr hfd)] at he
  split at he
  · cases he
  · simp only [Option.some.injEq, Prod.mk.injEq] at he
    obtain ⟨rfl, -⟩ := he
    rfl

/-- What has been written to a backend connection stays written. -/
theorem frames_step (hs : s.step a = some s') (b : BackendId) : s.frames b <+: s'.frames b := by
  have hserver {t : Server} {a' : Server.Action} (h : s.server.step a' = some t)
    {conn : BackendId → Option ConnId}
      (hc : ∀ c, s.conn b = some c → conn b = some c) :
      s.frames b <+: (conn b).elim [] t.written := by
    cases hb : s.conn b with
    | none =>
      rw [frames_of_none hb]
      exact List.nil_prefix
    | some c =>
      rw [frames_of_conn hb, hc c hb]
      exact Server.written_grows h c
  cases step_moves hs with
  | gateway | deliver | oversized => exact List.prefix_rfl
  | server hf h => exact hserver h fun _ => id
  | transmit hl h => exact hserver h fun _ => id
  | @accept b' ch t hb hn ht hfd h =>
    apply hserver h
    intro c hc
    by_cases hbb : b = b'
    · subst hbb
      rw [hn] at hc
      cases hc
    · show Function.update s.conn b' _ b = _
      rw [Function.update_of_ne hbb, hc]

/-- **What the gateway has read after a step**: what it had read, or one more frame. -/
theorem heard_step (hL : Linked s) (hs : s.step a = some s') (b : BackendId) :
    s'.heard b = s.heard b ∨ ∃ f, a = .deliver b ∧ s.nextFrame b = some f ∧
      s'.heard b = s.heard b ++ [f] := by
  have hserver (hr : s'.read b = s.read b) : s'.heard b = s.heard b := by
    obtain ⟨l, hl⟩ := frames_step hs b
    rw [heard, heard, hr, ← hl, List.take_append_of_le_length (hL.read b)]
  cases step_moves hs with
  | gateway => exact .inl rfl
  | oversized => exact .inl rfl
  | server => exact .inl (hserver rfl)
  | accept => exact .inl (hserver rfl)
  | transmit => exact .inl (hserver rfl)
  | @deliver b' f g hf hm h =>
    by_cases hb : b = b'
    · subst hb
      refine .inr ⟨f, rfl, hf, ?_⟩
      rw [← heard_concat hf]
      show (s.frames b).take (Function.update s.read b (s.read b + 1) b) = _
      rw [Function.update_self]
    · refine .inl (hserver ?_)
      show Function.update s.read b' (s.read b' + 1) b = _
      rw [Function.update_of_ne hb]

theorem Linked.step (hL : Linked s) (hI : s.server.Inv) (hI' : s'.server.Inv)
    (hs : s.step a = some s') : Linked s' := by
  have hlt {c : ConnId} (hc : c < s.server.nextConn) : c < s'.server.nextConn := by
    rcases (step_moves hs).server_step with he | ⟨a', -, hs⟩
    · rw [he]
      exact hc
    · exact Server.lt_nextConn_step hI hI' hs hc
  have hread (b : BackendId) (hr : s'.read b = s.read b) : s'.read b ≤ (s'.frames b).length :=
    hr ▸ (hL.read b).trans (frames_step hs b).length_le
  cases step_moves hs with
  | gateway =>
    exact ⟨fun b c h => created_step hs (hL.created b c h), hL.accepted, hL.injective, hL.read⟩
  | oversized =>
    exact ⟨fun b c h => created_step hs (hL.created b c h), hL.accepted, hL.injective, hL.read⟩
  | server =>
    exact ⟨hL.created, fun b c h => hlt (hL.accepted b c h), hL.injective, fun b => hread b rfl⟩
  | transmit =>
    exact ⟨hL.created, fun b c h => hlt (hL.accepted b c h), hL.injective, fun b => hread b rfl⟩
  | @deliver b' f g hf hm h =>
    refine ⟨fun b c h => created_step hs (hL.created b c h), hL.accepted, hL.injective, ?_⟩
    intro b
    by_cases hb : b = b'
    · subst hb
      show Function.update s.read b (s.read b + 1) b ≤ _
      rw [Function.update_self]
      exact (List.getElem?_eq_some_iff.mp hf).1
    · exact hread b (Function.update_of_ne hb ..)
  | @accept b' ch t hb hn ht hfd h =>
    -- the new connection has a number of its own
    have hc' (b : BackendId) (c : ConnId)
        (hbc : Function.update s.conn b' (some s.server.nextConn) b = some c) :
        b = b' ∧ c = s.server.nextConn ∨ b ≠ b' ∧ s.conn b = some c := by
      by_cases hbb : b = b'
      · subst hbb
        rw [Function.update_self] at hbc
        exact .inl ⟨rfl, (Option.some.inj hbc).symm⟩
      · rw [Function.update_of_ne hbb] at hbc
        exact .inr ⟨hbb, hbc⟩
    have hnew := accept_step ht hfd h
    refine ⟨?_, ?_, ?_, fun b => hread b rfl⟩
    · intro b c hbc
      rcases hc' b c hbc with ⟨rfl, -⟩ | ⟨-, hbc⟩
      · exact hb
      · exact hL.created b c hbc
    · intro b c hbc
      rcases hc' b c hbc with ⟨-, rfl⟩ | ⟨-, hbc⟩
      · rw [hnew]
        exact Nat.lt_succ_self _
      · exact hlt (hL.accepted b c hbc)
    · intro b₁ b₂ c h₁ h₂
      rcases hc' b₁ c h₁ with ⟨rfl, rfl⟩ | ⟨-, hb₁⟩ <;> rcases hc' b₂ _ h₂ with ⟨rfl, hc₂⟩
      | ⟨-, hb₂⟩
      · rfl
      · exact absurd (hL.accepted _ _ hb₂) (lt_irrefl _)
      · exact absurd (hL.accepted _ _ hb₁) (hc₂ ▸ lt_irrefl _)
      · exact hL.injective _ _ _ hb₁ hb₂

/-- What holds of the network in every run. -/
structure Sound (s : Network) : Prop where
  /-- The connections. -/
  linked : Linked s
  /-- The chat server. -/
  orderly : s.server.Orderly
  /-- Where its messages come from. -/
  sourced : s.server.Sourced fun _ _ => True
  /-- The gateway. -/
  joined : s.gateway.Joined

theorem sound_init (env : Env) (gateway : GatewayConfig) (server : LoadedConfig) :
    Sound (init env gateway server) :=
  ⟨linked_init .., Server.orderly_init _, Server.sourced_init _, GatewayServer.joined_init ..⟩

theorem Sound.step (hS : Sound s) (hs : s.step a = some s') : Sound s' := by
  have hserver : s'.server.Orderly ∧ s'.server.Sourced fun _ _ => True := by
    rcases (step_moves hs).server_step with he | ⟨a', -, h⟩
    · rw [he]
      exact ⟨hS.orderly, hS.sourced⟩
    · exact ⟨hS.orderly.step h,
        hS.sourced.step hS.orderly.inv hS.orderly.named (fun _ _ _ => trivial) h⟩
  refine ⟨hS.linked.step hS.orderly.inv hserver.1.inv hs, hserver.1, hserver.2, ?_⟩
  rcases (step_moves hs).gateway_step with he | ⟨e, -, h⟩
  · rw [he]
    exact hS.joined
  · exact hS.joined.step h

/-! ### Runs on fixed inputs -/

/-- A thread of the chat server runs its next `n` blocks. -/
def runs (t : Tid) (n : ℕ) : List Action := List.replicate n (.server (.run t {}))

/-- After `n` others a WebSocket registers: its backend connection is accepted and welcomed, and
claims the username. -/
def registers (n : ℕ) (fd : Fd) (username : String) : List Action :=
  [.gateway .connection, .gateway (.message n 70 (some (GatewayServer.registerMessage username))),
    .gateway (.authDone 0), .gateway (.connected n), .server (.iterate true)] ++
    runs .main (n + 1) ++
  [.accept n { fd := fd }] ++ runs .main (6 + n) ++ [.deliver n, .transmit n, .server (.recv n)] ++
  runs (.handler n) (n + 3) ++ [.deliver n]

/-- Two sessions are ready. -/
def twoReady : List Action :=
  registers 0 5 "alice" ++ registers 1 6 "bob" ++ [.deliver 0, .deliver 0]

/-- A `setNickname` message. -/
def nicknameMessage (nickname : String) : Json :=
  .obj [(units "type", .str (units "setNickname")), (units "nickname", .str (units nickname))]

/-- A session asks for a nickname, and the chat server has changed its registry. -/
def asksFor (n : ℕ) (nickname : String) : List Action :=
  [.gateway (.message n 50 (some (nicknameMessage nickname))), .transmit n, .server (.recv n)] ++
  runs (.handler n) 1

end Network

end ThreadLink.System
