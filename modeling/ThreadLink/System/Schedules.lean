import ThreadLink.Backend.Joining
import ThreadLink.System.Exchange

/-!
# When nicknames can be trusted

A message line has the nickname that its sender, or its recipient, had when the chat server handled
the message, and the gateway looks it up in its roster when it reads the line. `Attributes` asks
that the nickname then says whose it is. This module has a condition on the schedule from which that
follows: whoever joins, leaves or is renamed does so while no message is under way, and nothing is
said before the roster and the registry agree on the names.

## The model

* `Clear` — no message is under way: as a line, as a frame that has arrived, in what a thread has
  still to do, or as a frame that can still be read.
* `Rests` — a step changes neither the roster nor the registry.
* `Truthful` says of a message line that it may be read now; `TruthfulOp` and `TruthfulFrame`, of
  what will be such a line, that it would be if all that is still to be done with it were done now.

## What is proved

* `NamesAgree.unique` — where the names agree, a nickname is one session's.
* `exec_truthful` — a block makes of what would be truthful what would be.
* `AllTruthful.step` — so does every step that rests; after the others there is nothing of the kind.
* `attributes_of_scheduled` — in a run with such a schedule nicknames say whose they are whenever a
  message is read.
-/

namespace ThreadLink.Backend

open Text

/-- The frame says something to somebody, or asks for it. -/
def ClientFrame.Talks (f : ClientFrame) : Prop :=
  (stripLine f.payload ≠ [] ∧ (stripLine f.payload).head? ≠ some 47) ∨
    (splitFirst (stripLine f.payload)).1 = bytes "/msg"

instance (f : ClientFrame) : Decidable f.Talks := inferInstanceAs (Decidable (_ ∨ _))

theorem ClientFrame.Chats.talks {f : ClientFrame} {text : Bytes} (h : f.Chats text) :
    f.Talks := by
  obtain ⟨rfl, hne, hh⟩ := h
  exact .inl ⟨hne, hh⟩

theorem ClientFrame.Messages.talks {f : ClientFrame} {target text : Bytes}
    (h : f.Messages target text) : f.Talks :=
  .inr h.1

instance (line : ServerLine) : Decidable line.IsMessage :=
  match line with
  | .msg _ _ | .priv _ _ | .privSent _ _ => isTrue trivial
  | .welcome _ | .sys _ | .nick _ _ | .list _ | .err _ _ => isFalse id

/-- The block says a message, or routes one. -/
def Op.Talks : Op → Prop
  | .handleChat _ _ _ | .handleMsg _ _ _ _ => True
  | .broadcast line _ _ _ => line.IsMessage
  | .sendToFd _ f | .sendFrame _ f => f.line.IsMessage
  | _ => False

instance (op : Op) : Decidable op.Talks :=
  match op with
  | .handleChat _ _ _ | .handleMsg _ _ _ _ => isTrue trivial
  | .broadcast line _ _ _ => inferInstanceAs (Decidable line.IsMessage)
  | .sendToFd _ f | .sendFrame _ f => inferInstanceAs (Decidable f.line.IsMessage)
  | .accept | .register _ _ | .markWelcomed _ | .startThread _ _ | .handleNick _ _ | .handleList _
  | .eraseClient _ | .closeFd _ | .endThread | .reap _ | .joinEntry _ | .collectFds | .shutdownFd _
  | .collectThreads | .joinThread _ | .closeListener => isFalse id

theorem Op.not_talks {op : Op} (hl : ∀ line ∈ op.line, ¬ line.IsMessage) (hh : ¬ op.Handles) :
    ¬ op.Talks := by
  cases op with
  | handleChat | handleMsg => exact absurd trivial hh
  | broadcast line => exact hl line rfl
  | sendToFd _ f | sendFrame _ f => exact hl f.line rfl
  | _ => exact id

end ThreadLink.Backend

namespace ThreadLink.System

open Text Runs Backend Gateway

namespace Network

variable {s s' t : Network} {a : Action} {b : BackendId} {c k : ConnId} {w p : WsId} {fd : Fd}
  {serial : Option ℕ} {line : ServerLine} {g : ClientFrame}

/-! ### Names that agree -/

/-- The connection of a session is registered under the nickname it goes by. -/
def Registered (s : Network) (w : WsId) : Prop :=
  ∃ b ∈ (s.gateway.sessions w).backend, ∃ c ∈ s.conn b,
    s.server.fds (s.server.fdOf c) = some c ∧
      ∃ r ∈ s.server.clients.find? (s.server.fdOf c),
        name r.nickname = (s.gateway.sessions w).nickname

instance (s : Network) (w : WsId) : Decidable (s.Registered w) :=
  inferInstanceAs (Decidable (∃ b ∈ _, ∃ c ∈ _, _ ∧ ∃ r ∈ _, _))

/-- The roster and the registry agree on the names. -/
def NamesAgree (s : Network) : Prop := ∀ w ∈ s.gateway.welcomedSessions, s.Registered w

instance (s : Network) : Decidable s.NamesAgree := inferInstanceAs (Decidable (∀ w ∈ _, _))

/-- A step changes neither the roster nor the registry, and accepts no connection of the
gateway. -/
@[mk_iff]
structure Rests (s s' : Network) : Prop where
  /-- The connections. -/
  conn : ∀ b < s'.gateway.nextBackend, s'.conn b = s.conn b
  /-- The registry, up to its order. -/
  entries : s'.server.clients.entries.Perm s.server.clients.entries
  /-- The roster. -/
  roster : s'.gateway.welcomedSessions = s.gateway.welcomedSessions
  /-- The nicknames in it, and the accounts. -/
  names : ∀ w ∈ s.gateway.welcomedSessions,
    (s'.gateway.sessions w).nickname = (s.gateway.sessions w).nickname ∧
      (s'.gateway.sessions w).id = (s.gateway.sessions w).id
  /-- The accounts that messages are read for. -/
  owner : ∀ b < s.gateway.nextBackend, (s'.gateway.sessions (s'.gateway.backends b).owner).id =
    (s.gateway.sessions (s.gateway.backends b).owner).id

instance (s s' : Network) : Decidable (s.Rests s') := decidable_of_iff' _ (rests_iff s s')

/-- Whether the gateway can still read frames of a backend connection. -/
def Readable (s : Network) (b : BackendId) : Prop :=
  (s.gateway.backends b).socket = .connecting ∨ (s.gateway.backends b).socket = .opened

instance (s : Network) (b : BackendId) : Decidable (s.Readable b) :=
  inferInstanceAs (Decidable (_ ∨ _))

/-- Whether a connection of the chat server is open. -/
def IsOpen (s : Network) (c : ConnId) : Prop := s.server.fds (s.server.fdOf c) = some c

instance (s : Network) (c : ConnId) : Decidable (s.IsOpen c) := inferInstanceAs (Decidable (_ = _))

/-- **No message is under way.** -/
@[mk_iff]
structure Clear (s : Network) : Prop where
  /-- As a line. -/
  lines : ∀ b < s.gateway.nextBackend, ∀ c ∈ s.conn b, s.IsOpen c →
    ∀ line ∈ (s.gateway.outbox b).drop (s.transmitted b),
      ¬ ClientFrame.Talks ⟨utf8Encode line.text, line.serial⟩
  /-- As a frame that has arrived. -/
  inbox : ∀ c < s.server.nextConn, s.IsOpen c → ∀ f ∈ s.server.inbox c, ¬ f.Talks
  /-- In what a thread has to do. -/
  todo : ∀ c < s.server.nextConn, ∀ op ∈ s.server.todo (.handler c), ¬ op.Talks
  /-- As a frame that can be read. -/
  unread : ∀ b < s.gateway.nextBackend, s.Readable b →
    ∀ f ∈ (s.frames b).drop (s.read b), ¬ f.line.IsMessage

instance (s : Network) : Decidable s.Clear := decidable_of_iff' _ (clear_iff s)

/-- What is said in a step: a request is made, or another client sends something. -/
def Says (s s' : Network) : Action → Prop
  | .server (.arrive _ f) => f.Talks
  | _ => s.gateway.requests.length < s'.gateway.requests.length

instance (s s' : Network) (a : Action) : Decidable (s.Says s' a) :=
  match a with
  | .server (.arrive _ f) => inferInstanceAs (Decidable f.Talks)
  | .server (.iterate _) | .server .leaveLoop | .server .requestShutdown | .server (.run _ _)
  | .server (.recv _) | .server (.recvEnd _) | .server (.rehash _) | .gateway _ | .deliver _
  | .accept _ _ | .transmit _ =>
    inferInstanceAs (Decidable (_ < _))

/-- A request may be made: its sender is in the roster, and a public message is no command. -/
def Proper (s : Network) (r : Request) : Prop :=
  r.sender ∈ s.gateway.welcomedSessions ∧ (r.peer = none → r.text.head? ≠ some 47)

instance (s : Network) (r : Request) : Decidable (s.Proper r) :=
  inferInstanceAs (Decidable (_ ∧ (_ → _)))

/-- **The condition on the schedule**: a step changes neither the roster nor the registry, and what
is said in it is said while the names agree; or no message is under way after it. -/
def Scheduled (s : Network) (a : Action) : Prop :=
  ∀ s' ∈ s.step a, s'.Clear ∨ s.Rests s' ∧ (s.Says s' a → s'.NamesAgree) ∧
    ∀ r ∈ s'.gateway.requests.drop s.gateway.requests.length, s'.Proper r

instance (s : Network) (a : Action) : Decidable (s.Scheduled a) :=
  inferInstanceAs (Decidable (∀ s' ∈ s.step a, _ ∨ _ ∧ (_ → _) ∧ ∀ r ∈ _, _))

/-! ### A name is one session's -/

/-- Whoever is registered under the nickname of such a session has its connection. -/
theorem Registered.holder (h : s.Registered w) (hS : Sound s) {r : ClientRecord}
    (hr : s.server.clients.find? fd = some r)
    (hn : name r.nickname = (s.gateway.sessions w).nickname) (hk : s.server.fds fd = some k) :
    ∃ b, (s.gateway.sessions w).backend = some b ∧ s.conn b = some k := by
  obtain ⟨b, hb, c, hc, ho, r', hr', hn'⟩ := h
  have hv := hS.orderly.named.registry.valid
  have he : r.nickname = r'.nickname :=
    name_injective (hv _ _ hr) (hv _ _ hr') (hn.trans hn'.symm)
  have hfd : fd = s.server.fdOf c := hS.orderly.named.registry.unique _ _ r r' hr hr' he
  rw [hfd] at hk
  obtain rfl := Option.some.inj (ho.symm.trans hk)
  exact ⟨b, hb, hc⟩

/-- The client of its connection has its nickname. -/
theorem Registered.name_eq (h : s.Registered w) (hw : (s.gateway.sessions w).backend = some b)
    (hb : s.conn b = some c) {r : ClientRecord}
    (hr : s.server.clients.find? (s.server.fdOf c) = some r) :
    name r.nickname = (s.gateway.sessions w).nickname := by
  obtain ⟨b', hb', c', hc', -, r', hr', hn⟩ := h
  obtain rfl := Option.some.inj (hw.symm.trans hb')
  obtain rfl := Option.some.inj (hb.symm.trans hc')
  rwa [Option.some.inj (hr.symm.trans hr')]

/-- So a backend connection with that connection is the session's. -/
theorem Registered.owner (h : s.Registered w) (hS : Sound s) (hT : Traced s) {r : ClientRecord}
    (hr : s.server.clients.find? fd = some r)
    (hn : name r.nickname = (s.gateway.sessions w).nickname) (hk : s.server.fds fd = some k)
    (hb : s.conn b = some k) : (s.gateway.backends b).owner = w := by
  obtain ⟨b', hb', hc'⟩ := h.holder hS hr hn hk
  obtain rfl := hS.linked.injective _ _ _ hb hc'
  exact (hT.lines.owner w b hb').2

/-- **Where the names agree**, a nickname is one session's. -/
theorem NamesAgree.unique (h : s.NamesAgree) (hS : Sound s) (hT : Traced s)
    (hw : w ∈ s.gateway.welcomedSessions) (hp : p ∈ s.gateway.welcomedSessions)
    (hn : (s.gateway.sessions p).nickname = (s.gateway.sessions w).nickname) : p = w := by
  obtain ⟨b, hb, c, hc, ho, r, hr, hname⟩ := h p hp
  rw [← (h w hw).owner hS hT hr (hname.trans hn) ho hc]
  exact (hT.lines.owner p b hb).2.symm

theorem NamesAgree.onlyBy (h : s.NamesAgree) (hS : Sound s) (hT : Traced s)
    (hw : w ∈ s.gateway.welcomedSessions) :
    s.OnlyBy (s.gateway.sessions w).nickname (some (s.gateway.sessions w).id) := by
  intro p hp hn
  rw [h.unique hS hT hw hp hn]

theorem NamesAgree.usedBy (h : s.NamesAgree) (hS : Sound s) (hT : Traced s)
    (hw : w ∈ s.gateway.welcomedSessions) :
    s.UsedBy (s.gateway.sessions w).nickname (s.gateway.sessions w).id :=
  ⟨⟨w, hw, rfl⟩, h.onlyBy hS hT hw⟩

/-! ### What may be read -/

/-- A line with this number may be read now from a backend connection. -/
def Truthful (s : Network) (b : BackendId) (serial : Option ℕ) (line : ServerLine) : Prop :=
  line.IsMessage → (∀ n ∈ serial, n < s.accounts.length) ∧
    s.Names (s.gateway.sessions (s.gateway.backends b).owner).id
      (serial.bind fun n => s.accounts[n]?) line

/-- What a block says, or what comes of it, might be read now by whoever it would reach. -/
def TruthfulOp (s : Network) : Op → Prop
  | .sendToFd fd f | .sendFrame fd f =>
    ∀ b k, s.conn b = some k → s.server.fds fd = some k → s.Truthful b f.serial f.line
  | .broadcast line _ _ serial => ∀ b k, s.conn b = some k → s.Truthful b serial line
  | .handleChat fd text serial => ∀ r, s.server.clients.find? fd = some r →
    ∀ b k, s.conn b = some k → s.Truthful b serial (.msg r.nickname text)
  | .handleMsg fd target text serial =>
    ∀ fd' r', s.server.clients.find? fd' = some r' → r'.nickname = target →
      ∀ b k, s.conn b = some k →
        (s.server.fds fd' = some k → ∀ r, s.server.clients.find? fd = some r →
          s.Truthful b serial (.priv r.nickname text)) ∧
        (s.server.fds fd = some k → s.Truthful b serial (.privSent target text))
  | _ => True

/-- So might what comes of a frame of a client. -/
def TruthfulFrame (s : Network) (c : ConnId) (g : ClientFrame) : Prop :=
  (∀ text, g.Chats text → s.TruthfulOp (.handleChat (s.server.fdOf c) text g.serial)) ∧
  ∀ target text, g.Messages target text →
    s.TruthfulOp (.handleMsg (s.server.fdOf c) target text g.serial)

theorem truthful_of_not_isMessage (h : ¬ line.IsMessage) : s.Truthful b serial line :=
  fun hm => absurd hm h

theorem truthfulOp_of_not_talks {op : Op} (h : ¬ op.Talks) : s.TruthfulOp op := by
  cases op with
  | sendToFd | sendFrame => exact fun _ _ _ _ => truthful_of_not_isMessage h
  | broadcast => exact fun _ _ _ => truthful_of_not_isMessage h
  | handleChat | handleMsg => exact absurd trivial h
  | _ => trivial

theorem truthfulFrame_of_not_talks (h : ¬ g.Talks) : s.TruthfulFrame c g :=
  ⟨fun _ hc => absurd hc.talks h, fun _ _ hm => absurd hm.talks h⟩

/-- **A block makes of what would be truthful what would be.** -/
theorem exec_truthful (hI : s.server.Inv) {t : Tid} {ch : Server.Choice} {op : Op} {new : List Op}
    {u : Server} (h : s.TruthfulOp op) (he : s.server.exec t ch op = some (u, new)) :
    ∀ op' ∈ new, s.TruthfulOp op' := by
  intro op' hop
  cases Server.exec_says he op' hop with
  | plain hl hh =>
    exact truthfulOp_of_not_talks (Op.not_talks (fun line hm hi => hi.not_plain (hl line hm)) hh)
  | names hl hn hh =>
    refine truthfulOp_of_not_talks (Op.not_talks (fun line hm hi => hi.not_names ?_) hh)
    obtain rfl := Option.some.inj (hl.symm.trans hm)
    exact hn
  | chat ho hr =>
    subst ho
    exact h _ hr
  | @priv fd target text serial r ho hr =>
    subst ho
    intro b k hb hk
    by_cases hf : s.server.findTarget target = -1
    · -- no connection has this number
      rw [hf] at hk
      exact absurd (hI.fd_nonneg _ _ hk) (by decide)
    · obtain ⟨r', hr', -, hn⟩ := Server.findTarget_spec hf
      exact (h _ r' hr' hn b k hb).1 hk r hr
  | privSent ho hr' hn =>
    subst ho
    exact fun b k hb hk => (h _ _ hr' hn b k hb).2 hk
  | relay hd =>
    cases op <;> cases hd <;> exact h
  | announce ho =>
    subst ho
    exact fun b k hb _ => h b k hb

/-! ### While nobody joins, leaves or is renamed -/

theorem Rests.find? (h : s.Rests s') (fd : Fd) :
    s'.server.clients.find? fd = s.server.clients.find? fd :=
  OrdMap.find?_of_perm h.entries fd

theorem OnlyBy.rests {nickname : Units} {account : Option Units} (h : s.OnlyBy nickname account)
    (hR : s.Rests s') : s'.OnlyBy nickname account := by
  intro w hw hn
  rw [hR.roster] at hw
  obtain ⟨hname, hid⟩ := hR.names w hw
  rw [hid]
  exact h w hw (hname.symm.trans hn)

theorem UsedBy.rests {nickname account : Units} (h : s.UsedBy nickname account)
    (hR : s.Rests s') : s'.UsedBy nickname account := by
  obtain ⟨⟨w, hw, hn⟩, ho⟩ := h
  exact ⟨⟨w, hR.roster ▸ hw, (hR.names w hw).1.trans hn⟩, ho.rests hR⟩

/-- The nickname of a message still says whose it is. -/
theorem Names.rests {own : Units} {r : Option (Units × Option Units)} (h : s.Names own r line)
    (hR : s.Rests s') : s'.Names own r line := by
  cases line with
  | msg => exact OnlyBy.rests h hR
  | priv =>
    cases r with
    | none => exact OnlyBy.rests h hR
    | some r => exact ⟨UsedBy.rests h.1 hR, h.2⟩
  | privSent =>
    rcases r with _ | ⟨sender, _ | peer⟩
    · exact h
    · exact h
    · exact ⟨h.1, UsedBy.rests h.2 hR⟩
  | _ => trivial

/-- What is recorded of requests stays. -/
theorem accounts_step (hs : s.step a = some s') : s.accounts <+: s'.accounts := by
  cases step_moves hs with
  | gateway | deliver | oversized => exact List.prefix_append ..
  | server | accept | transmit => exact List.prefix_rfl

/-- A backend connection has the connection it had. -/
theorem Rests.conn_eq (h : s.Rests s') (hS' : Sound s') (hb : s'.conn b = some k) :
    s.conn b = some k :=
  (h.conn b (hS'.linked.created b k hb)).symm.trans hb

theorem Truthful.rests (h : s.Truthful b serial line) (hR : s.Rests s')
    (hb : b < s.gateway.nextBackend) (hs : s.step a = some s') : s'.Truthful b serial line := by
  intro hm
  obtain ⟨hlt, hn⟩ := h hm
  obtain ⟨new, hnew⟩ := accounts_step hs
  refine ⟨fun n hn => ?_, ?_⟩
  · rw [← hnew, List.length_append]
    exact Nat.lt_add_right _ (hlt n hn)
  · have hsame : (serial.bind fun n => s'.accounts[n]?) = serial.bind fun n => s.accounts[n]? := by
      cases serial with
      | none => rfl
      | some n => rw [Option.bind_some, Option.bind_some, ← hnew,
          List.getElem?_append_left (hlt n rfl)]
    rw [hsame, hR.owner b hb]
    exact hn.rests hR

/-- An open descriptor has been open, unless a connection has been accepted. -/
theorem fds_step (hS : Sound s) (hs : s.step a = some s') (hk : k < s.server.nextConn)
    (hf : s'.server.fds fd = some k) : s.server.fds fd = some k := by
  rcases (step_moves hs).server_step with he | ⟨a', -, h⟩
  · rwa [he] at hf
  · rcases Server.step_fds hS.orderly.inv h hf with hf | ⟨_, _, _, _, _, _, rfl⟩
    · exact hf
    · exact absurd hk (lt_irrefl _)

/-- A connection keeps its descriptor number, and has been open if it is. -/
theorem isOpen_step (hS : Sound s) (hS' : Sound s') (hs : s.step a = some s')
    (hc : c < s.server.nextConn) (ho : s'.IsOpen c) :
    s'.server.fdOf c = s.server.fdOf c ∧ s.IsOpen c := by
  have hfd : s'.server.fdOf c = s.server.fdOf c := by
    rcases (step_moves hs).server_step with he | ⟨a', -, h⟩
    · rw [he]
    · refine Server.fdOf_step hS.orderly.inv hS'.orderly.inv h (fun hu => ?_)
        ((hS'.orderly.inv.fds_iff _ _).mp ho).2
      exact absurd hc (not_lt.mpr ((hS.orderly.inv.unborn_iff c).mp hu))
  refine ⟨hfd, ?_⟩
  have hf : s'.server.fds (s.server.fdOf c) = some c := hfd ▸ ho
  exact fds_step hS hs hc hf

theorem TruthfulOp.rests {op : Op} (h : s.TruthfulOp op) (hR : s.Rests s') (hS : Sound s)
    (hS' : Sound s') (hs : s.step a = some s') : s'.TruthfulOp op := by
  have hconn {b : BackendId} {k : ConnId} (hb : s'.conn b = some k) :
      s.conn b = some k ∧ b < s.gateway.nextBackend ∧
        ∀ fd, s'.server.fds fd = some k → s.server.fds fd = some k := by
    have hb' := hR.conn_eq hS' hb
    exact ⟨hb', hS.linked.created b k hb', fun fd => fds_step hS hs (hS.linked.accepted b k hb')⟩
  cases op with
  | sendToFd | sendFrame =>
    intro b k hb hk
    obtain ⟨hb, hlt, hfds⟩ := hconn hb
    exact (h b k hb (hfds _ hk)).rests hR hlt hs
  | broadcast =>
    intro b k hb
    obtain ⟨hb, hlt, -⟩ := hconn hb
    exact (h b k hb).rests hR hlt hs
  | handleChat =>
    intro r hr b k hb
    obtain ⟨hb, hlt, -⟩ := hconn hb
    exact (h r (hR.find? _ ▸ hr) b k hb).rests hR hlt hs
  | handleMsg =>
    intro fd' r' hr' hn b k hb
    obtain ⟨hb, hlt, hfds⟩ := hconn hb
    obtain ⟨h1, h2⟩ := h fd' r' (hR.find? _ ▸ hr') hn b k hb
    exact ⟨fun hk r hr => (h1 (hfds _ hk) r (hR.find? _ ▸ hr)).rests hR hlt hs,
      fun hk => (h2 (hfds _ hk)).rests hR hlt hs⟩
  | _ => trivial

/-! ### All that is under way -/

/-- **All that is under way may be read** as things are. -/
structure AllTruthful (s : Network) : Prop where
  /-- Lines. -/
  lines : ∀ b c, s.conn b = some c → s.IsOpen c →
    ∀ line ∈ (s.gateway.outbox b).drop (s.transmitted b),
      s.TruthfulFrame c ⟨utf8Encode line.text, line.serial⟩
  /-- Frames that have arrived. -/
  inbox : ∀ c, s.IsOpen c → ∀ g ∈ s.server.inbox c, s.TruthfulFrame c g
  /-- What threads have to do. -/
  todo : ∀ t, ∀ op ∈ s.server.todo t, s.TruthfulOp op
  /-- Frames that can be read. -/
  unread : ∀ b, s.Readable b → ∀ f ∈ (s.frames b).drop (s.read b), s.Truthful b f.serial f.line

/-- Where no message is under way there is nothing that may not be read. -/
theorem Clear.allTruthful (h : s.Clear) (hS : Sound s) (hT : Traced s) : AllTruthful s where
  lines b c hb ho line hl :=
    truthfulFrame_of_not_talks (h.lines b (hS.linked.created b c hb) c hb ho line hl)
  inbox c ho g hg :=
    truthfulFrame_of_not_talks (h.inbox c (hS.orderly.inv.lt_nextConn ho) ho g hg)
  todo t op hop := by
    apply truthfulOp_of_not_talks
    cases t with
    | main =>
      -- the accept thread quotes nobody
      have hs := hT.sourced.todo .main op hop
      have hf {f : Frame} (hf : f.Sourced s.HasSent .main) : ¬ f.line.IsMessage := by
        rcases hf with hp | hn | ⟨c, hc, -⟩
        · exact fun hi => hi.not_plain hp
        · exact fun hi => hi.not_names hn
        · cases hc
      cases op with
      | handleChat => obtain ⟨c, g, hc, -⟩ := hs; cases hc
      | handleMsg => obtain ⟨c, g, hc, -⟩ := hs; cases hc
      | broadcast => exact hf (hs 0)
      | sendToFd | sendFrame => exact hf hs
      | _ => exact id
    | handler c =>
      by_cases hc : c < s.server.nextConn
      · exact h.todo c hc op hop
      · have hn := hS.orderly.inv.handler c
        rw [(hS.orderly.inv.unborn_iff c).mpr (not_lt.mp hc)] at hn
        generalize s.server.alive c = al at hn
        generalize s.server.todo (.handler c) = l at hn hop
        cases hn with
        | unborn => cases hop
        | early => cases hop
  unread b hr f hf := by
    apply truthful_of_not_isMessage
    cases hb : s.conn b with
    | none =>
      rw [frames_of_none hb, List.drop_nil] at hf
      cases hf
    | some c => exact h.unread b (hS.linked.created b c hb) hr f hf

/-- A text that does not start with `/` is no private message. -/
theorem not_messages_of_head {text : Units} (h : text.head? ≠ some 47) (target body : Bytes) :
    ¬ ClientFrame.Messages ⟨utf8Encode text, serial⟩ target body := by
  intro hm
  obtain ⟨-, hh⟩ := head?_of_messages hm
  change (stripLine (utf8Encode text)).head? = some 47 at hh
  rw [stripLine_utf8Encode] at hh
  have hne : stripped text ≠ [] := by
    intro he
    rw [he] at hh
    cases hh
  exact h (head?_stripped hne ▸ head?_of_utf8Encode hh (by decide))

/-- A `/msg` line is no chat line, and only for the nickname it names. -/
theorem of_msg_line {n : Bytes} (hv : isValidNickname n = true) (serial : Option ℕ)
    (text : Units) :
    (∀ body, ¬ ClientFrame.Chats ⟨utf8Encode (formatMsgCommand (name n) text), serial⟩ body) ∧
    ∀ target body,
      ClientFrame.Messages ⟨utf8Encode (formatMsgCommand (name n) text), serial⟩ target body →
        target = n := by
  obtain ⟨h1, h2⟩ := split_msg (isWord_of_valid hv) text
  refine ⟨?_, ?_⟩
  · rintro body ⟨rfl, -, hh⟩
    exact hh (head?_of_word (w := bytes "msg") (congrArg Prod.fst h1))
  · rintro target body ⟨-, hm, -⟩
    change Backend.splitFirst
      (Backend.splitFirst (stripLine (utf8Encode (formatMsgCommand (name n) text)))).2 = _ at hm
    rw [h1, h2] at hm
    exact (Prod.mk.inj hm).1.symm

/-- **What another client sends** while the names agree. -/
theorem truthfulFrame_of_foreign (hN : s.NamesAgree) (hS : Sound s)
    (hl : ¬ s.IsLinked c) (hg : g.serial = none) (ho : s.IsOpen c) : s.TruthfulFrame c g := by
  have honly {r : ClientRecord} (hr : s.server.clients.find? (s.server.fdOf c) = some r) :
      s.OnlyBy (name r.nickname) none := by
    intro w hw hn
    obtain ⟨b, -, hb⟩ := (hN w hw).holder hS hr hn.symm ho
    exact absurd ⟨b, hS.linked.created b c hb, hb⟩ hl
  have hserial : ∀ n ∈ g.serial, n < s.accounts.length := by
    rw [hg]
    exact fun n hn => by cases hn
  refine ⟨fun text _ r hr b k _ _ => ⟨hserial, ?_⟩, ?_⟩
  · rw [hg]
    exact honly hr
  · intro target text _ fd' r' _ _ b k hb
    refine ⟨fun _ r hr _ => ⟨hserial, ?_⟩, fun hk => ?_⟩
    · rw [hg]
      exact honly hr
    · obtain rfl := Option.some.inj (ho.symm.trans hk)
      exact absurd ⟨b, hS.linked.created b c hb, hb⟩ hl

/-- **What a session says** while the names agree. -/
theorem truthfulFrame_of_addressed {l : Line} {n : ℕ} {r : Request} (hN : s.NamesAgree)
    (hS : Sound s) (hT : Traced s) (hl : s.gateway.Addressed b l) (hn : l.serial = some n)
    (hr : s.gateway.requests[n]? = some r) (hp : s.Proper r)
    (ha : s.accounts[n]? = some (accountsOf s.gateway r)) (hb : s.conn b = some c)
    (ho : s.IsOpen c) : s.TruthfulFrame c ⟨utf8Encode l.text, l.serial⟩ := by
  obtain ⟨hw, htext⟩ := hp
  have hserial : ∀ m ∈ l.serial, m < s.accounts.length := by
    intro m hm
    obtain rfl := Option.some.inj (hn.symm.trans hm)
    exact (List.getElem?_eq_some_iff.mp ha).1
  have hbind : (l.serial.bind fun n => s.accounts[n]?) = some (accountsOf s.gateway r) := by
    rw [hn, Option.bind_some, ha]
  cases hl with
  | nick => cases hn
  | @chat m r' hr' hpeer hback =>
    obtain rfl := Option.some.inj hn
    obtain rfl := Option.some.inj (hr.symm.trans hr')
    refine ⟨fun text _ q hq b k _ _ => ⟨hserial, ?_⟩, fun target text hm => ?_⟩
    · rw [hbind]
      show s.OnlyBy (name q.nickname) (some (s.gateway.sessions r.sender).id)
      rw [(hN r.sender hw).name_eq hback hb hq]
      exact hN.onlyBy hS hT hw
    · exact absurd hm (not_messages_of_head (htext hpeer) target text)
  | @direct m r' p hr' hpeer hon hback =>
    obtain rfl := Option.some.inj hn
    obtain rfl := Option.some.inj (hr.symm.trans hr')
    obtain ⟨bp, hbp, cp, hcp, hop, q, hq, hname⟩ := hN p hon
    have hv := hS.orderly.named.registry.valid _ _ hq
    have haccounts : accountsOf s.gateway r =
        ((s.gateway.sessions r.sender).id, some (s.gateway.sessions p).id) := by
      rw [accountsOf, hpeer]
      rfl
    rw [← hname] at hserial hbind ⊢
    obtain ⟨hchats, hmessages⟩ := of_msg_line hv (some m) r.text
    refine ⟨fun text hc => absurd hc (hchats text), fun target text hm => ?_⟩
    obtain rfl := hmessages target text hm
    intro fd' q' hq' hn' b' k hb'
    refine ⟨fun hk q₀ hq₀ _ => ⟨hserial, ?_⟩, fun hk _ => ⟨hserial, ?_⟩⟩
    · -- it reaches the peer
      have howner := (hN p hon).owner hS hT hq' ((congrArg name hn').trans hname) hk hb'
      rw [hbind, haccounts, howner]
      refine ⟨?_, rfl⟩
      rw [(hN r.sender hw).name_eq hback hb hq₀]
      exact hN.usedBy hS hT hw
    · -- the confirmation reaches the sender
      obtain rfl := Option.some.inj (ho.symm.trans hk)
      obtain rfl := hS.linked.injective _ _ _ hb' hb
      rw [hbind, haccounts, (hT.lines.owner _ _ hback).2]
      refine ⟨rfl, ?_⟩
      rw [hname]
      exact hN.usedBy hS hT hon

/-! ### One step -/

/-- The accounts of a new request are recorded as they are. -/
theorem handled_accounts (h : s.accounts.length = s.gateway.requests.length) {g : GatewayServer}
    {n : ℕ} {r : Request} (hle : s.gateway.requests.length ≤ n) (hr : g.requests[n]? = some r) :
    (s.handled g).accounts[n]? = some (accountsOf g r) := by
  show (s.accounts ++ (g.requests.drop s.accounts.length).map (accountsOf g))[n]? = _
  rw [List.getElem?_append_right (h ▸ hle), List.getElem?_map, List.getElem?_drop, h,
    Nat.add_sub_cancel' hle, hr]
  rfl

/-- **The lines after the gateway has handled an event**: those there were, and new ones that may be
read. -/
theorem lines_handled (hS' : Sound s') (hT : Traced s) (hT' : Traced s') {e : GatewayServer.Event}
    (hg : s.gateway.step e = some s'.gateway)
    (ha : s'.accounts = (s.handled s'.gateway).accounts)
    (hN : s.gateway.requests.length < s'.gateway.requests.length → s'.NamesAgree)
    (hP : ∀ r ∈ s'.gateway.requests.drop s.gateway.requests.length, s'.Proper r)
    (hb : s'.conn b = some c) (ho : s'.IsOpen c) {l : Line}
    (hl : l ∈ (s'.gateway.outbox b).drop (s.transmitted b)) :
    l ∈ (s.gateway.outbox b).drop (s.transmitted b) ∨
      s'.TruthfulFrame c ⟨utf8Encode l.text, l.serial⟩ := by
  obtain ⟨new, hnew, haddressed⟩ := GatewayServer.step_addresses hg b
  obtain ⟨-, new', hnew', hnum⟩ := GatewayServer.step_numbers hg b
  obtain rfl : new = new' := List.append_cancel_left (hnew.symm.trans hnew')
  rw [hnew, List.drop_append, List.mem_append] at hl
  rcases hl with hl | hl
  · exact .inl hl
  have hmem : l ∈ new := List.mem_of_mem_drop hl
  right
  cases hn : l.serial with
  | none =>
    cases haddressed l hmem with
    | nick nickname =>
      exact ⟨fun text h => absurd h (not_chats_nick nickname none text),
        fun target text h => absurd h (not_messages_nick nickname none target text)⟩
    | chat | direct => cases hn
  | some n =>
    have hserial : n ∈ new.filterMap Line.serial := List.mem_filterMap.mpr ⟨l, hmem, hn⟩
    have hle := hnum.lower n hserial
    have hlt := hnum.upper n hserial
    have hr : s'.gateway.requests[n]? = some s'.gateway.requests[n] := List.getElem?_eq_getElem hlt
    have hr' : s'.gateway.requests[n] ∈ s'.gateway.requests.drop s.gateway.requests.length := by
      refine List.mem_of_getElem? (i := n - s.gateway.requests.length) ?_
      rw [List.getElem?_drop, Nat.add_sub_cancel' hle, hr]
    have haccounts : s'.accounts[n]? = some (accountsOf s'.gateway s'.gateway.requests[n]) := by
      rw [ha]
      exact handled_accounts hT.length hle hr
    rw [← hn]
    exact truthfulFrame_of_addressed (hN (hle.trans_lt hlt)) hS' hT' (haddressed l hmem) hn hr
      (hP _ hr') haccounts hb ho

/-- What a thread starts with. -/
theorem AllTruthful.starts (h : AllTruthful s) (hI : s.server.Inv) {t : Tid} {op : Op}
    (hs : s.server.Starts t op) : s.TruthfulOp op := by
  cases hs with
  | @frame c k g _ ha hi hk hg hop =>
    have hst := hI.serving_of_idle ha hi
    have ho : s.IsOpen c := hI.fds_fdOf (hst ▸ ⟨by decide, by decide⟩)
    obtain rfl := Option.some.inj (ho.symm.trans hk)
    have hasks := asks_of_handleFrame hop
    obtain ⟨hchats, hmessages⟩ := h.inbox c ho g hg
    have hserves : op.Serves (s.server.fdOf c) ∨ op ∈ teardown (s.server.fdOf c) := by
      obtain ⟨l, hl, he | he⟩ := Server.handleFrame_serves s.server.config.1 (s.server.fdOf c) g
      · exact .inl (hl op (he ▸ hop))
      · rw [he, List.mem_append] at hop
        exact hop.imp_left (hl op)
    simp only [teardown, List.mem_cons, List.not_mem_nil, or_false] at hserves
    cases op with
    | handleChat fd text =>
      obtain rfl : fd = s.server.fdOf c := hserves.resolve_right (by simp)
      obtain ⟨rfl, hc⟩ := hasks
      exact hchats text hc
    | handleMsg fd target text =>
      obtain rfl : fd = s.server.fdOf c := hserves.resolve_right (by simp)
      obtain ⟨rfl, hm⟩ := hasks
      exact hmessages target text hm
    | sendToFd _ f =>
      obtain ⟨code, text, hl, -⟩ := hasks
      exact truthfulOp_of_not_talks fun hi => by
        change f.line.IsMessage at hi
        rw [hl] at hi
        exact hi
    | sendFrame | broadcast => exact hasks.elim
    | _ => trivial
  | leave hop =>
    simp only [teardown, List.mem_cons, List.not_mem_nil, or_false] at hop
    rcases hop with rfl | rfl | rfl <;> trivial
  | pass hop => rcases hop with rfl | rfl <;> trivial
  | stop hop =>
    simp only [Server.shutdownAll, List.mem_cons, List.not_mem_nil, or_false] at hop
    rcases hop with rfl | rfl | rfl | rfl
    · exact truthfulOp_of_not_talks id
    all_goals trivial

/-- **A step of the chat server**: what is to be said after it, and what can be read. -/
theorem AllTruthful.server (h : AllTruthful s) (hI : s.server.Inv) {a' : Server.Action} {u : Server}
    (hs : s.server.step a' = some u) :
    (∀ t, ∀ op ∈ u.todo t, s.TruthfulOp op) ∧
      ∀ b k, s.conn b = some k → s.Readable b → ∀ f ∈ (u.written k).drop (s.read b),
        s.Truthful b f.serial f.line := by
  refine ⟨Server.step_forall_todo h.todo (fun _ _ _ _ _ _ _ he hop => exec_truthful hI hop he)
    (fun _ _ hst => h.starts hI hst) hs, ?_⟩
  intro b k hb hr f hf
  have hold {f : Frame} (hf : f ∈ (s.server.written k).drop (s.read b)) :
      s.Truthful b f.serial f.line :=
    h.unread b hr f (frames_of_conn hb ▸ hf)
  rcases Server.step_written hs k with hw | ⟨t, fd, f', hp, hfd, hw⟩
  · exact hold (hw ▸ hf)
  · rw [hw, List.drop_append, List.mem_append] at hf
    rcases hf with hf | hf
    · exact hold hf
    · rw [List.mem_singleton.mp (List.mem_of_mem_drop hf)]
      obtain ⟨op, hop, hd⟩ := Server.mem_pending.mp hp
      have ht := h.todo t op hop
      cases op <;> cases hd <;> exact ht b k hb hfd

theorem TruthfulFrame.rests (h : s.TruthfulFrame c g) (hR : s.Rests s') (hS : Sound s)
    (hS' : Sound s') (hs : s.step a = some s') (hfd : s'.server.fdOf c = s.server.fdOf c) :
    s'.TruthfulFrame c g := by
  unfold TruthfulFrame
  rw [hfd]
  exact ⟨fun text hc => (h.1 text hc).rests hR hS hS' hs,
    fun target text hm => (h.2 target text hm).rests hR hS hS' hs⟩

/-- What has arrived at a connection has arrived at one that has been accepted. -/
theorem Traced.lt_nextConn (hT : Traced s) (hS : Sound s) (hg : g ∈ s.server.inbox c) :
    c < s.server.nextConn := by
  cases hT.sourced.inbox c g hg with
  | foreign hc => exact hc
  | line hb => exact hS.linked.accepted _ _ hb

/-- **A step that rests** leaves what is under way as it may be read: what there was, and what is
new. -/
theorem AllTruthful.rests (hS : Sound s) (hS' : Sound s') (hR : s.Rests s')
    (hs : s.step a = some s')
    (hlines : ∀ b c, s'.conn b = some c → s'.IsOpen c → s.IsOpen c →
      ∀ l ∈ (s'.gateway.outbox b).drop (s'.transmitted b),
        s.TruthfulFrame c ⟨utf8Encode l.text, l.serial⟩ ∨
          s'.TruthfulFrame c ⟨utf8Encode l.text, l.serial⟩)
    (hinbox : ∀ c, s'.IsOpen c → (c < s.server.nextConn → s.IsOpen c) →
      ∀ g ∈ s'.server.inbox c, c < s.server.nextConn ∧
        (s.TruthfulFrame c g ∨ s'.TruthfulFrame c g))
    (htodo : ∀ t, ∀ op ∈ s'.server.todo t, s.TruthfulOp op)
    (hunread : ∀ b k, s.conn b = some k → s'.conn b = some k → s.Readable b →
      ∀ f ∈ (s'.server.written k).drop (s'.read b), s.Truthful b f.serial f.line) :
    AllTruthful s' where
  lines b c hb ho l hl := by
    have hc := hS.linked.accepted b c (hR.conn_eq hS' hb)
    obtain ⟨hfd, ho'⟩ := isOpen_step hS hS' hs hc ho
    exact (hlines b c hb ho ho' l hl).elim (fun h => h.rests hR hS hS' hs hfd) id
  inbox c ho g hg := by
    obtain ⟨hc, h⟩ := hinbox c ho (fun hc => (isOpen_step hS hS' hs hc ho).2) g hg
    exact h.elim (fun h => h.rests hR hS hS' hs (isOpen_step hS hS' hs hc ho).1) id
  todo t op hop := (htodo t op hop).rests hR hS hS' hs
  unread b hr f hf := by
    cases hb : s'.conn b with
    | none =>
      rw [frames_of_none hb, List.drop_nil] at hf
      cases hf
    | some k =>
      have hb' := hR.conn_eq hS' hb
      have hlt := hS.linked.created b k hb'
      have hr' : s.Readable b := by
        rcases (step_moves hs).gateway_step with he | ⟨e, -, hg⟩
        · unfold Readable at hr ⊢
          rwa [he] at hr
        · exact GatewayServer.readable_of_step hg hlt hr
      rw [frames_of_conn hb] at hf
      exact (hunread b k hb' hb hr' f hf).rests hR hlt hs

/-- **A step of the gateway** that rests does. -/
theorem AllTruthful.handled (h : AllTruthful s) (hS : Sound s) (hT : Traced s) (hS' : Sound s')
    (hT' : Traced s') (hR : s.Rests s') (hs : s.step a = some s')
    (hN : s.gateway.requests.length < s'.gateway.requests.length → s'.NamesAgree)
    (hP : ∀ r ∈ s'.gateway.requests.drop s.gateway.requests.length, s'.Proper r)
    {e : GatewayServer.Event} (hg : s.gateway.step e = some s'.gateway)
    (hserver : s'.server = s.server) (htransmitted : s'.transmitted = s.transmitted)
    (haccounts : s'.accounts = (s.handled s'.gateway).accounts)
    (hread : ∀ b, s.read b ≤ s'.read b) : AllTruthful s' := by
  refine AllTruthful.rests hS hS' hR hs ?_ ?_ (hserver ▸ h.todo) ?_
  · intro b c hb ho ho' l hl
    rw [htransmitted] at hl
    exact (lines_handled hS' hT hT' hg haccounts hN hP hb ho hl).imp_left (h.lines b c
      (hR.conn_eq hS' hb) ho' l)
  · intro c _ ho g hg
    rw [hserver] at hg
    have hc := hT.lt_nextConn hS hg
    exact ⟨hc, .inl (h.inbox c (ho hc) g hg)⟩
  · intro b k hb _ hr f hf
    rw [hserver] at hf
    exact h.unread b hr f
      (frames_of_conn hb ▸ (List.drop_sublist_drop_left _ (hread b)).subset hf)

/-- What comes next is among what is to come. -/
theorem mem_drop_of_getElem? {α : Type} {l : List α} {n : ℕ} {x : α} (h : l[n]? = some x) :
    x ∈ l.drop n := by
  refine List.mem_of_getElem? (i := 0) ?_
  rw [List.getElem?_drop, Nat.add_zero, h]

/-- The next line to arrive has not arrived. -/
theorem mem_of_nextLine {l : Line} (h : s.nextLine b = some (c, l)) :
    s.conn b = some c ∧ l ∈ (s.gateway.outbox b).drop (s.transmitted b) := by
  obtain ⟨c', hc, hl⟩ := Option.bind_eq_some_iff.mp h
  obtain ⟨l', hl', he⟩ := Option.map_eq_some_iff.mp hl
  obtain ⟨rfl, rfl⟩ := Prod.mk.inj he
  exact ⟨hc, mem_drop_of_getElem? hl'⟩

/-- A counter that is counted up is not smaller. -/
theorem le_update (f : BackendId → ℕ) (b b' : BackendId) :
    f b' ≤ Function.update f b (f b + 1) b' := by
  rw [Function.update_apply]
  split_ifs with he
  · exact he ▸ Nat.le_succ _
  · exact le_rfl

/-- **Every step** of the schedule leaves all that is under way as it may be read. -/
theorem AllTruthful.step (h : AllTruthful s) (hS : Sound s) (hT : Traced s) (hS' : Sound s')
    (hT' : Traced s') (hc : s.Scheduled a) (hs : s.step a = some s') : AllTruthful s' := by
  rcases hc s' hs with hclear | ⟨hR, hN, hP⟩
  · exact hclear.allTruthful hS' hT'
  have hinbox {c : ConnId} (ho : c < s.server.nextConn → s.IsOpen c) {g : ClientFrame}
      (hg : g ∈ s.server.inbox c) : c < s.server.nextConn ∧
        (s.TruthfulFrame c g ∨ s'.TruthfulFrame c g) := by
    have hc := hT.lt_nextConn hS hg
    exact ⟨hc, .inl (h.inbox c (ho hc) g hg)⟩
  cases step_moves hs with
  | gateway hn hg => exact h.handled hS hT hS' hT' hR hs hN hP hg rfl rfl rfl fun _ => le_rfl
  | deliver hf hm hg =>
    exact h.handled hS hT hS' hT' hR hs hN hP hg rfl rfl rfl (le_update s.read _)
  | oversized hf hm hg => exact h.handled hS hT hS' hT' hR hs hN hP hg rfl rfl rfl fun _ => le_rfl
  | @server a' u hf ha =>
    obtain ⟨htodo, hread⟩ := h.server hS.orderly.inv ha
    refine AllTruthful.rests hS hS' hR hs
      (fun b c hb _ ho l hl => .inl (h.lines b c hb ho l hl)) ?_ htodo
      fun b k hb _ hr => hread b k hb hr
    intro c ho ho' g hg
    rcases Server.mem_inbox_of_step ha hg with hg | rfl
    · exact hinbox ho' hg
    · obtain ⟨hc, hl, hserial⟩ := hf
      refine ⟨hc, .inr ?_⟩
      by_cases ht : g.Talks
      · refine truthfulFrame_of_foreign (hN ht) hS' (fun hlink => hl ?_) hserial ho
        exact isLinked_step hS hs hc hlink
      · exact truthfulFrame_of_not_talks ht
  | @accept b ch u hb hn =>
    -- it is accepted, but keeps the connection it had
    have he := hR.conn b hb
    change Function.update s.conn b (some s.server.nextConn) b = _ at he
    rw [Function.update_self, hn] at he
    cases he
  | @transmit b c l u hl ha =>
    obtain ⟨htodo, hread⟩ := h.server hS.orderly.inv ha
    refine AllTruthful.rests hS hS' hR hs ?_ ?_ htodo fun b k hb _ hr => hread b k hb hr
    · intro b' c' hb' _ ho l' hl'
      have hle := le_update s.transmitted b b'
      exact .inl (h.lines b' c' hb' ho l' ((List.drop_sublist_drop_left _ hle).subset hl'))
    · intro c' ho ho' g hg
      rcases Server.mem_inbox_of_step ha hg with hg | he
      · exact hinbox ho' hg
      · obtain ⟨rfl, rfl⟩ := Server.Action.arrive.inj he
        obtain ⟨hb, hmem⟩ := mem_of_nextLine hl
        have hc := hS.linked.accepted b _ hb
        exact ⟨hc, .inl (h.lines b _ hb (ho' hc) l hmem)⟩

/-! ### In every run -/

/-- A frame that is read says whose it is. -/
theorem AllTruthful.tells (h : AllTruthful s) (hs : s.step (.deliver b) = some s') :
    s.Attributes (.deliver b) := by
  intro f hf
  have hr : s.Readable b := by
    cases step_moves hs with
    | deliver _ _ hg => exact .inr (GatewayServer.opened_of_frame hg)
    | oversized _ _ hg =>
      obtain ⟨_, hc, -⟩ := GatewayServer.step_deeds hg
      cases hc
      exact .inr ‹_›
  have ht := h.unread b hr f (mem_drop_of_getElem? hf)
  unfold Tells requestOf
  by_cases hm : f.line.IsMessage
  · exact (ht hm).2
  · cases hl : f.line with
    | msg | priv | privSent =>
      rw [hl] at hm
      exact absurd trivial hm
    | _ => trivial

/-- **Nicknames say whose they are** whenever a message is read, in a run in which whoever joins,
leaves or is renamed does so while no message is under way, nothing is said before the roster and
the registry agree, nobody says anything who is not in the roster, and no public message is a
command. -/
theorem attributes_of_scheduled {env : Env} {gateway : GatewayConfig} {server : LoadedConfig}
    {past : List (Network × Action)}
    (h : PathIn step Scheduled (init env gateway server) past t) :
    PathIn step Attributes (init env gateway server) past t := by
  suffices PathIn step Attributes (init env gateway server) past t ∧
      (Sound t ∧ Traced t) ∧ AllTruthful t from this.1
  induction h with
  | refl =>
    have hS := sound_init env gateway server
    have hT := traced_init env gateway server
    -- there is nobody to say anything
    refine ⟨.refl, ⟨hS, hT⟩, Clear.allTruthful ⟨?_, ?_, ?_, ?_⟩ hS hT⟩
    · exact fun b hb => absurd hb (Nat.not_lt_zero b)
    · exact fun c hc => absurd hc (Nat.not_lt_zero c)
    · exact fun c hc => absurd hc (Nat.not_lt_zero c)
    · exact fun b hb => absurd hb (Nat.not_lt_zero b)
  | @tail past t u a _ hc ha ih =>
    obtain ⟨hp, ⟨hS, hT⟩, hall⟩ := ih
    have hS' := hS.step ha
    have hT' := hT.step hS ha
    refine ⟨hp.tail ?_ ha, ⟨hS', hT'⟩, hall.step hS hT hS' hT' hc ha⟩
    cases a with
    | deliver b => exact hall.tells ha
    | _ => trivial

/-- Two sessions join, and one sends the other a direct message. -/
example : (execAllIn step Scheduled (init .sample {} .default)
    (twoReady ++ sends 0 (GatewayServer.directMessage [6] "hi") 5 ++
      [.deliver 1, .deliver 0])).isSome = true := by
  decide +kernel

/-- That one of them is renamed while the other takes its nickname is no such schedule. -/
example : execAllIn step Scheduled (init .sample {} .default) early = none := by
  decide +kernel

end Network

end ThreadLink.System
