import ThreadLink.Gateway.Faults
import ThreadLink.System.Names
import ThreadLink.System.Requests

/-!
# Whom a message is said to be from

A message line of the chat server has the nickname its sender used, or the one its recipient was
addressed by, and the gateway looks up who goes by that nickname when it reads the line.

## What is proved

* `attributed` — if whenever a message is read only the session that has sent it goes by its
  nickname, and a direct one is read for the session it was meant for, every message a browser
  is sent names the account that sent it or none, and a direct one is in the conversation in
  which the gateway has kept it.
* `message_from_itself` — without that a user may be shown the message of another as its own.
-/

namespace ThreadLink.System

open Text Runs Backend Gateway

namespace Network

variable {s s' t : Network} {a : Action} {b : BackendId} {c k : ConnId} {f : Frame}
  {m : MessageSummary}
  {nickname : Units}

/-- The accounts of the request a frame is about. -/
def requestOf (s : Network) (f : Frame) : Option (Units × Option Units) :=
  f.serial.bind fun n => s.accounts[n]?

/-- Every welcomed session that goes by a nickname is of an account, if there is one. -/
def OnlyBy (s : Network) (nickname : Units) (account : Option Units) : Prop :=
  ∀ w ∈ s.gateway.welcomedSessions, (s.gateway.sessions w).nickname = nickname →
    some (s.gateway.sessions w).id = account

instance (s : Network) (nickname : Units) (account : Option Units) :
    Decidable (s.OnlyBy nickname account) :=
  inferInstanceAs (Decidable (∀ w ∈ _, _ → _))

/-- The sessions of an account, and no others, go by a nickname. -/
def UsedBy (s : Network) (nickname account : Units) : Prop :=
  (∃ w ∈ s.gateway.welcomedSessions, (s.gateway.sessions w).nickname = nickname) ∧
  s.OnlyBy nickname (some account)

instance (s : Network) (nickname account : Units) : Decidable (s.UsedBy nickname account) :=
  inferInstanceAs (Decidable (_ ∧ _))

/-- A direct message is read for an account. If another client has sent it, no session goes by
its nickname; else only its sender does, and the account is its peer. -/
def SentBy (s : Network) (nickname own : Units) : Option (Units × Option Units) → Prop
  | none => s.OnlyBy nickname none
  | some (sender, peer) => s.UsedBy nickname sender ∧ peer = some own

instance (s : Network) (nickname own : Units) (r : Option (Units × Option Units)) :
    Decidable (s.SentBy nickname own r) :=
  match r with
  | none => inferInstanceAs (Decidable (s.OnlyBy ..))
  | some _ => inferInstanceAs (Decidable (_ ∧ _))

/-- The confirmation of a direct message is read for an account. The account is its sender, and
only its peer goes by the nickname. -/
def SentTo (s : Network) (nickname own : Units) : Option (Units × Option Units) → Prop
  | some (sender, some peer) => sender = own ∧ s.UsedBy nickname peer
  | _ => False

instance (s : Network) (nickname own : Units) (r : Option (Units × Option Units)) :
    Decidable (s.SentTo nickname own r) :=
  match r with
  | some (_, some _) => inferInstanceAs (Decidable (_ ∧ _))
  | some (_, none) => isFalse not_false
  | none => isFalse not_false

/-- The nickname of a message of a request says whose it is, when it is read for an account. -/
def Names (s : Network) (own : Units) (r : Option (Units × Option Units)) : ServerLine → Prop
  | .msg n _ => s.OnlyBy (name n) (r.map Prod.fst)
  | .priv n _ => s.SentBy (name n) own r
  | .privSent n _ => s.SentTo (name n) own r
  | _ => True

instance (s : Network) (own : Units) (r : Option (Units × Option Units)) (line : ServerLine) :
    Decidable (s.Names own r line) :=
  match line with
  | .msg _ _ => inferInstanceAs (Decidable (s.OnlyBy ..))
  | .priv _ _ => inferInstanceAs (Decidable (s.SentBy ..))
  | .privSent _ _ => inferInstanceAs (Decidable (s.SentTo ..))
  | .welcome _ | .sys _ | .nick _ _ | .list _ | .err _ _ => isTrue trivial

/-- The nickname of a message says whose it is when it is read. -/
def Tells (s : Network) (b : BackendId) (f : Frame) : Prop :=
  s.Names (s.gateway.sessions (s.gateway.backends b).owner).id (s.requestOf f) f.line

instance (s : Network) (b : BackendId) (f : Frame) : Decidable (s.Tells b f) :=
  inferInstanceAs (Decidable (s.Names ..))

/-- The nicknames of messages say whose they are. -/
def Attributes (s : Network) : Action → Prop
  | .deliver b => ∀ f ∈ s.nextFrame b, s.Tells b f
  | _ => True

instance (s : Network) (a : Action) : Decidable (s.Attributes a) :=
  match a with
  | .deliver b => inferInstanceAs (Decidable (∀ f ∈ s.nextFrame b, _))
  | .gateway _ | .server _ | .accept _ _ | .transmit _ => isTrue trivial

/-- A message a browser is sent, for a frame of connection `k`, is attributed rightly. -/
inductive Attributed (s : Network) (k : ConnId) (f : Frame) (m : MessageSummary) : Prop where
  /-- Another client has sent it, and it is nobody's. -/
  | foreign {c : ConnId} (hc : senderOf k f = some c) (hl : ¬ s.IsLinked c) (hs : m.senderId = none)
  /-- A session has sent it, and it is its account's or nobody's. A direct one is in the
  conversation of the accounts of its sender and of its peer, in which the gateway has kept it. -/
  | request {c : ConnId} {b : BackendId} {n : ℕ} {r : Request} {sender : Units}
    {peer : Option Units}
    (hc : senderOf k f = some c) (hb : s.conn b = some c) (hn : f.serial = some n)
    (hr : s.gateway.requests[n]? = some r) (ho : r.sender = (s.gateway.backends b).owner)
    (ha : s.accounts[n]? = some (sender, peer)) (hs : m.senderId = none ∨ m.senderId = some sender)
    (hd : (∀ n text, f.line ≠ .msg n text) → ∃ p, peer = some p ∧
      m.conversationId = directConversationId sender p ∧
      s.gateway.Keeps m.conversationId sender r.text)

/-! ### Looking up a nickname -/

theorem OnlyBy.idByNickname {account : Option Units} (h : s.OnlyBy nickname account) :
    s.gateway.idByNickname nickname = none ∨ s.gateway.idByNickname nickname = account := by
  unfold GatewayServer.idByNickname
  cases hf : s.gateway.findByNickname nickname with
  | none => exact .inl rfl
  | some w =>
    have hp := List.find?_some hf
    simp only [Bool.and_eq_true, beq_iff_eq] at hp
    exact .inr (h w (List.mem_filter.mpr ⟨List.mem_of_find?_eq_some hf, hp.1⟩) hp.2)

theorem UsedBy.idByNickname {account : Units} (h : s.UsedBy nickname account) :
    s.gateway.idByNickname nickname = some account := by
  obtain ⟨⟨w, hw, hn⟩, ho⟩ := h
  apply ho.idByNickname.resolve_left
  intro hnone
  obtain ⟨hmem, hwel⟩ := List.mem_filter.mp hw
  have hf : s.gateway.findByNickname nickname = none := Option.map_eq_none_iff.mp hnone
  have hnot := List.find?_eq_none.mp hf w hmem
  simp [hwel, hn] at hnot

/-! ### One frame -/

/-- What is read of a message is an event that says it. -/
theorem isMessage_event {line : ServerLine} (h : line.IsMessage) : (event line).IsMessage := by
  cases line <;> first | exact h.elim | trivial

/-- **A message of another client**, of which no session goes by the nickname. -/
theorem sender_of_foreign {own : BackendId} (hm : f.line.IsMessage) (ht : s.Tells own f)
    (hn : s.requestOf f = none)
    (hr : s.gateway.Relays (s.gateway.backends own).owner (event f.line) m) :
    m.senderId = none := by
  unfold Tells at ht
  rw [hn] at ht
  cases hline : f.line with
  | msg n text =>
    rw [hline] at ht hr
    cases hr with
    | msg hs => exact hs.trans (ht.idByNickname.elim id id)
  | priv n text =>
    rw [hline] at ht hr
    have ho : s.OnlyBy (name n) none := ht
    cases hr with
    | priv hs => exact hs.trans (ho.idByNickname.elim id id)
  | privSent =>
    rw [hline] at ht
    exact ht.elim
  | _ =>
    rw [hline] at hm
    exact hm.elim

/-- **A message of a session**: its account, and its conversation. -/
theorem sender_of_request {own : BackendId} {sender : Units} {peer : Option Units}
    (hm : f.line.IsMessage) (ht : s.Tells own f) (hn : s.requestOf f = some (sender, peer))
    (hr : s.gateway.Relays (s.gateway.backends own).owner (event f.line) m) :
    (m.senderId = none ∨ m.senderId = some sender) ∧ ((∀ n text, f.line ≠ .msg n text) →
      ∃ p, peer = some p ∧ m.conversationId = directConversationId sender p) := by
  unfold Tells at ht
  rw [hn] at ht
  cases hline : f.line with
  | msg n text =>
    rw [hline] at ht hr
    cases hr with
    | msg hs => exact ⟨hs ▸ ht.idByNickname, fun h => absurd rfl (h n text)⟩
  | priv n text =>
    rw [hline] at ht hr
    obtain ⟨hu, hp⟩ : s.UsedBy (name n) sender ∧ peer = some _ := ht
    cases hr with
    | priv hs hc =>
      rw [hu.idByNickname] at hs hc
      exact ⟨.inr hs, fun _ => ⟨_, hp, by rw [hc, directConversationId_comm]; rfl⟩⟩
  | privSent n text =>
    rw [hline] at ht hr
    cases peer with
    | none => exact ht.elim
    | some peer =>
      obtain ⟨rfl, hu⟩ : sender = _ ∧ s.UsedBy (name n) peer := ht
      cases hr with
      | privSent hs hc =>
        rw [hu.idByNickname] at hc
        exact ⟨.inr hs, fun _ => ⟨peer, rfl, hc⟩⟩
  | _ =>
    rw [hline] at hm
    exact hm.elim

/-- **One message**: when its nickname says whose it is, it is attributed rightly. -/
theorem attributed_of_relays {own : BackendId} (hT : Traced s) (hf : f ∈ s.server.written k)
    (hm : f.line.IsMessage) (ht : s.Tells own f)
    (hr : s.gateway.Relays (s.gateway.backends own).owner (event f.line) m) :
    Attributed s k f m := by
  obtain ⟨c, hc, ho⟩ := hT.origin hf hm
  cases hs : f.serial with
  | none =>
    rw [hs] at ho
    cases ho with
    | foreign hl => exact .foreign hc hl (sender_of_foreign hm ht (by rw [requestOf, hs]; rfl) hr)
  | some n =>
    rw [hs] at ho
    cases ho with
    | request hb hreq hown =>
      have hlt := (List.getElem?_eq_some_iff.mp hreq).1
      obtain ⟨⟨sender, peer⟩, ha⟩ : ∃ a, s.accounts[n]? = some a :=
        ⟨_, List.getElem?_eq_getElem (hT.length ▸ hlt)⟩
      obtain ⟨hsender, hconv⟩ := sender_of_request hm ht (by rw [requestOf, hs]; exact ha) hr
      refine .request hc hb hs hreq hown ha hsender ?_
      intro hl
      obtain ⟨p, rfl, hp⟩ := hconv hl
      exact ⟨p, rfl, hp, hp ▸ (hT.records n _ _ hreq ha).keeps⟩

/-! ### In every run -/

/-- **Every message is attributed rightly** in a run in which, whenever a message is read, its
nickname says whose it is: the message event that is made of it names the account whose session
has sent it, or nobody, and a direct one is in the conversation of its sender and its peer, in
which the gateway has kept it when it was sent. -/
theorem attributed {env : Env} {gateway : GatewayConfig} {server : LoadedConfig}
    {past : List (Network × Action)} (h : PathIn step Attributes (init env gateway server) past t)
    (hp : (s, .deliver b) ∈ past) (hs : s.step (.deliver b) = some s') (hf : s.nextFrame b = some f)
    (hk : s.conn b = some k) (hm : f.line.IsMessage) (x : WsId) :
    ∃ extra, s'.gateway.sent x = s.gateway.sent x ++ extra ∧
      ∀ e ∈ extra, ∀ m, e.message = .message m →
      x = (s.gateway.backends b).owner ∧ Attributed s k f m := by
  obtain ⟨hrun, hc⟩ := h.mem hp
  obtain ⟨hS, hT⟩ : Sound s ∧ Traced s := hrun.invariant (I := fun s => Sound s ∧ Traced s)
    ⟨sound_init .., traced_init ..⟩ fun _ _ _ hk _ hs => ⟨hk.1.step hs, hk.2.step hk.1 hs⟩
  have hwritten : f ∈ s.server.written k := frames_of_conn hk ▸ mem_frames hf
  have hparse : parseBackendLine (utf8Decode f.line.payload) = event f.line :=
    parse_payload (legible_of_written hS.sourced hS.orderly.spoken hwritten) fun ns hl =>
    by rw [hl] at hm; exact hm
  cases step_moves hs with
  | deliver hf' hfit hg =>
    obtain rfl := Option.some.inj (hf.symm.trans hf')
    obtain ⟨extra, he, hx⟩ :=
      GatewayServer.relayed_of_step hg (by rw [hparse]; exact isMessage_event hm) x
    refine ⟨extra, he, ?_⟩
    intro e hmem m hmsg
    obtain ⟨rfl, hr⟩ := hx e hmem m hmsg
    exact ⟨rfl, attributed_of_relays hT hwritten hm (hc f hf) (hparse ▸ hr)⟩
  | oversized _ _ hg =>
    exact ⟨[],
      by
        rw [List.append_nil]; exact GatewayServer.sent_of_oversized hg x, fun _ h =>
          absurd h List.not_mem_nil⟩

/-- A session sends a message, and the chat server runs `k` blocks of its thread. -/
def sends (n : ℕ) (message : Json) (k : ℕ) : List Action :=
  [.gateway (.message n 50 (some message)), .transmit n, .server (.recv n)] ++ runs (.handler n) k

/-- What the second of two sessions is sent when the first sends it a direct message. -/
def direct : MessageSummary :=
  ⟨[10], directConversationId [3] [6], some [3], some (units "alice"), units "hi", [10]⟩

set_option maxRecDepth 16000 in
theorem direct_from_first :
    ∃ s f, ∃ e : Sent, s.conn 1 = some 1 ∧ s.nextFrame 1 = some f ∧ e.message = .message direct ∧
    Attributed s 1 f direct := by
  obtain ⟨s, hs, hf, hk, hc, hsent⟩ :=
    exists_runIn_of_any step Attributes (init .sample {} .default)
    (twoReady ++ sends 0 (GatewayServer.directMessage [6] "hi") 5)
    (fun s => s.nextFrame 1 = some
      ⟨.priv (bytes "alice") (bytes "hi"), .priv (some 0) (some 1), some 0⟩ ∧
      s.conn 1 = some 1 ∧ s.Attributes (.deliver 1) ∧
      (s.step (.deliver 1)).any (fun s' =>
        decide ((s'.gateway.sent 1).drop (s.gateway.sent 1).length = [⟨.message direct, []⟩])))
        (by decide)
  obtain ⟨s', hs', hsent⟩ := (Option.any_eq_true ..).mp hsent
  obtain ⟨past, hp⟩ := hs.exists_path
  obtain ⟨extra, he, hx⟩ :=
    attributed (hp.tail hc hs') (List.mem_append_right _ (.head _)) hs' hf hk trivial 1
  have hnew := of_decide_eq_true hsent
  rw [he, List.drop_left] at hnew
  subst hnew
  exact ⟨s, _, ⟨.message direct, []⟩, hk, hf, rfl, (hx _ (.head _) direct rfl).2⟩

/-- The second of two sessions is being renamed, the first takes the nickname it gives up and says
something. The second is told so before it is told that it has a new nickname. -/
def early : List Action :=
  twoReady ++ asksFor 1 "dave" ++ asksFor 0 "bob" ++ runs (.handler 0) 3 ++
    sends 0 (GatewayServer.publicMessage "hi") 3 ++ [.deliver 1]

/-- What the second is sent for it. -/
def fromItself : MessageSummary :=
  ⟨[8], publicConversationId, some [6], some (units "bob"), units "hi", [8]⟩

set_option maxRecDepth 16000 in
/-- **A user is shown the message of another as its own**: in its browser the nickname of the
sender is still its own. -/
theorem message_from_itself : ¬ ∀ s s' b k f x (e : Sent) m, Run step (init .sample {} .default) s →
      s.step (.deliver b) = some s' →
    s.nextFrame b = some f → s.conn b = some k → f.line.IsMessage →
    e ∈ (s'.gateway.sent x).drop (s.gateway.sent x).length → e.message = .message m →
    Attributed s k f m := by
  intro hall
  obtain ⟨s, hs, hf, hk, ha, hsent⟩ := exists_run_of_any step (init .sample {} .default) early
    (fun s => s.nextFrame 1 = some
      ⟨.msg (bytes "bob") (bytes "hi"), .broadcast (some 0) 2, some 0⟩ ∧
      s.conn 1 = some 1 ∧ s.accounts[0]? = some ([3], none) ∧
      (s.step (.deliver 1)).any (fun s' =>
        decide ((s'.gateway.sent 1).drop (s.gateway.sent 1).length = [⟨.message fromItself, []⟩])))
        (by decide)
  obtain ⟨s', hs', hsent⟩ := (Option.any_eq_true ..).mp hsent
  have hmem : ⟨.message fromItself, []⟩ ∈ (s'.gateway.sent 1).drop (s.gateway.sent 1).length := by
    rw [of_decide_eq_true hsent]
    exact .head _
  cases hall s s' 1 1 _ 1 _ fromItself hs hs' hf hk trivial hmem rfl with
  | foreign _ _ hnone => cases hnone
  | request _ _ hn _ _ ha' hsender =>
    obtain rfl := Option.some.inj hn
    obtain ⟨rfl, -⟩ := Prod.mk.inj (Option.some.inj (ha.symm.trans ha'))
    exact absurd hsender (by decide)

end Network

end ThreadLink.System
