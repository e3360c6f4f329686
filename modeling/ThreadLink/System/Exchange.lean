import ThreadLink.Backend.Routing
import ThreadLink.System.Direct
import ThreadLink.System.Texts

/-!
# What becomes of a direct message

The gateway keeps a direct message as soon as its peer is online, opens the conversation, and
gives the message to the chat server as a `/msg` line. The chat server decides later: it refuses
a message without a text, one to nobody, and one to the sender itself. The row is not taken back.
The row has the text as SQLite stores it; what is delivered has been encoded and decoded too, so
that the two differ only in what the chat server strips off.

## What is proved

* `split_msg` — what the chat server makes of the line.
* `line_of_request` — the line with the number of a direct message is addressed to the nickname
  its peer went by.
* `delivered_of_recv` — when the chat server delivers what it has received.
* `honest_iff` — a direct message to somebody who is offline leaves nothing. One to somebody who
  is online is kept, and rightly so exactly if its text ends in neither CR nor LF and when the
  chat server looks the nickname up, another welcomed client uses it that is the peer's.
* `message_to_oneself_kept` — one that is refused and kept.
-/

namespace ThreadLink.System

open Text Runs Backend Gateway

/-! ### The line -/

variable {t : Units} {serial : Option ℕ} {n : Bytes} {f : Frame}

/-- A nickname in front is encoded as it was. -/
theorem utf8Encode_name_append (h : IsWord n) (t : Units) :
    utf8Encode (name n ++ t) = n ++ utf8Encode t := by
  have hascii : ∀ u ∈ name n, u.toNat < 0x80 := by
    rw [name, utf8Decode_word h]
    exact toNat_lt_of_mem_map fun b hb => (h b hb).1
  rw [utf8Encode_ascii_append hascii, ← utf8Encode_ascii hascii, utf8Encode_name h]

/-- **A `/msg` line** is split into that command, the nickname, and what is left of the text. -/
theorem split_msg (h : IsWord n) (t : Units) :
    Backend.splitFirst (stripLine (utf8Encode (formatMsgCommand (name n) t))) =
      (bytes "/msg", n ++ 32 :: utf8Encode (stripped t)) ∧
    Backend.splitFirst (n ++ 32 :: utf8Encode (stripped t)) = (n, utf8Encode (stripped t)) := by
  have he : utf8Encode (formatMsgCommand (name n) t) =
      (bytes "/msg" ++ 32 :: n) ++ 32 :: utf8Encode t := by
    have hf : formatMsgCommand (name n) t = units "/msg " ++ (name n ++ 32 :: t) := by
      simp only [formatMsgCommand, List.append_assoc]
      rfl
    rw [hf, utf8Encode_ascii_append (by decide), utf8Encode_name_append h,
      utf8Encode_ascii_cons (by decide)]
    rfl
  rw [he, stripLine_append _ (by decide), stripLine_utf8Encode, List.append_assoc]
  have h32 : (32 : UInt8) ∉ n := fun hm => (h 32 hm).2 rfl
  exact ⟨splitFirst_append (by decide) _, splitFirst_append h32 _⟩

/-- So the chat server takes it for a private message, if something is left. -/
theorem messages_of_msg (hv : isValidNickname n = true) (hne : stripped t ≠ []) :
    ClientFrame.Messages ⟨utf8Encode (formatMsgCommand (name n) t), serial⟩ n
      (utf8Encode (stripped t)) := by
  obtain ⟨h1, h2⟩ := split_msg (isWord_of_valid hv) t
  refine ⟨congrArg Prod.fst h1, ?_, (isValidNickname_iff.mp hv).1,
    fun he => hne (utf8Encode_eq_nil.mp he)⟩
  show Backend.splitFirst
    (Backend.splitFirst (stripLine (utf8Encode (formatMsgCommand (name n) t)))).2 = _
  rw [h1]
  exact h2

/-- The answer to a private message without a target or a text. -/
def msgUsage : Frame :=
  ⟨.err (bytes "MSG_USAGE") (bytes "Usage: /msg <nickname> <message>"), .direct, none⟩

/-- If nothing is left, it answers with an error. -/
theorem handleLine_of_blank (hv : isValidNickname n = true) (hnil : stripped t = []) (fd : Fd) :
    handleLine fd (utf8Encode (formatMsgCommand (name n) t)) serial = [.sendToFd fd msgUsage] := by
  obtain ⟨h1, h2⟩ := split_msg (isWord_of_valid hv) t
  have hhead := head?_of_word (b := 47) (w := bytes "msg") (congrArg Prod.fst h1)
  have hnick : bytes "/msg" ≠ bytes "/nick" := by decide
  have hempty : (stripLine (utf8Encode (formatMsgCommand (name n) t))).isEmpty = false := by
    cases hl : stripLine (utf8Encode (formatMsgCommand (name n) t)) with
    | nil => rw [hl] at hhead; cases hhead
    | cons => rfl
  have hblank : (utf8Encode (stripped t)).isEmpty = true := by rw [hnil]; rfl
  simp only [handleLine, hempty, hhead, h1, hnick, Bool.false_eq_true, if_false, if_true, handleMsg,
    h2, hblank,
    Bool.or_true, sendError, msgUsage]

namespace Network

variable {s s' u : Network} {a : Action} {w p : WsId} {c k : ConnId} {raw : Json} {size : ℕ}
  {peerId : Units}

/-! ### Who is called what -/

/-- A session that has been welcomed goes by a valid nickname. -/
def Called (s : Network) : Prop :=
  ∀ w, (s.gateway.sessions w).welcomed = true →
    ∃ n, isValidNickname n = true ∧ (s.gateway.sessions w).nickname = name n

theorem called_init (env : Env) (gateway : GatewayConfig) (server : LoadedConfig) :
    Called (init env gateway server) :=
  fun _ h => absurd h nofun

theorem Called.step (h : Called s) (hS : Sound s) (hs : s.step a = some s') : Called s' := by
  rcases (step_moves hs).gateway_step with he | ⟨e, hev, hg⟩
  · unfold Called
    rw [he]
    exact h
  intro w
  have hframe {b : BackendId} {p : Bytes} (hp : e = .backendFrame b p) :
      ∃ f, s.nextFrame b = some f ∧ f.line.payload = p := nextFrame_of_event (hp ▸ hev)
  have hwelcome {b : BackendId} {p : Bytes} {nickname : Units} (hp : e = .backendFrame b p)
      (he : parseBackendLine (utf8Decode p) = .welcome nickname) :
      ∃ n, isValidNickname n = true ∧ nickname = name n := by
    obtain ⟨f, hf, rfl⟩ := hframe hp
    have hn := hS.event_names hf
    rwa [he] at hn
  have hnick {b : BackendId} {p : Bytes} {oldNick newNick : Units} (hp : e = .backendFrame b p)
      (he : parseBackendLine (utf8Decode p) = .nick oldNick newNick) :
      ∃ n, isValidNickname n = true ∧ newNick = name n := by
    obtain ⟨f, hf, rfl⟩ := hframe hp
    have hn := hS.event_names hf
    rw [he] at hn
    exact hn.2
  obtain ⟨z, presence, pending, hb, hz⟩ := GatewayServer.step_becomes hg w
  rw [hz]
  cases hb with
  | stays => exact h w
  | closing => exact h w
  | closed => exact h w
  | arrives => exact fun hw => absurd hw nofun
  | joins => exact h w
  | welcome _ _ he => exact fun _ => hwelcome rfl he
  | welcomeReady _ _ he => exact fun _ => hwelcome rfl he
  | nickReady _ _ he => exact fun _ => hnick rfl he
  | rename _ _ he => exact fun _ => hnick rfl he

/-! ### Keeping and forwarding -/

/-- **A direct message to somebody who is offline** leaves nothing, and is answered. -/
theorem handle_offline {g : GatewayServer} (h : g.online? peerId = none) (w : WsId) (t : Units) :
    (g.handleClientMessage w (.sendMessage (.direct peerId) t)).store = g.store ∧
      (g.handleClientMessage w (.sendMessage (.direct peerId) t)).outbox = g.outbox ∧
      (g.handleClientMessage w (.sendMessage (.direct peerId) t)).requests = g.requests ∧
      ((g.sessions w).ws = .opened →
        (g.handleClientMessage w (.sendMessage (.direct peerId) t)).sent w = g.sent w ++
          [⟨.error (units "USER_NOT_FOUND") (units "That user is not currently online.")
            (some (directConversationId (g.sessions w).id peerId)), []⟩]) := by
  have he : g.handleClientMessage w (.sendMessage (.direct peerId) t) =
      g.sendError w (units "USER_NOT_FOUND") (units "That user is not currently online.")
        (some (directConversationId (g.sessions w).id peerId)) := by
    simp only [GatewayServer.handleClientMessage, GatewayServer.handleSendMessage, h]
  rw [he, GatewayServer.sendError]
  refine ⟨?_, ?_, ?_, fun ho => GatewayServer.sent_sendTo_self ho ..⟩ <;>
    rw [GatewayServer.sendTo_eq]

/-- Opening a conversation keeps no message. -/
theorem messages_openDirect (g : GatewayServer) (w p : WsId) :
    (g.openDirect w p).2.store.messages = g.store.messages ∧
      (g.openDirect w p).1 = directConversationId (g.sessions w).id (g.sessions p).id := by
  have hm (now a b : Units) : (g.store.ensureDirect now a b).1.messages = g.store.messages := by
    unfold Store.ensureDirect
    dsimp only
    split <;> rfl
  refine ⟨?_, rfl⟩
  unfold GatewayServer.openDirect
  dsimp only
  split
  · exact hm ..
  · rw [GatewayServer.sendTo_eq _ p, GatewayServer.sendTo_eq _ w]
    exact hm ..

/-- **A direct message to somebody who is online** is kept as it is stored, and forwarded. -/
theorem handle_direct {g : GatewayServer} (h : g.online? peerId = some p) (w : WsId) (t : Units) :
    ∃ m, (g.handleClientMessage w (.sendMessage (.direct peerId) t)).store.messages =
      g.store.messages ++ [m] ∧
      m.text = stored t ∧
      m.conversationId = directConversationId (g.sessions w).id (g.sessions p).id ∧
      (g.handleClientMessage w (.sendMessage (.direct peerId) t)).requests =
      g.requests ++ [⟨w, some p, t⟩] := by
  obtain ⟨hm, hid⟩ := messages_openDirect g w p
  have hr : (g.openDirect w p).2.requests = g.requests := by rw [GatewayServer.openDirect_eq]
  have he : g.handleClientMessage w (.sendMessage (.direct peerId) t) =
      ((g.openDirect w p).2.append w (g.openDirect w p).1 t).2.forward ⟨w, some p, t⟩
        (formatMsgCommand
          ((((g.openDirect w p).2.append w (g.openDirect w p).1 t).2).sessions p).nickname t) := by
    simp only [GatewayServer.handleClientMessage, GatewayServer.handleSendMessage, h]
  refine ⟨Store.messageRow ((g.openDirect w p).2.append w (g.openDirect w p).1 t).1, ?_, rfl, hid,
    ?_⟩
  · rw [he, GatewayServer.forward, GatewayServer.sendLine_eq]
    show (g.openDirect w p).2.store.messages ++ [_] = _
    rw [hm]
    rfl
  · rw [he, GatewayServer.forward, GatewayServer.requests_sendLine]
    show (g.openDirect w p).2.requests ++ [_] = _
    rw [hr]

/-- **The line with the number of a direct message**, wherever it is, is that message for the
nickname its peer went by. -/
theorem line_of_request (hT : Traced s) (h : s.gateway.online? peerId = some p)
    (hg : s'.gateway = s.gateway.handleClientMessage w (.sendMessage (.direct peerId) t))
    (hu : Run step s' u) :
    ∀ b, ∀ line ∈ u.gateway.outbox b, line.serial = some s.gateway.requests.length →
      line.text = formatMsgCommand (s.gateway.sessions p).nickname t := by
  have h' : s.gateway.requests.length < u.gateway.requests.length ∧
    ∀ b, ∀ line ∈ u.gateway.outbox b,
      line.serial = some s.gateway.requests.length →
      line.text = formatMsgCommand (s.gateway.sessions p).nickname t := by
    refine hu.invariant (I := fun u => s.gateway.requests.length < u.gateway.requests.length ∧
      ∀ b, ∀ line ∈ u.gateway.outbox b, line.serial = some s.gateway.requests.length →
        line.text = formatMsgCommand (s.gateway.sessions p).nickname t) ⟨?_, ?_⟩ ?_
    · obtain ⟨m, -, -, -, hr⟩ := handle_direct h w t
      rw [hg, hr, List.length_append, List.length_singleton]
      exact Nat.lt_succ_self _
    · intro b line hl hn
      obtain ⟨new, hnew, hlines⟩ := lines_of_message s.gateway w (.sendMessage (.direct peerId) t) b
      rw [hg, hnew] at hl
      rcases List.mem_append.mp hl with hl | hl
      · -- a line that was there is that of an older request
        obtain ⟨-, hf⟩ := hT.lines.lines b line hl
        cases hf with
        | nick => cases hn
        | request hr =>
          obtain rfl := Option.some.inj hn
          exact absurd (List.getElem?_eq_some_iff.mp hr).1 (lt_irrefl _)
      · have hline := hlines line hl
        rw [lineOf, h] at hline
        exact (Option.some.inj hline).symm
    · rintro u a u' ⟨hlt, hall⟩ _ hstep
      rcases (step_moves hstep).gateway_step with he | ⟨e', -, hg'⟩
      · rw [he]
        exact ⟨hlt, hall⟩
      · refine ⟨hlt.trans_le (GatewayServer.step_numbers hg' 0).1, ?_⟩
        intro b line hl hn
        obtain ⟨-, new, hnew, hN⟩ := GatewayServer.step_numbers hg' b
        rw [hnew] at hl
        rcases List.mem_append.mp hl with hl | hl
        · exact hall b line hl hn
        · have hle := hN.lower _ (List.mem_filterMap.mpr ⟨line, hl, hn⟩)
          exact absurd hlt (not_lt.mpr hle)
  exact h'.2

end Network

/-! ### Delivering -/

open Server

variable {config : LoadedConfig} {t₀ v : Server} {past : List (Server × Server.Action)}
  {c k : ConnId}

/-- What the gateway reads in a frame is a direct message with a text. -/
def ShowsPriv (f : Frame) (t : Units) : Prop :=
  ∃ sender, parseBackendLine (utf8Decode f.line.payload) = .priv sender t

/-- What it reads confirms one. -/
def ShowsSent (f : Frame) (t : Units) : Prop :=
  ∃ recipient, parseBackendLine (utf8Decode f.line.payload) = .privSent recipient t

/-- **A direct message is delivered** to a connection: the thread writes one frame to it, with the
text, and one to its own client, which confirms the text. -/
def Delivered (c k : ConnId) (t : Units) (past : List (Server × Server.Action)) : Prop :=
  (∃ f, writtenBy (.handler c) past k = [f] ∧ ShowsPriv f t) ∧
  ∃ f, writtenBy (.handler c) past c = [f] ∧ ShowsSent f t

theorem showsPriv_privFrame {m text : Bytes} (hv : isValidNickname m = true) :
    ShowsPriv (privFrame c k m text serial) t ↔ utf8Decode text = t := by
  have hp : parseBackendLine (utf8Decode (privFrame c k m text serial).line.payload) =
      .priv (name m) (utf8Decode text) :=
    @parse_payload (.priv m text) (isWord_of_valid hv) nofun
  unfold ShowsPriv
  rw [hp]
  constructor
  · rintro ⟨sender, he⟩
    exact (BackendEvent.priv.inj he).2
  · rintro rfl
    exact ⟨_, rfl⟩

theorem showsSent_sentFrame {text : Bytes} (hv : isValidNickname n = true) :
    ShowsSent (sentFrame n text serial) t ↔ utf8Decode text = t := by
  have hp : parseBackendLine (utf8Decode (sentFrame n text serial).line.payload) =
      .privSent (name n) (utf8Decode text) :=
    @parse_payload (.privSent n text) (isWord_of_valid hv) nofun
  unfold ShowsSent
  rw [hp]
  constructor
  · rintro ⟨recipient, he⟩
    exact (BackendEvent.privSent.inj he).2
  · rintro rfl
    exact ⟨_, rfl⟩

/-- An error is read as an error. -/
theorem not_shows_of_isErr (h : f.IsErr) : ¬ ShowsPriv f t ∧ ¬ ShowsSent f t := by
  obtain ⟨code, text, hc, hl⟩ := h
  have hp : parseBackendLine (utf8Decode f.line.payload) =
      .err (utf8Decode code) (utf8Decode text) := by
    rw [hl]
    exact @parse_payload (.err code text) hc nofun
  unfold ShowsPriv ShowsSent
  rw [hp]
  exact ⟨fun ⟨_, he⟩ => (nomatch he), fun ⟨_, he⟩ => (nomatch he)⟩

/-- **When the chat server delivers a direct message** it has received. The thread looks up the
nickname in `b`, if anything is left of the text, and then sends the one answer there is. -/
theorem delivered_of_recv {u : Server} {g : ClientFrame} {rest : List ClientFrame}
    (h : Run step (init config) u) (hin : u.inbox c = g :: rest)
    (hg : g.payload = utf8Encode (formatMsgCommand (name n) t)) (hv : isValidNickname n = true)
    (hne : t ≠ []) (hs : step u (.recv c) = some t₀)
    (hlen : g.payload.length ≤ config.1.maxMessageSize)
    (hpriv : ∀ r ∈ u.clients.find? (u.fdOf c),
      (ServerLine.priv r.nickname (utf8Encode (stripped t))).payload.length ≤
      config.1.maxMessageSize)
    (hsent : (ServerLine.privSent n (utf8Encode (stripped t))).payload.length ≤
      config.1.maxMessageSize)
    (hp : PathIn step (Steady c) t₀ past v) (hd : v.todo (.handler c) = []) :
    ∃ b, RunIn step AllStay t₀ b ∧
      (stripped t ≠ [] → ∃ ch, (b, .run (.handler c) ch) ∈ past ∧
        b.todo (.handler c) = [.handleMsg (u.fdOf c) n (utf8Encode (stripped t)) g.serial]) ∧
      ∀ k, (Delivered c k (stored t) past ↔
          (∀ x ∈ t.getLast?, isNewline x = false) ∧ b.Uses (u.fdOf c) n k) ∧
        (Delivered c k (stored t) past → ∀ f ∈ writtenBy (.handler c) past c, ¬ f.IsErr) := by
  rw [← stripped_eq_self, ← stored_stripped_iff]
  obtain ⟨htodo, -, -, -, -, r, hr⟩ := received h hin hs
  have h₀ : Run step (init config) t₀ := h.tail trivial hs
  have hge : g = ⟨utf8Encode (formatMsgCommand (name n) t), g.serial⟩ := by rw [← hg]
  have herr {f : Frame} (hf : ShowsSent f (stored t)) : ¬ f.IsErr :=
    fun he => (not_shows_of_isErr he).2 hf
  -- what has been delivered has been confirmed, and nothing else has been answered
  have hanswer {k : ConnId} (hdel : Delivered c k (stored t) past) :
      ∀ f ∈ writtenBy (.handler c) past c, ¬ f.IsErr := by
    obtain ⟨-, f, hf, hshow⟩ := hdel
    rw [hf]
    intro f' hf'
    rw [List.mem_singleton.mp hf']
    exact herr hshow
  by_cases hblank : stripped t = []
  · have hline : handleFrame config.1 (u.fdOf c) g = [.sendToFd (u.fdOf c) msgUsage] := by
      rw [handleFrame_of_fits hlen, hg]
      exact handleLine_of_blank hv hblank _
    have hall := answered_of_recv h hin hs hline hp hd
    have husage : msgUsage.IsErr := ⟨_, _, by decide, rfl⟩
    have hnot : ¬ stored (stripped t) = stored t :=
      fun hk => hne ((stored_stripped_iff.mp hk).symm.trans hblank)
    refine ⟨t₀, .refl _, fun hno => absurd hblank hno,
      fun k => ⟨iff_of_false ?_ fun hk => hnot hk.1, hanswer⟩⟩
    rintro ⟨⟨f, hf, hshow⟩, -⟩
    have hfu := hall k f (by rw [hf]; exact .head _)
    exact (not_shows_of_isErr (hfu ▸ husage)).1 hshow
  · have hmsg : g.Messages n (utf8Encode (stripped t)) := by
      rw [hge]
      exact messages_of_msg hv hblank
    have hvalid : isValidNickname r.nickname = true := (named_of_run h).registry.valid _ _ hr
    have hR := routing_of_recv h hr hin hlen hmsg hs
    obtain ⟨b, ch, hb, htb, hall⟩ := routed_of_path h₀ hR hp hd (hpriv r hr) hsent
    refine ⟨b, ((hp.mem hb).1).mono fun _ _ hq => hq.2, fun _ => ⟨ch, hb, htb⟩,
      fun k => ⟨?_, hanswer⟩⟩
    obtain ⟨hyes, hno⟩ := hall k
    constructor
    · rintro ⟨⟨f, hf, hshow⟩, -⟩
      by_cases hu : b.Uses (u.fdOf c) n k
      · obtain ⟨hw, -⟩ := hyes hu
        obtain rfl := List.singleton_inj.mp (hf.symm.trans hw)
        exact ⟨(showsPriv_privFrame hvalid).mp hshow, hu⟩
      · rcases hno hu f (by rw [hf]; exact .head _) with rfl | he
        · obtain ⟨sender, hs⟩ := hshow
          have hq : parseBackendLine
            (utf8Decode (sentFrame n (utf8Encode (stripped t)) g.serial).line.payload) =
              .privSent (name n) (utf8Decode (utf8Encode (stripped t))) :=
            @parse_payload (.privSent n _) (isWord_of_valid hv) fun _ h => by cases h
          rw [hq] at hs
          cases hs
        · exact absurd hshow (not_shows_of_isErr he).1
    · rintro ⟨hkept, hu⟩
      obtain ⟨hw, hc⟩ := hyes hu
      exact ⟨⟨_, hw, (showsPriv_privFrame hvalid).mpr hkept⟩, _, hc,
        (showsSent_sentFrame hv).mpr hkept⟩

namespace Network

variable {s s' u : Network} {w p : WsId} {raw : Json} {size : ℕ} {peerId : Units}

/-- **A direct message is kept rightly**: it is kept exactly if it is delivered to its peer with the
text that is stored, and if it is answered with an error, neither it nor a conversation is. -/
structure Honest (s s' u : Network) (p : WsId) (c : ConnId) (t : Units)
    (past : List (Server × Server.Action)) : Prop where
  /-- It is kept exactly if it is delivered. -/
  kept : (∃ m, s'.gateway.store.messages = s.gateway.store.messages ++ [m] ∧
      m.text = stored t) ↔ ∃ k, u.IsOf k p ∧ Delivered c k (stored t) past
  /-- An error leaves nothing. -/
  refused : (∃ f ∈ writtenBy (.handler c) past c, f.IsErr) →
    s'.gateway.store.messages = s.gateway.store.messages ∧
      s'.gateway.store.conversations.rows = s.gateway.store.conversations.rows

/-- What shows a direct message, or confirms it, is shown once. -/
theorem shown_direct {g g' : GatewayServer} {b : BackendId} (hf : ShowsPriv f t ∨ ShowsSent f t)
    (hg : g.step (.backendFrame b f.line.payload) = some g')
    (ho : (g.sessions (g.backends b).owner).ws = .opened) :
    ∃ m, g'.sent (g.backends b).owner = g.sent (g.backends b).owner ++ [⟨.message m, []⟩] ∧
      m.text = t := by
  simp only [GatewayServer.step, GatewayServer.handle, Option.ite_none_left_eq_some,
    Option.ite_none_right_eq_some,
    Option.some.injEq] at hg
  obtain ⟨-, -, rfl⟩ := hg
  rcases hf with ⟨sender, he⟩ | ⟨recipient, he⟩ <;> rw [he]
  all_goals
    refine ⟨_, GatewayServer.sent_sendTo_self ?_ .., rfl⟩
    exact ho

/-- **When a direct message is kept rightly.** One to somebody who is offline leaves nothing in the
store and gives nothing to the chat server. One to somebody who is online is kept. That is right
exactly if its text ends in neither CR nor LF, and when the chat server looks the nickname up,
another welcomed client uses it that is the peer's. If that is so when the message is sent, it is
as long as nobody is renamed or leaves. What is delivered is shown once. -/
theorem honest_iff {env : Env} {gateway : GatewayConfig} {config : LoadedConfig}
    (h : Run step (init env gateway config) s)
    (hready : (s.gateway.sessions w).readyAnnounced = true)
    (hv : validateClientMessage raw = .ok (.ok (.sendMessage (.direct peerId) t)))
    (hsize : size ≤ s.gateway.config.maxClientMessageBytes)
    (hs : s.step (.gateway (.message w size (some raw))) = some s') :
    (s.gateway.online? peerId = none →
      s'.gateway.store = s.gateway.store ∧ s'.gateway.outbox = s.gateway.outbox ∧
        s'.gateway.requests = s.gateway.requests ∧ ((s.gateway.sessions w).ws = .opened →
          s'.gateway.sent w = s.gateway.sent w ++
            [⟨.error (units "USER_NOT_FOUND") (units "That user is not currently online.")
              (some (directConversationId (s.gateway.sessions w).id peerId)), []⟩])) ∧
    (∀ p, s.gateway.online? peerId = some p → ∃ n, isValidNickname n = true ∧
      (s.gateway.sessions p).nickname = name n ∧
      ∀ u c f rest t₀ past v, Run step s' u → u.server.inbox c = f :: rest →
        f.serial = some s.gateway.requests.length →
        u.server.step (.recv c) = some t₀ → f.payload.length ≤ config.1.maxMessageSize →
        (∀ r ∈ u.server.clients.find? (u.server.fdOf c),
          (ServerLine.priv r.nickname (utf8Encode (stripped t))).payload.length ≤
          config.1.maxMessageSize) →
        (ServerLine.privSent n (utf8Encode (stripped t))).payload.length ≤ config.1.maxMessageSize →
        PathIn Server.step (Steady c) t₀ past v → v.todo (.handler c) = [] →
        ∃ b, (stripped t ≠ [] → ∃ ch, (b, .run (.handler c) ch) ∈ past ∧
            b.todo (.handler c) =
            [.handleMsg (u.server.fdOf c) n (utf8Encode (stripped t)) f.serial]) ∧
          (Honest s s' u p c t past ↔ (∀ x ∈ t.getLast?, isNewline x = false) ∧
            ∃ k, u.IsOf k p ∧ b.Uses (u.server.fdOf c) n k) ∧
          ∀ k, RunIn step (OfServer Server.AllStay) s' u → s.server.Uses (u.server.fdOf c) n k →
            b.Uses (u.server.fdOf c) n k) ∧
    ∀ f (g g' : GatewayServer) b, ShowsPriv f t ∨ ShowsSent f t →
      g.step (.backendFrame b f.line.payload) = some g' →
      (g.sessions (g.backends b).owner).ws = .opened →
      ∃ m, g'.sent (g.backends b).owner = g.sent (g.backends b).owner ++ [⟨.message m, []⟩] ∧
        m.text = t := by
  obtain ⟨⟨hS, hT⟩, hG, hC⟩ : (Sound s ∧ Traced s) ∧ Greeted s ∧ Called s :=
    h.invariant (I := fun s => (Sound s ∧ Traced s) ∧ Greeted s ∧ Called s)
      ⟨⟨sound_init .., traced_init ..⟩, greeted_init .., called_init env gateway config⟩
      fun _ _ _ ⟨⟨hS, hT⟩, hG, hC⟩ _ hs =>
      ⟨⟨hS.step hs, hT.step hS hs⟩, hG.step hS hs, hC.step hS hs⟩
  have hg := step_of_ready hG hready hv rfl hsize hs
  have hserver : s'.server = s.server := by
    cases step_moves hs with
    | gateway => rfl
  refine ⟨fun hoff => hg ▸ handle_offline hoff w t, ?_,
    fun f g g' b hf hstep ho => shown_direct hf hstep ho⟩
  intro p hon
  have hwel : (s.gateway.sessions p).welcomed = true := (Option.filter_eq_some_iff.mp hon).2
  obtain ⟨n, hn, hname⟩ := hC p hwel
  refine ⟨n, hn, hname, ?_⟩
  intro u c f rest t₀ past v hu hin hser hrecv hlen hpriv hsent hp hd
  have hall : Run step (init env gateway config) u := (h.tail trivial hs).trans hu
  obtain ⟨hSu, hTu⟩ : Sound u ∧ Traced u := hall.invariant (I := fun s => Sound s ∧ Traced s)
    ⟨sound_init .., traced_init ..⟩ fun _ _ _ hk _ hs => ⟨hk.1.step hs, hk.2.step hk.1 hs⟩
  have hrun : Run Server.step (.init config) u.server :=
    (server_of_run (D := fun _ _ => True) (hall.mono fun _ _ _ _ _ => trivial)).run
  -- the frame is the line of this message
  obtain ⟨b', line, -, hl, hnum, hpay⟩ := line_of_serial hTu (by rw [hin]; exact .head _) hser
  have htext := line_of_request hT hon hg hu b' line hl hnum
  rw [htext, hname] at hpay
  obtain ⟨b, hb, hrouted, hdel⟩ :=
    delivered_of_recv hrun hin hpay hn (bounded_of_accepted hv).1 hrecv hlen hpriv hsent hp hd
  obtain ⟨m, hm, hmt, -, -⟩ := handle_direct hon w t
  rw [← hg] at hm
  refine ⟨b, hrouted, ⟨?_, ?_⟩, ?_⟩
  · intro hH
    obtain ⟨k, hk, hdk⟩ := hH.kept.mp ⟨m, hm, hmt⟩
    obtain ⟨hkept, huse⟩ := (hdel k).1.mp hdk
    exact ⟨hkept, k, hk, huse⟩
  · rintro ⟨hkept, k, hk, huse⟩
    have hdk := (hdel k).1.mpr ⟨hkept, huse⟩
    exact ⟨iff_of_true ⟨m, hm, hmt⟩ ⟨k, hk, hdk⟩,
      fun ⟨f', hf', he⟩ => absurd he ((hdel k).2 hdk f' hf')⟩
  · intro k hstay huse
    have hstart : Run Server.step (.init config) s'.server :=
      (server_of_run (D := fun _ _ => True) ((h.tail trivial hs).mono fun _ _ _ _ _ => trivial)).run
    have hu' := uses_of_run hstart (server_of_run (D := Server.AllStay) hstay) (hserver ▸ huse)
    obtain ⟨-, -, hfds, hclients, -⟩ := received hrun hin hrecv
    apply uses_of_run (hrun.tail trivial hrecv) hb
    unfold Server.Uses at hu' ⊢
    rwa [hfds, hclients]

/-! ### A message to another and one to oneself -/

instance (c : ConnId) (s : Server) (a : Server.Action) : Decidable (Server.Steady c s a) :=
  inferInstanceAs (Decidable (_ ∧ _))

/-- The first of two sessions sends a direct message to an account, its line arrives while nobody
leaves, and the thread that has received it runs its next `n` blocks. `Q` is asked of the
gateway before and after the message, of the chat server when it has the line, and of what has
been written. -/
def directs (peerId : Units) (text line : String) (n : ℕ)
    (Q : Network → Network → List Frame → Bool) (s : Network) : Bool :=
  (s.gateway.sessions 0).readyAnnounced && s.gateway.requests.isEmpty &&
    decide (50 ≤ s.gateway.config.maxClientMessageBytes) &&
    (s.step (.gateway (.message 0 50 (some (GatewayServer.directMessage peerId text))))).any
      fun s' =>
    decide (OfServer Server.AllStay s' (.transmit 0)) && (s'.step (.transmit 0)).any fun u =>
      decide (u.server.inbox 0 = [⟨utf8Encode (units line), some 0⟩] ∧ u.server.fdOf 0 = 5 ∧
        u.server.clients.find? 5 = some ⟨bytes "alice", true⟩ ∧ u.IsOf 1 1) &&
      (u.server.step (.recv 0)).any fun t₀ =>
        (execAllIn Server.step (Server.Steady 0) t₀ (blocks (.handler 0) n)).any fun v =>
          decide (v.todo (.handler 0) = []) &&
            Q s s' (writtenBy (.handler 0) (trace Server.step t₀ (blocks (.handler 0) n)) 0)

theorem exists_directed {peerId : Units} {text line : String} {n : ℕ}
    {Q : Network → Network → List Frame → Bool}
    (h : (execAll step (init .sample {} .default) twoReady).any (directs peerId text line n Q) =
      true) :
    ∃ s s' u : Network, ∃ t₀ v past, Run step (init .sample {} .default) s ∧
      (s.gateway.sessions 0).readyAnnounced = true ∧
      s.gateway.requests.length = 0 ∧ 50 ≤ s.gateway.config.maxClientMessageBytes ∧
      s.step (.gateway (.message 0 50 (some (GatewayServer.directMessage peerId text)))) = some s' ∧
      RunIn step (OfServer Server.AllStay) s' u ∧
      (u.server.inbox 0 = [⟨utf8Encode (units line), some 0⟩] ∧ u.server.fdOf 0 = 5 ∧
        u.server.clients.find? 5 = some ⟨bytes "alice", true⟩ ∧ u.IsOf 1 1) ∧
      u.server.step (.recv 0) = some t₀ ∧ PathIn Server.step (Server.Steady 0) t₀ past v ∧
      v.todo (.handler 0) = [] ∧
      Q s s' (writtenBy (.handler 0) past 0) = true := by
  obtain ⟨s, hs, h⟩ := (Option.any_eq_true ..).mp h
  simp only [directs, Bool.and_eq_true, List.isEmpty_iff, decide_eq_true_eq] at h
  obtain ⟨⟨⟨hready, hreq⟩, hsize⟩, h⟩ := h
  obtain ⟨s', hs', h⟩ := (Option.any_eq_true ..).mp h
  obtain ⟨hstay, h⟩ := Bool.and_eq_true .. |>.mp h
  obtain ⟨u, hu, h⟩ := (Option.any_eq_true ..).mp h
  obtain ⟨hstate, h⟩ := Bool.and_eq_true .. |>.mp h
  obtain ⟨t₀, ht₀, h⟩ := (Option.any_eq_true ..).mp h
  obtain ⟨v, hv, h⟩ := (Option.any_eq_true ..).mp h
  obtain ⟨hd, hQ⟩ := Bool.and_eq_true .. |>.mp h
  exact ⟨s, s', u, t₀, v, _, run_of_execAll hs, hready, by rw [hreq]; rfl, hsize, hs',
    (RunIn.refl s').tail (of_decide_eq_true hstay) hu, of_decide_eq_true hstate, ht₀,
    pathIn_of_execAllIn hv,
    of_decide_eq_true hd, hQ⟩

set_option maxRecDepth 16000 in
theorem message_to_second_honest : ∃ (s s' u : Network) (past : List (Server × Server.Action)),
    Honest s s' u 1 0 (units "hi") past := by
  obtain ⟨s, s', u, t₀, v, past, hs, hready, hreq, hsize, hs', hu, ⟨hin, hfd, hr, hof⟩, ht₀, hp,
      hd, hQ⟩ :=
    @exists_directed [6] "hi" "/msg bob hi" 5 (fun s _ _ => decide (s.gateway.online? [6] = some 1 ∧
      (s.gateway.sessions 1).nickname = name (bytes "bob") ∧
      s.server.clients.find? 6 = some ⟨bytes "bob", true⟩ ∧
      s.server.fds 6 = some 1)) (by decide)
  obtain ⟨hon, hname, hbob, hk⟩ := of_decide_eq_true hQ
  have hv : validateClientMessage (GatewayServer.directMessage [6] "hi") =
      .ok (.ok (.sendMessage (.direct [6]) (units "hi"))) := by
    decide
  obtain ⟨n, hn, hname', hall⟩ := (honest_iff hs hready hv hsize hs').2.1 1 hon
  obtain rfl : bytes "bob" = n := name_injective (by decide) hn (hname.symm.trans hname')
  obtain ⟨b, -, hiff, hstays⟩ := hall u 0 _ [] t₀ past v hu.run hin (by rw [hreq]) ht₀ (by decide)
    (fun r hr' => by
      rw [hfd, hr] at hr'
      obtain rfl := Option.some.inj hr'
      decide) (by decide) hp hd
  have huses := hstays 1 hu ⟨6, _, by rw [hfd]; decide, hbob, rfl, rfl, hk⟩
  exact ⟨s, s', u, past, hiff.mpr ⟨by decide, 1, hof, huses⟩⟩

/-- The answer to a private message to the sender itself. -/
def msgSelf : Frame :=
  ⟨.err (bytes "MSG_SELF") (bytes "You cannot send a private message to yourself"), .direct, none⟩

set_option maxRecDepth 16000 in
/-- **A direct message that is refused and kept**: one to the sender itself. -/
theorem message_to_oneself_kept : ¬ ∀ (s s' u : Network) w size raw peerId t p c f rest t₀ past v,
    Run step (init .sample {} .default) s → (s.gateway.sessions w).readyAnnounced = true →
    validateClientMessage raw = .ok (.ok (.sendMessage (.direct peerId) t)) →
    size ≤ s.gateway.config.maxClientMessageBytes → s.gateway.online? peerId = some p →
    s.step (.gateway (.message w size (some raw))) = some s' →
    RunIn step (OfServer Server.AllStay) s' u →
    u.server.inbox c = f :: rest → f.serial = some s.gateway.requests.length →
    u.server.step (.recv c) = some t₀ →
    f.payload.length ≤ 8192 → (∀ r ∈ u.server.clients.find? (u.server.fdOf c),
      (ServerLine.priv r.nickname (utf8Encode (stripped t))).payload.length ≤ 8192) →
    (ServerLine.privSent (utf8Encode (s.gateway.sessions p).nickname)
      (utf8Encode (stripped t))).payload.length ≤ 8192 →
    PathIn Server.step (Server.Steady c) t₀ past v → v.todo (.handler c) = [] →
    Honest s s' u p c t past := by
  intro hall
  obtain ⟨s, s', u, t₀, v, past, hs, hready, hreq, hsize, hs', hu, ⟨hin, hfd, hr, -⟩, ht₀, hp,
      hd, hQ⟩ :=
    @exists_directed [3] "hi" "/msg alice hi" 3
      (fun s s' written => decide (s.gateway.online? [3] = some 0 ∧
      (s.gateway.sessions 0).nickname = units "alice" ∧ written = [msgSelf] ∧
      s.gateway.store.messages.length ≠ s'.gateway.store.messages.length)) (by decide)
  obtain ⟨hon, hname, hwritten, hlen⟩ := of_decide_eq_true hQ
  have hv : validateClientMessage (GatewayServer.directMessage [3] "hi") =
      .ok (.ok (.sendMessage (.direct [3]) (units "hi"))) := by
    decide
  have hH := hall s s' u 0 50 _ [3] _ 0 0 _ [] t₀ past v hs hready hv hsize hon hs' hu hin
    (by rw [hreq]) ht₀
    (by decide) (fun r hr' => by
      rw [hfd, hr] at hr'
      obtain rfl := Option.some.inj hr'
      decide) (by rw [hname]; decide) hp hd
  have hsame := (hH.refused ⟨msgSelf, by rw [hwritten]; exact .head _, _, _, by decide, rfl⟩).1
  rw [hsame] at hlen
  exact hlen rfl

end Network

end ThreadLink.System
