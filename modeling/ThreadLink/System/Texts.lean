import ThreadLink.Backend.Relay
import ThreadLink.System.Limits
import ThreadLink.System.Order

/-!
# What becomes of a text

The gateway echoes a public text as it is, keeps it as SQLite stores it, and gives it to the chat
server as a line. The chat server takes CR and LF off the end of a line, ignores what is blank,
and takes what starts with `/` for a command. A surrogate without its other half does not survive
the encoding.

## What is proved

* `stripLine_utf8Encode` — what the chat server strips off a line is what could be stripped off
  the text.
* `chats_iff`, `kept_iff` — which texts it takes for chat lines, and which it leaves as they are.
* `conveyed_iff` — a public text is conveyed to the others exactly if it is such a text, or if
  it is a chat line and nobody else is there.
* `command_not_conveyed` — a public text that is not.
-/

namespace ThreadLink.System

open Text Runs Backend Gateway

/-! ### Stripping -/

/-- CR or LF. -/
def isNewline (u : UInt16) : Bool := u == 13 || u == 10

/-- A text without the CR and LF at its end. -/
def stripped (t : Units) : Units := t.rdropWhile isNewline

variable {t : Units} {serial : Option ℕ}

/-- **What is stripped off a line** could be stripped off the text. -/
theorem stripLine_utf8Encode (t : Units) : stripLine (utf8Encode t) = utf8Encode (stripped t) := by
  induction t using List.reverseRecOn with
  | nil => rfl
  | append_singleton t u ih =>
    unfold stripped stripLine at *
    by_cases hu : isNewline u = true
    · have hu' : u = 13 ∨ u = 10 := by simpa [isNewline] using hu
      have hlt : u.toNat < 0x80 := by rcases hu' with rfl | rfl <;> decide
      rw [utf8Encode_concat_ascii t hlt, List.rdropWhile_concat, List.rdropWhile_concat, if_pos hu,
        if_pos, ih]
      rcases hu' with rfl | rfl <;> decide
    · -- no other code unit is encoded as something that ends in CR or LF
      rw [List.rdropWhile_concat_neg _ _ _ hu]
      refine List.rdropWhile_eq_self_iff.mpr fun hne hb => hu ?_
      have hlast := List.getLast?_eq_some_getLast hne
      generalize (utf8Encode (t ++ [u])).getLast hne = b at hlast hb
      have hb' : b = 13 ∨ b = 10 := by simpa using hb
      have hunit := getLast?_of_utf8Encode hlast (by rcases hb' with rfl | rfl <;> decide)
      rw [List.getLast?_concat, Option.some.injEq] at hunit
      subst hunit
      rcases hb' with rfl | rfl <;> decide

/-- Nothing is left exactly of what is CR and LF only. -/
theorem stripped_eq_nil : stripped t = [] ↔ ¬ ∃ u ∈ t, isNewline u = false := by
  rw [stripped, List.rdropWhile_eq_nil_iff]
  simp

/-- What is left starts like the text. -/
theorem head?_stripped (h : stripped t ≠ []) : (stripped t).head? = t.head? := by
  have hp : stripped t <+: t := List.rdropWhile_prefix ..
  obtain ⟨r, hr⟩ := hp
  cases hs : stripped t with
  | nil => exact absurd hs h
  | cons u l =>
    rw [← hr, hs]
    rfl

/-- Nothing is stripped exactly of what does not end in CR or LF. -/
theorem stripped_eq_self : stripped t = t ↔ ∀ u ∈ t.getLast?, isNewline u = false := by
  rw [stripped, List.rdropWhile_eq_self_iff]
  constructor
  · intro h u hu
    have hne : t ≠ [] := by
      rintro rfl
      cases hu
    rw [List.getLast?_eq_some_getLast hne] at hu
    obtain rfl := Option.some.inj hu
    simpa using h hne
  · intro h hne
    have hl := h _ (List.getLast?_eq_some_getLast hne)
    simp [hl]

/-- What is stripped is missing from what is stored of the text. -/
theorem stored_stripped_iff : stored (stripped t) = stored t ↔ stripped t = t := by
  constructor
  · intro h
    have hp : stripped t <+: t := List.rdropWhile_prefix ..
    have hlen := congrArg List.length h
    rw [length_stored, length_stored] at hlen
    exact hp.eq_of_length hlen
  · intro h
    rw [h]

/-! ### Chat lines -/

/-- The text is taken for a chat line: it does not start with `/`, and is not blank. -/
def IsChat (t : Units) : Prop := t.head? ≠ some 47 ∧ ∃ u ∈ t, isNewline u = false

instance (t : Units) : Decidable (IsChat t) := inferInstanceAs (Decidable (_ ∧ _))

/-- The text is left as it is: it ends in neither CR nor LF, and its surrogates are paired. -/
def IsKept (t : Units) : Prop := (∀ u ∈ t.getLast?, isNewline u = false) ∧ isWellFormed t = true

instance (t : Units) : Decidable (IsKept t) := inferInstanceAs (Decidable (_ ∧ _))

/-- **The texts that are taken for chat lines.** -/
theorem chats_iff :
    ClientFrame.Chats ⟨utf8Encode t, serial⟩ (utf8Encode (stripped t)) ↔ IsChat t := by
  have hhead (hne : stripped t ≠ []) : (utf8Encode (stripped t)).head? = some 47 ↔
      t.head? = some 47 := by
    rw [← head?_stripped hne]
    constructor
    · exact fun h => head?_of_utf8Encode h (by decide)
    · intro h
      obtain ⟨l, hl⟩ := List.head?_eq_some_iff.mp h
      rw [hl, utf8Encode_ascii_cons (by decide)]
      rfl
  constructor
  · rintro ⟨-, hne, hh⟩
    have hne' : stripped t ≠ [] := fun he => hne (utf8Encode_eq_nil.mpr he)
    exact ⟨fun he => hh ((hhead hne').mpr he), not_not.mp fun hn => hne' (stripped_eq_nil.mpr hn)⟩
  · rintro ⟨hh, hex⟩
    have hne' : stripped t ≠ [] := fun he => stripped_eq_nil.mp he hex
    exact ⟨stripLine_utf8Encode t, fun he => hne' (utf8Encode_eq_nil.mp he),
      fun he => hh ((hhead hne').mp he)⟩

/-- **The texts that are left as they are.** -/
theorem kept_iff : utf8Decode (utf8Encode (stripped t)) = t ↔ IsKept t := by
  have hp : stripped t <+: t := List.rdropWhile_prefix ..
  rw [utf8Decode_utf8Encode_eq_iff hp, stripped_eq_self]
  rfl

namespace Network

variable {s s' u : Network} {a : Action} {w : WsId} {c k : ConnId} {f : ClientFrame} {raw : Json}
  {size : ℕ}

/-! ### Who is ready -/

/-- A session that is ready has joined and been welcomed; one that has not been welcomed has no
nickname. -/
structure Greeted (s : Network) : Prop where
  /-- It has joined. -/
  authenticated : ∀ w, (s.gateway.sessions w).readyAnnounced = true →
    (s.gateway.sessions w).authenticated = true
  /-- It has been welcomed. -/
  welcomed : ∀ w, (s.gateway.sessions w).readyAnnounced = true →
    (s.gateway.sessions w).welcomed = true
  /-- It has no nickname before. -/
  unnamed : ∀ w, (s.gateway.sessions w).welcomed = false → (s.gateway.sessions w).nickname = []

theorem greeted_init (env : Env) (gateway : GatewayConfig) (server : LoadedConfig) :
    Greeted (init env gateway server) :=
  ⟨fun _ h => absurd h nofun, fun _ h => absurd h nofun, fun _ _ => rfl⟩

/-- Whoever is welcomed or renamed is given a valid nickname, and had one before. -/
theorem Sound.event_names (hS : Sound s) {b : BackendId} {f : Frame} (hf : s.nextFrame b = some f) :
    match parseBackendLine (utf8Decode f.line.payload) with
    | .welcome nickname => ∃ n, isValidNickname n = true ∧ nickname = name n
    | .nick oldNick newNick =>
      (∃ o, isValidNickname o = true ∧ oldNick = name o) ∧ ∃ n, isValidNickname n = true ∧
        newNick = name n
    | _ => True := by
  cases hb : s.conn b with
  | none =>
    have hmem := mem_frames hf
    rw [frames_of_none hb] at hmem
    exact absurd hmem List.not_mem_nil
  | some k =>
    have hmem : f ∈ s.server.written k := frames_of_conn hb ▸ mem_frames hf
    have hleg := legible_of_written hS.sourced hS.orderly.spoken hmem
    have hvalid := hS.sourced.names_valid hS.orderly.spoken hmem
    cases hl : f.line with
    | list ns =>
      obtain ⟨_, _, hlist⟩ := parse_payload_list ns
      rw [hlist]
      trivial
    | welcome n =>
      rw [hl] at hvalid
      rw [parse_payload (show Legible (.welcome n) from trivial) nofun]
      exact ⟨n, hvalid, rfl⟩
    | nick o n =>
      rw [hl] at hvalid hleg
      rw [parse_payload hleg nofun]
      exact ⟨⟨o, hvalid.1, rfl⟩, n, hvalid.2, rfl⟩
    | _ =>
      rw [hl] at hleg
      rw [parse_payload hleg nofun]
      trivial

/-- No `NICK` renames somebody without a nickname. -/
theorem Sound.nick_ne_nil (hS : Sound s) {b : BackendId} {f : Frame} (hf : s.nextFrame b = some f)
    {newNick : Units} : parseBackendLine (utf8Decode f.line.payload) ≠ .nick [] newNick := by
  intro he
  have hn := hS.event_names hf
  rw [he] at hn
  obtain ⟨⟨o, ho, hnil⟩, -⟩ := hn
  exact name_ne_nil ho hnil.symm

/-- A frame the gateway handles is the next of its connection. -/
theorem nextFrame_of_event {b : BackendId} {p : Bytes} (he : .backendFrame b p ∈ s.event? a) :
    ∃ f, s.nextFrame b = some f ∧ f.line.payload = p := by
  cases a with
  | gateway e =>
    simp only [event?, Option.mem_def, Option.ite_none_left_eq_some, Option.some.injEq] at he
    obtain ⟨hn, rfl⟩ := he
    exact absurd rfl hn
  | deliver b' =>
    obtain ⟨f, hf, he⟩ := Option.map_eq_some_iff.mp he
    split at he
    · obtain ⟨rfl, rfl⟩ := GatewayServer.Event.backendFrame.inj he
      exact ⟨f, hf, rfl⟩
    · cases he
  | server | accept | transmit => cases he

theorem Greeted.step (h : Greeted s) (hS : Sound s) (hs : s.step a = some s') : Greeted s' := by
  rcases (step_moves hs).gateway_step with he | ⟨e, hev, hg⟩
  · exact ⟨he ▸ h.authenticated, he ▸ h.welcomed, he ▸ h.unnamed⟩
  have hnick {b : BackendId} {p : Bytes} {newNick : Units} (hp : e = .backendFrame b p) :
      parseBackendLine (utf8Decode p) ≠ .nick [] newNick := by
    subst hp
    obtain ⟨f, hf, rfl⟩ := nextFrame_of_event hev
    exact hS.nick_ne_nil hf
  have howner {b : BackendId} (hb : (s.gateway.backends b).socket = .opened) :
      (s.gateway.sessions (s.gateway.backends b).owner).authenticated = true := by
    refine hS.joined.owner b (not_le.mp fun hle => (hS.joined.uncreated b hle).2 hb)
  have hall (w : WsId) : ((s'.gateway.sessions w).readyAnnounced = true →
      (s'.gateway.sessions w).authenticated = true ∧ (s'.gateway.sessions w).welcomed = true) ∧
      ((s'.gateway.sessions w).welcomed = false → (s'.gateway.sessions w).nickname = []) := by
    obtain ⟨z, presence, pending, hb, hz⟩ := GatewayServer.step_becomes hg w
    rw [hz]
    cases hb with
    | stays => exact ⟨fun hr => ⟨h.authenticated w hr, h.welcomed w hr⟩, h.unnamed w⟩
    | closing => exact ⟨fun hr => ⟨h.authenticated w hr, h.welcomed w hr⟩, h.unnamed w⟩
    | closed => exact ⟨fun hr => ⟨h.authenticated w hr, h.welcomed w hr⟩, h.unnamed w⟩
    | arrives => exact ⟨fun hr => absurd hr nofun, fun _ => rfl⟩
    | joins => exact ⟨fun hr => ⟨rfl, h.welcomed w hr⟩, h.unnamed w⟩
    | welcome hb how => exact ⟨fun _ => ⟨how ▸ howner hb, rfl⟩, fun hw => absurd hw nofun⟩
    | welcomeReady hb how => exact ⟨fun _ => ⟨how ▸ howner hb, rfl⟩, fun hw => absurd hw nofun⟩
    | @nickReady b p newNick hb how he =>
      have hw : (s.gateway.sessions w).welcomed = true := by
        by_contra hn
        rw [h.unnamed w (by simpa using hn)] at he
        exact hnick rfl he
      exact ⟨fun _ => ⟨how ▸ howner hb, hw⟩, fun hn => absurd (hw.symm.trans hn) nofun⟩
    | rename hb how he hr =>
      have hw := h.welcomed w hr
      exact ⟨fun _ => ⟨how ▸ howner hb, hw⟩, fun hn => absurd (hw.symm.trans hn) nofun⟩
  exact ⟨fun w hr => ((hall w).1 hr).1, fun w hr => ((hall w).1 hr).2, fun w => (hall w).2⟩

/-! ### Keeping and forwarding -/

/-- **A public message that is handled** is kept as it is stored and echoed as it is, then
forwarded. -/
theorem handle_public (g : GatewayServer) (w : WsId) (t : Units) :
    ∃ m, (g.handleClientMessage w (.sendMessage .everyone t)).store.messages =
      g.store.messages ++ [Store.messageRow m] ∧ m.text = t ∧
      m.conversationId = publicConversationId ∧
      ((g.sessions w).ws = .opened →
        (g.handleClientMessage w (.sendMessage .everyone t)).sent w =
        g.sent w ++ [⟨.message m, []⟩]) ∧
      (g.handleClientMessage w (.sendMessage .everyone t)).requests =
      g.requests ++ [⟨w, none, t⟩] := by
  let m := (g.append w publicConversationId t).1
  have he : g.handleClientMessage w (.sendMessage .everyone t) =
      ((g.append w publicConversationId t).2.sendTo w (.message m)).forward ⟨w, none, t⟩
        (formatChatLine t) := rfl
  refine ⟨m, ?_, rfl, rfl, ?_, ?_⟩
  · rw [he, GatewayServer.forward, GatewayServer.sendLine_eq, GatewayServer.sendTo_eq]
    rfl
  · intro ho
    rw [he, GatewayServer.forward, GatewayServer.sendLine_eq]
    have ho' : ((g.append w publicConversationId t).2.sessions w).ws = .opened := ho
    exact GatewayServer.sent_sendTo_self ho' ..
  · rw [he, GatewayServer.forward, GatewayServer.requests_sendLine, GatewayServer.sendTo_eq]
    rfl

/-- A session that is ready has its messages handled when they arrive. -/
theorem step_of_ready (hG : Greeted s) (hr : (s.gateway.sessions w).readyAnnounced = true)
    {m : ClientMessage} (hv : validateClientMessage raw = .ok (.ok m)) (hm : m.isSession = false)
    (hsize : size ≤ s.gateway.config.maxClientMessageBytes)
    (hs : s.step (.gateway (.message w size (some raw))) = some s') :
    s'.gateway = s.gateway.handleClientMessage w m := by
  have hg : s.gateway.step (.message w size (some raw)) = some s'.gateway := by
    cases step_moves hs with
    | gateway _ hg => exact hg
  simp only [GatewayServer.step, GatewayServer.handle, Option.ite_none_left_eq_some,
    Option.ite_none_right_eq_some,
    Option.some.injEq] at hg
  obtain ⟨-, -, hg⟩ := hg
  rw [← hg, GatewayServer.onClientRaw, if_neg (not_lt.mpr hsize)]
  simp only [hv]
  have hnow : (!(s.gateway.sessions w).authenticated || !(s.gateway.sessions w).welcomed) =
      false := by
    rw [hG.authenticated w hr, hG.welcomed w hr]
    rfl
  cases m with
  | register | login | logout => cases hm
  | _ => exact if_neg (by rw [hnow]; exact Bool.false_ne_true)

/-- **The frame that has the number of a request** is a line of a backend connection. -/
theorem line_of_serial {n : ℕ} (hT : Traced s) (hf : f ∈ s.server.inbox c)
    (hn : f.serial = some n) :
    ∃ b line, s.conn b = some c ∧ line ∈ s.gateway.outbox b ∧ line.serial = some n ∧
      f.payload = utf8Encode line.text := by
  cases hT.sourced.inbox c f hf with
  | foreign _ _ hs => rw [hs] at hn; cases hn
  | @line b line hb hl => exact ⟨b, line, hb, hl, hn, rfl⟩

/-- It is the line of that request. -/
theorem payload_of_serial {n : ℕ} {r : Request} (hT : Traced s) (hf : f ∈ s.server.inbox c)
    (hn : f.serial = some n) (hr : s.gateway.requests[n]? = some r) :
    ∃ b text, s.conn b = some c ∧ r.sender = (s.gateway.backends b).owner ∧ r.Carries text ∧
      f.payload = utf8Encode text := by
  obtain ⟨b, line, hb, hl, hnum, hp⟩ := line_of_serial hT hf hn
  obtain ⟨-, hfw⟩ := hT.lines.lines b line hl
  cases hfw with
  | nick => cases hnum
  | request hr' ho hc =>
    obtain rfl := Option.some.inj hnum
    obtain rfl := Option.some.inj (hr.symm.trans hr')
    exact ⟨b, _, hb, ho, hc, hp⟩

end Network

/-! ### Conveying -/

open Server

variable {config : LoadedConfig} {t₀ v : Server} {past : List (Server × Server.Action)}
  {c k : ConnId} {n : Bytes}

/-- A connection that another welcomed client has as long as the thread of `c` is at work. -/
def Listens (past : List (Server × Server.Action)) (fd : Fd) (k : ConnId) : Prop :=
  ∀ e ∈ past, Hears e.1 fd k

/-- What the gateway reads in a frame is a public message with a text. -/
def ShowsPublic (f : Frame) (t : Units) : Prop :=
  ∃ sender, parseBackendLine (utf8Decode f.line.payload) = .msg sender t

/-- **A public text is conveyed**: the thread takes its line for plain chat, and writes to every
other client who is there throughout one frame, a public message with this text. -/
def Conveyed (c : ConnId) (serial : Option ℕ) (t : Units) (t₀ : Server)
    (past : List (Server × Server.Action)) : Prop :=
  (∃ line, t₀.todo (.handler c) = [.handleChat (t₀.fdOf c) line serial]) ∧
    ∀ k, Listens past (t₀.fdOf c) k → ∃ f, writtenBy (.handler c) past k = [f] ∧ ShowsPublic f t

/-- A frame with a public text shows it. -/
theorem showsPublic_iff {f : Frame} {text : Bytes} (hn : isValidNickname n = true)
    (hl : f.line = .msg n text) : ShowsPublic f t ↔ utf8Decode text = t := by
  have hp : parseBackendLine (utf8Decode f.line.payload) = .msg (name n) (utf8Decode text) := by
    rw [hl]
    exact @parse_payload (.msg n text) (isWord_of_valid hn) nofun
  unfold ShowsPublic
  rw [hp]
  constructor
  · rintro ⟨sender, he⟩
    exact (BackendEvent.msg.inj he).2
  · rintro rfl
    exact ⟨_, rfl⟩

/-- **A chat line is written once** to whoever is there throughout. -/
theorem written_of_listens {text : Bytes} (h : Run step (init config) t₀)
    (h₀ : Relaying config c (t₀.fdOf c) n text serial [] t₀)
    (hp : PathIn step (Undisturbed c) t₀ past v) (hd : v.todo (.handler c) = [])
    (hfit : (ServerLine.msg n text).payload.length ≤ config.1.maxMessageSize)
    (hk : Listens past (t₀.fdOf c) k) :
    ∃ f, writtenBy (.handler c) past k = [f] ∧ f.line = .msg n text := by
  cases h₀.of_path h hp with
  | named ht => rw [hd] at ht; cases ht
  | fixing ht => rw [hd] at ht; cases ht
  | @writing b ch done rest hb htb hT ht hn hfds hw =>
    rw [hd] at ht
    have hrest : rest = [] := List.map_eq_nil_iff.mp ht.symm
    rw [hrest, List.append_nil] at hT
    rw [← hT] at hw
    have hIb : Inv b := inv_of_run (h.trans (hp.mem hb).1.run)
    obtain ⟨fd', hfd'⟩ := List.length_eq_one_iff.mp ((filter_targets hIb _ k).1 (hk _ hb))
    refine ⟨relayFrame b c n text serial, ?_, rfl⟩
    have hfits : FitsRelay config n text := by
      rw [length_msg] at hfit
      exact hfit
    rw [hw, if_pos hfits, hfd']
    rfl

/-- **When the thread takes a line for plain chat.** -/
theorem handleChat_iff {fd : Fd} {f : ClientFrame} (hf : f.payload = utf8Encode t)
    (hlen : f.payload.length ≤ config.1.maxMessageSize) :
    (∃ line, handleFrame config.1 fd f = [.handleChat fd line f.serial]) ↔ IsChat t := by
  have hfe : f = ⟨utf8Encode t, f.serial⟩ := by rw [← hf]
  constructor
  · rintro ⟨line, he⟩
    have hop : Op.handleChat fd line f.serial ∈ handleFrame config.1 fd f := by
      rw [he]
      exact .head _
    obtain ⟨-, hc⟩ := asks_of_handleFrame hop
    rw [← @chats_iff t f.serial, ← hfe, ← stripLine_utf8Encode, ← hf]
    exact ⟨rfl, hc.1 ▸ hc.2.1, hc.1 ▸ hc.2.2⟩
  · intro hc
    refine ⟨utf8Encode (stripped t), ?_⟩
    rw [handleFrame_of_fits hlen]
    exact handleLine_of_chats (hfe ▸ chats_iff.mpr hc) fd

/-- **When the chat server conveys a public text** it has received. -/
theorem conveyed_of_recv {u : Server} {f : ClientFrame} {rest : List ClientFrame}
    (h : Run step (init config) u) (hin : u.inbox c = f :: rest) (hf : f.payload = utf8Encode t)
    (hs : step u (.recv c) = some t₀) (hlen : f.payload.length ≤ config.1.maxMessageSize)
    (hfit : ∀ r ∈ u.clients.find? (u.fdOf c),
      (ServerLine.msg r.nickname (stripLine f.payload)).payload.length ≤ config.1.maxMessageSize)
    (hp : PathIn step (Undisturbed c) t₀ past v) (hd : v.todo (.handler c) = []) :
    Conveyed c f.serial t t₀ past ↔ IsChat t ∧ (IsKept t ∨ ∀ k, ¬ Listens past (t₀.fdOf c) k) := by
  obtain ⟨htodo, hfd, -, -, -, r, hr⟩ := received h hin hs
  have h₀ : Run step (init config) t₀ := h.tail trivial hs
  have hplain : (∃ line, t₀.todo (.handler c) = [.handleChat (t₀.fdOf c) line f.serial]) ↔
      IsChat t := by
    rw [htodo, hfd]
    exact handleChat_iff hf hlen
  unfold Conveyed
  rw [hplain]
  apply and_congr_right
  intro hchat
  have hchats : f.Chats (utf8Encode (stripped t)) := by
    have hc : ClientFrame.Chats ⟨utf8Encode t, f.serial⟩ _ := chats_iff.mpr hchat
    rwa [← hf] at hc
  have hvalid : isValidNickname r.nickname = true := (named_of_run h).registry.valid _ _ hr
  have hR := relaying_of_recv h hr hin hlen hchats hs
  rw [← hfd] at hR
  have hone (k : ConnId) (hk : Listens past (t₀.fdOf c) k) :
      ∃ g, writtenBy (.handler c) past k = [g] ∧ (ShowsPublic g t ↔ IsKept t) := by
    obtain ⟨g, hg, hl⟩ := written_of_listens h₀ hR hp hd (by rw [← hchats.1]; exact hfit r hr) hk
    exact ⟨g, hg, (showsPublic_iff hvalid hl).trans kept_iff⟩
  constructor
  · intro hall
    by_contra hn
    obtain ⟨hk, hex⟩ := not_or.mp hn
    obtain ⟨k, hk'⟩ := not_forall_not.mp hex
    obtain ⟨g, hg, hiff⟩ := hone k hk'
    obtain ⟨g', hg', hshow⟩ := hall k hk'
    obtain rfl := List.singleton_inj.mp (hg.symm.trans hg')
    exact hk (hiff.mp hshow)
  · rintro (hk | hno) k hk'
    · obtain ⟨g, hg, hiff⟩ := hone k hk'
      exact ⟨g, hg, hiff.mpr hk⟩
    · exact absurd hk' (hno k)

namespace Network

variable {s s' : Network} {w : WsId} {raw : Json} {size : ℕ}

/-- What shows a public message is shown once. -/
theorem shown {g g' : GatewayServer} {b : BackendId} {f : Frame} (hf : ShowsPublic f t)
    (hg : g.step (.backendFrame b f.line.payload) = some g')
    (ho : (g.sessions (g.backends b).owner).ws = .opened) :
    ∃ m, g'.sent (g.backends b).owner = g.sent (g.backends b).owner ++ [⟨.message m, []⟩] ∧
      m.text = t ∧
      m.conversationId = publicConversationId := by
  obtain ⟨sender, he⟩ := hf
  simp only [GatewayServer.step, GatewayServer.handle, Option.ite_none_left_eq_some,
    Option.ite_none_right_eq_some,
    Option.some.injEq] at hg
  obtain ⟨-, -, rfl⟩ := hg
  rw [he]
  refine ⟨g.message publicConversationId (g.idByNickname sender) (some sender) t, ?_, rfl, rfl⟩
  exact GatewayServer.sent_sendTo_self (s := { g with draws := g.draws + 1 }) ho ..

/-- **When a public message is conveyed.** The gateway keeps it as SQLite stores it and echoes it
as it is. The chat server conveys it exactly if it takes it for a chat line, and either leaves it
as it is or has nobody to convey it to. What it conveys is shown once. -/
theorem conveyed_iff {env : Env} {gateway : GatewayConfig} {config : LoadedConfig}
    (h : Run step (init env gateway config) s)
    (hready : (s.gateway.sessions w).readyAnnounced = true)
    (hv : validateClientMessage raw = .ok (.ok (.sendMessage .everyone t)))
    (hsize : size ≤ s.gateway.config.maxClientMessageBytes)
    (hs : s.step (.gateway (.message w size (some raw))) = some s') :
    (∃ m, s'.gateway.store.messages = s.gateway.store.messages ++ [Store.messageRow m] ∧
      m.text = t ∧
      m.conversationId = publicConversationId ∧ ((s.gateway.sessions w).ws = .opened →
        s'.gateway.sent w = s.gateway.sent w ++ [⟨.message m, []⟩])) ∧
    (∀ u c f rest t₀ past v, Run step s' u → u.server.inbox c = f :: rest →
      f.serial = some s.gateway.requests.length →
      u.server.step (.recv c) = some t₀ → f.payload.length ≤ config.1.maxMessageSize →
      (∀ r ∈ u.server.clients.find? (u.server.fdOf c),
        (ServerLine.msg r.nickname (stripLine f.payload)).payload.length ≤
        config.1.maxMessageSize) →
      PathIn Server.step (Undisturbed c) t₀ past v → v.todo (.handler c) = [] →
      (Conveyed c f.serial t t₀ past ↔ IsChat t ∧ (IsKept t ∨ ∀ k, ¬ Listens past (t₀.fdOf c) k))) ∧
    ∀ f (g g' : GatewayServer) b, ShowsPublic f t →
      g.step (.backendFrame b f.line.payload) = some g' →
      (g.sessions (g.backends b).owner).ws = .opened →
      ∃ m, g'.sent (g.backends b).owner = g.sent (g.backends b).owner ++ [⟨.message m, []⟩] ∧
        m.text = t ∧
        m.conversationId = publicConversationId := by
  obtain ⟨hS, hG⟩ : Sound s ∧ Greeted s := h.invariant (I := fun s => Sound s ∧ Greeted s)
    ⟨sound_init .., greeted_init ..⟩ fun _ _ _ ⟨hS, hG⟩ _ hs => ⟨hS.step hs, hG.step hS hs⟩
  have hg := step_of_ready hG hready hv rfl hsize hs
  obtain ⟨m, hm, ht, hc, hsent, hreq⟩ := handle_public s.gateway w t
  rw [← hg] at hm hsent hreq
  refine ⟨⟨m, hm, ht, hc, hsent⟩, ?_, fun f g g' b hf hstep ho => shown hf hstep ho⟩
  intro u c f rest t₀ past v hu hin hn hrecv hlen hfit hp hd
  have hall : Run step (init env gateway config) u := (h.tail trivial hs).trans hu
  obtain ⟨-, hT⟩ : Sound u ∧ Traced u := hall.invariant (I := fun s => Sound s ∧ Traced s)
    ⟨sound_init .., traced_init ..⟩ fun _ _ _ hk _ hs => ⟨hk.1.step hs, hk.2.step hk.1 hs⟩
  have hserver : Run Server.step (.init config) u.server :=
    (server_of_run (D := fun _ _ => True) (hall.mono fun _ _ _ _ _ => trivial)).run
  -- the frame is the line of this request
  have hr : s'.gateway.requests[s.gateway.requests.length]? = some ⟨w, none, t⟩ := by
    rw [hreq, List.getElem?_concat_length]
  have hru : u.gateway.requests[s.gateway.requests.length]? = some ⟨w, none, t⟩ := by
    refine hu.invariant
      (I := fun u => u.gateway.requests[s.gateway.requests.length]? = some ⟨w, none, t⟩) hr ?_
    intro _ _ _ hk _ hs
    obtain ⟨new, hnew⟩ := requests_step hs
    rw [← hnew, List.getElem?_append_left (List.getElem?_eq_some_iff.mp hk).1, hk]
  obtain ⟨b, text, -, -, hcarries, hpayload⟩ :=
    payload_of_serial hT (by rw [hin]; exact .head _) hn hru
  have htext : text = t := hcarries
  exact conveyed_of_recv hserver hin (htext ▸ hpayload) hrecv hlen hfit hp hd

/-! ### A chat line and a command -/

/-- The first of two sessions sends a public text, and the thread that has received its line
runs its next `n` blocks. -/
def speaks (text : String) (n : ℕ) (P : Server → Bool) (s : Network) : Bool :=
  (s.gateway.sessions 0).readyAnnounced && s.gateway.requests.isEmpty &&
    decide (50 ≤ s.gateway.config.maxClientMessageBytes) &&
    (s.step (.gateway (.message 0 50 (some (GatewayServer.publicMessage text))))).any fun s' =>
    (s'.step (.transmit 0)).any fun u =>
      decide (u.server.inbox 0 = [⟨utf8Encode (units text), some 0⟩] ∧ u.server.fdOf 0 = 5 ∧
        u.server.clients.find? 5 = some ⟨bytes "alice", true⟩) &&
      (u.server.step (.recv 0)).any fun t₀ =>
        P t₀ && (execAllIn Server.step (Undisturbed 0) t₀ (blocks (.handler 0) n)).any fun v =>
          decide (v.todo (.handler 0) = [])

theorem exists_spoken {text : String} {n : ℕ} {P : Server → Bool}
    (h : (execAll step (init .sample {} .default) twoReady).any (speaks text n P) = true) :
    ∃ s s' u : Network, ∃ t₀ v past, Run step (init .sample {} .default) s ∧
      (s.gateway.sessions 0).readyAnnounced = true ∧
      s.gateway.requests.length = 0 ∧ 50 ≤ s.gateway.config.maxClientMessageBytes ∧
      s.step (.gateway (.message 0 50 (some (GatewayServer.publicMessage text)))) = some s' ∧
      Run step s' u ∧
      u.server.inbox 0 = [⟨utf8Encode (units text), some 0⟩] ∧ (u.server.fdOf 0 = 5 ∧
        u.server.clients.find? 5 = some ⟨bytes "alice", true⟩) ∧
      u.server.step (.recv 0) = some t₀ ∧ P t₀ = true ∧
      PathIn Server.step (Undisturbed 0) t₀ past v ∧
      v.todo (.handler 0) = [] := by
  obtain ⟨s, hs, h⟩ := (Option.any_eq_true ..).mp h
  simp only [speaks, Bool.and_eq_true, List.isEmpty_iff, decide_eq_true_eq] at h
  obtain ⟨⟨⟨hready, hreq⟩, hsize⟩, h⟩ := h
  obtain ⟨s', hs', h⟩ := (Option.any_eq_true ..).mp h
  obtain ⟨u, hu, h⟩ := (Option.any_eq_true ..).mp h
  simp only [Bool.and_eq_true, decide_eq_true_eq] at h
  obtain ⟨⟨hin, hfd, hr⟩, h⟩ := h
  obtain ⟨t₀, ht₀, h⟩ := (Option.any_eq_true ..).mp h
  obtain ⟨hP, h⟩ := Bool.and_eq_true .. |>.mp h
  obtain ⟨v, hv, hd⟩ := (Option.any_eq_true ..).mp h
  exact ⟨s, s', u, t₀, v, _, run_of_execAll hs, hready,
    by rw [hreq]; rfl, hsize, hs', (RunIn.refl s').tail trivial hu, hin,
    ⟨hfd, hr⟩, ht₀, hP, pathIn_of_execAllIn hv, of_decide_eq_true hd⟩

set_option maxRecDepth 16000 in
theorem greeting_conveyed : ∃ t₀ past, Conveyed 0 (some 0) (units "hi") t₀ past := by
  obtain ⟨s, s', u, t₀, v, past, hs, hready, hreq, hsize, hs', hu, hin, ⟨hfd, hr⟩, ht₀, -,
      hp, hd⟩ :=
    @exists_spoken "hi" 3 (fun _ => true) (by decide)
  have hv : validateClientMessage (GatewayServer.publicMessage "hi") =
      .ok (.ok (.sendMessage .everyone (units "hi"))) :=
    accepted_of_length (by decide) (by decide)
  have hiff := (conveyed_iff hs hready hv hsize hs').2.1 u 0 _ [] t₀ past v hu hin (by rw [hreq])
    ht₀ (by decide)
    (fun r hr' => by
      rw [hfd, hr] at hr'
      obtain rfl := Option.some.inj hr'
      decide) hp hd
  exact ⟨t₀, past, hiff.mpr ⟨by decide, .inl (by decide)⟩⟩

set_option maxRecDepth 16000 in
/-- **A public text that is not conveyed**: the gateway keeps and echoes `/list`, and the chat
server lists its clients to the sender. -/
theorem command_not_conveyed : ¬ ∀ (s s' u : Network) w size raw t c f rest t₀ past v,
    Run step (init .sample {} .default) s → (s.gateway.sessions w).readyAnnounced = true →
    validateClientMessage raw = .ok (.ok (.sendMessage .everyone t)) →
    size ≤ s.gateway.config.maxClientMessageBytes →
    s.step (.gateway (.message w size (some raw))) = some s' → Run step s' u →
    u.server.inbox c = f :: rest → f.serial = some s.gateway.requests.length →
    u.server.step (.recv c) = some t₀ →
    f.payload.length ≤ 8192 → (∀ r ∈ u.server.clients.find? (u.server.fdOf c),
      (ServerLine.msg r.nickname (stripLine f.payload)).payload.length ≤ 8192) →
    PathIn Server.step (Undisturbed c) t₀ past v → v.todo (.handler c) = [] →
    Conveyed c f.serial t t₀ past := by
  intro hall
  obtain ⟨s, s', u, t₀, v, past, hs, hready, hreq, hsize, hs', hu, hin, ⟨hfd, hr⟩, ht₀, hlist,
      hp, hd⟩ :=
    @exists_spoken "/list" 3 (fun t₀ => decide (t₀.todo (.handler 0) = [.handleList 5])) (by decide)
  have hv : validateClientMessage (GatewayServer.publicMessage "/list") =
      .ok (.ok (.sendMessage .everyone (units "/list"))) :=
    accepted_of_length (by decide) (by decide)
  obtain ⟨line, hline⟩ :=
    (hall s s' u 0 50 _ _ 0 _ [] t₀ past v hs hready hv hsize hs' hu hin (by rw [hreq]) ht₀
    (by decide) (fun r hr' => by
      rw [hfd, hr] at hr'
      obtain rfl := Option.some.inj hr'
      decide) hp hd).1
  rw [of_decide_eq_true hlist] at hline
  cases hline

end Network

end ThreadLink.System
