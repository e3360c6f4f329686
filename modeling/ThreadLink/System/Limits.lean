import ThreadLink.Gateway.Faults
import ThreadLink.Gateway.Requests
import ThreadLink.System.Names

/-!
# How long a line may be

The gateway counts the code units of a text, the chat server the bytes of a frame. Nothing
counts the bytes of a line before it is given to the chat server, which answers a frame over
its limit with `FRAME_TOO_LARGE` and ends the connection.

## What is proved

* `lines_of_message` — the lines a message of a client is forwarded in.
* `line_fits_iff` — with equal limits of 8192 at least, the line of an accepted message is
  within them exactly if the text of the message is short enough in bytes; the chat server
  answers any other with `FRAME_TOO_LARGE`.
* `long_text_is_dropped` — a text the gateway accepts and the chat server does not.
-/

namespace ThreadLink.System

open Text Runs Backend Gateway Gateway.GatewayServer

/-! ### The line of a message -/

/-- The line a message is forwarded in. -/
def lineOf (s : GatewayServer) : ClientMessage → Option Units
  | .setNickname nickname => some (formatNickCommand nickname)
  | .sendMessage .everyone text => some (formatChatLine text)
  | .sendMessage (.direct peerId) text =>
    (s.online? peerId).map fun peer => formatMsgCommand (s.sessions peer).nickname text
  | _ => none

variable {s t u : GatewayServer} {w : WsId} {b : BackendId} {m : ClientMessage} {line : Line}

/-- Deeds that leave the roster and the nicknames as they are leave the line of a message. -/
theorem lineOf_same (h : Same s t) (m : ClientMessage) : lineOf t m = lineOf s m := by
  have honline (peerId : Units) : t.online? peerId = s.online? peerId := by
    have hw : (fun x => (t.sessions x).welcomed) = fun x => (s.sessions x).welcomed :=
        funext fun x => by
      obtain ⟨_, _, hx⟩ := h.sessions x
      rw [hx]
    unfold online?
    rw [h.roster, hw]
  have hnick (x : WsId) : (t.sessions x).nickname = (s.sessions x).nickname := by
    obtain ⟨_, _, hx⟩ := h.sessions x
    rw [hx]
  unfold lineOf
  split
  · rfl
  · rfl
  · simp only [honline, hnick]
  · rfl

/-- A line is added to one connection. -/
theorem outbox_sendLine_eq (s : GatewayServer) (w : WsId) (l : Line) (b : BackendId) :
    ∃ new, (s.sendLine w l).outbox b = s.outbox b ++ new ∧ ∀ line ∈ new, line = l := by
  rcases outbox_sendLine s w l with ho | ⟨b', -, ho⟩
  · exact ⟨[], by rw [ho, List.append_nil], fun _ h => absurd h List.not_mem_nil⟩
  · by_cases hb : b = b'
    · subst hb
      exact ⟨[l], by rw [ho, Function.update_self], fun line h => List.mem_singleton.mp h⟩
    · exact ⟨[],
        by rw [ho, Function.update_of_ne hb, List.append_nil], fun _ h => absurd h List.not_mem_nil⟩

/-- One deed forwards the message it has for a cause in the line of that message. -/
theorem line_of_deed (h : Deed s (.message w m) t) (b : BackendId) :
    ∃ new, t.outbox b = s.outbox b ++ new ∧ ∀ line ∈ new, lineOf s m = some line.text := by
  have hsend {s' : GatewayServer} {l : Line} {x : WsId} (ho : s'.outbox = s.outbox)
      (hl : lineOf s m = some l.text) :
      ∃ new, (s'.sendLine x l).outbox b = s.outbox b ++ new ∧
        ∀ line ∈ new, lineOf s m = some line.text := by
    obtain ⟨new, hn, hall⟩ := outbox_sendLine_eq s' x l b
    exact ⟨new, by rw [hn, ho], fun line h => by rw [hall line h, hl]⟩
  have hsame : ∃ new, s.outbox b = s.outbox b ++ new ∧ ∀ line ∈ new, lineOf s m = some line.text :=
    ⟨[], (List.append_nil _).symm, fun _ h => absurd h List.not_mem_nil⟩
  cases h with
  | nick hc =>
    rcases hc with hc | ⟨own, hc⟩
    · cases hc
      exact hsend rfl rfl
    · cases hc
  | chat => exact hsend rfl rfl
  | direct hp => exact hsend rfl (by rw [lineOf, hp]; rfl)
  | _ => exact hsame

/-- **The lines of a message**: whatever handling it gives to a connection is the line it is
forwarded in. -/
theorem lines_of_message (s : GatewayServer) (w : WsId) (m : ClientMessage) (b : BackendId) :
    ∃ new, (s.handleClientMessage w m).outbox b = s.outbox b ++ new ∧
      ∀ line ∈ new, lineOf s m = some line.text := by
  have h : Deeds (· = .message w m) s (s.handleClientMessage w m) := handleClientMessage_deeds rfl
  generalize s.handleClientMessage w m = s' at h
  induction h with
  | refl => exact ⟨[], (List.append_nil _).symm, fun _ h => absurd h List.not_mem_nil⟩
  | tail ht hd ih =>
    obtain ⟨new, hn, hall⟩ := ih
    obtain ⟨c, rfl, hd⟩ := hd
    obtain ⟨new', hn', hall'⟩ := line_of_deed hd b
    refine ⟨new ++ new', by rw [hn', hn, List.append_assoc], ?_⟩
    intro line hl
    rcases List.mem_append.mp hl with hl | hl
    · exact hall line hl
    · rw [← lineOf_same (Deeds.same ht)]
      exact hall' line hl

/-! ### How long it is -/

/-- **The text of a message is short enough**: its bytes, with those of the command it is
forwarded in, are within the limit of the connection. -/
def ShortEnough (s : GatewayServer) : ClientMessage → Prop
  | .sendMessage .everyone text => utf8Length text ≤ s.config.backendMaxMessageBytes
  | .sendMessage (.direct peerId) text =>
    ∀ peer ∈ s.online? peerId, 6 + utf8Length (s.sessions peer).nickname + utf8Length text ≤
      s.config.backendMaxMessageBytes
  | _ => True

theorem length_nickCommand (nickname : Units) :
    utf8Length (formatNickCommand nickname) = 6 + utf8Length nickname :=
  utf8Length_ascii_append (by decide) nickname

theorem length_msgCommand (targetNick text : Units) :
    utf8Length (formatMsgCommand targetNick text) =
    6 + utf8Length targetNick + utf8Length text := by
  have h5 : (units "/msg ").length = 5 := by decide
  have hb : utf8Length (targetNick ++ 32 :: text) = utf8Length targetNick + 1 + utf8Length text :=
    utf8Length_append_ascii (by decide) ..
  rw [formatMsgCommand, List.append_assoc, List.append_assoc,
    utf8Length_ascii_append (by decide), h5]
  show 5 + utf8Length (targetNick ++ 32 :: text) = _
  omega

/-- **The line of an accepted message** is within the limit exactly if its text is short
enough. -/
theorem length_line {raw : Json} (h8 : 8192 ≤ s.config.backendMaxMessageBytes)
    (hv : validateClientMessage raw = .ok (.ok m)) (hl : lineOf s m = some line.text) :
    utf8Length line.text ≤ s.config.backendMaxMessageBytes ↔ ShortEnough s m := by
  unfold lineOf at hl
  split at hl
  · rename_i nickname
    have hn : nickname.length ≤ 24 := (bounded_of_accepted hv).2
    have hle := utf8Length_le nickname
    rw [← Option.some.inj hl, length_nickCommand]
    exact iff_of_true (by omega) trivial
  · rw [← Option.some.inj hl]
    exact Iff.rfl
  · rename_i peerId text
    obtain ⟨peer, hp, ht⟩ := Option.map_eq_some_iff.mp hl
    rw [← ht, length_msgCommand]
    constructor
    · intro h peer' hp'
      rw [hp] at hp'
      cases hp'
      exact h
    · exact fun h => h peer hp
  · cases hl

/-! ### What the chat server does with it -/

/-- What a handler thread does with a frame over the limit: it answers, and ends the
connection. -/
def frameTooLarge (fd : Fd) : List Op :=
  Backend.sendError fd (bytes "FRAME_TOO_LARGE")
    (bytes "Message exceeds the server's maximum size") :: teardown fd

theorem length_handleLine (fd : Fd) (raw : Bytes) (serial : Option ℕ) :
    (handleLine fd raw serial).length ≤ 3 := by
  have hnick (args : Bytes) : (Backend.handleNick fd args).length = 1 := by
    unfold Backend.handleNick
    split
    · rfl
    · rfl
    · split_ifs <;> rfl
  have hmsg (args : Bytes) : (Backend.handleMsg fd args serial).length = 1 := by
    unfold Backend.handleMsg
    dsimp only
    split_ifs <;> rfl
  unfold handleLine
  dsimp only
  split_ifs
  · exact Nat.zero_le _
  · rw [hnick]; decide
  · rw [hmsg]; decide
  · exact show 1 ≤ 3 by decide
  · exact show 3 ≤ 3 by decide
  · exact show 1 ≤ 3 by decide
  · exact show 1 ≤ 3 by decide

/-- A frame is answered so exactly if it is over the limit. -/
theorem handleFrame_tooLarge (cfg : Backend.Config) (fd : Fd) (f : ClientFrame) :
    handleFrame cfg fd f = frameTooLarge fd ↔ ¬ f.payload.length ≤ cfg.maxMessageSize := by
  unfold handleFrame
  split_ifs with h
  · exact iff_of_true rfl (not_le.mpr h)
  · refine iff_of_false ?_ (not_not.mpr (not_lt.mp h))
    intro he
    have hlen := length_handleLine fd f.payload f.serial
    rw [he] at hlen
    exact absurd hlen (by decide : ¬ 4 ≤ 3)

/-- **What the gateway forwards for a message it accepts** is within the limits of the chat
server exactly if the text of the message is short enough in bytes, and otherwise the chat
server drops the connection. It makes no difference whether the message is forwarded when it
arrives or when it has waited. -/
theorem line_fits_iff {cfg : Backend.Config}
    (hcfg : cfg.maxMessageSize = s.config.backendMaxMessageBytes)
    (h8 : 8192 ≤ s.config.backendMaxMessageBytes) {raw : Json}
    (hv : validateClientMessage raw = .ok (.ok m)) (w : WsId) (b : BackendId) {line : Line}
    (hl : line ∈ ((s.handleClientMessage w m).outbox b).drop (s.outbox b).length) (fd : Fd) :
    ((utf8Encode line.text).length ≤ s.config.backendMaxMessageBytes ↔ ShortEnough s m) ∧
      (handleFrame cfg fd ⟨utf8Encode line.text, line.serial⟩ = frameTooLarge fd ↔
        ¬ ShortEnough s m) := by
  obtain ⟨new, hn, hall⟩ := lines_of_message s w m b
  rw [hn, List.drop_left] at hl
  have h := length_line h8 hv (hall line hl)
  refine ⟨by rw [length_utf8Encode]; exact h, ?_⟩
  rw [handleFrame_tooLarge, hcfg, length_utf8Encode]
  exact not_congr h

/-! ### Two texts -/

/-- A public message of any text. -/
def publicText (text : Units) : Json :=
  .obj [(units "type", .str (units "sendMessage")),
    (units "target", .obj [(units "kind", .str (units "public"))]), (units "text", .str text)]

/-- The validator counts code units. -/
theorem accepted_of_length {text : Units} (hne : text ≠ []) (h : text.length ≤ 4000) :
    validateClientMessage (publicText text) = .ok (.ok (.sendMessage .everyone text)) := by
  have htype : (publicText text).get (units "type") = some (.str (units "sendMessage")) := rfl
  have htext : (publicText text).get (units "text") = some (.str text) := rfl
  have htarget : validateTarget ((publicText text).get (units "target")) = .inl .everyone := rfl
  have hs : stringUpTo? maxTextLen (some (.str text)) = some text := by
    have he : text.isEmpty = false := List.isEmpty_eq_false_iff.mpr hne
    simp only [stringUpTo?, Json.nonEmptyString?, he, Bool.false_eq_true, if_false, maxTextLen]
    exact Option.filter_eq_some_iff.mpr ⟨rfl, decide_eq_true h⟩
  have hk : validateKnown (publicText text) (units "sendMessage") =
      some (.ok (.sendMessage .everyone text)) := by
    have hsend : validateSendMessage (publicText text) = .ok (.sendMessage .everyone text) := by
      rw [validateSendMessage, htext, hs]
      dsimp only
      rw [htarget]
    rw [← hsend]
    rfl
  have ho : (publicText text).isObject = true := rfl
  rw [validateClientMessage, ho, htype]
  dsimp only
  rw [hk]
  rfl

/-- A session that is connected forwards a public message. -/
theorem forwards_public {text : Units} (hb : (s.sessions w).backend = some b)
    (ho : (s.backends b).closed = false) :
    (s.handleClientMessage w (.sendMessage .everyone text)).outbox b =
    s.outbox b ++ [⟨text, some s.requests.length⟩] := by
  show (forward ((s.append w publicConversationId text).2.sendTo w _) ⟨w, none, text⟩
    (formatChatLine text)).outbox b = _
  rw [sendTo_eq]
  simp only [forward, sendLine, append, hb, ho, Bool.false_eq_true, if_false, Function.update_self,
    formatChatLine]

set_option maxRecDepth 8000 in
/-- A state with a session that is ready. -/
theorem exists_ready : ∃ s, Run GatewayServer.step (init .sample {}) s ∧ s.config = {} ∧
      (s.sessions 0).backend = some 0 ∧
    (s.backends 0).closed = false ∧ (s.sessions 0).authenticated = true ∧
    (s.sessions 0).welcomed = true ∧
    s.fault = none ∧ s.live 0 = true :=
  exists_run_of_any GatewayServer.step (init .sample {}) becomesReady
    (fun s => s.config = {} ∧ (s.sessions 0).backend = some 0 ∧ (s.backends 0).closed = false ∧
      (s.sessions 0).authenticated = true ∧ (s.sessions 0).welcomed = true ∧ s.fault = none ∧
      s.live 0 = true) (by decide)

/-- A short text is forwarded in a line that the chat server takes. -/
theorem short_text_fits :
    ∃ (s : GatewayServer) (line : Line), Run GatewayServer.step (init .sample {}) s ∧
      line ∈ (s.handleClientMessage 0 (.sendMessage .everyone (units "hi"))).outbox 0 ∧
      (utf8Encode line.text).length ≤ s.config.backendMaxMessageBytes ∧
      handleFrame {} 5 ⟨utf8Encode line.text, line.serial⟩ ≠ frameTooLarge 5 := by
  obtain ⟨s, hs, hc, hb, ho, -⟩ := exists_ready
  have hv : validateClientMessage (publicText (units "hi")) =
      .ok (.ok (.sendMessage .everyone (units "hi"))) :=
    accepted_of_length (by decide) (by decide)
  have hcfg : ({} : Backend.Config).maxMessageSize = s.config.backendMaxMessageBytes := by rw [hc]
  have hl : (⟨units "hi", some s.requests.length⟩ : Line) ∈
      ((s.handleClientMessage 0 (.sendMessage .everyone (units "hi"))).outbox 0).drop
        (s.outbox 0).length := by
    rw [forwards_public hb ho, List.drop_left]
    exact List.mem_singleton_self _
  have hshort : ShortEnough s (.sendMessage .everyone (units "hi")) := by
    show utf8Length (units "hi") ≤ s.config.backendMaxMessageBytes
    rw [hc]
    decide
  obtain ⟨hfits, hlarge⟩ := line_fits_iff hcfg (by rw [hc]) hv 0 0 hl 5
  exact ⟨s, _, hs, List.mem_of_mem_drop hl, hfits.mpr hshort, fun he => hlarge.mp he hshort⟩

/-- `'中'`, as often as it takes. -/
def longText : Units := List.replicate 2731 0x4E2D

/-- **A text the gateway accepts and the chat server does not**: 2731 characters of three
bytes each. -/
theorem long_text_is_dropped :
    ∃ (s s' : GatewayServer) (line : Line), Run GatewayServer.step (init .sample {}) s ∧
      s.step (.message 0 8252 (some (publicText longText))) = some s' ∧
      s'.outbox 0 = s.outbox 0 ++ [line] ∧
      s.config.backendMaxMessageBytes = 8192 ∧ (utf8Encode line.text).length = 8193 ∧
      ∀ fd, handleFrame {} fd ⟨utf8Encode line.text, line.serial⟩ = frameTooLarge fd := by
  obtain ⟨s, hs, hc, hb, ho, ha, hw, hf, hl⟩ := exists_ready
  have hlen : longText.length = 2731 := List.length_replicate
  have hne : longText ≠ [] := fun he => by rw [he] at hlen; cases hlen
  have hv := accepted_of_length hne (by rw [hlen]; decide)
  have hbytes : (utf8Encode longText).length = 8193 := by
    rw [length_utf8Encode, longText, utf8Length_replicate (by decide)]
    rfl
  refine ⟨s, _, ⟨longText, some s.requests.length⟩, hs, ?_, forwards_public hb ho,
    by rw [hc], hbytes, ?_⟩
  · rw [GatewayServer.step, hf]
    simp only [handle, hl, if_true, onClientRaw, hc, hv, onClientMessage, ha, hw]
    rfl
  · intro fd
    rw [handleFrame_tooLarge, hbytes]
    decide

end ThreadLink.System
