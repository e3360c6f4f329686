import ThreadLink.Gateway.Requests
import ThreadLink.System.Network

/-!
# Whose message a frame is

A request of a session becomes a line of its backend connection, the line a frame of the chat
server's client, and that the text of the frames the server writes. This module follows the
number of the request all the way.

## What is proved

* `HasSent` — what a connection of the chat server has been sent: a line of the gateway, or
  whatever another client sends.
* `Traced` — what holds of all lines, frames and requests in every run.
* `Traced.origin` — a message that is written is that of a request of the session of its
  sender, or that of another client.
-/

namespace ThreadLink.System

open Text Runs Backend Gateway

/-! ### Commands -/

/-- What is stripped off a line comes after what is no CR or LF. -/
theorem stripLine_append (p : Bytes) {b : UInt8} (hb : b ≠ 13 ∧ b ≠ 10) (l : Bytes) :
    stripLine (p ++ b :: l) = p ++ b :: stripLine l := by
  unfold stripLine
  induction l using List.reverseRecOn with
  | nil =>
    rw [List.rdropWhile_nil]
    exact List.rdropWhile_concat_neg _ _ _ (by simpa using hb)
  | append_singleton l x ih =>
    rw [← List.cons_append, ← List.append_assoc, List.rdropWhile_concat, List.rdropWhile_concat]
    split
    · exact ih
    · rw [List.append_assoc, List.cons_append]

/-- A `/nick` line is that command. -/
theorem split_nick (nickname : Units) :
    Backend.splitFirst (stripLine (utf8Encode (formatNickCommand nickname))) =
    (bytes "/nick", stripLine (utf8Encode nickname)) := by
  have he : utf8Encode (formatNickCommand nickname) =
      bytes "/nick" ++ 32 :: utf8Encode nickname := by
    rw [formatNickCommand, utf8Encode_ascii_append (by decide)]
    rfl
  rw [he, stripLine_append _ (by decide)]
  exact splitFirst_append (by decide) _

/-- So it says nothing to anybody. -/
theorem not_chats_nick (nickname : Units) (serial : Option ℕ) (text : Bytes) :
    ¬ ClientFrame.Chats ⟨utf8Encode (formatNickCommand nickname), serial⟩ text := by
  rintro ⟨rfl, -, hh⟩
  exact hh (head?_of_word (w := bytes "nick") (congrArg Prod.fst (split_nick nickname)))

theorem not_messages_nick (nickname : Units) (serial : Option ℕ) (target text : Bytes) :
    ¬ ClientFrame.Messages ⟨utf8Encode (formatNickCommand nickname), serial⟩ target text := by
  rintro ⟨h, -⟩
  rw [split_nick] at h
  exact absurd (show bytes "/nick" = bytes "/msg" from h) (by decide)

namespace Network

variable {s s' t : Network} {a : Action} {b : BackendId} {c k : ConnId} {f : Frame}
  {g : ClientFrame}
  {n : ℕ}

/-! ### What the chat server is sent -/

/-- What a connection of the chat server has been sent. -/
inductive HasSent (s : Network) (c : ConnId) : ClientFrame → Prop where
  /-- By another client. -/
  | foreign {g : ClientFrame} (hc : c < s.server.nextConn) (hl : ¬ s.IsLinked c)
    (hs : g.serial = none) : HasSent s c g
  /-- A line of the gateway. -/
  | line {b : BackendId} {line : Line} (hb : s.conn b = some c) (hl : line ∈ s.gateway.outbox b) :
    HasSent s c ⟨utf8Encode line.text, line.serial⟩

/-- The conversation of the accounts of a request. -/
def conversation (a : Units × Option Units) : Units :=
  match a.2 with
  | none => publicConversationId
  | some peer => directConversationId a.1 peer

/-- What is recorded of a request is true, and its text has been kept. -/
structure Records (s : Network) (r : Request) (a : Units × Option Units) : Prop where
  /-- It had a peer. -/
  peer : a.2.isSome = r.peer.isSome
  /-- The text has been kept in the conversation of these accounts. -/
  keeps : s.gateway.Keeps (conversation a) a.1 r.text

/-- **All lines, frames and requests are accounted for.** -/
structure Traced (s : Network) : Prop where
  /-- The lines of the gateway. -/
  lines : s.gateway.Tracked
  /-- The messages of the chat server. -/
  sourced : s.server.Sourced s.HasSent
  /-- The accounts of the requests. -/
  length : s.accounts.length = s.gateway.requests.length
  /-- They have been recorded rightly. -/
  records : ∀ (n : ℕ) r a, s.gateway.requests[n]? = some r → s.accounts[n]? = some a → s.Records r a

theorem traced_init (env : Env) (gateway : GatewayConfig) (server : LoadedConfig) :
    Traced (init env gateway server) :=
  ⟨GatewayServer.tracked_init .., Server.sourced_init _, rfl,
    fun n r a h => by simp [init, GatewayServer.init] at h⟩

/-- A connection is linked when it is accepted, or never. -/
theorem isLinked_step (hS : Sound s) (hs : s.step a = some s') (hc : c < s.server.nextConn)
    (hl : s'.IsLinked c) : s.IsLinked c := by
  have hcreated {b : BackendId} (h : s.conn b = some c) : s.IsLinked c :=
    ⟨b, hS.linked.created b c h, h⟩
  obtain ⟨b, -, hb⟩ := hl
  cases step_moves hs with
  | gateway => exact hcreated hb
  | deliver => exact hcreated hb
  | oversized => exact hcreated hb
  | server => exact hcreated hb
  | transmit => exact hcreated hb
  | @accept b' =>
    have hb : Function.update s.conn b' (some s.server.nextConn) b = some c := hb
    by_cases hbb : b = b'
    · subst hbb
      rw [Function.update_self] at hb
      exact absurd hc (Option.some.inj hb ▸ lt_irrefl _)
    · rw [Function.update_of_ne hbb] at hb
      exact hcreated hb

/-- What a backend connection is stays. -/
theorem conn_step (hs : s.step a = some s') (hb : s.conn b = some c) : s'.conn b = some c := by
  cases step_moves hs with
  | gateway => exact hb
  | deliver => exact hb
  | oversized => exact hb
  | server => exact hb
  | transmit => exact hb
  | @accept b' _ _ _ hn =>
    have hne : b ≠ b' := by
      rintro rfl
      rw [hn] at hb
      cases hb
    show Function.update s.conn b' _ b = _
    rw [Function.update_of_ne hne, hb]

/-- The lines of a backend connection stay. -/
theorem outbox_step (hs : s.step a = some s') (b : BackendId) :
    s.gateway.outbox b ⊆ s'.gateway.outbox b := by
  rcases (step_moves hs).gateway_step with he | ⟨e, -, h⟩
  · rw [he]
    exact List.Subset.refl _
  · exact (GatewayServer.outbox_grows h b).subset

/-- The requests stay, and a step makes more of them. -/
theorem requests_step (hs : s.step a = some s') : s.gateway.requests <+: s'.gateway.requests := by
  rcases (step_moves hs).gateway_step with he | ⟨e, -, hg⟩
  · exact he ▸ List.prefix_rfl
  · obtain ⟨-, new, hn, -⟩ := GatewayServer.step_files hg
    exact ⟨new, hn.symm⟩

theorem HasSent.step (h : HasSent s c g) (hS : Sound s) (hS' : Sound s') (hs : s.step a = some s') :
    HasSent s' c g := by
  cases h with
  | foreign hc hl hg =>
    refine .foreign ?_ (fun h => hl (isLinked_step hS hs hc h)) hg
    rcases (step_moves hs).server_step with he | ⟨a', -, h⟩
    · rw [he]
      exact hc
    · exact Server.lt_nextConn_step hS.orderly.inv hS'.orderly.inv h hc
  | line hb hl => exact .line (conn_step hs hb) (outbox_step hs _ hl)

/-! ### What is recorded -/

theorem Records.mono {r : Request} {x : Units × Option Units} (h : Records s r x)
    (hm : s.gateway.store.messages ⊆ s'.gateway.store.messages) : Records s' r x :=
  let ⟨m, hmem, hk⟩ := h.keeps
  ⟨h.peer, m, hm hmem, hk⟩

/-- What is recorded of a request that has just been made. -/
theorem records_of_filed {r : Request} (h : s.gateway.Filed r) :
    Records s r (accountsOf s.gateway r) := by
  refine ⟨by simp [accountsOf], ?_⟩
  have hc : conversation (accountsOf s.gateway r) = s.gateway.conversationOf r := by
    unfold conversation accountsOf GatewayServer.conversationOf
    cases r.peer <;> rfl
  rw [hc]
  exact h

/-- The requests the gateway has made are recorded after each event. -/
theorem Traced.handled (h : Traced s) {e : GatewayServer.Event} {g : GatewayServer}
    (hg : s.gateway.step e = some g) :
    (s.handled g).accounts.length = g.requests.length ∧
      ∀ (n : ℕ) r x, g.requests[n]? = some r → (s.handled g).accounts[n]? = some x →
        Records (s.handled g) r x := by
  obtain ⟨hm, new, hn, hf⟩ := GatewayServer.step_files hg
  have ha : (s.handled g).accounts = s.accounts ++ new.map (accountsOf g) := by
    show s.accounts ++ (g.requests.drop s.accounts.length).map (accountsOf g) = _
    rw [h.length, hn, List.drop_left]
  refine ⟨by rw [ha, hn, List.length_append, List.length_append, List.length_map, h.length], ?_⟩
  intro n r x hr hx
  rw [ha] at hx
  rw [hn] at hr
  by_cases hlt : n < s.gateway.requests.length
  · rw [List.getElem?_append_left hlt] at hr
    rw [List.getElem?_append_left (h.length ▸ hlt)] at hx
    exact (h.records n r x hr hx).mono hm
  · rw [List.getElem?_append_right (Nat.le_of_not_lt hlt)] at hr
    rw [List.getElem?_append_right (h.length ▸ Nat.le_of_not_lt hlt), h.length, List.getElem?_map,
      hr] at hx
    obtain rfl := Option.some.inj hx
    exact records_of_filed (s := s.handled g) (hf r (List.mem_of_getElem? hr))

theorem Traced.step (h : Traced s) (hS : Sound s) (hs : s.step a = some s') : Traced s' := by
  have hS' := hS.step hs
  have hmono : ∀ c g, s.HasSent c g → s'.HasSent c g := fun _ _ hg => hg.step hS hS' hs
  have hserver {a' : Server.Action} {t : Server} (ha : s.server.step a' = some t)
      (hq : ∀ c g, a' = .arrive c g → s.HasSent c g) : t.Sourced s'.HasSent :=
    (h.sourced.step hS.orderly.inv hS.orderly.named hq ha).mono hmono
  cases step_moves hs with
  | gateway hn hg =>
    exact ⟨h.lines.step hg, h.sourced.mono hmono, (h.handled hg).1, (h.handled hg).2⟩
  | oversized hf hm hg =>
    exact ⟨h.lines.step hg, h.sourced.mono hmono, (h.handled hg).1, (h.handled hg).2⟩
  | deliver hf hm hg =>
    exact ⟨h.lines.step hg, h.sourced.mono hmono, (h.handled hg).1, fun n r x hr hx =>
      ((h.handled hg).2 n r x hr hx).mono (List.Subset.refl _)⟩
  | server hf ha =>
    refine ⟨h.lines, hserver ha ?_, h.length,
      fun n r x hr hx => (h.records n r x hr hx).mono (List.Subset.refl _)⟩
    rintro c g rfl
    exact .foreign hf.1 hf.2.1 hf.2.2
  | accept _ _ _ _ ha =>
    refine ⟨h.lines, hserver ha nofun, h.length,
      fun n r x hr hx => (h.records n r x hr hx).mono (List.Subset.refl _)⟩
  | @transmit b c line _ hl ha =>
    refine ⟨h.lines, hserver ha ?_, h.length,
      fun n r x hr hx => (h.records n r x hr hx).mono (List.Subset.refl _)⟩
    rintro c' g he
    obtain ⟨rfl, rfl⟩ := Server.Action.arrive.inj he
    obtain ⟨c', hc, hl'⟩ := Option.bind_eq_some_iff.mp hl
    obtain ⟨line', hline, he⟩ := Option.map_eq_some_iff.mp hl'
    obtain ⟨rfl, rfl⟩ := Prod.mk.inj he
    exact .line hc (List.mem_of_getElem? hline)

/-! ### Whose it is -/

/-- Where a message of connection `c` comes from: from another client, or from a request of
the session whose backend connection it is. -/
inductive Origin (s : Network) (c : ConnId) : Option ℕ → Prop where
  /-- Another client. -/
  | foreign (hl : ¬ s.IsLinked c) : Origin s c none
  /-- A request. -/
  | request {n : ℕ} {b : BackendId} {r : Request} (hb : s.conn b = some c)
    (hr : s.gateway.requests[n]? = some r)
    (ho : r.sender = (s.gateway.backends b).owner) : Origin s c (some n)

/-- The connection that has sent what a frame says. -/
def senderOf (k : ConnId) (f : Frame) : Option ConnId :=
  match f.cause with
  | .broadcast about _ => about
  | .priv sender _ => sender
  | .direct => some k

/-- **Every message that is written has an origin.** -/
theorem Traced.origin (h : Traced s) (hf : f ∈ s.server.written k) (hm : f.line.IsMessage) :
    ∃ c, senderOf k f = some c ∧ s.Origin c f.serial := by
  have hline {c : ConnId} {g : ClientFrame} (hg : s.HasSent c g)
      (hn : ∀ nickname, g ≠ ⟨utf8Encode (formatNickCommand nickname), none⟩) :
      s.Origin c g.serial := by
    cases hg with
    | foreign _ hl hs => exact hs ▸ .foreign hl
    | @line b line hb hl =>
      obtain ⟨-, hfw⟩ := h.lines.lines b line hl
      cases hfw with
      | nick nickname => exact absurd rfl (hn nickname)
      | request hr ho hc => exact .request hb hr ho
  rcases h.sourced.written k f hf with hp | hn | ⟨c, hq, hd⟩
  · exact absurd hp hm.not_plain
  · exact absurd hn hm.not_names
  · refine ⟨c, ?_⟩
    unfold Frame.Quotes at hq
    split at hq
    · obtain ⟨-, ⟨taken, hcause⟩, g, hg, hs, hchat⟩ := hq
      refine ⟨by rw [senderOf, hcause], hs ▸ hline hg ?_⟩
      rintro nickname rfl
      exact not_chats_nick _ _ _ hchat
    · obtain ⟨-, ⟨holder, hcause⟩, g, target, hg, hs, hmsg⟩ := hq
      refine ⟨by rw [senderOf, hcause], hs ▸ hline hg ?_⟩
      rintro nickname rfl
      exact not_messages_nick _ _ _ _ hmsg
    · obtain ⟨-, hcause, g, hg, hs, hmsg⟩ := hq
      refine ⟨by rw [senderOf, hcause, hd hcause], hs ▸ hline hg ?_⟩
      rintro nickname rfl
      exact not_messages_nick _ _ _ _ hmsg
    · exact hq.elim

end Network

end ThreadLink.System
