import ThreadLink.Gateway.Becoming
import ThreadLink.Gateway.Conversations

/-!
# What is forwarded

A public message and a direct one are kept, then given to the backend connection of the
session as a line. This module follows each such request from the record that is made of it
to its line.

## What is proved

* `Deed.gives` — what one deed gives to the backend connections.
* `step_files` — the text of every new request has been kept.
* `Tracked` — every line of a backend connection is a `/nick` line, or that of a request of
  its owner.
* `step_numbers` — a step gives every backend connection the lines of new requests, in the order
  of the requests; `step_addresses`, each for whom it is meant.
* `relayed_of_step` — what is made of a message of the chat server; `message_of_step`, what other
  messages a browser is sent.
-/

namespace ThreadLink.Gateway

open Text Relation

/-- The line of a request. -/
def Request.Carries (r : Request) (text : Units) : Prop :=
  match r.peer with
  | none => text = formatChatLine r.text
  | some _ => ∃ nickname, text = formatMsgCommand nickname r.text

/-- An event of the chat server that says what a client has said. -/
def BackendEvent.IsMessage : BackendEvent → Prop
  | .msg _ _ | .priv _ _ | .privSent _ _ => True
  | _ => False

namespace GatewayServer

variable {P : Cause → Prop} {s s' t u : GatewayServer} {c : Cause} {e : Event} {r : Request}
  {b : BackendId}

/-- The conversation of a request. -/
def conversationOf (s : GatewayServer) (r : Request) : Units :=
  match r.peer with
  | none => publicConversationId
  | some peer => directConversationId (s.sessions r.sender).id (s.sessions peer).id

/-- The text of a request has been kept. -/
def Filed (s : GatewayServer) (r : Request) : Prop :=
  s.Keeps (s.conversationOf r) (s.sessions r.sender).id r.text

/-! ### One deed -/

/-- What is given to the backend connections, and the record made of it. -/
inductive Gives (s t : GatewayServer) : Prop where
  /-- Nothing. -/
  | nothing (ho : t.outbox = s.outbox) (hr : t.requests = s.requests)
  /-- A `/nick` line. -/
  | nick {w : WsId} {b : BackendId} (nickname : Units) (hb : (s.sessions w).backend = some b)
    (ho : t.outbox = Function.update s.outbox b
      (s.outbox b ++ [⟨formatNickCommand nickname, none⟩]))
    (hr : t.requests = s.requests)
  /-- The line of a request cannot be given. -/
  | lost {r : Request} (hf : s.Filed r) (ho : t.outbox = s.outbox)
    (hr : t.requests = s.requests ++ [r])
  /-- The line of a request. -/
  | request {r : Request} {b : BackendId} {text : Units} (hf : s.Filed r)
    (hb : (s.sessions r.sender).backend = some b)
    (hc : r.Carries text)
    (ho : t.outbox = Function.update s.outbox b (s.outbox b ++ [⟨text, some s.requests.length⟩]))
    (hr : t.requests = s.requests ++ [r])

/-- A line is given to a backend connection of the session, or to none. -/
theorem outbox_sendLine (s : GatewayServer) (w : WsId) (line : Line) :
    (s.sendLine w line).outbox = s.outbox ∨ ∃ b, (s.sessions w).backend = some b ∧
      (s.sendLine w line).outbox = Function.update s.outbox b (s.outbox b ++ [line]) := by
  unfold sendLine
  split
  · exact .inl rfl
  · rename_i b hb
    split
    · exact .inl rfl
    · exact .inr ⟨b, hb, rfl⟩

theorem requests_sendLine (s : GatewayServer) (w : WsId) (line : Line) :
    (s.sendLine w line).requests = s.requests := by
  rw [sendLine_eq]

/-- The line of a request is given after the record is made. -/
theorem gives_forward {text : Units} (hf : s.Filed r) (hc : r.Carries text) :
    Gives s (s.forward r text) := by
  have hr : (s.forward r text).requests = s.requests ++ [r] := requests_sendLine ..
  rcases outbox_sendLine { s with requests := s.requests ++ [r] } r.sender
      ⟨text, some s.requests.length⟩ with
    ho | ⟨b, hb, ho⟩
  · exact .lost hf ho hr
  · exact .request hf hb hc ho hr

theorem Deed.gives (h : Deed s c t) : Gives s t := by
  cases h with
  | @nick _ w nickname =>
    rcases outbox_sendLine s w ⟨formatNickCommand nickname, none⟩ with ho | ⟨b, hb, ho⟩
    · exact .nothing ho (requests_sendLine ..)
    · exact .nick nickname hb ho (requests_sendLine ..)
  | chat hk => exact gives_forward hk rfl
  | direct hp hk => exact gives_forward hk ⟨_, rfl⟩
  | _ => exact .nothing rfl rfl

/-- What has been kept stays. -/
theorem Deed.messages_subset (h : Deed s c t) : s.store.messages ⊆ t.store.messages := by
  rcases h.messages with he | ⟨_, _, _, he, -⟩
  · rw [he]
    exact List.Subset.refl _
  · rw [he]
    exact List.subset_append_left ..

theorem Filed.mono (h : s.Filed r) (hs : Same s t) (hm : s.store.messages ⊆ t.store.messages) :
    t.Filed r := by
  have hid (x : WsId) : (t.sessions x).id = (s.sessions x).id := by
    obtain ⟨_, _, hx⟩ := hs.sessions x
    rw [hx]
  obtain ⟨m, hmem, hc, hs, ht⟩ := h
  refine ⟨m, hm hmem, ?_, by rw [hs, hid], ht⟩
  rw [hc]
  unfold conversationOf
  cases r.peer with
  | none => rfl
  | some peer => simp only [hid]

/-! ### One step -/

/-- What a handler does files the requests it makes. -/
theorem Deeds.files (h : Deeds P s t) :
    s.store.messages ⊆ t.store.messages ∧ ∃ new, t.requests = s.requests ++ new ∧
      ∀ r ∈ new, t.Filed r := by
  induction h with
  | refl =>
    exact ⟨List.Subset.refl _, [], (List.append_nil _).symm, fun _ h => absurd h List.not_mem_nil⟩
  | @tail t u ht hd ih =>
    obtain ⟨hm, new, hn, hf⟩ := ih
    obtain ⟨c, -, hd⟩ := hd
    have hu (r : Request) (h : t.Filed r) : u.Filed r :=
      h.mono (Deeds.same (P := fun _ => True) ((Deeds.refl t).then trivial hd)) hd.messages_subset
    have hold (r : Request) (hr : r ∈ new) : u.Filed r := hu r (hf r hr)
    refine ⟨List.Subset.trans hm hd.messages_subset, ?_⟩
    have hnew {r : Request} (hr : u.requests = t.requests ++ [r]) (hfr : t.Filed r) :
        ∃ new, u.requests = s.requests ++ new ∧ ∀ r ∈ new, u.Filed r := by
      refine ⟨new ++ [r], by rw [hr, hn, List.append_assoc], ?_⟩
      intro r' hr'
      rcases List.mem_append.mp hr' with hr' | hr'
      · exact hold r' hr'
      · rw [List.mem_singleton.mp hr']
        exact hu r hfr
    cases hd.gives with
    | nothing _ hr => exact ⟨new, by rw [hr, hn], hold⟩
    | nick _ _ _ hr => exact ⟨new, by rw [hr, hn], hold⟩
    | lost hf _ hr => exact hnew hr hf
    | request hf _ _ _ hr => exact hnew hr hf

/-- A change gives nothing and makes no request. -/
theorem Change.outbox_eq (h : Change s e t) : t.outbox = s.outbox ∧ t.requests = s.requests := by
  cases h with
  | wsClose => rw [leave_eq]; exact ⟨rfl, rfl⟩
  | backendClose _ f => cases f <;> exact ⟨rfl, rfl⟩
  | shutdown => rw [close_eq]; exact ⟨rfl, rfl⟩
  | _ => exact ⟨rfl, rfl⟩

/-- **Every new request has been kept**, in the conversation of its sender and of its peer. -/
theorem step_files (hs : s.step e = some s') :
    s.store.messages ⊆ s'.store.messages ∧ ∃ new, s'.requests = s.requests ++ new ∧
      ∀ r ∈ new, s'.Filed r := by
  obtain ⟨t, hc, hd⟩ := step_deeds hs
  have hm : t.store.messages = s.store.messages := by rw [hc.store_eq]
  have h := hd.files
  rwa [hm, hc.outbox_eq.2] at h

/-- The lines of a backend connection stay. -/
theorem outbox_grows (hs : s.step e = some s') (b : BackendId) : s.outbox b <+: s'.outbox b := by
  obtain ⟨t, hc, hd⟩ := step_deeds hs
  rw [← hc.outbox_eq.1]
  clear hc hs
  have hupdate {t : GatewayServer} (b' : BackendId) (line : Line) :
      t.outbox b <+: Function.update t.outbox b' (t.outbox b' ++ [line]) b := by
    by_cases hb : b = b'
    · subst hb
      rw [Function.update_self]
      exact List.prefix_append ..
    · have he : Function.update t.outbox b' (t.outbox b' ++ [line]) b = t.outbox b :=
        Function.update_of_ne hb ..
      exact he ▸ List.prefix_rfl
  induction hd with
  | refl => exact List.prefix_rfl
  | tail _ hd ih =>
    obtain ⟨c, -, hd⟩ := hd
    apply ih.trans
    cases hd.gives with
    | nothing ho => exact ho ▸ List.prefix_rfl
    | lost _ ho => exact ho ▸ List.prefix_rfl
    | nick _ _ ho => exact ho ▸ hupdate ..
    | request _ _ _ ho => exact ho ▸ hupdate ..

/-! ### The order of the lines -/

/-- The numbers of lines, in the order of the lines, are those of requests from `m` to `n`. -/
structure Numbers (lines : List Line) (m n : ℕ) : Prop where
  /-- They increase. -/
  sorted : (lines.filterMap Line.serial).Pairwise (· < ·)
  /-- They are not too small. -/
  lower : ∀ i ∈ lines.filterMap Line.serial, m ≤ i
  /-- Or too large. -/
  upper : ∀ i ∈ lines.filterMap Line.serial, i < n

theorem Numbers.nil (m n : ℕ) : Numbers [] m n :=
  ⟨List.Pairwise.nil, fun _ h => absurd h List.not_mem_nil, fun _ h => absurd h List.not_mem_nil⟩

/-- There are more requests. -/
theorem Numbers.mono {lines : List Line} {m n n' : ℕ} (h : Numbers lines m n) (hn : n ≤ n') :
    Numbers lines m n' :=
  ⟨h.sorted, h.lower, fun i hi => (h.upper i hi).trans_le hn⟩

/-- A line without a number comes after them. -/
theorem Numbers.concat_none {lines : List Line} {m n : ℕ} (h : Numbers lines m n) {line : Line}
    (hl : line.serial = none) : Numbers (lines ++ [line]) m n := by
  have he : (lines ++ [line]).filterMap Line.serial = lines.filterMap Line.serial := by
    rw [List.filterMap_append, List.filterMap_cons_none hl, List.filterMap_nil, List.append_nil]
  exact ⟨he ▸ h.sorted, he ▸ h.lower, he ▸ h.upper⟩

/-- The line of the next request does. -/
theorem Numbers.concat_some {lines : List Line} {m n : ℕ} (h : Numbers lines m n) (hm : m ≤ n)
    {line : Line} (hl : line.serial = some n) : Numbers (lines ++ [line]) m (n + 1) := by
  have he : (lines ++ [line]).filterMap Line.serial = lines.filterMap Line.serial ++ [n] := by
    rw [List.filterMap_append, List.filterMap_cons_some hl, List.filterMap_nil]
  constructor
  · rw [he]
    refine List.pairwise_append.mpr ⟨h.sorted, List.pairwise_singleton .., ?_⟩
    intro i hi j hj
    rw [List.mem_singleton.mp hj]
    exact h.upper i hi
  · intro i hi
    rw [he, List.mem_append, List.mem_singleton] at hi
    rcases hi with hi | rfl
    · exact h.lower i hi
    · exact hm
  · intro i hi
    rw [he, List.mem_append, List.mem_singleton] at hi
    rcases hi with hi | rfl
    · exact Nat.lt_succ_of_lt (h.upper i hi)
    · exact Nat.lt_succ_self _

/-- **A step gives lines of new requests**, in the order of the requests. -/
theorem step_numbers (hs : s.step e = some s') (b : BackendId) :
    s.requests.length ≤ s'.requests.length ∧
      ∃ new, s'.outbox b = s.outbox b ++ new ∧
        Numbers new s.requests.length s'.requests.length := by
  obtain ⟨t, hc, hd⟩ := step_deeds hs
  rw [← hc.outbox_eq.1, ← hc.outbox_eq.2]
  clear hc hs
  induction hd with
  | refl => exact ⟨le_rfl, [], (List.append_nil _).symm, .nil ..⟩
  | @tail u v _ hd ih =>
    obtain ⟨hle, new, hn, hN⟩ := ih
    obtain ⟨c, -, hd⟩ := hd
    -- the line is for this connection, or for another one
    have hline {b' : BackendId} {line : Line}
      (ho : v.outbox = Function.update u.outbox b' (u.outbox b' ++ [line]))
        (hlen : u.requests.length ≤ v.requests.length)
        (hN' : Numbers (new ++ [line]) t.requests.length v.requests.length) :
        ∃ new, v.outbox b = t.outbox b ++ new ∧
          Numbers new t.requests.length v.requests.length := by
      rw [ho]
      by_cases hb : b = b'
      · subst hb
        exact ⟨new ++ [line], by rw [Function.update_self, hn, List.append_assoc], hN'⟩
      · exact ⟨new, by rw [Function.update_of_ne hb, hn], hN.mono hlen⟩
    cases hd.gives with
    | nothing ho hr => exact ⟨hr ▸ hle, new, by rw [ho, hn], hr ▸ hN⟩
    | nick _ _ ho hr => exact ⟨hr ▸ hle, hline ho (by rw [hr]) (hr ▸ hN.concat_none rfl)⟩
    | lost _ ho hr =>
      have hlen : v.requests.length = u.requests.length + 1 := by
        rw [hr, List.length_append, List.length_singleton]
      exact ⟨by omega, new, by rw [ho, hn], hN.mono (by omega)⟩
    | request _ _ _ ho hr =>
      have hlen : v.requests.length = u.requests.length + 1 := by
        rw [hr, List.length_append, List.length_singleton]
      exact ⟨by omega, hline ho (by omega) (hlen ▸ hN.concat_some hle rfl)⟩

/-! ### Whom a line is for -/

/-- A line that has just been given to a backend connection: a `/nick` line, or that of a request of
its session. That of a direct message is for the nickname its peer goes by. -/
inductive Addressed (s : GatewayServer) (b : BackendId) : Line → Prop where
  /-- A `/nick` line. -/
  | nick (nickname : Units) : Addressed s b ⟨formatNickCommand nickname, none⟩
  /-- The line of a public message. -/
  | chat {n : ℕ} {r : Request} (hn : s.requests[n]? = some r) (hp : r.peer = none)
    (hb : (s.sessions r.sender).backend = some b) : Addressed s b ⟨formatChatLine r.text, some n⟩
  /-- The line of a direct message. -/
  | direct {n : ℕ} {r : Request} {peer : WsId} (hn : s.requests[n]? = some r)
    (hp : r.peer = some peer) (ho : peer ∈ s.welcomedSessions)
    (hb : (s.sessions r.sender).backend = some b) :
    Addressed s b ⟨formatMsgCommand (s.sessions peer).nickname r.text, some n⟩

theorem Same.backend (h : Same s t) (w : WsId) :
    (t.sessions w).backend = (s.sessions w).backend := by
  obtain ⟨_, _, hw⟩ := h.sessions w
  rw [hw]

theorem Same.nickname (h : Same s t) (w : WsId) :
    (t.sessions w).nickname = (s.sessions w).nickname := by
  obtain ⟨_, _, hw⟩ := h.sessions w
  rw [hw]

theorem Same.welcomedSessions (h : Same s t) : t.welcomedSessions = s.welcomedSessions := by
  have hw (w : WsId) : (t.sessions w).welcomed = (s.sessions w).welcomed := by
    obtain ⟨_, _, hw⟩ := h.sessions w
    rw [hw]
  simp only [GatewayServer.welcomedSessions, h.roster, hw]

theorem Addressed.same {line : Line} (h : s.Addressed b line) (hs : Same s t)
    (hr : s.requests <+: t.requests) : t.Addressed b line := by
  obtain ⟨new, hr⟩ := hr
  have hget {n : ℕ} {r : Request} (hn : s.requests[n]? = some r) : t.requests[n]? = some r := by
    rw [← hr, List.getElem?_append_left (List.getElem?_eq_some_iff.mp hn).1, hn]
  cases h with
  | nick nickname => exact .nick nickname
  | chat hn hp hb => exact .chat (hget hn) hp ((hs.backend _).trans hb)
  | @direct n r peer hn hp ho hb =>
    rw [← hs.nickname peer]
    exact .direct (hget hn) hp (hs.welcomedSessions ▸ ho) ((hs.backend _).trans hb)

/-- Whoever is online has been welcomed. -/
theorem mem_welcomedSessions_of_online? {id : Units} {w : WsId} (h : s.online? id = some w) :
    w ∈ s.welcomedSessions := by
  obtain ⟨hf, hw⟩ := Option.filter_eq_some_iff.mp h
  exact List.mem_filter.mpr ⟨OrdMap.mem_values.mpr ⟨id, hf⟩, hw⟩

/-- What one deed gives to a backend connection is for whom it is meant. -/
theorem Deed.addresses (h : Deed s c t) (b : BackendId) :
    ∃ new, t.outbox b = s.outbox b ++ new ∧ ∀ line ∈ new, t.Addressed b line := by
  have hsame : Same s t := Deeds.same (P := fun _ => True) ((Deeds.refl s).then trivial h)
  have hnothing (ho : t.outbox = s.outbox) :
      ∃ new, t.outbox b = s.outbox b ++ new ∧ ∀ line ∈ new, t.Addressed b line :=
    ⟨[], by rw [ho, List.append_nil], fun _ h => absurd h List.not_mem_nil⟩
  -- a line is given to the connection of a session, or to none
  have hline {w : WsId} {line : Line}
      (ho : t.outbox = s.outbox ∨ ∃ b', (s.sessions w).backend = some b' ∧
        t.outbox = Function.update s.outbox b' (s.outbox b' ++ [line]))
      (hl : (t.sessions w).backend = some b → t.Addressed b line) :
      ∃ new, t.outbox b = s.outbox b ++ new ∧ ∀ line ∈ new, t.Addressed b line := by
    rcases ho with ho | ⟨b', hb', ho⟩
    · exact hnothing ho
    · by_cases hb : b = b'
      · subst hb
        refine ⟨[line], by rw [ho, Function.update_self], fun x hx => ?_⟩
        rw [List.mem_singleton.mp hx]
        exact hl ((hsame.backend w).trans hb')
      · exact ⟨[], by rw [ho, Function.update_of_ne hb, List.append_nil],
          fun _ h => absurd h List.not_mem_nil⟩
  have hlast {u : GatewayServer} {r : Request} (hr : u.requests = s.requests ++ [r]) :
      u.requests[s.requests.length]? = some r := by
    rw [hr, List.getElem?_concat_length]
  cases h with
  | @nick _ w nickname => exact hline (outbox_sendLine ..) fun _ => .nick nickname
  | @chat w text =>
    refine hline (outbox_sendLine { s with requests := _ } w _) fun hb => ?_
    exact @Addressed.chat _ _ _ ⟨w, none, text⟩ (hlast (requests_sendLine ..)) rfl hb
  | @direct w peer _ text hp =>
    refine hline (outbox_sendLine { s with requests := _ } w _) fun hb => ?_
    have ho := hsame.welcomedSessions ▸ mem_welcomedSessions_of_online? hp
    have hd := @Addressed.direct _ _ _ ⟨w, some peer, text⟩ peer (hlast (requests_sendLine ..)) rfl
      ho hb
    rwa [hsame.nickname peer] at hd
  | _ => exact hnothing rfl

/-- **Every new line** is for whom it is meant. -/
theorem step_addresses (hs : s.step e = some s') (b : BackendId) :
    ∃ new, s'.outbox b = s.outbox b ++ new ∧ ∀ line ∈ new, s'.Addressed b line := by
  obtain ⟨t, hc, hd⟩ := step_deeds hs
  rw [← hc.outbox_eq.1]
  clear hc hs
  induction hd with
  | refl => exact ⟨[], (List.append_nil _).symm, fun _ h => absurd h List.not_mem_nil⟩
  | @tail u v _ hd ih =>
    obtain ⟨new, hn, hall⟩ := ih
    obtain ⟨c, -, hd⟩ := hd
    obtain ⟨new', hn', hall'⟩ := hd.addresses b
    have hsame : Same u v := Deeds.same (P := fun _ => True) ((Deeds.refl u).then trivial hd)
    have hr : u.requests <+: v.requests := by
      cases hd.gives with
      | nothing _ hr | nick _ _ _ hr => exact hr ▸ List.prefix_rfl
      | lost _ _ hr | request _ _ _ _ hr => exact ⟨_, hr.symm⟩
    refine ⟨new ++ new', by rw [hn', hn, List.append_assoc], fun line hl => ?_⟩
    rcases List.mem_append.mp hl with hl | hl
    · exact (hall line hl).same hsame hr
    · exact hall' line hl

/-! ### In every run -/

/-- A line of a backend connection is a `/nick` line, or that of a request of its owner. -/
inductive Forwarded (s : GatewayServer) (b : BackendId) : Line → Prop where
  /-- A `/nick` line. -/
  | nick (nickname : Units) : Forwarded s b ⟨formatNickCommand nickname, none⟩
  /-- The line of a request. -/
  | request {n : ℕ} {r : Request} {text : Units} (hn : s.requests[n]? = some r)
    (ho : r.sender = (s.backends b).owner)
    (hc : r.Carries text) : Forwarded s b ⟨text, some n⟩

/-- **Every line is accounted for.** -/
structure Tracked (s : GatewayServer) : Prop where
  /-- The backend connection of a session is its own. -/
  owner : ∀ w b, (s.sessions w).backend = some b → b < s.nextBackend ∧ (s.backends b).owner = w
  /-- The lines of a backend connection. -/
  lines : ∀ b, ∀ line ∈ s.outbox b, b < s.nextBackend ∧ s.Forwarded b line

theorem tracked_init (env : Env) (config : GatewayConfig) : Tracked (init env config) :=
  ⟨fun _ _ h => absurd h (Option.some_ne_none _).symm, fun _ _ h => absurd h List.not_mem_nil⟩

theorem Forwarded.mono {line : Line} (h : s.Forwarded b line) (hr : s.requests <+: t.requests)
    (ho : (t.backends b).owner = (s.backends b).owner) : t.Forwarded b line := by
  cases h with
  | nick nickname => exact .nick nickname
  | @request n r _ hn how hc =>
    obtain ⟨new, hr⟩ := hr
    refine .request ?_ (how.trans ho.symm) hc
    rw [← hr, List.getElem?_append_left (List.getElem?_eq_some_iff.mp hn).1, hn]

/-- What one deed gives is accounted for. -/
theorem Tracked.deed (h : Tracked s) (hd : Deed s c t) : Tracked t := by
  have hsame : Same s t := Deeds.same (P := fun _ => True) ((Deeds.refl s).then trivial hd)
  have howner : ∀ w b, (t.sessions w).backend = some b → b < t.nextBackend ∧
      (t.backends b).owner = w := by
    intro w b hb
    rw [hsame.nextBackend, hsame.backends]
    exact h.owner w b (hsame.backend w ▸ hb)
  have hold (hr : s.requests <+: t.requests) (b : BackendId) (line : Line)
      (hl : line ∈ s.outbox b) :
      b < t.nextBackend ∧ t.Forwarded b line := by
    obtain ⟨hlt, hf⟩ := h.lines b line hl
    exact ⟨hsame.nextBackend ▸ hlt, hf.mono hr (by rw [hsame.backends])⟩
  -- one connection may have been given one line
  have hnew (hr : s.requests <+: t.requests) {b : BackendId} {line : Line}
      (ho : t.outbox = Function.update s.outbox b (s.outbox b ++ [line])) (hlt : b < t.nextBackend)
      (hf : t.Forwarded b line) : Tracked t := by
    refine ⟨howner, ?_⟩
    intro b' line' hl
    rw [ho] at hl
    by_cases hb : b' = b
    · subst hb
      rw [Function.update_self, List.mem_append, List.mem_singleton] at hl
      rcases hl with hl | rfl
      · exact hold hr b' line' hl
      · exact ⟨hlt, hf⟩
    · rw [Function.update_of_ne hb] at hl
      exact hold hr b' line' hl
  cases hd.gives with
  | nothing ho hr => exact ⟨howner, fun b line hl => hold (hr ▸ List.prefix_rfl) b line (ho ▸ hl)⟩
  | lost _ ho hr => exact ⟨howner, fun b line hl => hold ⟨_, hr.symm⟩ b line (ho ▸ hl)⟩
  | @nick w b nickname hb ho hr =>
    exact hnew (hr ▸ List.prefix_rfl) ho (howner w b ((hsame.backend w).trans hb)).1
      (.nick nickname)
  | @request r b text _ hb hc ho hr =>
    obtain ⟨hlt, how⟩ := howner r.sender b ((hsame.backend r.sender).trans hb)
    exact hnew ⟨_, hr.symm⟩ ho hlt
      (.request (by rw [hr]; exact List.getElem?_concat_length ..) how.symm hc)

/-- A change of the sessions and the connections leaves the lines accounted for. -/
theorem Tracked.change (h : Tracked s) (hc : Change s e t) : Tracked t := by
  obtain ⟨ho, hr⟩ := hc.outbox_eq
  have hlines (hb : ∀ b < s.nextBackend, b < t.nextBackend ∧
      (t.backends b).owner = (s.backends b).owner) :
      ∀ b, ∀ line ∈ t.outbox b, b < t.nextBackend ∧ t.Forwarded b line := by
    intro b line hl
    obtain ⟨hlt, hf⟩ := h.lines b line (ho ▸ hl)
    exact ⟨(hb b hlt).1, hf.mono (hr ▸ List.prefix_rfl) (hb b hlt).2⟩
  have hstays (hS : Stays s t) : Tracked t := by
    refine ⟨?_, hlines fun b hlt => ⟨hS.nextBackend ▸ hlt, hS.owner b⟩⟩
    intro w b hb
    rw [(hS.sessions w).links.backend] at hb
    obtain ⟨hlt, how⟩ := h.owner w b hb
    exact ⟨hS.nextBackend ▸ hlt, (hS.owner b).trans how⟩
  cases hc.moves with
  | arrives =>
    refine ⟨?_, hlines fun b hlt => ⟨hlt, rfl⟩⟩
    intro w b hb
    by_cases hw : w = s.nextWs
    · rw [hw, sessions_onConnection_self] at hb
      cases hb
    · rw [sessions_onConnection_of_ne s hw] at hb
      exact h.owner w b hb
  | @joins i w a account users hi _ _ =>
    have hother {b : BackendId} (hlt : b < s.nextBackend) :
        b < s.nextBackend + 1 ∧
          (Function.update s.backends s.nextBackend ⟨w, .connecting, false⟩ b).owner =
          (s.backends b).owner :=
      ⟨Nat.lt_succ_of_lt hlt, by rw [Function.update_of_ne hlt.ne]⟩
    refine ⟨?_, hlines fun b hlt => hother hlt⟩
    intro x b hb
    by_cases hx : x = w
    · subst hx
      rw [sessions_join_self] at hb
      obtain rfl := Option.some.inj hb
      refine ⟨Nat.lt_succ_self _, ?_⟩
      show (Function.update s.backends s.nextBackend ⟨x, .connecting, false⟩ s.nextBackend).owner =
        x
      rw [Function.update_self]
    · rw [sessions_join_of_ne _ hx] at hb
      obtain ⟨hlt, how⟩ := h.owner x b hb
      exact ⟨(hother hlt).1, (hother hlt).2.trans how⟩
  | leaves hS => exact hstays hS
  | fails hS => exact hstays hS
  | stays hS => exact hstays hS

/-- **Every step** leaves all lines accounted for. -/
theorem Tracked.step (h : Tracked s) (hs : s.step e = some s') : Tracked s' := by
  obtain ⟨t, hc, hd⟩ := step_deeds hs
  have ht := h.change hc
  clear hc hs
  induction hd with
  | refl => exact ht
  | tail _ hd ih =>
    obtain ⟨c, -, hd⟩ := hd
    exact ih.deed hd

/-! ### What is made of a message -/

/-- The message a session is sent for such an event. -/
inductive Relays (s : GatewayServer) (w : WsId) : BackendEvent → MessageSummary → Prop where
  /-- A public message. -/
  | msg {sender text : Units} {m : MessageSummary} (hs : m.senderId = s.idByNickname sender) :
    Relays s w (.msg sender text) m
  /-- A direct message. -/
  | priv {sender text : Units} {m : MessageSummary} (hs : m.senderId = s.idByNickname sender)
    (hc : m.conversationId =
      directConversationId (s.sessions w).id ((s.idByNickname sender).getD sender)) :
    Relays s w (.priv sender text) m
  /-- The confirmation of one. -/
  | privSent {recipient text : Units} {m : MessageSummary}
    (hs : m.senderId = some (s.sessions w).id)
    (hc : m.conversationId =
      directConversationId (s.sessions w).id ((s.idByNickname recipient).getD recipient)) :
    Relays s w (.privSent recipient text) m

/-- **What is made of a message of the chat server**: the owner of the connection is sent it. -/
theorem relayed_of_step {p : Bytes} (hs : s.step (.backendFrame b p) = some s')
    (hm : (parseBackendLine (utf8Decode p)).IsMessage) (x : WsId) :
    ∃ extra, s'.sent x = s.sent x ++ extra ∧ ∀ m ∈ extra, ∀ message, m.message = .message message →
      x = (s.backends b).owner ∧ s.Relays x (parseBackendLine (utf8Decode p)) message := by
  obtain ⟨t, hc, hd, hsent⟩ := step_sent hs
  obtain ⟨extra, he, hx⟩ := hsent x
  refine ⟨extra, he, ?_⟩
  intro m hmem message hmsg
  obtain ⟨u, c, hu, hcause, hsends, -⟩ := hx m hmem
  have hev : c = .event (s.backends b).owner (parseBackendLine (utf8Decode p)) := by
    rcases hcause with rfl | ⟨ha, -⟩ | ⟨hr, -⟩
    · rfl
    · cases hp : parseBackendLine (utf8Decode p) <;>
        rw [hp] at hm ha <;> first | exact hm.elim | cases ha
    · cases hp : parseBackendLine (utf8Decode p) <;>
        rw [hp] at hm hr <;> first | exact hm.elim | cases hr
  have htu : Same t u := hu.same
  have hsu : Same s u := by
    have hts : t = s := hc.eq_of_frame rfl (by rintro _ he; rw [he] at hm; exact hm)
      (by rintro _ _ he; rw [he] at hm; exact hm) (by rintro _ _ he; rw [he] at hm; exact hm)
    exact hts ▸ htu
  cases hsends with
  | error | loggedOut => cases hmsg
  | told ho ht =>
    generalize parseBackendLine (utf8Decode p) = ev at hev hm ⊢
    subst hev
    cases ht with
    | ready hc => rcases hc with hc | hc <;> cases hc
    | relayed hc hsid =>
      obtain rfl := ServerMessage.message.inj hmsg
      exact ⟨rfl, .msg (by rw [hsid, hsu.idByNickname])⟩
    | priv hc hsid =>
      obtain rfl := ServerMessage.message.inj hmsg
      exact ⟨rfl, .priv (by rw [hsid, hsu.idByNickname]) (by rw [hc, hsu.id, hsu.idByNickname])⟩
    | privSent hc hsid =>
      obtain rfl := ServerMessage.message.inj hmsg
      exact ⟨rfl, .privSent (by rw [hsid, hsu.id]) (by rw [hc, hsu.id, hsu.idByNickname])⟩

theorem sent_sendTo (s : GatewayServer) (w x : WsId) (m : ServerMessage) :
    ∃ extra, (s.sendTo w m).sent x = s.sent x ++ extra ∧ extra.length ≤ 1 := by
  unfold sendTo
  split
  · by_cases hx : x = w
    · subst hx
      exact ⟨[⟨m, []⟩], Function.update_self .., le_rfl⟩
    · exact ⟨[], by rw [List.append_nil]; exact Function.update_of_ne hx .., Nat.zero_le 1⟩
  · exact ⟨[], (List.append_nil _).symm, Nat.zero_le 1⟩

/-- **Once at most**: one event is made of a message of the chat server. -/
theorem sent_once_of_step {p : Bytes} (hs : s.step (.backendFrame b p) = some s')
    (hm : (parseBackendLine (utf8Decode p)).IsMessage) (x : WsId) :
    ∃ extra, s'.sent x = s.sent x ++ extra ∧ extra.length ≤ 1 := by
  simp only [step, handle, Option.ite_none_left_eq_some, Option.ite_none_right_eq_some,
    Option.some.injEq] at hs
  obtain ⟨-, -, rfl⟩ := hs
  generalize parseBackendLine (utf8Decode p) = ev at hm
  cases ev with
  | msg | priv | privSent => exact sent_sendTo ..
  | _ => exact hm.elim

/-- **The other messages a browser is sent** are its own public ones and those to groups. -/
theorem message_of_step (hs : s.step e = some s') (x : WsId) :
    ∃ extra, s'.sent x = s.sent x ++ extra ∧ ∀ m ∈ extra, ∀ message, m.message = .message message →
      (∃ text, s.Causes e (.message x (.sendMessage .everyone text))) ∨
      (∃ w groupId text, s.Causes e (.message w (.sendMessage (.group groupId) text)) ∧
        message.conversationId = groupId) ∨
      ∃ b p, e = .backendFrame b p ∧ (parseBackendLine (utf8Decode p)).IsMessage := by
  obtain ⟨t, -, -, hsent⟩ := step_sent hs
  obtain ⟨extra, he, hx⟩ := hsent x
  refine ⟨extra, he, ?_⟩
  intro m hmem message hmsg
  obtain ⟨u, c, -, hcause, hsends, -⟩ := hx m hmem
  have hframe {w : WsId} {ev : BackendEvent} (hc : s.Causes e (.event w ev)) (hev : ev.IsMessage) :
      ∃ b p, e = .backendFrame b p ∧ (parseBackendLine (utf8Decode p)).IsMessage :=
    let ⟨b, p, he, _, hp⟩ := hc.event
    ⟨b, p, he, hp ▸ hev⟩
  cases hsends with
  | error | loggedOut => cases hmsg
  | told ho ht =>
    cases ht with
    | ready | announced | renamed | presence | offline | opened | created => cases hmsg
    | echo => exact .inl ⟨_, hcause⟩
    | group _ _ hc =>
      obtain rfl := ServerMessage.message.inj hmsg
      exact .inr (.inl ⟨_, _, _, hcause, hc⟩)
    | relayed => exact .inr (.inr (hframe hcause trivial))
    | priv => exact .inr (.inr (hframe hcause trivial))
    | privSent => exact .inr (.inr (hframe hcause trivial))

/-- Nothing is sent for a frame that is too large. -/
theorem sent_of_oversized (hs : s.step (.backendOversized b) = some s') (x : WsId) :
    s'.sent x = s.sent x := by
  simp only [step, handle, Option.ite_none_left_eq_some, Option.ite_none_right_eq_some,
    Option.some.injEq] at hs
  obtain ⟨-, -, rfl⟩ := hs
  rfl

end GatewayServer

end ThreadLink.Gateway
