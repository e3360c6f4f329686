import ThreadLink.Backend.Registry

/-!
# Where a frame goes

A thread that has to deliver a frame knows a descriptor number, which it looked up
under the lock; the frame goes to whatever connection the number stands for when
the frame is written. This module follows a frame from the block that makes it to
the connection it is written to.

## What is proved

* `step_pending`, `step_fds`, `step_written` — where the frames that threads have
  still to deliver, the open descriptors and the frames written come from.
* `Addressed` — in a run in which no descriptor number is given out again while a
  thread has still to deliver a frame to it (`NoReuse`), every frame reaches the
  connection it was meant for.
* `priv_written_to_holder` — so a private message reaches the connection that held
  the nickname it was addressed by. Without the condition it does not
  (`priv_written_to_stranger`).
* `Greets` — and WELCOME is the first frame of every connection that is not
  rejected (`welcome_first`); without the condition it is not
  (`stale_broadcast_first`).
-/

namespace ThreadLink.Backend

open Text Runs

/-- The line is that of a private message. -/
def ServerLine.IsPriv : ServerLine → Prop
  | .priv _ _ => True
  | _ => False

instance : DecidablePred ServerLine.IsPriv
  | .priv _ _ => inferInstanceAs (Decidable True)
  | .welcome _ | .sys _ | .msg _ _ | .privSent _ _ | .nick _ _ | .list _ | .err _ _ =>
    inferInstanceAs (Decidable False)

/-- The line says what somebody is called. -/
def ServerLine.Names : ServerLine → Prop
  | .welcome _ | .nick _ _ => True
  | _ => False

/-- The frame is a private message. -/
abbrev Frame.IsPriv (f : Frame) : Prop := f.line.IsPriv

/-- The connection a frame was meant for, as far as its cause says: a private message
for the holder of the nickname, a broadcast for the connections accepted by then. -/
def Frame.MeantFor (f : Frame) (k : ConnId) : Prop :=
  match f.cause with
  | .direct => True
  | .broadcast _ taken => k < taken
  | .priv _ holder => holder = some k

/-- A private message says what it was caused by. -/
def Frame.Marked (f : Frame) : Prop := f.IsPriv → ∃ sender holder, f.cause = .priv sender holder

/-- So do the frames a block is to deliver; and nothing private is broadcast. -/
def Op.Marked : Op → Prop
  | .broadcast line _ _ _ => ¬ line.IsPriv
  | .sendToFd _ f | .sendFrame _ f => f.Marked
  | _ => True

theorem Op.Marked.frame {op : Op} {fd : Fd} {f : Frame} (h : op.Marked)
    (hd : op.delivery = some (fd, f)) : f.Marked := by
  cases op <;> cases hd <;> exact h

theorem Frame.Marked.op {op : Op} {fd : Fd} {f : Frame} (h : f.Marked)
    (hd : op.delivery = some (fd, f)) : op.Marked := by
  cases op <;> cases hd <;> exact h

/-- A block that neither delivers a frame nor broadcasts a line. -/
def Op.Silent (op : Op) : Prop :=
  op.delivery = none ∧ ∀ line fd about serial, op ≠ .broadcast line fd about serial

/-- A block that handles a line of the client. -/
def Op.Handles : Op → Prop
  | .handleChat _ _ _ | .handleNick _ _ | .handleMsg _ _ _ _ | .handleList _ => True
  | _ => False

/-- A block that has nothing to say. -/
def Op.Mute : Op → Prop
  | .accept | .markWelcomed _ | .startThread _ _ | .sendFrame _ _ | .closeFd _ | .endThread
  | .reap _ | .joinEntry _
  | .collectFds | .shutdownFd _ | .collectThreads | .joinThread _ | .closeListener => True
  | _ => False

theorem Op.Silent.marked {op : Op} (h : op.Silent) : op.Marked := by
  obtain ⟨hd, hb⟩ := h
  cases op with
  | sendToFd | sendFrame => cases hd
  | broadcast => exact absurd rfl (hb _ _ _ _)
  | _ => trivial

namespace Server

variable {s s' : Server} {t : Tid} {ch : Choice} {op : Op} {new : List Op} {a : Action} {fd : Fd}
  {f : Frame}
  {k : ConnId}

/-- The frames a thread has still to deliver, and where. -/
def pending (s : Server) (t : Tid) : List (Fd × Frame) := (s.todo t).filterMap Op.delivery

/-! ### Where they come from -/

theorem mem_targets {excludeFd : Fd} (h : fd ∈ s.targets excludeFd) :
    fd ≠ excludeFd ∧ ∃ r, s.clients.find? fd = some r ∧ r.welcomed = true := by
  obtain ⟨⟨fd', r⟩, he, rfl⟩ := List.mem_map.mp h
  obtain ⟨he, hp⟩ := List.mem_filter.mp he
  simp only [Bool.and_eq_true, bne_iff_ne, ne_eq] at hp
  exact ⟨hp.1, r, OrdMap.find?_eq_some.mpr he, hp.2⟩

/-- An open descriptor stands for a connection that has been accepted. -/
theorem Inv.lt_nextConn (hI : Inv s) (h : s.fds fd = some k) : k < s.nextConn := by
  by_contra hn
  exact ((hI.fds_iff _ _).mp h).2.1 ((hI.unborn_iff k).mpr (not_lt.mp hn))

/-- **What the search for a target finds**: a welcomed client that uses the nickname. -/
theorem findTarget_spec {target : Bytes} (h : s.findTarget target ≠ -1) :
    ∃ r, s.clients.find? (s.findTarget target) = some r ∧ r.welcomed = true ∧
      r.nickname = target := by
  unfold findTarget at h ⊢
  split at h
  · rename_i e he
    have hm := List.mem_of_find?_eq_some he
    have hp := List.find?_some he
    simp only [Bool.and_eq_true, beq_iff_eq] at hp
    exact ⟨e.2, OrdMap.find?_eq_some.mpr hm, hp.1, hp.2⟩
  · exact absurd rfl h

/-- **The blocks a block leaves to run.** -/
inductive Makes (s : Server) (t : Tid) (op : Op) : Op → Prop
  /-- A block that delivers nothing, and handles no line. -/
  | silent {op' : Op} (h : op'.Silent) (hh : ¬ op'.Handles) : Makes s t op op'
  /-- A broadcast of no private line that names nobody. -/
  | broadcast {line : ServerLine} {serial : Option ℕ} (h : ¬ line.IsPriv) (hn : ¬ line.Names)
      (hs : serial = none ∨ serial = op.serial) (fd : Fd) (about : Option ConnId) :
      Makes s t op (.broadcast line fd about serial)
  /-- The broadcast of a rename. -/
  | rename {fd : Fd} {newNick : Bytes} {r : ClientRecord} (h : op = .handleNick fd newNick)
      (ht : s.taken fd newNick = false) (hr : s.clients.find? fd = some r) :
      Makes s t op (.broadcast (.nick r.nickname newNick) (-1) t.conn none)
  /-- A frame for the thread's own client that names nobody. -/
  | reply {op' : Op} {fd : Fd} {f : Frame} (h : f.cause = .direct) (hp : ¬ f.IsPriv)
    (hn : ¬ f.line.Names)
      (hs : f.serial = none ∨ f.serial = op.serial) (hd : op'.delivery = some (fd, f)) :
      Makes s t op op'
  /-- WELCOME. -/
  | greet {fd : Fd} {c : ConnId} {nickname : Bytes} (h : op = .register fd c)
      (hn : assignDefaultNickname s.nicknames = some nickname) :
      Makes s t op (.sendToFd fd (welcomeFrame nickname))
  /-- What the block was to deliver itself. -/
  | relay {fd : Fd} {f : Frame} (h : op.delivery = some (fd, f)) : Makes s t op (.sendFrame fd f)
  /-- A frame of a broadcast, for a welcomed client. -/
  | announce {line : ServerLine} {excludeFd : Fd} {about : Option ConnId} {serial : Option ℕ}
      (h : op = .broadcast line excludeFd about serial) {fd : Fd} {r : ClientRecord}
      (hr : s.clients.find? fd = some r) (hw : r.welcomed = true) :
      Makes s t op (.sendFrame fd ⟨line, .broadcast about s.nextConn, serial⟩)
  /-- A private message, for a welcomed client. -/
  | priv {fd₀ fd : Fd} {target text : Bytes} {serial : Option ℕ} {r : ClientRecord}
      (h : op = .handleMsg fd₀ target text serial) (hr : s.clients.find? fd = some r)
        (hw : r.welcomed = true)
      (hn : r.nickname = target) (sender : Bytes) :
      Makes s t op (.sendToFd fd ⟨.priv sender text, .priv t.conn (s.fds fd), serial⟩)

theorem makes_sendError (fd : Fd) (code text : Bytes) : Makes s t op (sendError fd code text) :=
  .reply rfl id id (.inl rfl) rfl

/-- Close a goal about the blocks a block leaves to run, where there is just one. -/
theorem forall_mem_singleton {P : Op → Prop} {op : Op} (h : P op) : ∀ op' ∈ [op], P op' := by
  simpa using h

theorem makes_renameClient (s : Server) (t : Tid) (fd : Fd) (newNick : Bytes) :
    ∀ op' ∈ (s.renameClient t fd newNick).2, Makes s t (.handleNick fd newNick) op' := by
  unfold renameClient
  split
  · exact forall_mem_singleton (makes_sendError ..)
  · rename_i ht
    split
    · simp
    · rename_i hr
      exact forall_mem_singleton (.rename rfl (by simpa using ht) hr)

theorem makes_routeMsg (s : Server) (t : Tid) (fd : Fd) (target text : Bytes) (serial : Option ℕ) :
    ∀ op' ∈ s.routeMsg t fd target text serial,
    Makes s t (.handleMsg fd target text serial) op' := by
  unfold routeMsg
  split
  · simp
  · simp only
    split_ifs with h1 h2
    · exact forall_mem_singleton (makes_sendError ..)
    · exact forall_mem_singleton (makes_sendError ..)
    · obtain ⟨r, hr, hw, hn⟩ := findTarget_spec h1
      exact List.forall_mem_cons.mpr
        ⟨.priv rfl hr hw hn _, forall_mem_singleton (.reply rfl id id (.inr rfl) rfl)⟩

theorem makes_eraseClient (s : Server) (t : Tid) (fd : Fd) :
    ∀ op' ∈ (s.eraseClient t fd).2, Makes s t op op' := by
  unfold eraseClient
  split
  · simp
  · simp only
    split_ifs
    · simp
    · exact forall_mem_singleton (.broadcast id id (.inl rfl) ..)

/-- A block that has nothing to say leaves none that has. -/
theorem exec_mute (hm : op.Mute) (h : s.exec t ch op = some (s', new)) :
    ∀ op' ∈ new, op'.Silent ∧ ¬ op'.Handles := by
  have hone {op' : Op} (hs : op'.Silent ∧ ¬ op'.Handles) :
      ∀ op ∈ [op'], op.Silent ∧ ¬ op.Handles := by simpa using hs
  cases exec_done h with
  | accepted | kept | dropped | joinedEntry => exact hone ⟨⟨rfl, by simp⟩, id⟩
  | collectedFds | collectedThreads =>
    intro op' hop'
    obtain ⟨_, -, rfl⟩ := List.mem_map.mp hop'
    exact ⟨⟨rfl, by simp⟩, id⟩
  | full | registered | unsent | sent | broadcast | unsaid | said | renamed | routed | listed
  | erased => exact hm.elim
  | _ => simp

/-- **What a block leaves to run.** -/
theorem exec_makes (h : s.exec t ch op = some (s', new)) : ∀ op' ∈ new, Makes s t op op' := by
  cases exec_done h with
  | full hf =>
    exact List.forall_mem_cons.mpr ⟨.reply rfl id id (.inl rfl) rfl,
      forall_mem_singleton (.silent ⟨rfl, by simp⟩ id)⟩
  | registered hf hn =>
    simp only [afterWelcome, List.forall_mem_cons]
    exact ⟨.greet rfl hn, .silent ⟨rfl, by simp⟩ id,
      .silent ⟨rfl, by simp⟩ id, .broadcast id id (.inl rfl) .., by simp⟩
  | sent => exact forall_mem_singleton (.relay rfl)
  | broadcast =>
    intro op' hop'
    obtain ⟨fd, hfd, rfl⟩ := List.mem_map.mp hop'
    obtain ⟨-, r, hr, hw⟩ := mem_targets hfd
    exact .announce rfl hr hw
  | routed => exact makes_routeMsg s t _ _ _ _
  | renamed => exact makes_renameClient s t _ _
  | erased => exact makes_eraseClient s t _
  | listed => exact forall_mem_singleton (.reply rfl id id (.inl rfl) rfl)
  | said => exact forall_mem_singleton (.broadcast id id (.inr rfl) ..)
  | unsent | unsaid => simp
  | _ =>
    have hm := fun hm => exec_mute hm h
    exact fun op' hop' => .silent (hm trivial op' hop').1 (hm trivial op' hop').2

/-- **What a block makes a thread deliver**: what the block itself was to deliver, a
frame for the thread's own client, or a frame for a welcomed client. -/
theorem exec_delivery (hI : Inv s) (h : s.exec t ch op = some (s', new)) {op' : Op}
    (hop : op' ∈ new) (hd : op'.delivery = some (fd, f)) :
    op.delivery = some (fd, f) ∨ f.cause = .direct ∨
      (∃ r, s.clients.find? fd = some r ∧ r.welcomed = true) ∧ ∀ k, s.fds fd = some k →
        f.MeantFor k := by
  cases exec_makes h op' hop with
  | silent hn => rw [hn.1] at hd; cases hd
  | broadcast => cases hd
  | rename => cases hd
  | reply hc _ _ _ hd' =>
    rw [hd'] at hd
    cases hd
    exact .inr (.inl hc)
  | greet => cases hd; exact .inr (.inl rfl)
  | relay h => cases hd; exact .inl h
  | announce _ hr hw =>
    cases hd
    exact .inr (.inr ⟨⟨_, hr, hw⟩, fun k hk => hI.lt_nextConn hk⟩)
  | priv _ hr hw =>
    cases hd
    exact .inr (.inr ⟨⟨_, hr, hw⟩, fun k hk => hk⟩)

/-! ### What a block changes of the registry -/

/-- **How a block changes the registry**, if it does. -/
inductive Registers (s s' : Server) (t : Tid) (new : List Op) : Op → Prop
  | same {op : Op} (h : s'.clients = s.clients) : Registers s s' t new op
  | add {fd : Fd} {c : ConnId} {nickname : Bytes} (hs : s.clients.size < s.config.1.maxClients)
      (hn : assignDefaultNickname s.nicknames = some nickname)
      (h : s'.clients = s.clients.emplace fd ⟨nickname, false⟩) :
      Registers s s' t new (.register fd c)
  | welcome {fd : Fd} (h : s'.clients = s.clients.modify fd fun r => { r with welcomed := true }) :
      Registers s s' t new (.markWelcomed fd)
  | rename {fd : Fd} {newNick : Bytes} {r : ClientRecord} (ht : s.taken fd newNick = false)
      (hr : s.clients.find? fd = some r)
      (h : s'.clients = s.clients.modify fd fun r => { r with nickname := newNick })
      (hn : new = [.broadcast (.nick r.nickname newNick) (-1) t.conn none]) :
      Registers s s' t new (.handleNick fd newNick)
  | erase {fd : Fd} (h : s'.clients = s.clients.erase fd) : Registers s s' t new (.eraseClient fd)

theorem renameClient_registers (s : Server) (t : Tid) (fd : Fd) (newNick : Bytes) :
    Registers s (s.renameClient t fd newNick).1 t (s.renameClient t fd newNick).2
      (.handleNick fd newNick) := by
  unfold renameClient
  split
  · exact .same rfl
  · rename_i ht
    split
    · exact .same rfl
    · rename_i r hr
      exact .rename (by simpa using ht) hr rfl rfl

/-- What a block of thread `t` may change of what the connections are and get. -/
structure Effect (s s' : Server) (t : Tid) (ch : Choice) (op : Op) (new : List Op) : Prop where
  /-- The configuration stays. -/
  config : s'.config = s.config
  /-- So does what the threads have to do after the block. -/
  todo : s'.todo = s.todo
  /-- What the clients have sent stays. -/
  inbox : s'.inbox = s.inbox
  /-- The registry. -/
  clients : Registers s s' t new op
  /-- `::accept` opens the descriptor it returns. -/
  fds : ∀ fd k, s'.fds fd = some k →
    s.fds fd = some k ∨ op = .accept ∧ ch.fd = fd ∧ s.fds fd = none ∧ k = s.nextConn
  /-- The registration assigns a name. -/
  assigned : ∀ k, s'.assigned k = s.assigned k ∨
    ∃ fd, op = .register fd k ∧ s'.assigned k = assignDefaultNickname s.nicknames
  /-- A broken connection stays broken. -/
  broken : ∀ k, s.broken k = true → s'.broken k = true
  /-- `send_frame` writes to the connection the descriptor stands for. -/
  written : ∀ k, s'.written k = s.written k ∨
    ∃ fd f, op = .sendFrame fd f ∧ s.fds fd = some k ∧ s.broken k = false ∧
      s'.written k = s.written k ++ [f]

/-- A block that changes nothing of it but, perhaps, the registry. -/
theorem Effect.of_clients (hr : Registers s s' t new op) (hc : s'.config = s.config)
    (ht : s'.todo = s.todo) (hi : s'.inbox = s.inbox) (hf : s'.fds = s.fds)
    (ha : s'.assigned = s.assigned) (hb : s'.broken = s.broken) (hw : s'.written = s.written) :
    Effect s s' t ch op new :=
  ⟨hc, ht, hi, hr, fun fd k h => .inl (hf ▸ h), fun k => .inl (by rw [ha]), fun k h => hb ▸ h,
    fun k => .inl (by rw [hw])⟩

theorem Effect.refl (s : Server) (t : Tid) (ch : Choice) (op : Op) (new : List Op) :
    Effect s s t ch op new :=
  .of_clients (.same rfl) rfl rfl rfl rfl rfl rfl rfl

/-- **What a block may change.** -/
theorem exec_effect (h : s.exec t ch op = some (s', new)) : Effect s s' t ch op new := by
  cases exec_done h with
  | accepted h0 h1 =>
    refine ⟨rfl, rfl, rfl, .same rfl, ?_, fun _ => .inl rfl, fun _ h => h, fun _ => .inl rfl⟩
    intro fd k hk
    by_cases hfd : fd = ch.fd
    · subst hfd
      simp only [Function.update_self, Option.some.injEq] at hk
      exact .inr ⟨rfl, rfl, h1, hk.symm⟩
    · exact .inl (by simpa [hfd] using hk)
  | @registered fd c nickname hf hn =>
    refine ⟨rfl, rfl, rfl, .add (not_le.mp hf) hn rfl, fun _ _ h => .inl h, ?_, fun _ h => h,
      fun _ => .inl rfl⟩
    intro k
    by_cases hk : k = c
    · exact .inr ⟨fd, by rw [hk], by simp [hk, hn]⟩
    · exact .inl (by simp [hk])
  | @frame fd f =>
    rcases s.sendFrame_cases fd f ch.ok with h | ⟨c, hc, hb, h⟩ | ⟨c, -, h⟩ <;> rw [h]
    · exact .refl ..
    · refine ⟨rfl, rfl, rfl, .same rfl, fun _ _ h => .inl h, fun _ => .inl rfl, fun _ h => h, ?_⟩
      intro k
      by_cases hk : k = c
      · subst hk
        exact .inr ⟨fd, f, rfl, hc, hb, by simp⟩
      · exact .inl (by simp [hk])
    · refine ⟨rfl, rfl, rfl, .same rfl, fun _ _ h => .inl h, fun _ => .inl rfl, ?_,
        fun _ => .inl rfl⟩
      intro k h
      by_cases hk : k = c <;> simp [hk, h]
  | welcomed => exact .of_clients (.welcome rfl) rfl rfl rfl rfl rfl rfl rfl
  | erased =>
    unfold eraseClient setStage
    split
    · exact .of_clients (.same rfl) rfl rfl rfl rfl rfl rfl rfl
    · exact .of_clients (.erase rfl) rfl rfl rfl rfl rfl rfl rfl
  | @closed fd =>
    refine ⟨rfl, rfl, rfl, .same rfl, ?_, fun _ => .inl rfl, fun _ h => h, fun _ => .inl rfl⟩
    intro fd' k hk
    by_cases hfd : fd' = fd
    · subst hfd
      simp at hk
    · exact .inl (by simpa [hfd] using hk)
  | @shut fd c hfd =>
    refine ⟨rfl, rfl, rfl, .same rfl, fun _ _ h => .inl h, fun _ => .inl rfl, ?_,
      fun _ => .inl rfl⟩
    intro k h
    by_cases hk : k = c <;> simp [hk, h]
  | @renamed fd newNick =>
    have hsame : let s' := (s.renameClient t fd newNick).1
        s'.config = s.config ∧ s'.todo = s.todo ∧ s'.inbox = s.inbox ∧ s'.fds = s.fds ∧
        s'.assigned = s.assigned ∧ s'.broken = s.broken ∧ s'.written = s.written := by
      unfold renameClient
      split
      · exact ⟨rfl, rfl, rfl, rfl, rfl, rfl, rfl⟩
      · split <;> exact ⟨rfl, rfl, rfl, rfl, rfl, rfl, rfl⟩
    obtain ⟨h2, h3, h4, h5, h6, h7, h8⟩ := hsame
    exact .of_clients (s.renameClient_registers t fd newNick) h2 h3 h4 h5 h6 h7 h8
  | _ => exact .of_clients (.same rfl) rfl rfl rfl rfl rfl rfl rfl

theorem mem_todo_head (ht : s.todo t = op :: rest) : op ∈ s.todo t := by
  rw [ht]
  exact .head _

theorem mem_pending : (fd, f) ∈ s.pending t ↔ ∃ op ∈ s.todo t, op.delivery = some (fd, f) :=
  List.mem_filterMap

/-- A frame still to be delivered after a block was to be delivered before it, or
comes from the block. -/
theorem mem_pending_setTodo {s₁ : Server} {rest : List Op} {t' : Tid} (ht : s.todo t = op :: rest)
    (h : s.exec t ch op = some (s₁, new)) (hp : (fd, f) ∈ (s₁.setTodo t (new ++ rest)).pending t') :
    (fd, f) ∈ s.pending t' ∨ t' = t ∧ ∃ op' ∈ new, op'.delivery = some (fd, f) := by
  rw [mem_pending] at hp
  obtain ⟨op', hop', hd⟩ := hp
  by_cases htt : t' = t
  · subst htt
    simp only [setTodo, Function.update_self, List.mem_append] at hop'
    rcases hop' with hop' | hop'
    · exact .inr ⟨rfl, op', hop', hd⟩
    · exact .inl (mem_pending.mpr ⟨op', by rw [ht]; exact .tail _ hop', hd⟩)
  · simp only [setTodo, Function.update_of_ne htt] at hop'
    exact .inl (mem_pending.mpr ⟨op', by rw [← (exec_effect h).todo]; exact hop', hd⟩)

/-- **What a handler thread does with a frame** delivers no frame but errors, and those
to its own client. -/
theorem handleFrame_ops {cfg : Config} {fd₀ : Fd} {f₀ : ClientFrame}
    (hop : op ∈ handleFrame cfg fd₀ f₀) :
    op.Silent ∨ ∃ code text, op = sendError fd₀ code text := by
  have herr {code text : Bytes} (hop : op ∈ [sendError fd₀ code text]) :
      op.Silent ∨ ∃ code text, op = sendError fd₀ code text :=
        .inr ⟨code, text, List.mem_singleton.mp hop⟩
  have hno {o : Op} (ho : o.Silent) (hop : op ∈ [o]) :
      op.Silent ∨ ∃ code text, op = sendError fd₀ code text :=
    .inl (List.mem_singleton.mp hop ▸ ho)
  have htear (hop : op ∈ teardown fd₀) : op.Silent ∨ ∃ code text, op = sendError fd₀ code text := by
    simp only [teardown, List.mem_cons, List.not_mem_nil, or_false] at hop
    rcases hop with rfl | rfl | rfl <;> exact .inl ⟨rfl, by simp⟩
  unfold handleFrame at hop
  split_ifs at hop
  · rcases List.mem_cons.mp hop with rfl | hop
    · exact herr (.head _)
    · exact htear hop
  · simp only [handleLine] at hop
    split_ifs at hop
    · cases hop
    · unfold handleNick at hop
      split at hop
      · exact herr hop
      · exact herr hop
      · split_ifs at hop
        · exact hno ⟨rfl, by simp⟩ hop
        · exact herr hop
    · unfold handleMsg at hop
      simp only at hop
      split_ifs at hop
      · exact herr hop
      · exact hno ⟨rfl, by simp⟩ hop
    · exact hno ⟨rfl, by simp⟩ hop
    · exact htear hop
    · exact herr hop
    · exact hno ⟨rfl, by simp⟩ hop

/-- **The blocks a step that runs none adds.** -/
inductive Starts (s : Server) : Tid → Op → Prop
  /-- A handler thread has received a frame. -/
  | frame {c k : ConnId} {f : ClientFrame} {op : Op} (ha : s.alive c = true)
    (hi : s.todo (.handler c) = [])
      (hk : s.fds (s.fdOf c) = some k) (hf : f ∈ s.inbox k)
        (h : op ∈ handleFrame s.config.1 (s.fdOf c) f) :
      Starts s (.handler c) op
  /-- Its connection has ended. -/
  | leave {c : ConnId} {op : Op} (h : op ∈ teardown (s.fdOf c)) : Starts s (.handler c) op
  /-- A pass of the accept loop. -/
  | pass {op : Op} (h : op = .reap 0 ∨ op = .accept) : Starts s .main op
  /-- The end of the accept loop. -/
  | stop {op : Op} (h : op ∈ shutdownAll) : Starts s .main op

theorem step_todo (h : step s a = some s') (ha : ∀ t ch, a ≠ .run t ch) (hop : op ∈ s'.todo t) :
    op ∈ s.todo t ∨ Starts s t op := by
  have hset {t' : Tid} {l : List Op} (hl : ∀ op ∈ l, Starts s t' op)
      (hop : op ∈ Function.update s.todo t' l t) :
      op ∈ s.todo t ∨ Starts s t op := by
    by_cases htt : t = t'
    · subst htt
      exact .inr (hl op (by simpa using hop))
    · exact .inl (by simpa [htt] using hop)
  cases a with
  | run t' ch => exact absurd rfl (ha t' ch)
  | iterate ready =>
    simp only [step, Option.ite_none_right_eq_some, Option.some.injEq] at h
    obtain ⟨-, rfl⟩ := h
    refine hset (fun op hop => .pass ?_) hop
    cases ready
    · exact .inl (by simpa using hop)
    · simpa using hop
  | leaveLoop =>
    simp only [step, Option.ite_none_right_eq_some, Option.some.injEq] at h
    obtain ⟨-, rfl⟩ := h
    exact hset (fun op hop => .stop hop) hop
  | recv c =>
    obtain ⟨ha, hi, k, f, rest, hk, hf, rfl⟩ := step_recv h
    exact hset (fun op hop => .frame ha hi hk (hf ▸ .head _) hop) hop
  | recvEnd c =>
    simp only [step, Option.ite_none_right_eq_some, Option.some.injEq] at h
    obtain ⟨-, rfl⟩ := h
    exact hset (fun op hop => .leave hop) hop
  | requestShutdown | arrive =>
    simp only [step, Option.some.injEq] at h
    subst h
    exact .inl hop
  | rehash es =>
    simp only [step, Option.dite_none_right_eq_some, Option.some.injEq] at h
    obtain ⟨_, rfl⟩ := h
    exact .inl hop

/-- These deliver no frame but errors to the thread's own client, and broadcast nothing
but the goodbye. -/
theorem Starts.cases (h : Starts s t op) :
    op.Silent ∨ (∃ fd code text, op = sendError fd code text) ∨
    op = .broadcast (.sys (bytes "Server is shutting down. Goodbye!")) (-1) none none := by
  cases h with
  | frame _ _ _ _ h =>
    exact (handleFrame_ops h).imp id fun ⟨code, text, he⟩ => .inl ⟨_, code, text, he⟩
  | leave h =>
    simp only [teardown, List.mem_cons, List.not_mem_nil, or_false] at h
    rcases h with rfl | rfl | rfl <;> exact .inl ⟨rfl, by simp⟩
  | pass h => rcases h with rfl | rfl <;> exact .inl ⟨rfl, by simp⟩
  | stop h =>
    simp only [shutdownAll, List.mem_cons, List.not_mem_nil, or_false] at h
    rcases h with rfl | rfl | rfl | rfl
    · exact .inr (.inr rfl)
    all_goals exact .inl ⟨rfl, by simp⟩

/-- **The frames a step leaves to deliver**: those that were to be delivered, those for
a handler thread's own client, and those for a welcomed client. -/
theorem step_pending (hI : Inv s) (h : step s a = some s') (hp : (fd, f) ∈ s'.pending t) :
    (fd, f) ∈ s.pending t ∨ f.cause = .direct ∨
      (∃ r, s.clients.find? fd = some r ∧ r.welcomed = true) ∧ ∀ k, s.fds fd = some k →
        f.MeantFor k := by
  by_cases ha : ∃ t ch, a = .run t ch
  · obtain ⟨t', ch, rfl⟩ := ha
    obtain ⟨op, rest, s₁, new, ht, he, rfl⟩ := step_run h
    rcases mem_pending_setTodo ht he hp with hp | ⟨rfl, op', hop', hd⟩
    · exact .inl hp
    · rcases exec_delivery hI he hop' hd with hd | hd
      · exact .inl (mem_pending.mpr ⟨op, mem_todo_head ht, hd⟩)
      · exact .inr hd
  · obtain ⟨op, hop, hd⟩ := mem_pending.mp hp
    rcases step_todo h (fun t ch he => ha ⟨t, ch, he⟩) hop with hop | hs
    · exact .inl (mem_pending.mpr ⟨op, hop, hd⟩)
    · rcases hs.cases with hs | ⟨_, code, text, rfl⟩ | rfl
      · rw [hs.1] at hd
        cases hd
      · cases hd
        exact .inr (.inl rfl)
      · cases hd

/-- A step that changes at most what the threads have to do, what the clients have sent,
the flags of the accept loop, and the order of the registry. -/
structure Quiet (s s' : Server) : Prop where
  /-- The configuration. -/
  config : s'.config = s.config
  /-- Open descriptors. -/
  fds : s'.fds = s.fds
  /-- The count of connections. -/
  nextConn : s'.nextConn = s.nextConn
  /-- Running threads. -/
  alive : s'.alive = s.alive
  /-- Broken connections. -/
  broken : s'.broken = s.broken
  /-- Frames written. -/
  written : s'.written = s.written
  /-- Descriptor numbers. -/
  fdOf : s'.fdOf = s.fdOf
  /-- Stages. -/
  stage : s'.stage = s.stage
  /-- Assigned names. -/
  assigned : s'.assigned = s.assigned
  /-- The registry, up to its order. -/
  clients : s'.clients.entries.Perm s.clients.entries

theorem Quiet.find? (h : Quiet s s') (fd : Fd) : s'.clients.find? fd = s.clients.find? fd :=
  OrdMap.find?_of_perm h.clients fd

/-- **What a step may change**: a thread runs a block, or it is quiet. -/
theorem step_effect (h : step s a = some s') :
    (∃ t ch op rest new s₁, a = .run t ch ∧ s.todo t = op :: rest ∧
      s.exec t ch op = some (s₁, new) ∧
      Effect s s₁ t ch op new ∧ s' = s₁.setTodo t (new ++ rest)) ∨
      (∀ t ch, a ≠ .run t ch) ∧ Quiet s s' := by
  cases a with
  | run t' ch =>
    obtain ⟨op, rest, s₁, new, ht, he, rfl⟩ := step_run h
    exact .inl ⟨t', ch, op, rest, new, s₁, rfl, ht, he, exec_effect he, rfl⟩
  | iterate | leaveLoop | recvEnd =>
    simp only [step, Option.ite_none_right_eq_some, Option.some.injEq] at h
    obtain ⟨-, rfl⟩ := h
    exact .inr ⟨by simp, rfl, rfl, rfl, rfl, rfl, rfl, rfl, rfl, rfl, .rfl⟩
  | recv c =>
    obtain ⟨-, -, k, f, rest, -, -, rfl⟩ := step_recv h
    exact .inr ⟨by simp, rfl, rfl, rfl, rfl, rfl, rfl, rfl, rfl, rfl, .rfl⟩
  | requestShutdown | arrive =>
    cases h
    exact .inr ⟨by simp, rfl, rfl, rfl, rfl, rfl, rfl, rfl, rfl, rfl, .rfl⟩
  | rehash es =>
    simp only [step, Option.dite_none_right_eq_some, Option.some.injEq] at h
    obtain ⟨he, rfl⟩ := h
    exact .inr ⟨by simp, rfl, rfl, rfl, rfl, rfl, rfl, rfl, rfl, rfl, he⟩

/-- **The blocks a step leaves to run**: those there were, those the block leaves that was
run, and those a thread starts with. -/
theorem step_mem_todo (h : step s a = some s') (hop : op ∈ s'.todo t) :
    op ∈ s.todo t ∨
      (∃ ch op₀ rest s₁ new, a = .run t ch ∧ s.todo t = op₀ :: rest ∧
        s.exec t ch op₀ = some (s₁, new) ∧
        s' = s₁.setTodo t (new ++ rest) ∧ op ∈ new) ∨ Starts s t op := by
  by_cases ha : ∃ t ch, a = .run t ch
  · obtain ⟨t', ch, rfl⟩ := ha
    obtain ⟨op₀, rest, s₁, new, ht, he, rfl⟩ := step_run h
    by_cases htt : t = t'
    · subst htt
      simp only [setTodo, Function.update_self, List.mem_append] at hop
      rcases hop with hop | hop
      · exact .inr (.inl ⟨ch, op₀, rest, s₁, new, rfl, ht, he, rfl, hop⟩)
      · exact .inl (by rw [ht]; exact .tail _ hop)
    · simp only [setTodo, Function.update_of_ne htt, (exec_effect he).todo] at hop
      exact .inl hop
  · exact (step_todo h (fun t ch he => ha ⟨t, ch, he⟩) hop).imp id .inr

/-- **What every block passes on, and every thread starts with**, holds of all the blocks
there are to run. -/
theorem step_forall_todo {P : Tid → Op → Prop} (hP : ∀ t, ∀ op ∈ s.todo t, P t op)
    (hx : ∀ t ch op rest s₁ new, s.todo t = op :: rest → s.exec t ch op = some (s₁, new) → P t op →
      ∀ op' ∈ new, P t op')
    (hs : ∀ t op, Starts s t op → P t op) (h : step s a = some s') :
    ∀ t, ∀ op ∈ s'.todo t, P t op := by
  intro t op hop
  rcases step_mem_todo h hop with hop | ⟨ch, op₀, rest, s₁, new, -, ht, he, -, hop⟩ | hst
  · exact hP t op hop
  · exact hx t ch op₀ rest s₁ new ht he (hP t op₀ (mem_todo_head ht)) op hop
  · exact hs t op hst

/-- A block there was to run is still to be run, or it is the one that was run. -/
theorem step_keeps_todo (h : step s a = some s') (hop : op ∈ s.todo t) :
    op ∈ s'.todo t ∨ ∃ ch rest s₁ new, a = .run t ch ∧ s.todo t = op :: rest ∧
      s.exec t ch op = some (s₁, new) ∧
      s' = s₁.setTodo t (new ++ rest) := by
  have hset {t' : Tid} {l : List Op} (he : s.todo t' = []) :
      op ∈ Function.update s.todo t' l t := by
    by_cases htt : t = t'
    · subst htt
      rw [he] at hop
      cases hop
    · rwa [Function.update_of_ne htt]
  cases a with
  | run t' ch =>
    obtain ⟨op₀, rest, s₁, new, ht, he, rfl⟩ := step_run h
    by_cases htt : t = t'
    · subst htt
      rw [ht] at hop
      rcases List.mem_cons.mp hop with rfl | hop
      · exact .inr ⟨ch, rest, s₁, new, rfl, ht, he, rfl⟩
      · exact .inl (by simp [setTodo, hop])
    · exact .inl (by simpa [setTodo, htt, (exec_effect he).todo] using hop)
  | iterate | leaveLoop | recvEnd =>
    simp only [step, Bool.and_eq_true, List.isEmpty_iff, Option.ite_none_right_eq_some,
      Option.some.injEq] at h
    obtain ⟨⟨-, he⟩, rfl⟩ := h
    exact .inl (hset he)
  | recv c =>
    obtain ⟨-, he, k, f, rest, -, -, rfl⟩ := step_recv h
    exact .inl (hset he)
  | requestShutdown | arrive =>
    cases h
    exact .inl hop
  | rehash es =>
    simp only [step, Option.dite_none_right_eq_some, Option.some.injEq] at h
    obtain ⟨_, rfl⟩ := h
    exact .inl hop

/-- Only the accept thread accepts. -/
theorem Inv.main_of_accept (hI : Inv s) {rest : List Op} (ht : s.todo t = .accept :: rest) :
    t = .main := by
  cases t with
  | main => rfl
  | handler c =>
    have hn := (ht ▸ hI.handler c).next
    generalize s.stage c = st at hn
    generalize s.alive c = al at hn
    cases hn <;> simp_all [Op.Serves, Op.Announces]

/-- A descriptor that is open after a step was open before it, for the same connection,
or was returned by `::accept`. -/
theorem step_fds (hI : Inv s) (h : step s a = some s') (hk : s'.fds fd = some k) :
    s.fds fd = some k ∨
      ∃ ch rest, a = .run .main ch ∧ s.todo .main = .accept :: rest ∧ ch.fd = fd ∧ s.fds fd = none ∧
        k = s.nextConn := by
  rcases step_effect h with ⟨t, ch, op, rest, new, s₁, rfl, ht, -, hE, rfl⟩ | ⟨-, hq⟩
  · rcases hE.fds fd k hk with hk | ⟨rfl, hfd, hn, hkn⟩
    · exact .inl hk
    · obtain rfl := hI.main_of_accept ht
      exact .inr ⟨ch, rest, rfl, ht, hfd, hn, hkn⟩
  · exact .inl (by rw [← hq.fds, hk])

/-- What is written to a connection after a step was written before it, or is a frame
that a thread had to deliver to its descriptor. -/
theorem step_written (h : step s a = some s') (k : ConnId) :
    s'.written k = s.written k ∨
      ∃ t fd f, (fd, f) ∈ s.pending t ∧ s.fds fd = some k ∧ s'.written k = s.written k ++ [f] := by
  rcases step_effect h with ⟨t, ch, op, rest, new, s₁, rfl, ht, -, hE, rfl⟩ | ⟨-, hq⟩
  · rcases hE.written k with hw | ⟨fd, f, rfl, hk, -, hw⟩
    · exact .inl hw
    · exact .inr ⟨t, fd, f, mem_pending.mpr ⟨_, mem_todo_head ht, rfl⟩, hk, hw⟩
  · exact .inl (by rw [hq.written])

/-! ### Descriptor numbers that are given out again -/

/-- `::accept` does not return a descriptor number to which a thread has still to
deliver one of the frames `P`. -/
def NoReuse (P : Frame → Prop) (s : Server) : Action → Prop
  | .run .main ch => (s.todo .main).head? = some .accept →
      ∀ t ∈ s.threads, ∀ e ∈ s.pending t, e.1 = ch.fd → ¬ P e.2
  | _ => True

instance {P : Frame → Prop} [DecidablePred P] (s : Server) : ∀ a, Decidable (NoReuse P s a)
  | .run .main _ => inferInstanceAs (Decidable (_ → _))
  | .run (.handler _) _ | .iterate _ | .leaveLoop | .requestShutdown | .recv _ | .recvEnd _
  | .arrive _ _
  | .rehash _ => inferInstanceAs (Decidable True)

/-- A thread that has something to do is one of the threads. -/
theorem Inv.mem_threads (hI : Inv s) (h : s.todo t ≠ []) : t ∈ s.threads := by
  cases t with
  | main => exact .head _
  | handler c =>
    refine .tail _ (List.mem_map.mpr ⟨c, List.mem_range.mpr ?_, rfl⟩)
    by_contra hn
    have hto := hI.handler c
    rw [(hI.unborn_iff c).mpr (not_lt.mp hn)] at hto
    generalize hl : s.todo (.handler c) = l at hto h
    generalize s.alive c = al at hto
    cases hto <;> exact h rfl

/-- The frames `P`, to be delivered or written, are or were meant for the connection
they go to. -/
structure Addressed (P : Frame → Prop) (s : Server) : Prop where
  /-- A frame still to be delivered. -/
  pending : ∀ t fd f k, (fd, f) ∈ s.pending t → P f → s.fds fd = some k → f.MeantFor k
  /-- A frame written. -/
  written : ∀ k f, f ∈ s.written k → P f → f.MeantFor k

theorem addressed_init (P : Frame → Prop) (config : LoadedConfig) : Addressed P (init config) :=
  ⟨fun t fd f k h => by simp [Server.pending, init] at h, fun k f h => by simp [init] at h⟩

/-- **A step that does not reuse a descriptor number too early** keeps frames on their
way to the connections they were meant for. -/
theorem Addressed.step {P : Frame → Prop} (hA : Addressed P s) (hI : Inv s) (hc : NoReuse P s a)
    (h : step s a = some s') : Addressed P s' where
  pending t fd f k hp hP hk := by
    rcases step_pending hI h hp with hp' | hd | ⟨⟨r, hr, -⟩, hm⟩
    · rcases step_fds hI h hk with hk | ⟨ch, rest, rfl, ht, rfl, -⟩
      · exact hA.pending t fd f k hp' hP hk
      · -- the number was given out again, so nothing is on its way to it
        have hne : s.todo t ≠ [] := fun he => by simp [Server.pending, he] at hp'
        exact absurd hP (hc (by rw [ht]; rfl) t (hI.mem_threads hne) _ hp' rfl)
    · simp [Frame.MeantFor, hd]
    · rcases step_fds hI h hk with hk | ⟨ch, rest, rfl, ht, rfl, hn, -⟩
      · exact hm k hk
      · obtain ⟨c, hc', -⟩ := hI.owner _ r hr
        rw [hn] at hc'
        cases hc'
  written k f hf hP := by
    rcases step_written h k with hw | ⟨t, fd, f', hp, hk, hw⟩
    · exact hA.written k f (hw ▸ hf) hP
    · rw [hw, List.mem_append, List.mem_singleton] at hf
      rcases hf with hf | rfl
      · exact hA.written k f hf hP
      · exact hA.pending t fd f k hp hP hk

/-! ### Private messages -/

theorem exec_marked (hm : op.Marked) (h : s.exec t ch op = some (s', new)) :
    ∀ op' ∈ new, op'.Marked := by
  intro op' hop'
  cases exec_makes h op' hop' with
  | silent hs => exact hs.marked
  | broadcast hl => exact hl
  | rename => exact id
  | reply _ hp _ _ hd => exact Frame.Marked.op (fun h => absurd h hp) hd
  | greet => exact fun hp => absurd hp id
  | relay hd => exact hm.frame hd
  | announce ho => subst ho; exact fun hp => absurd hp hm
  | priv => exact fun _ => ⟨_, _, rfl⟩

/-- Every private message in the server says what it was caused by. -/
structure AllMarked (s : Server) : Prop where
  /-- To be delivered. -/
  todo : ∀ t op, op ∈ s.todo t → op.Marked
  /-- Written. -/
  written : ∀ k f, f ∈ s.written k → f.Marked

theorem AllMarked.step (hM : AllMarked s) (h : step s a = some s') : AllMarked s' where
  todo := by
    refine step_forall_todo hM.todo (fun t ch op rest s₁ new _ he hm => exec_marked hm he) ?_ h
    intro t op hs
    rcases hs.cases with hs | ⟨_, code, text, rfl⟩ | rfl
    · exact hs.marked
    · exact fun hp => absurd hp id
    · exact id
  written k f hf := by
    rcases step_written h k with hw | ⟨t, fd, f', hp, -, hw⟩
    · exact hM.written k f (hw ▸ hf)
    · rw [hw, List.mem_append, List.mem_singleton] at hf
      rcases hf with hf | rfl
      · exact hM.written k f hf
      · obtain ⟨op, hop, hd⟩ := mem_pending.mp hp
        exact (hM.todo t op hop).frame hd

theorem allMarked_of_run {config : LoadedConfig} (h : Run step (init config) s) : AllMarked s := by
  have h0 : AllMarked (init config) :=
    ⟨fun t op h => by simp [init] at h, fun k f h => by simp [init] at h⟩
  exact h.invariant h0 fun _ _ _ hM _ hs => hM.step hs

/-- Connection `k` is a client that uses a nickname. -/
def Holds (s : Server) (k : ConnId) (nickname : Bytes) : Prop :=
  ∃ r, s.fds (s.fdOf k) = some k ∧ s.clients.find? (s.fdOf k) = some r ∧ r.nickname = nickname

/-- **What routing makes**: a private message for a welcomed client that uses the nickname, and
not for the sender. -/
theorem routeMsg_priv {target text : Bytes} {serial : Option ℕ} {fd₀ : Fd}
    (hop : op ∈ s.routeMsg t fd₀ target text serial) (hd : op.delivery = some (fd, f))
    (hp : f.IsPriv) :
    f.serial = serial ∧ f.cause = .priv t.conn (s.fds fd) ∧ fd ≠ fd₀ ∧
      ∃ r, s.clients.find? fd = some r ∧ r.welcomed = true ∧ r.nickname = target := by
  unfold routeMsg at hop
  split at hop
  · cases hop
  · simp only at hop
    split_ifs at hop with h1 h2 <;> simp only [List.mem_cons, List.not_mem_nil, or_false] at hop
    · subst hop; cases hd; cases hp
    · subst hop; cases hd; cases hp
    · rcases hop with rfl | rfl <;> cases hd
      · exact ⟨rfl, rfl, h2, findTarget_spec h1⟩
      · cases hp

/-- **What `handle_msg` makes of a nickname**: the private message is for the connection
that holds it. -/
theorem routeMsg_holder (hI : Inv s) {target text : Bytes} {serial : Option ℕ} {fd₀ : Fd}
    (hop : op ∈ s.routeMsg t fd₀ target text serial) (hd : op.delivery = some (fd, f))
    (hp : f.IsPriv) : ∃ k, f.cause = .priv t.conn (some k) ∧ s.Holds k target := by
  obtain ⟨-, hcause, -, r, hr, -, hn⟩ := routeMsg_priv hop hd hp
  obtain ⟨k, hk, -⟩ := hI.owner _ r hr
  have he := ((hI.fds_iff _ _).mp hk).1
  exact ⟨k, by rw [hcause, hk], r, by rw [he, hk], by rw [he, hr], hn⟩

theorem addressed_of_run {P : Frame → Prop} {config : LoadedConfig}
    (h : RunIn step (NoReuse P) (init config) s) : Addressed P s := by
  refine (h.invariant (I := fun s => Inv s ∧ Addressed P s) ?_ ?_).2
  · exact ⟨inv_init config, addressed_init P config⟩
  · rintro s a s' ⟨hI, hA⟩ hc hs
    exact ⟨hI.step hs, hA.step hI hc hs⟩

/-- **A private message reaches the connection that held the nickname** when
`handle_msg` looked it up, in every run in which no descriptor number is given out
again while a private message is on its way to it. -/
theorem priv_written_to_holder {config : LoadedConfig}
    (h : RunIn step (NoReuse Frame.IsPriv) (init config) s) :
    (∀ k f, f ∈ s.written k → f.IsPriv → ∃ sender, f.cause = .priv sender (some k)) ∧
    ∀ t fd₀ target text serial, ∀ op ∈ s.routeMsg t fd₀ target text serial, ∀ fd f,
      op.delivery = some (fd, f) → f.IsPriv → ∃ k, f.cause = .priv t.conn (some k) ∧
        s.Holds k target := by
  refine ⟨?_, ?_⟩
  · intro k f hf hp
    obtain ⟨sender, holder, hc⟩ := (allMarked_of_run h.run).written k f hf hp
    have hm := (addressed_of_run h).written k f hf hp
    simp only [Frame.MeantFor, hc] at hm
    exact ⟨sender, by rw [hc, hm]⟩
  · intro t fd₀ target text serial op hop fd f hd hp
    exact routeMsg_holder (inv_of_run h.run) hop hd hp

/-- A thread runs its next `n` blocks. -/
def blocks (t : Tid) (n : ℕ) : List Action := List.replicate n (.run t {})

/-- A pass of the accept loop that looks at `entries` threads and admits a connection
on descriptor `fd`, up to the targets of the announcement. -/
def admits (fd : Fd) (entries : ℕ) : List Action :=
  .iterate true :: (blocks .main (entries + 1) ++ .run .main { fd := fd } :: blocks .main 6)

/-- Two clients join, and the first starts to send the second a private message. -/
def privStarted : List Action :=
  admits 5 0 ++ admits 6 1 ++ blocks .main 1 ++
    (.arrive 0 ⟨bytes "/msg User2 hi", none⟩ :: .recv 0 :: blocks (.handler 0) 1)

set_option maxRecDepth 4000 in
theorem priv_written_to_second : ∃ s : Server, s.written 1 = [welcomeFrame (bytes "User2"),
      ⟨.priv (bytes "User1") (bytes "hi"), .priv (some 0) (some 1), none⟩] ∧
    ∀ k f, f ∈ s.written k → f.IsPriv → ∃ sender, f.cause = .priv sender (some k) := by
  have h :
    (execAllIn step (NoReuse Frame.IsPriv) (init .default)
      (privStarted ++ blocks (.handler 0) 2)).map
      (fun s => s.written 1) = some [welcomeFrame (bytes "User2"),
        ⟨.priv (bytes "User1") (bytes "hi"), .priv (some 0) (some 1), none⟩] := by decide
  obtain ⟨s, hs, hw⟩ := exists_runIn_of_execAllIn h
  exact ⟨s, hw, (priv_written_to_holder hs).1⟩

set_option maxRecDepth 4000 in
/-- The second client leaves while the message is on its way, and a third is accepted
on its descriptor: the message is the first frame the third one gets. -/
theorem priv_written_to_stranger :
    ¬ ∀ s, Run step (init .default) s → ∀ k f, f ∈ s.written k → f.IsPriv →
    ∃ sender, f.cause = .priv sender (some k) := by
  intro hall
  have h : (execAll step (init .default) (privStarted ++ .recvEnd 1 :: (blocks (.handler 1) 5 ++
      .iterate true :: (blocks .main 4 ++ .run .main { fd := 6 } :: blocks .main 1) ++
      blocks (.handler 0) 2))).map
      (fun s => s.written 2) =
      some [⟨.priv (bytes "User1") (bytes "hi"), .priv (some 0) (some 1), none⟩] := by
    decide
  obtain ⟨s, hs, hw⟩ := exists_run_of_execAll h
  have hf := hall s hs 2
  rw [hw] at hf
  obtain ⟨sender, hc⟩ := hf _ (.head _) trivial
  simp at hc

end Server

end ThreadLink.Backend
