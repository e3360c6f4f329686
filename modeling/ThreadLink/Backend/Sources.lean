import ThreadLink.Backend.Renames

/-!
# Where messages come from

A message line of the server quotes a line a client has sent: its text, and for a private
one the nickname it names. This module follows each such line from the client's frame to
every frame it is written in.

## What is proved

* `handleLine_of_chats`, `handleLine_of_messages` — what the server takes for a chat line,
  and for a private message.
* `Sourced` — every message that is to be written or has been written quotes a frame of the
  client that caused it. What a client may have sent is a parameter.
-/

namespace ThreadLink.Backend

open Text Runs

/-- A word: ASCII, without a blank. -/
def IsWord (w : Bytes) : Prop := ∀ b ∈ w, IsAscii b ∧ b ≠ 32

instance (w : Bytes) : Decidable (IsWord w) := inferInstanceAs (Decidable (∀ b ∈ w, _ ∧ _))

theorem isWord_of_valid {n : Bytes} (h : isValidNickname n = true) : IsWord n := by
  intro b hb
  have hr := isNicknameByte_range ((isValidNickname_iff.mp h).2.2 b hb)
  refine ⟨show b.toNat < 0x80 by omega, ?_⟩
  rintro rfl
  exact absurd hr.1 (by decide)

/-! ### What a client says -/

/-- The frame says a text to everybody. -/
def ClientFrame.Chats (f : ClientFrame) (text : Bytes) : Prop :=
  stripLine f.payload = text ∧ text ≠ [] ∧ text.head? ≠ some 47

/-- The frame says a text to whoever uses a nickname. -/
def ClientFrame.Messages (f : ClientFrame) (target text : Bytes) : Prop :=
  (splitFirst (stripLine f.payload)).1 = bytes "/msg" ∧
    splitFirst (splitFirst (stripLine f.payload)).2 = (target, text) ∧ target ≠ [] ∧ text ≠ []

variable {cfg : Config} {fd fd₀ : Fd} {f : ClientFrame} {target text : Bytes} {serial : Option ℕ}

/-- A frame that is not too large is handled as a line. -/
theorem handleFrame_of_fits (h : f.payload.length ≤ cfg.maxMessageSize) (fd : Fd) :
    handleFrame cfg fd f = handleLine fd f.payload f.serial :=
  if_neg (Nat.not_lt.mpr h)

theorem handleLine_of_chats (h : f.Chats text) (fd : Fd) :
    handleLine fd f.payload f.serial = [.handleChat fd text f.serial] := by
  obtain ⟨rfl, hne, hh⟩ := h
  have he : (stripLine f.payload).isEmpty = false := by simpa using hne
  simp only [handleLine, he, Bool.false_eq_true, if_false, if_neg hh]

/-- A line starts with its first word. -/
theorem head?_of_word {l w : Bytes} {b : UInt8} (h : (splitFirst l).1 = b :: w) :
    l.head? = some b := by
  cases l with
  | nil => cases h
  | cons a l =>
    have h' : (a :: l).takeWhile (· ≠ 32) = b :: w := h
    rw [List.takeWhile_cons] at h'
    split at h'
    · rw [List.head_eq_of_cons_eq h']
      rfl
    · cases h'

theorem head?_of_messages (h : f.Messages target text) :
    (stripLine f.payload).isEmpty = false ∧ (stripLine f.payload).head? = some 47 := by
  have hh := head?_of_word (b := 47) (w := bytes "msg") h.1
  refine ⟨?_, hh⟩
  cases hl : stripLine f.payload with
  | nil => rw [hl] at hh; cases hh
  | cons => rfl

theorem handleLine_of_messages (h : f.Messages target text) (fd : Fd) :
    handleLine fd f.payload f.serial = [.handleMsg fd target text f.serial] := by
  obtain ⟨he, hh⟩ := head?_of_messages h
  obtain ⟨h1, h2, ht, hx⟩ := h
  have hne : bytes "/msg" ≠ bytes "/nick" := by decide
  have ht' : target.isEmpty = false := by simpa using ht
  have hx' : text.isEmpty = false := by simpa using hx
  simp only [handleLine, he, hh, h1, hne, Bool.false_eq_true, if_false, if_true, handleMsg, h2,
    ht', hx',
    Bool.or_self]

/-- A block that handles a chat line or a private message handles this one, and one that
delivers a frame delivers an error. -/
def ClientFrame.Asks (f : ClientFrame) : Op → Prop
  | .handleChat _ text serial => serial = f.serial ∧ f.Chats text
  | .handleMsg _ target text serial => serial = f.serial ∧ f.Messages target text
  | .sendToFd _ f => ∃ code text, f.line = .err code text ∧ IsWord code
  | .sendFrame _ _ | .broadcast _ _ _ _ => False
  | _ => True

/-- **What the server takes for a chat line**, and what for a private message. -/
theorem asks_of_handleFrame {op : Op} (hop : op ∈ handleFrame cfg fd₀ f) : f.Asks op := by
  have herr {code text : Bytes} (hc : IsWord code) (hop : op ∈ [sendError fd₀ code text]) :
      f.Asks op := by
    rw [List.mem_singleton.mp hop]
    exact ⟨code, text, rfl, hc⟩
  unfold handleFrame at hop
  split_ifs at hop
  · rcases List.mem_cons.mp hop with rfl | hop
    · exact herr (by decide) (.head _)
    · simp only [teardown, List.mem_cons, List.not_mem_nil, or_false] at hop
      rcases hop with rfl | rfl | rfl <;> trivial
  · simp only [handleLine] at hop
    split_ifs at hop with he hh h1 h2 h3 h4
    · cases hop
    · unfold handleNick at hop
      split at hop
      · exact herr (by decide) hop
      · exact herr (by decide) hop
      · split_ifs at hop
        · rw [List.mem_singleton.mp hop]; trivial
        · exact herr (by decide) hop
    · unfold handleMsg at hop
      simp only at hop
      split_ifs at hop with hu
      · exact herr (by decide) hop
      · rw [List.mem_singleton.mp hop]
        simp only [Bool.or_eq_true, not_or, Bool.not_eq_true, List.isEmpty_eq_false_iff] at hu
        exact ⟨rfl, h2, rfl, hu.1, hu.2⟩
    · rw [List.mem_singleton.mp hop]; trivial
    · simp only [teardown, List.mem_cons, List.not_mem_nil, or_false] at hop
      rcases hop with rfl | rfl | rfl <;> trivial
    · exact herr (by decide) hop
    · rw [List.mem_singleton.mp hop]
      exact ⟨rfl, rfl, by simpa using he, hh⟩

/-! ### Who is quoted -/

/-- A line that quotes nobody and names nobody. -/
def ServerLine.Plain : ServerLine → Prop
  | .sys _ | .list _ => True
  | .err code _ => IsWord code
  | _ => False

/-- A line that quotes a client. -/
def ServerLine.IsMessage : ServerLine → Prop
  | .msg _ _ | .priv _ _ | .privSent _ _ => True
  | _ => False

theorem ServerLine.IsMessage.not_plain {line : ServerLine} (h : line.IsMessage) : ¬ line.Plain := by
  cases line <;> first | exact h.elim | exact id

theorem ServerLine.IsMessage.not_names {line : ServerLine} (h : line.IsMessage) : ¬ line.Names := by
  cases line <;> first | exact h.elim | exact id

/-- The frame quotes what connection `c` has sent, if `Q` is what connections have sent. -/
def Frame.Quotes (Q : ConnId → ClientFrame → Prop) (c : ConnId) (f : Frame) : Prop :=
  match f.line with
  | .msg n text => isValidNickname n = true ∧ (∃ taken, f.cause = .broadcast (some c) taken) ∧
      ∃ g, Q c g ∧ g.serial = f.serial ∧ g.Chats text
  | .priv n text => isValidNickname n = true ∧ (∃ holder, f.cause = .priv (some c) holder) ∧
      ∃ g target, Q c g ∧ g.serial = f.serial ∧ g.Messages target text
  | .privSent r text => isValidNickname r = true ∧ f.cause = .direct ∧
      ∃ g, Q c g ∧ g.serial = f.serial ∧ g.Messages r text
  | _ => False

/-- Thread `t` says a frame: it quotes nobody, or the client of the thread. -/
def Frame.Sourced (Q : ConnId → ClientFrame → Prop) (t : Tid) (f : Frame) : Prop :=
  f.line.Plain ∨ f.line.Names ∨ ∃ c, t = .handler c ∧ f.Quotes Q c

/-- So does a block, or it handles what the client has sent. -/
def Op.Sourced (Q : ConnId → ClientFrame → Prop) (t : Tid) : Op → Prop
  | .broadcast line _ about serial =>
    ∀ taken, Frame.Sourced Q t ⟨line, .broadcast about taken, serial⟩
  | .sendToFd _ f | .sendFrame _ f => f.Sourced Q t
  | .handleChat _ text serial => ∃ c g, t = .handler c ∧ Q c g ∧ g.serial = serial ∧ g.Chats text
  | .handleMsg _ target text serial =>
    ∃ c g, t = .handler c ∧ Q c g ∧ g.serial = serial ∧ g.Messages target text
  | _ => True

theorem Frame.Quotes.mono {Q R : ConnId → ClientFrame → Prop} (hQR : ∀ c f, Q c f → R c f)
    {c : ConnId} {f : Frame} (h : f.Quotes Q c) : f.Quotes R c := by
  unfold Frame.Quotes at h ⊢
  split
  · obtain ⟨h1, h2, g, hg, h3⟩ := by simpa only [‹f.line = _›] using h
    exact ⟨h1, h2, g, hQR c g hg, h3⟩
  · obtain ⟨h1, h2, g, target, hg, h3⟩ := by simpa only [‹f.line = _›] using h
    exact ⟨h1, h2, g, target, hQR c g hg, h3⟩
  · obtain ⟨h1, h2, g, hg, h3⟩ := by simpa only [‹f.line = _›] using h
    exact ⟨h1, h2, g, hQR c g hg, h3⟩
  · split at h <;> simp_all

theorem Frame.Sourced.mono {Q R : ConnId → ClientFrame → Prop} (hQR : ∀ c f, Q c f → R c f)
    {t : Tid} {f : Frame} (h : f.Sourced Q t) : f.Sourced R t :=
  h.imp id (Or.imp id fun ⟨c, ht, hq⟩ => ⟨c, ht, hq.mono hQR⟩)

theorem Op.Sourced.mono {Q R : ConnId → ClientFrame → Prop} (hQR : ∀ c f, Q c f → R c f) {t : Tid}
    {op : Op} (h : op.Sourced Q t) : op.Sourced R t := by
  cases op with
  | broadcast => exact fun taken => (h taken).mono hQR
  | sendToFd | sendFrame => exact Frame.Sourced.mono hQR h
  | handleChat =>
    obtain ⟨c, g, ht, hg, hr⟩ := h
    exact ⟨c, g, ht, hQR c g hg, hr⟩
  | handleMsg =>
    obtain ⟨c, g, ht, hg, hr⟩ := h
    exact ⟨c, g, ht, hQR c g hg, hr⟩
  | _ => trivial

/-- Nothing is quoted where no frame or line is said. -/
theorem Op.Sourced.of_plain {Q : ConnId → ClientFrame → Prop} {t : Tid} {op : Op}
    (hl : ∀ line ∈ op.line, line.Plain) (hh : ¬ op.Handles) : op.Sourced Q t := by
  cases op with
  | broadcast line => exact fun _ => .inl (hl line rfl)
  | sendToFd _ f | sendFrame _ f => exact .inl (hl f.line rfl)
  | handleChat | handleMsg => exact absurd trivial hh
  | _ => trivial

namespace Server

variable {Q : ConnId → ClientFrame → Prop} {s s' : Server} {t : Tid} {ch : Choice} {op : Op}
  {new rest : List Op}
  {a : Action} {k : ConnId}

/-- What a block makes its thread say. -/
inductive Says (s : Server) (t : Tid) (op : Op) : Op → Prop
  /-- Nothing, or what quotes nobody. -/
  | plain {op' : Op} (h : ∀ line ∈ op'.line, line.Plain) (hh : ¬ op'.Handles) : Says s t op op'
  /-- What somebody is called. -/
  | names {op' : Op} {line : ServerLine} (h : op'.line = some line) (hn : line.Names)
    (hh : ¬ op'.Handles) : Says s t op op'
  /-- A chat line of its client. -/
  | chat {fd : Fd} {text : Bytes} {serial : Option ℕ} {r : ClientRecord}
    (h : op = .handleChat fd text serial)
      (hr : s.clients.find? fd = some r) :
      Says s t op (.broadcast (.msg r.nickname text) fd t.conn serial)
  /-- A private message of its client. -/
  | priv {fd : Fd} {target text : Bytes} {serial : Option ℕ} {r : ClientRecord}
    (h : op = .handleMsg fd target text serial)
      (hr : s.clients.find? fd = some r) :
      Says s t op (.sendToFd (s.findTarget target)
        ⟨.priv r.nickname text, .priv t.conn (s.fds (s.findTarget target)), serial⟩)
  /-- That it has been sent. -/
  | privSent {fd : Fd} {target text : Bytes} {serial : Option ℕ} {r : ClientRecord}
      (h : op = .handleMsg fd target text serial)
        (hr : s.clients.find? (s.findTarget target) = some r)
      (hn : r.nickname = target) :
      Says s t op (.sendToFd fd ⟨.privSent target text, .direct, serial⟩)
  /-- What the block was to say itself. -/
  | relay {fd : Fd} {f : Frame} (h : op.delivery = some (fd, f)) : Says s t op (.sendFrame fd f)
  /-- What it was to broadcast. -/
  | announce {line : ServerLine} {excludeFd fd : Fd} {about : Option ConnId} {serial : Option ℕ}
      (h : op = .broadcast line excludeFd about serial) :
      Says s t op (.sendFrame fd ⟨line, .broadcast about s.nextConn, serial⟩)

theorem says_error (fd : Fd) {code : Bytes} (hc : IsWord code) (text : Bytes) :
    Says s t op (sendError fd code text) :=
  .plain (fun line hl => by
    obtain rfl := Option.some.inj hl
    exact hc) id

theorem says_silent {op' : Op} (hs : op'.Silent) (hh : ¬ op'.Handles) : Says s t op op' :=
  .plain (fun line hl => by rw [hs.line] at hl; cases hl) hh

theorem says_routeMsg (s : Server) (t : Tid) (fd : Fd) (target text : Bytes) (serial : Option ℕ) :
    ∀ op' ∈ s.routeMsg t fd target text serial,
    Says s t (.handleMsg fd target text serial) op' := by
  unfold routeMsg
  split
  · simp
  · rename_i r hr
    simp only
    split_ifs with h1 h2
    · exact forall_mem_singleton (says_error _ (by decide) _)
    · exact forall_mem_singleton (says_error _ (by decide) _)
    · obtain ⟨r', hr', -, hn⟩ := findTarget_spec h1
      exact List.forall_mem_cons.mpr ⟨.priv rfl hr, forall_mem_singleton (.privSent rfl hr' hn)⟩

theorem says_renameClient (s : Server) (t : Tid) (fd : Fd) (newNick : Bytes) :
    ∀ op' ∈ (s.renameClient t fd newNick).2, Says s t (.handleNick fd newNick) op' := by
  unfold renameClient
  split
  · exact forall_mem_singleton (says_error _ (by decide) _)
  · split
    · simp
    · exact forall_mem_singleton (.names rfl trivial id)

theorem says_eraseClient (s : Server) (t : Tid) (fd : Fd) :
    ∀ op' ∈ (s.eraseClient t fd).2, Says s t (.eraseClient fd) op' := by
  unfold eraseClient
  split
  · simp
  · simp only
    split_ifs
    · simp
    · exact forall_mem_singleton (.plain (fun line hl => Option.some.inj hl ▸ trivial) id)

/-- **What a block makes its thread say.** -/
theorem exec_says (h : s.exec t ch op = some (s', new)) : ∀ op' ∈ new, Says s t op op' := by
  cases exec_done h with
  | unsent | unsaid => simp
  | sent => exact forall_mem_singleton (.relay rfl)
  | broadcast =>
    intro op' hop'
    obtain ⟨fd, -, rfl⟩ := List.mem_map.mp hop'
    exact .announce rfl
  | routed => exact says_routeMsg s t _ _ _ _
  | renamed => exact says_renameClient s t _ _
  | erased => exact says_eraseClient s t _
  | listed => exact forall_mem_singleton (.plain (fun line hl => Option.some.inj hl ▸ trivial) id)
  | said hr => exact forall_mem_singleton (.chat rfl hr)
  | full =>
    refine List.forall_mem_cons.mpr
      ⟨.plain ?_ id, forall_mem_singleton (says_silent ⟨rfl, by simp⟩ id)⟩
    intro line hl
    obtain rfl := Option.some.inj hl
    exact show IsWord (bytes "SERVER_FULL") by decide
  | registered hf hn =>
    simp only [afterWelcome, List.forall_mem_cons]
    exact ⟨.names rfl trivial id, says_silent ⟨rfl, by simp⟩ id, says_silent ⟨rfl, by simp⟩ id,
      .plain (fun line hl => Option.some.inj hl ▸ trivial) id, by simp⟩
  | _ =>
    have hm := fun hm => exec_mute hm h
    exact fun op' hop' => says_silent (hm trivial op' hop').1 (hm trivial op' hop').2

/-! ### What is kept -/

/-- A rename or a WELCOME is not quoted from anybody. -/
theorem Op.sourced_of_names {op : Op} {line : ServerLine} (h : op.line = some line)
    (hn : line.Names) (hh : ¬ op.Handles) : op.Sourced Q t := by
  cases op with
  | broadcast =>
    obtain rfl := Option.some.inj h
    exact fun _ => .inr (.inl hn)
  | sendToFd _ f | sendFrame _ f =>
    obtain rfl := Option.some.inj h
    exact .inr (.inl hn)
  | handleChat | handleMsg => exact absurd trivial hh
  | _ => trivial

theorem exec_sourced (hN : Named s) (hS : op.Sourced Q t) (h : s.exec t ch op = some (s', new)) :
    ∀ op' ∈ new, op'.Sourced Q t := by
  intro op' hop'
  cases exec_says h op' hop' with
  | plain hl hh => exact .of_plain hl hh
  | names hl hn hh => exact Op.sourced_of_names hl hn hh
  | chat hop hr =>
    subst hop
    obtain ⟨c, g, rfl, hg, hs, hc⟩ := hS
    exact fun taken => .inr (.inr ⟨c, rfl, hN.registry.valid _ _ hr, ⟨taken, rfl⟩, g, hg, hs, hc⟩)
  | priv hop hr =>
    subst hop
    obtain ⟨c, g, rfl, hg, hs, hc⟩ := hS
    exact .inr (.inr ⟨c, rfl, hN.registry.valid _ _ hr, ⟨_, rfl⟩, g, _, hg, hs, hc⟩)
  | privSent hop hr hn =>
    subst hop
    obtain ⟨c, g, rfl, hg, hs, hc⟩ := hS
    exact .inr (.inr ⟨c, rfl, hn ▸ hN.registry.valid _ _ hr, rfl, g, hg, hs, hc⟩)
  | relay hd =>
    cases op <;> cases hd <;> exact hS
  | announce hop =>
    subst hop
    exact hS _

/-- What a thread starts with handles what has been received. -/
theorem Starts.sourced (hs : Starts s t op) (hI : Inv s) (hQ : ∀ c, ∀ f ∈ s.inbox c, Q c f) :
    op.Sourced Q t := by
  cases hs with
  | @frame c k f _ ha hi hk hf h =>
    have hst := hI.serving_of_idle ha hi
    rw [hI.fds_fdOf (hst ▸ ⟨by decide, by decide⟩)] at hk
    obtain rfl := Option.some.inj hk
    have hasks := asks_of_handleFrame h
    cases op with
    | handleChat => exact ⟨c, f, rfl, hQ c f hf, hasks.1.symm, hasks.2⟩
    | handleMsg => exact ⟨c, f, rfl, hQ c f hf, hasks.1.symm, hasks.2⟩
    | sendToFd _ f' =>
      obtain ⟨code, text, hl, hc⟩ := hasks
      exact .inl (hl ▸ hc)
    | sendFrame | broadcast => exact hasks.elim
    | _ => trivial
  | leave h =>
    simp only [teardown, List.mem_cons, List.not_mem_nil, or_false] at h
    rcases h with rfl | rfl | rfl <;> trivial
  | pass h => rcases h with rfl | rfl <;> trivial
  | stop h =>
    simp only [shutdownAll, List.mem_cons, List.not_mem_nil, or_false] at h
    rcases h with rfl | rfl | rfl | rfl
    · exact .of_plain (fun line hl => Option.some.inj hl ▸ trivial) id
    all_goals trivial

/-- **Every message quotes what a client has sent**, where `Q` is what clients have sent. -/
structure Sourced (Q : ConnId → ClientFrame → Prop) (s : Server) : Prop where
  /-- What has been sent and not been received. -/
  inbox : ∀ c, ∀ f ∈ s.inbox c, Q c f
  /-- What is to be said. -/
  todo : ∀ t, ∀ op ∈ s.todo t, op.Sourced Q t
  /-- What has been written. -/
  written : ∀ k, ∀ f ∈ s.written k, f.line.Plain ∨ f.line.Names ∨
    ∃ c, f.Quotes Q c ∧ (f.cause = .direct → c = k)

theorem sourced_init (config : LoadedConfig) : Sourced Q (init config) :=
  ⟨fun c f h =>
    by simp [init] at h, fun t op h => by simp [init] at h, fun k f h => by simp [init] at h⟩

theorem Sourced.mono {R : ConnId → ClientFrame → Prop} (hQR : ∀ c f, Q c f → R c f)
    (h : Sourced Q s) : Sourced R s where
  inbox c f hf := hQR c f (h.inbox c f hf)
  todo t op hop := (h.todo t op hop).mono hQR
  written k f hf := (h.written k f hf).imp id (Or.imp id fun ⟨c, hq, hd⟩ => ⟨c, hq.mono hQR, hd⟩)

/-- What is in an inbox was there, or has arrived. -/
theorem mem_inbox_of_step (h : step s a = some s') {c : ConnId} {f : ClientFrame}
    (hf : f ∈ s'.inbox c) : f ∈ s.inbox c ∨ a = .arrive c f := by
  cases a with
  | run t ch =>
    obtain ⟨op, rest, s₁, new, -, he, rfl⟩ := step_run h
    left
    rw [← (exec_effect he).inbox]
    exact hf
  | recv c' =>
    obtain ⟨-, -, k, g, rest, -, hg, rfl⟩ := step_recv h
    left
    by_cases hc : c = k
    · subst hc
      rw [hg]
      exact List.mem_cons_of_mem _ (by simpa using hf)
    · simpa [hc] using hf
  | arrive c' g =>
    obtain rfl := Option.some.inj h
    by_cases hc : c = c'
    · subst hc
      simp only [Function.update_self, List.mem_append, List.mem_singleton] at hf
      exact hf.imp id fun hf => by rw [hf]
    · exact .inl (by simpa [hc] using hf)
  | iterate | leaveLoop | recvEnd =>
    simp only [step, Option.ite_none_right_eq_some, Option.some.injEq] at h
    obtain ⟨-, rfl⟩ := h
    exact .inl hf
  | requestShutdown =>
    obtain rfl := Option.some.inj h
    exact .inl hf
  | rehash es =>
    simp only [step, Option.dite_none_right_eq_some, Option.some.injEq] at h
    obtain ⟨_, rfl⟩ := h
    exact .inl hf

/-- **Every step** passes on where messages come from. -/
theorem Sourced.step (hS : Sourced Q s) (hI : Inv s) (hN : Named s)
    (ha : ∀ c f, a = .arrive c f → Q c f) (h : step s a = some s') : Sourced Q s' where
  inbox c f hf := (mem_inbox_of_step h hf).elim (hS.inbox c f) (ha c f)
  todo := step_forall_todo hS.todo (fun _ _ _ _ _ _ _ he hop => exec_sourced hN hop he)
    (fun _ _ hs => hs.sourced hI hS.inbox) h
  written k f hf := by
    rcases step_writes h k with hw | ⟨t, ch, rest, fd, f', rfl, ht, hfd, -, -, hw⟩
    · exact hS.written k f (hw ▸ hf)
    · rw [hw, List.mem_append, List.mem_singleton] at hf
      rcases hf with hf | rfl
      · exact hS.written k f hf
      · refine Or.imp id (Or.imp id fun ⟨c, hc, hq⟩ => ⟨c, hq, ?_⟩) (hS.todo t _ (mem_todo_head ht))
        intro hd
        subst hc
        exact Option.some.inj ((hI.own_of_direct ht hd).1.symm.trans hfd)

/-- **A frame that has been written is legible.** -/
theorem Sourced.names_valid (hS : Sourced Q s) (hP : Spoken s) {f : Frame} (hf : f ∈ s.written k) :
    match f.line with
    | .welcome n | .msg n _ | .priv n _ | .privSent n _ => isValidNickname n = true
    | .nick o n => isValidNickname o = true ∧ isValidNickname n = true
    | .err code _ => IsWord code
    | .sys _ | .list _ => True := by
  have hw := hP.welcome k f hf
  have hn := hP.nick k f hf
  have hs := hS.written k f hf
  unfold Frame.Quotes at hs
  generalize f.line = line at hw hn hs ⊢
  cases line with
  | welcome n => exact hw n rfl
  | nick o n => exact ⟨(hn o n rfl).1, (hn o n rfl).2.1⟩
  | sys | list => trivial
  | err => exact hs.elim id fun h => h.elim (fun h => h.elim) fun ⟨_, h, _⟩ => h.elim
  | msg | priv | privSent =>
    rcases hs with h | h | ⟨_, h, -⟩
    · exact h.elim
    · exact h.elim
    · exact h.1

end Server

end ThreadLink.Backend
