import ThreadLink.Backend.Welcome

/-!
# Renames under way

The server changes the registry under its lock and says so after it has released it. So
there are clients that have been registered or renamed and have not been told yet. This
module has what holds of them in every run.

## What is proved

* `Spoken` — only the accept thread says WELCOME, and only the handler thread of a
  connection announces a rename of it.
* `find?_step`, `find?_keeps` — who is given a nickname by a step, and who keeps it.
* `Renaming` — a connection is renamed once at a time, and uses the new nickname while
  the rename is announced.
* `Fresh` — a connection that has not been welcomed has been told no name of its own;
  `Introduced` — nor has one that is welcomed only now.
-/

namespace ThreadLink.Backend

open Text Runs

/-! ### What a client hears -/

/-- The nickname a client goes by after a frame. -/
def hear (name : Option Bytes) (f : Frame) : Option Bytes :=
  match f.line with
  | .welcome n => some n
  | .nick o n => if name = some o then some n else name
  | _ => name

/-- The nickname a client goes by after all its frames. -/
def announced (l : List Frame) : Option Bytes := l.foldl hear none

@[simp] theorem announced_concat (l : List Frame) (f : Frame) :
    announced (l ++ [f]) = hear (announced l) f := by
  simp [announced]

/-- The connection a frame says something about, if it is part of a broadcast. -/
def Frame.about (f : Frame) : Option ConnId :=
  match f.cause with
  | .broadcast about _ => about
  | _ => none

/-- The nickname connection `k` would go by if it heard of no other renames than its own. -/
def hearOwn (k : ConnId) (name : Option Bytes) (f : Frame) : Option Bytes :=
  match f.line with
  | .welcome n => some n
  | .nick _ n => if f.about = some k then some n else name
  | _ => name

/-- The line a block is to deliver or to broadcast. -/
def Op.line : Op → Option ServerLine
  | .broadcast line _ _ _ => some line
  | .sendToFd _ f | .sendFrame _ f => some f.line
  | _ => none

theorem Op.line_of_delivery {op : Op} {fd : Fd} {f : Frame} (h : op.delivery = some (fd, f)) :
    op.line = some f.line := by
  cases op <;> cases h <;> rfl

theorem Op.Silent.line {op : Op} (h : op.Silent) : op.line = none := by
  obtain ⟨hd, hb⟩ := h
  cases op with
  | sendToFd | sendFrame => cases hd
  | broadcast => exact absurd rfl (hb _ _ _ _)
  | _ => rfl

/-- What a thread may say of what somebody is called. -/
structure Op.Speaks (t : Tid) (op : Op) : Prop where
  /-- The accept thread welcomes. -/
  welcome : ∀ n, op.line = some (.welcome n) →
    t = .main ∧ isValidNickname n = true ∧ ∃ fd, op.delivery = some (fd, Server.welcomeFrame n)
  /-- A handler thread announces renames of its own client. -/
  nick : ∀ o n, op.line = some (.nick o n) → ∃ c, t = .handler c ∧ isValidNickname o = true ∧
    isValidNickname n = true ∧
    ((∃ serial, op = .broadcast (.nick o n) (-1) (some c) serial) ∨
      ∃ fd taken serial, op = .sendFrame fd ⟨.nick o n, .broadcast (some c) taken, serial⟩)

theorem Op.Speaks.of_line {t : Tid} {op : Op} (h : ∀ line ∈ op.line, ¬ line.Names) : op.Speaks t :=
  ⟨fun _ hl => absurd trivial (h _ hl), fun _ _ hl => absurd trivial (h _ hl)⟩

namespace Server

variable {s s' : Server} {t : Tid} {ch : Choice} {op : Op} {rest new : List Op} {a : Action}
  {fd : Fd} {f : Frame}
  {f₀ : ClientFrame} {c k : ConnId} {o n : Bytes}

/-! ### Who says it -/

/-- A block that handles a line is run by the handler thread of its client. -/
theorem Inv.handler_of_handles (hI : Inv s) (ht : s.todo t = op :: rest) (hh : op.Handles) :
    ∃ c, t = .handler c ∧ s.stage c = .serving ∧ op.Serves (s.fdOf c) := by
  cases t with
  | main =>
    cases hI.main_next ht with
    | control hc => cases op <;> first | exact hc.elim | exact hh.elim
    | accept => exact hh.elim
    | admission ha => cases ha <;> exact hh.elim
  | handler c =>
    have hn := (ht ▸ hI.handler c).next
    generalize hst : s.stage c = st at hn
    generalize s.alive c = al at hn
    cases hn with
    | serves h => exact ⟨c, rfl, hst, h⟩
    | announces h => cases op <;> first | exact h.elim | exact hh.elim
    | erase | close | «end» => exact hh.elim

/-- So is the block that erases the record, the last for which the thread needs it. -/
theorem Inv.handler_of_erase (hI : Inv s) (ht : s.todo t = .eraseClient fd :: rest) :
    ∃ c, t = .handler c ∧ s.stage c = .serving ∧ fd = s.fdOf c ∧
      rest = [.closeFd fd, .endThread] := by
  cases t with
  | main =>
    cases hI.main_next ht with
    | control hc => exact hc.elim
    | admission ha => cases ha
  | handler c =>
    have hn := (ht ▸ hI.handler c).next
    generalize hst : s.stage c = st at hn
    generalize s.alive c = al at hn
    cases hn with
    | serves h => exact h.elim
    | announces h => exact h.elim
    | erase => exact ⟨c, rfl, hst, rfl, rfl⟩

/-- Registering is up to the accept thread. -/
theorem Inv.main_of_register (hI : Inv s) (ht : s.todo t = .register fd c :: rest) :
    t = .main ∧ s.fdOf c = fd ∧ rest = [] := by
  cases t with
  | main =>
    cases hI.main_next ht with
    | control h => exact h.elim
    | admission ha => cases ha with | register h => exact ⟨rfl, rfl, rfl⟩
  | handler c =>
    have hn := (ht ▸ hI.handler c).next
    generalize s.stage c = st at hn
    generalize s.alive c = al at hn
    cases hn with
    | serves h => exact h.elim
    | announces h => exact h.elim

/-- **Where a block with a NICK line comes from**: one with the same line, or the block of
`handle_nick`. -/
theorem exec_nick (h : s.exec t ch op = some (s', new)) {op' : Op} (hop : op' ∈ new)
    (hl : op'.line = some (.nick o n)) : op.line = some (.nick o n) ∨
      ∃ fd r, op = .handleNick fd n ∧ s.taken fd n = false ∧ s.clients.find? fd = some r ∧
        r.nickname = o := by
  cases exec_makes h op' hop with
  | silent hs => rw [hs.line] at hl; cases hl
  | broadcast _ hn =>
    obtain rfl := Option.some.inj hl
    exact absurd trivial hn
  | @rename fd newNick r hop' hnt hr =>
    simp only [Op.line, Option.some.injEq, ServerLine.nick.injEq] at hl
    obtain ⟨rfl, rfl⟩ := hl
    exact .inr ⟨fd, r, hop', hnt, hr, rfl⟩
  | reply _ _ hn _ hd =>
    rw [Op.line_of_delivery hd] at hl
    rw [Option.some.inj hl] at hn
    exact absurd trivial hn
  | greet => simp [Op.line, welcomeFrame] at hl
  | relay hd => exact .inl (by rw [Op.line_of_delivery hd]; exact hl)
  | announce hop' =>
    subst hop'
    exact .inl hl
  | priv => simp [Op.line] at hl

theorem exec_speaks (hI : Inv s) (hN : Named s) (ht : s.todo t = op :: rest)
    (h : s.exec t ch op = some (s', new)) (hS : op.Speaks t) : ∀ op' ∈ new, op'.Speaks t := by
  intro op' hop'
  cases exec_makes h op' hop' with
  | silent hs => exact .of_line (by simp [hs.line])
  | broadcast _ hn => exact .of_line (by simpa [Op.line] using hn)
  | @rename fd newNick r hop hnt hr =>
    subst hop
    obtain ⟨c, rfl, -, -⟩ := hI.handler_of_handles ht trivial
    refine ⟨fun n hl => (by simp [Op.line] at hl), ?_⟩
    intro o n hl
    simp only [Op.line, Option.some.injEq, ServerLine.nick.injEq] at hl
    obtain ⟨rfl, rfl⟩ := hl
    exact ⟨c, rfl, hN.registry.valid _ _ hr, hN.todo _ fd _ (mem_todo_head ht),
      .inl ⟨none, rfl⟩⟩
  | reply _ _ hn _ hd => exact .of_line (by simpa [Op.line_of_delivery hd] using hn)
  | @greet fd c nickname hop hn =>
    subst hop
    obtain ⟨rfl, -⟩ := hI.main_of_register ht
    obtain ⟨i, hi, rfl⟩ := hN.fresh_lt hn
    refine ⟨?_, fun o n hl => (by simp [Op.line, welcomeFrame] at hl)⟩
    intro n hl
    simp only [Op.line, welcomeFrame, Option.some.injEq, ServerLine.welcome.injEq] at hl
    subst hl
    exact ⟨rfl, isValidNickname_defaultNickname (by omega), fd, rfl⟩
  | @relay fd f hd =>
    have hl : op.line = some f.line := Op.line_of_delivery hd
    refine ⟨?_, ?_⟩
    · intro n hn
      obtain ⟨h1, h2, fd', h3⟩ := hS.welcome n (hl.trans hn)
      obtain ⟨rfl, rfl⟩ := Prod.mk.inj (Option.some.inj (hd.symm.trans h3))
      exact ⟨h1, h2, fd, rfl⟩
    · intro o n hn
      obtain ⟨c, h1, h2, h3, ⟨_, rfl⟩ | ⟨_, taken, serial, rfl⟩⟩ := hS.nick o n (hl.trans hn)
      · cases hd
      · cases hd
        exact ⟨c, h1, h2, h3, .inr ⟨fd, taken, serial, rfl⟩⟩
  | announce hop =>
    subst hop
    refine ⟨?_, ?_⟩
    · intro n hn
      obtain ⟨-, -, _, hd⟩ := hS.welcome n hn
      cases hd
    · intro o n hn
      obtain ⟨c, h1, h2, h3, ⟨_, he⟩ | ⟨_, _, _, he⟩⟩ := hS.nick o n hn <;> cases he
      exact ⟨c, h1, h2, h3, .inr ⟨_, _, _, rfl⟩⟩
  | priv => exact .of_line (by simp [Op.line, ServerLine.Names])

/-- No thread starts with a line that names somebody. -/
theorem Starts.not_names (h : Starts s t op) : ∀ line ∈ op.line, ¬ line.Names := by
  rcases h.cases with hs | ⟨_, _, _, rfl⟩ | rfl
  · simp [hs.line]
  · simp [Op.line, sendError, ServerLine.Names]
  · simp [Op.line, ServerLine.Names]

/-- What the threads may say, and what has been said. -/
structure Spoken (s : Server) : Prop where
  /-- To be said. -/
  todo : ∀ t, ∀ op ∈ s.todo t, op.Speaks t
  /-- Said in WELCOME. -/
  welcome : ∀ k, ∀ f ∈ s.written k, ∀ n, f.line = .welcome n → isValidNickname n = true
  /-- Said in NICK. -/
  nick : ∀ k, ∀ f ∈ s.written k, ∀ o n, f.line = .nick o n →
    isValidNickname o = true ∧ isValidNickname n = true ∧ ∃ c, f.about = some c

theorem Spoken.step (hS : Spoken s) (hI : Inv s) (hN : Named s) (h : step s a = some s') :
    Spoken s' where
  todo := step_forall_todo hS.todo (fun t ch op rest s₁ new ht he hs => exec_speaks hI hN ht he hs)
    (fun _ _ hs => .of_line hs.not_names) h
  welcome k f hf n hl := by
    rcases step_written h k with hw | ⟨t, fd, f', hp, -, hw⟩
    · exact hS.welcome k f (hw ▸ hf) n hl
    · rw [hw, List.mem_append, List.mem_singleton] at hf
      rcases hf with hf | rfl
      · exact hS.welcome k f hf n hl
      · obtain ⟨op, hop, hd⟩ := mem_pending.mp hp
        exact ((hS.todo t op hop).welcome n (by rw [Op.line_of_delivery hd, hl])).2.1
  nick k f hf o n hl := by
    rcases step_written h k with hw | ⟨t, fd, f', hp, -, hw⟩
    · exact hS.nick k f (hw ▸ hf) o n hl
    · rw [hw, List.mem_append, List.mem_singleton] at hf
      rcases hf with hf | rfl
      · exact hS.nick k f hf o n hl
      · obtain ⟨op, hop, hd⟩ := mem_pending.mp hp
        obtain ⟨c, -, h1, h2, ⟨_, rfl⟩ | ⟨_, _, _, rfl⟩⟩ :=
          (hS.todo t op hop).nick o n (by rw [Op.line_of_delivery hd, hl]) <;> cases hd
        exact ⟨h1, h2, c, rfl⟩

theorem spoken_of_run {config : LoadedConfig} (h : Run step (init config) s) : Spoken s := by
  have h0 : Spoken (init config) :=
    ⟨fun t op h =>
      by simp [init] at h, fun k f h => by simp [init] at h, fun k f h => by simp [init] at h⟩
  refine (h.invariant (I := fun s => Inv s ∧ Named s ∧ Spoken s)
    ⟨inv_init config, named_init config, h0⟩ ?_).2.2
  intro s a s' h _ hs
  obtain ⟨hI, hN, hS⟩ := h
  exact ⟨hI.step hs, hN.step hs, hS.step hI hN hs⟩

/-! ### What a step changes of who is called what -/

theorem holds_iff (hI : Inv s) : s.Holds k n ↔
    ∃ fd r, s.fds fd = some k ∧ s.clients.find? fd = some r ∧ r.nickname = n := by
  constructor
  · rintro ⟨r, hk, hr, hn⟩
    exact ⟨_, r, hk, hr, hn⟩
  · rintro ⟨fd, r, hk, hr, hn⟩
    obtain ⟨rfl, -⟩ := (hI.fds_iff _ _).mp hk
    exact ⟨r, hk, hr, hn⟩

/-- Two connections do not use the same nickname. -/
theorem Named.holder_unique (hN : Named s) {k' : ConnId} (h : s.Holds k n) (h' : s.Holds k' n) :
    k = k' := by
  obtain ⟨r, hk, hr, hn⟩ := h
  obtain ⟨r', hk', hr', hn'⟩ := h'
  have hfd := hN.registry.unique _ _ r r' hr hr' (by rw [hn, hn'])
  rw [hfd, hk'] at hk
  exact (Option.some.inj hk).symm

/-- How a step gives the client at `fd` a nickname. -/
inductive Gives (s : Server) : Action → Fd → Bytes → Prop
  /-- It is registered. -/
  | register {t : Tid} {ch : Choice} {fd : Fd} {c : ConnId} {rest : List Op} {n : Bytes}
      (ht : s.todo t = .register fd c :: rest) (hs : s.clients.size < s.config.1.maxClients)
      (hn : assignDefaultNickname s.nicknames = some n) : Gives s (.run t ch) fd n
  /-- It is renamed. -/
  | rename {t : Tid} {ch : Choice} {fd : Fd} {rest : List Op} {n : Bytes} {r : ClientRecord}
      (ht : s.todo t = .handleNick fd n :: rest) (hnt : s.taken fd n = false)
        (hr : s.clients.find? fd = some r) :
      Gives s (.run t ch) fd n

/-- The nickname a step gives. -/
def gives (s : Server) : Action → Option Bytes
  | .run t _ =>
    match s.todo t with
    | .register _ _ :: _ =>
      if s.config.1.maxClients ≤ s.clients.size then none else assignDefaultNickname s.nicknames
    | .handleNick fd newNick :: _ =>
      if s.taken fd newNick || (s.clients.find? fd).isNone then none else some newNick
    | _ => none
  | _ => none

theorem Gives.gives (h : Gives s a fd n) : s.gives a = some n := by
  cases h with
  | register ht hs hn => simp [Server.gives, ht, not_le.mpr hs, hn]
  | rename ht hnt hr => simp [Server.gives, ht, hnt, hr]

/-- **How a record came to be what it is after a step**: it kept its nickname, or was
given it. -/
theorem find?_step (h : step s a = some s') {r : ClientRecord} (hr : s'.clients.find? fd = some r) :
    (∃ r', s.clients.find? fd = some r' ∧ r.nickname = r'.nickname) ∨ Gives s a fd r.nickname := by
  rcases step_effect h with ⟨t, ch, op, rest, new, s₁, rfl, ht, -, hE, rfl⟩ | ⟨-, hq⟩
  · have hr : s₁.clients.find? fd = some r := hr
    cases hE.clients with
    | same h => exact .inl ⟨r, by rw [← h, hr], rfl⟩
    | @add fd' c nickname hs hn h =>
      rw [h] at hr
      by_cases hk : fd' ∈ s.clients.keys
      · exact .inl ⟨r, by rwa [OrdMap.emplace_of_mem hk] at hr, rfl⟩
      · by_cases hfd : fd = fd'
        · subst hfd
          rw [OrdMap.find?_emplace_self hk] at hr
          cases hr
          exact .inr (.register ht hs hn)
        · exact .inl ⟨r, by rwa [OrdMap.find?_emplace_of_ne _ hfd] at hr, rfl⟩
    | welcome h =>
      rw [h] at hr
      exact .inl (find?_modify_nickname (by simp) hr)
    | @rename fd' newNick r₀ hnt hr₀ h =>
      rw [h] at hr
      by_cases hfd : fd = fd'
      · subst hfd
        rw [OrdMap.find?_modify_self] at hr
        obtain ⟨q, -, rfl⟩ := Option.map_eq_some_iff.mp hr
        exact .inr (.rename ht hnt hr₀)
      · exact .inl ⟨r, by rwa [OrdMap.find?_modify_of_ne _ hfd] at hr, rfl⟩
    | erase h =>
      rw [h, OrdMap.find?_erase] at hr
      split_ifs at hr
      exact .inl ⟨r, hr, rfl⟩
  · exact .inl ⟨r, by rw [← hq.find?, hr], rfl⟩

/-- A descriptor with a record stays with its connection, while it has a record. -/
theorem fds_step (hI : Inv s) (hI' : Inv s') (h : step s a = some s') {r r' : ClientRecord}
    (hr : s.clients.find? fd = some r) (hr' : s'.clients.find? fd = some r') :
    s'.fds fd = s.fds fd := by
  obtain ⟨k, hk, -⟩ := hI.owner fd r hr
  obtain ⟨k', hk', -⟩ := hI'.owner fd r' hr'
  rcases step_fds hI h hk' with hk' | ⟨_, _, -, -, -, hn, -⟩
  · rw [‹s'.fds fd = some k'›, hk']
  · rw [hn] at hk
    cases hk

/-- **Who uses a nickname after a step** used it before, or was given it. -/
theorem Holds.of_step (hI : Inv s) (hI' : Inv s') (h : step s a = some s') (hh : s'.Holds k n) :
    s.Holds k n ∨ s.gives a = some n := by
  obtain ⟨r, hk, hr, rfl⟩ := hh
  rcases find?_step h hr with ⟨r', hr', hn⟩ | hg
  · exact .inl ((holds_iff hI).mpr ⟨_, r', by rw [← fds_step hI hI' h hr' hr, hk], hr', hn.symm⟩)
  · exact .inr hg.gives

/-- **A record is kept**, with its nickname, unless its connection's handler thread renames
it or erases it. -/
theorem find?_keeps (hI : Inv s) (h : step s a = some s') {r : ClientRecord}
    (hk : s.fds fd = some k) (hr : s.clients.find? fd = some r) :
    (∃ r', s'.clients.find? fd = some r' ∧ r'.nickname = r.nickname) ∨
      ∃ ch rest s₁ new op, a = .run (.handler k) ch ∧ s.todo (.handler k) = op :: rest ∧
        s.exec (.handler k) ch op = some (s₁, new) ∧ s' = s₁.setTodo (.handler k) (new ++ rest) ∧
        ((∃ n, op = .handleNick fd n) ∨ op = .eraseClient fd ∧
          rest = [.closeFd fd, .endThread]) := by
  rcases step_effect h with ⟨t, ch, op, rest, new, s₁, rfl, ht, he, hE, rfl⟩ | ⟨-, hq⟩
  · show (∃ r', s₁.clients.find? fd = some r' ∧ r'.nickname = r.nickname) ∨ _
    cases hE.clients with
    | same h => exact .inl ⟨r, by rw [h, hr], rfl⟩
    | @add fd' c nickname hs hn h =>
      rw [h]
      by_cases hk : fd' ∈ s.clients.keys
      · exact .inl ⟨r, by rw [OrdMap.emplace_of_mem hk, hr], rfl⟩
      · have hfd : fd ≠ fd' := fun he => hk (he ▸ OrdMap.mem_keys_of_find? hr)
        exact .inl ⟨r, by rw [OrdMap.find?_emplace_of_ne _ hfd, hr], rfl⟩
    | @welcome fd' h =>
      rw [h]
      by_cases hfd : fd = fd'
      · subst hfd
        exact .inl ⟨{ r with welcomed := true }, by rw [OrdMap.find?_modify_self, hr]; rfl, rfl⟩
      · exact .inl ⟨r, by rw [OrdMap.find?_modify_of_ne _ hfd, hr], rfl⟩
    | @rename fd' newNick r₀ hnt hr₀ h =>
      by_cases hfd : fd = fd'
      · subst hfd
        obtain ⟨c, rfl, hst, hs⟩ := hI.handler_of_handles ht trivial
        have hfd : fd = s.fdOf c := hs
        rw [hfd, hI.fds_fdOf (hst ▸ ⟨by decide, by decide⟩)] at hk
        obtain rfl := Option.some.inj hk
        exact .inr ⟨ch, rest, s₁, new, _, rfl, ht, he, rfl, .inl ⟨_, rfl⟩⟩
      · rw [h]
        exact .inl ⟨r, by rw [OrdMap.find?_modify_of_ne _ hfd, hr], rfl⟩
    | @erase fd' h =>
      by_cases hfd : fd = fd'
      · subst hfd
        obtain ⟨c, rfl, hst, hfd, hrest⟩ := hI.handler_of_erase ht
        rw [hfd, hI.fds_fdOf (hst ▸ ⟨by decide, by decide⟩)] at hk
        obtain rfl := Option.some.inj hk
        exact .inr ⟨ch, rest, s₁, new, _, rfl, ht, he, rfl, .inr ⟨rfl, hrest⟩⟩
      · rw [h, OrdMap.find?_erase_of_ne _ hfd]
        exact .inl ⟨r, hr, rfl⟩
  · exact .inl ⟨r, by rw [hq.find?, hr], rfl⟩

/-! ### Renames under way -/

/-- A thread that is going to rename its client has nothing else to do. -/
def Alone (s : Server) : Prop :=
  ∀ t fd n, .handleNick fd n ∈ s.todo t → s.todo t = [.handleNick fd n]

theorem handleFrame_alone {cfg : Config} {fd₀ : Fd}
    (h : .handleNick fd n ∈ handleFrame cfg fd₀ f₀) :
    handleFrame cfg fd₀ f₀ = [.handleNick fd n] := by
  unfold handleFrame at h ⊢
  split_ifs at h ⊢
  · simp [sendError, teardown] at h
  · simp only [handleLine] at h ⊢
    split_ifs at h ⊢
    · simp at h
    · unfold handleNick at h ⊢
      split at h
      · simp [sendError] at h
      · simp [sendError] at h
      · split_ifs at h ⊢
        · rw [List.mem_singleton.mp h]
        · simp [sendError] at h
    · unfold handleMsg at h
      simp only at h
      split_ifs at h <;> simp [sendError] at h
    · simp at h
    · simp [teardown] at h
    · simp [sendError] at h
    · simp at h

theorem Alone.step (hA : Alone s) (h : step s a = some s') : Alone s' := by
  -- a thread that starts with something starts with nothing else
  have hset {t' : Tid} {l : List Op} (hl : ∀ fd n, .handleNick fd n ∈ l → l = [.handleNick fd n]) :
      ∀ t fd n, .handleNick fd n ∈ Function.update s.todo t' l t →
        Function.update s.todo t' l t = [.handleNick fd n] := by
    intro t fd n hop
    by_cases htt : t = t'
    · subst htt
      rw [Function.update_self] at hop ⊢
      exact hl fd n hop
    · rw [Function.update_of_ne htt] at hop ⊢
      exact hA t fd n hop
  cases a with
  | run t' ch =>
    obtain ⟨op₀, rest, s₁, new, ht, he, rfl⟩ := step_run h
    rw [Alone, setTodo, (exec_effect he).todo]
    apply hset
    intro fd n hop
    rcases List.mem_append.mp hop with hop | hop
    · exact absurd trivial (exec_not_handles he hop)
    · have hto := hA t' fd n (by rw [ht]; exact .tail _ hop)
      rw [ht, List.cons.injEq] at hto
      rw [hto.2] at hop
      cases hop
  | iterate ready =>
    simp only [Server.step, Option.ite_none_right_eq_some, Option.some.injEq] at h
    obtain ⟨-, rfl⟩ := h
    exact hset fun fd n hop => by cases ready <;> simp at hop
  | leaveLoop =>
    simp only [Server.step, Option.ite_none_right_eq_some, Option.some.injEq] at h
    obtain ⟨-, rfl⟩ := h
    exact hset fun fd n hop => by simp [shutdownAll] at hop
  | recv c =>
    obtain ⟨-, -, k, f, rest, -, -, rfl⟩ := step_recv h
    exact hset fun fd n hop => handleFrame_alone hop
  | recvEnd c =>
    simp only [Server.step, Option.ite_none_right_eq_some, Option.some.injEq] at h
    obtain ⟨-, rfl⟩ := h
    exact hset fun fd n hop => by simp [teardown] at hop
  | requestShutdown | arrive =>
    cases h
    exact hA
  | rehash es =>
    simp only [Server.step, Option.dite_none_right_eq_some, Option.some.injEq] at h
    obtain ⟨_, rfl⟩ := h
    exact hA

/-- Connection `c` is told, or is to be told, that it is renamed from `o` to `n`. -/
def Renames (s : Server) (c : ConnId) (o n : Bytes) : Prop :=
  ∃ op ∈ s.todo (.handler c), op.line = some (.nick o n)

/-- A step that renames connection `c`. -/
structure Renamed (s : Server) (a : Action) (s' : Server) (c : ConnId) (o n : Bytes) : Prop where
  /-- Its handler thread does it. -/
  run : ∃ ch, a = .run (.handler c) ch
  /-- That is all the thread has to do. -/
  todo : s.todo (.handler c) = [.handleNick (s.fdOf c) n]
  /-- The connection is served. -/
  stage : s.stage c = .serving
  /-- It used the old nickname. -/
  holds : s.Holds c o
  /-- No other uses the new one. -/
  free : s.taken (s.fdOf c) n = false
  /-- The registry is changed, and NICK is to be sent. -/
  eq : s' = { s with clients := s.clients.modify (s.fdOf c) fun r =>
    { r with nickname := n } }.setTodo (.handler c)
    [.broadcast (.nick o n) (-1) (some c) none]

/-- The step that renames a client. -/
theorem renamed_of_head (hI : Inv s) (hA : Alone s) {r : ClientRecord}
    (h : step s (.run t ch) = some s') (ht : s.todo t = .handleNick fd n :: rest)
    (hnt : s.taken fd n = false) (hr : s.clients.find? fd = some r) :
    ∃ c, fd = s.fdOf c ∧ Renamed s (.run t ch) s' c r.nickname n := by
  obtain ⟨c, rfl, hst, hfd⟩ := hI.handler_of_handles ht trivial
  obtain rfl : fd = s.fdOf c := hfd
  have hto := hA _ _ _ (mem_todo_head ht)
  have hfds := hI.fds_fdOf (c := c) (hst ▸ ⟨by decide, by decide⟩)
  obtain ⟨op, rest', s₁, new, ht', he, rfl⟩ := step_run h
  rw [hto, List.cons.injEq] at ht'
  obtain ⟨rfl, rfl⟩ := ht'
  refine ⟨c, rfl, ⟨ch, rfl⟩, hto, hst, ⟨r, hfds, hr, rfl⟩, hnt, ?_⟩
  simp only [exec, renameClient, hnt, hr, Bool.false_eq_true, if_false, Option.some.injEq,
    Prod.mk.injEq] at he
  obtain ⟨rfl, rfl⟩ := he
  rfl

/-- **A rename under way after a step** was under way before it, or is made by it. -/
theorem Renames.of_step (hI : Inv s) (hA : Alone s) (h : step s a = some s')
    (hr : s'.Renames c o n) : s.Renames c o n ∨ Renamed s a s' c o n := by
  obtain ⟨op, hop, hl⟩ := hr
  rcases step_mem_todo h hop with hold | ⟨ch, op₀, rest, s₁, new, rfl, ht, he, -, hnew⟩ | hs
  · exact .inl ⟨op, hold, hl⟩
  · rcases exec_nick he hnew hl with hl' | ⟨fd, r, rfl, hnt, hr, rfl⟩
    · exact .inl ⟨op₀, mem_todo_head ht, hl'⟩
    · obtain ⟨c', -, hren⟩ := renamed_of_head hI hA h ht hnt hr
      obtain ⟨ch', hrun⟩ := hren.run
      cases hrun
      exact .inr hren
  · exact absurd trivial (hs.not_names _ hl)

/-- **The invariant of the renames under way.** -/
structure Renaming (s : Server) : Prop where
  /-- A thread that is going to rename its client has nothing else to do. -/
  alone : Alone s
  /-- A connection is renamed once at a time. -/
  one : ∀ c o n o' n', s.Renames c o n → s.Renames c o' n' → o = o' ∧ n = n'
  /-- It uses the new nickname. -/
  holds : ∀ c o n, s.Renames c o n → s.Holds c n

/-- No rename is announced by a thread that is going to rename its client. -/
theorem Alone.not_renames (hA : Alone s) {n' : Bytes}
    (h : .handleNick fd n' ∈ s.todo (.handler c)) : ¬ s.Renames c o n := by
  rintro ⟨op, hop, hl⟩
  rw [hA _ _ _ h, List.mem_singleton] at hop
  subst hop
  cases hl

theorem Renamed.holds_new (hI' : Inv s') (hR : Renamed s a s' c o n) : s'.Holds c n := by
  obtain ⟨r, hk, hr, -⟩ := hR.holds
  refine (holds_iff hI').mpr ⟨s.fdOf c, { r with nickname := n }, ?_, ?_, rfl⟩
  · rw [hR.eq]
    exact hk
  · rw [hR.eq]
    show (s.clients.modify (s.fdOf c) _).find? (s.fdOf c) = _
    rw [OrdMap.find?_modify_self, hr]
    rfl

theorem Renaming.step (hR : Renaming s) (hI : Inv s) (hI' : Inv s') (h : step s a = some s') :
    Renaming s' where
  alone := hR.alone.step h
  one c o n o' n' h1 h2 := by
    rcases h1.of_step hI hR.alone h with h1 | h1 <;> rcases h2.of_step hI hR.alone h with h2 | h2
    · exact hR.one c o n o' n' h1 h2
    · exact absurd h1 (hR.alone.not_renames (mem_todo_head h2.todo))
    · exact absurd h2 (hR.alone.not_renames (mem_todo_head h1.todo))
    · have hn := h1.todo.symm.trans h2.todo
      simp only [List.cons.injEq, Op.handleNick.injEq, true_and, and_true] at hn
      obtain ⟨r, -, hr, rfl⟩ := h1.holds
      obtain ⟨r', -, hr', rfl⟩ := h2.holds
      exact ⟨by rw [Option.some.inj (hr.symm.trans hr')], hn⟩
  holds c o n hr := by
    rcases hr.of_step hI hR.alone h with hr' | hr'
    · obtain ⟨r, hk, hf, rfl⟩ := hR.holds c o n hr'
      rcases find?_keeps hI h hk hf with ⟨r', hf', hn⟩
      | ⟨ch, rest, s₁, new, op, rfl, ht, he, rfl, ⟨n', rfl⟩ | ⟨rfl, rfl⟩⟩
      · exact (holds_iff hI').mpr ⟨_, r', by rw [fds_step hI hI' h hf hf', hk], hf', hn⟩
      · exact absurd hr' (hR.alone.not_renames (mem_todo_head ht))
      · -- the thread has nothing left to announce
        obtain ⟨op, hop, hl⟩ := hr
        simp only [setTodo, Function.update_self, List.mem_append, List.mem_cons, List.not_mem_nil,
          or_false] at hop
        rcases hop with hop | rfl | rfl
        · rcases exec_nick he hop hl with hl' | ⟨_, _, hop', -⟩
          · cases hl'
          · cases hop'
        · cases hl
        · cases hl
    · exact hr'.holds_new hI'

/-! ### WELCOME under way -/

/-- WELCOME is still to be written to connection `k`. -/
def Greeting (s : Server) (k : ConnId) : Prop :=
  ∃ fd n, s.fds fd = some k ∧ (fd, welcomeFrame n) ∈ s.pending .main

/-- Connection `k` has not been welcomed yet, and can still be. -/
def Untold (s : Server) (k : ConnId) : Prop :=
  s.stage k = .unborn ∨ s.stage k = .accepted ∨ s.Greeting k

/-- WELCOME tells a client that has just been registered its nickname. -/
theorem Inv.pending_welcome (hI : Inv s) (hp : (fd, welcomeFrame n) ∈ s.pending .main) :
    ∃ c, s.fds fd = some c ∧ s.stage c = .registered ∧ s.clients.find? fd = some ⟨n, false⟩ := by
  obtain ⟨op, hop, hd⟩ := mem_pending.mp hp
  have hc (h : op.Control) : False := by
    cases op <;> cases hd
    · exact h.elim
    · obtain ⟨_, _, h⟩ := h
      cases h
  have hm := hI.main
  generalize s.todo .main = l at hm hop
  cases hm with
  | control h => exact (hc (h op hop)).elim
  | waiting h =>
    rcases List.mem_append.mp hop with hop | hop
    · exact (hc (h op hop)).elim
    · rw [List.mem_singleton] at hop
      subst hop
      cases hd
  | @admitting c _ ha =>
    have hfds := hI.fds_fdOf ha.early.open
    cases ha with
    | register => simp at hop; subst hop; cases hd
    | reject =>
      simp only [List.mem_cons, List.not_mem_nil, or_false] at hop
      rcases hop with rfl | rfl <;> simp [Op.delivery, serverFull, welcomeFrame] at hd
    | close => simp at hop; subst hop; cases hd
    | welcome h _ hr | write h _ hr =>
      simp only [afterWelcome, List.mem_cons, List.not_mem_nil, or_false] at hop
      rcases hop with rfl | rfl | rfl | rfl <;> cases hd
      exact ⟨c, hfds, h, hr⟩
    | mark | start =>
      simp only [afterWelcome, List.tail_cons, List.mem_cons, List.not_mem_nil, or_false] at hop
      rcases hop with rfl | rfl | rfl <;> cases hd

/-- **What is written to a connection**, and which block writes it. -/
theorem step_writes (h : step s a = some s') (k : ConnId) :
    s'.written k = s.written k ∨ ∃ t ch rest fd f, a = .run t ch ∧
      s.todo t = .sendFrame fd f :: rest ∧
      s.fds fd = some k ∧ s.broken k = false ∧ s' = (s.sendFrame fd f ch.ok).setTodo t rest ∧
      s'.written k = s.written k ++ [f] := by
  rcases step_effect h with ⟨t, ch, op, rest, new, s₁, rfl, ht, he, hE, rfl⟩ | ⟨-, hq⟩
  · rcases hE.written k with hw | ⟨fd, f, rfl, hk, hb, hw⟩
    · exact .inl hw
    · simp only [exec, Option.some.injEq, Prod.mk.injEq] at he
      obtain ⟨rfl, rfl⟩ := he
      exact .inr ⟨t, ch, rest, fd, f, rfl, ht, hk, hb, rfl, hw⟩
  · exact .inl (by rw [hq.written])

/-- WELCOME is written by the accept thread, to the client it has just registered. -/
theorem Spoken.welcome_write (hS : Spoken s) (hI : Inv s) (ht : s.todo t = .sendFrame fd f :: rest)
    (hl : f.line = .welcome n) : ∃ c, s.fds fd = some c ∧ s.stage c = .registered ∧
      s.clients.find? fd = some ⟨n, false⟩ ∧ t = .main ∧ rest = afterWelcome fd c n := by
  obtain ⟨rfl, -, fd', hd⟩ := (hS.todo t _ (mem_todo_head ht)).welcome n (by rw [Op.line, hl])
  cases hd
  cases hI.main_next ht with
  | control hc =>
    obtain ⟨_, _, h⟩ := hc
    cases h
  | @admission c _ _ ha =>
    have hfds := hI.fds_fdOf ha.early.open
    generalize hop : Op.sendFrame fd (welcomeFrame n) :: rest = l at ha
    cases ha with
    | register | close | welcome | mark => cases hop
    | reject => simp [serverFull, welcomeFrame] at hop
    | start => cases hop
    | write h _ hr =>
      simp only [List.cons.injEq, Op.sendFrame.injEq, welcomeFrame, Frame.mk.injEq,
        ServerLine.welcome.injEq,
        and_true] at hop
      obtain ⟨⟨rfl, rfl⟩, rfl⟩ := hop
      exact ⟨c, hfds, h, hr, rfl, rfl⟩

/-- A connection that was accepted comes no earlier again. -/
theorem exec_stage (h : s.exec t ch op = some (s', new)) (k : ConnId)
    (hk : s'.stage k = .unborn ∨ s'.stage k = .accepted) :
    s'.stage k = s.stage k ∨ op = .accept ∧ k = s.nextConn := by
  have hupdate {stage : ConnId → Stage} {c : ConnId} {st : Stage}
    (hst : st ≠ .unborn ∧ st ≠ .accepted)
      (hk : Function.update stage c st k = .unborn ∨ Function.update stage c st k = .accepted) :
      Function.update stage c st k = stage k := by
    by_cases hkc : k = c
    · subst hkc
      rw [Function.update_self] at hk
      exact (hk.elim hst.1 hst.2).elim
    · rw [Function.update_of_ne hkc]
  have hset {st : Stage} {fd : Fd} (hst : st ≠ .unborn ∧ st ≠ .accepted)
      (hk : (s.setStage fd st).stage k = .unborn ∨ (s.setStage fd st).stage k = .accepted) :
      (s.setStage fd st).stage k = s.stage k := by
    cases hfd : s.fds fd with
    | none => simp only [setStage, hfd]
    | some c =>
      rw [setStage_of hfd] at hk ⊢
      exact hupdate hst hk
  cases exec_done h with
  | accepted =>
    by_cases hkn : k = s.nextConn
    · exact .inr ⟨rfl, hkn⟩
    · exact .inl (Function.update_of_ne hkn ..)
  | full | registered | started => exact .inl (hupdate ⟨by decide, by decide⟩ hk)
  | @erased fd =>
    have hs : (s.eraseClient t fd).1.stage = (s.setStage fd .erased).stage := by
      unfold eraseClient
      split <;> rfl
    rw [hs] at hk ⊢
    exact .inl (hset ⟨by decide, by decide⟩ hk)
  | closed => exact .inl (hset ⟨by decide, by decide⟩ hk)
  | frame => exact .inl (by rw [(mild_sendFrame ..).stage])
  | renamed => exact .inl (by rw [(mild_renameClient ..).stage])
  | _ => exact .inl rfl

/-- A connection that has been accepted counts for ever. -/
theorem lt_nextConn_step (hI : Inv s) (hI' : Inv s') (h : step s a = some s')
    (hk : k < s.nextConn) : k < s'.nextConn := by
  by_contra hn
  have hu := (hI'.unborn_iff k).mpr (not_lt.mp hn)
  rcases step_effect h with ⟨t, ch, op, rest, new, s₁, rfl, ht, he, hE, rfl⟩ | ⟨-, hq⟩
  · rcases exec_stage he k (.inl hu) with hs | ⟨rfl, rfl⟩
    · exact absurd ((hI.unborn_iff k).mp (hs ▸ hu)) (not_le.mpr hk)
    · exact lt_irrefl _ hk
  · exact absurd ((hI.unborn_iff k).mp (hq.stage ▸ hu)) (not_le.mpr hk)

/-- What has been written stays written. -/
theorem written_grows (h : step s a = some s') (k : ConnId) : s.written k <+: s'.written k := by
  rcases step_writes h k with hw | ⟨_, _, _, _, f, -, -, -, -, -, hw⟩
  · exact hw ▸ List.prefix_rfl
  · exact ⟨[f], hw.symm⟩

/-- What has been written to a connection that has not been welcomed names nobody to it. -/
def Fresh (s : Server) : Prop := ∀ k, s.Untold k → announced (s.written k) = none

/-- **A connection that has not been welcomed after a step** had not been before it. -/
theorem Untold.of_step (hI : Inv s) (hI' : Inv s') (h : step s a = some s') (hk : s'.Untold k) :
    s.Untold k := by
  have hstage (hk : s'.stage k = .unborn ∨ s'.stage k = .accepted) : s.Untold k := by
    rcases step_effect h with ⟨t, ch, op, rest, new, s₁, rfl, ht, he, hE, rfl⟩ | ⟨-, hq⟩
    · rcases exec_stage he k hk with hs | ⟨rfl, rfl⟩
      · have hs : (s₁.setTodo t (new ++ rest)).stage k = s.stage k := hs
        rw [hs] at hk
        exact hk.imp id .inl
      · exact .inl ((hI.unborn_iff _).mpr le_rfl)
    · rw [hq.stage] at hk
      exact hk.imp id .inl
  rcases hk with hk | hk | ⟨fd, n, hfds, hp⟩
  · exact hstage (.inl hk)
  · exact hstage (.inr hk)
  · have hback (c : ConnId) (hc : s.fds fd = some c) : s.fds fd = some k := by
      rcases step_fds hI h hfds with hk | ⟨_, _, -, -, -, hn, -⟩
      · exact hk
      · rw [hn] at hc
        cases hc
    have hold (hp : (fd, welcomeFrame n) ∈ s.pending .main) : s.Untold k := by
      obtain ⟨c, hc, -⟩ := hI.pending_welcome hp
      exact .inr (.inr ⟨fd, n, hback c hc, hp⟩)
    obtain ⟨op, hop, hd⟩ := mem_pending.mp hp
    have hl : op.line = some (.welcome n) := Op.line_of_delivery hd
    rcases step_mem_todo h hop with hop | ⟨ch, op₀, rest, s₁, new, ha, ht, he, hs', hnew⟩ | hs
    · exact hold (mem_pending.mpr ⟨op, hop, hd⟩)
    · cases exec_makes he op hnew with
      | silent hs => rw [hs.1] at hd; cases hd
      | broadcast | rename => cases hd
      | reply _ _ hn _ hd' =>
        rw [Op.line_of_delivery hd'] at hl
        rw [Option.some.inj hl] at hn
        exact absurd trivial hn
      | @greet fd' c _ hop' =>
        subst hop'
        obtain ⟨-, rfl, -⟩ := hI.main_of_register ht
        cases hd
        have hc := hI.accepted_of_register ht
        have hk := hback c (hI.fds_fdOf (hc ▸ ⟨by decide, by decide⟩))
        rw [hI.fds_fdOf (hc ▸ ⟨by decide, by decide⟩)] at hk
        obtain rfl := Option.some.inj hk
        exact .inr (.inl hc)
      | relay hd' =>
        cases hd
        exact hold (mem_pending.mpr ⟨op₀, mem_todo_head ht, hd'⟩)
      | announce => cases hd
      | priv => cases hd
    · exact absurd trivial (hs.not_names _ hl)

theorem Fresh.step (hF : Fresh s) (hS : Spoken s) (hI : Inv s) (hI' : Inv s')
    (h : step s a = some s') : Fresh s' := by
  intro k hk
  have hnone := hF k (hk.of_step hI hI' h)
  rcases step_writes h k with hw | ⟨t, ch, rest, fd, f, rfl, ht, hfd, -, rfl, hw⟩
  · rw [hw, hnone]
  · rw [hw, announced_concat, hnone]
    cases hl : f.line with
    | welcome n =>
      -- once it is written, the connection is no longer untold
      obtain ⟨c, hc, hst, -, rfl, rfl⟩ := hS.welcome_write hI ht hl
      obtain rfl := Option.some.inj (hfd.symm.trans hc)
      have hst' : ((s.sendFrame fd f ch.ok).setTodo .main (afterWelcome fd k n)).stage k =
          .registered :=
        (congrFun (mild_sendFrame s fd f ch.ok).stage k).trans hst
      rcases hk with hk | hk | ⟨_, _, -, hp⟩
      · rw [hst'] at hk; cases hk
      · rw [hst'] at hk; cases hk
      · simp [Server.pending, setTodo, afterWelcome, Op.delivery] at hp
    | _ => simp [hear, hl]

/-- A client is told no name of its own before WELCOME. -/
def Introduced (s : Server) : Prop :=
  ∀ k p f q n, s.written k = p ++ f :: q → f.line = .welcome n → announced p = none

theorem Introduced.step (hW : Introduced s) (hF : Fresh s) (hS : Spoken s) (hI : Inv s)
    (h : step s a = some s') : Introduced s' := by
  intro k p f q n hk hl
  rcases step_writes h k with hw | ⟨t, ch, rest, fd, f', rfl, ht, hfd, -, -, hw⟩
  · exact hW k p f q n (hw ▸ hk) hl
  · rw [hw] at hk
    rcases List.eq_nil_or_concat q with rfl | ⟨q, g, rfl⟩
    · obtain ⟨rfl, hf⟩ := List.append_inj' hk rfl
      obtain rfl : f' = f := List.head_eq_of_cons_eq hf
      -- it is written now, to a client that has not been welcomed
      obtain ⟨c, hc, hst, -, rfl, rfl⟩ := hS.welcome_write hI ht hl
      obtain rfl := Option.some.inj (hfd.symm.trans hc)
      obtain ⟨-, -, fd', hd⟩ := (hS.todo .main _ (mem_todo_head ht)).welcome n (by rw [Op.line, hl])
      cases hd
      exact hF k (.inr (.inr ⟨fd, n, hfd, mem_pending.mpr ⟨_, mem_todo_head ht, rfl⟩⟩))
    · rw [List.concat_eq_append, ← List.cons_append, ← List.append_assoc] at hk
      exact hW k p f q n (List.append_inj' hk rfl).1 hl

/-- What holds of every state of every run. -/
structure Orderly (s : Server) : Prop where
  /-- The registry. -/
  inv : Inv s
  /-- The nicknames. -/
  named : Named s
  /-- Who says what. -/
  spoken : Spoken s
  /-- The renames under way. -/
  renames : Renaming s
  /-- The connections that have not been welcomed. -/
  fresh : Fresh s
  /-- What comes before WELCOME. -/
  introduced : Introduced s

theorem orderly_init (config : LoadedConfig) : Orderly (init config) where
  inv := inv_init config
  named := named_init config
  spoken :=
    ⟨fun t op h =>
      by simp [init] at h, fun k f h => by simp [init] at h, fun k f h => by simp [init] at h⟩
  renames :=
    { alone := fun t fd n h => by simp [init] at h
      one := fun c o n o' n' h => by obtain ⟨op, h, -⟩ := h; simp [init] at h
      holds := fun c o n h => by obtain ⟨op, h, -⟩ := h; simp [init] at h }
  fresh k _ := rfl
  introduced k p f q n h := by simp [init] at h

theorem Orderly.step (hO : Orderly s) (h : step s a = some s') : Orderly s' where
  inv := hO.inv.step h
  named := hO.named.step h
  spoken := hO.spoken.step hO.inv hO.named h
  renames := hO.renames.step hO.inv (hO.inv.step h) h
  fresh := hO.fresh.step hO.spoken hO.inv (hO.inv.step h) h
  introduced := hO.introduced.step hO.fresh hO.spoken hO.inv h

end Server

end ThreadLink.Backend
