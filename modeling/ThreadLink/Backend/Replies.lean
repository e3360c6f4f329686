import ThreadLink.Backend.Confirming

/-!
# Direct replies

The limit on the size of a frame holds for what the server sends as well as for what it
receives, and it may be as small as 64 bytes. What `send_to_fd` returns is not looked at, so a
reply that is longer is dropped, and the client that waits for it is not told.

## The model

`directReply` is the reply that a command line calls for in a state of the registry, with its
length as a function of what the client has sent and of the registry.

## What is proved

* `directReply_length` — the lengths are right.
* `reply_is_sent_iff` — a reply is within the limit, and gets to a requester that is there,
  exactly if its length is; if it is not, the requester gets nothing at all.
* `invalid_nick_is_not_answered` — with the smallest limit, a nickname with a character that is
  not allowed in it is never answered.
-/

namespace ThreadLink.Backend

open Text Runs

/-- The line is a command other than `/exit`. -/
def IsCommand (payload : Bytes) : Prop :=
  (stripLine payload).head? = some 47 ∧ (splitFirst (stripLine payload)).1 ≠ bytes "/exit"

instance (payload : Bytes) : Decidable (IsCommand payload) := inferInstanceAs (Decidable (_ ∧ _))

namespace Server

variable {config : LoadedConfig} {s s' b : Server} {a : Action} {c : ConnId} {fd : Fd}
  {f : ClientFrame} {g : Frame}
  {line : ServerLine} {n : ℕ} {past : List (Server × Action)}

/-- The nicknames `/list` gives. -/
def welcomedNames (b : Server) : List Bytes :=
  (b.clients.values.filter (·.welcomed)).map (·.nickname)

/-- What `/list` calls for. -/
def listReply (b : Server) : ServerLine × ℕ :=
  (.list (b.welcomedNames.insertionSort (· ≤ ·)),
    (toString b.welcomedNames.length).length + b.welcomedNames.flatten.length +
    b.welcomedNames.length + 5)

/-- What `/nick` with a valid nickname calls for. -/
def takenReply (b : Server) (fd : Fd) (newNick : Bytes) : Option (ServerLine × ℕ) :=
  if b.taken fd newNick then
    some (.err (bytes "NICK_TAKEN") (bytes "Nickname '" ++ newNick ++ bytes "' is already in use"),
      newNick.length + 44)
  else none

/-- What `/nick` calls for. -/
def nickReply (b : Server) (fd : Fd) (args : Bytes) : Option (ServerLine × ℕ) :=
  match words args with
  | _ :: _ :: _ => some (.err (bytes "NICK_INVALID") (bytes "Nickname must not contain spaces"), 49)
  | [] => some (.err (bytes "NICK_EMPTY") (bytes "Usage: /nick <name>"), 34)
  | [newNick] =>
    if isValidNickname newNick then b.takenReply fd newNick
    else some (.err (bytes "NICK_INVALID")
      (bytes "Nickname must be 1-24 characters: letters, digits, '_' or '-' only"), 83)

/-- What `/msg` with a target and a text calls for. -/
def targetReply (b : Server) (fd : Fd) (target : Bytes) : Option (ServerLine × ℕ) :=
  if b.findTarget target = -1 then
    some (.err (bytes "USER_NOT_FOUND") (bytes "User '" ++ target ++ bytes "' not found"),
      target.length + 36)
  else if b.findTarget target = fd then
    some (.err (bytes "MSG_SELF") (bytes "You cannot send a private message to yourself"), 58)
  else none

/-- What `/msg` calls for. -/
def msgReply (b : Server) (fd : Fd) (args : Bytes) : Option (ServerLine × ℕ) :=
  if (splitFirst args).1.isEmpty || (splitFirst args).2.isEmpty then
    some (.err (bytes "MSG_USAGE") (bytes "Usage: /msg <nickname> <message>"), 46)
  else b.targetReply fd (splitFirst args).1

/-- **The direct reply** that a command line of the client with descriptor `fd` calls for, and
its length. -/
def directReply (b : Server) (fd : Fd) (payload : Bytes) : Option (ServerLine × ℕ) :=
  let (cmd, args) := splitFirst (stripLine payload)
  if cmd = bytes "/nick" then b.nickReply fd args
  else if cmd = bytes "/msg" then b.msgReply fd args
  else if cmd = bytes "/list" then some b.listReply
  else if cmd = bytes "/exit" then none
  else some (.err (bytes "BAD_CMD") (bytes "Unknown command '" ++ cmd ++ bytes "'"),
    cmd.length + 30)

/-! ### The lengths -/

/-- A blank before each name. -/
theorem length_blanks (names : List Bytes) :
    (names.flatMap fun name => bytes " " ++ name).length = names.flatten.length + names.length := by
  have h1 : (bytes " ").length = 1 := by decide
  induction names with
  | nil => rfl
  | cons name names ih =>
    rw [List.flatMap_cons, List.flatten_cons, List.length_append, List.length_append,
      List.length_append, ih, h1,
      List.length_cons]
    omega

theorem length_list (names : List Bytes) : (ServerLine.list names).payload.length =
    (toString names.length).length + names.flatten.length + names.length + 5 := by
  have h5 : (bytes "LIST ").length = 5 := by decide
  have hcount : (bytes (toString names.length)).length = (toString names.length).length := by
    rw [bytes, List.length_map, String.length_toList]
  simp only [ServerLine.payload, List.length_append, length_blanks, h5, hcount]
  omega

theorem length_listReply (b : Server) : b.listReply.1.payload.length = b.listReply.2 := by
  have hperm := List.perm_insertionSort (α := Bytes) (· ≤ ·) b.welcomedNames
  rw [listReply, length_list, hperm.length_eq, hperm.flatten.length_eq]

theorem takenReply_length {newNick : Bytes} (h : b.takenReply fd newNick = some (line, n)) :
    line.payload.length = n := by
  have h1 : (bytes "NICK_TAKEN").length = 10 := by decide
  have h2 : (bytes "Nickname '").length = 10 := by decide
  have h3 : (bytes "' is already in use").length = 19 := by decide
  rw [takenReply, Option.ite_none_right_eq_some] at h
  obtain ⟨rfl, rfl⟩ := Prod.mk.inj (Option.some.inj h.2)
  rw [length_err, List.length_append, List.length_append, h1, h2, h3]
  omega

theorem nickReply_length {args : Bytes} (h : b.nickReply fd args = some (line, n)) :
    line.payload.length = n := by
  unfold nickReply at h
  split at h
  · obtain ⟨rfl, rfl⟩ := Prod.mk.inj (Option.some.inj h)
    decide
  · obtain ⟨rfl, rfl⟩ := Prod.mk.inj (Option.some.inj h)
    decide
  · split_ifs at h
    · exact takenReply_length h
    · obtain ⟨rfl, rfl⟩ := Prod.mk.inj (Option.some.inj h)
      decide

theorem targetReply_length {target : Bytes} (h : b.targetReply fd target = some (line, n)) :
    line.payload.length = n := by
  unfold targetReply at h
  split_ifs at h
  · obtain ⟨rfl, rfl⟩ := Prod.mk.inj (Option.some.inj h)
    exact length_notFound target
  · obtain ⟨rfl, rfl⟩ := Prod.mk.inj (Option.some.inj h)
    exact length_self

theorem msgReply_length {args : Bytes} (h : b.msgReply fd args = some (line, n)) :
    line.payload.length = n := by
  unfold msgReply at h
  split_ifs at h
  · obtain ⟨rfl, rfl⟩ := Prod.mk.inj (Option.some.inj h)
    decide
  · exact targetReply_length h

/-- **The reply has the length that is given with it.** -/
theorem directReply_length {payload : Bytes} (h : b.directReply fd payload = some (line, n)) :
    line.payload.length = n := by
  unfold directReply at h
  dsimp only at h
  split_ifs at h
  · exact nickReply_length h
  · exact msgReply_length h
  · have hlen := length_listReply b
    rw [Option.some.inj h] at hlen
    exact hlen
  · have h7 : (bytes "BAD_CMD").length = 7 := by decide
    have h17 : (bytes "Unknown command '").length = 17 := by decide
    have h1 : (bytes "'").length = 1 := by decide
    obtain ⟨rfl, rfl⟩ := Prod.mk.inj (Option.some.inj h)
    rw [length_err, List.length_append, List.length_append, h7, h17, h1]
    omega

/-! ### What the thread has to do -/

/-- **Where a command is decided**: at once, or in one block that looks at the registry.
`reply` is what the command calls for, and `ops` what the thread has to do. -/
inductive Decides (fd : Fd) (serial : Option ℕ) (reply : Server → Option (ServerLine × ℕ)) :
    List Op → Prop where
  /-- It is an error whatever the registry has in it. -/
  | atOnce (code text : Bytes) (n : ℕ) (h : ∀ b, reply b = some (.err code text, n)) :
    Decides fd serial reply [sendError fd code text]
  /-- `handle_nick` has to look whether the nickname is taken. -/
  | nick (newNick : Bytes) (h : ∀ b, reply b = takenReply b fd newNick) :
    Decides fd serial reply [.handleNick fd newNick]
  /-- `handle_msg` has to look for the target. -/
  | msg (target text : Bytes) (h : ∀ b, reply b = targetReply b fd target) :
    Decides fd serial reply [.handleMsg fd target text serial]
  /-- `handle_list` has to look who is there. -/
  | list (h : ∀ b, reply b = some (listReply b)) : Decides fd serial reply [.handleList fd]

theorem decides_handleNick (fd : Fd) (args : Bytes) (serial : Option ℕ) :
    Decides fd serial (nickReply · fd args) (handleNick fd args) := by
  have hvalid : bytes "Nickname must be 1-" ++ bytes (toString maxNicknameLength) ++
      bytes " characters: letters, digits, '_' or '-' only" =
      bytes "Nickname must be 1-24 characters: letters, digits, '_' or '-' only" := by decide
  rcases hw : words args with _ | ⟨newNick, _ | ⟨_, _⟩⟩
  · simp only [handleNick, nickReply, hw]
    exact .atOnce _ _ 34 fun _ => rfl
  · simp only [handleNick, nickReply, hw, hvalid]
    split_ifs
    · exact .nick _ fun _ => rfl
    · exact .atOnce _ _ 83 fun _ => rfl
  · simp only [handleNick, nickReply, hw]
    exact .atOnce _ _ 49 fun _ => rfl

theorem decides_handleMsg (fd : Fd) (args : Bytes) (serial : Option ℕ) :
    Decides fd serial (msgReply · fd args) (handleMsg fd args serial) := by
  unfold handleMsg msgReply
  dsimp only
  split_ifs
  · exact .atOnce _ _ 46 fun _ => rfl
  · exact .msg _ _ fun _ => rfl

theorem decides_of_isCommand {payload : Bytes} (h : IsCommand payload) (serial : Option ℕ)
    (fd : Fd) : Decides fd serial (directReply · fd payload) (handleLine fd payload serial) := by
  obtain ⟨hhead, hexit⟩ := h
  have hne : (stripLine payload).isEmpty = false := by
    cases hl : stripLine payload with
    | nil => rw [hl] at hhead; cases hhead
    | cons => rfl
  unfold handleLine directReply
  simp only [hne, hhead, Bool.false_eq_true, if_false, if_true, hexit]
  split_ifs
  · exact decides_handleNick fd _ serial
  · exact decides_handleMsg fd _ serial
  · exact .list fun _ => rfl
  · exact .atOnce _ _ _ fun _ => rfl

/-! ### From the command to the reply -/

/-- **Where the thread is** with a command. -/
inductive Answering (config : LoadedConfig) (c : ConnId) (fd : Fd) (payload : Bytes)
    (serial : Option ℕ) (past : List (Server × Action)) (s : Server) : Prop where
  /-- It has to decide it. -/
  | deciding (ht : s.todo (.handler c) = handleLine fd payload serial) (hk : s.fds fd = some c)
    (hr : ∃ r, s.clients.find? fd = some r) (h : Sent config c [] past)
  /-- In `b` the command called for a reply, which the thread sends. -/
  | answering {b : Server} {ch : Choice} {g : Frame} {n : ℕ} (hb : (b, .run (.handler c) ch) ∈ past)
    (htb : b.todo (.handler c) = handleLine fd payload serial)
      (hg : b.directReply fd payload = some (g.line, n))
    (hd : g.cause = .direct) (h : Posting config c [⟨fd, g, c⟩] past s)
  /-- In `b` it called for none. -/
  | silent {b : Server} {ch : Choice} (hb : (b, .run (.handler c) ch) ∈ past)
    (htb : b.todo (.handler c) = handleLine fd payload serial)
      (hno : b.directReply fd payload = none)

theorem Answering.other {payload : Bytes} {serial : Option ℕ}
    (h : Answering config c fd payload serial past s) (hI : Inv s) (hq : Attends c s a)
    (ha : ∀ ch, a ≠ .run (.handler c) ch) (hs : step s a = some s') :
    Answering config c fd payload serial (past ++ [(s, a)]) s' := by
  cases h with
  | deciding ht hk hr hsent =>
    obtain ⟨r, hr⟩ := hr
    obtain ⟨hk', r', hr', -⟩ := own_client_stays hI ha hs hk hr
    exact .deciding ((todo_of_attends hq ha hs).trans ht) hk' ⟨r', hr'⟩
      (hsent.quiet (writes_of_ne ha) (finds_of_ne ha))
  | answering hb htb hg hd hp =>
    exact .answering (List.mem_append_left _ hb) htb hg hd (hp.other hq ha hs)
  | silent hb htb hno => exact .silent (List.mem_append_left _ hb) htb hno

/-- The block that decides a command posts what it calls for. -/
theorem decided_posts {reply : Server → Option (ServerLine × ℕ)} {serial : Option ℕ} {ops : List Op}
    {ch : Choice} (hdec : Decides fd serial reply ops) (ht : s.todo (.handler c) = ops)
    (hr : ∃ r, s.clients.find? fd = some r) (hsent : Sent config c [] past) (hc : s.config = config)
    (hs : step s (.run (.handler c) ch) = some s') :
    reply s = none ∨ ∃ g n, reply s = some (g.line, n) ∧ g.cause = .direct ∧
      Posting config c [⟨fd, g, c⟩] (past ++ [(s, .run (.handler c) ch)]) s' := by
  cases hdec with
  | atOnce code text n h =>
    have hpost : Posting config c [⟨fd, errFrame code text, c⟩] past s :=
      .lookup (List.nil_append _).symm ht hsent
    exact .inr ⟨errFrame code text, n, h s, rfl, hpost.own (distinct_direct rfl) hc hs⟩
  | nick newNick h =>
    obtain ⟨op, rest₀, s₁, new, ht₀, he, hs'⟩ := step_run hs
    obtain ⟨rfl, rfl⟩ := List.cons.inj (ht.symm.trans ht₀)
    rw [h, takenReply]
    by_cases hn : s.taken fd newNick = true
    · simp only [exec, renameClient, if_pos hn, Option.some.injEq, Prod.mk.injEq] at he
      obtain ⟨rfl, rfl⟩ := he
      rw [if_pos hn]
      refine .inr ⟨errFrame _ _, _, rfl, rfl, hsent.post hs ht rfl (by rw [hs']; rfl) ?_⟩
      rw [hs']
      exact Function.update_self ..
    · exact .inl (if_neg hn)
  | msg target text h =>
    obtain ⟨op, rest₀, s₁, new, ht₀, he, hs'⟩ := step_run hs
    obtain ⟨rfl, rfl⟩ := List.cons.inj (ht.symm.trans ht₀)
    obtain ⟨r, hr⟩ := hr
    rw [h, targetReply]
    simp only [exec, routeMsg, hr, Option.some.injEq, Prod.mk.injEq] at he
    obtain ⟨rfl, rfl⟩ := he
    have htodo := congrArg (fun t => t.todo (.handler c)) hs'
    simp only [setTodo, Function.update_self, List.append_nil] at htodo
    split_ifs at htodo ⊢
    · refine .inr ⟨errFrame (bytes "USER_NOT_FOUND")
        (bytes "User '" ++ target ++ bytes "' not found"), _, rfl, rfl, ?_⟩
      exact hsent.post hs ht rfl (by rw [hs']; rfl) htodo
    · refine .inr ⟨errFrame (bytes "MSG_SELF")
        (bytes "You cannot send a private message to yourself"), _, rfl, rfl, ?_⟩
      exact hsent.post hs ht rfl (by rw [hs']; rfl) htodo
    · exact .inl rfl
  | list h =>
    obtain ⟨op, rest₀, s₁, new, ht₀, he, hs'⟩ := step_run hs
    obtain ⟨rfl, rfl⟩ := List.cons.inj (ht.symm.trans ht₀)
    simp only [exec, Option.some.injEq, Prod.mk.injEq] at he
    obtain ⟨rfl, rfl⟩ := he
    refine .inr ⟨⟨s.listReply.1, .direct, none⟩, s.listReply.2, h s, rfl, ?_⟩
    refine hsent.post hs ht rfl (by rw [hs']; rfl) ?_
    rw [hs']
    exact Function.update_self ..

theorem Answering.own {payload : Bytes} {serial : Option ℕ} {ch : Choice}
    (h : Answering config c fd payload serial past s) (hcmd : IsCommand payload)
    (hc : s.config = config) (hs : step s (.run (.handler c) ch) = some s') :
    Answering config c fd payload serial (past ++ [(s, .run (.handler c) ch)]) s' := by
  have hlast : (s, Action.run (.handler c) ch) ∈ past ++ [(s, .run (.handler c) ch)] :=
    List.mem_append_right _ (List.mem_singleton_self _)
  cases h with
  | deciding ht hk hr hsent =>
    rcases decided_posts (decides_of_isCommand hcmd serial fd) ht hr hsent hc hs with hno
    | ⟨g, n, hg, hd, hp⟩
    · exact .silent hlast ht hno
    · exact .answering hlast ht hg hd hp
  | answering hb htb hg hd hp =>
    exact .answering (List.mem_append_left _ hb) htb hg hd (hp.own (distinct_direct hd) hc hs)
  | silent hb htb hno => exact .silent (List.mem_append_left _ hb) htb hno

theorem Answering.of_path {payload : Bytes} {serial : Option ℕ} {s₀ s₁ : Server}
    (h : Run step (init config) s₀) (hcmd : IsCommand payload)
    (h0 : Answering config c fd payload serial [] s₀) (hp : PathIn step (Attends c) s₀ past s₁) :
    Answering config c fd payload serial past s₁ := by
  apply at_work (c := c) h h0 hp
  · intro past s a s' hs hq ha hstep hA
    exact hA.other (inv_of_run hs) hq ha hstep
  · intro past s ch s' hs _ hstep hA
    exact hA.own hcmd (config_of_run hs) hstep

/-- A single frame that has been sent to the client itself. -/
theorem Sent.direct (h : Sent config c [⟨fd, g, c⟩] past) : (g ∈ writtenBy (.handler c) past c ↔
    g.line.payload.length ≤ config.1.maxMessageSize ∧ ∀ e ∈ past, Finds c e) ∧
    (config.1.maxMessageSize < g.line.payload.length → writtenBy (.handler c) past c = []) := by
  have hall := h.all
  rw [List.forall_mem_singleton, List.forall_mem_singleton] at hall
  refine ⟨hall, fun hlt => List.eq_nil_iff_forall_not_mem.mpr ?_⟩
  intro g' hg'
  obtain ⟨p, hp, rfl⟩ := h.only c g' hg'
  rw [List.mem_singleton.mp hp] at hg'
  exact absurd (hall.mp hg').1 (not_le.mpr hlt)

/-- **When a reply is sent.** The thread that has received a command can run its next block as long
as it has one: no lock is in its way, and a write is a step that does not wait here. What the
command calls for is decided in a state `b` of its own; that reply is within the limit, and gets
to a requester that is there, exactly if the length `directReply` gives is within it. If it is
not, the requester gets nothing. -/
theorem reply_is_sent_iff {rest : List ClientFrame} {s₀ : Server} (h : Run step (init config) s)
    (hin : s.inbox c = f :: rest) (hlen : f.payload.length ≤ config.1.maxMessageSize)
    (hf : IsCommand f.payload) (hs : step s (.recv c) = some s₀) :
    (∀ past s₁, PathIn step (Attends c) s₀ past s₁ → s₁.todo (.handler c) ≠ [] →
      ∀ ch, (step s₁ (.run (.handler c) ch)).isSome = true) ∧
    ∀ past s₁, PathIn step (Attends c) s₀ past s₁ → s₁.todo (.handler c) = [] →
      ∃ b ch, (b, .run (.handler c) ch) ∈ past ∧
        b.todo (.handler c) = handleLine (s.fdOf c) f.payload f.serial ∧
        ∀ reply n, b.directReply (s.fdOf c) f.payload = some (reply, n) →
          ((reply.payload.length ≤ config.1.maxMessageSize ∧
              ((∀ e ∈ past, Finds c e) → ∃ g ∈ writtenBy (.handler c) past c, g.line = reply)) ↔
            n ≤ config.1.maxMessageSize) ∧
          (config.1.maxMessageSize < n → writtenBy (.handler c) past c = []) := by
  have hrun := h.tail trivial hs
  obtain ⟨ht, -, hfds, hclients, hk, hr⟩ := received h hin hs
  have hline := handleFrame_of_fits hlen (s.fdOf c)
  have h0 : Answering config c (s.fdOf c) f.payload f.serial [] s₀ :=
    .deciding (ht.trans hline) (hfds ▸ hk) (hclients ▸ hr) (sent_nil config c)
  refine ⟨fun past s₁ hp hne ch => goes_on hrun hp hne ch, ?_⟩
  intro past s₁ hp hd
  cases h0.of_path hrun hf hp with
  | deciding ht' =>
    rw [hd] at ht'
    have hops := decides_of_isCommand hf f.serial (s.fdOf c)
    rw [← ht'] at hops
    cases hops
  | @answering b ch g n hb htb hg _ hpost =>
    refine ⟨b, ch, hb, htb, ?_⟩
    intro reply m hm
    obtain ⟨rfl, rfl⟩ := Prod.mk.inj (Option.some.inj (hg.symm.trans hm))
    obtain ⟨hsent, hnone⟩ := (hpost.sent hd).direct
    rw [directReply_length hg] at hsent hnone ⊢
    refine ⟨⟨fun h => h.1, fun hn => ⟨hn, fun he => ⟨g, hsent.mpr ⟨hn, he⟩, rfl⟩⟩⟩, hnone⟩
  | @silent b ch hb htb hno =>
    refine ⟨b, ch, hb, htb, ?_⟩
    intro reply m hm
    rw [hno] at hm
    cases hm

set_option maxRecDepth 16000 in
theorem list_is_answered : ∃ s s₀ past s₁, Run step (init .default) s ∧
    s.inbox 0 = [⟨bytes "/list", none⟩] ∧ step s (.recv 0) = some s₀ ∧
    PathIn step (Attends 0) s₀ past s₁ ∧ s₁.todo (.handler 0) = [] ∧
    ∃ g ∈ writtenBy (.handler 0) past 0, g.line = .list [bytes "User1", bytes "User2"] := by
  obtain ⟨s, hs, hin, hfd, hk, hall⟩ :=
    exists_run_of_any step (init .default) (lineArrives (bytes "/list"))
    (fun s => s.inbox 0 = [⟨bytes "/list", none⟩] ∧ s.fdOf 0 = 5 ∧
      (step s (.recv 0)).isSome = true ∧
      (step s (.recv 0)).all (fun s₀ =>
        (execAllIn step (Attends 0) s₀ (blocks (.handler 0) 3)).map
          (fun s₁ => s₁.todo (.handler 0)) = some [] ∧
        ∀ e ∈ trace step s₀ (blocks (.handler 0) 3), Finds 0 e ∧
          e.1.directReply 5 (bytes "/list") =
            some (.list [bytes "User1", bytes "User2"], 18)) = true) (by decide)
  obtain ⟨s₀, hs₀⟩ := Option.isSome_iff_exists.mp hk
  rw [hs₀, Option.all_some, decide_eq_true_eq] at hall
  obtain ⟨hexec, hsteps⟩ := hall
  obtain ⟨s₁, hp, hd⟩ := exists_pathIn_of_execAllIn hexec
  have hlen : (⟨bytes "/list", none⟩ : ClientFrame).payload.length ≤
      LoadedConfig.default.1.maxMessageSize := by decide
  obtain ⟨b, ch, hb, -, hreply⟩ := (reply_is_sent_iff hs hin hlen (by decide) hs₀).2 _ s₁ hp hd
  rw [hfd] at hreply
  obtain ⟨hiff, -⟩ := hreply _ _ (hsteps _ hb).2
  exact ⟨s, s₀, _, s₁, hs, hin, hs₀, hp, hd, (hiff.mpr (by decide)).2 fun e he => (hsteps e he).1⟩

set_option maxRecDepth 16000 in
/-- **A command that is never answered.** The nickname has a character that is not allowed; the
error has 83 bytes, which is more than the limit of 64. The client is there all the time, and
has got nothing since it was welcomed but the announcement of another client. -/
theorem invalid_nick_is_not_answered :
    (∀ b : Server, b.directReply 5 (bytes "/nick a!") = some (.err (bytes "NICK_INVALID")
      (bytes "Nickname must be 1-24 characters: letters, digits, '_' or '-' only"), 83)) ∧
    (bytes "/nick a!").length ≤ smallConfig.1.maxMessageSize ∧
    ∃ s : Server, Run step (init smallConfig) s ∧ s.inbox 0 = [] ∧ s.todo (.handler 0) = [] ∧
      s.alive 0 = true ∧
      s.clients.find? 5 = some ⟨bytes "User1", true⟩ ∧ s.fds 5 = some 0 ∧ s.broken 0 = false ∧
      (s.written 0).map (·.line) =
      [.welcome (bytes "User1"), .sys (bytes "User2 has joined.")] := by
  refine ⟨?_, by decide, ?_⟩
  · intro b
    have hword : (splitFirst (stripLine (bytes "/nick a!"))) = (bytes "/nick", bytes "a!") := by
      decide
    have hargs : words (bytes "a!") = [bytes "a!"] := by decide
    have hvalid : isValidNickname (bytes "a!") = false := by decide
    simp only [directReply, hword, nickReply, hargs, hvalid, if_true, Bool.false_eq_true, if_false]
  · exact exists_run_of_any step (init smallConfig)
      (lineArrives (bytes "/nick a!") ++ .recv 0 :: blocks (.handler 0) 2)
      (fun s => s.inbox 0 = [] ∧ s.todo (.handler 0) = [] ∧ s.alive 0 = true ∧
        s.clients.find? 5 = some ⟨bytes "User1", true⟩ ∧ s.fds 5 = some 0 ∧ s.broken 0 = false ∧
        (s.written 0).map (·.line) = [.welcome (bytes "User1"), .sys (bytes "User2 has joined.")])
        (by decide)

end Server

end ThreadLink.Backend
