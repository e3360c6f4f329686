import ThreadLink.Backend.Posting

/-!
# Confirming a private message

`handle_msg` sends `PRIV` to the target and then `PRIV_SENT` to the sender, whether the first
has been written or not. The two frames do not have the same length either: one has the nickname
of the sender in it, the other that of the target.

## What is proved

* `routeMsg_eq` — what a private message posts, by what is found in the registry.
* `told_truly_iff` — the sender is told the truth exactly if what is posted fits and reaches its
  receivers. In every other case it is told that a message was sent that was not, or is told
  nothing.
* `confirmed_but_dropped` — a message that nobody gets and that is confirmed.
-/

namespace ThreadLink.Backend

open Text Runs

/-- An error to a client. -/
def errFrame (code text : Bytes) : Frame := ⟨.err code text, .direct, none⟩

namespace Server

variable {config : LoadedConfig} {s s' b : Server} {a : Action} {c k : ConnId} {fd : Fd}
  {nick target text : Bytes}
  {serial : Option ℕ} {past : List (Server × Action)}

/-- What is posted for a private message from connection `c`. -/
def routePosts (b : Server) (c : ConnId) (fd : Fd) (nick target text : Bytes) (serial : Option ℕ) :
    List Post :=
  let targetFd := b.findTarget target
  if targetFd = -1 then
    [⟨fd, errFrame (bytes "USER_NOT_FOUND") (bytes "User '" ++ target ++ bytes "' not found"), c⟩]
  else if targetFd = fd then
    [⟨fd, errFrame (bytes "MSG_SELF") (bytes "You cannot send a private message to yourself"), c⟩]
  else
    match b.fds targetFd with
    | none => []
    | some k =>
      [⟨targetFd, privFrame c k nick text serial, k⟩, ⟨fd, sentFrame target text serial, c⟩]

theorem routeMsg_eq (hI : Inv b) {r : ClientRecord} (hr : b.clients.find? fd = some r)
    (target text : Bytes) (serial : Option ℕ) :
    b.routeMsg (.handler c) fd target text serial =
    postOps (b.routePosts c fd r.nickname target text serial) := by
  unfold routeMsg routePosts
  simp only [hr]
  split_ifs with h1 h2
  · rfl
  · rfl
  · obtain ⟨r', hr', -, -⟩ := findTarget_spec h1
    obtain ⟨k, hk, -⟩ := hI.owner _ _ hr'
    rw [hk]
    rfl

theorem distinct_routePosts (b : Server) (c : ConnId) (fd : Fd) (nick target text : Bytes)
    (serial : Option ℕ) : Distinct c (b.routePosts c fd nick target text serial) := by
  unfold routePosts
  dsimp only
  split_ifs
  · exact distinct_direct rfl
  · exact distinct_direct rfl
  · split
    · exact ⟨List.nodup_nil, fun p hp => absurd hp List.not_mem_nil⟩
    · constructor
      · refine List.nodup_cons.mpr ⟨?_, List.nodup_singleton _⟩
        intro h
        have hl := congrArg Frame.line (List.mem_singleton.mp h)
        cases hl
      · intro p hp
        rcases List.mem_cons.mp hp with rfl | hp
        · rfl
        · rw [List.mem_singleton.mp hp]
          rfl

/-! ### The lengths -/

/-- **The frames of a private message fit**: the message and its confirmation, or the error. -/
def MsgFits (config : LoadedConfig) (b : Server) (fd : Fd) (nick target text : Bytes) : Prop :=
  if b.findTarget target = -1 then target.length + 36 ≤ config.1.maxMessageSize
  else if b.findTarget target = fd then True
  else nick.length + text.length + 6 ≤ config.1.maxMessageSize ∧
    target.length + text.length + 11 ≤ config.1.maxMessageSize

theorem length_priv (nick text : Bytes) :
    (ServerLine.priv nick text).payload.length = nick.length + text.length + 6 := by
  have h5 : (bytes "PRIV ").length = 5 := by decide
  have h1 : (bytes " ").length = 1 := by decide
  simp only [ServerLine.payload, List.length_append, h5, h1]
  omega

theorem length_privSent (target text : Bytes) :
    (ServerLine.privSent target text).payload.length = target.length + text.length + 11 := by
  have h10 : (bytes "PRIV_SENT ").length = 10 := by decide
  have h1 : (bytes " ").length = 1 := by decide
  simp only [ServerLine.payload, List.length_append, h10, h1]
  omega

theorem length_err (code text : Bytes) :
    (ServerLine.err code text).payload.length = code.length + text.length + 5 := by
  have h4 : (bytes "ERR ").length = 4 := by decide
  have h1 : (bytes " ").length = 1 := by decide
  simp only [ServerLine.payload, List.length_append, h4, h1]
  omega

theorem length_notFound (target : Bytes) :
    (errFrame (bytes "USER_NOT_FOUND")
      (bytes "User '" ++ target ++ bytes "' not found")).line.payload.length =
      target.length + 36 := by
  have h1 : (bytes "USER_NOT_FOUND").length = 14 := by decide
  have h2 : (bytes "User '").length = 6 := by decide
  have h3 : (bytes "' not found").length = 11 := by decide
  rw [errFrame, length_err, List.length_append, List.length_append, h1, h2, h3]
  omega

theorem length_self :
    (errFrame (bytes "MSG_SELF")
      (bytes "You cannot send a private message to yourself")).line.payload.length =
    58 := by
  rw [errFrame, length_err]
  decide

theorem fits_routePosts (hI : Inv b) (c : ConnId) (nick target text : Bytes) (serial : Option ℕ) :
    (∀ p ∈ b.routePosts c fd nick target text serial, p.Fits config) ↔
    MsgFits config b fd nick target text := by
  have hmin := config.2.maxMessageSize.1
  unfold routePosts MsgFits
  dsimp only
  split_ifs with h1 h2
  · rw [List.forall_mem_singleton, Post.Fits, length_notFound]
  · rw [List.forall_mem_singleton, Post.Fits, length_self]
    exact iff_of_true (by omega) trivial
  · obtain ⟨r', hr', -, -⟩ := findTarget_spec h1
    obtain ⟨k, hk, -⟩ := hI.owner _ _ hr'
    rw [hk]
    simp only [List.forall_mem_cons, List.not_mem_nil, false_implies, implies_true, and_true,
      Post.Fits, privFrame,
      sentFrame, length_priv, length_privSent]

/-! ### What the sender is told -/

/-- **The sender is told the truth**: it gets `PRIV_SENT` exactly if `PRIV` has been written to
the connection that had the nickname when it was looked up, and an error if it does not. -/
def ToldTruly (c : ConnId) (nick target text : Bytes) (serial : Option ℕ)
    (past : List (Server × Action)) : Prop :=
  (sentFrame target text serial ∈ writtenBy (.handler c) past c ↔
    ∃ k, privFrame c k nick text serial ∈ writtenBy (.handler c) past k) ∧
  (sentFrame target text serial ∉ writtenBy (.handler c) past c →
    ∃ g ∈ writtenBy (.handler c) past c, g.IsErr)

/-- If all that is sent is an error, the truth is that error. -/
theorem Sent.toldTruly_of_err {code words : Bytes}
    (h : Sent config c [⟨fd, errFrame code words, c⟩] past) (hw : IsWord code) :
    ToldTruly c nick target text serial past ↔
      (∀ p ∈ [Post.mk fd (errFrame code words) c], p.Fits config) ∧ ∀ e ∈ past, Finds c e := by
  have honly {k : ConnId} {g : Frame} (hg : g ∈ writtenBy (.handler c) past k) :
      g = errFrame code words := by
    obtain ⟨p, hp, rfl⟩ := h.only k g hg
    rw [List.mem_singleton.mp hp]
  have hsent : sentFrame target text serial ∉ writtenBy (.handler c) past c := fun hg => by
    cases congrArg Frame.line (honly hg)
  have hpriv : ¬∃ k, privFrame c k nick text serial ∈ writtenBy (.handler c) past k :=
      fun ⟨k, hg⟩ => by
    cases congrArg Frame.line (honly hg)
  rw [← h.all, List.forall_mem_singleton]
  constructor
  · rintro ⟨-, herr⟩
    obtain ⟨g, hg, -⟩ := herr hsent
    exact honly hg ▸ hg
  · intro hg
    exact ⟨iff_of_false hsent hpriv, fun _ => ⟨_, hg, code, words, hw, rfl⟩⟩

/-- If a message and its confirmation are sent, the truth is both. -/
theorem Sent.toldTruly_of_priv {fd' : Fd}
    (h : Sent config c [⟨fd', privFrame c k nick text serial, k⟩,
      ⟨fd, sentFrame target text serial, c⟩] past) :
    ToldTruly c nick target text serial past ↔
      (∀ p ∈ [Post.mk fd' (privFrame c k nick text serial) k,
        ⟨fd, sentFrame target text serial, c⟩], p.Fits config) ∧
        ∀ e ∈ past, Finds c e := by
  have honly {k' : ConnId} {g : Frame} (hg : g ∈ writtenBy (.handler c) past k') :
      g = privFrame c k nick text serial ∨ g = sentFrame target text serial := by
    obtain ⟨p, hp, rfl⟩ := h.only k' g hg
    rcases List.mem_cons.mp hp with rfl | hp
    · exact .inl rfl
    · rw [List.mem_singleton.mp hp]
      exact .inr rfl
  have hpriv : (∃ k', privFrame c k' nick text serial ∈ writtenBy (.handler c) past k') ↔
      privFrame c k nick text serial ∈ writtenBy (.handler c) past k := by
    refine ⟨?_, fun hg => ⟨k, hg⟩⟩
    rintro ⟨k', hg⟩
    rcases honly hg with he | he
    · obtain ⟨-, hk⟩ := Cause.priv.inj (congrArg Frame.cause he)
      obtain rfl := Option.some.inj hk
      exact hg
    · cases congrArg Frame.line he
  -- there is no error among them
  have herr : ¬∃ g ∈ writtenBy (.handler c) past c, g.IsErr := by
    rintro ⟨g, hg, code, words, -, hl⟩
    rcases honly hg with rfl | rfl <;> cases hl
  rw [← h.all, List.forall_mem_cons, List.forall_mem_singleton, ToldTruly, hpriv]
  constructor
  · rintro ⟨hiff, hno⟩
    have hs := not_not.mp fun hn => herr (hno hn)
    exact ⟨hiff.mp hs, hs⟩
  · rintro ⟨hp, hs⟩
    exact ⟨iff_of_true hs hp, fun hn => absurd hs hn⟩

theorem Sent.toldTruly (hI : Inv b)
    (h : Sent config c (b.routePosts c fd nick target text serial) past) :
    ToldTruly c nick target text serial past ↔
      MsgFits config b fd nick target text ∧ ∀ e ∈ past, Finds c e := by
  rw [← fits_routePosts hI c nick target text serial]
  revert h
  unfold routePosts
  dsimp only
  split_ifs with h1 h2
  · exact fun h => h.toldTruly_of_err (by decide)
  · exact fun h => h.toldTruly_of_err (by decide)
  · obtain ⟨r', hr', -, -⟩ := findTarget_spec h1
    obtain ⟨k, hk, -⟩ := hI.owner _ _ hr'
    rw [hk]
    exact fun h => h.toldTruly_of_priv

/-! ### From the lookup to the last frame -/

/-- **Where the thread is** with a private message. -/
inductive Messaging (config : LoadedConfig) (c : ConnId) (fd : Fd) (nick target text : Bytes)
    (serial : Option ℕ) (past : List (Server × Action)) (s : Server) : Prop where
  /-- It has to route it. -/
  | routing (ht : s.todo (.handler c) = [.handleMsg fd target text serial]) (hk : s.fds fd = some c)
    (hr : ∃ r, s.clients.find? fd = some r ∧ r.nickname = nick) (h : Sent config c [] past)
  /-- It has routed it in `b`, and sends what it has posted. -/
  | posting {b : Server} {ch : Choice} (hb : (b, .run (.handler c) ch) ∈ past)
    (htb : b.todo (.handler c) = [.handleMsg fd target text serial])
    (h : Posting config c (b.routePosts c fd nick target text serial) past s)

theorem Messaging.other (h : Messaging config c fd nick target text serial past s) (hI : Inv s)
    (hq : Attends c s a) (ha : ∀ ch, a ≠ .run (.handler c) ch) (hs : step s a = some s') :
    Messaging config c fd nick target text serial (past ++ [(s, a)]) s' := by
  cases h with
  | routing ht hk hr hsent =>
    obtain ⟨r, hr, hn⟩ := hr
    obtain ⟨hk', r', hr', hn'⟩ := own_client_stays hI ha hs hk hr
    exact .routing ((todo_of_attends hq ha hs).trans ht) hk' ⟨r', hr', hn'.trans hn⟩
      (hsent.quiet (writes_of_ne ha) (finds_of_ne ha))
  | posting hb htb hp => exact .posting (List.mem_append_left _ hb) htb (hp.other hq ha hs)

theorem Messaging.own {ch : Choice} (h : Messaging config c fd nick target text serial past s)
    (hI : Inv s) (hc : s.config = config) (hs : step s (.run (.handler c) ch) = some s') :
    Messaging config c fd nick target text serial (past ++ [(s, .run (.handler c) ch)]) s' := by
  cases h with
  | routing ht hk hr hsent =>
    obtain ⟨r, hr, rfl⟩ := hr
    obtain ⟨op, rest₀, s₁, new, ht₀, he, hs'⟩ := step_run hs
    obtain ⟨rfl, rfl⟩ := List.cons.inj (ht.symm.trans ht₀)
    simp only [exec, Option.some.injEq, Prod.mk.injEq, routeMsg_eq hI hr] at he
    obtain ⟨rfl, rfl⟩ := he
    refine .posting (List.mem_append_right _ (List.mem_singleton_self _)) ht ?_
    refine hsent.post hs ht rfl (by rw [hs']; rfl) ?_
    rw [hs', List.append_nil]
    exact Function.update_self ..
  | posting hb htb hp =>
    exact .posting (List.mem_append_left _ hb) htb (hp.own (distinct_routePosts ..) hc hs)

theorem Messaging.of_path {s₀ s₁ : Server} (h : Run step (init config) s₀)
    (h0 : Messaging config c fd nick target text serial [] s₀)
    (hp : PathIn step (Attends c) s₀ past s₁) :
    Messaging config c fd nick target text serial past s₁ := by
  apply at_work (c := c) h h0 hp
  · intro past s a s' hs hq ha hstep hM
    exact hM.other (inv_of_run hs) hq ha hstep
  · intro past s ch s' hs _ hstep hM
    exact hM.own (inv_of_run hs) (config_of_run hs) hstep

/-- One that answers what it has received with one frame has only that to send. -/
theorem posting_of_recv {f : ClientFrame} {rest : List ClientFrame} {s₀ : Server} {g : Frame}
    (h : Run step (init config) s) (hin : s.inbox c = f :: rest) (hs : step s (.recv c) = some s₀)
    (hg : handleFrame config.1 (s.fdOf c) f = [.sendToFd (s.fdOf c) g]) :
    Posting config c [⟨s.fdOf c, g, c⟩] [] s₀ := by
  obtain ⟨ht, -⟩ := received h hin hs
  exact .lookup (List.nil_append _).symm (ht.trans hg) (sent_nil config c)

/-- The frame is a `/msg` without a target or a text. -/
def Misuses (f : ClientFrame) : Prop :=
  (splitFirst (stripLine f.payload)).1 = bytes "/msg" ∧
    ((splitFirst (splitFirst (stripLine f.payload)).2).1 = [] ∨
      (splitFirst (splitFirst (stripLine f.payload)).2).2 = [])

/-- The usage of `/msg`. -/
def msgUsage : Frame := errFrame (bytes "MSG_USAGE") (bytes "Usage: /msg <nickname> <message>")

theorem handleLine_of_misuses {f : ClientFrame} (h : Misuses f) (fd : Fd) :
    handleLine fd f.payload f.serial = [.sendToFd fd msgUsage] := by
  obtain ⟨hcmd, hu⟩ := h
  have hh := head?_of_word (b := 47) (w := bytes "msg") hcmd
  have he : (stripLine f.payload).isEmpty = false := by
    cases hl : stripLine f.payload with
    | nil => rw [hl] at hh; cases hh
    | cons => rfl
  have hne : bytes "/msg" ≠ bytes "/nick" := by decide
  have hu' : ((splitFirst (splitFirst (stripLine f.payload)).2).1.isEmpty ||
      (splitFirst (splitFirst (stripLine f.payload)).2).2.isEmpty) = true := by
    rcases hu with hu | hu <;> simp [hu]
  simp only [handleLine, he, hh, hcmd, hne, Bool.false_eq_true, if_false, if_true, handleMsg, hu']
  rfl

/-- **When the sender is told the truth.** The thread that has received a `/msg` can run its next
block as long as it has one: no lock is in its way, and a write is a step that does not wait here.
When it has nothing left to do, it has told the sender the truth exactly if the frames it posted
fit, by what it found in the registry in `b`, and each of its steps reached the receiver. -/
theorem told_truly_iff {f : ClientFrame} {rest : List ClientFrame} {r : ClientRecord} {s₀ : Server}
    (h : Run step (init config) s) (hr : s.clients.find? (s.fdOf c) = some r)
    (hin : s.inbox c = f :: rest) (hlen : f.payload.length ≤ config.1.maxMessageSize)
    (hs : step s (.recv c) = some s₀) :
    (∀ target text, f.Messages target text →
      (∀ past s₁, PathIn step (Attends c) s₀ past s₁ → s₁.todo (.handler c) ≠ [] →
        ∀ ch, (step s₁ (.run (.handler c) ch)).isSome = true) ∧
      ∀ past s₁, PathIn step (Attends c) s₀ past s₁ → s₁.todo (.handler c) = [] →
        ∃ b ch, (b, .run (.handler c) ch) ∈ past ∧
          b.todo (.handler c) = [.handleMsg (s.fdOf c) target text f.serial] ∧
          (ToldTruly c r.nickname target text f.serial past ↔
            MsgFits config b (s.fdOf c) r.nickname target text ∧ ∀ e ∈ past, Finds c e)) ∧
    (Misuses f →
      (∀ past s₁, PathIn step (Attends c) s₀ past s₁ → s₁.todo (.handler c) ≠ [] →
        ∀ ch, (step s₁ (.run (.handler c) ch)).isSome = true) ∧
      ∀ past s₁, PathIn step (Attends c) s₀ past s₁ → s₁.todo (.handler c) = [] →
        ∀ target text, ToldTruly c r.nickname target text f.serial past ↔
          ∀ e ∈ past, Finds c e) := by
  have hrun := h.tail trivial hs
  have hnext : ∀ past s₁, PathIn step (Attends c) s₀ past s₁ → s₁.todo (.handler c) ≠ [] →
      ∀ ch, (step s₁ (.run (.handler c) ch)).isSome = true :=
    fun past s₁ hp hne ch => goes_on hrun hp hne ch
  have hline := handleFrame_of_fits hlen (s.fdOf c)
  constructor
  · intro target text hf
    obtain ⟨ht, -, hfds, hclients, hk, -⟩ := received h hin hs
    have h0 : Messaging config c (s.fdOf c) r.nickname target text f.serial [] s₀ := by
      refine .routing ?_ (hfds ▸ hk) ⟨r, hclients ▸ hr, rfl⟩ (sent_nil config c)
      rw [ht, hline, handleLine_of_messages hf]
    refine ⟨hnext, ?_⟩
    intro past s₁ hp hd
    cases h0.of_path hrun hp with
    | routing ht => rw [hd] at ht; cases ht
    | @posting b ch hb htb hpost =>
      have hI := inv_of_run (hrun.trans (hp.mem hb).1.run)
      exact ⟨b, ch, hb, htb, (hpost.sent hd).toldTruly hI⟩
  · intro hf
    have h0 : Posting config c [⟨s.fdOf c, msgUsage, c⟩] [] s₀ :=
      posting_of_recv h hin hs (hline.trans (handleLine_of_misuses hf _))
    have hd1 : Distinct c [⟨s.fdOf c, msgUsage, c⟩] := distinct_direct rfl
    refine ⟨hnext, ?_⟩
    intro past s₁ hp hd target text
    rw [((h0.of_path hrun hd1 hp).sent hd).toldTruly_of_err (by decide), List.forall_mem_singleton]
    apply and_iff_right
    have hmin := config.2.maxMessageSize.1
    have husage : msgUsage.line.payload.length = 46 := by decide
    exact (Nat.le_of_eq husage).trans (by omega)

set_option maxRecDepth 16000 in
theorem msg_is_routed : ∃ s s₀ past s₁, Run step (init .default) s ∧
    s.inbox 0 = [⟨bytes "/msg User2 hi", none⟩] ∧ step s (.recv 0) = some s₀ ∧
    PathIn step (Attends 0) s₀ past s₁ ∧ s₁.todo (.handler 0) = [] ∧
    ToldTruly 0 (bytes "User1") (bytes "User2") (bytes "hi") none past := by
  obtain ⟨s, hs, hr, hin, hfd, hk, hall⟩ :=
    exists_run_of_any step (init .default) (lineArrives (bytes "/msg User2 hi"))
    (fun s => s.clients.find? 5 = some ⟨bytes "User1", true⟩ ∧
      s.inbox 0 = [⟨bytes "/msg User2 hi", none⟩] ∧ s.fdOf 0 = 5 ∧
      (step s (.recv 0)).isSome = true ∧
      (step s (.recv 0)).all (fun s₀ =>
        (execAllIn step (Attends 0) s₀ (blocks (.handler 0) 5)).map
          (fun s₁ => s₁.todo (.handler 0)) = some [] ∧
        ∀ e ∈ trace step s₀ (blocks (.handler 0) 5), Finds 0 e) = true) (by decide)
  obtain ⟨s₀, hs₀⟩ := Option.isSome_iff_exists.mp hk
  rw [hs₀, Option.all_some, decide_eq_true_eq] at hall
  obtain ⟨hexec, hfinds⟩ := hall
  obtain ⟨s₁, hp, hd⟩ := exists_pathIn_of_execAllIn hexec
  have hf : ClientFrame.Messages ⟨bytes "/msg User2 hi", none⟩ (bytes "User2") (bytes "hi") :=
    ⟨by decide, by decide, by decide, by decide⟩
  obtain ⟨b, ch, -, -, hiff⟩ :=
    ((told_truly_iff hs (hfd ▸ hr) hin (by decide) hs₀).1 _ _ hf).2 _ s₁ hp hd
  have hfits : MsgFits .default b (s.fdOf 0) (bytes "User1") (bytes "User2") (bytes "hi") := by
    unfold MsgFits
    split_ifs <;> decide
  exact ⟨s, s₀, _, s₁, hs, hin, hs₀, hp, hd, hiff.mpr ⟨hfits, hfinds⟩⟩

/-- A nickname of 24 bytes. -/
def longNick : Bytes := List.replicate 24 98

/-- A private message of 40 bytes to the second client. -/
def longMsg : ClientFrame := ⟨bytes "/msg User2 " ++ List.replicate 40 97, none⟩

/-- The first client takes a long nickname and sends the message. -/
def longMsgSent : List Action :=
  admits 5 0 ++ admits 6 1 ++ blocks .main 1 ++
    .arrive 0 ⟨bytes "/nick " ++ longNick, none⟩ :: .arrive 0 longMsg :: .recv 0 ::
    blocks (.handler 0) 4 ++
    .recv 0 :: blocks (.handler 0) 5

set_option maxRecDepth 16000 in
/-- **A message that nobody gets and that is confirmed.** It is within the limit of 64 bytes when
it is received. With the nickname of its sender it has 70 and is not sent; the confirmation has
56. The second client is there all the time. -/
theorem confirmed_but_dropped : longMsg.payload.length ≤ smallConfig.1.maxMessageSize ∧
    longMsg.Messages (bytes "User2") (List.replicate 40 97) ∧
    ∃ s : Server, Run step (init smallConfig) s ∧ s.clients.find? 6 = some ⟨bytes "User2", true⟩ ∧
      s.fds 6 = some 1 ∧
      s.broken 1 = false ∧ s.inbox 0 = [] ∧ s.todo (.handler 0) = [] ∧ s.alive 0 = true ∧
      .privSent (bytes "User2") (List.replicate 40 97) ∈ (s.written 0).map (·.line) ∧
      (s.written 1).map (·.line) = [.welcome (bytes "User2"), .nick (bytes "User1") longNick] := by
  refine ⟨by decide, ⟨by decide, by decide, by decide, by decide⟩, ?_⟩
  exact exists_run_of_any step (init smallConfig) longMsgSent
    (fun s => s.clients.find? 6 = some ⟨bytes "User2", true⟩ ∧ s.fds 6 = some 1 ∧
      s.broken 1 = false ∧ s.inbox 0 = [] ∧ s.todo (.handler 0) = [] ∧ s.alive 0 = true ∧
      .privSent (bytes "User2") (List.replicate 40 97) ∈ (s.written 0).map (·.line) ∧
      (s.written 1).map (·.line) = [.welcome (bytes "User2"), .nick (bytes "User1") longNick])
      (by decide)

end Server

end ThreadLink.Backend
