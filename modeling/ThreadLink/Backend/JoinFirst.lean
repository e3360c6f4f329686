import ThreadLink.Backend.Joining
import ThreadLink.Backend.Routing

/-!
# Who has joined comes first

A client is announced to the others by the accept thread, which has started the client's handler
thread the block before. Both write to the others under no more than a write mutex, so what the new
client says may be written before it is announced.

## The model

* `Frame.Follows` — the frames that a client causes and that are to come after its announcement.
* `JoinFirst` — the order, in what has been written to an observer.
* `Observes` — the observer is there, and welcomed.
* `Waits` — the handler thread writes to the observer only what the accept thread is done with.

## What is proved

* `subjects_of_run` — a frame that a client causes is said by its own thread, but for the
  announcement.
* `join_comes_first` — **in every run in which the handler thread waits, who has joined comes
  first**.
* `said_before_joined` — without that, a chat line comes first.
-/

namespace ThreadLink.Backend

open Text Runs

/-- The connection something is about. -/
def Cause.subject : Cause → Option ConnId
  | .broadcast about _ => about
  | .priv sender _ => sender
  | .direct => none

/-- The connection a block is going to say something about. -/
def Op.subject : Op → Option ConnId
  | .broadcast _ _ about _ => about
  | .sendToFd _ f | .sendFrame _ f => f.cause.subject
  | _ => none

/-- **A frame that is to come after the announcement** of the client that causes it: NICK, MSG,
PRIV, and that it has left. -/
def Frame.Follows (x : ConnId) (f : Frame) : Prop :=
  f.cause.subject = some x ∧
    match f.line with
    | .nick _ _ | .msg _ _ | .priv _ _ => True
    | .sys text => bytes " has left." <:+ text
    | _ => False

instance instDecidableFollows (x : ConnId) (f : Frame) : Decidable (f.Follows x) := by
  unfold Frame.Follows
  cases f.line <;> infer_instance

/-- A block that announces a connection to a descriptor, or is going to. -/
def Op.Tells (x : ConnId) (fd : Fd) : Op → Prop
  | .broadcast _ excludeFd about _ => about = some x ∧ excludeFd ≠ fd
  | .sendFrame fd' f => fd' = fd ∧ f.cause.subject = some x
  | _ => False

instance instDecidableTells (x : ConnId) (fd : Fd) (op : Op) : Decidable (op.Tells x fd) := by
  cases op <;> unfold Op.Tells <;> infer_instance

/-- The line that announces a nickname. -/
def joinLine (nickname : Bytes) : ServerLine := .sys (nickname ++ bytes " has joined.")

namespace Server

variable {config : LoadedConfig} {s s' s₀ s₁ : Server} {a : Action} {t : Tid} {ch : Choice}
  {op : Op}
  {rest new : List Op} {x k : ConnId} {fd : Fd} {f g : Frame} {past : List (Server × Action)}
    {nickname : Bytes}

/-- The frame announces a connection under the nickname it has been assigned. -/
def Joins (s : Server) (x : ConnId) (g : Frame) : Prop :=
  ∃ nickname, s.assigned x = some nickname ∧ g.line = joinLine nickname ∧ g.cause.subject = some x

/-- **The order**: what a connection causes comes after its announcement. -/
def JoinFirst (x k : ConnId) (s : Server) : Prop :=
  ∀ pre f post, s.written k = pre ++ f :: post → f.Follows x → ∃ g ∈ pre, s.Joins x g

/-- The observer is there, and has been welcomed. -/
def Observes (s : Server) (k : ConnId) (fd : Fd) : Prop :=
  s.fds fd = some k ∧ ∃ r ∈ s.clients.find? fd, r.welcomed = true

instance instDecidableObserves (s : Server) (k : ConnId) (fd : Fd) : Decidable (s.Observes k fd) :=
  inferInstanceAs (Decidable (_ ∧ ∃ r ∈ s.clients.find? fd, _))

/-- The accept thread is not done with announcing a connection to a descriptor. -/
def StillTells (s : Server) (x : ConnId) (fd : Fd) : Prop := ∃ op ∈ s.todo .main, op.Tells x fd

instance instDecidableStillTells (s : Server) (x : ConnId) (fd : Fd) :
    Decidable (s.StillTells x fd) :=
  inferInstanceAs (Decidable (∃ op ∈ s.todo .main, _))

/-- **The handler thread waits**: when the accept thread is not done with announcing the client to
the observer, it writes nothing to the observer that is to come later, or its write fails. -/
def Waits (x k : ConnId) (fd : Fd) (s : Server) : Action → Prop
  | .run t ch =>
    match s.todo t with
    | .sendFrame fd' f :: _ =>
      t = .handler x → fd' = fd → f.Follows x → f.line.payload.length ≤ s.config.1.maxMessageSize →
        ch.ok = true → s.broken k = false → ¬ s.StillTells x fd
    | _ => True
  | _ => True

instance instDecidableWaits (x k : ConnId) (fd : Fd) (s : Server) (a : Action) :
    Decidable (Waits x k fd s a) := by
  unfold Waits
  split
  · split <;> infer_instance
  · infer_instance

/-! ### What is not to come later -/

/-- The announcement itself is not. -/
theorem not_follows_of_join (h : f.line = joinLine nickname) : ¬ f.Follows x := by
  rintro ⟨-, hf⟩
  rw [h] at hf
  obtain ⟨l, hl⟩ : bytes " has left." <:+ nickname ++ bytes " has joined." := hf
  -- the two lines end in `t.` and in `d.`
  have hleft : (bytes " has left.").reverse = 46 :: 116 :: (bytes " has lef").reverse := by decide
  have hjoined : (bytes " has joined.").reverse = 46 :: 100 :: (bytes " has joine").reverse := by
    decide
  have hrev := congrArg List.reverse hl
  rw [List.reverse_append, List.reverse_append, hleft, hjoined, List.cons_append, List.cons_append,
    List.cons_append,
    List.cons_append] at hrev
  obtain ⟨h2, -⟩ := List.cons.inj (List.cons.inj hrev).2
  exact absurd h2 (by decide)

/-- What a frame of the client makes its thread do is about nobody. -/
theorem Starts.subject (h : Starts s t op) : op.subject = none := by
  rcases h.cases with ⟨hd, hb⟩ | ⟨_, _, _, rfl⟩ | rfl
  · cases op with
    | sendToFd | sendFrame => cases hd
    | broadcast => exact absurd rfl (hb _ _ _ _)
    | _ => rfl
  · rfl
  · rfl

theorem eq_handler_of_conn (h : t.conn = some x) : t = .handler x := by
  cases t with
  | main => cases h
  | handler c =>
    obtain rfl := Option.some.inj h
    rfl

/-- **Whom a block makes its thread talk about**: whom it was about itself, or the client of the
thread, or the client that is registered. -/
theorem exec_subject (h : s.exec t ch op = some (s₁, new)) {op' : Op} (hop : op' ∈ new)
    (hx : op'.subject = some x) :
    t = .handler x ∨ (op.subject = some x ∧ op'.line = op.line) ∨
      ∃ fd nickname, op = .register fd x ∧ s₁.assigned x = some nickname ∧
        op'.line = some (joinLine nickname) := by
  cases exec_done h with
  | unsent | unsaid => exact absurd hop List.not_mem_nil
  | sent =>
    obtain rfl := List.mem_singleton.mp hop
    exact .inr (.inl ⟨hx, rfl⟩)
  | broadcast =>
    obtain ⟨fd, -, rfl⟩ := List.mem_map.mp hop
    exact .inr (.inl ⟨hx, rfl⟩)
  | full =>
    simp only [List.mem_cons, List.not_mem_nil, or_false] at hop
    rcases hop with rfl | rfl <;> cases hx
  | @registered fd c nickname =>
    simp only [afterWelcome, List.mem_cons, List.not_mem_nil, or_false] at hop
    rcases hop with rfl | rfl | rfl | rfl
    · cases hx
    · cases hx
    · cases hx
    · obtain rfl := Option.some.inj hx
      exact .inr (.inr ⟨fd, nickname, rfl, Function.update_self .., rfl⟩)
  | said =>
    obtain rfl := List.mem_singleton.mp hop
    exact .inl (eq_handler_of_conn hx)
  | renamed =>
    unfold renameClient at hop
    split at hop
    · obtain rfl := List.mem_singleton.mp hop
      cases hx
    · split at hop
      · exact absurd hop List.not_mem_nil
      · obtain rfl := List.mem_singleton.mp hop
        exact .inl (eq_handler_of_conn hx)
  | routed =>
    unfold routeMsg at hop
    split at hop
    · exact absurd hop List.not_mem_nil
    · dsimp only at hop
      split_ifs at hop
      · obtain rfl := List.mem_singleton.mp hop
        cases hx
      · obtain rfl := List.mem_singleton.mp hop
        cases hx
      · simp only [List.mem_cons, List.not_mem_nil, or_false] at hop
        rcases hop with rfl | rfl
        · exact .inl (eq_handler_of_conn hx)
        · cases hx
  | listed =>
    obtain rfl := List.mem_singleton.mp hop
    cases hx
  | erased =>
    unfold eraseClient at hop
    split at hop
    · exact absurd hop List.not_mem_nil
    · dsimp only at hop
      split_ifs at hop
      · exact absurd hop List.not_mem_nil
      · obtain rfl := List.mem_singleton.mp hop
        exact .inl (eq_handler_of_conn hx)
  | _ =>
    have hmute := fun hm => exec_mute hm h
    have hsilent := (hmute trivial op' hop).1
    cases op' with
    | sendToFd | sendFrame => cases hsilent.1
    | broadcast => exact absurd rfl (hsilent.2 _ _ _ _)
    | _ => cases hx

/-! ### The assigned nickname -/

/-- **When a nickname is assigned**: when the connection is registered. -/
structure Assigned (s : Server) : Prop where
  /-- Not before. -/
  early : ∀ x, s.stage x = .unborn ∨ s.stage x = .accepted → s.assigned x = none
  /-- From then on. -/
  later : ∀ x, s.stage x = .registered ∨ s.stage x = .serving ∨ s.stage x = .erased →
    ∃ nickname, s.assigned x = some nickname

/-- A block assigns one only when it registers the connection. -/
theorem assigned_run (h : s.exec t ch op = some (s₁, new)) (x : ConnId) :
    s₁.assigned x = s.assigned x ∨
    ∃ fd nickname, op = .register fd x ∧ s₁.assigned x = some nickname ∧ s₁.stage x = .registered ∧
      new = .sendToFd fd (welcomeFrame nickname) :: afterWelcome fd x nickname := by
  rcases (exec_effect h).assigned x with hx | ⟨fd, rfl, -⟩
  · exact .inl hx
  · cases exec_done h with
    | full => exact .inl rfl
    | @registered _ _ nickname =>
      exact .inr ⟨fd, nickname, rfl, Function.update_self .., Function.update_self .., rfl⟩

theorem assigned_init (config : LoadedConfig) : Assigned (init config) where
  early _ _ := rfl
  later x h := by rcases h with h | h | h <;> cases h

theorem Assigned.step (hA : Assigned s) (hI : Inv s) (h : Server.step s a = some s') :
    Assigned s' := by
  rcases step_effect h with ⟨t, ch, op, rest, new, s₁, rfl, ht, he, -, rfl⟩ | ⟨-, hq⟩
  · have hstage (x : ConnId) := stage_run hI ht he x
    constructor
    · intro x hx
      have hx : s₁.stage x = .unborn ∨ s₁.stage x = .accepted := hx
      show s₁.assigned x = none
      rcases assigned_run he x with hn | ⟨-, -, -, -, hs, -⟩
      · rw [hn]
        rcases hstage x with hsame | hm
        · exact hA.early x (hsame ▸ hx)
        · generalize s₁.stage x = st at hx hm
          cases hm with
          | accept hs => exact hA.early x (.inl hs)
          | _ => rcases hx with hx | hx <;> cases hx
      · rw [hs] at hx
        rcases hx with hx | hx <;> cases hx
    · intro x hx
      have hx : s₁.stage x = .registered ∨ s₁.stage x = .serving ∨ s₁.stage x = .erased := hx
      show ∃ nickname, s₁.assigned x = some nickname
      rcases assigned_run he x with hn | ⟨-, nickname, -, hn, -, -⟩
      · rw [hn]
        rcases hstage x with hsame | hm
        · exact hA.later x (hsame ▸ hx)
        · generalize hst : s₁.stage x = st at hx hm
          cases hm with
          | start hs => exact hA.later x (.inl hs)
          | erase hs => exact hA.later x (.inr (.inl hs))
          | register hs =>
            -- the block has registered it, so it has assigned a name
            cases exec_done he with
            | full =>
              simp only [Function.update_self] at hst
              cases hst
            | @registered _ _ nickname => exact ⟨nickname, hn ▸ Function.update_self ..⟩
          | _ => rcases hx with hx | hx | hx <;> cases hx
      · exact ⟨nickname, hn⟩
  · exact ⟨fun x hx => by rw [hq.assigned]; exact hA.early x (hq.stage ▸ hx),
      fun x hx => by rw [hq.assigned]; exact hA.later x (hq.stage ▸ hx)⟩

/-- It stays. -/
theorem Assigned.keeps (hA : Assigned s) (hI : Inv s) (h : Server.step s a = some s')
    (hn : s.assigned x = some nickname) : s'.assigned x = some nickname := by
  rcases step_effect h with ⟨t, ch, op, rest, new, s₁, rfl, ht, he, -, rfl⟩ | ⟨-, hq⟩
  · rcases assigned_run he x with hx | ⟨fd, nickname', rfl, -⟩
    · exact hx.trans hn
    · rw [hA.early x (.inr (hI.accepted_of_register ht))] at hn
      cases hn
  · rw [hq.assigned, hn]

/-! ### Who says what -/

/-- **What is said about a connection**: by its own thread, but for the announcement; and only when
it has a nickname. -/
structure Subjects (s : Server) : Prop where
  /-- What is to be said. -/
  todo : ∀ t, ∀ op ∈ s.todo t, ∀ x, op.subject = some x →
    t = .handler x ∨ t = .main ∧ ∃ nickname, s.assigned x = some nickname ∧
      op.line = some (joinLine nickname)
  /-- What has been. -/
  written : ∀ k, ∀ f ∈ s.written k, ∀ x, f.cause.subject = some x →
    ∃ nickname, s.assigned x = some nickname

theorem subjects_init (config : LoadedConfig) : Subjects (init config) where
  todo _ _ h := absurd h List.not_mem_nil
  written _ _ h := absurd h List.not_mem_nil

/-- Nothing is said about a connection that has no nickname. -/
theorem Subjects.assigned (hS : Subjects s) (hA : Assigned s) (hI : Inv s) (hop : op ∈ s.todo t)
    (hx : op.subject = some x) : ∃ nickname, s.assigned x = some nickname := by
  rcases hS.todo t op hop x hx with rfl | ⟨-, nickname, hn, -⟩
  · have hh := hI.handler x
    generalize s.alive x = al, hl : s.todo (.handler x) = l at hh
    rw [hl] at hop
    generalize hst : s.stage x = st at hh
    cases hh with
    | unborn | early | ended => cases hop
    | closed =>
      obtain rfl := List.mem_singleton.mp hop
      cases hx
    | serving | leaving => exact hA.later x (.inr (.inl hst))
    | erased => exact hA.later x (.inr (.inr hst))
  · exact ⟨nickname, hn⟩

theorem Subjects.step (hS : Subjects s) (hA : Assigned s) (hI : Inv s)
    (h : Server.step s a = some s') : Subjects s' where
  todo := by
    intro t op hop x hx
    rcases step_mem_todo h hop with hop | ⟨ch, op₀, rest, s₁, new, rfl, ht, he, rfl, hnew⟩ | hst
    · rcases hS.todo t op hop x hx with ht | ⟨ht, nickname, hn, hl⟩
      · exact .inl ht
      · exact .inr ⟨ht, nickname, hA.keeps hI h hn, hl⟩
    · rcases exec_subject he hnew hx with ht' | ⟨hx₀, hl⟩ | ⟨fd, nickname, rfl, hn, hl⟩
      · exact .inl ht'
      · -- what a block was to say is said by the same thread
        rcases hS.todo t op₀ (mem_todo_head ht) x hx₀ with ht' | ⟨ht', nickname, hn, hl₀⟩
        · exact .inl ht'
        · exact .inr ⟨ht', nickname, hA.keeps hI h hn, hl.trans hl₀⟩
      · exact .inr ⟨(hI.main_of_register ht).1, nickname, hn, hl⟩
    · rw [hst.subject] at hx
      cases hx
  written := by
    intro k f hf x hx
    have hold {nickname : Bytes} (hn : s.assigned x = some nickname) :
        ∃ nickname, s'.assigned x = some nickname :=
      ⟨nickname, hA.keeps hI h hn⟩
    rcases step_written h k with hw | ⟨t, fd, g, hg, -, hw⟩
    · obtain ⟨nickname, hn⟩ := hS.written k f (hw ▸ hf) x hx
      exact hold hn
    · rw [hw] at hf
      rcases List.mem_append.mp hf with hf | hf
      · obtain ⟨nickname, hn⟩ := hS.written k f hf x hx
        exact hold hn
      · obtain rfl := List.mem_singleton.mp hf
        obtain ⟨op, hop, hd⟩ := mem_pending.mp hg
        have hsub : op.subject = some x := by
          cases op <;> cases hd <;> exact hx
        obtain ⟨nickname, hn⟩ := hS.assigned hA hI hop hsub
        exact hold hn

theorem subjects_of_run (h : Run Server.step (init config) s) : Inv s ∧ Assigned s ∧ Subjects s :=
  h.invariant (I := fun s => Inv s ∧ Assigned s ∧ Subjects s)
    ⟨inv_init config, assigned_init config, subjects_init config⟩
    fun _ _ _ ⟨hI, hA, hS⟩ _ h => ⟨hI.step h, hA.step hI h, hS.step hA hI h⟩

/-! ### Until the announcement has been written -/

/-- **How far the announcement of a connection to an observer is.** -/
inductive Progress (x k : ConnId) (fd : Fd) (s : Server) : Prop where
  /-- The connection has no nickname yet. -/
  | nameless (h : s.assigned x = none)
  /-- The accept thread is not done. -/
  | telling (h : s.StillTells x fd)
  /-- Nothing can be written to the observer any more. -/
  | broken (h : s.broken k = true)
  /-- It has been written. -/
  | told (h : ∃ g ∈ s.written k, s.Joins x g)

/-- An announcement always fits. -/
theorem Named.join_fits (hN : Named s) (ha : s.assigned x = some nickname) :
    (joinLine nickname).payload.length ≤ s.config.1.maxMessageSize := by
  obtain ⟨n, hn, rfl⟩ := hN.assigned x nickname ha
  have h1 := length_defaultNickname (n := n) (k := 5) (by decide) (by omega)
  have h2 := s.config.2.maxMessageSize.1
  have h3 : (bytes "SYS ").length = 4 := by decide
  have h4 : (bytes " has joined.").length = 12 := by decide
  simp only [joinLine, ServerLine.payload, List.length_append]
  omega

theorem Joins.step (hJ : s.Joins x g) (hA : Assigned s) (hI : Inv s)
    (h : Server.step s a = some s') : s'.Joins x g := by
  obtain ⟨nickname, hn, hl, hc⟩ := hJ
  exact ⟨nickname, hA.keeps hI h hn, hl, hc⟩

/-- What has been written stays. -/
theorem told_step (hA : Assigned s) (hI : Inv s) (h : Server.step s a = some s')
    (hg : ∃ g ∈ s.written k, s.Joins x g) : ∃ g ∈ s'.written k, s'.Joins x g := by
  obtain ⟨g, hg, hJ⟩ := hg
  refine ⟨g, ?_, hJ.step hA hI h⟩
  rcases step_written h k with hw | ⟨_, _, _, _, _, hw⟩
  · rw [hw]
    exact hg
  · rw [hw]
    exact List.mem_append_left _ hg

/-- **The next block of the accept thread's announcement**: its targets are fixed, the observer
among them; or it is written to the observer, or nothing more can be. -/
theorem progress_of_tells (hS : Subjects s) (hN : Named s) (ho : s.Observes k fd)
    (htells : op.Tells x fd) (ht : s.todo .main = op :: rest)
    (he : s.exec .main ch op = some (s₁, new)) :
    Progress x k fd (s₁.setTodo .main (new ++ rest)) := by
  obtain ⟨hk, r, hr, hwelcomed⟩ := ho
  cases op with
  | broadcast line excludeFd about serial =>
    obtain ⟨rfl, hne⟩ := htells
    simp only [exec, Option.some.injEq, Prod.mk.injEq] at he
    obtain ⟨rfl, rfl⟩ := he
    have hmem : fd ∈ s.targets excludeFd := mem_targets_iff.mpr ⟨hne.symm, r, hr, hwelcomed⟩
    refine .telling ⟨.sendFrame fd ⟨line, .broadcast (some x) s.nextConn, serial⟩, ?_, rfl, rfl⟩
    simp only [setTodo, Function.update_self]
    exact List.mem_append_left _ (List.mem_map.mpr ⟨fd, hmem, rfl⟩)
  | sendFrame fd' f =>
    obtain ⟨rfl, hsub⟩ := htells
    simp only [exec, Option.some.injEq, Prod.mk.injEq] at he
    obtain ⟨rfl, rfl⟩ := he
    have hmem : Op.sendFrame fd' f ∈ s.todo .main := by
      rw [ht]
      exact .head _
    rcases hS.todo .main _ hmem x hsub with hmain | ⟨-, nickname, hn, hl⟩
    · cases hmain
    · have hline : f.line = joinLine nickname := Option.some.inj hl
      have hfits : ¬ s.config.1.maxMessageSize < f.line.payload.length := by
        rw [hline]
        exact not_lt.mpr (hN.join_fits hn)
      cases hb : s.broken k with
      | true =>
        refine .broken ?_
        show (s.sendFrame fd' f ch.ok).broken k = true
        rw [sendFrame, if_neg hfits, hk]
        simp only [hb, if_true]
      | false =>
        cases hok : ch.ok with
        | true =>
          refine .told ⟨f, ?_, nickname, ?_, hline, hsub⟩
          · show f ∈ (s.sendFrame fd' f true).written k
            rw [sendFrame, if_neg hfits, hk]
            simp only [hb, Bool.false_eq_true, if_false, if_true, Function.update_self]
            exact List.mem_append_right _ (List.mem_singleton_self f)
          · show (s.sendFrame fd' f true).assigned x = some nickname
            rw [(mild_sendFrame ..).assigned]
            exact hn
        | false =>
          refine .broken ?_
          show (s.sendFrame fd' f false).broken k = true
          rw [sendFrame, if_neg hfits, hk]
          simp only [hb, Bool.false_eq_true, if_false, Function.update_self]
  | _ => exact htells.elim

theorem Progress.step (hP : Progress x k fd s) (hI : Inv s) (hA : Assigned s) (hS : Subjects s)
    (hN : Named s) (ho : s.Observes k fd) (hne : k ≠ x) (h : Server.step s a = some s') :
    Progress x k fd s' := by
  cases hP with
  | nameless hn =>
    rcases step_effect h with ⟨t, ch, op, rest, new, s₁, rfl, ht, he, -, rfl⟩ | ⟨-, hq⟩
    · rcases assigned_run he x with hx | ⟨fd', nickname, rfl, -, -, rfl⟩
      · exact .nameless (hx.trans hn)
      · -- the broadcast comes last of what the accept thread has to do with it
        obtain ⟨rfl, hfd, rfl⟩ := hI.main_of_register ht
        have hst := hI.accepted_of_register ht
        refine .telling ⟨.broadcast (joinLine nickname) fd' (some x) none, ?_, rfl, ?_⟩
        · simp only [setTodo, Function.update_self, List.append_nil]
          exact List.mem_cons_of_mem _
            (List.mem_cons_of_mem _ (List.mem_cons_of_mem _ (List.mem_singleton_self _)))
        · rintro rfl
          have hx := hI.fds_fdOf (hst ▸ ⟨by decide, by decide⟩ : (s.stage x).Open)
          rw [hfd, ho.1] at hx
          exact hne (Option.some.inj hx)
    · exact .nameless (by rw [hq.assigned, hn])
  | telling hs =>
    obtain ⟨op, hop, htells⟩ := hs
    rcases step_keeps_todo h hop with hop' | ⟨ch, rest, s₁, new, rfl, ht, he, rfl⟩
    · exact .telling ⟨op, hop', htells⟩
    · exact progress_of_tells hS hN ho htells ht he
  | broken hb =>
    rcases step_effect h with ⟨t, ch, op, rest, new, s₁, rfl, -, -, hE, rfl⟩ | ⟨-, hq⟩
    · exact .broken (hE.broken k hb)
    · exact .broken (by rw [hq.broken, hb])
  | told hg => exact .told (told_step hA hI h hg)

/-- **One step keeps the order.** -/
theorem JoinFirst.step (hJ : JoinFirst x k s) (hP : Progress x k fd s) (hI : Inv s)
    (hA : Assigned s) (hS : Subjects s) (ho : s.Observes k fd) (hw : Waits x k fd s a)
    (h : Server.step s a = some s') : JoinFirst x k s' := by
  intro pre f post hsplit hf
  have hold {post' : List Frame} (hs : s.written k = pre ++ f :: post') :
      ∃ g ∈ pre, s'.Joins x g := by
    obtain ⟨g, hg, hj⟩ := hJ pre f post' hs hf
    exact ⟨g, hg, hj.step hA hI h⟩
  rcases step_effect h with ⟨t, ch, op, rest, new, s₁, rfl, ht, he, hE, rfl⟩ | ⟨-, hq⟩
  · rcases hE.written k with hsame | ⟨fd', g, rfl, hk, hb, hnew⟩
    · exact hold (hsame ▸ hsplit)
    · have hall : s.written k ++ [g] = pre ++ f :: post := hnew.symm.trans hsplit
      rcases List.eq_nil_or_concat post with rfl | ⟨post', y, rfl⟩
      · -- the frame is the one that is written
        obtain ⟨hpre, hlast⟩ := List.append_inj' hall rfl
        obtain rfl := List.singleton_inj.mp hlast
        obtain rfl : fd' = fd := ((hI.fds_iff _ _).mp hk).1.symm.trans ((hI.fds_iff _ _).mp ho.1).1
        have hmem : Op.sendFrame fd' g ∈ s.todo t := mem_todo_head ht
        have htx : t = .handler x := by
          rcases hS.todo t _ hmem x hf.1 with htx | ⟨-, nickname, -, hl⟩
          · exact htx
          · exact absurd hf (not_follows_of_join (Option.some.inj hl))
        subst htx
        cases hP with
        | nameless hn =>
          obtain ⟨nickname, hn'⟩ := hS.assigned hA hI hmem hf.1
          rw [hn] at hn'
          cases hn'
        | telling hs =>
          simp only [exec, Option.some.injEq, Prod.mk.injEq] at he
          obtain ⟨rfl, -⟩ := he
          have hwrites := written_of_sendFrame s fd' g ch.ok k
          rw [hnew] at hwrites
          split at hwrites
          · rename_i hcond
            simp only [Waits, ht, forall_const] at hw
            exact absurd hs (hw hf hcond.1 hcond.2.1 hb)
          · exact absurd (congrArg List.length hwrites) (by simp)
        | broken hb' =>
          rw [hb] at hb'
          cases hb'
        | told hg =>
          obtain ⟨g', hg', hj⟩ := hg
          exact ⟨g', hpre ▸ hg', hj.step hA hI h⟩
      · rw [List.concat_eq_append, ← List.cons_append, ← List.append_assoc] at hall
        exact hold (List.append_inj' hall rfl).1
  · exact hold (by rw [← hq.written]; exact hsplit)

/-- **Who has joined comes first.** In every run in which the observer is there before the
connection is accepted and stays, and in which the handler thread of the connection writes nothing
to the observer that is to come later before the accept thread is done with announcing the
connection to it, what the connection causes comes after its announcement in what has been written
to the observer. -/
theorem join_comes_first (h : Run Server.step (init config) s₀) (hx : s₀.nextConn ≤ x)
    (ho : s₀.Observes k fd)
    (hp : PathIn Server.step (fun s a => s.Observes k fd ∧ Waits x k fd s a) s₀ past s) :
    JoinFirst x k s := by
  obtain ⟨hI, hA, hS⟩ := subjects_of_run h
  have hne : k ≠ x := Nat.ne_of_lt ((hI.lt_nextConn ho.1).trans_le hx)
  have hn : s₀.assigned x = none := hA.early x (.inl ((hI.unborn_iff x).mpr hx))
  have h0 : JoinFirst x k s₀ := by
    intro pre f post hsplit hf
    obtain ⟨nickname, hn'⟩ :=
      hS.written k f (by rw [hsplit]; exact List.mem_append_right _ List.mem_cons_self) x hf.1
    rw [hn] at hn'
    cases hn'
  refine (hp.runIn.invariant
    (I := fun s => (Inv s ∧ Assigned s ∧ Subjects s ∧ Named s) ∧ Progress x k fd s ∧
      JoinFirst x k s)
    ⟨⟨hI, hA, hS, named_of_run h⟩, .nameless hn, h0⟩ ?_).2.2
  rintro s a s' ⟨⟨hI, hA, hS, hN⟩, hP, hJ⟩ ⟨ho, hw⟩ hs
  exact ⟨⟨hI.step hs, hA.step hI hs, hS.step hA hI hs, hN.step hs⟩, hP.step hI hA hS hN ho hne hs,
    hJ.step hP hI hA hS ho hw hs⟩

/-- The accept thread admits a second client, and announces it to the first. -/
def admitsBob : List Action := admits 6 1 ++ blocks .main 1

/-- The second client says something, and its handler thread relays it. -/
def bobSpeaks : List Action := .arrive 1 ⟨bytes "hi", none⟩ :: .recv 1 :: blocks (.handler 1) 3

set_option maxRecDepth 8000 in
/-- The announcement and a chat line, in order. -/
theorem said_after_joined : ∃ s₀ past s, Run Server.step (init .default) s₀ ∧
    PathIn Server.step (fun s a => s.Observes 0 5 ∧ Waits 1 0 5 s a) s₀ past s ∧ JoinFirst 1 0 s ∧
    (s.written 0).map (·.line) =
      [.welcome (bytes "User1"), .sys (bytes "User2 has joined."),
        .msg (bytes "User2") (bytes "hi")] := by
  obtain ⟨s₀, hs₀, hn, ho, hexec⟩ := exists_run_of_any Server.step (init .default) (admits 5 0)
    (fun s₀ => s₀.nextConn ≤ 1 ∧ s₀.Observes 0 5 ∧
      (execAllIn Server.step (fun s a => s.Observes 0 5 ∧ Waits 1 0 5 s a) s₀
        (admitsBob ++ bobSpeaks)).map
        (fun s => (s.written 0).map (·.line)) =
        some [.welcome (bytes "User1"), .sys (bytes "User2 has joined."),
          .msg (bytes "User2") (bytes "hi")]) (by decide)
  obtain ⟨s, hp, hw⟩ := exists_pathIn_of_execAllIn hexec
  exact ⟨s₀, _, s, hs₀, hp, join_comes_first hs₀ hn ho hp, hw⟩

/-- The second client says something before the accept thread has fixed the targets of its
announcement. -/
def speaksEarly : List Action :=
  .iterate true :: (blocks .main 2 ++ .run .main { fd := 6 } :: blocks .main 5) ++ bobSpeaks ++
  blocks .main 2

set_option maxRecDepth 8000 in
/-- **A chat line before the announcement.** The observer is there all the time; the handler thread
of the second client is started, receives a line and relays it before the accept thread goes on. -/
theorem said_before_joined :
    ∃ s₀ past s, Run Server.step (init .default) s₀ ∧ s₀.nextConn ≤ 1 ∧ s₀.Observes 0 5 ∧
    PathIn Server.step (fun s _ => s.Observes 0 5) s₀ past s ∧ ¬ JoinFirst 1 0 s ∧
    (s.written 0).map (fun f => (f.cause.subject, f.line)) =
      [(none, .welcome (bytes "User1")), (some 1, .msg (bytes "User2") (bytes "hi")),
        (some 1, .sys (bytes "User2 has joined."))] := by
  obtain ⟨s₀, hs₀, hn, ho, hexec⟩ := exists_run_of_any Server.step (init .default) (admits 5 0)
    (fun s₀ => s₀.nextConn ≤ 1 ∧ s₀.Observes 0 5 ∧
      (execAllIn Server.step (fun s _ => s.Observes 0 5) s₀ speaksEarly).map
        (fun s => (s.written 0).map fun f => (f.cause.subject, f.line)) =
        some [(none, .welcome (bytes "User1")), (some 1, .msg (bytes "User2") (bytes "hi")),
          (some 1, .sys (bytes "User2 has joined."))]) (by decide)
  obtain ⟨s, hp, hlines⟩ := exists_pathIn_of_execAllIn hexec
  refine ⟨s₀, _, s, hs₀, hn, ho, hp, ?_, hlines⟩
  intro hJ
  -- the chat line has only the welcome before it
  obtain ⟨w, l, hw, hl, hwelcome⟩ := List.map_eq_cons_iff.mp hlines
  obtain ⟨f, l', rfl, hf, -⟩ := List.map_eq_cons_iff.mp hwelcome
  obtain ⟨hcause, hline⟩ := Prod.mk.inj hf
  obtain ⟨g, hg, nickname, -, hjoin, -⟩ := hJ [w] f l' hw ⟨hcause, by rw [hline]; trivial⟩
  obtain rfl := List.mem_singleton.mp hg
  rw [hjoin] at hl
  cases (Prod.mk.inj hl).2

end Server

end ThreadLink.Backend
