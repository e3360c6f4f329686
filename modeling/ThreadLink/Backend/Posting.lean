import ThreadLink.Backend.Routing

/-!
# Frames that a thread sends

A handler thread sends a frame in two blocks: `send_to_fd` looks its receiver up, and
`send_frame` writes. Between the two, and before, the receiver may leave, its descriptor may be
closed and stand for another connection, and its socket may break. `send_to_fd` returns whether
the frame was written; none of its callers looks at that.

## The model

* `Post` is a frame that a thread is going to send, with the connection it is for.
* `Attends` only says that the thread receives nothing while it is at it. What the other threads
  and the clients do is not restricted.
* `Finds` says of one step that the receiver is there: it is found when it is looked up, and
  when the frame is written the descriptor stands for its connection, whose socket takes it.

## What is proved

* `Posting.of_path` — where the thread is, and what it has written.
* `Posting.sent` — when nothing is left to send, everything has been written to the connections
  it was for exactly if each frame fits and each step reaches its receiver; and nothing else has
  been written to anybody.
-/

namespace ThreadLink.Backend

open Text Runs

/-- The connection that a frame of the thread of `c` is for. -/
def Frame.forConn (f : Frame) (c : ConnId) : ConnId :=
  match f.cause with
  | .priv _ (some k) => k
  | _ => c

/-- A frame that a thread is going to send. -/
structure Post where
  /-- The descriptor of its receiver. -/
  fd : Fd
  /-- The frame. -/
  frame : Frame
  /-- The connection it is for. -/
  conn : ConnId

/-- It is within the limit. -/
def Post.Fits (config : LoadedConfig) (p : Post) : Prop :=
  p.frame.line.payload.length ≤ config.1.maxMessageSize

instance (config : LoadedConfig) (p : Post) : Decidable (p.Fits config) :=
  inferInstanceAs (Decidable (_ ≤ _))

namespace Server

variable {config : LoadedConfig} {s s' : Server} {a : Action} {c k : ConnId} {fd : Fd}
  {past : List (Server × Action)} {posts done rest : List Post} {p : Post}

/-- The thread of a connection receives nothing. -/
def Attends (c : ConnId) (_ : Server) (a : Action) : Prop := a ≠ .recv c ∧ a ≠ .recvEnd c

instance (c : ConnId) (s : Server) (a : Action) : Decidable (Attends c s a) :=
  inferInstanceAs (Decidable (_ ∧ _))

/-- **The receiver is there**, if the step is one in which the thread of `c` sends. -/
def Finds (c : ConnId) (e : Server × Action) : Prop :=
  ∀ ch, e.2 = .run (.handler c) ch → ∀ fd f rest,
    (e.1.todo (.handler c) = .sendToFd fd f :: rest → (e.1.clients.find? fd).isSome = true) ∧
    (e.1.todo (.handler c) = .sendFrame fd f :: rest →
      ch.ok = true ∧ e.1.fds fd = some (f.forConn c) ∧ e.1.broken (f.forConn c) = false)

/-- A thread finds the receiver in its next block, with the choice `ch`, if that sends. -/
def findsNext (c : ConnId) (s : Server) (ch : Choice) : Bool :=
  match s.todo (.handler c) with
  | .sendToFd fd _ :: _ => (s.clients.find? fd).isSome
  | .sendFrame fd f :: _ =>
    ch.ok && s.fds fd == some (f.forConn c) && !s.broken (f.forConn c)
  | _ => true

instance (c : ConnId) (e : Server × Action) : Decidable (Finds c e) :=
  match e with
  | (s, .run t ch) => decidable_of_iff (t = .handler c → findsNext c s ch = true) (by
      constructor
      · rintro h ch' he fd f rest
        obtain ⟨rfl, rfl⟩ := Action.run.inj he
        have hn := h rfl
        unfold findsNext at hn
        refine ⟨fun ht => ?_, fun ht => ?_⟩
        · rwa [ht] at hn
        · rw [ht] at hn
          simpa [and_assoc] using hn
      · rintro h rfl
        unfold findsNext
        split
        · rename_i ht
          exact (h ch rfl _ _ _).1 ht
        · rename_i ht
          simpa [and_assoc] using (h ch rfl _ _ _).2 ht
        · rfl)
  | (_, .iterate _) | (_, .leaveLoop) | (_, .requestShutdown) | (_, .recv _) | (_, .recvEnd _)
  | (_, .arrive _ _) | (_, .rehash _) => isTrue fun _ he => nomatch he

/-- The blocks that send what is posted. -/
def postOps (posts : List Post) : List Op := posts.map fun p => .sendToFd p.fd p.frame

/-! ### What has been sent -/

/-- What a thread has written when it has sent `done`. -/
structure Sent (config : LoadedConfig) (c : ConnId) (done : List Post)
    (past : List (Server × Action)) : Prop where
  /-- It has written nothing else. -/
  only : ∀ k, ∀ f ∈ writtenBy (.handler c) past k, ∃ p ∈ done, p.frame = f
  /-- It has written all of it if it could. -/
  all : (∀ p ∈ done, p.frame ∈ writtenBy (.handler c) past p.conn) ↔
    (∀ p ∈ done, p.Fits config) ∧ ∀ e ∈ past, Finds c e

theorem sent_nil (config : LoadedConfig) (c : ConnId) : Sent config c [] [] where
  only _ _ hf := absurd hf List.not_mem_nil
  all := iff_of_true (fun _ hp => absurd hp List.not_mem_nil)
    ⟨fun _ hp => absurd hp List.not_mem_nil, fun _ he => absurd he List.not_mem_nil⟩

/-- A step that writes nothing and misses nobody. -/
theorem Sent.quiet (h : Sent config c done past) {e : Server × Action}
    (hw : ∀ k, writes (.handler c) k e = []) (hr : Finds c e) :
    Sent config c done (past ++ [e]) := by
  have hsame (k : ConnId) :
      writtenBy (.handler c) (past ++ [e]) k = writtenBy (.handler c) past k := by
    rw [writtenBy_concat, hw, List.append_nil]
  constructor
  · intro k f hf
    exact h.only k f (hsame k ▸ hf)
  · have hall : (∀ e' ∈ past ++ [e], Finds c e') ↔ ∀ e' ∈ past, Finds c e' := by
      refine ⟨fun ha e' he => ha e' (List.mem_append_left _ he), ?_⟩
      intro ha e' he
      rcases List.mem_append.mp he with he | he
      · exact ha e' he
      · rw [List.mem_singleton.mp he]
        exact hr
    simp only [hsame, hall]
    exact h.all

/-- A step of the thread that sends one more frame: it is written to `p.conn` exactly if `hw`
says so, and to nobody else unless to somebody it is not for. -/
theorem Sent.concat (h : Sent config c done past) {e : Server × Action}
    (hne : ∀ q ∈ done, q.frame ≠ p.frame)
    (hw : ∀ k, writes (.handler c) k e = [] ∨ writes (.handler c) k e = [p.frame])
    (hp : p.frame ∈ writes (.handler c) p.conn e ↔ p.Fits config ∧ Finds c e) :
    Sent config c (done ++ [p]) (past ++ [e]) := by
  have hmem {k : ConnId} {f : Frame} (hf : f ∈ writes (.handler c) k e) : f = p.frame := by
    rcases hw k with h | h
    · rw [h] at hf
      exact absurd hf List.not_mem_nil
    · rw [h] at hf
      exact List.mem_singleton.mp hf
  constructor
  · intro k f hf
    rw [writtenBy_concat, List.mem_append] at hf
    rcases hf with hf | hf
    · obtain ⟨q, hq, he⟩ := h.only k f hf
      exact ⟨q, List.mem_append_left _ hq, he⟩
    · exact ⟨p, List.mem_append_right _ (List.mem_singleton_self _), (hmem hf).symm⟩
  · have hold (q : Post) (hq : q ∈ done) : q.frame ∈ writtenBy (.handler c) (past ++ [e]) q.conn ↔
        q.frame ∈ writtenBy (.handler c) past q.conn := by
      rw [writtenBy_concat, List.mem_append]
      exact or_iff_left fun hf => hne q hq (hmem hf)
    have hnew : p.frame ∈ writtenBy (.handler c) (past ++ [e]) p.conn ↔
        p.Fits config ∧ Finds c e := by
      rw [writtenBy_concat, List.mem_append, ← hp]
      apply or_iff_right
      intro hf
      obtain ⟨q, hq, he⟩ := h.only _ _ hf
      exact hne q hq he
    simp only [List.forall_mem_append, List.forall_mem_singleton, hnew]
    rw [show (∀ q ∈ done, q.frame ∈ writtenBy (.handler c) (past ++ [e]) q.conn) ↔ _ from
      forall₂_congr hold, h.all]
    constructor
    · rintro ⟨⟨hf, hr⟩, hfp, hre⟩
      exact ⟨⟨hf, hfp⟩, hr, hre⟩
    · rintro ⟨⟨hf, hfp⟩, hr, hre⟩
      exact ⟨⟨hf, hr⟩, hfp, hre⟩

/-! ### Where the thread is -/

/-- **Where a thread is** that has frames to send: `done` have been sent. -/
inductive Posting (config : LoadedConfig) (c : ConnId) (posts : List Post)
    (past : List (Server × Action)) (s : Server) : Prop where
  /-- It looks up the receiver of the next. -/
  | lookup {done rest : List Post} (hp : posts = done ++ rest)
    (ht : s.todo (.handler c) = postOps rest)
    (h : Sent config c done past)
  /-- It has found it. -/
  | found {done rest : List Post} {p : Post} (hp : posts = done ++ p :: rest)
    (ht : s.todo (.handler c) = .sendFrame p.fd p.frame :: postOps rest)
      (h : Sent config c done past)

/-- The frames differ, and are for the connections their causes say. -/
structure Distinct (c : ConnId) (posts : List Post) : Prop where
  /-- No frame is sent twice. -/
  nodup : (posts.map (·.frame)).Nodup
  /-- The connections are those of the causes. -/
  forConn : ∀ p ∈ posts, p.frame.forConn c = p.conn

/-- One frame for the client itself. -/
theorem distinct_direct {f : Frame} (hf : f.cause = .direct) : Distinct c [⟨fd, f, c⟩] where
  nodup := List.nodup_singleton _
  forConn p hp := by rw [List.mem_singleton.mp hp, Frame.forConn, hf]

theorem Distinct.ne (h : Distinct c posts) (hp : posts = done ++ p :: rest) :
    ∀ q ∈ done, q.frame ≠ p.frame := by
  intro q hq he
  have hn := h.nodup
  rw [hp, List.map_append, List.map_cons, List.nodup_append'] at hn
  exact hn.2.2 (List.mem_map_of_mem hq) (he ▸ List.mem_cons_self)

theorem todo_of_attends (hq : Attends c s a) (ha : ∀ ch, a ≠ .run (.handler c) ch)
    (hs : step s a = some s') : s'.todo (.handler c) = s.todo (.handler c) := by
  refine todo_of_ne ?_ ha hs
  cases a with
  | recv c' => exact fun he => hq.1 (he ▸ rfl)
  | recvEnd c' => exact fun he => hq.2 (he ▸ rfl)
  | run t ch => exact fun ht => absurd (ht ▸ rfl) (ha ch)
  | _ => trivial

theorem finds_of_ne (ha : ∀ ch, a ≠ .run (.handler c) ch) : Finds c (s, a) :=
  fun ch he => absurd he (ha ch)

/-- A block that posts and sends nothing itself. -/
theorem Sent.post {op : Op} {rest₀ : List Op} {ch : Choice} (h : Sent config c [] past)
    (hs : step s (.run (.handler c) ch) = some s') (ht : s.todo (.handler c) = op :: rest₀)
    (hop : op.delivery = none) (hw : s'.written = s.written)
    (htodo : s'.todo (.handler c) = postOps posts) :
    Posting config c posts (past ++ [(s, .run (.handler c) ch)]) s' := by
  refine .lookup (List.nil_append _).symm htodo (h.quiet ?_ fun ch' _ fd' f' rest' => ⟨?_, ?_⟩)
  · intro k
    exact writes_of_run hs (by rw [hw, List.append_nil])
  · intro h'
    obtain ⟨rfl, -⟩ := List.cons.inj (ht.symm.trans h')
    cases hop
  · intro h'
    obtain ⟨rfl, -⟩ := List.cons.inj (ht.symm.trans h')
    cases hop

/-- A step of another thread leaves the thread where it is. -/
theorem Posting.other (h : Posting config c posts past s) (hq : Attends c s a)
    (ha : ∀ ch, a ≠ .run (.handler c) ch) (hs : step s a = some s') :
    Posting config c posts (past ++ [(s, a)]) s' := by
  have htodo := todo_of_attends hq ha hs
  have hquiet {done : List Post} (hd : Sent config c done past) :
      Sent config c done (past ++ [(s, a)]) :=
    hd.quiet (writes_of_ne ha) (finds_of_ne ha)
  cases h with
  | lookup hp ht hd => exact .lookup hp (htodo.trans ht) (hquiet hd)
  | found hp ht hd => exact .found hp (htodo.trans ht) (hquiet hd)

/-- **A block of the thread itself** takes it on. -/
theorem Posting.own {ch : Choice} (h : Posting config c posts past s) (hd : Distinct c posts)
    (hc : s.config = config) (hs : step s (.run (.handler c) ch) = some s') :
    Posting config c posts (past ++ [(s, .run (.handler c) ch)]) s' := by
  obtain ⟨op, rest₀, s₁, new, ht₀, he, hs'⟩ := step_run hs
  have htodo : s'.todo (.handler c) = new ++ rest₀ := by rw [hs']; exact Function.update_self ..
  have hwrites {l : List Frame} {x : ConnId} (hl : s₁.written x = s.written x ++ l) :
      writes (.handler c) x (s, .run (.handler c) ch) = l :=
      writes_of_run hs (by rw [hs']; exact hl)
  cases h with
  | @lookup done rest hp ht hsent =>
    cases rest with
    | nil => rw [ht] at ht₀; cases ht₀
    | cons p rest =>
      have ht' : .sendToFd p.fd p.frame :: postOps rest = op :: rest₀ := ht.symm.trans ht₀
      obtain ⟨rfl, rfl⟩ := List.cons.inj ht'
      have hnone : ∀ x, s₁ = s → writes (.handler c) x (s, .run (.handler c) ch) = [] := fun x h =>
        hwrites (by rw [h, List.append_nil])
      cases hr : s.clients.find? p.fd with
      | none =>
        -- the receiver has left: the frame is not sent
        simp only [exec, hr, Option.some.injEq, Prod.mk.injEq] at he
        obtain ⟨hs₁, rfl⟩ := he
        have hp' : posts = (done ++ [p]) ++ rest := by rw [hp, List.append_assoc]; rfl
        refine .lookup hp' htodo (hsent.concat (hd.ne hp) (fun k => .inl (hnone k hs₁.symm)) ?_)
        rw [hnone p.conn hs₁.symm]
        apply iff_of_false List.not_mem_nil
        intro h
        have hm := (h.2 ch rfl p.fd p.frame (postOps rest)).1 ht
        rw [show (s, Action.run (.handler c) ch).1.clients.find? p.fd = none from hr] at hm
        cases hm
      | some r =>
        simp only [exec, hr, Option.some.injEq, Prod.mk.injEq] at he
        obtain ⟨hs₁, rfl⟩ := he
        refine .found hp htodo (hsent.quiet (fun k => hnone k hs₁.symm) ?_)
        intro ch' _ fd f rest'
        refine ⟨?_, ?_⟩
        · intro h
          obtain ⟨he, -⟩ := List.cons.inj (ht.symm.trans h)
          obtain ⟨rfl, -⟩ := Op.sendToFd.inj he
          rw [show (s, Action.run (.handler c) ch).1.clients.find? p.fd = some r from hr]
          rfl
        · intro h
          cases (List.cons.inj (ht.symm.trans h)).1
  | @found done rest p hp ht hsent =>
    obtain ⟨rfl, rfl⟩ := List.cons.inj (ht.symm.trans ht₀)
    simp only [exec, Option.some.injEq, Prod.mk.injEq] at he
    obtain ⟨hs₁, rfl⟩ := he
    have hp' : posts = (done ++ [p]) ++ rest := by rw [hp, List.append_assoc]; rfl
    have hw (x : ConnId) :=
      hwrites (by rw [← hs₁]; exact written_of_sendFrame s p.fd p.frame ch.ok x)
    refine .lookup hp' htodo (hsent.concat (hd.ne hp) ?_ ?_)
    · intro k
      rw [hw]
      split
      · exact .inr rfl
      · exact .inl rfl
    · have hfor := hd.forConn p (by rw [hp]; exact List.mem_append_right _ List.mem_cons_self)
      have hreach : Finds c (s, .run (.handler c) ch) ↔
          ch.ok = true ∧ s.fds p.fd = some p.conn ∧ s.broken p.conn = false := by
        rw [← hfor]
        refine ⟨fun h => (h ch rfl p.fd p.frame (postOps rest)).2 ht,
          fun h ch' he fd f rest' => ⟨?_, ?_⟩⟩
        · intro h'
          cases (List.cons.inj (ht.symm.trans h')).1
        · intro h'
          obtain ⟨he', -⟩ := List.cons.inj (ht.symm.trans h')
          obtain ⟨rfl, rfl⟩ := Op.sendFrame.inj he'
          obtain ⟨-, rfl⟩ := Action.run.inj he
          exact h
      rw [hw, hreach, Post.Fits, ← hc]
      split
      · rename_i h
        exact iff_of_true (List.mem_singleton_self _) h
      · rename_i h
        exact iff_of_false List.not_mem_nil h

theorem Posting.of_path {s₀ s₁ : Server} (h : Run step (init config) s₀) (hd : Distinct c posts)
    (h0 : Posting config c posts [] s₀) (hp : PathIn step (Attends c) s₀ past s₁) :
    Posting config c posts past s₁ := by
  apply at_work (c := c) h h0 hp
  · intro past s a s' _ hq ha hstep hP
    exact hP.other hq ha hstep
  · intro past s ch s' hs _ hstep hP
    exact hP.own hd (config_of_run hs) hstep

/-- **When nothing is left to send.** -/
theorem Posting.sent (h : Posting config c posts past s) (hd : s.todo (.handler c) = []) :
    Sent config c posts past := by
  cases h with
  | @lookup done rest hp ht hs =>
    have hrest : rest = [] := List.map_eq_nil_iff.mp (ht.symm.trans hd)
    rw [hrest, List.append_nil] at hp
    rw [hp]
    exact hs
  | found _ ht => rw [hd] at ht; cases ht

end Server

end ThreadLink.Backend
