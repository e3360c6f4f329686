import ThreadLink.Backend.Delivery
import Mathlib.Data.List.Count

/-!
# Joining the handler threads

The thread list `client_threads_` has the handler threads under the descriptor numbers they were
started with. `reap_finished_threads` takes a thread for finished when its number is not in the
registry, and joins it; `shutdown_all` joins the rest. A number that is not in the registry belongs
to no thread that still serves, though it may be used again by another client later on.

## The model

* `started` and `joined` are what a step starts and whose join returns in it.
* `Erased` says that the handler thread of a connection has run the block that erases the record.

## What is proved

* `stage_run` — which block moves a connection from one stage to the next.
* `joining_of_path` — the balance of the threads started and joined, with what the list and the
  accept thread still have of them, in every run.
* `threads_joined_once` — **a thread is joined by the reaper only after it has erased its record,
  and every thread has been joined exactly once when the server has shut down**.
-/

namespace ThreadLink.Backend

open Text Runs

namespace Server

variable {s s' s₁ : Server} {a : Action} {t : Tid} {ch : Choice} {op : Op} {rest new : List Op}
  {c k : ConnId}
  {past : List (Server × Action)}

/-! ### Stages -/

/-- The handler thread of a connection has erased its record, or there was none. -/
def HasErased (s : Server) (c : ConnId) : Prop := s.stage c = .erased ∨ s.stage c = .closed

/-- **The next stage of a connection**, and the block that moves it there. -/
inductive Moves (s : Server) (k : ConnId) : Tid → Op → Stage → Prop where
  /-- It is accepted. -/
  | accept (h : s.stage k = .unborn) : Moves s k .main .accept .accepted
  /-- It is rejected. -/
  | reject (h : s.stage k = .accepted) : Moves s k .main (.register (s.fdOf k) k) .rejected
  /-- It is registered. -/
  | register (h : s.stage k = .accepted) : Moves s k .main (.register (s.fdOf k) k) .registered
  /-- Its handler thread is started. -/
  | start (h : s.stage k = .registered) : Moves s k .main (.startThread (s.fdOf k) k) .serving
  /-- Its handler thread erases its record. -/
  | erase (h : s.stage k = .serving) : Moves s k (.handler k) (.eraseClient (s.fdOf k)) .erased
  /-- Its handler thread closes it. -/
  | close (h : s.stage k = .erased) : Moves s k (.handler k) (.closeFd (s.fdOf k)) .closed
  /-- It is closed after it was rejected. -/
  | drop (h : s.stage k = .rejected) : Moves s k .main (.closeFd (s.fdOf k)) .closed

/-- A block that sets the stage of one connection only. -/
theorem moves_update {st : Stage} (hm : Moves s c t op st) (k : ConnId) :
    Function.update s.stage c st k = s.stage k ∨
      Moves s k t op (Function.update s.stage c st k) := by
  by_cases hk : k = c
  · subst hk
    rw [Function.update_self]
    exact .inr hm
  · exact .inl (Function.update_of_ne hk ..)

theorem moves_main (hI : Inv s) (ht : s.todo .main = op :: rest)
    (he : s.exec .main ch op = some (s₁, new)) (k : ConnId) :
    s₁.stage k = s.stage k ∨ Moves s k .main op (s₁.stage k) := by
  cases hI.main_next ht with
  | control hop => exact .inl (by rw [(exec_control hop he).1.stage])
  | accept =>
    cases exec_done he with
    | refused => exact .inl rfl
    | accepted => exact moves_update (.accept ((hI.unborn_iff _).mpr (Nat.le_refl _))) k
  | @admission c _ _ ha =>
    cases ha with
    | register hc =>
      cases exec_done he with
      | full => exact moves_update (.reject hc) k
      | registered => exact moves_update (.register hc) k
    | reject | write =>
      cases exec_done he with
      | frame => exact .inl (by rw [(mild_sendFrame ..).stage])
    | close hc =>
      cases exec_done he with
      | closed =>
        rw [setStage_of (hI.fds_fdOf (c := c) (hc ▸ ⟨by decide, by decide⟩))]
        exact moves_update (.drop hc) k
    | welcome =>
      cases exec_done he with
      | unsent | sent => exact .inl rfl
    | mark =>
      cases exec_done he with
      | welcomed => exact .inl rfl
    | start hc =>
      cases exec_done he with
      | started => exact moves_update (.start hc) k

theorem moves_handler (hI : Inv s) (ht : s.todo (.handler c) = op :: rest)
    (he : s.exec (.handler c) ch op = some (s₁, new)) (k : ConnId) :
    s₁.stage k = s.stage k ∨ Moves s k (.handler c) op (s₁.stage k) := by
  have hn := (ht ▸ hI.handler c).next
  generalize hst : s.stage c = st at hn
  generalize s.alive c = al at hn
  cases hn with
  | serves hop => exact .inl (by rw [(exec_serves hop he).1.stage])
  | announces hop => exact .inl (by rw [(exec_announces hop he).1.stage])
  | erase =>
    have hfd := hI.fds_fdOf (c := c) (hst ▸ ⟨by decide, by decide⟩)
    obtain ⟨r, hr⟩ := hI.listed c (.inr hst)
    cases exec_done he with
    | erased =>
      rw [eraseClient_of hfd hr]
      exact moves_update (.erase hst) k
  | close =>
    have hfd := hI.fds_fdOf (c := c) (hst ▸ ⟨by decide, by decide⟩)
    cases exec_done he with
    | closed =>
      rw [setStage_of hfd]
      exact moves_update (.close hst) k
  | «end» =>
    cases exec_done he with
    | ended => exact .inl rfl

/-- **A connection stays at its stage, or the block moves it to the next.** -/
theorem stage_run (hI : Inv s) (ht : s.todo t = op :: rest) (he : s.exec t ch op = some (s₁, new))
    (k : ConnId) : s₁.stage k = s.stage k ∨ Moves s k t op (s₁.stage k) := by
  cases t with
  | main => exact moves_main hI ht he k
  | handler c => exact moves_handler hI ht he k

/-! ### The thread list -/

/-- A block that is no join. -/
def JoinsNone (op : Op) : Prop := (∀ i, op ≠ .joinEntry i) ∧ ∀ c, op ≠ .joinThread c

/-- **What a block does to the thread list**, and which joins it leaves to run. -/
inductive Threads (s s₁ : Server) : Op → List Op → Prop where
  /-- A thread is started. -/
  | start {fd : Fd} {c : ConnId} (h : s₁.clientThreads = s.clientThreads ++ [⟨fd, c⟩]) :
    Threads s s₁ (.startThread fd c) []
  /-- The reaper finds a number that is not in the registry. -/
  | look {i : ℕ} {e : ThreadEntry} (hs : s₁ = s) (h : s.clientThreads[i]? = some e)
      (hn : s.clients.contains e.fd = false) :
    Threads s s₁ (.reap i) [.joinEntry i]
  /-- Its join returns. -/
  | entry {i : ℕ} {e : ThreadEntry} (hs : s.clientThreads[i]? = some e)
      (h : s₁.clientThreads = s.clientThreads.eraseIdx i) :
    Threads s s₁ (.joinEntry i) [.reap i]
  /-- The threads are taken out of the list. -/
  | collect (h : s₁.clientThreads = []) :
    Threads s s₁ .collectThreads (s.clientThreads.map fun e => .joinThread e.thread)
  /-- The join of one of them returns. -/
  | thread {c : ConnId} (hs : s₁ = s) : Threads s s₁ (.joinThread c) []
  /-- Any other block. -/
  | other {op : Op} {new : List Op} (h : s₁.clientThreads = s.clientThreads)
    (hnew : ∀ op' ∈ new, JoinsNone op')
    (hop : JoinsNone op) (hstart : ∀ fd c, op ≠ .startThread fd c)
      (hcollect : op ≠ .collectThreads) :
    Threads s s₁ op new

theorem clientThreads_sendFrame (s : Server) (fd : Fd) (f : Frame) (ok : Bool) :
    (s.sendFrame fd f ok).clientThreads = s.clientThreads := by
  rcases s.sendFrame_cases fd f ok with h | ⟨c, -, -, h⟩ | ⟨c, -, h⟩ <;> rw [h]

theorem clientThreads_renameClient (s : Server) (t : Tid) (fd : Fd) (newNick : Bytes) :
    (s.renameClient t fd newNick).1.clientThreads = s.clientThreads := by
  unfold renameClient
  split
  · rfl
  · split <;> rfl

theorem clientThreads_eraseClient (s : Server) (t : Tid) (fd : Fd) :
    (s.eraseClient t fd).1.clientThreads = s.clientThreads := by
  unfold eraseClient
  split <;> rfl

theorem joinsNone_of_serves {fd : Fd} (h : op.Serves fd) : JoinsNone op := by
  constructor
  · rintro i rfl
    exact h
  · rintro c rfl
    exact h

/-- A block that serves a client, or announces, touches no thread. -/
theorem threads_of_serves (fd : Fd) (h : op.Serves fd) (he : s.exec t ch op = some (s₁, new)) :
    Threads s s₁ op new := by
  refine .other ?_ (fun op' hop' => joinsNone_of_serves ((exec_serves h he).2.2 op' hop'))
    (joinsNone_of_serves h) ?_ ?_
  · cases exec_done he with
    | unsent | sent | unsaid | said | broadcast | routed | listed => rfl
    | frame => exact clientThreads_sendFrame ..
    | renamed => exact clientThreads_renameClient ..
    | _ => exact h.elim
  · rintro fd' c rfl
    exact h
  · rintro rfl
    exact h

/-- **Every block** does one of these. -/
theorem threads_of_exec (he : s.exec t ch op = some (s₁, new)) : Threads s s₁ op new := by
  have hnil : ∀ op' ∈ ([] : List Op), JoinsNone op' := fun op' hop' => by cases hop'
  have hone {op' : Op} (h : JoinsNone op') : ∀ op ∈ [op'], JoinsNone op := forall_mem_singleton h
  cases exec_done he with
  | @unsent fd | @sent fd | @frame fd => exact threads_of_serves fd (fun _ => rfl) he
  | broadcast => exact threads_of_serves 0 trivial he
  | @unsaid fd | @said fd | @renamed fd | @routed fd | @listed fd =>
    exact threads_of_serves fd rfl he
  | accepted => exact .other rfl (hone ⟨by simp, by simp⟩) ⟨by simp, by simp⟩ (by simp) (by simp)
  | full =>
    refine .other rfl ?_ ⟨by simp, by simp⟩ (by simp) (by simp)
    exact List.forall_mem_cons.mpr ⟨⟨by simp, by simp⟩, hone ⟨by simp, by simp⟩⟩
  | registered =>
    refine .other rfl ?_ ⟨by simp, by simp⟩ (by simp) (by simp)
    intro op' hop'
    simp only [afterWelcome, List.mem_cons, List.not_mem_nil, or_false] at hop'
    rcases hop' with rfl | rfl | rfl | rfl <;> exact ⟨by simp, by simp⟩
  | started => exact .start rfl
  | erased =>
    refine .other (clientThreads_eraseClient ..) ?_ ⟨by simp, by simp⟩ (by simp) (by simp)
    unfold eraseClient
    split
    · exact hnil
    · split_ifs
      · exact hnil
      · exact hone ⟨by simp, by simp⟩
  | kept => exact .other rfl (hone ⟨by simp, by simp⟩) ⟨by simp, by simp⟩ (by simp) (by simp)
  | dropped hi hc => exact .look rfl hi hc
  | joinedEntry hi => exact .entry hi rfl
  | collectedFds =>
    refine .other rfl ?_ ⟨by simp, by simp⟩ (by simp) (by simp)
    intro op' hop'
    obtain ⟨fd, -, rfl⟩ := List.mem_map.mp hop'
    exact ⟨by simp, by simp⟩
  | collectedThreads => exact .collect rfl
  | joinedThread => exact .thread rfl
  | _ => exact .other rfl hnil ⟨by simp, by simp⟩ (by simp) (by simp)

/-! ### What is started and joined -/

/-- The thread a step starts. -/
def started (s : Server) : Action → Option ConnId
  | .run t _ =>
    match s.todo t with
    | .startThread _ c :: _ => some c
    | _ => none
  | _ => none

/-- The thread whose join returns in a step. -/
def joined (s : Server) : Action → Option ConnId
  | .run t _ =>
    match s.todo t with
    | .joinEntry i :: _ => (s.clientThreads[i]?).map (·.thread)
    | .joinThread c :: _ => some c
    | _ => none
  | _ => none

/-- How often a thread has been started. -/
def starts (past : List (Server × Action)) (c : ConnId) : ℕ :=
  past.countP fun e => started e.1 e.2 = some c

/-- How often it has been joined. -/
def joins (past : List (Server × Action)) (c : ConnId) : ℕ :=
  past.countP fun e => joined e.1 e.2 = some c

/-- **The handler thread of the connection has left its loop and erased its record.** -/
def Erased (past : List (Server × Action)) (c : ConnId) : Prop :=
  ∃ u ch rest r, (u, Action.run (.handler c) ch) ∈ past ∧
    u.todo (.handler c) = .eraseClient (u.fdOf c) :: rest ∧
    u.fds (u.fdOf c) = some c ∧ u.clients.find? (u.fdOf c) = some r

theorem starts_concat (past : List (Server × Action)) (s : Server) (a : Action) (c : ConnId) :
    starts (past ++ [(s, a)]) c = starts past c + if started s a = some c then 1 else 0 := by
  rw [starts, List.countP_append, List.countP_singleton]
  simp only [decide_eq_true_eq]
  rfl

theorem joins_concat (past : List (Server × Action)) (s : Server) (a : Action) (c : ConnId) :
    joins (past ++ [(s, a)]) c = joins past c + if joined s a = some c then 1 else 0 := by
  rw [joins, List.countP_append, List.countP_singleton]
  simp only [decide_eq_true_eq]
  rfl

theorem Erased.concat (h : Erased past c) (e : Server × Action) : Erased (past ++ [e]) c := by
  obtain ⟨u, ch, rest, r, hmem, hrest⟩ := h
  exact ⟨u, ch, rest, r, List.mem_append_left _ hmem, hrest⟩

/-! ### What a step preserves -/

theorem stopping_exec (he : s.exec t ch op = some (s₁, new)) : s₁.stopping = s.stopping := by
  cases exec_done he with
  | @frame fd f =>
    rcases s.sendFrame_cases fd f ch.ok with h | ⟨c, -, -, h⟩ | ⟨c, -, h⟩ <;> rw [h]
  | renamed =>
    unfold renameClient
    split
    · rfl
    · split <;> rfl
  | erased =>
    unfold eraseClient
    split <;> rfl
  | _ => rfl

/-- Only the accept thread works on the thread list. -/
theorem handler_other (hI : Inv s) (ht : s.todo (.handler c) = op :: rest)
    (he : s.exec (.handler c) ch op = some (s₁, new)) :
    s₁.clientThreads = s.clientThreads ∧ JoinsNone op ∧ ∀ fd c, op ≠ .startThread fd c := by
  have hn := (ht ▸ hI.handler c).next
  generalize s.stage c = st at hn
  generalize s.alive c = al at hn
  have hstep := threads_of_exec he
  cases hstep with
  | other h _ hop hstart => exact ⟨h, hop, hstart⟩
  | start | look | entry | collect | thread =>
    exfalso
    cases hn with
    | serves h => exact h
    | announces h => exact h

theorem started_none (ht : s.todo t = op :: rest) (h : ∀ fd c, op ≠ .startThread fd c) :
    started s (.run t ch) = none := by
  simp only [started, ht]
  split
  · rename_i fd c _ he
    exact absurd (List.cons.inj he).1 (h fd c)
  · rfl

theorem joined_none (ht : s.todo t = op :: rest) (h : JoinsNone op) :
    joined s (.run t ch) = none := by
  simp only [joined, ht]
  split
  · rename_i i _ he
    exact absurd (List.cons.inj he).1 (h.1 i)
  · rename_i c _ he
    exact absurd (List.cons.inj he).1 (h.2 c)
  · rfl

/-- A step that runs no block leaves the thread list, and joins nothing. -/
theorem threads_quiet (h : step s a = some s') (ha : ∀ t ch, a ≠ .run t ch) :
    s'.clientThreads = s.clientThreads ∧ started s a = none ∧ joined s a = none ∧
      (s'.todo .main = s.todo .main ∧ s'.stopping = s.stopping ∨
        s.todo .main = [] ∧ (∀ op ∈ s'.todo .main, JoinsNone op) ∧
          (s'.stopping = true → .collectThreads ∈ s'.todo .main ∧
            ∀ op ∈ s'.todo .main, op.Control)) := by
  cases a with
  | run t ch => exact absurd rfl (ha t ch)
  | iterate ready =>
    simp only [step, Bool.and_eq_true, List.isEmpty_iff, Option.ite_none_right_eq_some,
      Option.some.injEq,
      Bool.not_eq_true'] at h
    obtain ⟨⟨⟨-, hrun⟩, hempty⟩, rfl⟩ := h
    refine ⟨rfl, rfl, rfl, .inr ⟨hempty, ?_, ?_⟩⟩
    · simp only [Function.update_self]
      cases ready
      · exact forall_mem_singleton ⟨by simp, by simp⟩
      · exact List.forall_mem_cons.mpr ⟨⟨by simp, by simp⟩, forall_mem_singleton ⟨by simp, by simp⟩⟩
    · intro hs
      rw [hrun] at hs
      cases hs
  | leaveLoop =>
    simp only [step, Bool.and_eq_true, List.isEmpty_iff, Option.ite_none_right_eq_some,
      Option.some.injEq] at h
    obtain ⟨⟨-, hempty⟩, rfl⟩ := h
    refine ⟨rfl, rfl, rfl, .inr ⟨hempty, ?_, ?_⟩⟩
    · simp [shutdownAll, JoinsNone]
    · intro _
      simp [shutdownAll, Op.Control, Op.Announces]
  | recvEnd c =>
    simp only [step, Option.ite_none_right_eq_some, Option.some.injEq] at h
    obtain ⟨-, rfl⟩ := h
    exact ⟨rfl, rfl, rfl, .inl ⟨by simp, rfl⟩⟩
  | recv c =>
    obtain ⟨-, -, k, f, rest, -, -, rfl⟩ := step_recv h
    exact ⟨rfl, rfl, rfl, .inl ⟨by simp, rfl⟩⟩
  | requestShutdown | arrive =>
    cases h
    exact ⟨rfl, rfl, rfl, .inl ⟨rfl, rfl⟩⟩
  | rehash es =>
    simp only [step, Option.dite_none_right_eq_some, Option.some.injEq] at h
    obtain ⟨_, rfl⟩ := h
    exact ⟨rfl, rfl, rfl, .inl ⟨rfl, rfl⟩⟩

/-- How often a thread stands in the thread list. -/
def entries (s : Server) (c : ConnId) : ℕ := (s.clientThreads.map (·.thread)).count c

/-- How often the accept thread is still going to join it. -/
def pendingJoins (s : Server) (c : ConnId) : ℕ := (s.todo .main).count (.joinThread c)

/-- **The balance of the threads.** -/
structure Joining (past : List (Server × Action)) (s : Server) : Prop where
  /-- A thread in the list serves under its own number, or has erased its record. -/
  entry : ∀ e ∈ s.clientThreads, s.HasErased e.thread ∨ s.stage e.thread = .serving ∧
    s.fdOf e.thread = e.fd
  /-- The reaper joins a thread that has erased its record. -/
  ready : ∀ i rest, s.todo .main = .joinEntry i :: rest → ∃ e, s.clientThreads[i]? = some e ∧
    s.HasErased e.thread
  /-- It joins one at a time. -/
  tail : ∀ op ∈ (s.todo .main).tail, ∀ i, op ≠ .joinEntry i
  /-- What has been started has been joined, or is still in the list, or is going to be joined. -/
  balance : ∀ c, starts past c = joins past c + s.entries c + s.pendingJoins c
  /-- A connection in the hands of the accept thread has no thread yet. -/
  fresh : ∀ c, s.stage c = .unborn ∨ (s.stage c).Early → starts past c = 0
  /-- No connection gets a second one. -/
  once : ∀ c, starts past c ≤ 1
  /-- One that has erased its record has run that block. -/
  erased : ∀ c, s.HasErased c → starts past c = 0 ∨ Erased past c
  /-- After the accept loop no thread is started, and those in the list are going to be taken out.
  -/
  stopped : s.stopping = true →
    (∀ op ∈ s.todo .main, op.Control) ∧ (.collectThreads ∈ s.todo .main ∨ s.clientThreads = [])

theorem joining_init (config : LoadedConfig) : Joining [] (init config) where
  entry e he := by cases he
  ready i rest h := by cases h
  tail op hop := by cases hop
  balance c := rfl
  fresh c _ := rfl
  once c := Nat.zero_le 1
  erased c _ := .inl rfl
  stopped h := by cases h

theorem hasErased_step (hI : Inv s) (h : step s a = some s') (hc : s.HasErased c) :
    s'.HasErased c := by
  rcases step_effect h with ⟨t, ch, op, rest, new, s₁, -, ht, he, -, rfl⟩ | ⟨-, hq⟩
  · rcases stage_run hI ht he c with hs | hm
    · exact hc.imp hs.trans hs.trans
    · change s₁.HasErased c
      generalize hst : s₁.stage c = st at hm
      cases hm with
      | accept hb | reject hb | register hb | start hb | erase hb | drop hb =>
        rcases hc with hc | hc <;> rw [hb] at hc <;> cases hc
      | close => exact .inr hst
  · exact hc.imp (congrFun hq.stage c).trans (congrFun hq.stage c).trans

/-- A connection keeps its number until it is closed. -/
theorem fdOf_step (hI : Inv s) (hI' : Inv s') (h : step s a = some s') (hs : s.stage k ≠ .unborn)
    (ho : (s'.stage k).Open) : s'.fdOf k = s.fdOf k := by
  rcases step_fds hI h (hI'.fds_fdOf ho) with hk | ⟨_, _, -, -, -, -, rfl⟩
  · exact ((hI.fds_iff _ _).mp hk).1.symm
  · exact absurd ((hI.unborn_iff _).mpr (Nat.le_refl _)) hs

/-- **A thread is started for a registered connection**, which is served from then on. -/
theorem stage_of_started (hI : Inv s) (h : step s a = some s') (hs : started s a = some c) :
    s.stage c = .registered ∧ s'.stage c = .serving ∧ ∃ ch rest, a = .run .main ch ∧
      s.todo .main = .startThread (s.fdOf c) c :: rest := by
  rcases step_effect h with ⟨t, ch, op, rest, new, s₁, rfl, ht, he, -, rfl⟩ | ⟨hne, -⟩
  · have hop : ∃ fd, op = .startThread fd c := by
      simp only [started, ht] at hs
      split at hs
      · rename_i fd c' _ heq
        obtain rfl := Option.some.inj hs
        exact ⟨fd, (List.cons.inj heq).1⟩
      · cases hs
    obtain ⟨fd, rfl⟩ := hop
    cases t with
    | handler k => exact absurd rfl ((handler_other hI ht he).2.2 fd c)
    | main =>
      cases hI.main_next ht with
      | control hop => exact hop.elim
      | admission ha =>
        cases ha with
        | start hc =>
          simp only [exec, Option.some.injEq, Prod.mk.injEq] at he
          obtain ⟨rfl, -⟩ := he
          exact ⟨hc, Function.update_self .., ch, _, rfl, ht⟩
  · rw [(threads_quiet h hne).2.1] at hs
    cases hs

/-- **The stages that a run counts by.** -/
theorem Joining.stages (hJ : Joining past s) (hI : Inv s) (h : step s a = some s') :
    (∀ c, s'.stage c = .unborn ∨ (s'.stage c).Early → starts (past ++ [(s, a)]) c = 0) ∧
      (∀ c, starts (past ++ [(s, a)]) c ≤ 1) ∧
      ∀ c, s'.HasErased c → starts (past ++ [(s, a)]) c = 0 ∨ Erased (past ++ [(s, a)]) c := by
  -- where a thread is started the connection is served afterwards
  have hnone {c : ConnId} (hc : s'.stage c ≠ .serving) :
      starts (past ++ [(s, a)]) c = starts past c := by
    rw [starts_concat, if_neg fun hs => hc (stage_of_started hI h hs).2.1]
    rfl
  refine ⟨?_, ?_, ?_⟩
  · intro c hc
    rw [hnone]
    · apply hJ.fresh c
      rcases step_effect h with ⟨t, ch, op, rest, new, s₁, -, ht, he, -, rfl⟩ | ⟨-, hq⟩
      · change s₁.stage c = .unborn ∨ (s₁.stage c).Early at hc
        rcases stage_run hI ht he c with hs | hm
        · rwa [← hs]
        · generalize s₁.stage c = st at hm hc
          cases hm with
          | accept hb => exact .inl hb
          | reject hb | register hb => exact .inr (.inl hb)
          | start | erase | close | drop =>
            exfalso
            rcases hc with hc | hc | hc | hc <;> cases hc
      · rwa [← congrFun hq.stage c]
    · intro hs
      rw [hs] at hc
      rcases hc with hc | hc | hc | hc <;> cases hc
  · intro c
    rw [starts_concat]
    split_ifs with hs
    · have hzero := hJ.fresh c (.inr (.inr (.inr (stage_of_started hI h hs).1)))
      omega
    · exact hJ.once c
  · intro c hc
    have hne : s'.stage c ≠ .serving := by
      intro hs
      rcases hc with hc | hc <;> rw [hs] at hc <;> cases hc
    rw [hnone hne]
    have hold (hc : s.HasErased c) : starts past c = 0 ∨ Erased (past ++ [(s, a)]) c :=
      (hJ.erased c hc).imp id fun he => he.concat _
    rcases step_effect h with ⟨t, ch, op, rest, new, s₁, rfl, ht, he, -, rfl⟩ | ⟨-, hq⟩
    · change s₁.HasErased c at hc
      rcases stage_run hI ht he c with hs | hm
      · exact hold (hc.imp hs.symm.trans hs.symm.trans)
      · simp only [HasErased] at hc
        generalize s₁.stage c = st at hm hc
        cases hm with
        | accept | reject | register | start =>
          exfalso
          rcases hc with hc | hc <;> cases hc
        | erase hb =>
          have hfds := hI.fds_fdOf (c := c) (hb ▸ ⟨by decide, by decide⟩)
          obtain ⟨r, hr⟩ := hI.listed c (.inr hb)
          exact .inr ⟨s, ch, rest, r, List.mem_append_right _ (.head _), ht, hfds, hr⟩
        | close hb => exact hold (.inl hb)
        | drop hb => exact .inl (hJ.fresh c (.inr (.inr (.inl hb))))
    · exact hold (hc.imp (congrFun hq.stage c).symm.trans (congrFun hq.stage c).symm.trans)

/-- A number that is not in the registry belongs to no thread that serves. -/
theorem Joining.hasErased_of_look (hJ : Joining past s) (hI : Inv s) {e : ThreadEntry}
    (he : e ∈ s.clientThreads) (hn : s.clients.contains e.fd = false) : s.HasErased e.thread := by
  rcases hJ.entry e he with h | ⟨hs, hfd⟩
  · exact h
  · obtain ⟨r, hr⟩ := hI.listed e.thread (.inr hs)
    rw [hfd] at hr
    rw [OrdMap.contains, hr] at hn
    cases hn

/-- **The threads in the list** serve, or have erased their records. -/
theorem Joining.entries_step (hJ : Joining past s) (hI : Inv s) (hI' : Inv s')
    (h : step s a = some s') :
    ∀ e ∈ s'.clientThreads, s'.HasErased e.thread ∨ s'.stage e.thread = .serving ∧
      s'.fdOf e.thread = e.fd := by
  -- a thread that was in the list
  have hold (e : ThreadEntry) (he : e ∈ s.clientThreads) :
      s'.HasErased e.thread ∨ s'.stage e.thread = .serving ∧ s'.fdOf e.thread = e.fd := by
    rcases hJ.entry e he with hc | ⟨hs, hfd⟩
    · exact .inl (hasErased_step hI h hc)
    · have hmove : s'.HasErased e.thread ∨ s'.stage e.thread = .serving := by
        rcases step_effect h with ⟨t, ch, op, rest, new, s₁, -, ht, hx, -, rfl⟩ | ⟨-, hq⟩
        · change s₁.HasErased e.thread ∨ s₁.stage e.thread = .serving
          rcases stage_run hI ht hx e.thread with heq | hm
          · exact .inr (heq.trans hs)
          · generalize hst : s₁.stage e.thread = st at hm
            cases hm with
            | accept hb | reject hb | register hb | start hb | close hb | drop hb =>
              rw [hb] at hs
              cases hs
            | erase => exact .inl (.inl hst)
        · exact .inr ((congrFun hq.stage _).trans hs)
      refine hmove.imp id fun hs' => ⟨hs', ?_⟩
      rw [fdOf_step hI hI' h (by rw [hs]; decide) (by rw [hs']; exact ⟨by decide, by decide⟩)]
      exact hfd
  rcases step_effect h with ⟨t, ch, op, rest, new, s₁, rfl, ht, hx, -, rfl⟩ | ⟨hne, -⟩
  · intro e hmem
    have he : e ∈ s₁.clientThreads := hmem
    cases threads_of_exec hx with
    | @start fd c hl =>
      rw [hl] at he
      rcases List.mem_append.mp he with he | he
      · exact hold e he
      · obtain rfl := List.mem_singleton.mp he
        have hstarted : started s (.run t ch) = some c := by simp only [started, ht]
        obtain ⟨hreg, hs, _, _, ha, hmain⟩ := stage_of_started hI h hstarted
        obtain rfl : t = .main := (Action.run.inj ha).1
        rw [ht] at hmain
        obtain rfl : fd = s.fdOf c := (Op.startThread.inj (List.cons.inj hmain).1).1
        exact .inr
          ⟨hs, fdOf_step hI hI' h (by rw [hreg]; decide) (by rw [hs]; exact ⟨by decide, by decide⟩)⟩
    | look hs => exact hold e (hs ▸ he)
    | entry _ hl => exact hold e (List.mem_of_mem_eraseIdx (hl ▸ he))
    | collect hl =>
      rw [hl] at he
      cases he
    | thread hs => exact hold e (hs ▸ he)
    | other hl => exact hold e (hl ▸ he)
  · intro e he
    rw [(threads_quiet h hne).1] at he
    exact hold e he

/-- **What the reaper is about to join.** -/
theorem Joining.ready_step (hJ : Joining past s) (hI : Inv s) (h : step s a = some s') :
    (∀ i rest, s'.todo .main = .joinEntry i :: rest → ∃ e, s'.clientThreads[i]? = some e ∧
      s'.HasErased e.thread) ∧
      ∀ op ∈ (s'.todo .main).tail, ∀ i, op ≠ .joinEntry i := by
  -- the accept thread has the same to do, and the list is the same
  have hsame (ht : s'.todo .main = s.todo .main) (hl : s'.clientThreads = s.clientThreads) :
      (∀ i rest, s'.todo .main = .joinEntry i :: rest → ∃ e, s'.clientThreads[i]? = some e ∧
        s'.HasErased e.thread) ∧
        ∀ op ∈ (s'.todo .main).tail, ∀ i, op ≠ .joinEntry i := by
    rw [ht, hl]
    refine ⟨?_, hJ.tail⟩
    intro i rest hhead
    obtain ⟨e, he, hc⟩ := hJ.ready i rest hhead
    exact ⟨e, he, hasErased_step hI h hc⟩
  -- it has nothing to join
  have hidle (hn : ∀ op ∈ s'.todo .main, ∀ i, op ≠ .joinEntry i) :
      (∀ i rest, s'.todo .main = .joinEntry i :: rest → ∃ e, s'.clientThreads[i]? = some e ∧
        s'.HasErased e.thread) ∧
        ∀ op ∈ (s'.todo .main).tail, ∀ i, op ≠ .joinEntry i := by
    refine ⟨?_, fun op hop => hn op (List.mem_of_mem_tail hop)⟩
    intro i rest hhead
    exact absurd rfl (hn (.joinEntry i) (by rw [hhead]; exact .head _) i)
  rcases step_effect h with ⟨t, ch, op, rest, new, s₁, rfl, ht, hx, hE, rfl⟩ | ⟨hne, -⟩
  · cases t with
    | handler c => exact hsame (by simp [setTodo, hE.todo]) (handler_other hI ht hx).1
    | main =>
      have hrest : ∀ op ∈ rest, ∀ i, op ≠ .joinEntry i :=
        fun op hop => hJ.tail op (by rw [ht]; exact hop)
      have htodo : (s₁.setTodo .main (new ++ rest)).todo .main = new ++ rest := by simp [setTodo]
      cases threads_of_exec hx with
      | @look i e hs hget hn =>
        subst hs
        refine ⟨?_, ?_⟩
        · intro j rest' hhead
          rw [htodo] at hhead
          obtain rfl := Op.joinEntry.inj (List.cons.inj hhead).1
          exact ⟨e, hget, hJ.hasErased_of_look hI (List.mem_of_getElem? hget) hn⟩
        · intro op hop
          rw [htodo] at hop
          exact hrest op hop
      | start | thread =>
        apply hidle
        intro op hop
        rw [htodo] at hop
        exact hrest op hop
      | entry =>
        apply hidle
        intro op hop i
        rw [htodo] at hop
        rcases List.mem_cons.mp hop with rfl | hop
        · simp
        · exact hrest op hop i
      | collect =>
        apply hidle
        intro op hop i
        rw [htodo] at hop
        rcases List.mem_append.mp hop with hop | hop
        · obtain ⟨e, -, rfl⟩ := List.mem_map.mp hop
          simp
        · exact hrest op hop i
      | other _ hnew =>
        apply hidle
        intro op hop i
        rw [htodo] at hop
        rcases List.mem_append.mp hop with hop | hop
        · exact (hnew op hop).1 i
        · exact hrest op hop i
  · obtain ⟨hl, -, -, hmain⟩ := threads_quiet h hne
    rcases hmain with ⟨hm, -⟩ | ⟨-, hn, -⟩
    · exact hsame hm hl
    · exact hidle fun op hop => (hn op hop).1

/-- Taking an entry out of the list. -/
theorem count_eraseIdx {l : List ThreadEntry} {i : ℕ} {e : ThreadEntry} (h : l[i]? = some e)
    (c : ConnId) :
    (l.map (·.thread)).count c =
    (if e.thread = c then 1 else 0) + ((l.eraseIdx i).map (·.thread)).count c := by
  obtain ⟨hi, he⟩ := List.getElem?_eq_some_iff.mp h
  have hp := ((List.getElem_cons_eraseIdx_perm hi).map (·.thread)).count_eq c
  rw [← hp, he, List.map_cons, List.count_cons]
  simp only [beq_iff_eq]
  omega

/-- **No thread gets lost, and none is joined twice.** -/
theorem Joining.balance_step (hJ : Joining past s) (hI : Inv s) (h : step s a = some s')
    (c : ConnId) :
    starts (past ++ [(s, a)]) c =
    joins (past ++ [(s, a)]) c + s'.entries c + s'.pendingJoins c := by
  have hb := hJ.balance c
  rw [starts_concat, joins_concat]
  rcases step_effect h with ⟨t, ch, op, rest, new, s₁, rfl, ht, hx, hE, rfl⟩ | ⟨hne, -⟩
  · cases t with
    | handler k =>
      obtain ⟨hl, hj, hs⟩ := handler_other hI ht hx
      have hentries : (s₁.setTodo (.handler k) (new ++ rest)).entries c = s.entries c := by
        rw [entries, entries, ← hl]
        rfl
      have hpending : (s₁.setTodo (.handler k) (new ++ rest)).pendingJoins c =
          s.pendingJoins c := by
        simp [pendingJoins, setTodo, hE.todo]
      rw [started_none ht hs, joined_none ht hj, hentries, hpending]
      simpa using hb
    | main =>
      have hpending : (s₁.setTodo .main (new ++ rest)).pendingJoins c =
          new.count (.joinThread c) + rest.count (.joinThread c) := by
        simp [pendingJoins, setTodo]
      have hpending₀ : s.pendingJoins c =
          (if op = .joinThread c then 1 else 0) + rest.count (.joinThread c) := by
        rw [pendingJoins, ht, List.count_cons]
        simp only [beq_iff_eq]
        omega
      have hentries : (s₁.setTodo .main (new ++ rest)).entries c =
          (s₁.clientThreads.map (·.thread)).count c := rfl
      rw [hpending, hentries]
      rw [hpending₀, entries] at hb
      cases threads_of_exec hx with
      | @start fd k hl =>
        have hs : started s (.run .main ch) = some k := by simp only [started, ht]
        have hj : joined s (.run .main ch) = none := by simp only [joined, ht]
        rw [hs, hj, hl, List.map_append, List.count_append, List.map_singleton,
          List.count_singleton]
        simp only [Option.some.injEq, reduceCtorEq, if_false, List.count_nil, beq_iff_eq] at hb ⊢
        omega
      | look hs =>
        rw [started_none ht (by simp), hs]
        have hj : joined s (.run .main ch) = none := by simp only [joined, ht]
        rw [hj]
        simp only [reduceCtorEq, if_false, List.count_singleton, beq_iff_eq] at hb ⊢
        omega
      | @entry i e hget hl =>
        rw [started_none ht (by simp)]
        have hj : joined s (.run .main ch) = some e.thread := by
          simp only [joined, ht, hget, Option.map_some]
        rw [hj, hl]
        rw [count_eraseIdx hget] at hb
        simp only [Option.some.injEq, reduceCtorEq, if_false, List.count_singleton,
          beq_iff_eq] at hb ⊢
        omega
      | collect hl =>
        have hs : started s (.run .main ch) = none := by simp only [started, ht]
        have hj : joined s (.run .main ch) = none := by simp only [joined, ht]
        have hcount : (s.clientThreads.map fun e => Op.joinThread e.thread).count (.joinThread c) =
            (s.clientThreads.map (·.thread)).count c := by
          rw [← List.count_map_of_injective (s.clientThreads.map (·.thread)) Op.joinThread
            (fun _ _ => Op.joinThread.inj) c, List.map_map]
          rfl
        rw [hs, hj, hl, hcount]
        simp only [reduceCtorEq, if_false, List.map_nil, List.count_nil] at hb ⊢
        omega
      | @thread k hs =>
        rw [started_none ht (by simp), hs]
        have hj : joined s (.run .main ch) = some k := by simp only [joined, ht]
        rw [hj]
        simp only [Option.some.injEq, reduceCtorEq, if_false, List.count_nil,
          Op.joinThread.injEq] at hb ⊢
        omega
      | other hl hnew hop hstart =>
        have hnone : new.count (.joinThread c) = 0 :=
          List.count_eq_zero.mpr fun hmem => (hnew _ hmem).2 c rfl
        rw [started_none ht hstart, joined_none ht hop, hl, hnone]
        simp only [hop.2 c, reduceCtorEq, if_false] at hb ⊢
        omega
  · obtain ⟨hl, hs, hj, hmain⟩ := threads_quiet h hne
    have hentries : s'.entries c = s.entries c := by rw [entries, entries, hl]
    have hpending : s'.pendingJoins c = s.pendingJoins c := by
      rcases hmain with ⟨hm, -⟩ | ⟨hm, hn, -⟩
      · rw [pendingJoins, pendingJoins, hm]
      · rw [pendingJoins, pendingJoins, hm, List.count_nil, List.count_eq_zero]
        exact fun hmem => (hn _ hmem).2 c rfl
    rw [hs, hj, hentries, hpending]
    simpa using hb

/-- **After the accept loop** no thread is started any more. -/
theorem Joining.stopped_step (hJ : Joining past s) (hI : Inv s) (h : step s a = some s')
    (hstop : s'.stopping = true) :
    (∀ op ∈ s'.todo .main, op.Control) ∧
    (.collectThreads ∈ s'.todo .main ∨ s'.clientThreads = []) := by
  rcases step_effect h with ⟨t, ch, op, rest, new, s₁, rfl, ht, hx, hE, rfl⟩ | ⟨hne, -⟩
  · obtain ⟨hcontrol, hcollect⟩ := hJ.stopped ((stopping_exec hx).symm.trans hstop)
    cases t with
    | handler k =>
      have htodo : (s₁.setTodo (.handler k) (new ++ rest)).todo .main = s.todo .main := by
        simp [setTodo, hE.todo]
      have hl : (s₁.setTodo (.handler k) (new ++ rest)).clientThreads = s.clientThreads :=
        (handler_other hI ht hx).1
      rw [htodo, hl]
      exact ⟨hcontrol, hcollect⟩
    | main =>
      have htodo : (s₁.setTodo .main (new ++ rest)).todo .main = new ++ rest := by simp [setTodo]
      rw [ht] at hcontrol hcollect
      obtain ⟨hop, hrest⟩ := List.forall_mem_cons.mp hcontrol
      rw [htodo]
      refine ⟨List.forall_mem_append.mpr ⟨(exec_control hop hx).2.2, hrest⟩, ?_⟩
      change .collectThreads ∈ new ++ rest ∨ s₁.clientThreads = []
      -- the block was not the one that takes the threads out, or it was
      have hlater (hne : op ≠ .collectThreads) (hl : s.clientThreads = [] → s₁.clientThreads = []) :
          .collectThreads ∈ new ++ rest ∨ s₁.clientThreads = [] := by
        rcases hcollect with hmem | hnil
        · rcases List.mem_cons.mp hmem with rfl | hmem
          · exact absurd rfl hne
          · exact .inl (List.mem_append_right _ hmem)
        · exact .inr (hl hnil)
      cases threads_of_exec hx with
      | start => exact hop.elim
      | look hs => exact hlater (by simp) fun hnil => hs ▸ hnil
      | entry _ hl => exact hlater (by simp) fun hnil => by rw [hl, hnil, List.eraseIdx_nil]
      | collect hl => exact .inr hl
      | thread hs => exact hlater (by simp) fun hnil => hs ▸ hnil
      | other hl _ _ _ hne => exact hlater hne hl.trans
  · obtain ⟨hl, -, -, hmain⟩ := threads_quiet h hne
    rcases hmain with ⟨hm, heq⟩ | ⟨-, -, hm⟩
    · rw [hm, hl]
      exact hJ.stopped (heq.symm.trans hstop)
    · exact ⟨(hm hstop).2, .inl (hm hstop).1⟩

/-- **Every step** keeps the balance. -/
theorem Joining.step (hJ : Joining past s) (hI : Inv s) (hI' : Inv s')
    (h : Server.step s a = some s') : Joining (past ++ [(s, a)]) s' :=
  have ⟨hfresh, honce, herased⟩ := hJ.stages hI h
  have ⟨hready, htail⟩ := hJ.ready_step hI h
  ⟨hJ.entries_step hI hI' h, hready, htail, hJ.balance_step hI h, hfresh, honce, herased,
    hJ.stopped_step hI h⟩

/-- **The balance holds in every run.** -/
theorem joining_of_path {config : LoadedConfig} (h : Path step (init config) past s) :
    Inv s ∧ Joining past s := by
  refine h.invariant (I := fun past s => Inv s ∧ Joining past s)
    ⟨inv_init config, joining_init config⟩ ?_
  rintro past s a s' ⟨hI, hJ⟩ - hs
  have hI' := hI.step hs
  exact ⟨hI', hJ.step hI hI' hs⟩

/-- A thread that has erased its record waits for no frame any more. -/
theorem not_receiving (hI : Inv s) (hc : s.HasErased c) :
    step s (.recv c) = none ∧ step s (.recvEnd c) = none := by
  have hidle : ¬ (s.alive c && (s.todo (.handler c)).isEmpty) = true := by
    simp only [Bool.and_eq_true, List.isEmpty_iff, not_and]
    intro ha ht
    rcases hc with hc | hc <;> rw [hI.serving_of_idle ha ht] at hc <;> cases hc
  exact ⟨if_neg hidle, if_neg hidle⟩

/-- **The handler threads are joined.** Wherever the reaper is at the join of a thread, that thread
has left its loop and has erased its own record, whatever its descriptor number stands for by then.
No thread is joined before it has been started, or twice; and when the server has shut down every
thread that was ever started has been joined exactly once. -/
theorem threads_joined_once {config : LoadedConfig} (h : Path step (init config) past s) :
    (∀ i rest, s.todo .main = .joinEntry i :: rest → ∃ e, s.clientThreads[i]? = some e ∧
      Erased past e.thread ∧
      step s (.recv e.thread) = none ∧ step s (.recvEnd e.thread) = none) ∧
    (∀ c, joins past c ≤ starts past c ∧ starts past c ≤ 1) ∧
    (s.stopping = true → s.todo .main = [] → ∀ c, joins past c = starts past c) := by
  obtain ⟨hI, hJ⟩ := joining_of_path h
  refine ⟨?_, ?_, ?_⟩
  · intro i rest ht
    obtain ⟨e, he, hc⟩ := hJ.ready i rest ht
    obtain ⟨hrecv, hend⟩ := not_receiving hI hc
    refine ⟨e, he, ?_, hrecv, hend⟩
    -- it was started, as it is in the list
    have hlisted : 0 < s.entries e.thread :=
      List.count_pos_iff.mpr (List.mem_map.mpr ⟨e, List.mem_of_getElem? he, rfl⟩)
    have hb := hJ.balance e.thread
    exact (hJ.erased e.thread hc).resolve_left (by omega)
  · intro c
    have hb := hJ.balance c
    exact ⟨by omega, hJ.once c⟩
  · intro hstop hidle c
    have hb := hJ.balance c
    have hnil : s.clientThreads = [] := by
      rcases (hJ.stopped hstop).2 with hmem | hnil
      · rw [hidle] at hmem
        cases hmem
      · exact hnil
    have hentries : s.entries c = 0 := by rw [entries, hnil]; rfl
    have hpending : s.pendingJoins c = 0 := by rw [pendingJoins, hidle]; rfl
    omega

/-- A client leaves and another is accepted on its descriptor before the reaper has looked. The
server is shut down while the other is there. -/
def numberReused : List Action :=
  admits 5 0 ++ .iterate true :: blocks .main 2 ++ .recvEnd 0 :: blocks (.handler 0) 4 ++
    .run .main { fd := 5 } :: blocks .main 6 ++ .requestShutdown :: .leaveLoop :: blocks .main 5 ++
    .recvEnd 1 :: blocks (.handler 1) 4 ++ blocks .main 3

set_option maxRecDepth 8000 in
theorem both_are_joined :
    ∃ past s, Path step (init .default) past s ∧ s.stopping = true ∧ s.todo .main = [] ∧
    (s.fdOf 0 = 5 ∧ s.fdOf 1 = 5) ∧ (starts past 0 = 1 ∧ starts past 1 = 1) ∧ joins past 0 = 1 ∧
    joins past 1 = 1 := by
  have h : (execAllIn step (fun _ _ => True) (init .default) numberReused).map
      (fun s => (s.stopping, s.todo .main, s.fdOf 0, s.fdOf 1)) = some (true, [], 5, 5) := by decide
  have h0 : starts (trace step (init .default) numberReused) 0 = 1 := by decide
  have h1 : starts (trace step (init .default) numberReused) 1 = 1 := by decide
  obtain ⟨s, hp, hs⟩ := exists_pathIn_of_execAllIn h
  simp only [Prod.mk.injEq] at hs
  obtain ⟨hstop, hidle, hfd0, hfd1⟩ := hs
  have hjoined := (threads_joined_once hp).2.2 hstop hidle
  exact ⟨_, s, hp, hstop, hidle, ⟨hfd0, hfd1⟩, ⟨h0, h1⟩, (hjoined 0).trans h0, (hjoined 1).trans h1⟩

end Server

end ThreadLink.Backend
