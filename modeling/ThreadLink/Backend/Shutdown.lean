import ThreadLink.Backend.Closing
import ThreadLink.Backend.Order
import ThreadLink.Lib.Progress
import Mathlib.Algebra.Order.BigOperators.Group.Finset

/-!
# `shutdown_all` comes to its end

When the accept loop has been left the accept thread says goodbye to all, shuts their
connections down and waits for their threads. Each of these still has frames to handle and to
send, and waits in `recv_frame` at the end; it is the shutting down that wakes it. Nothing wakes
a thread whose `::send` does not return: the sockets block, without a limit of time, and the
goodbye is sent before anything is shut down. So all this is said of the sends that return.

## The model

* `Op.work` bounds how many blocks come of a block, itself included; `Server.work` how many
  are left to be run, with those of the frames that have not been received yet.
* `ShutdownTodo` says where the accept thread is in `shutdown_all`, and which connections have
  been shut down by then.
* `blocks s t` is arbitrary: in the state `s` a write does not return to `t`, be it in `::send` or
  in front of the write mutex that a thread in `::send` has locked. `Hangs` says that `t` is about
  to write then; `HeldUp` that the accept thread hangs, or a thread it waits for.

## What is proved

* `exec_work` — every block leaves less to do than it was.
* `ends_or_goes_on` — **`shutdown_all` comes to its end** where every `::send` returns: no thread
  goes on for ever, whatever the order in which they run, and as long as the accept thread is not
  done, and not held up in `::send`, some thread can run, or waits for a frame on a connection
  that has been shut down. Where a `::send` of the accept thread does not return, it is never done.
-/

namespace ThreadLink.Backend

open Text Runs

/-- How many blocks a block may come to, if there are `n` records and `m` threads in the list. -/
def Op.work (n m : ℕ) : Op → ℕ
  | .sendToFd _ _ => 2
  | .broadcast _ _ _ _ | .collectFds => n + 1
  | .handleChat _ _ _ | .eraseClient _ => n + 2
  | .handleNick _ _ => n + 3
  | .handleMsg _ _ _ _ => 5
  | .handleList _ => 3
  | .collectThreads => m + 1
  | _ => 1

/-- A block that is not one of the accept loop. -/
def Op.AfterLoop : Op → Prop
  | .accept | .register _ _ | .markWelcomed _ | .startThread _ _ | .reap _ | .joinEntry _ => False
  | _ => True

/-- How many blocks a thread may have to run yet. -/
def workOf (n m : ℕ) : List Op → ℕ
  | [] => 0
  | op :: l => op.work n m + workOf n m l

section work

variable {n n' m m' : ℕ} {op : Op} {l l' : List Op}

@[simp]
theorem workOf_nil : workOf n m [] = 0 := rfl

@[simp]
theorem workOf_cons : workOf n m (op :: l) = op.work n m + workOf n m l := rfl

@[simp]
theorem workOf_append : workOf n m (l ++ l') = workOf n m l + workOf n m l' := by
  induction l with
  | nil => simp
  | cons op l ih => simp [ih, Nat.add_assoc]

theorem workOf_map {α : Type} {f : α → Op} {xs : List α} (h : ∀ x, (f x).work n m = 1) :
    workOf n m (xs.map f) = xs.length := by
  induction xs with
  | nil => rfl
  | cons x xs ih => rw [List.map_cons, workOf_cons, ih, h, List.length_cons, Nat.add_comm]

/-- There is less to do where there are fewer records and threads. -/
theorem Op.work_mono (hn : n' ≤ n) (hm : m' ≤ m) : op.work n' m' ≤ op.work n m := by
  cases op <;> simp only [Op.work] <;> omega

theorem workOf_mono (hn : n' ≤ n) (hm : m' ≤ m) : workOf n' m' l ≤ workOf n m l := by
  induction l with
  | nil => rfl
  | cons op l ih =>
    rw [workOf_cons, workOf_cons]
    exact Nat.add_le_add (Op.work_mono hn hm) ih

/-- A frame gives little to do. -/
theorem workOf_handleFrame (cfg : Config) (fd : Fd) (f : ClientFrame) :
    workOf n m (handleFrame cfg fd f) ≤ n + 6 := by
  have hnick (args : Bytes) : workOf n m (handleNick fd args) ≤ n + 6 := by
    unfold handleNick
    split
    · simp [sendError, Op.work]
    · simp [sendError, Op.work]
    · split_ifs <;> simp [sendError, Op.work]
  have hmsg (args : Bytes) : workOf n m (handleMsg fd args f.serial) ≤ n + 6 := by
    unfold handleMsg
    simp only
    split_ifs <;> simp [sendError, Op.work]
  have hteardown : workOf n m (teardown fd) ≤ n + 4 := by simp [teardown, Op.work]
  unfold handleFrame handleLine
  simp only
  split_ifs
  · simpa [sendError, Op.work] using (show 2 + workOf n m (teardown fd) ≤ n + 6 by omega)
  · simp
  · exact hnick _
  · exact hmsg _
  · simp [Op.work]
  · omega
  · simp [sendError, Op.work]
  · simp [Op.work]

end work

namespace Server

variable {s s' s₁ : Server} {a : Action} {t : Tid} {ch : Choice} {op : Op} {rest new l : List Op}
  {c k : ConnId} {fd : Fd}

/-! ### What a block leaves to do -/

theorem size_sendFrame (s : Server) (fd : Fd) (f : Frame) (ok : Bool) :
    (s.sendFrame fd f ok).clients.size = s.clients.size := by rw [clients_sendFrame]

theorem size_renameClient (s : Server) (t : Tid) (fd : Fd) (newNick : Bytes) :
    (s.renameClient t fd newNick).1.clients.size = s.clients.size := by
  unfold renameClient
  split
  · rfl
  · split
    · rfl
    · simp [OrdMap.size, OrdMap.modify, OrdMap.mapValues]

theorem size_eraseClient (s : Server) (t : Tid) (fd : Fd) :
    (s.eraseClient t fd).1.clients.size ≤ s.clients.size := by
  unfold eraseClient
  split
  · exact le_of_eq (by simp [setStage])
  · exact List.length_filter_le ..

/-- **A block leaves less to do than it was**, and there are no more records and threads after
it. -/
theorem exec_work (hop : op.AfterLoop) (he : s.exec t ch op = some (s₁, new)) :
    s₁.clients.size ≤ s.clients.size ∧ s₁.clientThreads.length ≤ s.clientThreads.length ∧
      workOf s.clients.size s.clientThreads.length new <
        op.work s.clients.size s.clientThreads.length := by
  cases exec_done he with
  | unsent | unsaid | unshut | joinedThread | closedListener =>
    exact ⟨le_rfl, le_rfl, by simp [Op.work]⟩
  | sent | said => exact ⟨le_rfl, le_rfl, by simp [Op.work]⟩
  | frame =>
    exact ⟨(size_sendFrame ..).le, by rw [clientThreads_sendFrame], by simp [Op.work]⟩
  | @broadcast line excludeFd =>
    refine ⟨le_rfl, le_rfl, ?_⟩
    rw [workOf_map fun _ => rfl, targets, List.length_map]
    exact Nat.lt_succ_of_le (List.length_filter_le ..)
  | renamed =>
    refine ⟨(size_renameClient ..).le, by rw [clientThreads_renameClient], ?_⟩
    unfold renameClient
    split
    · simp [sendError, Op.work]
    · split <;> simp [Op.work]
  | routed =>
    refine ⟨le_rfl, le_rfl, ?_⟩
    unfold routeMsg
    split
    · simp [Op.work]
    · simp only
      split_ifs <;> simp [sendError, Op.work]
  | listed => exact ⟨le_rfl, le_rfl, by simp [listClients, Op.work]⟩
  | erased =>
    refine ⟨size_eraseClient .., by rw [clientThreads_eraseClient], ?_⟩
    unfold eraseClient
    split
    · simp [Op.work]
    · simp only
      split_ifs <;> simp [Op.work]
  | closed =>
    refine ⟨le_of_eq ?_, le_rfl, by simp [Op.work]⟩
    simp [setStage]
  | ended | shut => exact ⟨le_rfl, le_rfl, by simp [Op.work]⟩
  | collectedFds =>
    refine ⟨le_rfl, le_rfl, ?_⟩
    rw [workOf_map fun _ => rfl]
    simp [Op.work, OrdMap.keys, OrdMap.size]
  | collectedThreads =>
    refine ⟨le_rfl, Nat.zero_le _, ?_⟩
    rw [workOf_map fun _ => rfl]
    simp [Op.work]
  | _ => exact hop.elim

/-! ### Where the accept thread is -/

/-- What the accept thread has still to do of `shutdown_all`. -/
inductive ShutdownTodo (s : Server) : List Op → Prop
  /-- It says goodbye. -/
  | notify {l : List Op} (h : ∀ op ∈ l, op.Announces) :
    ShutdownTodo s (l ++ [.collectFds, .collectThreads, .closeListener])
  /-- It shuts the connections down. -/
  | cut {l : List Fd} (h : ∀ c, (s.stage c).Listed → s.broken c = true ∨ s.fdOf c ∈ l) :
    ShutdownTodo s (l.map .shutdownFd ++ [.collectThreads, .closeListener])
  /-- It waits for the threads. -/
  | join {l : List ConnId} (h : ∀ c, (s.stage c).Listed → s.broken c = true) :
    ShutdownTodo s (l.map .joinThread ++ [.closeListener])
  /-- It is done. -/
  | done : ShutdownTodo s []

/-- Connections that are no longer listed, or are shut down, are no hindrance. -/
theorem ShutdownTodo.mono (h : ShutdownTodo s l)
    (hs : ∀ c, (s'.stage c).Listed → (s.stage c).Listed ∧ s'.fdOf c = s.fdOf c ∧
      (s.broken c = true → s'.broken c = true)) : ShutdownTodo s' l := by
  cases h with
  | notify h => exact .notify h
  | cut h =>
    refine .cut fun c hc => ?_
    obtain ⟨hl, hfd, hb⟩ := hs c hc
    exact (h c hl).imp hb (hfd ▸ ·)
  | join h =>
    refine .join fun c hc => ?_
    obtain ⟨hl, -, hb⟩ := hs c hc
    exact hb (h c hl)
  | done => exact .done

/-- **Its next block.** -/
theorem ShutdownTodo.run (h : ShutdownTodo s (op :: rest)) (hI : Inv s)
    (he : s.exec .main ch op = some (s₁, new)) :
    op.AfterLoop ∧ ShutdownTodo s₁ (new ++ rest) := by
  generalize hl : op :: rest = l at h
  cases h with
  | @notify l h =>
    cases l with
    | nil =>
      cases hl
      cases exec_done he with
      | collectedFds =>
        refine ⟨trivial, .cut fun c hc => ?_⟩
        obtain ⟨r, hr⟩ := hI.listed c hc
        exact .inr (OrdMap.mem_keys_of_find? hr)
    | cons o l =>
      cases hl
      obtain ⟨ho, hrest⟩ := List.forall_mem_cons.mp h
      obtain ⟨hm, -, hnew⟩ := exec_announces ho he
      refine ⟨by cases op <;> trivial, ?_⟩
      rw [List.append_eq, ← List.append_assoc]
      exact .notify (List.forall_mem_append.mpr ⟨hnew, hrest⟩)
  | @cut l h =>
    cases l with
    | nil =>
      cases hl
      cases exec_done he with
      | collectedThreads =>
        have hb : ∀ c, (s.stage c).Listed → s.broken c = true :=
          fun c hc => (h c hc).resolve_right List.not_mem_nil
        refine ⟨trivial, ?_⟩
        have hj := ShutdownTodo.join (s := { s with clientThreads := [] })
          (l := s.clientThreads.map (·.thread)) hb
        rwa [List.map_map] at hj
    | cons fd l =>
      cases hl
      refine ⟨trivial, ?_⟩
      have hopen {c : ConnId} (hc : (s.stage c).Listed) : s.fds (s.fdOf c) = some c :=
        hI.fds_fdOf (by rcases hc with hc | hc <;> rw [hc] <;> exact ⟨by decide, by decide⟩)
      cases exec_done he with
      | unshut hfd =>
        refine .cut fun c hc => (h c hc).imp id fun hmem => ?_
        rcases List.mem_cons.mp hmem with heq | hmem
        · have hk := hopen hc
          rw [heq, hfd] at hk
          cases hk
        · exact hmem
      | @shut _ k hfd =>
        refine .cut fun c hc => ?_
        change Function.update s.broken k true c = true ∨ s.fdOf c ∈ l
        by_cases hck : c = k
        · exact .inl (by rw [hck, Function.update_self])
        · rw [Function.update_of_ne hck]
          refine (h c hc).imp id fun hmem => ?_
          rcases List.mem_cons.mp hmem with heq | hmem
          · have hk := hopen hc
            rw [heq, hfd] at hk
            exact absurd (Option.some.inj hk).symm hck
          · exact hmem
  | @join l h =>
    cases l with
    | nil =>
      cases hl
      cases exec_done he with
      | closedListener => exact ⟨trivial, .done⟩
    | cons c l =>
      cases hl
      cases exec_done he with
      | joinedThread => exact ⟨trivial, .join h⟩
  | done => cases hl

/-- **After the accept loop** the accept thread is in `shutdown_all`. -/
def Ending (s : Server) : Prop := s.stopping = true → ShutdownTodo s (s.todo .main)

theorem Ending.step (hE : s.Ending) (hI : Inv s) (h : Server.step s a = some s') : s'.Ending := by
  intro hstop
  rcases step_effect h with ⟨t, ch, op, rest, new, s₁, rfl, ht, he, heff, rfl⟩ | ⟨hne, hq⟩
  · have hs := hE ((stopping_exec he).symm.trans hstop)
    cases t with
    | main =>
      have htodo : (s₁.setTodo .main (new ++ rest)).todo .main = new ++ rest := by simp [setTodo]
      rw [htodo]
      exact ((ht ▸ hs).run hI he).2.mono fun c hc => ⟨hc, rfl, id⟩
    | handler c₀ =>
      have htodo : (s₁.setTodo (.handler c₀) (new ++ rest)).todo .main = s.todo .main := by
        simp [setTodo, heff.todo]
      rw [htodo]
      refine hs.mono fun c hc => ?_
      change (s₁.stage c).Listed at hc
      have hl : (s.stage c).Listed := by
        rcases moves_handler hI ht he c with hst | hm
        · rwa [← hst]
        · generalize s₁.stage c = st at hm hc
          cases hm with
          | erase | close => rcases hc with hc | hc <;> cases hc
      have hne : c ≠ s.nextConn := by
        rintro rfl
        rw [(hI.unborn_iff _).mpr le_rfl] at hl
        rcases hl with hl | hl <;> cases hl
      have hfd : s₁.fdOf c = s.fdOf c := exec_fdOf he hne
      exact ⟨hl, hfd, heff.broken c⟩
  · have hmono (hs : ShutdownTodo s (s.todo .main)) : ShutdownTodo s' (s.todo .main) :=
      hs.mono fun c hc => ⟨by rwa [hq.stage] at hc, congrFun hq.fdOf c, by rw [hq.broken]; exact id⟩
    cases a with
    | run t ch => exact absurd rfl (hne t ch)
    | leaveLoop =>
      simp only [Server.step, Option.ite_none_right_eq_some, Option.some.injEq] at h
      obtain ⟨-, rfl⟩ := h
      simp only [Function.update_self, shutdownAll]
      exact .notify (l := [_]) (forall_mem_singleton trivial)
    | iterate =>
      simp only [Server.step, Option.ite_none_right_eq_some, Option.some.injEq,
        Bool.and_eq_true, Bool.not_eq_true'] at h
      obtain ⟨⟨⟨-, hr⟩, -⟩, rfl⟩ := h
      rw [hr] at hstop
      cases hstop
    | recv c =>
      obtain ⟨-, -, k, f, rest, -, -, rfl⟩ := step_recv h
      simpa using hmono (hE hstop)
    | recvEnd c =>
      simp only [Server.step, Option.ite_none_right_eq_some, Option.some.injEq] at h
      obtain ⟨-, rfl⟩ := h
      simpa using hmono (hE hstop)
    | requestShutdown | arrive =>
      cases h
      exact hmono (hE hstop)
    | rehash es =>
      simp only [Server.step, Option.dite_none_right_eq_some, Option.some.injEq] at h
      obtain ⟨_, rfl⟩ := h
      exact hmono (hE hstop)

theorem ending_of_run {config : LoadedConfig} (h : Run step (init config) s) :
    Inv s ∧ s.Ending := by
  refine h.invariant (I := fun s => Inv s ∧ s.Ending) ⟨inv_init config, fun hs => by cases hs⟩ ?_
  rintro s a s' ⟨hI, hE⟩ - hs
  exact ⟨hI.step hs, hE.step hI hs⟩

/-! ### What is left to do -/

/-- What a connection may still give to do: what its handler thread has begun, the frames it has
not received, and the end of `handle_client` if it has not begun it. -/
def share (s : Server) (n m : ℕ) (c : ConnId) : ℕ :=
  workOf n m (s.todo (.handler c)) + (s.inbox c).length * (n + 7) +
    if s.alive c = true ∧ .endThread ∉ s.todo (.handler c) then n + 5 else 0

/-- How much is left to do. -/
def work (s : Server) : ℕ :=
  workOf s.clients.size s.clientThreads.length (s.todo .main) +
    ∑ c ∈ Finset.range s.nextConn, s.share s.clients.size s.clientThreads.length c

/-- A thread runs a block, or gets something from `recv_frame`. -/
def Action.isTurn : Action → Bool
  | .run _ _ | .recv _ | .recvEnd _ => true
  | _ => false

/-- A client sends a frame. -/
def Action.isArrival : Action → Bool
  | .arrive _ _ => true
  | _ => false

/-- A thread is at a write, which does not return to it. -/
def Hangs (blocks : Server → Tid → Prop) (s : Server) (t : Tid) : Prop :=
  (∃ fd f rest, s.todo t = .sendFrame fd f :: rest) ∧ blocks s t

/-- The accept thread hangs, or waits for a handler thread that hangs. -/
def HeldUp (blocks : Server → Tid → Prop) (s : Server) : Prop :=
  s.Hangs blocks .main ∨
    ∃ c rest, s.todo .main = .joinThread c :: rest ∧ s.Hangs blocks (.handler c)

/-- What can happen where a thread that hangs does not run. -/
def Unhung (blocks : Server → Tid → Prop) (s : Server) : Action → Prop
  | .run t _ => ¬ s.Hangs blocks t
  | _ => True

/-- A thread that does not hang runs, or one that has been woken in `recv_frame` by
`::shutdown`. -/
def Due (blocks : Server → Tid → Prop) (s : Server) : Action → Prop
  | .run t _ => ¬ s.Hangs blocks t
  | .recvEnd c => s.broken c = true
  | _ => False

theorem share_mono {n n' m m' : ℕ} (hn : n' ≤ n) (hm : m' ≤ m) :
    s.share n' m' c ≤ s.share n m c := by
  have h1 := workOf_mono (l := s.todo (.handler c)) hn hm
  have h2 := Nat.mul_le_mul_left (s.inbox c).length (Nat.add_le_add_right hn 7)
  unfold share
  split_ifs <;> omega

/-- A connection that is given nothing more to do. -/
theorem share_le {n m : ℕ} (htodo : s'.todo (.handler c) = s.todo (.handler c))
    (hinbox : s'.inbox c = s.inbox c) (halive : s'.alive c = true → s.alive c = true) :
    s'.share n m c ≤ s.share n m c := by
  unfold share
  rw [htodo, hinbox]
  refine Nat.add_le_add_left ?_ _
  split_ifs with h1 h2
  · exact le_rfl
  · exact absurd ⟨halive h1.1, h1.2⟩ h2
  · exact Nat.zero_le _
  · exact le_rfl

/-- The work of a state, at the counts of an earlier one. -/
theorem work_le {n m : ℕ} (hn : s.clients.size ≤ n) (hm : s.clientThreads.length ≤ m) :
    s.work ≤ workOf n m (s.todo .main) + ∑ c ∈ Finset.range s.nextConn, s.share n m c :=
  Nat.add_le_add (workOf_mono hn hm) (Finset.sum_le_sum fun _ _ => share_mono hn hm)

/-- A block after the accept loop accepts no connection and starts no thread. -/
theorem exec_afterLoop (hop : op.AfterLoop) (he : s.exec t ch op = some (s₁, new)) :
    s₁.nextConn = s.nextConn ∧ (∀ c, s₁.alive c = true → s.alive c = true) := by
  refine ⟨?_, fun c hc => (alive_exec he hc).resolve_right ?_⟩
  · cases exec_done he with
    | accepted => exact hop.elim
    | frame => exact (mild_sendFrame ..).nextConn
    | renamed => exact (mild_renameClient ..).nextConn
    | erased =>
      unfold eraseClient
      split
      · simp [setStage]
      · simp [setStage]
    | closed => simp [setStage]
    | _ => rfl
  · rintro ⟨fd, rfl⟩
    exact hop

/-- **A block of the accept thread** leaves less to do. -/
theorem work_run_main (hop : op.AfterLoop) (ht : s.todo .main = op :: rest)
    (he : s.exec .main ch op = some (s₁, new)) :
    (s₁.setTodo .main (new ++ rest)).work < s.work := by
  obtain ⟨hn, hm, hlt⟩ := exec_work hop he
  obtain ⟨hnext, halive⟩ := exec_afterLoop hop he
  have heff := exec_effect he
  have hmain : (s₁.setTodo .main (new ++ rest)).todo .main = new ++ rest := by simp [setTodo]
  refine (work_le (s := s₁.setTodo .main (new ++ rest)) hn hm).trans_lt ?_
  refine Nat.add_lt_add_of_lt_of_le ?_ ?_
  · rw [hmain, ht, workOf_append, workOf_cons]
    omega
  · change ∑ c ∈ Finset.range s₁.nextConn, _ ≤ _
    rw [hnext]
    exact Finset.sum_le_sum fun c _ =>
      share_le (by simp [setTodo, heff.todo]) (congrFun heff.inbox c) (halive c)

/-- A block of a handler thread is not one of the accept loop. -/
theorem Inv.afterLoop_of_handler (hI : Inv s) (ht : s.todo (.handler c) = op :: rest) :
    op.AfterLoop := by
  have hn := (ht ▸ hI.handler c).next
  generalize s.stage c = st at hn
  generalize s.alive c = al at hn
  cases hn with
  | serves h => cases op <;> trivial
  | announces h => cases op <;> trivial
  | erase | close | «end» => trivial

/-- **A block of a handler thread** leaves less to do. -/
theorem work_run_handler (hI : Inv s) (ht : s.todo (.handler c) = op :: rest)
    (he : s.exec (.handler c) ch op = some (s₁, new)) :
    (s₁.setTodo (.handler c) (new ++ rest)).work < s.work := by
  have hop := hI.afterLoop_of_handler ht
  obtain ⟨hn, hm, hlt⟩ := exec_work hop he
  obtain ⟨hnext, halive⟩ := exec_afterLoop hop he
  have heff := exec_effect he
  have hborn : c < s.nextConn := by
    by_contra hle
    have hc := hI.handler c
    rw [ht, (hI.unborn_iff c).mpr (not_lt.mp hle)] at hc
    generalize s.alive c = al at hc
    cases hc
  have hmain : (s₁.setTodo (.handler c) (new ++ rest)).todo .main = s.todo .main := by
    simp [setTodo, heff.todo]
  refine (work_le (s := s₁.setTodo (.handler c) (new ++ rest)) hn hm).trans_lt ?_
  rw [hmain]
  refine Nat.add_lt_add_left ?_ _
  change ∑ c ∈ Finset.range s₁.nextConn, _ < _
  rw [hnext]
  -- its own share is smaller, that of any other is not larger
  have hown : (s₁.setTodo (.handler c) (new ++ rest)).share s.clients.size
      s.clientThreads.length c <
      s.share s.clients.size s.clientThreads.length c := by
    have htodo : (s₁.setTodo (.handler c) (new ++ rest)).todo (.handler c) = new ++ rest := by
      simp [setTodo]
    have hinbox : (s₁.setTodo (.handler c) (new ++ rest)).inbox c = s.inbox c :=
      congrFun heff.inbox c
    have hal : (s₁.setTodo (.handler c) (new ++ rest)).alive c = s₁.alive c := rfl
    unfold share
    rw [htodo, hinbox, ht, hal, workOf_append, workOf_cons]
    have hend : s₁.alive c = true ∧ .endThread ∉ new ++ rest →
        s.alive c = true ∧ .endThread ∉ op :: rest := by
      rintro ⟨ha, hnot⟩
      refine ⟨halive c ha, fun hmem => ?_⟩
      rcases List.mem_cons.mp hmem with heq | hmem
      · subst heq
        cases exec_done he with
        | ended heq =>
          cases heq
          simp at ha
      · exact hnot (List.mem_append_right _ hmem)
    split_ifs with h1 h2
    · omega
    · exact absurd (hend h1) h2
    · omega
    · omega
  refine Finset.sum_lt_sum (fun k _ => ?_) ⟨c, Finset.mem_range.mpr hborn, hown⟩
  by_cases hkc : k = c
  · exact hkc ▸ hown.le
  · exact share_le (by simp [setTodo, heff.todo, hkc]) (congrFun heff.inbox k) (halive k)

/-- What one connection gives to do more, or less. -/
theorem work_add {x y : ℕ} (hn : s'.clients.size = s.clients.size)
    (hm : s'.clientThreads = s.clientThreads) (hnext : s'.nextConn = s.nextConn)
    (hmain : s'.todo .main = s.todo .main) (hc : c < s.nextConn)
    (hown : s'.share s.clients.size s.clientThreads.length c + x ≤
      s.share s.clients.size s.clientThreads.length c + y)
    (hother : ∀ k, k ≠ c → s'.share s.clients.size s.clientThreads.length k =
      s.share s.clients.size s.clientThreads.length k) : s'.work + x ≤ s.work + y := by
  have hmem : c ∈ Finset.range s.nextConn := Finset.mem_range.mpr hc
  unfold work
  rw [hn, hm, hnext, hmain]
  generalize s.clients.size = n at *
  generalize s.clientThreads.length = m at *
  have hsum : ∑ k ∈ (Finset.range s.nextConn).erase c, s'.share n m k =
      ∑ k ∈ (Finset.range s.nextConn).erase c, s.share n m k :=
    Finset.sum_congr rfl fun k hk => hother k (Finset.ne_of_mem_erase hk)
  have h1 : s'.share n m c + ∑ k ∈ (Finset.range s.nextConn).erase c, s'.share n m k =
      ∑ k ∈ Finset.range s.nextConn, s'.share n m k := Finset.add_sum_erase _ _ hmem
  have h2 : s.share n m c + ∑ k ∈ (Finset.range s.nextConn).erase c, s.share n m k =
      ∑ k ∈ Finset.range s.nextConn, s.share n m k := Finset.add_sum_erase _ _ hmem
  omega

/-- **What a step costs**: a turn of a thread leaves less to do, and a frame that arrives gives no
more to do than its price. -/
theorem work_step {K : ℕ} (hI : Inv s) (hE : s.Ending) (hstop : s.stopping = true)
    (hK : s.clients.size ≤ K) (h : step s a = some s') :
    s'.work + a.isTurn.toNat ≤ s.work + (K + 7) * a.isArrival.toNat := by
  cases a with
  | run t ch =>
    obtain ⟨op, rest, s₁, new, ht, he, rfl⟩ := step_run h
    have hlt : (s₁.setTodo t (new ++ rest)).work < s.work := by
      cases t with
      | main => exact work_run_main ((ht ▸ hE hstop).run hI he).1 ht he
      | handler c => exact work_run_handler hI ht he
    simpa [Action.isTurn, Action.isArrival] using Nat.succ_le_of_lt hlt
  | iterate | leaveLoop =>
    simp only [step, Option.ite_none_right_eq_some, hstop] at h
    simp at h
  | requestShutdown =>
    cases h
    simp [Action.isTurn, Action.isArrival, work, share]
  | rehash es =>
    simp only [step, Option.dite_none_right_eq_some, Option.some.injEq] at h
    obtain ⟨hp, rfl⟩ := h
    have hsize : (s.clients.permute es hp).size = s.clients.size := hp.length_eq
    simp [Action.isTurn, Action.isArrival, work, share, hsize]
  | arrive k f =>
    cases h
    by_cases hk : k < s.nextConn
    · refine work_add (c := k) rfl rfl rfl rfl hk ?_ fun k' hk' => ?_
      · simp only [share, Function.update_self, List.length_append, List.length_singleton,
          Nat.add_mul, Nat.one_mul, Action.isTurn, Action.isArrival, Bool.toNat_false,
          Bool.toNat_true, Nat.mul_one]
        omega
      · simp [share, hk']
    · have hsame : ∀ k' ∈ Finset.range s.nextConn,
          share { s with inbox := Function.update s.inbox k (s.inbox k ++ [f]) }
            s.clients.size s.clientThreads.length k' =
          s.share s.clients.size s.clientThreads.length k' := by
        intro k' hk'
        have hne : k' ≠ k := fun he => hk (he ▸ Finset.mem_range.mp hk')
        simp [share, hne]
      have hwork : work { s with inbox := Function.update s.inbox k (s.inbox k ++ [f]) } =
          s.work := congrArg (workOf _ _ (s.todo .main) + ·) (Finset.sum_congr rfl hsame)
      rw [hwork]
      simp [Action.isTurn]
  | recv c =>
    obtain ⟨ha, ht, k, f, rest, hk, hf, rfl⟩ := step_recv h
    have hst := hI.serving_of_idle ha ht
    have hopen := hI.fds_fdOf (c := c) (hst ▸ ⟨by decide, by decide⟩)
    obtain rfl : c = k := Option.some.inj (hopen.symm.trans hk)
    refine work_add (c := c) rfl rfl rfl (by simp) (hI.lt_nextConn hk) ?_ fun k' hk' => ?_
    · have hle : workOf s.clients.size s.clientThreads.length _ ≤ _ :=
        workOf_handleFrame s.config.1 (s.fdOf c) f
      simp only [share, Function.update_self, ht, hf, ha, List.length_cons, Nat.add_mul,
        Nat.one_mul, Action.isTurn, Action.isArrival, Bool.toNat_false, Bool.toNat_true,
        Nat.mul_zero, workOf_nil, List.not_mem_nil, not_false_eq_true, and_self, if_true, true_and]
      split_ifs <;> omega
    · simp [share, hk']
  | recvEnd c =>
    simp only [step, Option.ite_none_right_eq_some, Option.some.injEq, Bool.and_eq_true,
      List.isEmpty_iff] at h
    obtain ⟨⟨ha, ht⟩, rfl⟩ := h
    have hst := hI.serving_of_idle ha ht
    have hopen := hI.fds_fdOf (c := c) (hst ▸ ⟨by decide, by decide⟩)
    refine work_add (c := c) rfl rfl rfl (by simp) (hI.lt_nextConn hopen) ?_ fun k' hk' => ?_
    · simp only [share, Function.update_self, ht, ha, Action.isTurn, Action.isArrival,
        Bool.toNat_false, Bool.toNat_true, Nat.mul_zero, workOf_nil, List.not_mem_nil,
        not_false_eq_true, and_self, if_true, true_and]
      simp [teardown, Op.work]
      omega
    · simp [share, hk']

/-- **As long as the accept thread is not done** and not held up some thread can run, or has been
woken. -/
theorem exists_due {blocks : Server → Tid → Prop} (hI : Inv s) (hE : s.Ending)
    (hstop : s.stopping = true) (hne : s.todo .main ≠ []) (hup : ¬ s.HeldUp blocks) :
    ∃ a s', s.Due blocks a ∧ step s a = some s' := by
  have hs := hE hstop
  obtain ⟨hmain, hwaits⟩ := not_or.mp hup
  have hrun {op : Op} {rest : List Op} (ht : s.todo .main = op :: rest)
      (he : (s.exec .main {} op).isSome = true) : ∃ a s', s.Due blocks a ∧ step s a = some s' := by
    refine ⟨.run .main {}, _, hmain, Option.eq_some_of_isSome ?_⟩
    simp only [step, ht, Option.isSome_map, he]
  generalize hl : s.todo .main = l at hs
  cases hs with
  | @notify l h =>
    cases l with
    | nil => exact hrun hl rfl
    | cons op l =>
      exact hrun hl (exec_isSome_of_serves (((List.forall_mem_cons.mp h).1).serves 0) s {})
  | @cut l h =>
    cases l with
    | nil => exact hrun hl rfl
    | cons fd l =>
      refine hrun hl ?_
      simp only [exec]
      split <;> rfl
  | @join l h =>
    cases l with
    | nil => exact hrun hl rfl
    | cons c l =>
      -- the thread that is waited for has ended, or runs, or is in `recv_frame`
      by_cases ha : s.alive c = true
      · by_cases ht : s.todo (.handler c) = []
        · have hb := h c (.inr (hI.serving_of_idle ha ht))
          refine ⟨.recvEnd c, _, hb, Option.eq_some_of_isSome ?_⟩
          simp [step, ha, ht]
        · have hfree : ¬ s.Hangs blocks (.handler c) := fun hh => hwaits ⟨c, _, hl, hh⟩
          exact ⟨.run (.handler c) {}, _, hfree, Option.eq_some_of_isSome (handler_runs hI ht {})⟩
      · refine hrun hl ?_
        simp [exec, ha]
  | done => exact absurd hl hne

/-- What the accept thread has begun it goes on with; nothing else is put in its way. -/
theorem todo_main_step (ht : s.todo .main ≠ []) (hs : step s a = some s') :
    s'.todo .main = s.todo .main ∨ ∃ ch, a = .run .main ch := by
  cases a with
  | run t ch =>
    obtain ⟨op, rest, s₁, new, -, he, rfl⟩ := step_run hs
    cases t with
    | main => exact .inr ⟨ch, rfl⟩
    | handler c =>
      left
      simp [setTodo, (exec_effect he).todo]
  | iterate | leaveLoop =>
    simp only [step, Option.ite_none_right_eq_some, Bool.and_eq_true, List.isEmpty_iff] at hs
    exact absurd hs.1.2 ht
  | recv c =>
    obtain ⟨-, -, k, f, rest, -, -, rfl⟩ := step_recv hs
    left
    simp
  | recvEnd c =>
    simp only [step, Option.ite_none_right_eq_some, Option.some.injEq] at hs
    obtain ⟨-, rfl⟩ := hs
    left
    simp
  | requestShutdown | arrive =>
    cases hs
    exact .inl rfl
  | rehash es =>
    simp only [step, Option.dite_none_right_eq_some, Option.some.injEq] at hs
    obtain ⟨_, rfl⟩ := hs
    exact .inl rfl

/-- **An accept thread whose `::send` never returns** stays where it is, whatever else happens. -/
theorem todo_main_of_hangs {blocks : Server → Tid → Prop} (hh : ∀ s, blocks s .main)
    (h : s.Hangs blocks .main) (hr : RunIn step (Unhung blocks) s s') :
    s'.todo .main = s.todo .main := by
  refine hr.invariant (I := fun s' => s'.todo .main = s.todo .main) rfl ?_
  rintro u a u' hu hfree hs
  obtain ⟨⟨fd, f, rest, htodo⟩, -⟩ := h
  have hin : u.todo .main = .sendFrame fd f :: rest := hu.trans htodo
  rcases todo_main_step (by rw [hin]; exact List.cons_ne_nil _ _) hs with heq | ⟨ch, rfl⟩
  · exact heq.trans hu
  · exact absurd ⟨⟨fd, f, rest, hin⟩, hh u⟩ hfree

/-- A server whose accept loop has been left, with no more than `K` records. -/
structure ShutsDown (K : ℕ) (s : Server) : Prop where
  /-- Its registry is in order. -/
  inv : Inv s
  /-- The accept thread is in `shutdown_all`. -/
  ending : s.Ending
  /-- It has left its loop. -/
  stopping : s.stopping = true
  /-- No record is added. -/
  size : s.clients.size ≤ K

theorem ShutsDown.step {K : ℕ} (h : ShutsDown K s) (hs : Server.step s a = some s') :
    ShutsDown K s' := by
  refine ⟨h.inv.step hs, h.ending.step h.inv hs, ?_, ?_⟩
  · cases a with
    | run t ch =>
      obtain ⟨op, rest, s₁, new, -, he, rfl⟩ := step_run hs
      exact (stopping_exec he).trans h.stopping
    | iterate | leaveLoop =>
      simp only [Server.step, Option.ite_none_right_eq_some, h.stopping] at hs
      simp at hs
    | recv c =>
      obtain ⟨-, -, k, f, rest, -, -, rfl⟩ := step_recv hs
      exact h.stopping
    | recvEnd c =>
      simp only [Server.step, Option.ite_none_right_eq_some, Option.some.injEq] at hs
      obtain ⟨-, rfl⟩ := hs
      exact h.stopping
    | requestShutdown | arrive =>
      cases hs
      exact h.stopping
    | rehash es =>
      simp only [Server.step, Option.dite_none_right_eq_some, Option.some.injEq] at hs
      obtain ⟨_, rfl⟩ := hs
      exact h.stopping
  · rcases step_effect hs with ⟨t, ch, op, rest, new, s₁, rfl, ht, he, -, rfl⟩ | ⟨-, hq⟩
    · have hop : op.AfterLoop := by
        cases t with
        | main => exact ((ht ▸ h.ending h.stopping).run h.inv he).1
        | handler c => exact h.inv.afterLoop_of_handler ht
      exact (exec_work hop he).1.trans h.size
    · exact hq.clients.length_eq.trans_le h.size

/-- **`shutdown_all` comes to its end** if every `::send` returns. However the threads take their
turns from the moment the accept loop is left, and whatever the clients still send, there are no
more turns than the work that was left then and a fixed price for each frame that has arrived
since. And as long as the accept thread is not done some thread can run, or has been woken in
`recv_frame`, unless the accept thread is in a `::send` that does not return, or waits for a
thread that is; so it can always be done if that is never so. If it is in a `::send` that never
returns, it is never done. -/
theorem ends_or_goes_on {config : LoadedConfig} (blocks : Server → Tid → Prop)
    (h : Run step (init config) s) (hstop : s.stopping = true) :
    (∀ past s', Path step s past s' → countSteps Action.isTurn past ≤
      s.work + (s.clients.size + 7) * countSteps Action.isArrival past) ∧
    (∀ s', Run step s s' → s'.todo .main ≠ [] →
      (∃ a s'', s'.Due blocks a ∧ step s' a = some s'') ∨ s'.HeldUp blocks) ∧
    ((∀ s', RunIn step (Due blocks) s s' → ¬ s'.HeldUp blocks) →
      ∃ s', RunIn step (Due blocks) s s' ∧ s'.todo .main = []) ∧
    ∀ s' s'', Run step s s' → s'.Hangs blocks .main → (∀ u, blocks u .main) →
      RunIn step (Unhung blocks) s' s'' → s''.todo .main ≠ [] := by
  obtain ⟨hI, hE⟩ := ending_of_run h
  have h0 : ShutsDown s.clients.size s := ⟨hI, hE, hstop, le_rfl⟩
  refine ⟨fun past s' hp => ?_, fun s' hs' hne => ?_, fun hfree => ?_, ?_⟩
  · have hle := hp.spent_le work Action.isTurn Action.isArrival (s.clients.size + 7) h0
      (fun s a s' h _ hs => h.step hs)
      fun s a s' h _ hs => work_step h.inv h.ending h.stopping h.size hs
    omega
  · have hs := hs'.invariant h0 fun s a s' h _ hs => h.step hs
    by_cases hup : s'.HeldUp blocks
    · exact .inr hup
    · exact .inl (exists_due hs.inv hs.ending hs.stopping hne hup)
  · refine exists_goal (I := fun s' => RunIn step (Due blocks) s s' ∧ ShutsDown s.clients.size s')
      work ⟨.refl s, h0⟩ ?_
    rintro s₀ ⟨hr, h₀⟩ hne
    obtain ⟨a, s₁, hdue, hs₁⟩ := exists_due h₀.inv h₀.ending h₀.stopping hne (hfree s₀ hr)
    refine ⟨a, s₁, hdue, hs₁, ⟨hr.tail hdue hs₁, h₀.step hs₁⟩, ?_⟩
    have hle := work_step h₀.inv h₀.ending h₀.stopping h₀.size hs₁
    cases a with
    | run | recvEnd =>
      simp only [Action.isTurn, Action.isArrival, Bool.toNat_true, Bool.toNat_false] at hle
      omega
    | _ => exact hdue.elim
  · intro s' s'' _ hh hall hr
    obtain ⟨⟨fd, f, rest, htodo⟩, -⟩ := id hh
    rw [todo_main_of_hangs hall hh hr, htodo]
    exact List.cons_ne_nil _ _

/-- The goodbye to one client. -/
def goodbye : Frame :=
  ⟨.sys (bytes "Server is shutting down. Goodbye!"), .broadcast none 1, none⟩

set_option maxRecDepth 8000 in
/-- A client is there, and has sent a line that was not received, when the goodbye is sent to it. If
every `::send` returns the server shuts down; if the client never takes the goodbye it does
not. -/
theorem goodbye_to_one :
    ∃ s, Run step (init .default) s ∧ s.clients.size = 1 ∧ (s.inbox 0).length = 1 ∧
      (∃ s', RunIn step (Due fun _ _ => False) s s' ∧ s'.todo .main = []) ∧
      ∀ s', RunIn step (Unhung fun _ t => t = .main) s s' → s'.todo .main ≠ [] := by
  obtain ⟨s, hs, hstop, hsize, hinbox, htodo⟩ := exists_run_of_any step (init .default)
    (admits 5 0 ++ [.arrive 0 ⟨bytes "hi", none⟩, .leaveLoop, .run .main {}])
    (fun s => s.stopping = true ∧ s.clients.size = 1 ∧ (s.inbox 0).length = 1 ∧
      s.todo .main = [.sendFrame 5 goodbye, .collectFds, .collectThreads, .closeListener])
    (by decide)
  have hfree : ∀ s' : Server, ¬ s'.HeldUp fun _ _ => False := by
    rintro s' (⟨-, hb⟩ | ⟨c, rest, -, -, hb⟩) <;> exact hb
  obtain ⟨-, -, hends, -⟩ := ends_or_goes_on (fun _ _ => False) hs hstop
  obtain ⟨-, -, -, hnever⟩ := ends_or_goes_on (fun _ t => t = .main) hs hstop
  exact ⟨s, hs, hsize, hinbox, hends fun s' _ => hfree s',
    fun s' hr => hnever s s' (.refl s) ⟨⟨_, _, _, htodo⟩, rfl⟩ (fun _ => rfl) hr⟩

end Server

end ThreadLink.Backend
