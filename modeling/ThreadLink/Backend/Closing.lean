import ThreadLink.Backend.Clients
import ThreadLink.Backend.Joining

/-!
# Closing the descriptors

A `Socket` closes its descriptor when it goes out of scope: at the end of `accept_one` for a
client that is turned away, at the end of `handle_client` for one that was served. The number is
free for the next connection then, so one `::close` too many would be of somebody else's
descriptor.

## What is proved

* `closes_eq` — in every run a connection has been closed once if it is closed, and not before.
* `shut_down_cleanly` — **every `::close` is of a descriptor that is open and is its own, and when
  the server has shut down nothing is left**: no open descriptor, no record, no thread, and no
  connection that was not closed exactly once. Nothing is written after that.
-/

namespace ThreadLink.Backend

open Text Runs

namespace Server

variable {s s' s₁ : Server} {a : Action} {t : Tid} {ch : Choice} {op : Op} {rest new : List Op}
  {c k : ConnId} {fd : Fd} {past : List (Server × Action)}

/-- The connection whose descriptor a step closes. -/
def closedIn (s : Server) : Action → Option ConnId
  | .run t _ =>
    match s.todo t with
    | .closeFd fd :: _ => s.fds fd
    | _ => none
  | _ => none

/-- How often the descriptor of a connection has been closed. -/
def closes (past : List (Server × Action)) (c : ConnId) : ℕ :=
  past.countP fun e => closedIn e.1 e.2 = some c

theorem closes_concat (past : List (Server × Action)) (s : Server) (a : Action) (c : ConnId) :
    closes (past ++ [(s, a)]) c = closes past c + if closedIn s a = some c then 1 else 0 := by
  rw [closes, List.countP_append, List.countP_singleton]
  simp only [decide_eq_true_eq]
  rfl

/-- **A descriptor is closed by the thread it belongs to**, for the connection it was opened
for. -/
theorem Inv.fds_of_close (hI : Inv s) (ht : s.todo t = .closeFd fd :: rest) :
    ∃ c, s.fds fd = some c ∧ s.fdOf c = fd ∧
      (t = .main ∧ s.stage c = .rejected ∨ t = .handler c ∧ s.stage c = .erased) := by
  cases t with
  | main =>
    cases hI.main_next ht with
    | control h => exact h.elim
    | @admission c _ _ ha =>
      cases ha with
      | close h =>
        exact ⟨c, hI.fds_fdOf (h ▸ ⟨by decide, by decide⟩), rfl, .inl ⟨rfl, h⟩⟩
  | handler c =>
    have hn := (ht ▸ hI.handler c).next
    generalize hst : s.stage c = st at hn
    generalize s.alive c = al at hn
    cases hn with
    | serves h => exact h.elim
    | announces h => exact h.elim
    | close => exact ⟨c, hI.fds_fdOf (hst ▸ ⟨by decide, by decide⟩), rfl, .inr ⟨rfl, hst⟩⟩

/-- The block closes the connection that goes to the last stage. -/
theorem closedIn_run (hI : Inv s) (ht : s.todo t = op :: rest)
    (he : s.exec t ch op = some (s₁, new)) (k : ConnId) :
    closedIn s (.run t ch) = some k ↔ s.stage k ≠ .closed ∧ s₁.stage k = .closed := by
  constructor
  · intro h
    simp only [closedIn, ht] at h
    split at h
    · rename_i fd _ heq
      obtain ⟨rfl, rfl⟩ := List.cons.inj heq
      obtain ⟨c, hk, rfl, hst⟩ := hI.fds_of_close ht
      obtain rfl := Option.some.inj (hk.symm.trans h)
      refine ⟨by rcases hst with ⟨-, hst⟩ | ⟨-, hst⟩ <;> rw [hst] <;> decide, ?_⟩
      cases exec_done he with
      | closed =>
        change (s.setStage _ _).stage c = _
        rw [setStage_of hk]
        exact Function.update_self ..
    · cases h
  · rintro ⟨hne, hcl⟩
    rcases stage_run hI ht he k with hs | hm
    · exact absurd (hs.symm.trans hcl) hne
    · rw [hcl] at hm
      cases hm with
      | close hst | drop hst =>
        simp only [closedIn, ht]
        exact hI.fds_fdOf (hst ▸ ⟨by decide, by decide⟩)

/-- **A connection has been closed once if it is closed**, and not before. -/
theorem closes_eq {config : LoadedConfig} (h : Path step (init config) past s) (c : ConnId) :
    closes past c = if s.stage c = .closed then 1 else 0 := by
  refine (h.invariant (I := fun past s => Inv s ∧
    ∀ c, closes past c = if s.stage c = .closed then 1 else 0) ⟨inv_init config, ?_⟩ ?_).2 c
  · intro c
    rfl
  · rintro past s a s' ⟨hI, hcl⟩ - hs
    refine ⟨hI.step hs, fun c => ?_⟩
    rw [closes_concat, hcl]
    rcases step_effect hs with ⟨t, ch, op, rest, new, s₁, rfl, ht, he, -, rfl⟩ | ⟨hne, hq⟩
    · rw [if_congr (closedIn_run hI ht he c) rfl rfl]
      change _ = if s₁.stage c = .closed then 1 else 0
      -- what is closed stays so
      have hstay (h : s.stage c = .closed) : s₁.stage c = .closed := by
        rcases hasErased_step hI hs (.inr h) with h' | h'
        · rcases stage_run hI ht he c with hst | hm
          · exact hst.trans h
          · change s₁.stage c = .erased at h'
            rw [h'] at hm
            cases hm with
            | erase hst =>
              rw [h] at hst
              cases hst
        · exact h'
      by_cases h1 : s.stage c = .closed
      · simp [h1, hstay h1]
      · simp [h1]
    · rw [hq.stage]
      have hnone : closedIn s a = none := by
        cases a with
        | run t ch => exact absurd rfl (hne t ch)
        | _ => rfl
      simp [hnone]

/-! ### Threads -/

/-- **Which blocks start a thread or end it.** -/
theorem alive_exec (he : s.exec t ch op = some (s₁, new)) (hk : s₁.alive k = true) :
    s.alive k = true ∨ ∃ fd, op = .startThread fd k := by
  cases exec_done he with
  | @started fd c =>
    by_cases hkc : k = c
    · exact .inr ⟨fd, by rw [hkc]⟩
    · exact .inl (by simpa [hkc] using hk)
  | @ended c =>
    by_cases hkc : k = c
    · subst hkc
      simp at hk
    · exact .inl (by simpa [hkc] using hk)
  | frame => exact .inl (by rwa [(mild_sendFrame ..).alive] at hk)
  | renamed => exact .inl (by rwa [(mild_renameClient ..).alive] at hk)
  | erased =>
    refine .inl ?_
    unfold eraseClient at hk
    split at hk <;> exact hk
  | _ => exact .inl hk

/-- A join returns when the thread has ended. -/
theorem not_alive_of_joined (h : step s a = some s') (hj : joined s a = some k) :
    s.alive k = false := by
  rcases step_effect h with ⟨t, ch, op, rest, new, s₁, rfl, ht, he, -, -⟩ | ⟨hne, -⟩
  · simp only [joined, ht] at hj
    split at hj
    · rename_i i _ heq
      obtain ⟨rfl, rfl⟩ := List.cons.inj heq
      cases exec_done he with
      | joinedEntry hi ha =>
        rw [hi] at hj
        exact Option.some.inj hj ▸ ha
    · rename_i c _ heq
      obtain ⟨rfl, rfl⟩ := List.cons.inj heq
      cases exec_done he with
      | joinedThread ha => exact Option.some.inj hj ▸ ha
    · cases hj
  · rw [(threads_quiet h hne).2.2.1] at hj
    cases hj

/-- **A thread that runs has been started and not been joined.** -/
theorem joins_of_alive {config : LoadedConfig} (h : Path step (init config) past s)
    (ha : s.alive c = true) : starts past c = 1 ∧ joins past c = 0 := by
  refine (h.invariant (I := fun past s => (Inv s ∧ Joining past s) ∧
    ∀ c, s.alive c = true → starts past c = 1 ∧ joins past c = 0)
    ⟨⟨inv_init config, joining_init config⟩, fun c hc => by cases hc⟩ ?_).2 c ha
  rintro past s a s' ⟨⟨hI, hJ⟩, hal⟩ - hs
  have hI' := hI.step hs
  refine ⟨⟨hI', hJ.step hI hI' hs⟩, fun c hc => ?_⟩
  have hjoined : joined s a = some c → s.alive c = false := not_alive_of_joined hs
  have hb := hJ.balance c
  -- one that was running before, or is started now
  have hcases : s.alive c = true ∨ started s a = some c := by
    rcases step_effect hs with ⟨t, ch, op, rest, new, s₁, rfl, ht, he, -, rfl⟩ | ⟨-, hq⟩
    · refine (alive_exec he hc).imp id ?_
      rintro ⟨fd, rfl⟩
      simp only [started, ht]
    · exact .inl (by rwa [hq.alive] at hc)
  rw [starts_concat, joins_concat]
  by_cases hal' : s.alive c = true
  · obtain ⟨h1, h2⟩ := hal c hal'
    have hns : started s a ≠ some c := by
      intro hst
      have h0 := hJ.fresh c (.inr (.inr (.inr (stage_of_started hI hs hst).1)))
      omega
    have hnj : joined s a ≠ some c := fun hj => by
      rw [hjoined hj] at hal'
      cases hal'
    simp [h1, h2, hns, hnj]
  · have hst := hcases.resolve_left hal'
    obtain ⟨hreg, -, ch, rest, rfl, ht⟩ := stage_of_started hI hs hst
    have h0 := hJ.fresh c (.inr (.inr (.inr hreg)))
    have hnj : joined s (.run .main ch) = none := by simp only [joined, ht]
    have h2 : joins past c = 0 := by omega
    simp [h0, h2, hst, hnj]

/-! ### The end -/

/-- Nothing is left of a server that has shut down. -/
structure Gone (s : Server) : Prop where
  /-- No descriptor is open. -/
  fds : ∀ fd, s.fds fd = none
  /-- The registry is empty. -/
  clients : s.clients.entries = []
  /-- So is the list of threads. -/
  clientThreads : s.clientThreads = []
  /-- No thread is running. -/
  alive : ∀ c, s.alive c = false
  /-- None has anything to do. -/
  todo : ∀ t, s.todo t = []
  /-- It will not go back to its loop. -/
  stopping : s.stopping = true

/-- Nothing comes back. -/
theorem Gone.step (hg : Gone s) (h : Server.step s a = some s') :
    Gone s' ∧ s'.written = s.written := by
  cases a with
  | run t ch =>
    obtain ⟨op, rest, _, _, ht, -⟩ := step_run h
    rw [hg.todo t] at ht
    cases ht
  | iterate | leaveLoop | recvEnd =>
    simp only [Server.step, Option.ite_none_right_eq_some, hg.stopping, hg.alive] at h
    simp at h
  | recv c =>
    obtain ⟨ha, -⟩ := step_recv h
    rw [hg.alive] at ha
    cases ha
  | requestShutdown | arrive =>
    cases h
    exact ⟨⟨hg.fds, hg.clients, hg.clientThreads, hg.alive, hg.todo, hg.stopping⟩, rfl⟩
  | rehash es =>
    simp only [Server.step, Option.dite_none_right_eq_some, Option.some.injEq] at h
    obtain ⟨hp, rfl⟩ := h
    exact ⟨⟨hg.fds, List.perm_nil.mp (hg.clients ▸ hp), hg.clientThreads, hg.alive, hg.todo,
      hg.stopping⟩, rfl⟩

/-- **When the accept thread has come to its end**, nothing is left. -/
theorem gone_of_path {config : LoadedConfig} (h : Path step (init config) past s)
    (hstop : s.stopping = true) (hidle : s.todo .main = []) : Gone s := by
  obtain ⟨hI, hJ⟩ := joining_of_path h
  have hthreads : s.clientThreads = [] := by
    refine (hJ.stopped hstop).2.resolve_left ?_
    rw [hidle]
    exact List.not_mem_nil
  have halive (c : ConnId) : s.alive c = false := by
    by_contra ha
    obtain ⟨h1, h2⟩ := joins_of_alive h (Bool.not_eq_false _ ▸ ha)
    have hb := hJ.balance c
    have hentries : s.entries c = 0 := by rw [entries, hthreads]; rfl
    have hpending : s.pendingJoins c = 0 := by rw [pendingJoins, hidle]; rfl
    omega
  have hend (c : ConnId) :
      (s.stage c = .unborn ∨ s.stage c = .closed) ∧ s.todo (.handler c) = [] := by
    have hc := hI.handler c
    rw [halive c] at hc
    have hearly := hI.not_early_of_idle hidle c
    generalize s.stage c = st at hc hearly ⊢
    generalize s.todo (.handler c) = l at hc ⊢
    generalize hal : false = al at hc
    cases hc with
    | unborn => exact ⟨.inl rfl, rfl⟩
    | early he => exact absurd he hearly
    | ended => exact ⟨.inr rfl, rfl⟩
    | _ => cases hal
  have hfds (fd : Fd) : s.fds fd = none := by
    by_contra hne
    obtain ⟨c, hc⟩ := Option.ne_none_iff_exists'.mp hne
    obtain ⟨-, hopen⟩ := (hI.fds_iff _ _).mp hc
    rcases (hend c).1 with he | he <;> rw [he] at hopen
    · exact hopen.1 rfl
    · exact hopen.2 rfl
  refine ⟨hfds, ?_, hthreads, halive, ?_, hstop⟩
  · rw [List.eq_nil_iff_forall_not_mem]
    intro e he
    obtain ⟨c, hc, -⟩ := hI.owner _ _ (OrdMap.find?_eq_some.mpr he)
    rw [hfds] at hc
    cases hc
  · intro t
    cases t with
    | main => exact hidle
    | handler c => exact (hend c).2

/-- **The server shuts down cleanly.** In every run each `::close` is of a descriptor that is open,
for a connection that has not been closed before, and no connection is closed twice. When
`shutdown_all` has come to its end every connection that was ever accepted has been closed, no
thread runs, the registry and the list of threads are empty, and nothing is ever written again. -/
theorem shut_down_cleanly {config : LoadedConfig} (h : Path step (init config) past s) :
    (∀ t fd rest, s.todo t = .closeFd fd :: rest →
      ∃ c, s.fds fd = some c ∧ s.fdOf c = fd ∧ closes past c = 0) ∧
    (∀ c, closes past c ≤ 1) ∧
    (s.stopping = true → s.todo .main = [] →
      (∀ c, closes past c = if c < s.nextConn then 1 else 0) ∧ Gone s ∧
      ∀ s', Run step s s' → Gone s' ∧ s'.written = s.written) := by
  have hI := inv_of_run h.runIn
  refine ⟨?_, ?_, ?_⟩
  · intro t fd rest ht
    obtain ⟨c, hk, hfd, hst⟩ := hI.fds_of_close ht
    refine ⟨c, hk, hfd, ?_⟩
    rw [closes_eq h, if_neg]
    rcases hst with ⟨-, hst⟩ | ⟨-, hst⟩ <;> rw [hst] <;> decide
  · intro c
    rw [closes_eq h]
    split_ifs <;> simp
  · intro hstop hidle
    have hg := gone_of_path h hstop hidle
    refine ⟨fun c => ?_, hg, fun s' hs' => ?_⟩
    · rw [closes_eq h]
      refine if_congr ?_ rfl rfl
      have hunborn := hI.unborn_iff c
      have hopen : ¬ (s.stage c).Open := fun ho => by
        have hfd := hI.fds_fdOf ho
        rw [hg.fds] at hfd
        cases hfd
      constructor
      · intro hst
        by_contra hle
        rw [hunborn.mpr (not_lt.mp hle)] at hst
        cases hst
      · intro hlt
        by_contra hst
        exact hopen ⟨fun hb => absurd (hunborn.mp hb) (not_le.mpr hlt), hst⟩
    · refine hs'.invariant (I := fun s' => Gone s' ∧ s'.written = s.written) ⟨hg, rfl⟩ ?_
      rintro u a u' ⟨hu, hw⟩ - hstep
      obtain ⟨hu', hw'⟩ := hu.step hstep
      exact ⟨hu', hw'.trans hw⟩

set_option maxRecDepth 8000 in
/-- Two clients that were served on the same descriptor number. -/
theorem both_are_closed :
    ∃ past s, Path step (init .default) past s ∧ (s.fdOf 0 = 5 ∧ s.fdOf 1 = 5) ∧
      (closes past 0 = 1 ∧ closes past 1 = 1) ∧ Gone s := by
  have h : (execAllIn step (fun _ _ => True) (init .default) numberReused).map
      (fun s => (s.stopping, s.todo .main, s.fdOf 0, s.fdOf 1, s.nextConn)) =
      some (true, [], 5, 5, 2) := by decide
  obtain ⟨s, hp, hs⟩ := exists_pathIn_of_execAllIn h
  simp only [Prod.mk.injEq] at hs
  obtain ⟨hstop, hidle, hfd0, hfd1, hn⟩ := hs
  obtain ⟨hcl, hg, -⟩ := (shut_down_cleanly hp).2.2 hstop hidle
  refine ⟨_, s, hp, ⟨hfd0, hfd1⟩, ⟨?_, ?_⟩, hg⟩
  · rw [hcl, hn]
    rfl
  · rw [hcl, hn]
    rfl

end Server

end ThreadLink.Backend
