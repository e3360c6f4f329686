import ThreadLink.Backend.Nicknames

/-!
# The first frame of a connection

A client that is admitted is told its nickname before anything else: it is not a
target of broadcasts until its record is marked welcomed, and its handler thread is
not started before that.

## What is proved

* `Greets` — the invariant: what has been written to a connection at each stage.
* `welcome_first` — in a run in which no descriptor number is given out again while a
  thread has still to deliver a frame to it, the first frame of a connection is WELCOME
  with the nickname it was assigned, unless it was rejected; and it gets no broadcast
  whose targets were fixed before it was accepted.
* `stale_broadcast_first` — without the condition it may get such a broadcast, and
  before WELCOME.
-/

namespace ThreadLink.Backend

open Text Runs

namespace Server

variable {s s' : Server} {t : Tid} {ch : Choice} {op : Op} {new : List Op} {a : Action} {fd : Fd}
  {f : Frame}
  {k : ConnId}

/-- The frames of a connection start with WELCOME and its nickname. -/
def Welcomed (s : Server) (k : ConnId) : Prop :=
  ∃ nickname rest, s.assigned k = some nickname ∧ s.written k = welcomeFrame nickname :: rest

/-- WELCOME has been sent to a connection, or could not be. -/
def Greeted (s : Server) (k : ConnId) : Prop := s.Welcomed k ∨ s.broken k = true ∧ s.written k = []

/-- What may have been written to a connection. -/
def InOrder (s : Server) (k : ConnId) : Prop :=
  s.written k = [] ∨ s.written k = [serverFull] ∨ s.Welcomed k

theorem Greeted.inOrder (h : s.Greeted k) : s.InOrder k :=
  h.elim (fun h => .inr (.inr h)) fun h => .inl h.2

/-- What has been written to a connection, by its stage. The accept thread has one frame
to deliver before the connection is out of its hands. -/
def Proper (s : Server) (k : ConnId) : Prop :=
  match s.stage k with
  | .unborn | .accepted => s.written k = []
  | .rejected => s.written k = [] ∨ s.pending .main = [] ∧ s.written k = [serverFull]
  | .registered => if s.pending .main = [] then s.Greeted k else s.written k = []
  | .serving | .erased => s.Greeted k
  | .closed => s.InOrder k

/-- **The invariant of the first frames.** -/
structure Greets (s : Server) : Prop where
  /-- What has been written. -/
  proper : ∀ k, s.Proper k
  /-- A frame that a thread does not deliver to its own client goes to one that has
  been greeted. -/
  pending : ∀ t fd f k, (fd, f) ∈ s.pending t → f.cause ≠ .direct → s.fds fd = some k → s.Greeted k

/-- A change that writes to a connection only if it has been welcomed. -/
structure Polite (s s' : Server) (k : ConnId) : Prop where
  /-- What is written. -/
  written : s'.written k = s.written k ∨ s.Welcomed k
  /-- If it had been greeted, it still has. -/
  greeted : s.Greeted k → s'.Greeted k
  /-- If it had been welcomed, it still has. -/
  welcomed : s.Welcomed k → s'.Welcomed k

theorem Effect.welcomed (hE : Effect s s' t ch op new)
    (hq : ∀ fd k, op = .register fd k → s.written k = []) (h : s.Welcomed k) : s'.Welcomed k := by
  obtain ⟨nickname, rest, ha, hr⟩ := h
  have ha' : s'.assigned k = some nickname := by
    rcases hE.assigned k with h | ⟨fd, hop, -⟩
    · rw [h, ha]
    · rw [hq fd k hop] at hr
      cases hr
  rcases hE.written k with h | ⟨-, f, -, -, -, h⟩
  · exact ⟨nickname, rest, ha', by rw [h, hr]⟩
  · exact ⟨nickname, rest ++ [f], ha', by rw [h, hr]; rfl⟩

theorem Effect.greeted (hE : Effect s s' t ch op new)
    (hq : ∀ fd k, op = .register fd k → s.written k = []) (h : s.Greeted k) : s'.Greeted k := by
  rcases h with h | ⟨hb, hn⟩
  · exact .inl (hE.welcomed hq h)
  · refine .inr ⟨hE.broken k hb, ?_⟩
    rcases hE.written k with h | ⟨-, f, -, -, hb', -⟩
    · rw [h, hn]
    · rw [hb] at hb'
      cases hb'

/-- **A block that writes to a connection only if it has been greeted** is polite. -/
theorem Effect.polite (hE : Effect s s' t ch op new)
    (hq : ∀ fd k, op = .register fd k → s.written k = [])
    (hg : ∀ fd f, op = .sendFrame fd f → s.fds fd = some k → s.Greeted k) : Polite s s' k := by
  refine ⟨?_, hE.greeted hq, hE.welcomed hq⟩
  rcases hE.written k with h | ⟨fd, f, hop, hk, hb, -⟩
  · exact .inl h
  · rcases hg fd f hop hk with hW | ⟨hb', -⟩
    · exact .inr hW
    · rw [hb] at hb'
      cases hb'

/-- What a thread has to do does not matter for it. -/
theorem Polite.setTodo (hP : Polite s s' k) (t : Tid) (l : List Op) : Polite s (s'.setTodo t l) k :=
  ⟨hP.written, hP.greeted, hP.welcomed⟩

theorem Polite.inOrder (hP : Polite s s' k) (h : s.InOrder k) : s'.InOrder k := by
  rcases hP.written with hw | hW
  · exact h.imp (hw ▸ ·) (Or.imp (hw ▸ ·) hP.welcomed)
  · exact .inr (.inr (hP.welcomed hW))

theorem Polite.empty (hP : Polite s s' k) (h : s.written k = []) : s'.written k = [] := by
  rcases hP.written with hw | ⟨_, _, _, hr⟩
  · rw [hw, h]
  · rw [h] at hr
    cases hr

/-- A polite change keeps a connection proper that stays at its stage. -/
theorem Proper.congr (h : s.Proper k) (hP : Polite s s' k) (hs : s'.stage k = s.stage k)
    (hm : (s.stage k).Early → (s'.pending .main = [] ↔ s.pending .main = [])) : s'.Proper k := by
  unfold Proper at h ⊢
  rw [hs]
  generalize s.stage k = st at h hm
  cases st with
  | unborn | accepted => exact hP.empty h
  | rejected =>
    refine h.imp hP.empty fun ⟨h1, h2⟩ => ⟨(hm (.inr (.inl rfl))).mpr h1, ?_⟩
    rcases hP.written with hw | ⟨_, _, _, hr⟩
    · rw [hw, h2]
    · rw [h2] at hr
      simp [serverFull, welcomeFrame] at hr
  | registered =>
    simp only [hm (.inr (.inr rfl))]
    by_cases hp : s.pending .main = []
    · simp only [hp, if_true] at h ⊢
      exact hP.greeted h
    · simp only [hp, if_false] at h ⊢
      exact hP.empty h
  | serving | erased => exact hP.greeted h
  | closed => exact hP.inOrder h

/-- A connection whose record is marked welcomed has been greeted. -/
theorem Greets.of_record (hG : Greets s) (hI : Inv s) {r : ClientRecord}
    (hr : s.clients.find? fd = some r) (hw : r.welcomed = true) (hk : s.fds fd = some k) :
    s.Greeted k := by
  obtain ⟨c, hc, hl⟩ := hI.owner fd r hr
  obtain rfl := Option.some.inj (hk.symm.trans hc)
  have hp := hG.proper k
  unfold Proper at hp
  rcases hl with hl | hl <;> rw [hl] at hp
  · -- the accept thread has still to start the handler thread
    have hm := hI.main
    have hfd := ((hI.fds_iff fd k).mp hk).1
    generalize hto : s.todo .main = l at hm
    cases hm with
    | control _ he => exact absurd (.inr (.inr hl)) (he k)
    | waiting _ he => exact absurd (.inr (.inr hl)) (he k)
    | @admitting c l ha he =>
      obtain rfl := he k (.inr (.inr hl))
      have hrec : ∀ {n : Bytes}, s.clients.find? (s.fdOf k) ≠ some ⟨n, false⟩ := fun h => by
        rw [hfd, hr] at h
        cases h
        cases hw
      cases ha with
      | register h | reject h | close h => rw [hl] at h; cases h
      | welcome _ _ h | write _ _ h | mark _ _ h => exact absurd h hrec
      | start =>
        have hpe : s.pending .main = [] := by simp [Server.pending, hto, afterWelcome, Op.delivery]
        simpa [hpe] using hp
  · exact hp

/-- Only the accept thread registers a connection, and one it has just accepted. -/
theorem Inv.accepted_of_register (hI : Inv s) {rest : List Op}
    (ht : s.todo t = .register fd k :: rest) : s.stage k = .accepted := by
  cases t with
  | main =>
    cases hI.main_next ht with
    | control h => exact h.elim
    | admission ha => cases ha with | register h => exact h
  | handler c =>
    have hn := (ht ▸ hI.handler c).next
    generalize s.stage c = st at hn
    generalize s.alive c = al at hn
    cases hn with
    | serves h => exact h.elim
    | announces h => exact h.elim

/-- A frame that a handler thread writes for its own client goes to its own client. -/
theorem Inv.own_of_direct (hI : Inv s) {c : ConnId} {rest : List Op}
    (ht : s.todo (.handler c) = .sendFrame fd f :: rest) (hd : f.cause = .direct) :
    s.fds fd = some c ∧ s.stage c = .serving := by
  have hn := (ht ▸ hI.handler c).next
  generalize hst : s.stage c = st at hn
  generalize s.alive c = al at hn
  cases hn with
  | serves h =>
    have hfd : fd = s.fdOf c := h hd
    rw [hfd]
    exact ⟨hI.fds_fdOf (hst ▸ ⟨by decide, by decide⟩), rfl⟩
  | announces h =>
    obtain ⟨_, _, h⟩ := h
    rw [hd] at h
    cases h

/-- A frame that a handler thread writes goes to a greeted connection. -/
theorem Greets.of_handler (hG : Greets s) (hI : Inv s) {c : ConnId} {rest : List Op}
    (ht : s.todo (.handler c) = .sendFrame fd f :: rest) (hk : s.fds fd = some k) :
    s.Greeted k := by
  by_cases hd : f.cause = .direct
  · obtain ⟨hc, hst⟩ := hI.own_of_direct ht hd
    rw [hc] at hk
    obtain rfl := Option.some.inj hk
    have hp := hG.proper c
    unfold Proper at hp
    rwa [hst] at hp
  · exact hG.pending _ _ _ _ (mem_pending.mpr ⟨_, mem_todo_head ht, rfl⟩) hd hk

/-- A connection that is being registered has been sent nothing. -/
theorem Greets.of_register (hG : Greets s) (hI : Inv s) {rest : List Op}
    (ht : s.todo t = op :: rest) (fd : Fd) (k : ConnId) (hop : op = .register fd k) :
    s.written k = [] := by
  have hp := hG.proper k
  unfold Proper at hp
  rwa [hI.accepted_of_register (hop ▸ ht)] at hp

/-- **What a handler thread's block does to the first frames.** -/
theorem Greets.run_handler (hG : Greets s) (hI : Inv s) {c : ConnId} {rest : List Op}
    (ht : s.todo (.handler c) = op :: rest) (h : s.exec (.handler c) ch op = some (s', new))
    (k : ConnId) : (s'.setTodo (.handler c) (new ++ rest)).Proper k := by
  have hE := exec_effect h
  have hP (k : ConnId) : Polite s (s'.setTodo (.handler c) (new ++ rest)) k :=
    (hE.polite (hG.of_register hI ht) fun fd f hop hk => hG.of_handler hI (hop ▸ ht) hk).setTodo ..
  have hm : (s'.setTodo (.handler c) (new ++ rest)).pending .main = s.pending .main := by
    simp [Server.pending, setTodo, hE.todo]
  have hn := (ht ▸ hI.handler c).next
  generalize hst : s.stage c = st at hn
  generalize hal : s.alive c = al at hn
  have hother (hs : ∀ k, k ≠ c → s'.stage k = s.stage k) (hk : k ≠ c) :
      (s'.setTodo (.handler c) (new ++ rest)).Proper k :=
    (hG.proper k).congr (hP k) (hs k hk) fun _ => by rw [hm]
  have hsame (hs : s'.stage = s.stage) : (s'.setTodo (.handler c) (new ++ rest)).Proper k :=
    (hG.proper k).congr (hP k) (congrFun hs k) fun _ => by rw [hm]
  have hp := hG.proper c
  unfold Proper at hp
  rw [hst] at hp
  cases hn with
  | serves hop => exact hsame (exec_serves hop h).1.stage
  | announces hop => exact hsame (exec_announces hop h).1.stage
  | erase =>
    obtain ⟨r, hr⟩ := hI.listed c (.inr hst)
    have hfd := hI.fds_fdOf (c := c) (hst ▸ ⟨by decide, by decide⟩)
    simp only [exec, eraseClient_of hfd hr, Option.some.injEq, Prod.mk.injEq] at h
    obtain ⟨rfl, -⟩ := h
    by_cases hk : k = c
    · subst hk
      unfold Proper
      simp only [setTodo, Function.update_self]
      exact (hP k).greeted hp
    · exact hother (fun k hk => by simp [hk]) hk
  | close =>
    have hfd := hI.fds_fdOf (c := c) (hst ▸ ⟨by decide, by decide⟩)
    simp only [exec, setStage_of hfd, Option.some.injEq, Prod.mk.injEq] at h
    obtain ⟨rfl, -⟩ := h
    by_cases hk : k = c
    · subst hk
      unfold Proper
      simp only [setTodo, Function.update_self]
      exact ((hP k).greeted hp).inOrder
    · exact hother (fun k hk => by simp [hk]) hk
  | «end» =>
    simp only [exec, Option.some.injEq, Prod.mk.injEq] at h
    obtain ⟨rfl, -⟩ := h
    exact hsame rfl

/-- A frame that the accept thread writes as part of a broadcast goes to a greeted
connection. -/
theorem Greets.of_control (hG : Greets s) {rest : List Op}
    (ht : s.todo .main = .sendFrame fd f :: rest) (hc : (Op.sendFrame fd f).Control)
    (hk : s.fds fd = some k) : s.Greeted k := by
  obtain ⟨about, taken, h⟩ := hc
  refine hG.pending _ _ _ _ (mem_pending.mpr ⟨_, mem_todo_head ht, rfl⟩) ?_ hk
  intro hd
  rw [hd] at h
  cases h

/-- **A WELCOME frame** always fits. -/
theorem Named.welcome_fits (hN : Named s) {nickname : Bytes} (ha : s.assigned k = some nickname) :
    (welcomeFrame nickname).line.payload.length ≤ s.config.1.maxMessageSize := by
  obtain ⟨n, hn, rfl⟩ := hN.assigned k nickname ha
  have h1 := length_defaultNickname (n := n) (k := 5) (by decide) (by omega)
  have h2 := s.config.2.maxMessageSize.1
  have h3 : (bytes "WELCOME ").length = 8 := by decide
  simp only [welcomeFrame, ServerLine.payload, List.length_append]
  omega

/-- A block that admits a connection, and the first frames of that one. -/
theorem Greets.run_admission (hG : Greets s) (hI : Inv s) (hN : Named s) {c : ConnId}
    {rest : List Op} (ht : s.todo .main = op :: rest) (ha : Admit s c (op :: rest))
    (h : s.exec .main ch op = some (s', new)) : (s'.setTodo .main (new ++ rest)).Proper c := by
  have hE := exec_effect h
  have hfd := hI.fds_fdOf ha.early.open
  have hp := hG.proper c
  unfold Proper at hp
  -- what the frame is that the accept thread delivers next does not matter for it
  have hpend {fd : Fd} {f : Frame} (hd : op.delivery = some (fd, f)) : s.pending .main ≠ [] := by
    intro he
    have hmem := mem_pending.mpr ⟨op, mem_todo_head ht, hd⟩
    rw [he] at hmem
    cases hmem
  cases ha with
  | register hc =>
    simp only [hc] at hp
    cases exec_done h with
    | full => simpa [Proper, setTodo] using .inl hp
    | registered => simpa [Proper, setTodo, afterWelcome, Server.pending, Op.delivery] using hp
  | reject hc =>
    simp only [hc, hpend rfl, false_and, or_false] at hp
    cases exec_done h with
    | frame =>
      have hs : ((s.sendFrame (s.fdOf c) serverFull ch.ok).setTodo .main
          ([] ++ [.closeFd (s.fdOf c)])).stage c = .rejected :=
        (congrFun (mild_sendFrame s (s.fdOf c) serverFull ch.ok).stage c).trans hc
      unfold Proper
      rw [hs]
      rcases hE.written c with hw | ⟨fd, f, hop, -, -, hw⟩
      · exact .inl (hw.trans hp)
      · cases hop
        refine .inr ⟨by simp [Server.pending, setTodo, Op.delivery], hw.trans ?_⟩
        rw [hp, List.nil_append]
  | close hc =>
    simp only [hc] at hp
    cases exec_done h with
    | closed =>
      have ho : s.InOrder c := hp.imp id fun h => .inl h.2
      rw [setStage_of hfd]
      unfold Proper
      simp only [setTodo, Function.update_self]
      exact ho
  | welcome hc ha hrec =>
    simp only [hc, hpend rfl, if_false] at hp
    cases exec_done h with
    | unsent hr =>
      rw [hrec] at hr
      cases hr
    | sent => simpa [Proper, setTodo, hc, Server.pending, Op.delivery] using hp
  | @write nickname hc ha hrec =>
    simp only [hc, hpend rfl, if_false] at hp
    cases exec_done h with
    | frame =>
      have hs := (congrFun (mild_sendFrame s (s.fdOf c) (welcomeFrame nickname) ch.ok).stage c).trans
        hc
      have hfit := not_lt.mpr (hN.welcome_fits ha)
      unfold Proper
      simp only [setTodo, List.nil_append, Server.pending, Function.update_self, afterWelcome, hs]
      simp only [Op.delivery, List.filterMap_cons, List.filterMap_nil, if_true]
      change (s.sendFrame (s.fdOf c) (welcomeFrame nickname) ch.ok).Greeted c
      simp only [Server.sendFrame, hfit, hfd, if_false]
      by_cases hb : s.broken c
      · simp only [hb, if_true]
        exact .inr ⟨hb, hp⟩
      · by_cases hok : ch.ok = true
        · simp only [hb, hok, if_true, Bool.false_eq_true, if_false]
          exact .inl ⟨_, [], ha, by simp [hp]⟩
        · simp only [hb, hok, Bool.false_eq_true, if_false]
          exact .inr ⟨by simp, hp⟩
  | @mark nickname hc ha hrec =>
    have hpe : s.pending .main = [] := by simp [Server.pending, ht, Op.delivery]
    simp only [hc, hpe, if_true] at hp
    cases exec_done h with
    | welcomed =>
      unfold Proper
      simp only [setTodo, hc]
      exact (if_pos (by simp [Server.pending, Op.delivery])).mpr hp
  | start hc ha hrec =>
    have hpe : s.pending .main = [] := by simp [Server.pending, ht, Op.delivery]
    simp only [hc, hpe, if_true] at hp
    cases exec_done h with
    | started =>
      unfold Proper
      simp only [setTodo, Function.update_self]
      exact hp

/-- It moves no other connection, and sends nothing to one. -/
theorem Admit.spares {c : ConnId} {rest : List Op} (ha : Admit s c (op :: rest))
    (h : s.exec .main ch op = some (s', new)) (hfd : s.fds (s.fdOf c) = some c) (hk : k ≠ c) :
    s'.stage k = s.stage k ∧ ∀ fd f, op = .sendFrame fd f → s.fds fd ≠ some k := by
  cases ha with
  | register =>
    cases exec_done h with
    | full | registered => exact ⟨Function.update_of_ne hk .., by simp⟩
  | reject | write =>
    cases exec_done h with
    | frame =>
      refine ⟨congrFun (mild_sendFrame ..).stage k, ?_⟩
      rintro fd f hop hfk
      cases hop
      rw [hfd] at hfk
      exact hk (Option.some.inj hfk).symm
  | close =>
    cases exec_done h with
    | closed =>
      rw [setStage_of hfd]
      exact ⟨Function.update_of_ne hk .., by simp⟩
  | welcome =>
    cases exec_done h with
    | unsent | sent => exact ⟨rfl, by simp⟩
  | mark =>
    cases exec_done h with
    | welcomed => exact ⟨rfl, by simp⟩
  | start =>
    cases exec_done h with
    | started => exact ⟨Function.update_of_ne hk .., by simp⟩

/-- **What the accept thread's block does to the first frames.** -/
theorem Greets.run_main (hG : Greets s) (hI : Inv s) (hN : Named s) {rest : List Op}
    (ht : s.todo .main = op :: rest) (h : s.exec .main ch op = some (s', new)) (k : ConnId) :
    (s'.setTodo .main (new ++ rest)).Proper k := by
  have hE := exec_effect h
  cases hI.main_next ht with
  | control hc he =>
    have hP := hE.polite (k := k) (hG.of_register hI ht) fun fd f hop hk =>
      hG.of_control (hop ▸ ht) (hop ▸ hc) hk
    exact (hG.proper k).congr (hP.setTodo ..) (congrFun (exec_control hc h).1.stage k) fun h =>
      absurd h (he k)
  | accept he =>
    have hP := hE.polite (k := k) (hG.of_register hI ht) fun fd f hop => by cases hop
    by_cases hk : k = s.nextConn
    · subst hk
      have hp := hG.proper s.nextConn
      have hu := (hI.unborn_iff _).mpr le_rfl
      unfold Proper at hp
      rw [hu] at hp
      have hw := hP.empty hp
      cases exec_done h with
      | refused => simpa [Proper, setTodo, hu] using hw
      | accepted => simpa [Proper, setTodo] using hw
    · refine (hG.proper k).congr (hP.setTodo ..) ?_ fun h => absurd h (he k)
      cases exec_done h with
      | refused => rfl
      | accepted => simp [setTodo, hk]
  | @admission c _ _ ha he =>
    by_cases hk : k = c
    · subst hk
      exact hG.run_admission hI hN ht ha h
    · obtain ⟨hs, hsend⟩ := ha.spares h (hI.fds_fdOf ha.early.open) hk
      have hP := hE.polite (k := k) (hG.of_register hI ht) fun fd f hop hfk =>
        absurd hfk (hsend fd f hop)
      exact (hG.proper k).congr (hP.setTodo ..) hs fun h => absurd (he k h) hk

/-- While a connection is in its hands, the accept thread starts nothing else. -/
theorem step_todo_main (hI : Inv s) (h : step s a = some s') (ha : ∀ t ch, a ≠ .run t ch)
    (hk : (s.stage k).Early) : s'.todo .main = s.todo .main := by
  cases a with
  | run t ch => exact absurd rfl (ha t ch)
  | iterate | leaveLoop =>
    simp only [step, Bool.and_eq_true, List.isEmpty_iff, Option.ite_none_right_eq_some] at h
    exact absurd hk (hI.not_early_of_idle h.1.2 k)
  | recv c =>
    obtain ⟨-, -, k, f, rest, -, -, rfl⟩ := step_recv h
    simp
  | recvEnd c =>
    simp only [step, Option.ite_none_right_eq_some, Option.some.injEq] at h
    obtain ⟨-, rfl⟩ := h
    simp
  | requestShutdown | arrive =>
    simp only [step, Option.some.injEq] at h
    subst h
    rfl
  | rehash es =>
    simp only [step, Option.dite_none_right_eq_some, Option.some.injEq] at h
    obtain ⟨_, rfl⟩ := h
    rfl

theorem greets_init (config : LoadedConfig) : Greets (init config) :=
  ⟨fun k => by simp [Proper, init], fun t fd f k h => by simp [Server.pending, init] at h⟩

/-- **A step that does not reuse a descriptor number too early** keeps the first frames
in order. -/
theorem Greets.step (hG : Greets s) (hI : Inv s) (hN : Named s) (hc : NoReuse (fun _ => True) s a)
    (h : step s a = some s') : Greets s' where
  proper k := by
    rcases step_effect h with ⟨t, ch, op, rest, new, s₁, rfl, ht, he, -, rfl⟩ | ⟨ha, hq⟩
    · cases t with
      | main => exact hG.run_main hI hN ht he k
      | handler c => exact hG.run_handler hI ht he k
    · have hW : s.Welcomed k → s'.Welcomed k := fun ⟨n, rest, h1, h2⟩ =>
        ⟨n, rest, by rw [hq.assigned, h1], by rw [hq.written, h2]⟩
      have hP : Polite s s' k :=
        ⟨.inl (by rw [hq.written]),
          Or.imp hW fun ⟨h1, h2⟩ => ⟨by rw [hq.broken, h1], by rw [hq.written, h2]⟩, hW⟩
      apply (hG.proper k).congr hP (congrFun hq.stage k)
      intro hk
      rw [Server.pending, Server.pending, step_todo_main hI h ha hk]
  pending t fd f k hp hd hk := by
    -- the connection was open before the step, and had been greeted
    have hold : s.fds fd = some k ∧ s.Greeted k := by
      rcases step_pending hI h hp with hp' | hd' | ⟨⟨r, hr, hw⟩, -⟩
      · rcases step_fds hI h hk with hk | ⟨ch, rest, rfl, ht, rfl, -⟩
        · exact ⟨hk, hG.pending t fd f k hp' hd hk⟩
        · have hne : s.todo t ≠ [] := fun he => by simp [Server.pending, he] at hp'
          exact absurd trivial (hc (by rw [ht]; rfl) t (hI.mem_threads hne) _ hp' rfl)
      · exact absurd hd' hd
      · rcases step_fds hI h hk with hk | ⟨ch, rest, rfl, ht, rfl, hn, -⟩
        · exact ⟨hk, hG.of_record hI hr hw hk⟩
        · obtain ⟨c, hc', -⟩ := hI.owner _ r hr
          rw [hn] at hc'
          cases hc'
    rcases step_effect h with ⟨t, ch, op, rest, new, s₁, rfl, ht, he, hE, rfl⟩ | ⟨ha, hq⟩
    · exact hE.greeted (hG.of_register hI ht) hold.2
    · exact hold.2.imp
        (fun ⟨n, rest, h1, h2⟩ => ⟨n, rest, by rw [hq.assigned, h1], by rw [hq.written, h2]⟩)
        fun ⟨h1, h2⟩ => ⟨by rw [hq.broken, h1], by rw [hq.written, h2]⟩

theorem Proper.inOrder (h : s.Proper k) : s.InOrder k := by
  unfold Proper at h
  split at h
  · exact .inl h
  · exact .inl h
  · exact h.imp id fun h => .inl h.2
  · split_ifs at h
    · exact h.inOrder
    · exact .inl h
  · exact h.inOrder
  · exact h.inOrder
  · exact h

/-- **WELCOME is the first frame**: in every run in which no descriptor number is given
out again while a thread has still to deliver a frame to it, what is written to a
connection is nothing, or the one frame that rejects it, or starts with WELCOME and
the nickname it was assigned; and no frame of a broadcast whose targets were fixed
before the connection was accepted is written to it. -/
theorem welcome_first {config : LoadedConfig}
    (h : RunIn step (NoReuse fun _ => True) (init config) s) (k : ConnId) :
    s.InOrder k ∧ ∀ f ∈ s.written k, ∀ about taken, f.cause = .broadcast about taken →
      k < taken := by
  refine ⟨?_, ?_⟩
  · have hG := h.invariant (I := fun s => Inv s ∧ Named s ∧ Greets s)
      ⟨inv_init config, named_init config, greets_init config⟩
      fun s a s' ⟨hI, hN, hG⟩ hc hs => ⟨hI.step hs, hN.step hs, hG.step hI hN hc hs⟩
    exact (hG.2.2.proper k).inOrder
  · intro f hf about taken hc
    have hm := (addressed_of_run h).written k f hf trivial
    simpa [Frame.MeantFor, hc] using hm

/-- Two clients join, and the first starts to send a line to all. -/
def chatStarted : List Action :=
  admits 5 0 ++ admits 6 1 ++ blocks .main 1 ++
    (.arrive 0 ⟨bytes "hi", none⟩ :: .recv 0 :: blocks (.handler 0) 2)

set_option maxRecDepth 4000 in
theorem second_welcome_first : ∃ s : Server, s.written 1 = [welcomeFrame (bytes "User2"),
      ⟨.msg (bytes "User1") (bytes "hi"), .broadcast (some 0) 2, none⟩] ∧
    s.InOrder 1 ∧ ∀ f ∈ s.written 1, ∀ about taken, f.cause = .broadcast about taken →
      1 < taken := by
  have h :
    (execAllIn step (NoReuse fun _ => True) (init .default)
      (chatStarted ++ blocks (.handler 0) 1)).map
      (fun s => s.written 1) = some [welcomeFrame (bytes "User2"),
        ⟨.msg (bytes "User1") (bytes "hi"), .broadcast (some 0) 2, none⟩] := by decide
  obtain ⟨s, hs, hw⟩ := exists_runIn_of_execAllIn h
  exact ⟨s, hw, welcome_first hs 1⟩

set_option maxRecDepth 4000 in
/-- The second client leaves while the line is on its way to it, and a third is accepted
on its descriptor: the first frame the third one gets is that line. -/
theorem stale_broadcast_first : ¬ ∀ s, Run step (init .default) s → ∀ k,
    s.InOrder k ∧ ∀ f ∈ s.written k, ∀ about taken, f.cause = .broadcast about taken →
      k < taken := by
  intro hall
  have h : (execAll step (init .default) (chatStarted ++ .recvEnd 1 :: (blocks (.handler 1) 5 ++
      .iterate true :: (blocks .main 4 ++ .run .main { fd := 6 } :: blocks .main 1) ++
      blocks (.handler 0) 1))).map
      (fun s => s.written 2) =
      some [⟨.msg (bytes "User1") (bytes "hi"), .broadcast (some 0) 2, none⟩] := by
    decide
  obtain ⟨s, hs, hw⟩ := exists_run_of_execAll h
  have hb := (hall s hs 2).2
  rw [hw] at hb
  exact absurd (hb _ (.head _) (some 0) 2 rfl) (by decide)

end Server

end ThreadLink.Backend
