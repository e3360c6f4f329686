import ThreadLink.Backend.Joining
import ThreadLink.Backend.Protocol
import ThreadLink.Backend.Renames

/-!
# The mutexes of the records

`send_frame` calls `::send` as often as it takes, and a thread does so under the mutex of the
record that it has looked up. `Backend.Server` writes a frame in one step, so it has no mutexes.
This module has them, with each call of `::send` as a step of its own, and the bytes that the
kernel has taken.

## The model

* All blocks are those of `Server`, except that of a `send_frame`: it is run by a `lock` and as
  many `send`s as the kernel wants. The frame counts as written with the call that takes its last
  byte; so the server that a `Wire` has is one of `Backend.Server`.
* A mutex is named by the connection that its record was made for. The client that `accept_one`
  rejects has no record, and is sent its frame without one.
* Which connection a descriptor number stands for is looked up by each call of `::send`.
* A mutex is released with the last call of `::send`. A thread that releases it later keeps others
  waiting, as a scheduler may anyway.

## What is proved

* `run_server` — what the server does with mutexes, it does without.
* `Guarded` — in a run in which no descriptor number is given out again while a thread has still
  to send to it, a thread sends to a connection under the mutex of its record (`Guarded.step`), so
  that no other does at the same time (`Guarded.writer_unique`).
-/

namespace ThreadLink.Backend

open Text Runs Framing

/-- What `send_frame` has still to send. -/
structure Unsent where
  /-- Of the header. -/
  header : Bytes
  /-- Of the payload. -/
  payload : Bytes
  deriving DecidableEq, Repr

namespace Unsent

/-- All of it. -/
def bytes (u : Unsent) : Bytes := u.header ++ u.payload

/-- What `send_all` offers the kernel: the header comes first. -/
def offered (u : Unsent) : Bytes := if u.header.isEmpty then u.payload else u.header

/-- What is left when the kernel has taken `n` bytes. -/
def drop (u : Unsent) (n : ℕ) : Unsent :=
  if u.header.isEmpty then { u with payload := u.payload.drop n }
  else { u with header := u.header.drop n }

variable {u : Unsent} {n : ℕ}

theorem take_append_drop (u : Unsent) (n : ℕ) :
    u.offered.take n ++ (u.drop n).bytes = u.bytes := by
  unfold offered drop bytes
  split
  · rename_i h
    rw [List.isEmpty_iff.mp h, List.nil_append, List.nil_append, List.take_append_drop]
  · rw [← List.append_assoc, List.take_append_drop]

end Unsent

/-- The descriptor a block sends a frame to. -/
def Op.sends? : Op → Option Fd
  | .sendFrame fd _ => some fd
  | _ => none

/-- The server with its mutexes, and what is on the wire. -/
structure Wire where
  /-- The server. -/
  server : Server
  /-- The mutexes under which a thread is to send, one for each `send_frame` it has to run. -/
  mutexes : Tid → List (Option ConnId)
  /-- The thread that holds the mutex of a record. -/
  holder : ConnId → Option Tid
  /-- What a thread that is in `send_frame` has still to send. -/
  unsent : Tid → Option Unsent
  /-- The bytes that the kernel has taken for a connection. -/
  stream : ConnId → Bytes

namespace Wire

/-- The server before its accept loop. -/
def init (config : LoadedConfig) : Wire where
  server := .init config
  mutexes _ := []
  holder _ := none
  unsent _ := none
  stream _ := []

/-- The mutexes for what a block leaves to be sent: those of the records it has found. -/
def mutexesOf (s : Server) (op : Op) (new : List Op) : List (Option ConnId) :=
  (new.filterMap Op.sends?).map fun fd =>
    match op with
    | .register _ _ => none
    | _ => s.fds fd

/-- Anything but a `send_frame`. -/
def other (w : Wire) : Server.Action → Option Wire
  | .run t ch =>
    match w.server.todo t with
    | [] => none
    | .sendFrame _ _ :: _ => none
    | op :: rest =>
      (w.server.exec t ch op).map fun r => { w with
        server := r.1.setTodo t (r.2 ++ rest)
        mutexes := Function.update w.mutexes t (mutexesOf w.server op r.2 ++ w.mutexes t) }
  | a => (w.server.step a).map fun s => { w with server := s }

/-- The mutex under which a thread is to send next, if there is one. -/
def mutex (w : Wire) (t : Tid) : Option ConnId := (w.mutexes t).headD none

/-- The mutex of a `std::lock_guard` is released. -/
def release (w : Wire) (t : Tid) : Wire :=
  { w with
    mutexes := Function.update w.mutexes t (w.mutexes t).tail
    holder := fun c => if w.mutex t = some c then none else w.holder c
    unsent := Function.update w.unsent t none }

/-- `send_frame` returns. -/
def sendReturns (w : Wire) (t : Tid) (ok : Bool) : Option Wire :=
  (w.server.step (.run t { ok := ok })).map fun s => { w with server := s }.release t

/-- A thread takes the mutex, and calls `send_frame`. -/
def lock (w : Wire) (t : Tid) : Option Wire :=
  match w.server.todo t, w.unsent t with
  | .sendFrame _ f :: _, none =>
    if (w.mutex t).any fun c => (w.holder c).isSome then none
    else if w.server.config.1.maxMessageSize < f.line.payload.length then w.sendReturns t true
    else some { w with
      holder := fun c => if w.mutex t = some c then some t else w.holder c
      unsent := Function.update w.unsent t
        (some ⟨writeHeader f.line.payload.length, f.line.payload⟩) }
  | _, _ => none

/-- A thread calls `::send`. -/
def send (w : Wire) (t : Tid) (turn : Turn) : Option Wire :=
  match w.server.todo t, w.unsent t with
  | .sendFrame fd _ :: _, some u =>
    match turn with
    | .interrupted => some w
    | .failed => w.sendReturns t false
    | .atMost n =>
      match w.server.fds fd with
      | none => none
      | some c =>
        if w.server.broken c then none
        else
          let w := { w with
            stream := Function.update w.stream c (w.stream c ++ u.offered.take (n + 1)) }
          if (u.drop (n + 1)).bytes.isEmpty then w.sendReturns t true
          else some { w with unsent := Function.update w.unsent t (some (u.drop (n + 1))) }
  | _, _ => none

/-- What can happen. -/
inductive Action where
  /-- Anything but a `send_frame`. -/
  | other (a : Server.Action)
  /-- A thread takes a mutex. -/
  | lock (t : Tid)
  /-- It calls `::send`. -/
  | send (t : Tid) (turn : Turn)
  deriving DecidableEq, Repr

/-- One step. -/
def step (w : Wire) : Action → Option Wire
  | .other a => w.other a
  | .lock t => w.lock t
  | .send t turn => w.send t turn

/-- The descriptors to which a thread has still to send, with the record found. -/
def destinations (s : Server) (t : Tid) : List Fd := (s.todo t).filterMap Op.sends?

/-- `::accept` does not return one of them. -/
def NoReuse (w : Wire) : Action → Prop
  | .other (.run .main ch) => (w.server.todo .main).head? = some .accept →
      ∀ t ∈ w.server.threads, ch.fd ∉ destinations w.server t
  | _ => True

instance (w : Wire) : ∀ a, Decidable (NoReuse w a)
  | .other (.run .main _) => inferInstanceAs (Decidable (_ → _))
  | .other (.run (.handler _) _) | .other (.iterate _) | .other .leaveLoop
  | .other .requestShutdown | .other (.recv _) | .other (.recvEnd _) | .other (.arrive _ _)
  | .other (.rehash _) | .lock _ | .send _ _ => inferInstanceAs (Decidable True)

variable {config : LoadedConfig} {w w' : Wire} {s s' s₁ : Server} {a : Action} {t t' : Tid}
  {ch : Server.Choice} {c k : ConnId} {fd : Fd} {f f' : Frame} {u u' : Unsent} {op : Op}
  {rest new : List Op} {ok : Bool} {m : Option ConnId} {max : ℕ} {part : Bytes}

/-! ### What a step is to the server -/

/-- A step that is not that of a `send_frame`: a block, or what comes from outside. -/
inductive Others (w : Wire) : Server.Action → Wire → Prop where
  /-- A block. -/
  | run {t : Tid} {ch : Server.Choice} {op : Op} {rest new : List Op} {s₁ : Server}
    (ht : w.server.todo t = op :: rest) (hop : op.sends? = none)
    (he : w.server.exec t ch op = some (s₁, new)) :
    Others w (.run t ch) { w with
      server := s₁.setTodo t (new ++ rest)
      mutexes := Function.update w.mutexes t (mutexesOf w.server op new ++ w.mutexes t) }
  /-- Anything else. -/
  | outside {a : Server.Action} {s : Server} (ha : ∀ t ch, a ≠ .run t ch)
    (hs : w.server.step a = some s) : Others w a { w with server := s }

theorem other_cases {a : Server.Action} (h : w.other a = some w') : Others w a w' := by
  have houtside {a : Server.Action} (ha : ∀ t ch, a ≠ .run t ch)
      (h : (w.server.step a).map (fun s => { w with server := s }) = some w') :
      Others w a w' := by
    obtain ⟨s, hs, rfl⟩ := Option.map_eq_some_iff.mp h
    exact .outside ha hs
  cases a with
  | run t ch =>
    simp only [other] at h
    split at h
    · cases h
    · cases h
    · rename_i op rest hne ht
      obtain ⟨⟨s₁, new⟩, he, rfl⟩ := Option.map_eq_some_iff.mp h
      refine .run ht ?_ he
      cases op with
      | sendFrame fd f => exact absurd rfl (hne fd f)
      | _ => rfl
  | _ => exact houtside (by simp) h

theorem Others.server {a : Server.Action} (h : Others w a w') :
    w.server.step a = some w'.server := by
  cases h with
  | run ht _ he =>
    simp only [Server.step, ht, he, Option.map_some]
    rfl
  | outside _ hs => exact hs

theorem config_others {a : Server.Action} (h : Others w a w') :
    w'.server.config = w.server.config := by
  rcases Server.step_effect h.server with ⟨t, ch, op, rest, new, s₁, rfl, -, -, hE, hs⟩ | ⟨-, hq⟩
  · rw [hs]
    exact hE.config
  · exact hq.config

/-- **What `send_frame` comes to** when it returns. -/
theorem sendReturns_eq (ht : w.server.todo t = .sendFrame fd f :: rest) :
    w.sendReturns t ok =
      some ({ w with server := (w.server.sendFrame fd f ok).setTodo t rest }.release t) := by
  unfold sendReturns
  simp only [Server.step, ht, Server.exec, Option.map_some, List.nil_append]
  rfl

/-- The ways through `lock` and `send`. -/
inductive Sending (w : Wire) : Action → Wire → Prop where
  /-- The frame is too large. -/
  | tooLarge {t : Tid} {fd : Fd} {f : Frame} {rest : List Op}
    (ht : w.server.todo t = .sendFrame fd f :: rest) (hu : w.unsent t = none)
    (hfree : ∀ c, w.mutex t = some c → w.holder c = none)
    (hl : w.server.config.1.maxMessageSize < f.line.payload.length) :
    Sending w (.lock t)
      ({ w with server := (w.server.sendFrame fd f true).setTodo t rest }.release t)
  /-- The mutex is taken. -/
  | locked {t : Tid} {fd : Fd} {f : Frame} {rest : List Op}
    (ht : w.server.todo t = .sendFrame fd f :: rest) (hu : w.unsent t = none)
    (hfree : ∀ c, w.mutex t = some c → w.holder c = none)
    (hl : f.line.payload.length ≤ w.server.config.1.maxMessageSize) :
    Sending w (.lock t) { w with
      holder := fun c => if w.mutex t = some c then some t else w.holder c
      unsent := Function.update w.unsent t
        (some ⟨writeHeader f.line.payload.length, f.line.payload⟩) }
  /-- `::send` is interrupted. -/
  | interrupted {t : Tid} : Sending w (.send t .interrupted) w
  /-- It fails. -/
  | failed {t : Tid} {fd : Fd} {f : Frame} {u : Unsent} {rest : List Op}
    (ht : w.server.todo t = .sendFrame fd f :: rest) (hu : w.unsent t = some u) :
    Sending w (.send t .failed)
      ({ w with server := (w.server.sendFrame fd f false).setTodo t rest }.release t)
  /-- Some bytes are taken, and others are left. -/
  | some {t : Tid} {fd : Fd} {f : Frame} {u : Unsent} {rest : List Op} {n : ℕ} {c : ConnId}
    (ht : w.server.todo t = .sendFrame fd f :: rest) (hu : w.unsent t = some u)
    (hfd : w.server.fds fd = some c) (hb : w.server.broken c = false)
    (hd : (u.drop (n + 1)).bytes ≠ []) :
    Sending w (.send t (.atMost n)) { w with
      stream := Function.update w.stream c (w.stream c ++ u.offered.take (n + 1))
      unsent := Function.update w.unsent t (some (u.drop (n + 1))) }
  /-- The last are. -/
  | last {t : Tid} {fd : Fd} {f : Frame} {u : Unsent} {rest : List Op} {n : ℕ} {c : ConnId}
    (ht : w.server.todo t = .sendFrame fd f :: rest) (hu : w.unsent t = some u)
    (hfd : w.server.fds fd = some c) (hb : w.server.broken c = false)
    (hd : (u.drop (n + 1)).bytes = []) :
    Sending w (.send t (.atMost n))
      ({ w with
        stream := Function.update w.stream c (w.stream c ++ u.offered.take (n + 1))
        server := (w.server.sendFrame fd f true).setTodo t rest }.release t)

theorem sending_of_lock (h : w.lock t = some w') : Sending w (.lock t) w' := by
  unfold lock at h
  split at h
  · rename_i fd f rest ht hu
    split_ifs at h with hh hl
    all_goals
      have hfree (c : ConnId) (hc : w.mutex t = some c) : w.holder c = none := by
        simpa [hc] using hh
    · rw [sendReturns_eq ht] at h
      exact Option.some.inj h ▸ .tooLarge ht hu hfree hl
    · exact Option.some.inj h ▸ .locked ht hu hfree (not_lt.mp hl)
  · cases h

theorem sending_of_send {turn : Turn} (h : w.send t turn = some w') :
    Sending w (.send t turn) w' := by
  unfold send at h
  split at h
  · rename_i fd f rest u ht hu
    cases turn with
    | interrupted => exact Option.some.inj h ▸ .interrupted
    | failed =>
      rw [show (w.sendReturns t false) = _ from sendReturns_eq ht] at h
      exact Option.some.inj h ▸ .failed ht hu
    | atMost n =>
      dsimp only at h
      split at h
      · cases h
      · rename_i c hfd
        split_ifs at h with hb hd
        · rw [sendReturns_eq (w := { w with
            stream := Function.update w.stream c (w.stream c ++ u.offered.take (n + 1)) }) ht] at h
          exact Option.some.inj h ▸
            .last ht hu hfd (by simpa using hb) (List.isEmpty_iff.mp hd)
        · refine Option.some.inj h ▸ .some ht hu hfd (by simpa using hb) ?_
          simpa using hd
  · cases h

/-- **What a step is to the server**: nothing, or a step of it. -/
theorem step_server (h : w.step a = some w') :
    w'.server = w.server ∨ ∃ b, w.server.step b = some w'.server := by
  have hreturn {t : Tid} {fd : Fd} {f : Frame} {rest : List Op}
      (ht : w.server.todo t = .sendFrame fd f :: rest) (ok : Bool) :
      w.server.step (.run t { ok := ok }) =
        some ((w.server.sendFrame fd f ok).setTodo t rest) := by
    simp only [Server.step, ht, Server.exec, Option.map_some, List.nil_append]
    rfl
  cases a with
  | other a => exact .inr ⟨a, (other_cases h).server⟩
  | lock t =>
    cases sending_of_lock h with
    | tooLarge ht => exact .inr ⟨_, hreturn ht true⟩
    | locked => exact .inl rfl
  | send t turn =>
    cases sending_of_send h with
    | interrupted => exact .inl rfl
    | failed ht => exact .inr ⟨_, hreturn ht false⟩
    | some => exact .inl rfl
    | last ht => exact .inr ⟨_, hreturn ht true⟩

/-! ### Mutexes -/

/-- A thread with something to do is left to do it. -/
theorem todo_of_busy {a : Server.Action} (h : s.step a = some s') (ha : ∀ t ch, a ≠ .run t ch)
    (hne : s.todo t ≠ []) : s'.todo t = s.todo t := by
  have hset {t' : Tid} {l : List Op} (he : s.todo t' = []) :
      Function.update s.todo t' l t = s.todo t :=
    Function.update_of_ne (by rintro rfl; exact hne he) ..
  cases a with
  | run t' ch => exact absurd rfl (ha t' ch)
  | iterate | leaveLoop | recvEnd =>
    simp only [Server.step, Bool.and_eq_true, List.isEmpty_iff, Option.ite_none_right_eq_some,
      Option.some.injEq] at h
    obtain ⟨⟨-, he⟩, rfl⟩ := h
    exact hset he
  | recv c =>
    obtain ⟨-, he, k, f, rest, -, -, rfl⟩ := Server.step_recv h
    exact hset he
  | requestShutdown | arrive =>
    cases h
    rfl
  | rehash es =>
    simp only [Server.step, Option.dite_none_right_eq_some, Option.some.injEq] at h
    obtain ⟨_, rfl⟩ := h
    rfl

/-- **What comes from outside** gives no thread anything to send at once. -/
theorem destinations_outside {a : Server.Action} (h : s.step a = some s')
    (ha : ∀ t ch, a ≠ .run t ch) (t : Tid) : destinations s' t = destinations s t := by
  by_cases hne : s.todo t = []
  · rw [destinations, destinations, hne, List.filterMap_nil, List.filterMap_eq_nil_iff]
    intro op hop
    rcases Server.step_todo h ha hop with hop | hst
    · rw [hne] at hop
      cases hop
    · rcases hst.cases with ⟨hd, -⟩ | ⟨fd, code, text, rfl⟩ | rfl
      · cases op with
        | sendFrame => cases hd
        | _ => rfl
      · rfl
      · rfl
  · rw [destinations, todo_of_busy h ha hne]
    rfl

/-- `accept_one` has let the connection in. -/
def LetIn (st : Stage) : Prop := st = .registered ∨ st = .serving ∨ st = .erased

/-- **The mutex a thread is to hold** to send to a descriptor is that of the connection it stands
for, if it stands for one; or it is the accept thread that rejects it. -/
def Guards (s : Server) (t : Tid) (fd : Fd) (mutex : Option ConnId) : Prop :=
  ∀ c, s.fds fd = some c →
    mutex = some c ∧ LetIn (s.stage c) ∨ mutex = none ∧ s.stage c = .rejected ∧ t = .main

/-- A connection stays at its stage, or goes to the next. -/
theorem moves_step {a : Server.Action} (hI : Server.Inv s) (h : s.step a = some s') (c : ConnId) :
    s'.stage c = s.stage c ∨ ∃ t op, Server.Moves s c t op (s'.stage c) := by
  rcases Server.step_effect h with ⟨t, ch, op, rest, new, s₁, rfl, ht, he, -, rfl⟩ | ⟨-, hq⟩
  · exact (Server.stage_run hI ht he c).imp id fun hm => ⟨t, op, hm⟩
  · exact .inl (congrFun hq.stage c)

/-- It stays so unless the number is given out again. -/
theorem Guards.step {a : Server.Action} (hg : Guards s t fd m) (hI : Server.Inv s)
    (h : s.step a = some s')
    (hc : ∀ ch rest, a = .run .main ch → s.todo .main = .accept :: rest → ch.fd ≠ fd) :
    Guards s' t fd m := by
  intro c hk
  have hopen := (((hI.step h).fds_iff _ _).mp hk).2
  rcases Server.step_fds hI h hk with hk₀ | ⟨ch, rest, ha, ht, hfd, -⟩
  · rcases moves_step hI h c with hst | ⟨t', op, hm⟩
    · rw [hst]
      exact hg c hk₀
    · generalize s'.stage c = st at hm hopen
      have hold := hg c hk₀
      cases hm with
      | accept hb | reject hb | register hb =>
        rw [hb] at hold
        simp [LetIn] at hold
      | start hb => exact .inl ⟨(hold.resolve_right (by rw [hb]; simp)).1, .inr (.inl rfl)⟩
      | erase hb => exact .inl ⟨(hold.resolve_right (by rw [hb]; simp)).1, .inr (.inr rfl)⟩
      | close | drop => exact absurd rfl hopen.2
  · exact absurd hfd (hc ch rest ha ht)

/-- **Which blocks leave something to be sent**: they have found the records, or rejected. -/
inductive Finds (s : Server) : Op → Server → Fd → Prop where
  /-- The client is in the registry. -/
  | record {op : Op} {fd : Fd} {r : ClientRecord} (hr : s.clients.find? fd = some r)
    (hop : ∀ fd c, op ≠ .register fd c) : Finds s op s fd
  /-- There is no room for it. -/
  | full {fd : Fd} {c : ConnId} :
    Finds s (.register fd c) { s with stage := Function.update s.stage c .rejected } fd

theorem finds_of_exec (hop : op.sends? = none) (he : s.exec t ch op = some (s₁, new))
    (hfd : fd ∈ new.filterMap Op.sends?) : Finds s op s₁ fd := by
  cases Server.exec_done he with
  | frame => cases hop
  | full =>
    obtain rfl : fd = _ := by simpa [Op.sends?] using hfd
    exact .full
  | sent hr =>
    obtain rfl : fd = _ := by simpa [Op.sends?] using hfd
    exact .record hr (by simp)
  | broadcast =>
    rw [List.filterMap_map] at hfd
    obtain ⟨fd', hmem, hs⟩ := List.mem_filterMap.mp hfd
    obtain rfl := Option.some.inj hs
    obtain ⟨-, r, hr, -⟩ := Server.mem_targets hmem
    exact .record hr (by simp)
  | renamed =>
    unfold Server.renameClient at hfd
    split at hfd
    · simp [Op.sends?, sendError] at hfd
    · split at hfd <;> simp [Op.sends?] at hfd
  | routed =>
    unfold Server.routeMsg at hfd
    split at hfd
    · simp at hfd
    · dsimp only at hfd
      split_ifs at hfd <;> simp [Op.sends?, sendError] at hfd
  | erased =>
    unfold Server.eraseClient at hfd
    split at hfd
    · simp at hfd
    · dsimp only at hfd
      split_ifs at hfd <;> simp [Op.sends?] at hfd
  | listed => simp [Op.sends?, Server.listClients] at hfd
  | registered => simp [Op.sends?, Server.afterWelcome] at hfd
  | collectedFds | collectedThreads => simp [Op.sends?] at hfd
  | _ => simp [Op.sends?] at hfd

/-- **The mutexes for what a block leaves to be sent** are the right ones. -/
theorem guards_new (hI : Server.Inv s) (ht : s.todo t = op :: rest) (hop : op.sends? = none)
    (he : s.exec t ch op = some (s₁, new)) :
    List.Forall₂ (Guards s₁ t) (new.filterMap Op.sends?) (mutexesOf s op new) := by
  rw [mutexesOf, List.forall₂_map_right_iff, List.forall₂_same]
  intro fd hfd k hk
  cases finds_of_exec hop he hfd with
  | record hr hne =>
    obtain ⟨c, hc, hl⟩ := hI.owner _ _ hr
    obtain rfl := Option.some.inj (hk.symm.trans hc)
    refine .inl ⟨?_, hl.imp id .inl⟩
    cases op with
    | register fd c => exact absurd rfl (hne fd c)
    | _ => exact hk
  | @full fd c =>
    obtain ⟨rfl, rfl, -⟩ := hI.main_of_register ht
    have hst := hI.accepted_of_register ht
    obtain rfl : c = k :=
      Option.some.inj ((hI.fds_fdOf (c := c) (hst ▸ ⟨by decide, by decide⟩)).symm.trans hk)
    exact .inr ⟨rfl, Function.update_self .., rfl⟩

/-- **What the mutexes are for.** -/
structure Guarded (w : Wire) : Prop where
  /-- The registry is in order. -/
  inv : Server.Inv w.server
  /-- A thread has the right mutexes for what it is to send. -/
  guards : ∀ t, List.Forall₂ (Guards w.server t) (destinations w.server t) (w.mutexes t)
  /-- A thread that is in `send_frame` has something left of a frame that fits. -/
  sending : ∀ t u, w.unsent t = some u → ∃ fd f rest, w.server.todo t = .sendFrame fd f :: rest ∧
    f.line.payload.length ≤ w.server.config.1.maxMessageSize ∧ u.bytes ≠ []
  /-- Who holds a mutex is in `send_frame` under it, and the other way round. -/
  holds : ∀ c t, w.holder c = some t ↔ (w.unsent t).isSome ∧ w.mutex t = some c

theorem guarded_init (config : LoadedConfig) : Guarded (init config) where
  inv := Server.inv_init config
  guards _ := .nil
  sending _ _ h := by cases h
  holds c t := by simp [init]

/-- A thread is sending a frame to a connection, and has some of it left. -/
def Writes (w : Wire) (t : Tid) (c : ConnId) (f : Frame) (u : Unsent) : Prop :=
  ∃ fd rest, w.server.todo t = .sendFrame fd f :: rest ∧ w.unsent t = some u ∧
    w.server.fds fd = some c

/-- What it sends is what it has to do next. -/
theorem Writes.next (h : Writes w t c f u) (ht : w.server.todo t = .sendFrame fd f' :: rest) :
    f = f' ∧ w.unsent t = some u ∧ w.server.fds fd = some c := by
  obtain ⟨fd', rest', ht', hu, hk⟩ := h
  rw [ht] at ht'
  obtain ⟨rfl, rfl⟩ := Op.sendFrame.inj (List.cons.inj ht').1
  exact ⟨rfl, hu, hk⟩

namespace Guarded

variable (hG : Guarded w)
include hG

/-- The mutex for the frame that is next. -/
theorem head (ht : w.server.todo t = .sendFrame fd f :: rest) :
    Guards w.server t fd (w.mutex t) ∧
      List.Forall₂ (Guards w.server t) (rest.filterMap Op.sends?) (w.mutexes t).tail := by
  have h := hG.guards t
  rw [destinations, ht] at h
  change List.Forall₂ _ (fd :: rest.filterMap Op.sends?) _ at h
  obtain ⟨m, ms, hm, hms, he⟩ := List.forall₂_cons_left_iff.mp h
  rw [mutex, he]
  exact ⟨hm, hms⟩

/-- **One thread at a time** sends to a connection. -/
theorem writer_unique (h : Writes w t c f u) (h' : Writes w t' c f' u') : t = t' := by
  obtain ⟨fd, rest, ht, hu, hc⟩ := h
  obtain ⟨fd', rest', ht', hu', hc'⟩ := h'
  rcases (hG.head ht).1 c hc with ⟨hm, hst⟩ | ⟨-, hst, rfl⟩
  · rcases (hG.head ht').1 c hc' with ⟨hm', -⟩ | ⟨-, hst', -⟩
    · have h1 := (hG.holds c t).mpr ⟨by rw [hu]; rfl, hm⟩
      have h2 := (hG.holds c t').mpr ⟨by rw [hu']; rfl, hm'⟩
      exact Option.some.inj (h1.symm.trans h2)
    · rw [hst'] at hst
      simp [LetIn] at hst
  · rcases (hG.head ht').1 c hc' with ⟨-, hst'⟩ | ⟨-, -, rfl⟩
    · rw [hst] at hst'
      simp [LetIn] at hst'
    · rfl

/-- What a thread sends fits, and there is something left of it. -/
theorem fits (ht : w.server.todo t = .sendFrame fd f :: rest) (hu : w.unsent t = some u) :
    f.line.payload.length ≤ w.server.config.1.maxMessageSize ∧ u.bytes ≠ [] := by
  obtain ⟨fd', f', rest', ht', hrest⟩ := hG.sending t u hu
  rw [ht] at ht'
  obtain ⟨-, rfl⟩ := Op.sendFrame.inj (List.cons.inj ht').1
  exact hrest

/-- Nobody else holds the mutex of a thread that is in `send_frame`. -/
theorem held (hu : w.unsent t = some u) (hm : w.mutex t = some c) (hh : w.holder c = some t') :
    t' = t := by
  have h := (hG.holds c t).mpr ⟨by rw [hu]; rfl, hm⟩
  exact Option.some.inj (hh.symm.trans h)

/-- A thread that is in `send_frame` runs no other block. -/
theorem todo_other {a : Server.Action} (h : Others w a w') (hu : w.unsent t = some u) :
    w'.server.todo t = w.server.todo t := by
  obtain ⟨fd, f, rest, ht, -⟩ := hG.sending t u hu
  cases h with
  | @run t₀ ch op rest' new s₁ ht₀ hop he =>
    have htt : t ≠ t₀ := by
      rintro rfl
      rw [ht] at ht₀
      obtain ⟨rfl, -⟩ := List.cons.inj ht₀
      cases hop
    show Function.update s₁.todo t₀ _ t = _
    rw [Function.update_of_ne htt, (Server.exec_effect he).todo]
  | outside ha hs => exact todo_of_busy hs ha (by rw [ht]; simp)

end Guarded

theorem Guards.congr (hg : Guards s t fd m) (hf : s'.fds = s.fds) (hs : s'.stage = s.stage) :
    Guards s' t fd m := by
  intro c hk
  rw [hs]
  exact hg c (hf ▸ hk)

theorem destinations_setTodo (s : Server) (t : Tid) (l : List Op) :
    destinations (s.setTodo t l) t = l.filterMap Op.sends? := by
  simp [destinations, Server.setTodo]

theorem destinations_setTodo_of_ne (h : t' ≠ t) (l : List Op) :
    destinations (s.setTodo t l) t' = destinations s t' := by
  simp [destinations, Server.setTodo, h]

/-- **When `send_frame` returns**, the mutex is free. -/
theorem Guarded.returns (hG : Guarded w) (ht : w.server.todo t = .sendFrame fd f :: rest)
    (hm : Server.Mild w.server s₁) (hI : Server.Inv (s₁.setTodo t rest))
    (hheld : ∀ c t', w.mutex t = some c → w.holder c = some t' → t' = t)
    (st : ConnId → Bytes) :
    Guarded ({ w with server := s₁.setTodo t rest, stream := st }.release t) where
  inv := hI
  guards t' := by
    by_cases htt : t' = t
    · subst htt
      change List.Forall₂ _ (destinations (s₁.setTodo t' rest) t')
        (Function.update w.mutexes t' (w.mutexes t').tail t')
      rw [destinations_setTodo, Function.update_self]
      exact (hG.head ht).2.imp fun _ _ hg => hg.congr hm.fds hm.stage
    · change List.Forall₂ _ (destinations (s₁.setTodo t rest) t')
        (Function.update w.mutexes t (w.mutexes t).tail t')
      rw [destinations_setTodo_of_ne htt, Function.update_of_ne htt, destinations, hm.todo]
      exact (hG.guards t').imp fun _ _ hg => hg.congr hm.fds hm.stage
  sending t' u hu := by
    change Function.update w.unsent t none t' = some u at hu
    by_cases htt : t' = t
    · subst htt
      rw [Function.update_self] at hu
      cases hu
    · rw [Function.update_of_ne htt] at hu
      obtain ⟨fd, f, rest', ht', hrest⟩ := hG.sending t' u hu
      refine ⟨fd, f, rest', ?_, hm.config ▸ hrest⟩
      change Function.update s₁.todo t rest t' = _
      rw [Function.update_of_ne htt, hm.todo, ht']
  holds c t' := by
    change (if w.mutex t = some c then none else w.holder c) = some t' ↔
      (Function.update w.unsent t none t').isSome ∧
        (Function.update w.mutexes t (w.mutexes t).tail t').headD none = some c
    by_cases htt : t' = t
    · subst htt
      rw [Function.update_self]
      simp only [Option.isSome_none, Bool.false_eq_true, false_and, iff_false]
      split_ifs with hc
      · simp
      · exact fun hh => hc ((hG.holds c t').mp hh).2
    · rw [Function.update_of_ne htt, Function.update_of_ne htt]
      split_ifs with hc
      · have hne : w.holder c ≠ some t' := fun hh => htt (hheld c t' hc hh)
        exact iff_of_false (by simp) fun hu => hne ((hG.holds c t').mpr hu)
      · exact hG.holds c t'

/-- A number that is given out is none to which a thread has still to send. -/
theorem NoReuse.fd_ne (hc : NoReuse w (.other (.run .main ch))) (hI : Server.Inv w.server)
    (hta : w.server.todo .main = .accept :: rest) (hfd : fd ∈ destinations w.server t) :
    ch.fd ≠ fd := by
  rintro rfl
  have hne : w.server.todo t ≠ [] := fun he => by simp [destinations, he] at hfd
  exact hc (by rw [hta]; rfl) t (hI.mem_threads hne) hfd

/-- A step that runs no `send_frame`. -/
theorem Guarded.others {a : Server.Action} (hG : Guarded w) (h : Others w a w')
    (hc : NoReuse w (.other a)) : Guarded w' := by
  have hI' := hG.inv.step h.server
  have hunsent : w'.unsent = w.unsent := by cases h <;> rfl
  have hholder : w'.holder = w.holder := by cases h <;> rfl
  -- what there was to send before is to be sent under the same mutex
  have hkeep {t : Tid} {l : List Fd} {ms : List (Option ConnId)}
      (hl : ∀ fd ∈ l, fd ∈ destinations w.server t) (hms : List.Forall₂ (Guards w.server t) l ms) :
      List.Forall₂ (Guards w'.server t) l ms := by
    refine ((List.forall₂_and_left _ _).mpr ⟨hl, hms⟩).imp ?_
    rintro fd m ⟨hfd, hg⟩
    refine hg.step hG.inv h.server ?_
    rintro ch rest rfl hta
    exact hc.fd_ne hG.inv hta hfd
  refine ⟨hI', ?_, ?_, ?_⟩
  · intro t'
    cases h with
    | @run t ch op rest new s₁ ht hop he =>
      have hd : destinations w.server t = rest.filterMap Op.sends? := by
        rw [destinations, ht, List.filterMap_cons_none hop]
      by_cases htt : t' = t
      · subst htt
        change List.Forall₂ _ (destinations (s₁.setTodo t' (new ++ rest)) t')
          (Function.update w.mutexes t' _ t')
        rw [destinations_setTodo, Function.update_self, List.filterMap_append]
        refine List.rel_append ?_ ?_
        · exact (guards_new hG.inv ht hop he).imp fun _ _ hg => hg.congr rfl rfl
        · exact hkeep (fun fd hfd => hd ▸ hfd) (hd ▸ hG.guards t')
      · change List.Forall₂ _ (destinations (s₁.setTodo t (new ++ rest)) t')
          (Function.update w.mutexes t _ t')
        rw [destinations_setTodo_of_ne htt, Function.update_of_ne htt, destinations,
          (Server.exec_effect he).todo]
        exact hkeep (fun _ hfd => hfd) (hG.guards t')
    | outside ha hs =>
      change List.Forall₂ _ (destinations _ t') (w.mutexes t')
      rw [destinations_outside hs ha]
      exact hkeep (fun _ hfd => hfd) (hG.guards t')
  · intro t u hu
    rw [hunsent] at hu
    rw [hG.todo_other h hu, config_others h]
    exact hG.sending t u hu
  · intro c t
    rw [hholder, hunsent, hG.holds]
    refine and_congr_right fun hu => ?_
    -- a thread in `send_frame` has not run this block
    obtain ⟨u, hu⟩ := Option.isSome_iff_exists.mp hu
    cases h with
    | @run t₀ ch op rest new s₁ ht hop he =>
      have htt : t ≠ t₀ := by
        rintro rfl
        obtain ⟨fd, f, rest', ht', -⟩ := hG.sending t u hu
        rw [ht] at ht'
        rw [(List.cons.inj ht').1] at hop
        cases hop
      simp [mutex, htt]
    | outside => rfl

/-- **Every step** keeps to the mutexes. -/
theorem Guarded.step (hG : Guarded w) (hc : NoReuse w a) (h : w.step a = some w') :
    Guarded w' := by
  have hI' : Server.Inv w'.server := by
    rcases step_server h with hs | ⟨b, hb⟩
    · rw [hs]
      exact hG.inv
    · exact hG.inv.step hb
  cases a with
  | other a => exact hG.others (other_cases h) hc
  | lock t =>
    cases sending_of_lock h with
    | tooLarge ht hu hfree =>
      refine hG.returns ht (Server.mild_sendFrame ..) hI' ?_ _
      intro c t' hm hh
      rw [hfree c hm] at hh
      cases hh
    | @locked _ fd f rest ht hu hfree hl =>
      refine ⟨hI', hG.guards, ?_, ?_⟩
      · intro t' u hu'
        change Function.update w.unsent t _ t' = some u at hu'
        by_cases htt : t' = t
        · subst htt
          rw [Function.update_self] at hu'
          obtain rfl := Option.some.inj hu'
          exact ⟨fd, f, rest, ht, hl, by simp [Unsent.bytes, writeHeader]⟩
        · rw [Function.update_of_ne htt] at hu'
          exact hG.sending t' u hu'
      · intro c t'
        change (if w.mutex t = some c then some t else w.holder c) = some t' ↔
          (Function.update w.unsent t _ t').isSome ∧ w.mutex t' = some c
        by_cases htt : t' = t
        · subst htt
          rw [Function.update_self]
          split_ifs with hm
          · simp [hm]
          · simp only [Option.isSome_some, true_and, hm, iff_false]
            exact fun hh => hm ((hG.holds c t').mp hh).2
        · rw [Function.update_of_ne htt, ← hG.holds]
          split_ifs with hm
          · rw [hfree c hm]
            simp [Ne.symm htt]
          · rfl
  | send t turn =>
    cases sending_of_send h with
    | interrupted => exact hG
    | failed ht hu | last ht hu =>
      exact hG.returns ht (Server.mild_sendFrame ..) hI' (fun _ _ hm hh => hG.held hu hm hh) _
    | @some _ fd f u rest n c ht hu hfd hb hd =>
      refine ⟨hI', hG.guards, ?_, ?_⟩
      · intro t' u' hu'
        change Function.update w.unsent t _ t' = _ at hu'
        by_cases htt : t' = t
        · subst htt
          rw [Function.update_self] at hu'
          obtain rfl := Option.some.inj hu'
          exact ⟨fd, f, rest, ht, (hG.fits ht hu).1, hd⟩
        · rw [Function.update_of_ne htt] at hu'
          exact hG.sending t' u' hu'
      · intro c t'
        change w.holder c = _ ↔ (Function.update w.unsent t _ t').isSome ∧ w.mutex t' = _
        rw [hG.holds]
        by_cases htt : t' = t
        · rw [htt, Function.update_self, hu]
          rfl
        · rw [Function.update_of_ne htt]

/-- Every run is one of the server that writes a frame in one step. -/
theorem run_server (h : Run step (init config) w) : Run Server.step (.init config) w.server := by
  refine h.map Wire.server fun w a w' _ hs => ?_
  exact (step_server hs).imp id fun ⟨b, hb⟩ => ⟨b, trivial, hb⟩

end Wire

end ThreadLink.Backend
