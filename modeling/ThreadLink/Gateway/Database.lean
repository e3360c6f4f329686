import ThreadLink.Gateway.Groups
import ThreadLink.Gateway.Statements
import ThreadLink.Lib.Restarts
import ThreadLink.Lib.Sorting

/-!
# The database as a disk

The gateway keeps four tables. This module has what it writes to them, one operation after the
other, each as a whole or in part, and what no write ever changes.

## The model

* `Disk` — the database, with how often something has been drawn: a process that starts again
  draws ids and times that none has drawn before.
* `Writes`, `Tears` — an operation on conversations and messages, which may be stopped after any
  of its statements; one statement on the accounts; or nothing but a draw.

## What is proved

* `Grows` — conversations, members, messages and accounts are added behind those there are, and
  a conversation that is there keeps its members.
* `Tears.within` — what is left of a write that is torn is a part of it.
* `Keyed.writes`, `Keyed.tears`, `Keyed.reopen` — all keys have been drawn, each once.
* `Grows.historyForUser_sublist` — a history stays in its order when the database grows.
-/

namespace ThreadLink.Gateway

open Text Runs

/-- What an operation has drawn, the `n`-th draw being its own. -/
def Operation.DrawnAt (env : Env) (n : ℕ) : Operation → Prop
  | .ensureDirect now _ _ => now = env.now n
  | .createGroup uuid now _ _ => uuid = env.uuid n ∧ now = env.now n
  | .append message => message.id = env.uuid n ∧ message.timestamp = env.now n

/-- The database, and how often an id, the clock or random bytes have been drawn. -/
structure Disk where
  /-- The database. -/
  store : Store
  /-- The draws. -/
  draws : ℕ

/-- What is written. -/
inductive Write where
  /-- Conversations and messages. -/
  | operation (op : Operation)
  /-- `INSERT INTO users`. -/
  | register (row : UserRow)
  /-- `UPDATE users`. -/
  | rename (userId newUsername : Units)
  /-- Nothing: something is drawn for another purpose. -/
  | draw
  deriving DecidableEq

/-- A write. -/
inductive Writes (env : Env) (d : Disk) : Write → Disk → Prop where
  /-- An operation. -/
  | operation {op : Operation} (h : op.DrawnAt env d.draws) :
    Writes env d (.operation op) ⟨op.run d.store, d.draws + 1⟩
  /-- A new account. -/
  | register {row : UserRow} {users : Users} (hid : row.id = env.uuid d.draws)
    (h : d.store.users.insert row = some users) :
    Writes env d (.register row) ⟨{ d.store with users := users }, d.draws + 1⟩
  /-- A new username. -/
  | rename {userId newUsername : Units} {users : Users}
    (h : d.store.users.rename userId newUsername = some users) :
    Writes env d (.rename userId newUsername) ⟨{ d.store with users := users }, d.draws⟩
  /-- A draw. -/
  | draw {n : ℕ} (h : d.draws ≤ n) : Writes env d .draw ⟨d.store, n⟩

/-- What is left of a write that is torn: of an operation some statements, of a statement
nothing. -/
inductive Tears (env : Env) (d : Disk) : Write → Disk → Prop where
  /-- Some statements of an operation. -/
  | operation {op : Operation} (h : op.DrawnAt env d.draws) (k : ℕ) :
    Tears env d (.operation op) ⟨op.stopped d.store k, d.draws + 1⟩
  /-- Nothing. -/
  | undone (w : Write) : Tears env d w ⟨d.store, d.draws + 1⟩

namespace Store

variable {st st' st'' : Store} {u : Units}

/-! ### What is added -/

/-- An account but for its username. -/
def accounts (st : Store) : List (Units × PasswordRecord) :=
  st.users.rows.map fun r => (r.id, r.password)

/-- **The database grows.** -/
structure Grows (st st' : Store) : Prop where
  /-- Messages are added. -/
  messages : st.messages <+: st'.messages
  /-- Conversations are. -/
  conversations : st.conversations.rows <+: st'.conversations.rows
  /-- Members are. -/
  members : st.members.rows <+: st'.members.rows
  /-- A conversation that is there keeps its members. -/
  of : ∀ id ∈ st.conversations.rows.map (·.id), st'.members.of id = st.members.of id
  /-- Accounts are added, and keep their passwords. -/
  accounts : st.accounts <+: st'.accounts

theorem Grows.refl (st : Store) : Grows st st :=
  ⟨List.prefix_rfl, List.prefix_rfl, List.prefix_rfl, fun _ _ => rfl, List.prefix_rfl⟩

theorem Grows.trans (h : Grows st st') (h' : Grows st' st'') : Grows st st'' where
  messages := h.messages.trans h'.messages
  conversations := h.conversations.trans h'.conversations
  members := h.members.trans h'.members
  of id hid := (h'.of id (List.map_subset _ h.conversations.subset hid)).trans (h.of id hid)
  accounts := h.accounts.trans h'.accounts

/-- The conversations and their members. -/
theorem Grows.extends (h : Grows st st') : Extends st st' :=
  ⟨h.conversations.subset, h.members.subset, h.of⟩

theorem prefix_insertOrIgnore (t : Conversations) (row : ConversationRow) :
    t.rows <+: (t.insertOrIgnore row).rows := by
  unfold Conversations.insertOrIgnore
  split
  · exact List.prefix_rfl
  · exact List.prefix_append ..

theorem prefix_add (t : Members) (conversationId userId : Units) :
    t.rows <+: (t.add conversationId userId).rows := by
  unfold Members.add
  split
  · exact List.prefix_rfl
  · exact List.prefix_append ..

/-- A statement adds to the database, unless it adds members to a conversation that had been
there. -/
theorem Grows.statement (h : Grows st st') {s : Statement}
    (hs : ∀ id userId, s = .insertMember id userId → id ∉ st.conversations.rows.map (·.id)) :
    Grows st (s.run st') := by
  cases s with
  | insertConversation row =>
    exact { h with conversations := h.conversations.trans (prefix_insertOrIgnore ..) }
  | insertMember id userId =>
    refine { h with members := h.members.trans (prefix_add ..), of := ?_ }
    intro id' hid
    have hne : id' ≠ id := fun he => hs id userId rfl (he ▸ hid)
    exact (Members.of_add_of_ne hne userId).trans (h.of id' hid)
  | insertMessage message =>
    exact { h with messages := h.messages.trans (List.prefix_append ..) }

theorem Grows.statements (h : Grows st st') {l : List Statement}
    (hl : ∀ id userId, .insertMember id userId ∈ l → id ∉ st.conversations.rows.map (·.id)) :
    Grows st (Statement.runAll st' l) := by
  induction l generalizing st' with
  | nil => exact h
  | cons s l ih =>
    refine ih (h.statement ?_) fun id userId hm => hl id userId (List.mem_cons_of_mem _ hm)
    rintro id userId rfl
    exact hl id userId List.mem_cons_self

/-- A restart adds the public conversation at most. -/
theorem grows_reopen (st : Store) (now : Units) : Grows st (st.reopen now) :=
  (Grows.refl st).statement (s := .insertConversation _) nofun

/-- Other accounts. -/
theorem Grows.users (h : Grows st st') {users : Users}
    (hu : st'.accounts <+: users.rows.map fun r => (r.id, r.password)) :
    Grows st { st' with users := users } :=
  ⟨h.messages, h.conversations, h.members, h.of, h.accounts.trans hu⟩

theorem accounts_rename {t t' : Users} {id username : Units} (h : t.rename id username = some t') :
    t'.rows.map (fun r => (r.id, r.password)) = t.rows.map fun r => (r.id, r.password) := by
  have hset : (Users.setUsername t.rows id username).map (fun r => (r.id, r.password)) =
      t.rows.map fun r => (r.id, r.password) := by
    rw [Users.setUsername, List.map_map]
    apply List.map_congr_left
    intro r _
    dsimp only [Function.comp]
    split <;> rfl
  unfold Users.rename at h
  split at h
  · cases h
  · split at h
    · split at h
      · cases h
      · rw [Users.rows_update h, hset]
    · rw [Users.rows_update h, hset]

/-- **A history stays in its order** when the database grows. -/
theorem Grows.historyForUser_sublist (h : Grows st st') (u : Units) :
    (st.historyForUser u).Sublist (st'.historyForUser u) := by
  refine (Sorting.mergeSort_sublist ?_ ?_ ?_).map toSummary
  · intro a b c hab hbc
    simp only [decide_eq_true_eq] at hab hbc ⊢
    exact List.le_trans hab hbc
  · intro a b
    simpa using List.le_total a.timestamp b.timestamp
  · refine List.Sublist.trans ?_ (h.messages.sublist.filter _)
    refine List.monotone_filter_right _ fun m hm => ?_
    simp only [Bool.or_eq_true, beq_iff_eq, List.contains_iff_mem] at hm ⊢
    exact hm.imp id fun hm => h.members.subset hm

end Store

/-! ### Operations -/

/-- Statements leave the accounts as they are. -/
theorem Statement.users_runAll (st : Store) (l : List Statement) :
    (runAll st l).users = st.users := by
  induction l generalizing st with
  | nil => rfl
  | cons s l ih =>
    refine (ih _).trans ?_
    cases s <;> rfl

namespace Operation

variable {st : Store} {op : Operation} {k : ℕ}

/-- A group is made under an id that is not used. -/
def Fresh (st : Store) : Operation → Prop
  | .createGroup uuid _ _ _ => groupId uuid ∉ st.conversations.rows.map (·.id)
  | _ => True

/-- Members are added to a conversation that was not there. -/
theorem Fresh.not_mem (h : op.Fresh st) (hf : st.Filed) {id userId : Units}
    (hm : .insertMember id userId ∈ op.statements st) :
    id ∉ st.conversations.rows.map (·.id) := by
  cases op with
  | ensureDirect now a b =>
    unfold statements at hm
    dsimp only at hm
    split at hm
    · cases hm
    · rename_i hd
      have hid : id = directConversationId a b := by
        simp only [List.mem_cons, reduceCtorEq, Statement.insertMember.injEq, List.not_mem_nil,
          or_false, false_or] at hm
        rcases hm with h | h <;> exact h.1
      rw [hid]
      exact hf.not_mem_of_hasDirect (by simpa using hd)
  | createGroup uuid now name memberIds =>
    rcases List.mem_cons.mp hm with hm | hm
    · cases hm
    · obtain ⟨_, -, he⟩ := List.mem_map.mp hm
      cases he
      exact h
  | append message => simp [statements] at hm

/-- **An operation adds to the database**, wherever it is stopped. -/
theorem Fresh.grows (h : op.Fresh st) (hf : st.Filed) (k : ℕ) : st.Grows (op.stopped st k) :=
  (Store.Grows.refl st).statements fun _ _ hm => h.not_mem hf (List.mem_of_mem_take hm)

/-- The messages after an operation that may have been stopped. -/
theorem messages_stopped (op : Operation) (st : Store) (k : ℕ) :
    (op.stopped st k).messages = st.messages ∨
      ∃ m, op = .append m ∧
        (op.stopped st k).messages = st.messages ++ [Store.messageRow m] := by
  have hkeep {l : List Statement} (hl : ∀ m, .insertMessage m ∉ l) (st : Store) :
      (Statement.runAll st l).messages = st.messages := by
    induction l generalizing st with
    | nil => rfl
    | cons s l ih =>
      refine (ih (fun m hm => hl m (List.mem_cons_of_mem _ hm)) _).trans ?_
      cases s with
      | insertMessage m => exact absurd List.mem_cons_self (hl m)
      | _ => rfl
  cases op with
  | ensureDirect now a b =>
    refine .inl (hkeep (fun m hm => ?_) st)
    have hm := List.mem_of_mem_take hm
    unfold statements at hm
    dsimp only at hm
    split at hm <;> simp at hm
  | createGroup uuid now name memberIds =>
    refine .inl (hkeep (fun m hm => ?_) st)
    have hm := List.mem_of_mem_take hm
    simp [statements] at hm
  | append message =>
    cases k with
    | zero => exact .inl rfl
    | succ k =>
      refine .inr ⟨message, rfl, ?_⟩
      show (Statement.runAll st ([.insertMessage message].take (k + 1))).messages = _
      rw [List.take_succ_cons, List.take_nil]
      rfl

/-- The groups after it. -/
theorem mem_rows_stopped {r : ConversationRow} (h : r ∈ (op.stopped st k).conversations.rows)
    (hk : r.kind = .group) : r ∈ st.conversations.rows ∨ ∃ uuid now name memberIds,
      op = .createGroup uuid now name memberIds ∧ r.id = groupId uuid := by
  rcases Statement.mem_rows_runAll h with h | h
  · exact .inl h
  · have h := List.mem_of_mem_take h
    cases op with
    | ensureDirect now a b =>
      unfold statements at h
      dsimp only at h
      split at h
      · cases h
      · simp only [List.mem_cons, Statement.insertConversation.injEq, reduceCtorEq,
          List.not_mem_nil, or_false] at h
        rw [h] at hk
        cases hk
    | createGroup uuid now name memberIds =>
      rcases List.mem_cons.mp h with h | h
      · exact .inr ⟨_, _, _, _, rfl, by rw [Statement.insertConversation.inj h]⟩
      · obtain ⟨_, -, he⟩ := List.mem_map.mp h
        cases he
    | append message => simp [statements] at h

end Operation

/-! ### Parts -/

/-- The messages and the members are among those of another database. -/
structure Store.Within (st st' : Store) : Prop where
  /-- The messages. -/
  messages : st.messages ⊆ st'.messages
  /-- The members. -/
  members : st.members.rows ⊆ st'.members.rows

theorem Store.Within.refl (st : Store) : st.Within st := ⟨List.Subset.refl _, List.Subset.refl _⟩

theorem Store.Within.trans {st st' st'' : Store} (h : st.Within st') (h' : st'.Within st'') :
    st.Within st'' :=
  ⟨List.Subset.trans h.messages h'.messages, List.Subset.trans h.members h'.members⟩

/-- Statements remove nothing. -/
theorem Statement.within_runAll (st : Store) (l : List Statement) : st.Within (runAll st l) := by
  induction l generalizing st with
  | nil => exact .refl st
  | cons s l ih =>
    refine Store.Within.trans ?_ (ih (s.run st))
    cases s with
    | insertConversation => exact ⟨List.Subset.refl _, List.Subset.refl _⟩
    | insertMember => exact ⟨List.Subset.refl _, (Store.prefix_add ..).subset⟩
    | insertMessage => exact ⟨List.subset_append_left .., List.Subset.refl _⟩

theorem Operation.within_run (op : Operation) (st : Store) : st.Within (op.run st) := by
  rw [op.run_eq]
  exact Statement.within_runAll ..

/-- What is left of an operation is a part of it. -/
theorem Operation.stopped_within (op : Operation) (st : Store) (k : ℕ) :
    (op.stopped st k).Within (op.run st) := by
  have hrun : op.run st = Statement.runAll (op.stopped st k) ((op.statements st).drop k) := by
    rw [op.run_eq, Operation.stopped, Statement.runAll, Statement.runAll, Statement.runAll,
      ← List.foldl_append, List.take_append_drop]
  rw [hrun]
  exact Statement.within_runAll ..

/-- A write removes nothing. -/
theorem Writes.within {env : Env} {d d' : Disk} {w : Write} (h : Writes env d w d') :
    d.store.Within d'.store := by
  cases h with
  | operation => exact Operation.within_run ..
  | register => exact ⟨List.Subset.refl _, List.Subset.refl _⟩
  | rename => exact ⟨List.Subset.refl _, List.Subset.refl _⟩
  | draw => exact .refl _

theorem within_of_trace {env : Env} {d d' : Disk} {l : List Write}
    (h : Trace (Writes env) d l d') : d.store.Within d'.store :=
  h.invariant (fun _ d' => d.store.Within d'.store) (.refl _)
    fun _ _ _ _ hd hw => hd.trans hw.within

/-- **What is left of a write that is torn** is a part of it. -/
theorem Tears.within {env : Env} {d d₁ d' : Disk} {w : Write} (h : Tears env d w d')
    (hw : Writes env d w d₁) : d'.store.Within d₁.store := by
  cases h with
  | @operation op _ k =>
    cases hw with
    | operation => exact op.stopped_within d.store k
  | undone => exact hw.within

/-! ### Keys -/

/-- **All keys have been drawn**, each once. -/
structure Keyed (env : Env) (d : Disk) : Prop where
  /-- It is a database there can be. -/
  stored : Stored d.store
  /-- No two messages have one id. -/
  nodup : (d.store.messages.map (·.id)).Nodup
  /-- Messages have ids that have been drawn. -/
  message : ∀ m ∈ d.store.messages, ∃ k < d.draws, m.id = env.uuid k
  /-- Groups have. -/
  group : ∀ r ∈ d.store.conversations.rows, r.kind = .group →
    ∃ k < d.draws, r.id = Operation.groupId (env.uuid k)
  /-- Accounts have. -/
  account : ∀ id ∈ d.store.users.ids, ∃ k < d.draws, id = env.uuid k

namespace Keyed

variable {env : Env} {d d' : Disk} {w : Write} {n : ℕ}

/-- What has been drawn later is not an id of anything. -/
theorem fresh (h : Keyed env d) (hu : Function.Injective env.uuid) (hn : d.draws ≤ n) :
    env.uuid n ∉ d.store.messages.map (·.id) ∧
      Operation.groupId (env.uuid n) ∉ d.store.conversations.rows.map (·.id) ∧
      env.uuid n ∉ d.store.users.ids := by
  have hne {k : ℕ} (hk : k < d.draws) : env.uuid n ≠ env.uuid k := fun he =>
    absurd (hu he) (by omega)
  refine ⟨?_, ?_, ?_⟩
  · intro hm
    obtain ⟨m, hm, he⟩ := List.mem_map.mp hm
    obtain ⟨k, hk, hid⟩ := h.message m hm
    exact hne hk (he.symm.trans hid)
  · intro hm
    obtain ⟨r, hr, he⟩ := List.mem_map.mp hm
    have hkind := h.stored.filed.kind (k := .group) hr (he ▸ List.prefix_append ..)
    obtain ⟨k, hk, hid⟩ := h.group r hr hkind
    exact hne hk (List.append_cancel_left (he.symm.trans hid))
  · intro hm
    obtain ⟨k, hk, he⟩ := h.account _ hm
    exact hne hk he

/-- More draws do not matter. -/
theorem draws (h : Keyed env d) (hn : d.draws ≤ n) : Keyed env ⟨d.store, n⟩ where
  stored := h.stored
  nodup := h.nodup
  message m hm := (h.message m hm).imp fun _ hk => ⟨hk.1.trans_le hn, hk.2⟩
  group r hr hk := (h.group r hr hk).imp fun _ hk => ⟨hk.1.trans_le hn, hk.2⟩
  account id hid := (h.account id hid).imp fun _ hk => ⟨hk.1.trans_le hn, hk.2⟩

/-- An operation that may have been stopped. -/
theorem stopped (h : Keyed env d) (hu : Function.Injective env.uuid) {op : Operation}
    (ho : op.DrawnAt env d.draws) (k : ℕ) :
    Keyed env ⟨op.stopped d.store k, d.draws + 1⟩ ∧ d.store.Grows (op.stopped d.store k) := by
  have hnew := h.fresh hu (le_refl d.draws)
  have hup := h.draws (Nat.le_succ d.draws)
  have hfresh : op.Fresh d.store := by
    cases op with
    | createGroup uuid now name memberIds => exact ho.1 ▸ hnew.2.1
    | _ => trivial
  have husers : (op.stopped d.store k).users = d.store.users := Statement.users_runAll ..
  refine ⟨⟨h.stored.stopped op k, ?_, ?_, ?_, ?_⟩, hfresh.grows h.stored.filed k⟩
  · rcases op.messages_stopped d.store k with he | ⟨m, rfl, he⟩
    · exact he ▸ h.nodup
    · show ((Operation.stopped _ _ _).messages.map _).Nodup
      rw [he, List.map_append]
      exact List.nodup_append'.mpr ⟨h.nodup, List.nodup_singleton _,
        by simpa [Store.messageRow, ho.1] using hnew.1⟩
  · intro m hm
    rcases op.messages_stopped d.store k with he | ⟨m', rfl, he⟩
    · exact hup.message m (he ▸ hm)
    · rcases List.mem_append.mp (he ▸ hm) with hm | hm
      · exact hup.message m hm
      · exact ⟨d.draws, Nat.lt_succ_self _, List.mem_singleton.mp hm ▸ ho.1⟩
  · intro r hr hk
    rcases Operation.mem_rows_stopped hr hk with hr | ⟨uuid, now, name, memberIds, rfl, hid⟩
    · exact hup.group r hr hk
    · exact ⟨d.draws, Nat.lt_succ_self _, ho.1 ▸ hid⟩
  · intro id hid
    exact hup.account id (husers ▸ hid)

/-- **A write keeps the keys apart**, and adds to the database. -/
theorem writes (h : Keyed env d) (hu : Function.Injective env.uuid) (hw : Writes env d w d') :
    Keyed env d' ∧ d.store.Grows d'.store := by
  cases hw with
  | @operation op ho =>
    have hs := h.stopped hu ho (op.statements d.store).length
    rwa [Operation.stopped_of_le le_rfl] at hs
  | @register row users hid hr =>
    have hup := h.draws (Nat.le_succ d.draws)
    have hrows := Users.rows_insert hr
    refine ⟨⟨h.stored.users users, h.nodup, hup.message, hup.group, ?_⟩, ?_⟩
    · intro id hm
      replace hm : id ∈ users.ids := hm
      rw [Users.ids, hrows, List.map_append] at hm
      rcases List.mem_append.mp hm with hm | hm
      · exact hup.account id hm
      · exact ⟨d.draws, Nat.lt_succ_self _, (List.mem_singleton.mp hm).trans hid⟩
    · refine (Store.Grows.refl _).users ?_
      rw [hrows, List.map_append]
      exact List.prefix_append ..
  | @rename userId newUsername users hr =>
    have hids : users.ids = d.store.users.ids := by
      have hids := Users.ids_rename d.store.users userId newUsername
      rwa [hr] at hids
    refine ⟨⟨h.stored.users users, h.nodup, h.message, h.group, ?_⟩, ?_⟩
    · exact fun id hm => h.account id (hids ▸ hm)
    · refine (Store.Grows.refl _).users ?_
      rw [Store.accounts_rename hr]
      exact List.prefix_rfl
  | draw hn => exact ⟨h.draws hn, .refl _⟩

/-- So does one that is torn. -/
theorem tears (h : Keyed env d) (hu : Function.Injective env.uuid) (hw : Tears env d w d') :
    Keyed env d' ∧ d.store.Grows d'.store := by
  cases hw with
  | operation ho k => exact h.stopped hu ho k
  | undone => exact ⟨h.draws (Nat.le_succ _), .refl _⟩

/-- So does a restart. -/
theorem reopen (h : Keyed env d) (now : Units) :
    Keyed env ⟨d.store.reopen now, d.draws + 1⟩ ∧ d.store.Grows (d.store.reopen now) := by
  have hup := h.draws (Nat.le_succ d.draws)
  refine ⟨⟨h.stored.reopened now, h.nodup, hup.message, ?_, hup.account⟩, Store.grows_reopen ..⟩
  intro r hr hk
  rcases Conversations.mem_insertOrIgnore.mp hr with hr | ⟨-, rfl⟩
  · exact hup.group r hr hk
  · cases hk

end Keyed

end ThreadLink.Gateway
