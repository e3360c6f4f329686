import ThreadLink.Gateway.Conversations
import ThreadLink.Gateway.Requests

/-!
# Statements

The operations on conversations and messages are made of SQL statements, each of which is
committed by itself. A process that stops in the middle of an operation leaves what the
statements have done that it has run.

## The model

* A crash is a prefix of the statements of an operation: `stopped k` is the database after
  the first `k` of them. An `INSERT` that fails for a key that is there already throws, so that
  nothing more is run; that is a prefix as well.
* `Stored` are the databases there can be: after any operations, each of them run to its end
  or not, any changes of the accounts, and any restarts.

## What is proved

* `Operation.run_eq` — an operation is its statements, one after the other.
* `stored_of_deeds`, `stored_of_run` — whatever the gateway does, at any time, also between
  two deeds of a handler, its database is one of these.
* `mem_conversationsFor` — which conversations are listed for a user.
* `repaired_or_hidden_iff` — when a direct conversation that was not made to its end is
  repaired by the next call, and when a group that was not is hidden from everybody.
-/

namespace ThreadLink.Gateway

open Text Runs

/-- A statement that changes the tables of conversations and messages. -/
inductive Statement where
  /-- `INSERT INTO conversations`. -/
  | insertConversation (row : ConversationRow)
  /-- `addMember`. -/
  | insertMember (conversationId userId : Units)
  /-- `INSERT INTO messages`. -/
  | insertMessage (message : MessageSummary)
  deriving DecidableEq, Repr

/-- Run a statement. -/
def Statement.run (st : Store) : Statement → Store
  | .insertConversation row => { st with conversations := st.conversations.insertOrIgnore row }
  | .insertMember conversationId userId =>
    { st with members := st.members.add conversationId userId }
  | .insertMessage message => st.append message

/-- Run one statement after the other. -/
def Statement.runAll (st : Store) (statements : List Statement) : Store :=
  statements.foldl Statement.run st

/-- An operation on conversations and messages, with the time and the ids it draws. -/
inductive Operation where
  /-- `ensureDirect`. -/
  | ensureDirect (now a b : Units)
  /-- `createGroup`. -/
  | createGroup (uuid now name : Units) (memberIds : List Units)
  /-- `append`. -/
  | append (message : MessageSummary)
  deriving DecidableEq, Repr

namespace Operation

/-- The id of a new group. -/
def groupId (uuid : Units) : Units := units "group:" ++ uuid

/-- Do an operation. -/
def run (st : Store) : Operation → Store
  | .ensureDirect now a b => (st.ensureDirect now a b).1
  | .createGroup uuid now name memberIds => (st.createGroup (groupId uuid) now name memberIds).1
  | .append message => st.append message

/-- The statements of an operation. -/
def statements (st : Store) : Operation → List Statement
  | .ensureDirect now a b =>
    let id := directConversationId a b
    if st.hasDirect id then []
    else [.insertConversation ⟨id, .direct, [], now⟩, .insertMember id a, .insertMember id b]
  | .createGroup uuid now name memberIds =>
    .insertConversation ⟨groupId uuid, .group, stored name, now⟩ :: memberIds.map fun userId =>
      .insertMember (groupId uuid) userId
  | .append message => [.insertMessage message]

/-- What an operation leaves that is stopped after `k` of its statements. -/
def stopped (st : Store) (op : Operation) (k : ℕ) : Store :=
  Statement.runAll st ((op.statements st).take k)

end Operation

/-- Members that are added to a conversation. -/
theorem Statement.runAll_members (st : Store) (id : Units) (userIds : List Units) :
    runAll st (userIds.map fun userId => .insertMember id userId) =
      { st with members := userIds.foldl (fun m userId => m.add id userId) st.members } := by
  induction userIds generalizing st with
  | nil => rfl
  | cons userId userIds ih => exact ih _

/-- **An operation is its statements**, one after the other. -/
theorem Operation.run_eq (st : Store) (op : Operation) :
    op.run st = Statement.runAll st (op.statements st) := by
  cases op with
  | ensureDirect now a b =>
    show (st.ensureDirect now a b).1 = _
    unfold statements Store.ensureDirect
    dsimp only
    split <;> rfl
  | createGroup uuid now name memberIds =>
    have hc := Statement.runAll_members
      (Statement.run st (.insertConversation ⟨groupId uuid, .group, stored name, now⟩))
      (groupId uuid) memberIds
    exact hc.symm
  | append message => rfl

/-- An operation that is not stopped. -/
theorem Operation.stopped_of_le {st : Store} {op : Operation} {k : ℕ}
    (h : (op.statements st).length ≤ k) : op.stopped st k = op.run st := by
  rw [stopped, List.take_of_length_le h, op.run_eq]

/-- `openDatabase`, of a database that is there: the public conversation is made if it is not. -/
def Store.reopen (st : Store) (now : Units) : Store :=
  { st with
    conversations := st.conversations.insertOrIgnore
      ⟨publicConversationId, .everyone, units "Public Chat", now⟩ }

/-! ### The databases there can be -/

/-- **The databases there can be.** -/
inductive Stored : Store → Prop where
  /-- A new one. -/
  | fresh (now : Units) : Stored (.init now)
  /-- After an operation, or a part of one. -/
  | stopped {st : Store} (h : Stored st) (op : Operation) (k : ℕ) : Stored (op.stopped st k)
  /-- After a restart. -/
  | reopened {st : Store} (h : Stored st) (now : Units) : Stored (st.reopen now)
  /-- With other accounts. -/
  | users {st : Store} (h : Stored st) (users : Users) : Stored { st with users := users }

theorem Stored.run {st : Store} (h : Stored st) (op : Operation) : Stored (op.run st) :=
  Operation.stopped_of_le le_rfl ▸ h.stopped op (op.statements st).length

/-- A statement files what it writes. -/
theorem Store.Filed.statement {st : Store} (h : st.Filed) {s : Statement}
    (hs : (∀ row, s = .insertConversation row → row.kind.label <+: row.id) ∧
      ∀ id userId, s = .insertMember id userId → id ∈ st.conversations.rows.map (·.id)) :
    (s.run st).Filed := by
  cases s with
  | insertConversation row =>
    refine ⟨?_, fun m hm => Conversations.mem_ids_insertOrIgnore.mpr (.inl (h.members m hm))⟩
    intro r hr
    rcases Conversations.mem_insertOrIgnore.mp hr with hr | ⟨-, rfl⟩
    · exact h.label r hr
    · exact hs.1 r rfl
  | insertMember id userId =>
    refine ⟨h.label, ?_⟩
    intro m hm
    rcases Members.mem_rows_add.mp hm with hm | rfl
    · exact h.members m hm
    · exact hs.2 _ _ rfl
  | insertMessage message => exact ⟨h.label, h.members⟩

/-- Members may be added to a conversation that is there. -/
theorem Store.Filed.insertMembers {st : Store} (h : st.Filed) {id : Units}
    (hid : id ∈ st.conversations.rows.map (·.id)) (userIds : List Units) :
    (Statement.runAll st (userIds.map fun userId => .insertMember id userId)).Filed := by
  induction userIds generalizing st with
  | nil => exact h
  | cons userId userIds ih =>
    exact ih (h.statement ⟨nofun, fun id' _ he => by cases he; exact hid⟩) hid

/-- So may a conversation and members of it. -/
theorem Store.Filed.insertAll {st : Store} (h : st.Filed) {row : ConversationRow}
    (hrow : row.kind.label <+: row.id) (userIds : List Units) (k : ℕ) : (Statement.runAll st
      ((Statement.insertConversation row :: userIds.map fun userId =>
        .insertMember row.id userId).take k)).Filed := by
  cases k with
  | zero => exact h
  | succ k =>
    have hins : (Statement.run st (.insertConversation row)).Filed :=
      h.statement ⟨fun r he => by cases he; exact hrow, nofun⟩
    rw [List.take_succ_cons, ← List.map_take]
    exact hins.insertMembers (Conversations.mem_ids_insertOrIgnore.mpr (.inr rfl)) _

/-- **Every database is filed**: a member belongs to a conversation, whenever an operation has
been stopped. -/
theorem Stored.filed {st : Store} (h : Stored st) : st.Filed := by
  induction h with
  | fresh now => exact Store.filed_init now
  | @stopped st h op k ih =>
    cases op with
    | ensureDirect now a b =>
      unfold Operation.stopped Operation.statements
      dsimp only
      split
      · rw [List.take_nil]
        exact ih
      · exact @Store.Filed.insertAll _ ih ⟨directConversationId a b, .direct, [], now⟩
          (label_directConversationId a b) [a, b] k
    | createGroup uuid now name memberIds => exact ih.insertAll (List.prefix_append ..) memberIds k
    | append message =>
      cases k with
      | zero => exact ih
      | succ k =>
        show (Statement.runAll st ([.insertMessage message].take (k + 1))).Filed
        rw [List.take_succ_cons, List.take_nil]
        exact ⟨ih.label, ih.members⟩
  | reopened h now ih =>
    exact ih.statement (s := .insertConversation _)
      ⟨fun r he => by cases he; exact List.prefix_rfl, nofun⟩
  | users h users ih => exact ⟨ih.label, ih.members⟩

/-- A row that statements make is one of them. -/
theorem Statement.mem_rows_runAll {st : Store} {statements : List Statement} {r : ConversationRow}
    (h : r ∈ (runAll st statements).conversations.rows) :
    r ∈ st.conversations.rows ∨ .insertConversation r ∈ statements := by
  induction statements generalizing st with
  | nil => exact .inl h
  | cons s statements ih =>
    rcases ih h with h | h
    · cases s with
      | insertConversation row =>
        rcases Conversations.mem_insertOrIgnore.mp h with h | ⟨-, rfl⟩
        · exact .inl h
        · exact .inr List.mem_cons_self
      | insertMember => exact .inl h
      | insertMessage => exact .inl h
    · exact .inr (List.mem_cons_of_mem _ h)

/-- No operation makes a public conversation. -/
theorem Operation.kind_of_mem {st : Store} {op : Operation} {r : ConversationRow}
    (h : .insertConversation r ∈ op.statements st) : r.kind ≠ .everyone := by
  cases op with
  | ensureDirect now a b =>
    unfold statements at h
    dsimp only at h
    split at h
    · cases h
    · simp only [List.mem_cons, Statement.insertConversation.injEq, reduceCtorEq, List.not_mem_nil,
        or_false] at h
      rw [h]
      nofun
  | createGroup uuid now name memberIds =>
    rcases List.mem_cons.mp h with h | h
    · rw [Statement.insertConversation.inj h]
      nofun
    · obtain ⟨_, -, he⟩ := List.mem_map.mp h
      cases he
  | append message =>
    rcases List.mem_singleton.mp h with h
    cases h

/-- **There is one public conversation**. -/
theorem Stored.everyone {st : Store} (h : Stored st) {r : ConversationRow}
    (hr : r ∈ st.conversations.rows) (hk : r.kind = .everyone) : r.id = publicConversationId := by
  induction h with
  | fresh now => rw [List.mem_singleton.mp hr]
  | stopped h op k ih =>
    rcases Statement.mem_rows_runAll hr with hr | hr
    · exact ih hr
    · exact absurd hk (Operation.kind_of_mem (List.mem_of_mem_take hr))
  | reopened h now ih =>
    rcases Conversations.mem_insertOrIgnore.mp hr with hr | ⟨-, rfl⟩
    · exact ih hr
    · rfl
  | users h users ih => exact ih hr

namespace GatewayServer

variable {s t s' : GatewayServer} {P : Cause → Prop} {c : Cause} {e : Event}

/-- A deed does one operation at most. -/
theorem Deed.operation (h : Deed s c t) :
    t.store = s.store ∨ ∃ op : Operation, t.store = op.run s.store := by
  cases h with
  | @append w target text m => exact .inr ⟨.append m, rfl⟩
  | @ensureDirect c w other =>
    exact .inr ⟨.ensureDirect (s.env.now s.draws) (s.sessions w).id other, rfl⟩
  | @createGroup w name memberIds =>
    exact .inr ⟨.createGroup (s.env.uuid s.draws) (s.env.now s.draws) name (s.groupIds w memberIds),
      rfl⟩
  | nick => exact .inl (by rw [sendLine_eq])
  | chat => exact .inl (by rw [forward, sendLine_eq])
  | direct => exact .inl (by rw [forward, sendLine_eq])
  | _ => exact .inl rfl

/-- **Between any two deeds of a handler** the database is one of these, and it is so if the
process stops within the next deed. -/
theorem stored_of_deeds (h : Deeds P s t) (hr : Stored s.store) : Stored t.store := by
  induction h with
  | refl => exact hr
  | tail _ hd ih =>
    obtain ⟨c, -, hd⟩ := hd
    rcases hd.operation with he | ⟨op, he⟩
    · rw [he]; exact ih
    · rw [he]; exact ih.run op

/-- **In every run of the gateway**, on a new database or on one that another run has left. -/
theorem stored_of_run (h : Run step s s') (hr : Stored s.store) : Stored s'.store := by
  refine h.invariant (I := fun s => Stored s.store) hr ?_
  intro s e s' hr _ hs
  obtain ⟨t, hc, hd⟩ := step_deeds hs
  apply stored_of_deeds hd
  rw [hc.store_eq]
  exact hr.users _

end GatewayServer

/-! ### What is listed for a user -/

namespace Store

variable {st : Store} {u id a b now : Units} {c : ConversationSummary}

/-- What is listed of a conversation. -/
def summaryFor (st : Store) (u : Units) (row : ConversationRow) : ConversationSummary :=
  ⟨row.id, row.kind, st.titleFor u row (st.members.of row.id), st.members.of row.id⟩

/-- **The conversations that are listed for a user** are those that are not public and have it
for a member. -/
theorem mem_conversationsFor : c ∈ st.conversationsFor u ↔
    ∃ row ∈ st.conversations.rows, row.kind ≠ .everyone ∧ (row.id, u) ∈ st.members.rows ∧
      c = st.summaryFor u row := by
  simp only [conversationsFor, List.mem_flatMap, List.mem_filter, List.mem_map, Bool.and_eq_true,
    beq_iff_eq, bne_iff_ne,
    ne_eq, Prod.exists]
  constructor
  · rintro ⟨id, u', ⟨hm, rfl⟩, row, ⟨hr, rfl, hk⟩, rfl⟩
    exact ⟨row, hr, hk, hm, rfl⟩
  · rintro ⟨row, hr, hk, hm, rfl⟩
    exact ⟨row.id, u, ⟨hm, rfl⟩, row, ⟨hr, rfl, hk⟩, rfl⟩

/-- A conversation is listed for a user. -/
def Visible (st : Store) (u id : Units) : Prop := ∃ c ∈ st.conversationsFor u, c.id = id

theorem visible_iff : st.Visible u id ↔
    (∃ row ∈ st.conversations.rows, row.id = id ∧ row.kind ≠ .everyone) ∧
    (id, u) ∈ st.members.rows := by
  constructor
  · rintro ⟨c, hc, rfl⟩
    obtain ⟨row, hr, hk, hm, rfl⟩ := mem_conversationsFor.mp hc
    exact ⟨⟨row, hr, rfl, hk⟩, hm⟩
  · rintro ⟨⟨row, hr, rfl, hk⟩, hm⟩
    exact ⟨st.summaryFor u row, mem_conversationsFor.mpr ⟨row, hr, hk, hm, rfl⟩, rfl⟩

/-! ### What a stopped operation leaves -/

/-- Both users are members of their direct conversation. -/
def Joined (st : Store) (a b : Units) : Prop :=
  (directConversationId a b, a) ∈ st.members.rows ∧ (directConversationId a b, b) ∈ st.members.rows

/-- A call of `ensureDirect` makes both users members, unless it finds the conversation. -/
theorem joined_ensureDirect (now : Units) :
    (st.ensureDirect now a b).1.Joined a b ↔ st.hasDirect (directConversationId a b) = false ∨
    st.Joined a b := by
  cases hd : st.hasDirect (directConversationId a b) with
  | true =>
    rw [ensureDirect_of_hasDirect hd]
    simp only [Bool.true_eq_false, false_or]
  | false =>
    rw [ensureDirect_of_not hd]
    refine iff_of_true ⟨?_, ?_⟩ (.inl rfl)
    · exact Members.mem_rows_add.mpr (.inl (Members.mem_rows_add.mpr (.inr rfl)))
    · exact Members.mem_rows_add.mpr (.inr rfl)

/-- A restart makes no direct conversation. -/
theorem hasDirect_reopen (now : Units) : (st.reopen now).hasDirect id = st.hasDirect id := by
  rw [Bool.eq_iff_iff, hasDirect_iff, hasDirect_iff]
  constructor
  · rintro ⟨r, hr, hid, hk⟩
    rcases Conversations.mem_insertOrIgnore.mp hr with hr | ⟨-, rfl⟩
    · exact ⟨r, hr, hid, hk⟩
    · cases hk
  · rintro ⟨r, hr, hid, hk⟩
    exact ⟨r, Conversations.mem_insertOrIgnore.mpr (.inl hr), hid, hk⟩

/-- A row is a direct conversation if its id was not used. -/
theorem hasDirect_insertOrIgnore (hd : st.hasDirect id = false) {title : Units} :
    ({ st with conversations := st.conversations.insertOrIgnore ⟨id, .direct, title, now⟩ } :
      Store).hasDirect id = false ↔
      id ∈ st.conversations.rows.map (·.id) := by
  rw [← Bool.not_eq_true, hasDirect_iff]
  constructor
  · intro h
    by_contra hid
    exact h ⟨_, Conversations.mem_insertOrIgnore.mpr (.inr ⟨hid, rfl⟩), rfl, rfl⟩
  · rintro hid ⟨r, hr, he, hk⟩
    rcases Conversations.mem_insertOrIgnore.mp hr with hr | ⟨hn, -⟩
    · rw [hasDirect_iff.mpr ⟨r, hr, he, hk⟩] at hd
      cases hd
    · exact hn hid

/-- **The condition** for a direct conversation: it is there with both users; or it is not,
and then its row cannot be made, or the process stops before the first statement, or after the
last, or before a statement that does nothing. -/
def Repairable (st : Store) (a b : Units) (k : ℕ) : Prop :=
  if st.hasDirect (directConversationId a b) then st.Joined a b
  else directConversationId a b ∈ st.conversations.rows.map (·.id) ∨ k = 0 ∨ 3 ≤ k ∨ k = 1 ∧
  st.Joined a b ∨
    k = 2 ∧ (a = b ∨ (directConversationId a b, b) ∈ st.members.rows)

/-- When the call after a restart makes both users members. -/
theorem joined_after_iff {k : ℕ} {now now' now'' : Units} :
    ((((Operation.ensureDirect now a b).stopped st k).reopen now').ensureDirect now'' a b).1.Joined
      a b ↔
      st.Repairable a b k := by
  rw [joined_ensureDirect, hasDirect_reopen, Repairable]
  cases hd : st.hasDirect (directConversationId a b) with
  | true =>
    have hs : (Operation.ensureDirect now a b).stopped st k = st := by
      simp only [Operation.stopped, Operation.statements, hd, if_true, List.take_nil]
      rfl
    rw [hs, hd, if_pos rfl]
    simp only [Bool.true_eq_false, false_or]
    rfl
  | false =>
    have hs : (Operation.ensureDirect now a b).stopped st k = Statement.runAll st (List.take k
        [.insertConversation ⟨directConversationId a b, .direct, [], now⟩,
          .insertMember (directConversationId a b) a,
          .insertMember (directConversationId a b) b]) := by
      simp only [Operation.stopped, Operation.statements, hd, Bool.false_eq_true, if_false]
    have hrow := @hasDirect_insertOrIgnore _ _ now hd []
    rw [hs, if_neg (by decide)]
    match k with
    | 0 => exact iff_of_true (.inl hd) (.inr (.inl rfl))
    | 1 =>
      apply (or_congr hrow (Iff.rfl (a := st.Joined a b))).trans
      simp
    | 2 =>
      have hj : Joined
        (Statement.runAll st [.insertConversation ⟨directConversationId a b, .direct, [], now⟩,
          .insertMember (directConversationId a b) a]) a b ↔
          a = b ∨ (directConversationId a b, b) ∈ st.members.rows := by
        unfold Joined
        show (_ ∈ (st.members.add _ a).rows ∧ _ ∈ (st.members.add _ a).rows) ↔ _
        rw [Members.mem_rows_add, Members.mem_rows_add]
        simp [eq_comm, or_comm]
      apply (or_congr hrow hj).trans
      simp
    | k + 3 =>
      rw [List.take_of_length_le (Nat.le_add_left 3 k)]
      refine iff_of_true (.inr ⟨?_, ?_⟩) (.inr (.inr (.inl (by omega))))
      · exact Members.mem_rows_add.mpr (.inl (Members.mem_rows_add.mpr (.inr rfl)))
      · exact Members.mem_rows_add.mpr (.inr rfl)

/-- Nothing has the id. -/
def Unused (st : Store) (id : Units) : Prop :=
  id ∉ st.conversations.rows.map (·.id) ∧ ∀ u, (id, u) ∉ st.members.rows

/-- To whom a group is visible that was not made to its end. -/
theorem visible_after_iff {uuid name : Units} {memberIds : List Units} {k : ℕ} {now' : Units}
    (hn : st.Unused (Operation.groupId uuid)) :
    (((Operation.createGroup uuid now name memberIds).stopped st k).reopen now').Visible u
      (Operation.groupId uuid) ↔
      u ∈ memberIds.take (k - 1) := by
  rw [visible_iff]
  cases k with
  | zero =>
    refine iff_of_false ?_ (by simp)
    rintro ⟨-, hm⟩
    exact hn.2 u hm
  | succ k =>
    have hs : (Operation.createGroup uuid now name memberIds).stopped st (k + 1) =
        { st with
          conversations :=
            st.conversations.insertOrIgnore ⟨Operation.groupId uuid, .group, stored name, now⟩
          members := (memberIds.take k).foldl (fun m u => m.add (Operation.groupId uuid) u)
              st.members } := by
      unfold Operation.stopped Operation.statements
      rw [List.take_succ_cons, ← List.map_take]
      exact Statement.runAll_members ..
    have hrow : ∃ row ∈ (((Operation.createGroup uuid now name memberIds).stopped st (k + 1)).reopen
      now').conversations.rows,
        row.id = Operation.groupId uuid ∧ row.kind ≠ .everyone := by
      rw [hs]
      refine ⟨⟨Operation.groupId uuid, .group, stored name, now⟩, ?_, rfl, nofun⟩
      exact Conversations.mem_insertOrIgnore.mpr
        (.inl (Conversations.mem_insertOrIgnore.mpr (.inr ⟨hn.1, rfl⟩)))
    rw [and_iff_right hrow, hs, Nat.add_sub_cancel]
    show (_ : Units × Units) ∈ (List.foldl _ st.members _).rows ↔ _
    rw [Members.mem_rows_addAll, or_iff_right (hn.2 u)]
    constructor
    · rintro ⟨u', hu, he⟩
      cases he
      exact hu
    · intro hu
      exact ⟨u, hu, rfl⟩

/-- Some members of a list are all of them. -/
theorem all_take_iff {memberIds : List Units} {k : ℕ} :
    ((∃ u ∈ memberIds, u ∈ memberIds.take k) → ∀ u ∈ memberIds, u ∈ memberIds.take k) ↔
      k = 0 ∨ ∀ u ∈ memberIds, u ∈ memberIds.take k := by
  constructor
  · intro h
    cases memberIds with
    | nil => exact .inr nofun
    | cons v memberIds =>
      cases k with
      | zero => exact .inl rfl
      | succ k => exact .inr (h ⟨v, List.mem_cons_self, List.mem_cons_self⟩)
  · rintro (rfl | h)
    · rintro ⟨u, -, hu⟩
      cases hu
    · exact fun _ => h

end Store

/-- **Crashes**: after a restart the call of `ensureDirect` makes both users members, and a new
group is visible to all of its members or to none, just if the process has not stopped where it
must not. -/
theorem repaired_or_hidden_iff (st : Store) (a b uuid name : Units) (memberIds : List Units) (k : ℕ)
    (now restarted again : Units) (hn : st.Unused (Operation.groupId uuid)) :
    (((((Operation.ensureDirect now a b).stopped st k).reopen restarted).ensureDirect again a
      b).1.Joined a b ↔
      st.Repairable a b k) ∧
    (((∃ u ∈ memberIds,
      (((Operation.createGroup uuid now name memberIds).stopped st k).reopen restarted).Visible u
          (Operation.groupId uuid)) →
        ∀ u ∈ memberIds,
        (((Operation.createGroup uuid now name memberIds).stopped st k).reopen restarted).Visible u
          (Operation.groupId uuid)) ↔
      k ≤ 1 ∨ ∀ u ∈ memberIds, u ∈ memberIds.take (k - 1)) := by
  refine ⟨Store.joined_after_iff, ?_⟩
  simp only [Store.visible_after_iff hn]
  rw [Store.all_take_iff]
  refine or_congr ?_ Iff.rfl
  omega

/-- A new database, and a group of two. -/
theorem repaired_or_hidden_new :
    ((((Operation.ensureDirect [] [3] [6]).stopped (.init []) 3).reopen []).ensureDirect [] [3]
      [6]).1.Joined [3] [6] ∧
      (∀ u ∈ [[3], [6]],
        (((Operation.createGroup [7] [] [] [[3], [6]]).stopped (.init []) 3).reopen []).Visible u
        (Operation.groupId [7])) := by
  have h := repaired_or_hidden_iff (.init []) [3] [6] [7] [] [[3], [6]] 3 [] [] []
    ⟨by decide, fun _ => List.not_mem_nil⟩
  refine ⟨h.1.mpr ?_, h.2.mpr (.inr (by decide)) ⟨[3], List.mem_cons_self, ?_⟩⟩
  · rw [Store.Repairable, if_neg (by decide)]
    exact .inr (.inr (.inl le_rfl))
  · exact (Store.visible_after_iff ⟨by decide, fun _ => List.not_mem_nil⟩).mpr (by decide)

/-- **A direct conversation may stay without members**, and a group without some of its: the
process stops after the row of the conversation, or before the last member. -/
theorem conversation_without_members :
    ¬ ((((Operation.ensureDirect [] [3] [6]).stopped (.init []) 1).reopen []).ensureDirect [] [3]
      [6]).1.Joined [3] [6] ∧
      (((Operation.createGroup [7] [] [] [[3], [6]]).stopped (.init []) 2).reopen []).Visible [3]
      (Operation.groupId [7]) ∧
      ¬ (((Operation.createGroup [7] [] [] [[3], [6]]).stopped (.init []) 2).reopen []).Visible [6]
      (Operation.groupId [7]) := by
  refine ⟨?_, ?_, ?_⟩
  · rintro ⟨h, -⟩
    revert h
    decide
  · exact (Store.visible_after_iff ⟨by decide, fun _ => List.not_mem_nil⟩).mpr (by decide)
  · exact fun h => absurd ((Store.visible_after_iff ⟨by decide, fun _ => List.not_mem_nil⟩).mp h)
      (by decide)

end ThreadLink.Gateway
