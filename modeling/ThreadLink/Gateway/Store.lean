import ThreadLink.Gateway.ClientProtocol
import Mathlib.Data.List.Sort

/-!
# What the gateway stores

The tables of `src/db.ts`, with the operations of `src/users.ts`,
`src/conversationManager.ts` and `src/messageStore.ts` on them.

## The model

* A table is the list of its rows in the order of insertion. A key that SQLite
  enforces is a field of the table, so that a table that breaks it cannot be built;
  an `INSERT` or `UPDATE` that would break one fails.
* `Env` has what the code takes from the platform: fresh ids, the clock, random bytes
  and `scrypt`. An id or a clock reading is numbered by the order of the draws.
* A statement that joins or filters returns its rows in the order of the rows it goes
  through; `ORDER BY` is a stable sort.
* SQLite stores a text as UTF-8, an unpaired surrogate as U+FFFD (`stored`), and
  `node:sqlite` gives it back up to the first U+0000 (`givenBack`). That is so of the texts
  that users choose, of messages and of the titles of groups; the ids that are drawn and the
  usernames and nicknames that are checked have no such characters.
* A hash is kept as bytes, not in hex.

## What is proved

* `Users.rename_of_free`, `Users.usernameOf_rename` — a rename to a name that no other
  account has succeeds, and changes that account's name only.
* `Users.usernameOf_insert` — a new account leaves the others' names alone.
* `givenBack_stored_iff` — which texts come back as they were given.
-/

namespace ThreadLink.Gateway

open Text

/-- What the platform provides. -/
structure Env where
  /-- `randomUUID`. -/
  uuid : ℕ → Units
  /-- `new Date().toISOString()`. -/
  now : ℕ → Units
  /-- `randomBytes(16)`. -/
  randomBytes : ℕ → Bytes
  /-- `scrypt`, of the UTF-8 bytes of a password and a salt. -/
  scrypt : Bytes → Bytes → Bytes

/-- A platform for runs on fixed inputs. -/
def Env.sample : Env where
  uuid n := [n.toUInt16]
  now n := [n.toUInt16]
  randomBytes n := [n.toUInt8]
  scrypt password _ := password

/-- One that draws no id twice. -/
def Env.unary : Env := { Env.sample with uuid := fun n => List.replicate n 1 }

theorem Env.uuid_unary : Function.Injective Env.unary.uuid := List.replicate_left_injective 1

/-! ### Texts -/

/-- A text as it is stored. -/
def stored (text : Units) : Units := utf8Decode (utf8Encode text)

/-- A stored text as it is given back. -/
def givenBack (text : Units) : Units := text.takeWhile (· != 0)

theorem stored_eq_iff {text : Units} : stored text = text ↔ isWellFormed text = true :=
  utf8Decode_utf8Encode_iff text

theorem length_stored (text : Units) : (stored text).length = text.length := by
  rw [stored, utf8Decode, utf8Encode, decodeChars_encodeChars, length_ofChars_toChars]

/-- What has been stored is stored as it is. -/
@[simp]
theorem stored_stored (text : Units) : stored (stored text) = stored text :=
  stored_eq_iff.mpr (isWellFormed_ofChars _)

/-- A text that is stored and given back as it is. -/
def Storable (text : Units) : Prop := isWellFormed text = true ∧ 0 ∉ text

instance (text : Units) : Decidable (Storable text) := inferInstanceAs (Decidable (_ ∧ _))

theorem givenBack_of_notMem {text : Units} (h : 0 ∉ text) : givenBack text = text := by
  refine List.takeWhile_eq_self_iff.mpr fun u hu => ?_
  have hne : u ≠ 0 := fun he => h (he ▸ hu)
  simpa using hne

/-- **Which texts come back** as they were given. -/
theorem givenBack_stored_iff {text : Units} : givenBack (stored text) = text ↔ Storable text := by
  constructor
  · intro h
    have hprefix : givenBack (stored text) <+: stored text := List.takeWhile_prefix _
    rw [h] at hprefix
    have hstored := hprefix.eq_of_length (length_stored text).symm
    refine ⟨stored_eq_iff.mp hstored.symm, fun hm => ?_⟩
    rw [← h] at hm
    simpa using List.mem_takeWhile_imp hm
  · rintro ⟨hw, hzero⟩
    rw [stored_eq_iff.mpr hw]
    exact givenBack_of_notMem hzero

/-! ### Accounts -/

/-- `PasswordRecord`. -/
structure PasswordRecord where
  /-- The hash. -/
  hash : Bytes
  /-- The salt. -/
  salt : Bytes
  deriving DecidableEq, Repr

/-- What `hashPassword` gives, with the given salt. -/
def hashPassword (env : Env) (password : Units) (salt : Bytes) : PasswordRecord :=
  ⟨env.scrypt (utf8Encode password) salt, salt⟩

/-- What `verifyPassword` gives. -/
def verifyPassword (env : Env) (password : Units) (record : PasswordRecord) : Bool :=
  env.scrypt (utf8Encode password) record.salt == record.hash

/-- A row of `users`. -/
structure UserRow where
  /-- The account. -/
  id : Units
  /-- Its username. -/
  username : Units
  /-- Its password. -/
  password : PasswordRecord
  /-- When it was made. -/
  createdAt : Units
  deriving DecidableEq, Repr

/-- The table `users`. -/
structure Users where
  /-- The rows. -/
  rows : List UserRow
  /-- `PRIMARY KEY`. -/
  idNodup : (rows.map (·.id)).Nodup
  /-- `UNIQUE`. -/
  usernameNodup : (rows.map (·.username)).Nodup

namespace Users

/-- The empty table. -/
def empty : Users := ⟨[], List.nodup_nil, List.nodup_nil⟩

/-- `findByUsername`. -/
def findByUsername (t : Users) (username : Units) : Option UserRow :=
  t.rows.find? fun r => r.username == username

/-- `findById`. -/
def findById (t : Users) (id : Units) : Option UserRow := t.rows.find? fun r => r.id == id

/-- The username an account has. -/
def usernameOf (t : Users) (id : Units) : Option Units := (t.findById id).map (·.username)

/-- `INSERT INTO users`. -/
def insert (t : Users) (row : UserRow) : Option Users :=
  if h : row.id ∉ t.rows.map (·.id) ∧ row.username ∉ t.rows.map (·.username) then
    some ⟨t.rows ++ [row],
      by
        rw [List.map_append]; exact List.nodup_append'.mpr ⟨t.idNodup, by simp, by simpa using h.1⟩,
      by
        rw [List.map_append]; exact List.nodup_append'.mpr
          ⟨t.usernameNodup, by simp, by simpa using h.2⟩⟩
  else none

/-- The rows after `UPDATE users SET username = ? WHERE id = ?`. -/
def setUsername (rows : List UserRow) (id username : Units) : List UserRow :=
  rows.map fun r => if r.id = id then { r with username := username } else r

/-- `UPDATE users SET username = ? WHERE id = ?`. -/
def update (t : Users) (id username : Units) : Option Users :=
  if h : ((setUsername t.rows id username).map (·.username)).Nodup then
    some ⟨setUsername t.rows id username,
      by
        have hid : (setUsername t.rows id username).map (·.id) = t.rows.map (·.id) := by
          rw [setUsername, List.map_map]
          exact List.map_congr_left fun r _ => by simp only [Function.comp_apply]; split_ifs <;> rfl
        rw [hid]; exact t.idNodup, h⟩
  else none

end Users

/-- A character of `USERNAME_RE`. -/
def isUsernameUnit (u : UInt16) : Bool :=
  (65 ≤ u.toNat && u.toNat ≤ 90) || (97 ≤ u.toNat && u.toNat ≤ 122) ||
  (48 ≤ u.toNat && u.toNat ≤ 57) ||
    u == 95 || u == 45

/-- `validateUsername`: the error, if there is one. -/
def validateUsername (username : Units) : Option Units :=
  if 1 ≤ username.length ∧ username.length ≤ 24 ∧ username.all isUsernameUnit then none
  else some (units "Username must be 1-24 characters: letters, digits, '_' or '-' only.")

/-- `MIN_PASSWORD_LENGTH`. -/
def minPasswordLength : ℕ := 8

/-- `MAX_PASSWORD_LENGTH`. -/
def maxPasswordLength : ℕ := 256

/-- `validatePassword`: the error, if there is one. -/
def validatePassword (password : Units) : Option Units :=
  if password.length < minPasswordLength then
    some (units "Password must be at least " ++ units (toString minPasswordLength) ++
      units " characters.")
  else if maxPasswordLength < password.length then some (units "Password is too long.")
  else none

/-- `UserStore.rename`; `none` if it throws. -/
def Users.rename (t : Users) (userId newUsername : Units) : Option Users :=
  match validateUsername newUsername with
  | some _ => none
  | none =>
    match t.findByUsername newUsername with
    | some existing => if existing.id ≠ userId then none else t.update userId newUsername
    | none => t.update userId newUsername

/-! ### Conversations -/

/-- A row of `conversations`. -/
structure ConversationRow where
  /-- The conversation. -/
  id : Units
  /-- Its kind. -/
  kind : ConversationKind
  /-- Its title. -/
  title : Units
  /-- When it was made. -/
  createdAt : Units
  deriving DecidableEq, Repr

/-- The table `conversations`. -/
structure Conversations where
  /-- The rows. -/
  rows : List ConversationRow
  /-- `PRIMARY KEY`. -/
  idNodup : (rows.map (·.id)).Nodup

/-- The table `conversation_members`: conversations and users. -/
structure Members where
  /-- The rows. -/
  rows : List (Units × Units)
  /-- `PRIMARY KEY`. -/
  nodup : rows.Nodup

/-- `INSERT OR IGNORE INTO conversations`. -/
def Conversations.insertOrIgnore (t : Conversations) (row : ConversationRow) : Conversations :=
  if h : row.id ∈ t.rows.map (·.id) then t
  else ⟨t.rows ++ [row], by
    rw [List.map_append]; exact List.nodup_append'.mpr ⟨t.idNodup, by simp, by simpa using h⟩⟩

/-- `addMember`. -/
def Members.add (t : Members) (conversationId userId : Units) : Members :=
  if h : (conversationId, userId) ∈ t.rows then t
  else ⟨t.rows ++ [(conversationId, userId)],
    List.nodup_append'.mpr ⟨t.nodup, by simp, by simpa using h⟩⟩

theorem Members.mem_rows_add {t : Members} {conversationId userId : Units} {r : Units × Units} :
    r ∈ (t.add conversationId userId).rows ↔ r ∈ t.rows ∨ r = (conversationId, userId) := by
  unfold Members.add
  split
  · rename_i h
    exact ⟨.inl, fun hr => hr.elim id fun he => he ▸ h⟩
  · simp

/-- The users that are members of a conversation. -/
def Members.of (t : Members) (conversationId : Units) : List Units :=
  (t.rows.filter fun r => r.1 == conversationId).map Prod.snd

/-- `PUBLIC_CONVERSATION_ID`. -/
def publicConversationId : Units := units "public"

/-- `directConversationId`: the pair is sorted by code units. -/
def directConversationId (a b : Units) : Units :=
  let (x, y) := if b < a then (b, a) else (a, b)
  units "direct:" ++ x ++ units ":" ++ y

/-- Both users have the same id for their conversation. -/
theorem directConversationId_comm (a b : Units) :
    directConversationId a b = directConversationId b a := by
  unfold directConversationId
  by_cases h : b < a
  · have h' : ¬ a < b := List.lt_asymm h
    simp only [if_pos h, if_neg h']
  · by_cases h' : a < b
    · simp only [if_pos h', if_neg h]
    · have he : a = b := List.le_antisymm (List.not_lt.mp h) (List.not_lt.mp h')
      subst he
      rfl

/-! ### Messages -/

/-- The table `messages`. A row has the fields of its summary. -/
abbrev Messages := List MessageSummary

/-- The database. -/
structure Store where
  /-- `users`. -/
  users : Users
  /-- `conversations`. -/
  conversations : Conversations
  /-- `conversation_members`. -/
  members : Members
  /-- `messages`. -/
  messages : Messages

namespace Store

/-- A database that `openDatabase` has just created. -/
def init (createdAt : Units) : Store where
  users := .empty
  conversations := ⟨[⟨publicConversationId, .everyone, units "Public Chat", createdAt⟩], by simp⟩
  members := ⟨[], List.nodup_nil⟩
  messages := []

/-- `publicConversation`. -/
def publicConversation (onlineUserIds : List Units) : ConversationSummary :=
  ⟨publicConversationId, .everyone, units "Public Chat", onlineUserIds⟩

/-- `hasDirect`. -/
def hasDirect (st : Store) (id : Units) : Bool :=
  st.conversations.rows.any fun r => r.id == id && r.kind == .direct

/-- `ensureDirect`. -/
def ensureDirect (st : Store) (now : Units) (a b : Units) : Store × ConversationSummary :=
  let id := directConversationId a b
  let st' :=
    if st.hasDirect id then st
    else
      { st with
        conversations := st.conversations.insertOrIgnore ⟨id, .direct, [], now⟩
        members := (st.members.add id a).add id b }
  (st', ⟨id, .direct, [], [a, b]⟩)

/-- `createGroup`, with the id it draws. The id is fresh, so the `INSERT` succeeds. -/
def createGroup (st : Store) (id now : Units) (name : Units) (memberIds : List Units) :
    Store × ConversationSummary :=
  ({ st with
      conversations := st.conversations.insertOrIgnore ⟨id, .group, stored name, now⟩
      members := memberIds.foldl (fun m userId => m.add id userId) st.members },
    ⟨id, .group, name, memberIds⟩)

/-- `getGroup`: the members of a group. -/
def getGroup (st : Store) (id : Units) : Option (List Units) :=
  if st.conversations.rows.any fun r => r.id == id && r.kind == .group then some (st.members.of id)
  else none

/-- The title `conversationsFor` gives a row: of a direct conversation, the username of
the other member, if there is one and it is not empty. -/
def titleFor (st : Store) (userId : Units) (row : ConversationRow) (memberIds : List Units) :
    Units :=
  let title := givenBack row.title
  if row.kind = .direct then
    match memberIds.find? fun id => id != userId with
    | none => title
    | some otherId =>
      if otherId.isEmpty then title
      else
        match st.users.usernameOf otherId with
        | none => title
        | some username => if username.isEmpty then title else username
  else title

/-- `conversationsFor`. -/
def conversationsFor (st : Store) (userId : Units) : List ConversationSummary :=
  (st.members.rows.filter fun m => m.2 == userId).flatMap fun m =>
    (st.conversations.rows.filter fun c => c.id == m.1 && c.kind != .everyone).map fun row =>
      let memberIds := st.members.of row.id
      ⟨row.id, row.kind, st.titleFor userId row memberIds, memberIds⟩

/-- The row of `messages` that `MessageStore.append` inserts. -/
def messageRow (message : MessageSummary) : MessageSummary :=
  { message with text := stored message.text }

/-- `MessageStore.append`, with the id and the time it draws. -/
def append (st : Store) (message : MessageSummary) : Store :=
  { st with messages := st.messages ++ [messageRow message] }

/-- `toSummary`, of a row as it is given back. -/
def toSummary (row : MessageSummary) : MessageSummary := { row with text := givenBack row.text }

/-- The rows of `historyForUser`. -/
def historyRows (st : Store) (userId : Units) : List MessageSummary :=
  (st.messages.filter fun m =>
    m.conversationId == publicConversationId ||
      st.members.rows.contains (m.conversationId, userId)).mergeSort
    fun m m' => decide (m.timestamp ≤ m'.timestamp)

/-- `historyForUser`. -/
def historyForUser (st : Store) (userId : Units) : List MessageSummary :=
  (st.historyRows userId).map toSummary

end Store

/-! ### Conversations and their members -/

/-- The members of a new group are those it is made with. -/
theorem Members.mem_rows_addAll {t : Members} {conversationId : Units} {userIds : List Units}
    {r : Units × Units} :
    r ∈ (userIds.foldl (fun m userId => m.add conversationId userId) t).rows ↔
      r ∈ t.rows ∨ ∃ userId ∈ userIds, r = (conversationId, userId) := by
  induction userIds generalizing t with
  | nil => simp
  | cons userId userIds ih =>
    rw [List.foldl_cons, ih, Members.mem_rows_add, or_assoc]
    simp only [List.mem_cons, or_and_right, exists_or, exists_eq_left]

theorem Members.mem_of {t : Members} {conversationId userId : Units} :
    userId ∈ t.of conversationId ↔ (conversationId, userId) ∈ t.rows := by
  simp [Members.of]

theorem Members.of_add {t : Members} {conversationId userId : Units}
    (h : (conversationId, userId) ∉ t.rows) :
    (t.add conversationId userId).of conversationId = t.of conversationId ++ [userId] := by
  simp [Members.of, Members.add, h]

theorem Members.add_of_mem {t : Members} {conversationId userId : Units}
    (h : (conversationId, userId) ∈ t.rows) : t.add conversationId userId = t := by
  rw [Members.add, dif_pos h]

/-- A new member of one conversation is none of another. -/
theorem Members.of_add_of_ne {t : Members} {conversationId id : Units} (h : id ≠ conversationId)
    (userId : Units) : (t.add conversationId userId).of id = t.of id := by
  unfold Members.add
  split
  · rfl
  · simp [Members.of, h.symm]

theorem Members.of_addAll_of_ne {t : Members} {conversationId id : Units} (h : id ≠ conversationId)
    (userIds : List Units) :
    (userIds.foldl (fun m userId => m.add conversationId userId) t).of id = t.of id := by
  induction userIds generalizing t with
  | nil => rfl
  | cons userId userIds ih => rw [List.foldl_cons, ih, Members.of_add_of_ne h]

theorem Conversations.mem_insertOrIgnore {t : Conversations} {row r : ConversationRow} :
    r ∈ (t.insertOrIgnore row).rows ↔ r ∈ t.rows ∨ row.id ∉ t.rows.map (·.id) ∧ r = row := by
  unfold Conversations.insertOrIgnore
  split
  · rename_i h
    exact ⟨.inl, fun hr => hr.resolve_right fun hn => hn.1 h⟩
  · rename_i h
    simp [h]

theorem Conversations.mem_ids_insertOrIgnore {t : Conversations} {row : ConversationRow}
    {id : Units} :
    id ∈ (t.insertOrIgnore row).rows.map (·.id) ↔ id ∈ t.rows.map (·.id) ∨ id = row.id := by
  unfold Conversations.insertOrIgnore
  split
  · rename_i h
    exact ⟨.inl, fun hid => hid.elim (fun hid => hid) fun he => he ▸ h⟩
  · rw [List.map_append, List.mem_append, List.map_singleton, List.mem_singleton]

/-- What the ids of the conversations of a kind start with. -/
def ConversationKind.label : ConversationKind → Units
  | .everyone => publicConversationId
  | .direct => units "direct:"
  | .group => units "group:"

/-- The id of a conversation tells its kind. -/
theorem ConversationKind.eq_of_label {k k' : ConversationKind} {id : Units} (h : k.label <+: id)
    (h' : k'.label <+: id) : k = k' := by
  rcases List.prefix_or_prefix_of_prefix h h' with h | h
  all_goals cases k <;> cases k' <;> first | rfl | exact absurd h (by decide)

theorem label_directConversationId (a b : Units) :
    ConversationKind.direct.label <+: directConversationId a b := by
  unfold directConversationId
  split
  rw [List.append_assoc, List.append_assoc]
  exact List.prefix_append ..

namespace Store

variable {st : Store} {a b id now name : Units} {memberIds : List Units}

/-- What is in a history. -/
theorem mem_historyForUser {userId : Units} {m : MessageSummary} :
    m ∈ st.historyForUser userId ↔ ∃ row ∈ st.messages, toSummary row = m ∧
      (row.conversationId = publicConversationId ∨
        (row.conversationId, userId) ∈ st.members.rows) := by
  simp only [historyForUser, historyRows, List.mem_map, List.mem_mergeSort, List.mem_filter,
    Bool.or_eq_true, beq_iff_eq, List.contains_iff_mem]
  constructor
  · rintro ⟨row, ⟨h, hv⟩, he⟩
    exact ⟨row, h, he, hv⟩
  · rintro ⟨row, h, he, hv⟩
    exact ⟨row, ⟨h, hv⟩, he⟩

theorem hasDirect_iff :
    st.hasDirect id = true ↔ ∃ r ∈ st.conversations.rows, r.id = id ∧ r.kind = .direct := by
  simp [hasDirect]

theorem getGroup_eq_some : st.getGroup id = some memberIds ↔
    (∃ r ∈ st.conversations.rows, r.id = id ∧ r.kind = .group) ∧ st.members.of id = memberIds := by
  simp [getGroup]

/-- The conversations are filed under ids of their kind, and members are those of
conversations. -/
structure Filed (st : Store) : Prop where
  /-- An id tells the kind. -/
  label : ∀ r ∈ st.conversations.rows, r.kind.label <+: r.id
  /-- A member belongs to a conversation. -/
  members : ∀ m ∈ st.members.rows, m.1 ∈ st.conversations.rows.map (·.id)

theorem filed_init (now : Units) : (init now).Filed where
  label r hr := by
    rw [List.mem_singleton.mp hr]
    exact List.prefix_rfl
  members _ h := absurd h List.not_mem_nil

/-- A row of its id is of its kind. -/
theorem Filed.kind (h : st.Filed) {r : ConversationRow} {k : ConversationKind}
    (hr : r ∈ st.conversations.rows) (hk : k.label <+: r.id) : r.kind = k :=
  ConversationKind.eq_of_label (h.label r hr) hk

/-- A conversation that is not there has no members. -/
theorem Filed.of_eq_nil (h : st.Filed) (hid : id ∉ st.conversations.rows.map (·.id)) :
    st.members.of id = [] := by
  apply List.eq_nil_iff_forall_not_mem.mpr
  intro userId hu
  exact hid (h.members _ (Members.mem_of.mp hu))

/-- A direct conversation that is not there has an id that is not used. -/
theorem Filed.not_mem_of_hasDirect (h : st.Filed)
    (hd : st.hasDirect (directConversationId a b) = false) :
    directConversationId a b ∉ st.conversations.rows.map (·.id) := by
  intro hm
  obtain ⟨r, hr, hid⟩ := List.mem_map.mp hm
  have hk := h.kind (k := .direct) hr (hid ▸ label_directConversationId a b)
  rw [hasDirect_iff.mpr ⟨r, hr, hid, hk⟩] at hd
  cases hd

theorem ensureDirect_of_hasDirect (hd : st.hasDirect (directConversationId a b) = true) :
    (st.ensureDirect now a b).1 = st := by
  unfold ensureDirect
  simp [hd]

theorem ensureDirect_of_not (hd : st.hasDirect (directConversationId a b) = false) :
    (st.ensureDirect now a b).1 =
      { st with
        conversations :=
          st.conversations.insertOrIgnore ⟨directConversationId a b, .direct, [], now⟩
        members := (st.members.add (directConversationId a b) a).add (directConversationId a b)
            b } := by
  unfold ensureDirect
  simp [hd]

theorem Filed.ensureDirect (h : st.Filed) (now a b : Units) :
    (st.ensureDirect now a b).1.Filed := by
  cases hd : st.hasDirect (directConversationId a b) with
  | true =>
    rw [ensureDirect_of_hasDirect hd]
    exact h
  | false =>
    rw [ensureDirect_of_not hd]
    constructor
    · intro r hr
      rcases Conversations.mem_insertOrIgnore.mp hr with hr | ⟨-, rfl⟩
      · exact h.label r hr
      · exact label_directConversationId a b
    · intro m hm
      apply Conversations.mem_ids_insertOrIgnore.mpr
      rcases Members.mem_rows_add.mp hm with hm | rfl
      · rcases Members.mem_rows_add.mp hm with hm | rfl
        · exact .inl (h.members m hm)
        · exact .inr rfl
      · exact .inr rfl

theorem Filed.createGroup (h : st.Filed) (id now name : Units) (memberIds : List Units) :
    (st.createGroup (units "group:" ++ id) now name memberIds).1.Filed := by
  constructor
  · intro r hr
    rcases Conversations.mem_insertOrIgnore.mp hr with hr | ⟨-, rfl⟩
    · exact h.label r hr
    · exact List.prefix_append ..
  · intro m hm
    apply Conversations.mem_ids_insertOrIgnore.mpr
    rcases Members.mem_rows_addAll.mp hm with hm | ⟨userId, -, rfl⟩
    · exact .inl (h.members m hm)
    · exact .inr rfl

end Store

/-! ### The names of the accounts -/

namespace Users

variable {t t' : Users} {id username : Units} {row : UserRow}

theorem findById_eq_some : t.findById id = some row ↔ row ∈ t.rows ∧ row.id = id := by
  constructor
  · intro h
    exact ⟨List.mem_of_find?_eq_some h, by simpa using List.find?_some h⟩
  · rintro ⟨h, rfl⟩
    cases hf : t.findById row.id with
    | none =>
      rw [findById, List.find?_eq_none] at hf
      exact absurd (hf row h) (by simp)
    | some row' =>
      have h' : row' ∈ t.rows ∧ row'.id = row.id :=
        ⟨List.mem_of_find?_eq_some hf, by simpa using List.find?_some hf⟩
      rw [List.inj_on_of_nodup_map t.idNodup h'.1 h h'.2]

theorem findByUsername_eq_some :
    t.findByUsername username = some row ↔ row ∈ t.rows ∧ row.username = username := by
  constructor
  · intro h
    exact ⟨List.mem_of_find?_eq_some h, by simpa using List.find?_some h⟩
  · rintro ⟨h, rfl⟩
    cases hf : t.findByUsername row.username with
    | none =>
      rw [findByUsername, List.find?_eq_none] at hf
      exact absurd (hf row h) (by simp)
    | some row' =>
      have h' : row' ∈ t.rows ∧ row'.username = row.username :=
        ⟨List.mem_of_find?_eq_some hf, by simpa using List.find?_some hf⟩
      rw [List.inj_on_of_nodup_map t.usernameNodup h'.1 h h'.2]

theorem usernameOf_eq_some : t.usernameOf id = some username ↔
    ∃ row ∈ t.rows, row.id = id ∧ row.username = username := by
  rw [usernameOf, Option.map_eq_some_iff]
  constructor
  · rintro ⟨row, h, hu⟩
    obtain ⟨h1, h2⟩ := findById_eq_some.mp h
    exact ⟨row, h1, h2, hu⟩
  · rintro ⟨row, h1, h2, hu⟩
    exact ⟨row, findById_eq_some.mpr ⟨h1, h2⟩, hu⟩

/-- The ids of the accounts. -/
def ids (t : Users) : List Units := t.rows.map (·.id)

theorem mem_ids_of_usernameOf (h : t.usernameOf id = some username) : id ∈ t.ids := by
  obtain ⟨row, hr, hid, -⟩ := usernameOf_eq_some.mp h
  exact List.mem_map.mpr ⟨row, hr, hid⟩

/-- An account that can be inserted has a new id and a new name. -/
theorem insert_eq_some (h : t.insert row = some t') :
    row.id ∉ t.ids ∧ row.username ∉ t.rows.map (·.username) ∧ t'.rows = t.rows ++ [row] := by
  unfold insert at h
  split at h
  · rename_i hn
    exact ⟨hn.1, hn.2, (Option.some.inj h) ▸ rfl⟩
  · cases h

theorem rows_insert (h : t.insert row = some t') : t'.rows = t.rows ++ [row] :=
  (insert_eq_some h).2.2

theorem ids_setUsername (rows : List UserRow) (id username : Units) :
    (setUsername rows id username).map (·.id) = rows.map (·.id) := by
  rw [setUsername, List.map_map]
  apply List.map_congr_left
  intro r _
  simp only [Function.comp_apply]
  split_ifs <;> rfl

theorem ids_update (h : t.update id username = some t') : t'.ids = t.ids := by
  unfold update at h
  split at h
  · rw [← Option.some.inj h]
    exact ids_setUsername ..
  · cases h

/-- A rename changes no id. -/
theorem ids_rename (t : Users) (id username : Units) :
    ((t.rename id username).getD t).ids = t.ids := by
  cases h : t.rename id username with
  | none => rfl
  | some t' =>
    unfold rename at h
    split at h
    · cases h
    · split at h
      · split at h
        · cases h
        · exact ids_update h
      · exact ids_update h

/-- Two accounts do not have the same name. -/
theorem id_unique {id' : Units} (h : t.usernameOf id = some username)
    (h' : t.usernameOf id' = some username) : id = id' := by
  obtain ⟨r, h1, h2, h3⟩ := usernameOf_eq_some.mp h
  obtain ⟨r', h1', h2', h3'⟩ := usernameOf_eq_some.mp h'
  rw [← h2, ← h2', List.inj_on_of_nodup_map t.usernameNodup h1 h1' (by rw [h3, h3'])]

theorem usernameOf_congr (h : ∀ r, r ∈ t'.rows ∧ r.id = id → r ∈ t.rows)
    (h' : ∀ r, r ∈ t.rows ∧ r.id = id → r ∈ t'.rows) : t'.usernameOf id = t.usernameOf id := by
  apply Option.ext
  intro username
  rw [usernameOf_eq_some, usernameOf_eq_some]
  constructor
  · rintro ⟨r, hr, hid, hu⟩
    exact ⟨r, h r ⟨hr, hid⟩, hid, hu⟩
  · rintro ⟨r, hr, hid, hu⟩
    exact ⟨r, h' r ⟨hr, hid⟩, hid, hu⟩

/-- A new account has its name, and the others have theirs. -/
theorem usernameOf_insert (h : t.insert row = some t') (id : Units) :
    t'.usernameOf id = if id = row.id then some row.username else t.usernameOf id := by
  have hrows := rows_insert h
  split
  · rename_i he
    exact usernameOf_eq_some.mpr
      ⟨row, hrows ▸ List.mem_append_right _ (List.mem_singleton_self _), he.symm, rfl⟩
  · rename_i he
    apply usernameOf_congr
    · rintro r ⟨hr, hid⟩
      rw [hrows, List.mem_append, List.mem_singleton] at hr
      rcases hr with hr | rfl
      · exact hr
      · exact absurd hid.symm he
    · rintro r ⟨hr, _⟩
      rw [hrows]
      exact List.mem_append_left _ hr

theorem mem_setUsername {rows : List UserRow} {r : UserRow} : r ∈ setUsername rows id username ↔
    (r ∈ rows ∧ r.id ≠ id) ∨ ∃ r' ∈ rows, r'.id = id ∧ r = { r' with username := username } := by
  rw [setUsername, List.mem_map]
  constructor
  · rintro ⟨r', hr, rfl⟩
    split
    · rename_i he
      exact .inr ⟨r', hr, he, rfl⟩
    · rename_i he
      exact .inl ⟨hr, he⟩
  · rintro (⟨hr, he⟩ | ⟨r', hr, he, rfl⟩)
    · exact ⟨r, hr, if_neg he⟩
    · exact ⟨r', hr, if_pos he⟩

theorem rows_update (h : t.update id username = some t') :
    t'.rows = setUsername t.rows id username := by
  unfold update at h
  split at h
  · rw [← Option.some.inj h]
  · cases h

/-- What a rename has checked and written. -/
theorem rename_eq_some (h : t.rename id username = some t') : validateUsername username = none ∧
    (∀ r ∈ t.rows, r.username = username → r.id = id) ∧
    t'.rows = setUsername t.rows id username := by
  unfold rename at h
  split at h
  · cases h
  · rename_i hv
    refine ⟨hv, ?_⟩
    split at h
    · rename_i existing he
      obtain ⟨hm, hu⟩ := findByUsername_eq_some.mp he
      split at h
      · cases h
      · rename_i hid
        refine ⟨?_, rows_update h⟩
        intro r hr hru
        rw [List.inj_on_of_nodup_map t.usernameNodup hr hm (hru.trans hu.symm)]
        exact not_not.mp hid
    · rename_i he
      refine ⟨?_, rows_update h⟩
      intro r hr hru
      rw [findByUsername_eq_some.mpr ⟨hr, hru⟩] at he
      cases he

/-- A rename changes the name of that account only. -/
theorem usernameOf_rename (h : t.rename id username = some t') (id' : Units) :
    t'.usernameOf id' = if id' = id ∧ id ∈ t.ids then some username else t.usernameOf id' := by
  obtain ⟨-, -, hrows⟩ := rename_eq_some h
  split
  · rename_i he
    obtain ⟨rfl, hid⟩ := he
    obtain ⟨r, hr, hid⟩ := List.mem_map.mp hid
    exact usernameOf_eq_some.mpr ⟨{ r with username := username },
      hrows ▸ mem_setUsername.mpr (.inr ⟨r, hr, hid, rfl⟩), hid, rfl⟩
  · rename_i he
    apply usernameOf_congr
    · rintro r ⟨hr, hid⟩
      rw [hrows] at hr
      rcases mem_setUsername.mp hr with ⟨hr, -⟩ | ⟨r', hr', hid', rfl⟩
      · exact hr
      · exact absurd ⟨hid.symm.trans hid', List.mem_map.mpr ⟨r', hr', hid'⟩⟩ he
    · rintro r ⟨hr, hid⟩
      rw [hrows]
      refine mem_setUsername.mpr
        (.inl ⟨hr, fun hid' => he ⟨hid.symm.trans hid', List.mem_map.mpr ⟨r, hr, hid'⟩⟩⟩)

theorem nodup_setUsername {rows : List UserRow} (hid : (rows.map (·.id)).Nodup)
    (hn : (rows.map (·.username)).Nodup) (hf : ∀ r ∈ rows, r.username = username → r.id = id) :
    ((setUsername rows id username).map (·.username)).Nodup := by
  rw [setUsername, List.map_map]
  refine List.Nodup.map_on ?_ (List.Nodup.of_map _ hid)
  intro r hr r' hr' he
  simp only [Function.comp_apply] at he
  split at he <;> split at he
  · rename_i h h'
    exact List.inj_on_of_nodup_map hid hr hr' (h.trans h'.symm)
  · rename_i h h'
    exact absurd (hf r' hr' he.symm) h'
  · rename_i h h'
    exact absurd (hf r hr he) h
  · exact List.inj_on_of_nodup_map hn hr hr' he

/-- **A rename to a name that no other account has** succeeds. -/
theorem rename_of_free (hv : validateUsername username = none)
    (hf : ∀ r ∈ t.rows, r.username = username → r.id = id) : (t.rename id username).isSome := by
  have hu : (t.update id username).isSome := by
    rw [update, dif_pos (nodup_setUsername t.idNodup t.usernameNodup hf)]
    rfl
  unfold rename
  rw [hv]
  cases he : t.findByUsername username with
  | none => exact hu
  | some existing =>
    obtain ⟨hm, hn⟩ := findByUsername_eq_some.mp he
    dsimp only
    rw [if_neg (not_not.mpr (hf existing hm hn))]
    exact hu

end Users

end ThreadLink.Gateway
