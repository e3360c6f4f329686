import ThreadLink.Gateway.Statements

/-!
# Who is in which conversation

Three tables say what a user sees: the rows of the conversations, those of their members, and the
messages. This module has what a sequence of operations leaves in them, against the operations
themselves: an operation is on a conversation and may make it with certain users.

## What is proved

* `recorded_of_lawful` — the tables say of every conversation by which operations it was made, and
  who is in it.
* `Agree.runAll` — operations on other conversations do not touch what a user sees.
* `lists_its_own` — a user gets the conversations that were made with it, each once and with
  exactly its members, and the messages of these and of the public one; nothing that others do
  changes this. The messages come back as they were appended exactly if SQLite keeps their texts.
* `message_comes_back_cut` — one that does not.
-/

namespace ThreadLink.Gateway

open Text

/-- `:`. -/
def colon : UInt16 := 58

/-- The id of a direct conversation tells the two users. -/
theorem directConversationId_inj {a b a' b' : Units} (ha : colon ∉ a ∧ colon ∉ b)
    (ha' : colon ∉ a' ∧ colon ∉ b') (h : directConversationId a b = directConversationId a' b') :
    a = a' ∧ b = b' ∨ a = b' ∧ b = a' := by
  have key {x y x' y' : Units} (hx : colon ∉ x) (hx' : colon ∉ x')
      (h : units "direct:" ++ x ++ units ":" ++ y = units "direct:" ++ x' ++ units ":" ++ y') :
      x = x' ∧ y = y' := by
    rw [List.append_assoc, List.append_assoc, List.append_assoc, List.append_assoc,
      List.append_cancel_left_eq] at h
    have hs : Text.splitFirst colon (x ++ colon :: y) = Text.splitFirst colon (x' ++ colon :: y') :=
      congrArg _ h
    rw [Text.splitFirst_append hx, Text.splitFirst_append hx'] at hs
    exact Prod.mk.inj hs
  unfold directConversationId at h
  split_ifs at h
  · obtain ⟨rfl, rfl⟩ := key ha.2 ha'.2 h
    exact .inl ⟨rfl, rfl⟩
  · obtain ⟨rfl, rfl⟩ := key ha.2 ha'.1 h
    exact .inr ⟨rfl, rfl⟩
  · obtain ⟨rfl, rfl⟩ := key ha.1 ha'.2 h
    exact .inr ⟨rfl, rfl⟩
  · obtain ⟨rfl, rfl⟩ := key ha.1 ha'.1 h
    exact .inl ⟨rfl, rfl⟩

namespace Operation

/-- Do the operations, one after the other. -/
def runAll (st : Store) (ops : List Operation) : Store := ops.foldl run st

/-- The conversation that an operation is on. -/
def conversationId : Operation → Units
  | .ensureDirect _ a b => directConversationId a b
  | .createGroup uuid _ _ _ => groupId uuid
  | .append message => message.conversationId

/-- The kind of the conversation that an operation makes. -/
def makes? : Operation → Option ConversationKind
  | .ensureDirect .. => some .direct
  | .createGroup .. => some .group
  | .append _ => none

/-- An operation makes a conversation with a user. -/
def involves (u : Units) : Operation → Bool
  | .ensureDirect _ a b => u == a || u == b
  | .createGroup _ _ _ memberIds => memberIds.contains u
  | .append _ => false

/-- The message that an operation appends. -/
def appended? : Operation → Option MessageSummary
  | .append message => some message
  | _ => none

/-- The id that an operation draws for a group. -/
def uuid? : Operation → Option Units
  | .createGroup uuid _ _ _ => some uuid
  | _ => none

/-- The ids, names and times of an operation, which users do not choose. -/
def ids : Operation → List Units
  | .ensureDirect now a b => [now, a, b]
  | .createGroup uuid now _ memberIds => uuid :: now :: memberIds
  | .append m =>
    m.id :: m.conversationId :: m.timestamp :: (m.senderId.toList ++ m.senderUsername.toList)

/-- The user ids have no colon, the ids that are drawn are fresh, and what users do not choose is
given back as it is: `randomUUID`, `toISOString` and the checks of the names let nothing else
pass. -/
structure Lawful (ops : List Operation) : Prop where
  /-- The users of the direct conversations. -/
  colon : ∀ now a b, .ensureDirect now a b ∈ ops → colon ∉ a ∧ colon ∉ b
  /-- The groups. -/
  groups : (ops.filterMap uuid?).Nodup
  /-- The messages. -/
  messages : ((ops.filterMap appended?).map (·.id)).Nodup
  /-- What is given back. -/
  ids : ∀ op ∈ ops, ∀ id ∈ op.ids, Storable id

/-- A user is in a conversation: it is public, or an operation has made it with the user. -/
def isIn (ops : List Operation) (u id : Units) : Bool :=
  id == publicConversationId || ops.any fun op => op.involves u && op.conversationId == id

variable {ops : List Operation} {op op' : Operation} {k k' : ConversationKind} {u id : Units}

theorem label_conversationId (h : op.makes? = some k) : k.label <+: op.conversationId := by
  cases op with
  | ensureDirect now a b =>
    cases h
    exact label_directConversationId a b
  | createGroup uuid now name memberIds =>
    cases h
    exact List.prefix_append ..
  | append => cases h

/-- An operation with a user makes a conversation. -/
theorem makes_of_involves (h : op.involves u = true) : ∃ k, op.makes? = some k ∧ k ≠ .everyone := by
  cases op with
  | ensureDirect => exact ⟨_, rfl, nofun⟩
  | createGroup => exact ⟨_, rfl, nofun⟩
  | append => cases h

/-- A value that occurs once is given by one element. -/
theorem eq_of_nodup_filterMap {α β : Type} {f : α → Option β} {l : List α} {a a' : α} {b : β}
    (h : (l.filterMap f).Nodup) (ha : a ∈ l) (ha' : a' ∈ l) (hf : f a = some b)
    (hf' : f a' = some b) : a = a' := by
  induction l with
  | nil => cases ha
  | cons c l ih =>
    have hne {d : α} (hd : d ∈ l) (hfd : f d = some b) : f c ≠ some b := by
      intro hc
      rw [List.filterMap_cons_some hc] at h
      exact (List.nodup_cons.mp h).1 (List.mem_filterMap.mpr ⟨d, hd, hfd⟩)
    have hl : (l.filterMap f).Nodup := by
      cases hc : f c with
      | none => rwa [List.filterMap_cons_none hc] at h
      | some x =>
        rw [List.filterMap_cons_some hc] at h
        exact (List.nodup_cons.mp h).2
    rcases List.mem_cons.mp ha with rfl | hal
    · rcases List.mem_cons.mp ha' with rfl | hal'
      · rfl
      · exact absurd hf (hne hal' hf')
    · rcases List.mem_cons.mp ha' with rfl | hal'
      · exact absurd hf' (hne hal hf)
      · exact ih hl hal hal'

/-- **One conversation is made with the same users**, however often. -/
theorem Lawful.involves_eq (h : Lawful ops) (hm : op ∈ ops) (hm' : op' ∈ ops)
    (hk : op.makes? = some k) (hk' : op'.makes? = some k')
    (hid : op.conversationId = op'.conversationId) :
    k = k' ∧ ∀ u, op.involves u = op'.involves u := by
  have hkk : k = k' :=
    ConversationKind.eq_of_label (label_conversationId hk) (hid ▸ label_conversationId hk')
  refine ⟨hkk, ?_⟩
  intro u
  subst hkk
  cases op with
  | ensureDirect now a b =>
    cases op' with
    | ensureDirect now' a' b' =>
      rcases directConversationId_inj (h.colon _ _ _ hm) (h.colon _ _ _ hm') hid with ⟨rfl, rfl⟩
      | ⟨rfl, rfl⟩
      · rfl
      · exact Bool.or_comm ..
    | createGroup => cases hk.trans hk'.symm
    | append => cases hk'
  | createGroup uuid now name memberIds =>
    cases op' with
    | ensureDirect => cases hk.trans hk'.symm
    | createGroup uuid' now' name' memberIds' =>
      obtain rfl : uuid = uuid' := List.append_cancel_left hid
      have he := eq_of_nodup_filterMap h.groups hm hm' (b := uuid) rfl rfl
      rw [he]
    | append => cases hk'
  | append => cases hk

theorem Lawful.sublist {ops' : List Operation} (h : Lawful ops) (hs : List.Sublist ops' ops) :
    Lawful ops' where
  colon now a b hm := h.colon now a b (hs.subset hm)
  groups := h.groups.sublist (hs.filterMap _)
  messages := h.messages.sublist ((hs.filterMap _).map _)
  ids op hm := h.ids op (hs.subset hm)

theorem runAll_append (st : Store) (ops : List Operation) (op : Operation) :
    runAll st (ops ++ [op]) = op.run (runAll st ops) := by
  rw [runAll, List.foldl_append]
  rfl

/-! ### What the tables record -/

/-- The tables of a database that was new when the operations began. -/
structure Recorded (ops : List Operation) (st : Store) : Prop where
  /-- A conversation is public, or an operation has made it. -/
  rows : ∀ id k, (∃ row ∈ st.conversations.rows, row.id = id ∧ row.kind = k) ↔
    k = .everyone ∧ id = publicConversationId ∨ ∃ op ∈ ops, op.makes? = some k ∧
      op.conversationId = id
  /-- A member is a user that an operation has made the conversation with. -/
  members : ∀ id u, (id, u) ∈ st.members.rows ↔
    ∃ op ∈ ops, op.involves u = true ∧ op.conversationId = id
  /-- The messages are those that were appended. -/
  messages : st.messages = (ops.filterMap appended?).map Store.messageRow

theorem recorded_init (now : Units) (users : Users) :
    Recorded [] { Store.init now with users := users } where
  rows id k := by
    constructor
    · rintro ⟨row, hr, rfl, rfl⟩
      rw [List.mem_singleton.mp hr]
      exact .inl ⟨rfl, rfl⟩
    · rintro (⟨rfl, rfl⟩ | ⟨op, hm, -⟩)
      · exact ⟨_, List.mem_singleton_self _, rfl, rfl⟩
      · cases hm
  members id u := by
    constructor
    · intro h
      cases h
    · rintro ⟨op, hm, -⟩
      cases hm
  messages := rfl

/-- A new conversation is recorded. -/
theorem Recorded.add {st : Store} {ops : List Operation} {op : Operation} {k : ConversationKind}
    {row : ConversationRow} {userIds : List Units} (h : Recorded ops st) (hk : op.makes? = some k)
    (hrow : row.kind = k) (hid : row.id = op.conversationId)
    (hu : ∀ u, op.involves u = true ↔ u ∈ userIds) (hn : row.id ∉ st.conversations.rows.map (·.id))
    (ha : op.appended? = none) :
    Recorded (ops ++ [op])
      { st with
        conversations := st.conversations.insertOrIgnore row
        members := userIds.foldl (fun m userId => m.add row.id userId) st.members } where
  rows id k' := by
    simp only [Conversations.mem_insertOrIgnore, List.mem_append, List.mem_singleton, or_and_right,
      exists_or,
      exists_eq_left, and_assoc, h.rows, or_assoc]
    refine or_congr Iff.rfl (or_congr Iff.rfl ?_)
    rw [hk, ← hid, ← hrow, Option.some_inj]
    constructor
    · rintro ⟨r, -, rfl, rfl, rfl⟩
      exact ⟨rfl, rfl⟩
    · rintro ⟨rfl, rfl⟩
      exact ⟨row, hn, rfl, rfl, rfl⟩
  members id u := by
    simp only [Members.mem_rows_addAll, List.mem_append, List.mem_singleton, or_and_right,
      exists_or, exists_eq_left,
      h.members]
    apply or_congr Iff.rfl
    rw [hu, ← hid]
    constructor
    · rintro ⟨u', hu', he⟩
      cases he
      exact ⟨hu', rfl⟩
    · rintro ⟨hu', rfl⟩
      exact ⟨u, hu', rfl⟩
  messages := by
    show st.messages = _
    rw [List.filterMap_append, List.filterMap_cons_none ha, List.filterMap_nil, List.append_nil,
      h.messages]

/-- A conversation that is there already stays as it is. -/
theorem Recorded.again {st : Store} (h : Recorded ops st) (hl : Lawful (ops ++ [op]))
    (hk : op.makes? = some k) (ha : op.appended? = none) (hm : op' ∈ ops)
    (hk' : op'.makes? = some k) (hid : op'.conversationId = op.conversationId) :
    Recorded (ops ++ [op]) st where
  rows id k' := by
    rw [h.rows]
    simp only [List.mem_append, List.mem_singleton, or_and_right, exists_or, exists_eq_left]
    refine or_congr Iff.rfl (or_iff_left_of_imp ?_).symm
    rintro ⟨hk2, rfl⟩
    exact ⟨op', hm, hk'.trans (hk.symm.trans hk2), hid⟩
  members id u := by
    rw [h.members]
    simp only [List.mem_append, List.mem_singleton, or_and_right, exists_or, exists_eq_left]
    refine (or_iff_left_of_imp ?_).symm
    rintro ⟨hu, rfl⟩
    have he :=
      (hl.involves_eq (List.mem_append_left _ hm)
        (List.mem_append_right _ (List.mem_singleton_self _)) hk' hk hid).2
    exact ⟨op', hm, (he u).trans hu, hid⟩
  messages := by
    rw [List.filterMap_append, List.filterMap_cons_none ha, List.filterMap_nil, List.append_nil,
      h.messages]

/-- The id of a conversation that no operation has made is not used. -/
theorem Recorded.not_mem {st : Store} (h : Recorded ops st) (hk : op.makes? = some k)
    (hne : k ≠ .everyone)
    (hn : ∀ op' ∈ ops, op'.makes? = some k → op'.conversationId ≠ op.conversationId) :
    op.conversationId ∉ st.conversations.rows.map (·.id) := by
  intro hm
  obtain ⟨row, hr, hid⟩ := List.mem_map.mp hm
  rcases (h.rows row.id row.kind).mp ⟨row, hr, rfl, rfl⟩ with ⟨-, hp⟩ | ⟨op', hm', hk', hid'⟩
  · refine hne (@ConversationKind.eq_of_label _ .everyone _ (label_conversationId hk) ?_)
    rw [← hid, hp]
    exact List.prefix_rfl
  · have hkk := @ConversationKind.eq_of_label _ k _ (label_conversationId hk') (by
      rw [hid', hid]
      exact label_conversationId hk)
    exact hn op' hm' (hkk ▸ hk') (hid'.trans hid)

theorem Recorded.run {st : Store} (h : Recorded ops st) (hl : Lawful (ops ++ [op])) :
    Recorded (ops ++ [op]) (op.run st) := by
  cases op with
  | ensureDirect now a b =>
    show Recorded _ (st.ensureDirect now a b).1
    cases hd : st.hasDirect (directConversationId a b) with
    | true =>
      rw [Store.ensureDirect_of_hasDirect hd]
      rcases (h.rows _ .direct).mp (Store.hasDirect_iff.mp hd) with ⟨hk, -⟩ | ⟨op', hm, hk, hid⟩
      · cases hk
      · exact h.again hl rfl rfl hm hk hid
    | false =>
      rw [Store.ensureDirect_of_not hd]
      have hn : (ensureDirect now a b).conversationId ∉ st.conversations.rows.map (·.id) := by
        refine h.not_mem rfl nofun fun op' hm hk hid => ?_
        have hd' : st.hasDirect (directConversationId a b) = true :=
          Store.hasDirect_iff.mpr ((h.rows _ .direct).mpr (.inr ⟨op', hm, hk, hid⟩))
        rw [hd'] at hd
        cases hd
      refine @Recorded.add st ops (.ensureDirect now a b) .direct
        ⟨directConversationId a b, .direct, [], now⟩ [a, b] h rfl rfl rfl ?_ hn rfl
      intro u
      simp [involves]
  | createGroup uuid now name memberIds =>
    have hn : (createGroup uuid now name memberIds).conversationId ∉ st.conversations.rows.map
        (·.id) := by
      refine h.not_mem rfl nofun fun op' hm hk hid => ?_
      cases op' with
      | createGroup uuid' now' name' memberIds' =>
        obtain rfl : uuid' = uuid := List.append_cancel_left hid
        have hg := hl.groups
        rw [List.filterMap_append] at hg
        exact (List.nodup_append'.mp hg).2.2 (List.mem_filterMap.mpr ⟨_, hm, rfl⟩)
          (List.mem_filterMap.mpr ⟨_, List.mem_singleton_self _, rfl⟩)
      | _ => cases hk
    refine @Recorded.add st ops (.createGroup uuid now name memberIds) .group
      ⟨groupId uuid, .group, stored name, now⟩ memberIds h rfl rfl rfl ?_ hn rfl
    intro u
    exact List.contains_iff_mem
  | append message =>
    refine ⟨fun id k => (h.rows id k).trans ?_, fun id u => (h.members id u).trans ?_, ?_⟩
    · simp [makes?]
    · simp [involves]
    · show st.messages ++ [Store.messageRow message] = _
      rw [List.filterMap_append, List.map_append, ← h.messages]
      rfl

/-- **The tables say** by which operations a conversation was made, and who is in it. -/
theorem recorded_of_lawful {now : Units} {users : Users} (hl : Lawful ops) :
    Recorded ops (runAll { Store.init now with users := users } ops) := by
  induction ops using List.reverseRecOn with
  | nil => exact recorded_init now users
  | append_singleton ops op ih =>
    rw [runAll_append]
    exact (ih (hl.sublist (List.sublist_append_left ..))).run hl

/-! ### What a user sees -/

theorem mem_summaries {st : Store} {c : ConversationSummary} (hc : c ∈ st.conversationsFor u) :
    (c.id, u) ∈ st.members.rows ∧
    (∃ row ∈ st.conversations.rows, row.id = c.id ∧ row.kind = c.kind) ∧
      c.kind ≠ .everyone ∧ c.memberIds = st.members.of c.id := by
  obtain ⟨row, hr, hk, hm, rfl⟩ := Store.mem_conversationsFor.mp hc
  exact ⟨hm, ⟨row, hr, rfl, rfl⟩, hk, rfl⟩

/-- A conversation is listed once. -/
theorem nodup_conversationsFor (st : Store) (u : Units) :
    ((st.conversationsFor u).map (·.id)).Nodup := by
  rw [Store.conversationsFor, List.map_flatMap, List.nodup_flatMap]
  constructor
  · intro m _
    rw [List.map_map]
    exact st.conversations.idNodup.sublist (List.filter_sublist.map _)
  · refine (st.members.nodup.filter _).imp_of_mem fun {m m'} hm hm' hne => ?_
    have hu : m.2 = m'.2 := by
      rw [beq_iff_eq.mp (List.mem_filter.mp hm).2, beq_iff_eq.mp (List.mem_filter.mp hm').2]
    intro id hid hid'
    simp only [List.mem_map, List.mem_filter, Bool.and_eq_true, beq_iff_eq,
      exists_exists_and_eq_and] at hid hid'
    obtain ⟨row, ⟨-, hr, -⟩, he⟩ := hid
    obtain ⟨row', ⟨-, hr', -⟩, he'⟩ := hid'
    exact hne (Prod.ext (hr.symm.trans (he.trans (he'.symm.trans hr'))) hu)

/-- A conversation that is listed was made with the user, and its members are those it was made
with. -/
theorem Recorded.sound {st : Store} {c : ConversationSummary} (h : Recorded ops st)
    (hl : Lawful ops) (hc : c ∈ st.conversationsFor u) :
    ∃ op ∈ ops, op.involves u = true ∧ op.makes? = some c.kind ∧
      op.conversationId = c.id ∧ c.memberIds.Nodup ∧ ∀ v, v ∈ c.memberIds ↔
        op.involves v = true := by
  obtain ⟨hm, hrow, hne, hmem⟩ := mem_summaries hc
  obtain ⟨op, hop, hu, hid⟩ := (h.members _ _).mp hm
  obtain ⟨k, hk, -⟩ := makes_of_involves hu
  have hkind : k = c.kind := by
    rcases (h.rows _ _).mp hrow with ⟨he, -⟩ | ⟨op', hop', hk', hid'⟩
    · exact absurd he hne
    · exact (hl.involves_eq hop hop' hk hk' (hid.trans hid'.symm)).1
  refine ⟨op, hop, hu, hkind ▸ hk, hid, ?_, ?_⟩
  · rw [hmem]
    refine List.Nodup.map_on (fun p hp q hq he => Prod.ext ?_ he) (st.members.nodup.filter _)
    rw [beq_iff_eq.mp (List.mem_filter.mp hp).2, beq_iff_eq.mp (List.mem_filter.mp hq).2]
  · intro v
    rw [hmem, Members.mem_of, h.members]
    constructor
    · rintro ⟨op', hop', hv, hid'⟩
      obtain ⟨k', hk', -⟩ := makes_of_involves hv
      rwa [(hl.involves_eq hop hop' hk hk' (hid.trans hid'.symm)).2]
    · intro hv
      exact ⟨op, hop, hv, hid⟩

/-- A conversation that was made with the user is listed. -/
theorem Recorded.complete {st : Store} (h : Recorded ops st) (hl : Lawful ops) (hop : op ∈ ops)
    (hu : op.involves u = true) :
    ∃ c ∈ st.conversationsFor u, c.id = op.conversationId ∧ op.makes? = some c.kind ∧
      ∀ v, v ∈ c.memberIds ↔ op.involves v = true := by
  obtain ⟨k, hk, hne⟩ := makes_of_involves hu
  obtain ⟨row, hr, hid, hkind⟩ := (h.rows op.conversationId k).mpr (.inr ⟨op, hop, hk, rfl⟩)
  have hm : (row.id, u) ∈ st.members.rows := (h.members _ _).mpr ⟨op, hop, hu, hid.symm⟩
  have hc := Store.mem_conversationsFor.mpr ⟨row, hr, hkind ▸ hne, hm, rfl⟩
  obtain ⟨op', hop', -, hk', hid', -, hmem⟩ := h.sound hl hc
  refine ⟨_, hc, hid, hk.trans (congrArg some hkind.symm), fun v => (hmem v).trans ?_⟩
  rw [(hl.involves_eq hop hop' hk hk' (hid.symm.trans hid'.symm)).2]

/-- The messages that a user gets are those of its conversations. -/
theorem Recorded.readable {st : Store} (h : Recorded ops st) (u id : Units) :
    (id == publicConversationId || st.members.rows.contains (id, u)) = isIn ops u id := by
  unfold isIn
  congr 1
  rw [Bool.eq_iff_iff, List.contains_iff_mem, h.members]
  simp

/-- What is given back of a message that has been appended. -/
def restored (m : MessageSummary) : MessageSummary := Store.toSummary (Store.messageRow m)

/-- The messages that have been appended to the conversations of a user. -/
def sentTo (ops : List Operation) (u : Units) : List MessageSummary :=
  (ops.filterMap appended?).filter fun m => isIn ops u m.conversationId

/-- The messages of a user, each once. -/
theorem Lawful.nodup_sentTo (hl : Lawful ops) (u : Units) : ((sentTo ops u).map (·.id)).Nodup :=
  hl.messages.sublist (List.filter_sublist.map _)

/-- The rows of the messages of the conversations of a user. -/
theorem filter_messageRow (P : Units → Bool) (l : List MessageSummary) :
    (l.map Store.messageRow).filter (fun m => P m.conversationId) =
      (l.filter fun m => P m.conversationId).map Store.messageRow :=
  List.filter_map

/-- **The history**: the messages of the conversations of the user, each once, in the order of
time, with the texts that SQLite gives back. -/
theorem Recorded.history {st : Store} (h : Recorded ops st) (hl : Lawful ops) (u : Units) :
    (st.historyForUser u).Perm ((sentTo ops u).map restored) ∧
      ((st.historyForUser u).map (·.id)).Nodup ∧
      (st.historyForUser u).Pairwise fun m m' => m.timestamp ≤ m'.timestamp := by
  have hp : (st.historyForUser u).Perm ((sentTo ops u).map restored) := by
    have hrows : (st.historyRows u).Perm ((sentTo ops u).map Store.messageRow) := by
      unfold Store.historyRows
      simp only [h.readable, h.messages, filter_messageRow (isIn ops u)]
      exact List.mergeSort_perm _ _
    have hmap := hrows.map Store.toSummary
    rwa [List.map_map] at hmap
  refine ⟨hp, ?_, ?_⟩
  · apply (hp.map _).nodup_iff.mpr
    rw [List.map_map]
    exact hl.nodup_sentTo u
  · have hs :=
      @List.pairwise_mergeSort _ (fun m m' : MessageSummary => decide (m.timestamp ≤ m'.timestamp))
      (fun a b c hab hbc => decide_eq_true
        (List.le_trans (of_decide_eq_true hab) (of_decide_eq_true hbc)))
      (fun a b => by
        rcases List.le_total a.timestamp b.timestamp with h | h
        · simp [h]
        · simp [h])
      (st.messages.filter fun m => m.conversationId == publicConversationId ||
        st.members.rows.contains (m.conversationId, u))
    exact List.pairwise_map.mpr (hs.imp fun hab => of_decide_eq_true hab)

/-- A message is given back as it was appended if its text is. -/
theorem restored_eq_iff {m : MessageSummary} : restored m = m ↔ Storable m.text := by
  rw [← givenBack_stored_iff]
  constructor
  · exact congrArg MessageSummary.text
  · intro h
    cases m
    exact congrArg (MessageSummary.mk _ _ _ _ · _) h

/-- **All messages are given back** as they were appended exactly if all texts are. -/
theorem restored_perm_iff {l : List MessageSummary} (h : (l.map (·.id)).Nodup) :
    (l.map restored).Perm l ↔ ∀ m ∈ l, Storable m.text := by
  constructor
  · intro hp m hm
    -- the id says which one it is
    have hr : restored m ∈ l := hp.subset (List.mem_map_of_mem hm)
    exact restored_eq_iff.mp (List.inj_on_of_nodup_map h hr hm rfl)
  · intro hs
    rw [List.map_congr_left fun m hm => restored_eq_iff.mpr (hs m hm), List.map_id']

end Operation

/-! ### What others do -/

/-- The row of a new id is added, and the others stay. -/
theorem Conversations.filter_insertOrIgnore (t : Conversations) (row : ConversationRow)
    (id : Units) :
    (t.insertOrIgnore row).rows.filter (fun r => r.id == id) =
      if row.id = id ∧ t.rows.filter (fun r => r.id == id) = [] then [row]
      else t.rows.filter fun r => r.id == id := by
  unfold Conversations.insertOrIgnore
  split
  · rename_i hm
    rw [if_neg]
    rintro ⟨rfl, he⟩
    obtain ⟨r, hr, hid⟩ := List.mem_map.mp hm
    exact List.filter_eq_nil_iff.mp he r hr (beq_iff_eq.mpr hid)
  · rename_i hm
    show List.filter _ (t.rows ++ [row]) = _
    rw [List.filter_append]
    by_cases hid : row.id = id
    · subst hid
      have he : t.rows.filter (fun r => r.id == row.id) = [] := by
        refine List.filter_eq_nil_iff.mpr fun r hr hb =>
          hm (List.mem_map.mpr ⟨r, hr, beq_iff_eq.mp hb⟩)
      rw [if_pos ⟨rfl, he⟩, he, List.filter_cons_of_pos (by simp)]
      rfl
    · rw [if_neg fun h => hid h.1, List.filter_cons_of_neg (by simpa using hid), List.filter_nil,
        List.append_nil]

/-- The members of a conversation, with one more. -/
theorem Members.of_add_eq (t : Members) (id id' x : Units) :
    (t.add id x).of id' = if id = id' ∧ x ∉ t.of id' then t.of id' ++ [x] else t.of id' := by
  by_cases he : id' = id
  · subst he
    by_cases hx : (id', x) ∈ t.rows
    · rw [Members.add_of_mem hx, if_neg fun h => h.2 (Members.mem_of.mpr hx)]
    · rw [Members.of_add hx, if_pos ⟨rfl, fun h => hx (Members.mem_of.mp h)⟩]
  · rw [Members.of_add_of_ne he, if_neg fun h => he h.1.symm]

/-- The conversations of a user, with one more member. -/
theorem Members.filter_add (t : Members) (id x u : Units) :
    (t.add id x).rows.filter (fun m => m.2 == u) =
      if x = u ∧ u ∉ t.of id then t.rows.filter (fun m => m.2 == u) ++ [(id, u)]
      else t.rows.filter fun m => m.2 == u := by
  by_cases hx : (id, x) ∈ t.rows
  · rw [Members.add_of_mem hx, if_neg]
    rintro ⟨rfl, hn⟩
    exact hn (Members.mem_of.mpr hx)
  · have hrows : (t.add id x).rows = t.rows ++ [(id, x)] := by
      rw [Members.add, dif_neg hx]
    rw [hrows, List.filter_append]
    by_cases hu : x = u
    · subst hu
      rw [if_pos ⟨rfl, fun h => hx (Members.mem_of.mp h)⟩, List.filter_cons_of_pos (by simp)]
      rfl
    · rw [if_neg fun h => hu h.1, List.filter_cons_of_neg (by simpa using hu), List.filter_nil,
        List.append_nil]

/-- Two databases agree on the conversations `M`, and on which of them a user is in. -/
structure Agree (u : Units) (M : Units → Prop) (st st' : Store) : Prop where
  /-- The accounts. -/
  users : st.users = st'.users
  /-- The conversations of the user. -/
  mine : st.members.rows.filter (fun m => m.2 == u) = st'.members.rows.filter fun m => m.2 == u
  /-- Their members. -/
  members : ∀ id, M id → st.members.of id = st'.members.of id
  /-- Their rows. -/
  rows : ∀ id, M id →
    st.conversations.rows.filter (fun r => r.id == id) = st'.conversations.rows.filter fun r =>
    r.id == id

namespace Agree

open Operation

variable {u id : Units} {M : Units → Prop} {st st' : Store}

/-- One statement runs on both. -/
theorem both (h : Agree u M st st') {s : Statement}
    (hs : ∀ id x, s = .insertMember id x → M id) : Agree u M (s.run st) (s.run st') := by
  cases s with
  | insertConversation row =>
    refine ⟨h.users, h.mine, h.members, ?_⟩
    intro id hid
    show List.filter _ (st.conversations.insertOrIgnore row).rows =
      List.filter _ (st'.conversations.insertOrIgnore row).rows
    rw [Conversations.filter_insertOrIgnore, Conversations.filter_insertOrIgnore, h.rows id hid]
  | insertMember id x =>
    have hid := hs id x rfl
    refine ⟨h.users, ?_, ?_, h.rows⟩
    · show List.filter _ (st.members.add id x).rows = List.filter _ (st'.members.add id x).rows
      rw [Members.filter_add, Members.filter_add, h.mine, h.members id hid]
    · intro id' hid'
      show (st.members.add id x).of id' = (st'.members.add id x).of id'
      rw [Members.of_add_eq, Members.of_add_eq, h.members id' hid']
  | insertMessage message => exact ⟨h.users, h.mine, h.members, h.rows⟩

/-- A statement runs on one, of another conversation and another user. -/
theorem left (h : Agree u M st st') {s : Statement}
    (hs : ∀ row, s = .insertConversation row → ¬ M row.id)
    (hs' : ∀ id x, s = .insertMember id x → ¬ M id ∧ x ≠ u) : Agree u M (s.run st) st' := by
  cases s with
  | insertConversation row =>
    refine ⟨h.users, h.mine, h.members, ?_⟩
    intro id hid
    have hne : row.id ≠ id := fun he => hs row rfl (he ▸ hid)
    show List.filter _ (st.conversations.insertOrIgnore row).rows = _
    rw [Conversations.filter_insertOrIgnore, if_neg fun h => hne h.1, h.rows id hid]
  | insertMember id x =>
    obtain ⟨hid, hx⟩ := hs' id x rfl
    refine ⟨h.users, ?_, ?_, h.rows⟩
    · show List.filter _ (st.members.add id x).rows = _
      rw [Members.filter_add, if_neg fun h => hx h.1, h.mine]
    · intro id' hid'
      have hne : id ≠ id' := fun he => hid (he ▸ hid')
      show (st.members.add id x).of id' = _
      rw [Members.of_add_eq, if_neg fun h => hne h.1, h.members id' hid']
  | insertMessage message => exact ⟨h.users, h.mine, h.members, h.rows⟩

theorem bothAll (h : Agree u M st st') {statements : List Statement}
    (hs : ∀ id x, .insertMember id x ∈ statements → M id) :
    Agree u M (Statement.runAll st statements) (Statement.runAll st' statements) := by
  induction statements generalizing st st' with
  | nil => exact h
  | cons s statements ih =>
    refine ih (h.both fun id x he => hs id x (he ▸ List.mem_cons_self)) fun id x hm =>
      hs id x (List.mem_cons_of_mem _ hm)

theorem leftAll (h : Agree u M st st') {statements : List Statement}
    (hs : ∀ row, .insertConversation row ∈ statements → ¬ M row.id)
    (hs' : ∀ id x, .insertMember id x ∈ statements → ¬ M id ∧ x ≠ u) :
    Agree u M (Statement.runAll st statements) st' := by
  induction statements generalizing st with
  | nil => exact h
  | cons s statements ih =>
    refine ih (h.left (fun row he => hs row (he ▸ List.mem_cons_self)) fun id x he =>
      hs' id x (he ▸ List.mem_cons_self))
      (fun row hm => hs row (List.mem_cons_of_mem _ hm)) fun id x hm =>
      hs' id x (List.mem_cons_of_mem _ hm)

/-- What the statements of an operation are about. -/
theorem mem_statements {op : Operation} :
    (∀ row, .insertConversation row ∈ op.statements st → op.makes?.isSome ∧
      row.id = op.conversationId) ∧
      ∀ id x, .insertMember id x ∈ op.statements st →
        op.makes?.isSome ∧ id = op.conversationId ∧ op.involves x = true := by
  cases op with
  | ensureDirect now a b =>
    unfold statements
    dsimp only
    split
    · exact ⟨nofun, nofun⟩
    · simp only [makes?, conversationId, involves, List.mem_cons, List.not_mem_nil, reduceCtorEq,
        or_false, false_or,
        Statement.insertConversation.injEq, Statement.insertMember.injEq, Bool.or_eq_true,
        beq_iff_eq, Option.isSome_some]
      constructor
      · rintro row rfl
        exact ⟨trivial, rfl⟩
      · rintro id x (⟨rfl, rfl⟩ | ⟨rfl, rfl⟩)
        · exact ⟨trivial, rfl, .inl rfl⟩
        · exact ⟨trivial, rfl, .inr rfl⟩
  | createGroup uuid now name memberIds =>
    simp only [statements, makes?, conversationId, involves, List.mem_cons, List.mem_map,
      reduceCtorEq, and_false,
      exists_false, or_false, false_or, Statement.insertConversation.injEq,
      Statement.insertMember.injEq,
      List.contains_iff_mem, Option.isSome_some]
    constructor
    · rintro row rfl
      exact ⟨trivial, rfl⟩
    · rintro id x ⟨x', hx, rfl, rfl⟩
      exact ⟨trivial, rfl, hx⟩
  | append message => simp [statements]

/-- An operation on a conversation of `M` has the same statements. -/
theorem statements_eq (h : Agree u M st st') {op : Operation}
    (hM : op.makes?.isSome → M op.conversationId) : op.statements st = op.statements st' := by
  cases op with
  | ensureDirect now a b =>
    have hd : st.hasDirect (directConversationId a b) =
        st'.hasDirect (directConversationId a b) := by
      have hrows := h.rows (directConversationId a b) (hM rfl)
      unfold Store.hasDirect
      rw [← List.any_filter, ← List.any_filter, hrows]
    unfold statements
    dsimp only
    rw [hd]
  | createGroup => rfl
  | append => rfl

theorem run_both (h : Agree u M st st') {op : Operation}
    (hM : op.makes?.isSome → M op.conversationId) : Agree u M (op.run st) (op.run st') := by
  rw [run_eq, run_eq, ← h.statements_eq hM]
  apply h.bothAll
  intro id x hm
  obtain ⟨hk, rfl, -⟩ := mem_statements.2 id x hm
  exact hM hk

theorem run_left (h : Agree u M st st') {op : Operation}
    (hM : op.makes?.isSome → ¬ M op.conversationId ∧ op.involves u = false) :
    Agree u M (op.run st) st' := by
  rw [run_eq]
  apply h.leftAll
  · intro row hm
    obtain ⟨hk, hid⟩ := mem_statements.1 row hm
    exact hid ▸ (hM hk).1
  · intro id x hm
    obtain ⟨hk, rfl, hx⟩ := mem_statements.2 id x hm
    refine ⟨(hM hk).1, ?_⟩
    rintro rfl
    rw [(hM hk).2] at hx
    cases hx

/-- **Operations on other conversations** may be left out. -/
theorem runAll (h : Agree u M st st') {ops : List Operation} {keep : Operation → Bool}
    (hM : ∀ op ∈ ops, op.makes?.isSome → (keep op = true → M op.conversationId) ∧
      (keep op = false → ¬ M op.conversationId ∧ op.involves u = false)) :
    Agree u M (Operation.runAll st ops) (Operation.runAll st' (ops.filter keep)) := by
  induction ops generalizing st st' with
  | nil => exact h
  | cons op ops ih =>
    have hop := hM op List.mem_cons_self
    have hops := fun op' hm => hM op' (List.mem_cons_of_mem op hm)
    cases hk : keep op with
    | true =>
      rw [List.filter_cons_of_pos hk]
      exact ih (h.run_both fun hmk => (hop hmk).1 hk) hops
    | false =>
      rw [List.filter_cons_of_neg (by rw [hk]; exact Bool.false_ne_true)]
      exact ih (h.run_left fun hmk => (hop hmk).2 hk) hops

/-- The same conversations are listed. -/
theorem conversationsFor_eq (h : Agree u M st st') (hM : ∀ id, (id, u) ∈ st.members.rows → M id) :
    st.conversationsFor u = st'.conversationsFor u := by
  unfold Store.conversationsFor
  rw [← h.mine]
  apply List.flatMap_congr
  intro m hm
  obtain ⟨hm, hu⟩ := List.mem_filter.mp hm
  have hid : M m.1 := hM m.1 (beq_iff_eq.mp hu ▸ hm)
  have hswap (rows : List ConversationRow) :
    rows.filter (fun c => c.id == m.1 && c.kind != .everyone) =
      (rows.filter fun c => c.id == m.1).filter fun c => c.kind != .everyone := by
    rw [List.filter_filter]
    exact List.filter_congr fun c _ => Bool.and_comm ..
  rw [hswap, hswap, h.rows m.1 hid]
  apply List.map_congr_left
  intro row hr
  have hrow : row.id = m.1 := beq_iff_eq.mp (List.mem_filter.mp (List.mem_filter.mp hr).1).2
  have hmem : st.members.of row.id = st'.members.of row.id := hrow ▸ h.members m.1 hid
  simp only [Store.titleFor, hmem, h.users]

/-- The user is in the same conversations. -/
theorem contains_eq (h : Agree u M st st') (id : Units) :
    st.members.rows.contains (id, u) = st'.members.rows.contains (id, u) := by
  have key (t : Members) : (id, u) ∈ t.rows ↔ (id, u) ∈ t.rows.filter fun m => m.2 == u := by
    simp
  rw [Bool.eq_iff_iff, List.contains_iff_mem, List.contains_iff_mem, key, h.mine, ← key]

end Agree

namespace Operation

variable {ops : List Operation} {op : Operation} {u : Units}

theorem messages_runAll (st : Store) (ops : List Operation) :
    (runAll st ops).messages =
      st.messages ++ (ops.filterMap appended?).map Store.messageRow := by
  induction ops using List.reverseRecOn with
  | nil => exact (List.append_nil _).symm
  | append_singleton ops op ih =>
    rw [runAll_append, List.filterMap_append, List.map_append, ← List.append_assoc, ← ih]
    cases op with
    | ensureDirect now a b =>
      show (Store.ensureDirect _ now a b).1.messages = _ ++ []
      unfold Store.ensureDirect
      rw [List.append_nil]
      dsimp only
      split <;> rfl
    | createGroup => exact (List.append_nil _).symm
    | append => rfl

/-- The messages of the operations that are kept. -/
theorem filter_appended (P : Units → Bool) (ops : List Operation) :
    ((ops.filter fun op => P op.conversationId).filterMap appended?).filter
      (fun m => P m.conversationId) =
      (ops.filterMap appended?).filter fun m => P m.conversationId := by
  induction ops with
  | nil => rfl
  | cons op ops ih =>
    cases hp : P op.conversationId with
    | true =>
      rw [List.filter_cons, if_pos hp]
      cases ha : op.appended? with
      | none => rw [List.filterMap_cons_none ha, List.filterMap_cons_none ha, ih]
      | some m =>
        rw [List.filterMap_cons_some ha, List.filterMap_cons_some ha, List.filter_cons,
          List.filter_cons, ih]
    | false =>
      rw [List.filter_cons, if_neg (by rw [hp]; exact Bool.false_ne_true), ih]
      cases ha : op.appended? with
      | none => rw [List.filterMap_cons_none ha]
      | some m =>
        have hm : m.conversationId = op.conversationId := by
          cases op with
          | append => exact congrArg _ (Option.some.inj ha).symm
          | _ => cases ha
        rw [List.filterMap_cons_some ha, List.filter_cons,
          if_neg (by rw [hm, hp]; exact Bool.false_ne_true)]

/-- Only the operations on the conversations of a user matter to it. -/
theorem seen_of_filter {now : Units} {users : Users} (hl : Lawful ops) (u : Units) :
    (runAll { Store.init now with users := users } ops).conversationsFor u =
      (runAll { Store.init now with users := users }
        (ops.filter fun op => isIn ops u op.conversationId)).conversationsFor u ∧
    (runAll { Store.init now with users := users } ops).historyForUser u =
      (runAll { Store.init now with users := users }
        (ops.filter fun op => isIn ops u op.conversationId)).historyForUser u := by
  have hrec := @recorded_of_lawful ops now users hl
  have hagree :=
    @Agree.runAll u (fun id => ∃ op ∈ ops, op.involves u = true ∧ op.conversationId = id)
    { Store.init now with users := users } { Store.init now with users := users }
      ⟨rfl, rfl, fun _ _ => rfl, fun _ _ => rfl⟩
    ops (fun op => isIn ops u op.conversationId) fun op hop hmk => by
      obtain ⟨k, hk⟩ := Option.isSome_iff_exists.mp hmk
      constructor
      · intro hin
        rcases Bool.or_eq_true .. |>.mp hin with hp | hany
        · -- nothing makes the public conversation
          have hlab := label_conversationId hk
          rw [beq_iff_eq.mp hp] at hlab
          obtain rfl := @ConversationKind.eq_of_label _ .everyone _ hlab List.prefix_rfl
          cases op <;> cases hk
        · obtain ⟨op', hm, he⟩ := List.any_eq_true.mp hany
          obtain ⟨hu, hid⟩ := Bool.and_eq_true .. |>.mp he
          exact ⟨op', hm, hu, beq_iff_eq.mp hid⟩
      · intro hin
        obtain ⟨-, hany⟩ := Bool.or_eq_false_iff.mp hin
        have hnot : ¬ ∃ op' ∈ ops, op'.involves u = true ∧
            op'.conversationId = op.conversationId := by
          rintro ⟨op', hm, hu, hid⟩
          have := List.any_eq_false.mp hany op' hm
          simp [hu, hid] at this
        refine ⟨hnot, ?_⟩
        by_contra hu
        exact hnot ⟨op, hop, Bool.eq_true_of_not_eq_false hu, rfl⟩
  refine ⟨hagree.conversationsFor_eq fun id hm => (hrec.members id u).mp hm, ?_⟩
  unfold Store.historyForUser Store.historyRows
  simp only [← hagree.contains_eq, hrec.readable, messages_runAll]
  congr 2
  refine (filter_messageRow (isIn ops u) _).trans ?_
  rw [← filter_appended (isIn ops u) ops]
  exact (filter_messageRow (isIn ops u) _).symm

end Operation

namespace Operation

/-- **What a user is to see** after some operations on a new database, if of a message it is to get
`shown`: the conversations that were made with it, each once and with exactly the users it was made
with; the messages of these and of the public one, each once, in the order of time. Operations on
other conversations change neither. -/
structure Sees (now : Units) (users : Users) (shown : MessageSummary → MessageSummary)
    (ops : List Operation) (u : Units) : Prop where
  /-- A conversation is listed once. -/
  once : (((runAll { Store.init now with users := users } ops).conversationsFor u).map
    (·.id)).Nodup
  /-- It was made with the user, and has the members it was made with. -/
  sound : ∀ c ∈ (runAll { Store.init now with users := users } ops).conversationsFor u, ∃ op ∈ ops,
    op.involves u = true ∧ op.makes? = some c.kind ∧ op.conversationId = c.id ∧
      c.memberIds.Nodup ∧ ∀ v, v ∈ c.memberIds ↔ op.involves v = true
  /-- One that was made with the user is listed. -/
  complete : ∀ op ∈ ops, op.involves u = true →
    ∃ c ∈ (runAll { Store.init now with users := users } ops).conversationsFor u,
      c.id = op.conversationId ∧ op.makes? = some c.kind ∧
        ∀ v, v ∈ c.memberIds ↔ op.involves v = true
  /-- The messages. -/
  history : ((runAll { Store.init now with users := users } ops).historyForUser u).Perm
    ((sentTo ops u).map shown)
  /-- A message is there once. -/
  messageOnce : (((runAll { Store.init now with users := users } ops).historyForUser u).map
    (·.id)).Nodup
  /-- They are in the order of time. -/
  ordered : ((runAll { Store.init now with users := users } ops).historyForUser u).Pairwise
    fun m m' => m.timestamp ≤ m'.timestamp
  /-- What others do does not matter. -/
  alone : ∀ ops', Lawful ops' →
    (ops'.filter fun op => isIn ops' u op.conversationId) =
      (ops.filter fun op => isIn ops u op.conversationId) →
    (runAll { Store.init now with users := users } ops').conversationsFor u =
        (runAll { Store.init now with users := users } ops).conversationsFor u ∧
      (runAll { Store.init now with users := users } ops').historyForUser u =
        (runAll { Store.init now with users := users } ops).historyForUser u

/-- Whoever sees the messages as they were appended sees texts that SQLite keeps. -/
theorem Sees.storable {now : Units} {users : Users} (hl : Lawful ops)
    (h : Sees now users id ops u) : ∀ m ∈ sentTo ops u, Storable m.text := by
  obtain ⟨hp, -⟩ := (@recorded_of_lawful ops now users hl).history hl u
  refine (restored_perm_iff (hl.nodup_sentTo u)).mp (hp.symm.trans ?_)
  simpa using h.history

end Operation

open Operation in
/-- **What a user sees** are its own conversations and the messages that were appended to them and
to the public one, with the texts that SQLite gives back. Those are the texts that were appended
exactly if none has a U+0000 or an unpaired surrogate. -/
theorem lists_its_own {now : Units} {users : Users} {ops : List Operation} (hl : Lawful ops)
    (u : Units) :
    Sees now users restored ops u ∧
      (Sees now users id ops u ↔ ∀ m ∈ sentTo ops u, Storable m.text) := by
  have hrec := @recorded_of_lawful ops now users hl
  obtain ⟨hp, hn, ht⟩ := hrec.history hl u
  have hsees : Sees now users restored ops u := by
    refine ⟨nodup_conversationsFor _ u, fun c hc => hrec.sound hl hc,
      fun op hop hu => hrec.complete hl hop hu, hp, hn, ht, ?_⟩
    intro ops' hl' he
    obtain ⟨hc, hh⟩ := @seen_of_filter ops now users hl u
    obtain ⟨hc', hh'⟩ := @seen_of_filter ops' now users hl' u
    rw [he] at hc' hh'
    exact ⟨hc'.trans hc.symm, hh'.trans hh.symm⟩
  refine ⟨hsees, Sees.storable hl, fun hs => { hsees with history := hp.trans ?_ }⟩
  simpa using (restored_perm_iff (hl.nodup_sentTo u)).mpr hs

/-- A direct conversation, twice, a group and two messages. -/
def someOperations : List Operation :=
  [.ensureDirect [1] [3] [6], .createGroup [7] [1] (units "team") [[3], [9], [3]],
    .ensureDirect [2] [6] [3],
    .append ⟨[10], directConversationId [3] [6], some [6], some (units "bob"), units "hi", [2]⟩,
    .append ⟨[11], publicConversationId, some [9], some (units "carol"), units "all", [1]⟩]

theorem lists_its_own_some :
    Operation.Sees [] .empty id someOperations [3] ∧
      ∃ c ∈ (Operation.runAll { Store.init [] with users := .empty }
        someOperations).conversationsFor [3],
        c.id = directConversationId [3] [6] ∧ c.memberIds.length = 2 := by
  have hl : Operation.Lawful someOperations := by
    refine ⟨?_, by decide, by decide, by decide⟩
    intro now a b h
    simp only [someOperations, List.mem_cons, List.not_mem_nil, reduceCtorEq,
      Operation.ensureDirect.injEq, or_false,
      false_or] at h
    rcases h with ⟨-, rfl, rfl⟩ | ⟨-, rfl, rfl⟩ <;> decide
  have hsees := (@lists_its_own [] .empty someOperations hl [3]).2.mpr (by decide)
  obtain ⟨c, hm, hid, -, hmem⟩ :=
    hsees.complete (.ensureDirect [1] [3] [6]) List.mem_cons_self (by decide)
  obtain ⟨op, -, -, -, -, hnodup, -⟩ := hsees.sound c hm
  refine ⟨hsees, c, hm, hid, ?_⟩
  have hperm : c.memberIds.Perm [[3], [6]] :=
    (List.perm_ext_iff_of_nodup hnodup (by decide)).mpr fun v =>
    (hmem v).trans (by simp [Operation.involves])
  exact hperm.length_eq

/-- **A message comes back with a part of its text**: a public one with a U+0000. -/
theorem message_comes_back_cut : ¬ ∀ (now : Units) (users : Users) (ops : List Operation),
    Operation.Lawful ops → ∀ u, Operation.Sees now users id ops u := by
  intro hall
  have hl : Operation.Lawful
      [.append ⟨[10], publicConversationId, some [3], some (units "alice"), [120, 0, 121], [1]⟩] :=
    ⟨by simp, by decide, by decide, by decide⟩
  have hs := (hall [] .empty _ hl [3]).storable hl _ (List.mem_singleton_self _)
  revert hs
  decide

end ThreadLink.Gateway
