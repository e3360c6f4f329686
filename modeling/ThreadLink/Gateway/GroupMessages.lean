import ThreadLink.Frontend.GroupMessages
import ThreadLink.Gateway.Groups
import ThreadLink.Gateway.Replicas
import ThreadLink.Lib.Sorting

/-!
# What the browsers show of groups

A message of a group is stored, and sent to those of its members that are in the roster. A member
that comes later is sent the history with `ready`. This module has the messages that a browser
shows of a group after what its session has been sent, against those that are stored.

## The model

* `groupMessages` — what a user may see of a group.
* `chats` replays what a session has been sent. What the browser had before does not matter, since
  `ready` replaces it.
* A history is in the order of the timestamps, and what comes after it in that of the gateway;
  `Recalled` says both.

## What is proved

* `abreast_of_path` — in the runs with one attempt at a time and a chat server that tells things in
  order, the browser of every session that is ready shows what its user may see.
-/

namespace ThreadLink.Gateway

open Text Runs Frontend

/-- `ORDER BY created_at`. -/
def byTime (l : List MessageSummary) : List MessageSummary :=
  l.mergeSort fun m m' => decide (m.timestamp ≤ m'.timestamp)

@[simp] theorem byTime_nil : byTime [] = [] := List.mergeSort_nil

/-- A stored message is shown with the text that SQLite gives back, or with the one that was sent
and stored. -/
def ShownAs (row m : MessageSummary) : Prop := m = Store.toSummary row ∨ row = Store.messageRow m

/-- What is shown of rows that have been read in the order of time, and of messages that have been
stored since. -/
def Recalled (rows shown : List MessageSummary) : Prop :=
  ∃ before live, rows = before ++ live.map Store.messageRow ∧
    shown = (byTime before).map Store.toSummary ++ live

section

variable {rows shown : List MessageSummary}

theorem Recalled.all (rows : List MessageSummary) :
    Recalled rows ((byTime rows).map Store.toSummary) :=
  ⟨rows, [], (List.append_nil _).symm, (List.append_nil _).symm⟩

/-- Of nothing nothing is shown. -/
theorem Recalled.eq_nil (h : Recalled [] shown) : shown = [] := by
  obtain ⟨before, live, hs, rfl⟩ := h
  obtain ⟨rfl, hlive⟩ := List.append_eq_nil_iff.mp hs.symm
  rw [List.map_eq_nil_iff.mp hlive, byTime_nil]
  rfl

/-- It grows. -/
theorem Recalled.concat (h : Recalled rows shown) (m : MessageSummary) :
    Recalled (rows ++ [Store.messageRow m]) (shown ++ [m]) := by
  obtain ⟨before, live, rfl, rfl⟩ := h
  refine ⟨before, live ++ [m], ?_, List.append_assoc ..⟩
  rw [List.map_append, List.append_assoc]
  rfl

/-- What is read, and what is told. -/
theorem shownAs_append (before live : List MessageSummary) :
    List.Forall₂ ShownAs (before ++ live.map Store.messageRow)
      (before.map Store.toSummary ++ live) := by
  refine List.rel_append ?_ ?_
  · exact List.forall₂_map_right_iff.mpr (List.forall₂_same.mpr fun _ _ => .inl rfl)
  · exact List.forall₂_map_left_iff.mpr (List.forall₂_same.mpr fun _ _ => .inr rfl)

/-- Nothing is missing, and nothing there twice. -/
theorem Recalled.perm (h : Recalled rows shown) :
    ∃ rows', rows'.Perm rows ∧ List.Forall₂ ShownAs rows' shown := by
  obtain ⟨before, live, rfl, rfl⟩ := h
  exact ⟨_, (List.mergeSort_perm ..).append_right _, shownAs_append ..⟩

/-- Unless the clock goes back it is shown in the order in which it has been stored. -/
theorem Recalled.inOrder (h : Recalled rows shown)
    (hs : rows.Pairwise fun m m' => m.timestamp ≤ m'.timestamp) :
    List.Forall₂ ShownAs rows shown := by
  obtain ⟨before, live, rfl, rfl⟩ := h
  rw [byTime, List.mergeSort_of_pairwise]
  · exact shownAs_append before live
  · simpa using (List.pairwise_append.mp hs).1

/-- A text without U+0000 is given back whole, and one without unpaired surrogates is stored as it
is. -/
theorem ShownAs.eq {row m : MessageSummary} (h : ShownAs row m) (hrow : 0 ∉ row.text)
    (hm : isWellFormed m.text = true) : row = m := by
  cases row
  rcases h with rfl | h
  · exact congrArg (MessageSummary.mk _ _ _ _ · _) (givenBack_of_notMem hrow).symm
  · rw [h]
    exact congrArg (MessageSummary.mk _ _ _ _ · _) (stored_eq_iff.mpr hm)

/-- Where SQLite keeps all texts the rows are shown as they are. -/
theorem eq_of_shownAs (h : List.Forall₂ ShownAs rows shown) (hrows : ∀ row ∈ rows, 0 ∉ row.text)
    (hshown : ∀ m ∈ shown, isWellFormed m.text = true) : rows = shown := by
  induction h with
  | nil => rfl
  | cons h _ ih =>
    obtain ⟨hrow, hrows⟩ := List.forall_mem_cons.mp hrows
    obtain ⟨hm, hshown⟩ := List.forall_mem_cons.mp hshown
    rw [h.eq hrow hm, ih hrows hshown]

end

namespace Store

variable {st : Store} {u g : Units}

/-- What a user may see of a group: its messages, if the user is a member. -/
def groupMessages (st : Store) (u g : Units) : List MessageSummary :=
  if st.members.rows.contains (g, u) then st.messages.filter fun m => m.conversationId == g else []

theorem groupMessages_of_mem (hm : (g, u) ∈ st.members.rows) :
    st.groupMessages u g = st.messages.filter fun m => m.conversationId == g :=
  if_pos (List.contains_iff_mem.mpr hm)

theorem groupMessages_of_not_mem (hm : (g, u) ∉ st.members.rows) : st.groupMessages u g = [] :=
  if_neg fun h => hm (List.contains_iff_mem.mp h)

/-- The messages of a group in the history of a user. -/
theorem filter_historyForUser (hg : ConversationKind.group.label <+: g) :
    (st.historyForUser u).filter (fun m => m.conversationId == g) =
      (byTime (st.groupMessages u g)).map toSummary := by
  have hfilter : (st.historyForUser u).filter (fun m => m.conversationId == g) =
      ((st.historyRows u).filter fun m => m.conversationId == g).map toSummary := List.filter_map
  rw [hfilter, historyRows, Sorting.filter_mergeSort, List.filter_filter]
  · unfold byTime
    congr 2
    by_cases hm : (g, u) ∈ st.members.rows
    · rw [groupMessages_of_mem hm]
      apply List.filter_congr
      intro m _
      by_cases he : m.conversationId = g
      · simp [he, hm]
      · simp [he]
    · rw [groupMessages_of_not_mem hm]
      apply List.filter_eq_nil_iff.mpr
      intro m _
      by_cases he : m.conversationId = g
      · have hp : g ≠ publicConversationId := by
          rintro rfl
          exact GatewayServer.not_group_public hg
        simp [he, hm, hp]
      · simp [he]
  · intro a b c hab hbc
    simp only [decide_eq_true_eq] at hab hbc ⊢
    exact List.le_trans hab hbc
  · intro a b
    simpa using List.le_total a.timestamp b.timestamp

/-- A group is listed for its members. -/
theorem Filed.listed (h : st.Filed) (hg : ConversationKind.group.label <+: g)
    (hm : (g, u) ∈ st.members.rows) : ∃ conversation ∈ st.conversationsFor u,
      conversation.id = g := by
  obtain ⟨r, hr, rfl⟩ := List.mem_map.mp (h.members _ hm)
  have hk := h.kind hr hg
  refine ⟨⟨r.id, r.kind, st.titleFor u r (st.members.of r.id), st.members.of r.id⟩, ?_, rfl⟩
  refine List.mem_flatMap.mpr ⟨(r.id, u), List.mem_filter.mpr ⟨hm, by simp⟩, ?_⟩
  exact List.mem_map.mpr ⟨r, List.mem_filter.mpr ⟨hr, by simp [hk]⟩, rfl⟩

end Store

/-- What a browser has of a group after what its session has been sent. -/
def chats (g : Units) (l : List Sent) : List MessageSummary :=
  (l.map (·.message)).foldl (chatsStep g) []

theorem chats_concat (g : Units) (l : List Sent) (m : Sent) :
    chats g (l ++ [m]) = chatsStep g (chats g l) m.message := by
  unfold chats
  rw [List.map_append, List.foldl_append]
  rfl

/-- A cause for which no group gets a message and none is made. -/
def Cause.Aside : Cause → Prop
  | .message _ (.sendMessage (.group _) _) | .message _ (.createGroup _ _) => False
  | _ => True

namespace GatewayServer

variable {P : Cause → Prop} {past : List (GatewayServer × Event)} {s s' t : GatewayServer}
  {e : Event} {c : Cause} {w x : WsId} {g : Units}

/-- **What `ready` tells of a group.** -/
theorem chatsStep_readyMessage (hf : s.store.Filed) (hg : ConversationKind.group.label <+: g)
    (l : List MessageSummary) (w : WsId) :
    chatsStep g l (s.readyMessage w) =
      (byTime (s.store.groupMessages (s.sessions w).id g)).map Store.toSummary := by
  rw [← Store.filter_historyForUser hg]
  show (if _ then _ else _) = _
  split
  · rfl
  · rename_i hn
    rw [Store.filter_historyForUser hg, Store.groupMessages_of_not_mem, byTime_nil, List.map_nil]
    intro hm
    obtain ⟨conversation, hc, hid⟩ := hf.listed hg hm
    exact hn ⟨conversation, List.mem_cons_of_mem _ hc, hid⟩

theorem named_readyMessage (s : GatewayServer) (w : WsId) :
    ServerMessage.Named (s.readyMessage w) := by
  intro conversation hc hk
  rcases List.mem_cons.mp hc with rfl | hc
  · rfl
  · obtain ⟨m, -, hc⟩ := List.mem_flatMap.mp hc
    obtain ⟨r, hr, rfl⟩ := List.mem_map.mp hc
    have hr := (List.mem_filter.mp hr).2
    have hk : r.kind = .everyone := hk
    simp [hk] at hr

/-! ### The invariant -/

/-- The browser of a session shows of all groups what its user may see. -/
def Current (s : GatewayServer) (x : WsId) : Prop :=
  ∀ g, ConversationKind.group.label <+: g →
    Recalled (s.store.groupMessages (s.sessions x).id g) (chats g (s.sent x))

/-- **Those of the sessions that are ready and open do.** -/
structure Abreast (s : GatewayServer) : Prop where
  /-- What they show. -/
  current : ∀ x, (s.sessions x).readyAnnounced = true → (s.sessions x).ws = .opened → s.Current x
  /-- Only the public conversation has been said to be public. -/
  named : ∀ x, ∀ m ∈ s.sent x, ServerMessage.Named m.message

/-- What holds at each moment of a handler. -/
structure Fit (s : GatewayServer) : Prop where
  /-- The roster. -/
  placed : Placed s
  /-- The groups. -/
  numbered : Numbered s
  /-- Their messages. -/
  signed : Signed s

theorem Fit.deeds (h : Fit s) (hd : Deeds P s t) : Fit t :=
  ⟨h.placed.same hd.same, (hd.numbered h.numbered).1, hd.signed h.numbered h.signed⟩

/-- Of a group that is not there nothing is stored. -/
theorem Fit.messages_eq_nil (h : Fit s) (hg : ConversationKind.group.label <+: g)
    (hn : g ∉ s.store.conversations.rows.map (·.id)) :
    s.store.messages.filter (fun m => m.conversationId == g) = [] := by
  apply List.filter_eq_nil_iff.mpr
  intro m hm he
  obtain rfl : m.conversationId = g := by simpa using he
  obtain ⟨id, hid, -⟩ := h.signed m hm hg
  exact hn (h.numbered.filed.members _ hid)

/-! ### Deeds -/

theorem ne_of_group {id : Units} (hg : ConversationKind.group.label <+: g)
    (h : ¬ConversationKind.group.label <+: id) : id ≠ g := by
  rintro rfl
  exact h hg

/-- What is sent for such a cause is a `ready`, or is not about groups. -/
theorem Told.aside {m : Sent} (h : Told s c x m) (hc : c.Aside) :
    m.message = s.readyMessage x ∨ ServerMessage.Named m.message ∧
      ∀ g, ConversationKind.group.label <+: g → ∀ l, chatsStep g l m.message = l := by
  cases h with
  | ready => exact .inl rfl
  | announced => exact .inr ⟨trivial, fun _ _ _ => rfl⟩
  | renamed => exact .inr ⟨trivial, fun _ _ _ => rfl⟩
  | presence => exact .inr ⟨trivial, fun _ _ _ => rfl⟩
  | offline => exact .inr ⟨trivial, fun _ _ _ => rfl⟩
  | opened => exact .inr ⟨nofun, fun _ _ _ => rfl⟩
  | created => exact hc.elim
  | group => exact hc.elim
  | echo _ hm =>
    exact .inr ⟨trivial, fun g hg l => if_neg (ne_of_group hg (hm ▸ not_group_public))⟩
  | relayed hm =>
    exact .inr ⟨trivial, fun g hg l => if_neg (ne_of_group hg (hm ▸ not_group_public))⟩
  | priv hm =>
    exact .inr ⟨trivial, fun g hg l => if_neg (ne_of_group hg (hm ▸ not_group_direct _ _))⟩
  | privSent hm =>
    exact .inr ⟨trivial, fun g hg l => if_neg (ne_of_group hg (hm ▸ not_group_direct _ _))⟩

/-- What users see of groups does not change. -/
def SeenAlike (s t : GatewayServer) : Prop :=
  ∀ u g, ConversationKind.group.label <+: g →
    t.store.groupMessages u g = s.store.groupMessages u g

theorem SeenAlike.of_store (h : t.store = s.store) : SeenAlike s t := fun _ _ _ => by rw [h]

/-- A message of another conversation. -/
theorem groupMessages_append {st : Store} {m : MessageSummary} (hm : m.conversationId ≠ g)
    (u : Units) : (st.append m).groupMessages u g = st.groupMessages u g := by
  have hnil : [Store.messageRow m].filter (fun m => m.conversationId == g) = [] := by
    simpa [Store.messageRow] using hm
  unfold Store.groupMessages Store.append
  dsimp only
  rw [List.filter_append, hnil, List.append_nil]

theorem groupMessages_append_of_mem {st : Store} {m : MessageSummary} {u : Units}
    (hm : (m.conversationId, u) ∈ st.members.rows) :
    (st.append m).groupMessages u m.conversationId =
      st.groupMessages u m.conversationId ++ [Store.messageRow m] := by
  rw [Store.groupMessages_of_mem hm,
    Store.groupMessages_of_mem (show _ ∈ (st.append m).members.rows from hm)]
  show (st.messages ++ [Store.messageRow m]).filter _ = _
  rw [List.filter_append, List.filter_singleton]
  simp [Store.messageRow]

/-- A new group has no messages. -/
theorem Fit.seenAlike_createGroup (h : Fit s) (name now : Units) (memberIds : List Units)
    (u : Units) (hg : ConversationKind.group.label <+: g) :
    ((s.store.createGroup (units "group:" ++ s.env.uuid s.draws) now name
      memberIds).1.groupMessages u g) = s.store.groupMessages u g := by
  unfold Store.groupMessages
  show (if _ then s.store.messages.filter _ else []) = _
  by_cases he : g = units "group:" ++ s.env.uuid s.draws
  · rw [h.messages_eq_nil hg (he ▸ h.numbered.fresh), ite_self, ite_self]
  · have hm : (g, u) ∈ (s.store.createGroup (units "group:" ++ s.env.uuid s.draws) now name
        memberIds).1.members.rows ↔ (g, u) ∈ s.store.members.rows := by
      refine Members.mem_rows_addAll.trans (or_iff_left ?_)
      rintro ⟨_, -, heq⟩
      exact he (Prod.mk.inj heq).1
    simp only [List.contains_iff_mem, hm]

theorem Deed.seenAlike (h : Deed s c t) (hf : Fit s)
    (hc : ∀ w groupId text, c ≠ .message w (.sendMessage (.group groupId) text)) :
    SeenAlike s t := by
  cases h with
  | @append w target text m draws _ hto =>
    intro u g hg
    refine groupMessages_append (ne_of_group hg ?_) u
    cases target with
    | everyone => exact fun h => not_group_public (hto ▸ h)
    | direct peerId =>
      obtain ⟨peer, -, hid⟩ := hto
      exact fun h => not_group_direct _ _ (hid ▸ h)
    | group groupId => exact absurd rfl (hc w groupId text)
  | @ensureDirect c w b =>
    intro u g hg
    have hne := ne_of_group hg (not_group_direct (s.sessions w).id b)
    show (s.store.ensureDirect _ _ _).1.groupMessages u g = _
    cases hd : s.store.hasDirect (directConversationId (s.sessions w).id b) with
    | true => rw [Store.ensureDirect_of_hasDirect hd]
    | false =>
      have hm (a : Units) : (g, u) ≠ (directConversationId (s.sessions w).id b, a) := fun he =>
        hne (Prod.mk.inj he).1.symm
      rw [Store.ensureDirect_of_not hd]
      simp only [Store.groupMessages, List.contains_iff_mem, Members.mem_rows_add, hm, or_false]
  | createGroup => exact fun u g hg => hf.seenAlike_createGroup _ _ _ u hg
  | nick => exact .of_store (by rw [sendLine_eq])
  | chat => exact .of_store (by rw [forward, sendLine_eq])
  | direct => exact .of_store (by rw [forward, sendLine_eq])
  | _ => exact .of_store rfl

theorem Current.of_same (h : s.Current x) (hv : SeenAlike s t)
    (hid : (t.sessions x).id = (s.sessions x).id) (hs : t.sent x = s.sent x) : t.Current x := by
  intro g hg
  rw [hid, hs, hv _ g hg]
  exact h g hg

theorem Abreast.deed (h : Abreast s) (hf : Fit s) (hd : Deed s c t) (hc : c.Aside) :
    Abreast t := by
  have hsame : Same s t := Deeds.same (P := fun _ => True) ((Deeds.refl s).then trivial hd)
  have hv : SeenAlike s t := hd.seenAlike hf (by rintro w groupId text rfl; exact hc)
  refine ⟨fun x hr ho => ?_, fun x => ?_⟩
  · obtain ⟨p, q, hx⟩ := hsame.sessions x
    rw [hx] at hr ho
    have hcur := h.current x hr ho
    rcases hd.sent x with hs | ⟨m, hs, hm⟩
    · exact hcur.of_same hv (hsame.id x) hs
    · have hkeep (hl : ∀ g, ConversationKind.group.label <+: g → ∀ l,
          chatsStep g l m.message = l) : t.Current x := by
        intro g hg
        rw [hs, chats_concat, hl g hg, hsame.id x, hv _ g hg]
        exact hcur g hg
      cases hm with
      | error => exact hkeep fun _ _ _ => rfl
      | loggedOut _ hno => exact absurd ho hno
      | told _ ht =>
        rcases ht.aside hc with hm | ⟨-, hl⟩
        · intro g hg
          rw [hs, chats_concat, hm, chatsStep_readyMessage hf.numbered.filed hg, hsame.id x,
            hv _ g hg]
          exact .all _
        · exact hkeep hl
  · intro m hm
    rcases hd.sent x with hs | ⟨m', hs, hsend⟩
    · exact h.named x m (hs ▸ hm)
    · rw [hs] at hm
      rcases List.mem_append.mp hm with hm | hm
      · exact h.named x m hm
      · obtain rfl := List.mem_singleton.mp hm
        cases hsend with
        | error => trivial
        | loggedOut => trivial
        | told _ ht =>
          rcases ht.aside hc with hm | ⟨hn, -⟩
          · rw [hm]
            exact named_readyMessage s x
          · exact hn

theorem Abreast.deeds (h : Abreast s) (hf : Fit s) (hd : Deeds P s t)
    (hP : ∀ c, P c → Cause.Aside c) : Abreast t := by
  induction hd with
  | refl => exact h
  | tail hd hlast ih =>
    obtain ⟨c, hc, hlast⟩ := hlast
    exact ih.deed (hf.deeds hd) hlast (hP c hc)

/-! ### Messages of a client -/

/-- An event is sent to the sessions that are found under some ids. -/
def tellAll (s : GatewayServer) (ids : List Units) (message : ServerMessage) : GatewayServer :=
  ids.foldl (fun s id =>
    match s.roster.find? id with
    | some member => s.sendTo member message
    | none => s) s

theorem tellAll_eq (s : GatewayServer) (ids : List Units) (message : ServerMessage) :
    s.tellAll ids message = { s with sent := (s.tellAll ids message).sent } := by
  unfold tellAll
  induction ids generalizing s with
  | nil => rfl
  | cons id ids ih =>
    rw [List.foldl_cons]
    split
    · rename_i member _
      rw [ih, sendTo_eq s member]
    · exact ih s

theorem tellAll_cons (s : GatewayServer) (id : Units) (ids : List Units)
    (message : ServerMessage) : s.tellAll (id :: ids) message =
      (match s.roster.find? id with
        | some member => s.sendTo member message
        | none => s).tellAll ids message :=
  rfl

theorem sent_sendTo_of_ne {y : WsId} (hx : x ≠ y) (message : ServerMessage) (about : List WsId) :
    (s.sendTo y message about).sent x = s.sent x := by
  unfold sendTo
  split
  · exact Function.update_of_ne hx ..
  · rfl

/-- A session that is ready and open is told once if its id is among them, and else not. -/
theorem Placed.sent_tellAll (h : Placed s) (hr : (s.sessions x).readyAnnounced = true)
    (ho : (s.sessions x).ws = .opened) {ids : List Units} (hn : ids.Nodup)
    (message : ServerMessage) :
    (s.tellAll ids message).sent x =
      s.sent x ++ if (s.sessions x).id ∈ ids then [⟨message, []⟩] else [] := by
  induction ids generalizing s with
  | nil => exact (List.append_nil _).symm
  | cons id ids ih =>
    obtain ⟨hid, hn⟩ := List.nodup_cons.mp hn
    have hx := h.listed x hr ho
    rw [tellAll_cons]
    cases hf : s.roster.find? id with
    | none =>
      have hne : (s.sessions x).id ≠ id := by
        rintro rfl
        rw [hx] at hf
        cases hf
      dsimp only
      rw [ih h hr ho hn]
      simp only [List.mem_cons, hne, false_or]
    | some member =>
      have he := sendTo_eq s member message []
      have hs : Same s (s.sendTo member message) := he ▸ .sent ..
      have hsessions : (s.sendTo member message).sessions = s.sessions := by rw [he]
      dsimp only
      rw [ih (h.same hs) (by rwa [hsessions]) (by rwa [hsessions]) hn, hsessions]
      by_cases hm : member = x
      · -- it is told now, and no more
        subst hm
        have hown := h.own id member hf
        rw [sent_sendTo_self ho, hown, if_neg hid, if_pos List.mem_cons_self, List.append_nil]
      · have hne : (s.sessions x).id ≠ id := by
          rintro rfl
          rw [hx] at hf
          exact hm (Option.some.inj hf).symm
        rw [sent_sendTo_of_ne (Ne.symm hm)]
        simp only [List.mem_cons, hne, false_or]

/-- Nobody is told anything else. -/
theorem mem_sent_sendTo {y : WsId} {message : ServerMessage} {about : List WsId} {m : Sent}
    (hm : m ∈ (s.sendTo y message about).sent x) : m ∈ s.sent x ∨ m.message = message := by
  by_cases hx : x = y
  · subst hx
    unfold sendTo at hm
    split at hm
    · replace hm : m ∈ Function.update s.sent x _ x := hm
      rw [Function.update_self] at hm
      rcases List.mem_append.mp hm with hm | hm
      · exact .inl hm
      · exact .inr (congrArg Sent.message (List.mem_singleton.mp hm))
    · exact .inl hm
  · rw [sent_sendTo_of_ne hx] at hm
    exact .inl hm

theorem mem_sent_tellAll {ids : List Units} {message : ServerMessage} {m : Sent}
    (hm : m ∈ (s.tellAll ids message).sent x) : m ∈ s.sent x ∨ m.message = message := by
  induction ids generalizing s with
  | nil => exact .inl hm
  | cons id ids ih =>
    rw [tellAll_cons] at hm
    rcases ih hm with hm | hm
    · split at hm
      · exact mem_sent_sendTo hm
      · exact .inl hm
    · exact .inr hm

/-- An event is sent that is not about messages. -/
theorem Abreast.sendTo (h : Abreast s) (y : WsId) {message : ServerMessage}
    (hm : ServerMessage.Named message) (hl : ∀ g l, chatsStep g l message = l) :
    Abreast (s.sendTo y message) := by
  have he := sendTo_eq s y message []
  refine ⟨fun x hr ho g hg => ?_, fun x m hs => ?_⟩
  · replace hr : (s.sessions x).readyAnnounced = true := by rwa [he] at hr
    replace ho : (s.sessions x).ws = .opened := by rwa [he] at ho
    have hcur := h.current x hr ho g hg
    suffices chats g ((s.sendTo y message).sent x) = chats g (s.sent x) by
      rw [this, he]
      exact hcur
    by_cases hx : x = y
    · subst hx
      rw [sent_sendTo_self ho, chats_concat, hl]
    · rw [sent_sendTo_of_ne hx]
  · rcases mem_sent_sendTo hs with hs | rfl
    · exact h.named x m hs
    · exact hm

theorem Abreast.tellAll (h : Abreast s) (ids : List Units) {message : ServerMessage}
    (hm : ServerMessage.Named message) (hl : ∀ g l, chatsStep g l message = l) :
    Abreast (s.tellAll ids message) := by
  induction ids generalizing s with
  | nil => exact h
  | cons id ids ih =>
    rw [tellAll_cons]
    split
    · exact ih (h.sendTo _ hm hl)
    · exact ih h

/-- **A group is made.** -/
theorem Abreast.handleCreateGroup (h : Abreast s) (hf : Fit s) (w : WsId) (name : Units)
    (memberIds : List Units) : Abreast (s.handleCreateGroup w name memberIds) := by
  unfold GatewayServer.handleCreateGroup
  dsimp only
  split
  · exact h.sendTo w trivial fun _ _ => rfl
  · refine Abreast.tellAll ?_ _ (fun hk => by cases hk) fun _ _ => rfl
    refine ⟨fun x hr ho => ?_, h.named⟩
    exact (h.current x hr ho).of_same (fun u g hg => hf.seenAlike_createGroup _ _ _ u hg) rfl rfl

/-- **A message is sent to a group**: it is stored, and those that may see it show it. -/
theorem Abreast.group (h : Abreast s) (hf : Fit s) (w : WsId) {groupId : Units}
    {memberIds : List Units} (hg : s.store.getGroup groupId = some memberIds) (text : Units) :
    Abreast ((s.append w groupId text).2.tellAll memberIds
      (.message (s.append w groupId text).1)) := by
  obtain ⟨-, rfl⟩ := Store.getGroup_eq_some.mp hg
  have hn : (s.store.members.of groupId).Nodup := by
    refine List.Nodup.map_on ?_ (s.store.members.nodup.filter _)
    intro a ha b hb he
    have ha := (List.mem_filter.mp ha).2
    have hb := (List.mem_filter.mp hb).2
    simp only [beq_iff_eq] at ha hb
    exact Prod.ext (ha.trans hb.symm) he
  have hsame : Same s (s.append w groupId text).2 :=
    ⟨rfl, rfl, fun _ => ⟨_, _, rfl⟩, rfl, rfl, rfl, rfl, rfl, rfl, rfl⟩
  have hid : (s.append w groupId text).1.conversationId = groupId := rfl
  have hstore : (s.append w groupId text).2.store = s.store.append (s.append w groupId text).1 :=
    rfl
  have hsent : (s.append w groupId text).2.sent = s.sent := rfl
  have hsessions : (s.append w groupId text).2.sessions = s.sessions := rfl
  generalize (s.append w groupId text).1 = m at *
  generalize (s.append w groupId text).2 = t at *
  refine ⟨fun x hr ho g hg => ?_, fun x m' hm => ?_⟩
  · rw [tellAll_eq, hsessions] at hr ho
    have hcur := h.current x hr ho g hg
    have htold := (hf.placed.same hsame).sent_tellAll (x := x) (by rwa [hsessions])
      (by rwa [hsessions]) hn (.message m)
    rw [tellAll_eq, htold, hstore, hsent, hsessions]
    by_cases he : m.conversationId = g
    · subst hid he
      simp only [Members.mem_of]
      split
      · rename_i hmem
        rw [groupMessages_append_of_mem hmem, chats_concat]
        show Recalled _ (if _ then _ else _)
        rw [if_pos rfl]
        exact hcur.concat m
      · rename_i hmem
        rw [Store.groupMessages_of_not_mem hmem] at hcur
        rw [Store.groupMessages_of_not_mem (show _ ∉ (s.store.append m).members.rows from hmem),
          List.append_nil]
        exact hcur
    · rw [groupMessages_append he]
      split
      · rw [chats_concat]
        show Recalled _ (if _ then _ else _)
        rw [if_neg he]
        exact hcur
      · rw [List.append_nil]
        exact hcur
  · rcases mem_sent_tellAll hm with hm | hm
    · exact h.named x m' (hsent ▸ hm)
    · rw [hm]
      trivial

/-- **Handling a message of a client.** -/
theorem Abreast.handleClientMessage (h : Abreast s) (hf : Fit s) (w : WsId) (m : ClientMessage) :
    Abreast (s.handleClientMessage w m) := by
  have haside (hm : Cause.Aside (.message w m)) : Abreast (s.handleClientMessage w m) := by
    refine h.deeds hf (handleClientMessage_deeds (P := (· = .message w m)) rfl) ?_
    rintro _ rfl
    exact hm
  cases m with
  | createGroup name memberIds => exact h.handleCreateGroup hf w name memberIds
  | sendMessage target text =>
    cases target with
    | group groupId =>
      show Abreast (s.handleSendMessage w (.group groupId) text)
      unfold handleSendMessage
      dsimp only
      split
      · exact h.sendTo w trivial fun _ _ => rfl
      · rename_i memberIds hg
        exact h.group hf w (Option.filter_eq_some_iff.mp hg).1 text
    | _ => exact haside trivial
  | _ => exact haside trivial

theorem Abreast.replay (h : Abreast s) (hf : Fit s) (w : WsId) (queued : List ClientMessage) :
    Abreast (queued.foldl (fun s m => s.handleClientMessage w m) s) := by
  induction queued generalizing s with
  | nil => exact h
  | cons m queued ih =>
    exact ih (h.handleClientMessage hf w m)
      (hf.deeds (handleClientMessage_deeds (P := fun _ => True) trivial))

/-- Whoever is sent `ready` shows what it may see. -/
theorem Abreast.sendReady (hf : Fit s)
    (h : ∀ x, x ≠ w → (s.sessions x).readyAnnounced = true → (s.sessions x).ws = .opened →
      s.Current x)
    (hn : ∀ x, ∀ m ∈ s.sent x, ServerMessage.Named m.message) : Abreast (s.sendReady w) := by
  have he := sendReady_eq s w
  have hstore : (s.sendReady w).store = s.store := by rw [he]
  have hsessions : (s.sendReady w).sessions = s.sessions := by rw [he]
  refine ⟨fun x hr ho => ?_, fun x m hm => ?_⟩
  · rw [hsessions] at hr ho
    by_cases hx : x = w
    · subst hx
      intro g hg
      have hsent : (s.sendReady x).sent x = s.sent x ++ [⟨s.readyMessage x, s.welcomedSessions⟩] :=
        sent_sendTo_self ho _ _
      rw [hsent, hstore, hsessions, chats_concat, chatsStep_readyMessage hf.numbered.filed hg]
      exact .all _
    · exact (h x hx hr ho).of_same (.of_store hstore) (by rw [hsessions]) (sent_sendReady_of_ne hx)
  · rcases mem_sent_sendTo hm with hm | hm
    · exact hn x m hm
    · rw [hm]
      exact named_readyMessage s w

/-- **Announcing a session**: it is told what it may see, and then its messages are handled. -/
theorem Abreast.announceReady (h : Abreast s) (hf : Fit (s.modifySession w Session.ready)) :
    Abreast (s.announceReady w) := by
  have hd : Deeds (· = .ready w) (s.modifySession w Session.ready)
      ((s.modifySession w Session.ready).sendReady w) :=
    sendReady_deeds rfl (.inl rfl)
  have hready : Abreast ((s.modifySession w Session.ready).sendReady w) := by
    refine Abreast.sendReady hf (fun x hx hr ho => ?_) h.named
    have he := sessions_modifySession_of_ne s hx Session.ready
    rw [he] at hr ho
    exact (h.current x hr ho).of_same (.of_store rfl) (by rw [he]) rfl
  obtain ⟨t, ht, -, he⟩ := announceReady_split (s := s) (w := w) (P := (· = .ready w)) rfl
  rw [he]
  refine Abreast.replay (hready.deeds (hf.deeds hd) ht ?_) (hf.deeds (hd.trans ht)) w _
  rintro _ rfl
  trivial

/-! ### Steps -/

/-- Nothing is sent, stored, or made ready. -/
theorem Abreast.congr (h : Abreast s) (hsent : t.sent = s.sent) (hv : SeenAlike s t)
    (hs : ∀ x, (t.sessions x).readyAnnounced = true → (t.sessions x).ws = .opened →
      (s.sessions x).readyAnnounced = true ∧ (s.sessions x).ws = .opened ∧
        (t.sessions x).id = (s.sessions x).id) : Abreast t := by
  refine ⟨fun x hr ho => ?_, hsent ▸ h.named⟩
  obtain ⟨hr, ho, hid⟩ := hs x hr ho
  exact (h.current x hr ho).of_same hv hid (by rw [hsent])

theorem Abreast.change (h : Abreast s) (hs : Standing past s) (hc : Change s e t)
    (ha : s.announced e = none) : Abreast t := by
  have hv : SeenAlike s t := fun u g _ => by
    rw [hc.store_eq]
    rfl
  refine h.congr hc.sent_eq hv fun x => ?_
  have hb := hc.becomes x
  revert hb
  generalize t.sessions x = z
  intro hb hr ho
  cases hb with
  | stays => exact ⟨hr, ho, rfl⟩
  | closing => cases ho
  | arrives => cases hr
  | closed => cases ho
  | joins hi =>
    have hw := (hs.waiting _ (List.mem_of_getElem? hi)).1
    rw [hs.welcomed x (hs.ready x hr)] at hw
    cases hw
  | welcome => exact ⟨hr, ho, rfl⟩
  | welcomeReady _ how he hm =>
    subst how
    rw [announced_frame he, announces, hm] at ha
    cases ha
  | nickReady _ how he hno =>
    subst how
    rw [announced_frame he, announces, hno] at ha
    simp at ha
  | rename _ _ _ hready => exact ⟨hready, ho, rfl⟩

theorem Fit.change (h : Fit s) (hc : Change s e t) (hp : Placed t) : Fit t := by
  obtain ⟨hn, hext⟩ := hc.numbered h.numbered
  refine ⟨hp, hn, fun m hm hg => ?_⟩
  rw [hc.store_eq] at hm
  obtain ⟨id, hid, hsender⟩ := h.signed m hm hg
  exact ⟨id, hext.members hid, hsender⟩

/-- **A step keeps the browsers abreast.** -/
theorem Abreast.step (h : Abreast s) (hs : Standing past s) (hf : Fit s) (ho : OneAttempt s e)
    (hi : InOrder s e) (hstep : s.step e = some s') : Abreast s' := by
  have hp' := (hs.step ho hi hstep).placed
  cases ha : s.announced e with
  | some w =>
    obtain ⟨b, p, f, nickname, -, -, -, hf', hc, rfl⟩ := step_announceReady hstep ha
    have hsame (y : Session) : (f y).id = y.id ∧ (f y).readyAnnounced = y.readyAnnounced ∧
        (f y).ws = y.ws := by
      rcases hf' with ⟨-, rfl⟩ | ⟨-, rfl⟩ <;> exact ⟨rfl, rfl, rfl⟩
    have hd := announceReady_deeds (s := s.modifySession w f) (w := w) (P := fun _ => True) trivial
      fun _ _ => trivial
    refine Abreast.announceReady (h.congr rfl (.of_store rfl) fun x hr ho => ?_) ?_
    · by_cases hx : x = w
      · subst hx
        rw [sessions_modifySession_self] at hr ho ⊢
        rw [(hsame _).2.1] at hr
        rw [(hsame _).2.2] at ho
        exact ⟨hr, ho, (hsame _).1⟩
      · rw [sessions_modifySession_of_ne s hx] at hr ho ⊢
        exact ⟨hr, ho, rfl⟩
    · have hp := hp'.same hd.same.symm
      rw [modifySession_modifySession] at hp ⊢
      exact hf.change hc hp
  | none =>
    have hplain (hc : ∀ c, s.Causes e c → Cause.Aside c) : Abreast s' := by
      obtain ⟨t, hct, hd⟩ := step_deeds hstep
      exact (h.change hs hct ha).deeds (hf.change hct (hp'.same hd.same.symm)) hd hc
    cases e with
    | message w n v =>
      cases hw : s.arrives (.message w n v) w with
      | nil =>
        refine hplain fun c hc => ?_
        rcases hc with rfl | ⟨m, hm, rfl | ⟨hsession, rfl⟩⟩
        · trivial
        · trivial
        · rw [arrives_of_valid hm hsession] at hw
          cases hw
      | cons m l =>
        obtain ⟨rfl, rfl⟩ := step_arrives hstep hw
        split
        · exact h.handleClientMessage hf w m
        · exact h.deed hf (c := .wait w m) .wait trivial
    | wsClose w =>
      refine hplain fun c hc => ?_
      obtain ⟨rfl, -⟩ := hc
      trivial
    | backendFrame b p =>
      refine hplain fun c hc => ?_
      rcases hc with rfl | ⟨hann, -⟩ | ⟨-, rfl⟩
      · trivial
      · rw [announced_of_announces hann] at ha
        cases ha
      · trivial
    | _ =>
      refine hplain ?_
      rintro c rfl
      trivial

theorem abreast_init (env : Env) (config : GatewayConfig) : Abreast (init env config) where
  current _ hr := by simp [init] at hr
  named _ _ hm := absurd hm List.not_mem_nil

theorem abreast_of_path {C : GatewayServer → Event → Prop}
    (hC : ∀ s e, C s e → OneAttempt s e ∧ InOrder s e) {env : Env}
    (hu : Function.Injective env.uuid) {config : GatewayConfig}
    (h : PathIn GatewayServer.step C (init env config) past s) : Abreast s := by
  refine (h.invariant (I := fun past s => (Standing past s ∧ Confined past s) ∧ Abreast s)
    ⟨⟨standing_init env config, confined_init hu config⟩, abreast_init env config⟩ ?_).2
  intro past s e s' ⟨⟨hs, hcon⟩, ha⟩ hc hstep
  obtain ⟨ho, hi⟩ := hC _ _ hc
  have hf : Fit s := ⟨hs.placed, hcon.numbered, hcon.signed⟩
  exact ⟨⟨hs.step ho hi hstep, hcon.step hstep⟩, ha.step hs hf ho hi hstep⟩

end GatewayServer

end ThreadLink.Gateway
