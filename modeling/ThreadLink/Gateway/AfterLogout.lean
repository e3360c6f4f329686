import ThreadLink.Gateway.Groups
import ThreadLink.Gateway.Validation

/-!
# After the logout

`handleLogout` and `onBackendClosed` ask for the WebSocket to be closed and leave the session as it
is until it has been: it is authenticated, welcomed, in the roster. What a client sends behind its
logout is handled like anything else. So it comes to nothing exactly if it would have come to
nothing before.

## The model

* `Invalidates` — the events after which nothing of a session is to be handled.
* `Inert` — nothing has come of it: not in the database, to the chat server, or to another client.
* `turns` — the messages that take effect in a step, each with the state in which it is handled.
* `late` — those that have arrived after the logout.
* `Harmless` — what a message must be, in the state in which it is handled.

## What is proved

* `step_turns` — the turns are what a step does with the messages that take effect in it.
* `waiting_of_path`, `late_subset` — `late` is what it is called: these messages have arrived after
  the logout.
* `inert_of_harmless`, `harmless_of_inert` — one message, in any state.
* `nothing_after_logout_iff` — **nothing comes of what a client sends after its logout, or after the
  loss of its backend connection, exactly if all of it is harmless**.
-/

namespace ThreadLink.Gateway

open Text Runs

namespace GatewayServer

variable {past first later : List (GatewayServer × Event)} {s s' s₀ t u : GatewayServer} {e : Event}
  {w x : WsId}
  {m : ClientMessage} {ms : List ClientMessage}

/-! ### What comes of a message -/

/-- **Nothing has come of it**, for anybody but the session itself. -/
structure Inert (w : WsId) (s t : GatewayServer) : Prop where
  /-- The database is the same. -/
  store : t.store = s.store
  /-- No line has been given to a backend connection. -/
  outbox : t.outbox = s.outbox
  /-- No other client has been sent anything. -/
  sent : ∀ x, x ≠ w → t.sent x = s.sent x

/-- **A message is harmless**: it is refused, or it is answered to the session itself, or there is
nobody to hear of it. -/
def Harmless (s : GatewayServer) (w : WsId) : ClientMessage → Prop
  | .setNickname _ => ∀ b ∈ (s.sessions w).backend, (s.backends b).closed = true
  | .setPresence _ =>
    ∀ x ∈ s.roster.values, x ≠ w → ¬ ((s.sessions x).welcomed = true ∧ (s.sessions x).ws = .opened)
  | .createGroup _ memberIds => ∃ id ∈ (s.sessions w).id :: memberIds, s.online? id = none
  | .sendMessage .everyone _ => False
  | .sendMessage (.direct peerId) _ => s.online? peerId = none
  | .sendMessage (.group groupId) _ =>
    ∀ memberIds ∈ s.store.getGroup groupId, (s.sessions w).id ∉ memberIds
  | .requestState | .register _ _ | .login _ _ | .logout => True

instance (s : GatewayServer) (w : WsId) (m : ClientMessage) : Decidable (s.Harmless w m) := by
  cases m with
  | sendMessage target text =>
    cases target with
    | group groupId =>
      exact decidable_of_iff
        ((s.store.getGroup groupId).all fun memberIds => !memberIds.contains (s.sessions w).id)
        (by simp [Harmless, Option.all_eq_true])
    | _ => unfold Harmless; infer_instance
  | _ => unfold Harmless; infer_instance

theorem Inert.refl (w : WsId) (s : GatewayServer) : Inert w s s := ⟨rfl, rfl, fun _ _ => rfl⟩

theorem inert_sendTo (s : GatewayServer) (w : WsId) (m : ServerMessage) (about : List WsId) :
    Inert w s (s.sendTo w m about) := by
  unfold sendTo
  split
  · exact ⟨rfl, rfl, fun x hx => Function.update_of_ne hx ..⟩
  · exact .refl w s

theorem inert_sendError (s : GatewayServer) (w : WsId) (code message : Units)
    (conversationId : Option Units) : Inert w s (s.sendError w code message conversationId) :=
  inert_sendTo s w _ _

theorem inert_modifySession (s : GatewayServer) (w x : WsId) (f : Session → Session) :
    Inert w s (s.modifySession x f) :=
  ⟨rfl, rfl, fun _ _ => rfl⟩

theorem Inert.trans (h : Inert w s t) (h' : Inert w t u) : Inert w s u where
  store := h'.store.trans h.store
  outbox := h'.outbox.trans h.outbox
  sent x hx := (h'.sent x hx).trans (h.sent x hx)

/-- **Nothing comes of a harmless message.** -/
theorem inert_of_harmless (h : s.Harmless w m) : Inert w s (s.handleClientMessage w m) := by
  cases m with
  | setNickname nickname =>
    show Inert w s (s.sendLine w _)
    unfold sendLine
    split
    · exact ⟨rfl, rfl, fun _ _ => rfl⟩
    · rename_i b hb
      rw [if_pos (h b hb)]
      exact ⟨rfl, rfl, fun _ _ => rfl⟩
  | setPresence presence =>
    show Inert w s
      ((s.modifySession w fun session => { session with presence := presence }).broadcastToAll _
        none [w])
    refine ⟨by rw [broadcastToAll_eq]; rfl, by rw [broadcastToAll_eq]; rfl, ?_⟩
    intro x hx
    rw [sent_broadcastToAll]
    split
    · rename_i hh
      have hnot : x ∉ s.roster.values := fun hr => by
        refine h x hr hx ⟨?_, ?_⟩
        · have hw := hh.2.1
          rwa [sessions_modifySession_of_ne s hx] at hw
        · have ho := hh.2.2
          rwa [sessions_modifySession_of_ne s hx] at ho
      have hcount : (s.modifySession w fun session =>
          { session with presence := presence }).roster.values.count x = 0 :=
        List.count_eq_zero.mpr hnot
      rw [hcount, List.replicate_zero, List.append_nil]
      rfl
    · rw [List.append_nil]
      rfl
  | requestState => exact inert_sendTo s w _ _
  | createGroup name memberIds =>
    obtain ⟨id, hid, hn⟩ := h
    show Inert w s (s.handleCreateGroup w name memberIds)
    unfold handleCreateGroup
    dsimp only
    rw [if_pos]
    · exact inert_sendError s w _ _ _
    · refine List.ne_nil_of_mem (a := id) (List.mem_filter.mpr ⟨List.mem_eraseDups.mpr hid, ?_⟩)
      rw [hn]
      rfl
  | sendMessage target text =>
    show Inert w s (s.handleSendMessage w target text)
    unfold handleSendMessage
    cases target with
    | everyone => exact absurd h id
    | direct peerId =>
      dsimp only
      rw [show s.online? peerId = none from h]
      exact inert_sendError s w _ _ _
    | group groupId =>
      dsimp only
      split
      · exact inert_sendError s w _ _ _
      · rename_i memberIds hg
        obtain ⟨hg, hw⟩ := Option.filter_eq_some_iff.mp hg
        exact absurd (by simpa using hw) (h memberIds hg)
  | register => exact .refl w s
  | login => exact .refl w s
  | logout => exact .refl w s

/-! ### What is not harmless -/

@[simp] theorem store_sendTo (s : GatewayServer) (x : WsId) (m : ServerMessage)
    (about : List WsId) : (s.sendTo x m about).store = s.store := by
  rw [sendTo_eq]

@[simp] theorem store_forward (s : GatewayServer) (request : Request) (line : Units) :
    (s.forward request line).store = s.store := by
  rw [forward, sendLine_eq]

/-- What is sent to one after the other is not stored. -/
theorem store_foldl {α : Type*} {f : GatewayServer → α → GatewayServer}
    (hf : ∀ s a, (f s a).store = s.store) (l : List α) (s : GatewayServer) :
    (l.foldl f s).store = s.store := by
  induction l generalizing s with
  | nil => rfl
  | cons a l ih => rw [List.foldl_cons, ih, hf]

theorem messages_openDirect (s : GatewayServer) (w peer : WsId) :
    (s.openDirect w peer).2.store.messages = s.store.messages := by
  have hens :
    (s.store.ensureDirect (s.env.now s.draws) (s.sessions w).id (s.sessions peer).id).1.messages =
      s.store.messages := by
    unfold Store.ensureDirect
    dsimp only
    split <;> rfl
  unfold openDirect
  dsimp only
  split
  · exact hens
  · rw [store_sendTo, store_sendTo]
    exact hens

/-- A message that is kept changes the database. -/
theorem store_append_ne {l : List MessageSummary} {m : MessageSummary}
    (ht : t.store.messages = l ++ [m]) (hl : s.store.messages = l) : t.store ≠ s.store := by
  intro he
  have hlen := congrArg List.length (ht.symm.trans ((congrArg Store.messages he).trans hl))
  rw [List.length_append, List.length_singleton] at hlen
  omega

/-- **Something comes of every other message.** -/
theorem harmless_of_inert (hn : Numbered s) (h : Inert w s (s.handleClientMessage w m)) :
    s.Harmless w m := by
  cases m with
  | setNickname nickname =>
    intro b hb
    by_contra hc
    have hout : (s.sendLine w ⟨formatNickCommand nickname, none⟩).outbox b = s.outbox b :=
      congrFun h.outbox b
    rw [sendLine, show (s.sessions w).backend = some b from hb] at hout
    dsimp only at hout
    rw [if_neg hc] at hout
    dsimp only at hout
    have hlen := congrArg List.length hout
    rw [Function.update_self, List.length_append, List.length_singleton] at hlen
    omega
  | setPresence presence =>
    rintro x hr hx ⟨hw, ho⟩
    have hsent :
      ((s.modifySession w fun session => { session with presence := presence }).broadcastToAll
        (.userUpdate
          ((s.modifySession w fun session => { session with presence := presence }).summarize w))
          none [w]).sent x =
        s.sent x := h.sent x hx
    have hh : (s.modifySession w fun session => { session with presence := presence }).Hears
        none x := by
      refine ⟨Option.some_ne_none _, ?_, ?_⟩
      · rw [sessions_modifySession_of_ne s hx]
        exact hw
      · rw [sessions_modifySession_of_ne s hx]
        exact ho
    rw [sent_broadcastToAll, if_pos hh] at hsent
    have hlen := congrArg List.length hsent
    rw [List.length_append, List.length_replicate] at hlen
    have hpos : 0 < s.roster.values.count x := List.count_pos_iff.mpr hr
    have hsame : (s.modifySession w fun session => { session with presence := presence }).sent x =
        s.sent x := rfl
    have hroster : (s.modifySession w fun session => { session with presence := presence }).roster =
        s.roster := rfl
    rw [hsame, hroster] at hlen
    omega
  | requestState => trivial
  | createGroup name memberIds =>
    by_contra hno
    have hall : ¬ (((s.sessions w).id :: memberIds).eraseDups.filter fun id =>
        (s.online? id).isNone) ≠ [] := by
      intro hne
      obtain ⟨id, hid⟩ := List.exists_mem_of_ne_nil _ hne
      obtain ⟨hid, hn⟩ := List.mem_filter.mp hid
      exact hno ⟨id, List.mem_eraseDups.mp hid, Option.isNone_iff_eq_none.mp hn⟩
    have hstore : (s.handleCreateGroup w name memberIds).store = s.store := h.store
    unfold handleCreateGroup at hstore
    dsimp only at hstore
    rw [if_neg hall, store_foldl] at hstore
    · -- the id of the group is a new one
      have hmem : units "group:" ++ s.env.uuid s.draws ∈
          (s.store.createGroup (units "group:" ++ s.env.uuid s.draws) (s.env.now s.draws) name
            ((s.sessions w).id :: memberIds).eraseDups).1.conversations.rows.map (·.id) :=
        Conversations.mem_ids_insertOrIgnore.mpr (.inr rfl)
      exact hn.fresh (congrArg (fun st => st.conversations.rows.map (·.id)) hstore ▸ hmem)
    · intro s id
      split
      · exact store_sendTo ..
      · rfl
  | sendMessage target text =>
    have hstore : (s.handleSendMessage w target text).store = s.store := h.store
    unfold handleSendMessage at hstore
    cases target with
    | everyone =>
      dsimp only at hstore
      rw [store_forward, store_sendTo] at hstore
      exact store_append_ne rfl rfl hstore
    | direct peerId =>
      dsimp only at hstore
      cases hp : s.online? peerId with
      | none => exact hp
      | some peer =>
        rw [hp] at hstore
        dsimp only at hstore
        rw [store_forward] at hstore
        exact absurd hstore (store_append_ne rfl (messages_openDirect s w peer).symm)
    | group groupId =>
      intro memberIds hg hw
      have hf : (s.store.getGroup groupId).filter
          (fun memberIds => memberIds.contains (s.sessions w).id) = some memberIds :=
        Option.filter_eq_some_iff.mpr ⟨hg, by simpa using hw⟩
      dsimp only at hstore
      rw [hf] at hstore
      dsimp only at hstore
      rw [store_foldl] at hstore
      · exact absurd hstore (store_append_ne rfl rfl)
      · intro s id
        split
        · exact store_sendTo ..
        · rfl
  | register => trivial
  | login => trivial
  | logout => trivial

/-! ### The messages that take effect in a step -/

/-- Messages that are handled one after the other, each with the state in which it is. -/
def turns (w : WsId) : GatewayServer → List ClientMessage → List (GatewayServer × ClientMessage)
  | _, [] => []
  | s, m :: ms => (s, m) :: turns w (s.handleClientMessage w m) ms

/-- `announceReady`, up to the loop over what has waited. -/
def drained (s : GatewayServer) (w : WsId) : GatewayServer :=
  let s := (s.modifySession w Session.ready).sendReady w
  let s := s.broadcastToAll (.userUpdate (s.summarize w)) (some (s.sessions w).id) [w]
  s.modifySession w fun session => { session with pending := [] }

/-- The state in which the first of the messages is handled. -/
def turnStart (s : GatewayServer) : Event → GatewayServer
  | .backendFrame b p =>
    match parseBackendLine (utf8Decode p) with
    | .welcome nickname =>
      (s.modifySession (s.backends b).owner fun session => session.welcome nickname).drained
        (s.backends b).owner
    | .nick _ newNick =>
      (s.modifySession (s.backends b).owner fun session => session.rename newNick).drained
        (s.backends b).owner
    | _ => s
  | _ => s

theorem announceReady_eq (s : GatewayServer) (w : WsId) :
    s.announceReady w = (s.sessions w).pending.foldl (fun s m => s.handleClientMessage w m)
    (s.drained w) := by
  have hpending : (((s.modifySession w Session.ready).sendReady w).broadcastToAll
      (.userUpdate (((s.modifySession w Session.ready).sendReady w).summarize w))
      (some (((s.modifySession w Session.ready).sendReady w).sessions w).id) [w]).sessions w =
      (s.sessions w).ready := by
    rw [broadcastToAll_eq]
    show (((s.modifySession w Session.ready).sendTo w _ _).sessions w) = _
    rw [sendTo_eq]
    exact sessions_modifySession_self ..
  unfold announceReady drained
  dsimp only
  rw [hpending]
  rfl

/-- **What a step does with the messages that take effect in it.** -/
theorem step_turns (hs : s.step e = some s') (hh : s.handles e w ≠ []) :
    s' = (s.handles e w).foldl (fun s m => s.handleClientMessage w m) (s.turnStart e) := by
  by_cases ha : s.announced e = some w
  · obtain ⟨b, p, f, nickname, rfl, rfl, -, hf, -, rfl⟩ := step_announceReady hs ha
    have hstart : s.turnStart (.backendFrame b p) =
        (s.modifySession (s.backends b).owner f).drained (s.backends b).owner := by
      unfold turnStart
      rcases hf with ⟨hp, rfl⟩ | ⟨hp, rfl⟩
      · simp only [hp]
      · simp only [hp]
    have hpending :
      ((s.modifySession (s.backends b).owner f).sessions (s.backends b).owner).pending =
        (s.sessions (s.backends b).owner).pending := by
      rw [sessions_modifySession_self]
      rcases hf with ⟨-, rfl⟩ | ⟨-, rfl⟩ <;> rfl
    rw [announceReady_eq, hstart, hpending, handles, if_pos ha]
  · rw [handles, if_neg ha] at hh ⊢
    cases hi : s.immediate w with
    | false =>
      rw [hi] at hh
      exact absurd rfl hh
    | true =>
      rw [hi] at hh
      rw [if_pos rfl] at hh ⊢
      cases hw : s.arrives e w with
      | nil => exact absurd hw hh
      | cons m l =>
        obtain ⟨rfl, he⟩ := step_arrives hs hw
        rw [hi, if_pos rfl] at he
        cases e with
        | message => exact he
        | _ => cases hw

/-! ### What has arrived since -/

/-- The messages that have arrived from a session and have had to wait. -/
def waited (past : List (GatewayServer × Event)) (w : WsId) : List ClientMessage :=
  past.flatMap fun a => if a.1.immediate w then [] else a.1.arrives a.2 w

/-- **The messages that take effect in a step and have arrived since**, each with the state in which
it is handled: of those that have waited, as many from the end of the queue as have arrived since.
-/
def late (w : WsId) (first : List (GatewayServer × Event)) (a : GatewayServer × Event) :
    List (GatewayServer × ClientMessage) :=
  if a.1.announced a.2 = some w then (turns w (a.1.turnStart a.2) (a.1.handles a.2 w)).rtake
    (waited first w).length
  else turns w (a.1.turnStart a.2) (a.1.handles a.2 w)

theorem map_turns (w : WsId) (s : GatewayServer) (ms : List ClientMessage) :
    (turns w s ms).map Prod.snd = ms := by
  induction ms generalizing s with
  | nil => rfl
  | cons m ms ih => rw [turns, List.map_cons, ih]

theorem length_turns (w : WsId) (s : GatewayServer) (ms : List ClientMessage) :
    (turns w s ms).length = ms.length := by
  rw [← List.length_map (f := Prod.snd), map_turns]

theorem waited_concat (past : List (GatewayServer × Event)) (s : GatewayServer) (e : Event)
    (w : WsId) :
    waited (past ++ [(s, e)]) w = waited past w ++ if s.immediate w then [] else s.arrives e w := by
  rw [waited, List.flatMap_append, List.flatMap_singleton]
  rfl

theorem waited_subset_received (past : List (GatewayServer × Event)) (w : WsId) :
    waited past w ⊆ received past w := by
  intro m hm
  obtain ⟨a, ha, hm⟩ := List.mem_flatMap.mp hm
  refine List.mem_flatMap.mpr ⟨a, ha, ?_⟩
  split at hm
  · exact absurd hm List.not_mem_nil
  · exact hm

/-- **The queue** has what was in it and then what has arrived since, or only the last of what has.
-/
theorem waiting_of_path (hp : Path step s₀ past s) (hw : w < s₀.nextWs) :
    (s.sessions w).pending = (s₀.sessions w).pending ++ waited past w ∨
    (s.sessions w).pending <:+ waited past w := by
  suffices h : w < s.nextWs ∧ ((s.sessions w).pending = (s₀.sessions w).pending ++ waited past w ∨
      (s.sessions w).pending <:+ waited past w) from h.2
  refine hp.invariant (I := fun past s => w < s.nextWs ∧
    ((s.sessions w).pending = (s₀.sessions w).pending ++ waited past w ∨
      (s.sessions w).pending <:+ waited past w)) ⟨hw, .inl (List.append_nil _).symm⟩ ?_
  rintro past s e s' ⟨hlt, h⟩ _ hs
  refine ⟨?_, ?_⟩
  · rcases step_nextWs hs with hn | ⟨-, hn⟩
    · rw [hn]
      exact hlt
    · rw [hn]
      exact Nat.lt_succ_of_lt hlt
  · rw [step_pending hs fun _ => Nat.ne_of_lt hlt, waited_concat]
    by_cases ha : s.announced e = some w
    · rw [if_pos ha, List.nil_append]
      exact .inr (List.suffix_append _ _)
    · rw [if_neg ha]
      rcases h with h | ⟨l, h⟩
      · exact .inl (by rw [h, List.append_assoc])
      · exact .inr ⟨l, by rw [← List.append_assoc, h]⟩

/-- **The late messages have arrived since.** -/
theorem late_subset (hp : Path step s₀ past s) (hw : w < s₀.nextWs) :
    (late w past (s, e)).map Prod.snd ⊆ received (past ++ [(s, e)]) w := by
  rw [received_append]
  unfold late
  by_cases ha : s.announced e = some w
  · rw [if_pos ha, List.rtake, List.map_drop, map_turns, length_turns, handles, if_pos ha]
    refine List.Subset.trans ?_ (List.subset_append_left _ _)
    refine List.Subset.trans ?_ (waited_subset_received past w)
    rcases waiting_of_path hp hw with h | h
    · rw [h, List.length_append, Nat.add_sub_cancel, List.drop_left]
      exact List.Subset.refl _
    · exact List.Subset.trans (List.drop_subset _ _) h.subset
  · rw [if_neg ha, map_turns, handles, if_neg ha]
    refine List.Subset.trans ?_ (List.subset_append_right _ _)
    split
    · exact List.Subset.refl _
    · exact List.nil_subset _

/-! ### After the logout -/

/-- **The events after which nothing of a session is to be handled.** -/
inductive Invalidates (s : GatewayServer) (w : WsId) : Event → Prop where
  /-- It logs out. -/
  | logout {n : ℕ} {v : Option Json} (hv : s.valid? n v = some .logout)
      (ha : (s.sessions w).authenticated = true) :
    Invalidates s w (.message w n v)
  /-- Its backend connection is lost, and it is told `BACKEND_DISCONNECTED`. -/
  | lost {b : BackendId} (hb : (s.backends b).owner = w) (hc : (s.backends b).closed = false)
    (hw : (s.sessions w).closed = false) : Invalidates s w (.backendClose b)

/-- **A step spares the others**: nothing comes of a message of the session that arrives in it, or
that has arrived since and takes effect in it. -/
structure Spares (w : WsId) (first : List (GatewayServer × Event)) (a : GatewayServer × Event) :
    Prop where
  /-- One that arrives. -/
  arriving : ∀ n v s', a.2 = .message w n v → a.1.step a.2 = some s' → Inert w a.1 s'
  /-- Those that take effect. -/
  late : ∀ p ∈ late w first a, Inert w p.1 (p.1.handleClientMessage w p.2)

theorem Invalidates.authenticated (h : s.Invalidates w e) (hj : Joined s)
    (hs : s.step e = some s') : (s'.sessions w).authenticated = true := by
  cases h with
  | logout _ ha => exact hj.authenticated_step hs ha
  | @lost b hb =>
    obtain ⟨-, hs'⟩ := Option.ite_none_left_eq_some.mp hs
    obtain ⟨ho, -⟩ := Option.ite_none_right_eq_some.mp hs'
    exact hj.authenticated_step hs (hb ▸ hj.owner_of_opened ho)

/-- Nothing comes of a message that is not valid. -/
theorem inert_of_invalid {n : ℕ} {v : Option Json} (hv : s.valid? n v = none) :
    Inert w s (s.onClientRaw w n v) := by
  unfold valid? at hv
  unfold onClientRaw
  split at hv
  · rename_i hn
    rw [if_pos hn]
    exact inert_sendError ..
  · rename_i hn
    rw [if_neg hn]
    split
    · exact inert_sendError ..
    · rename_i value
      cases hr : validateClientMessage value with
      | error => exact ⟨rfl, rfl, fun _ _ => rfl⟩
      | ok r =>
        cases r with
        | error => exact inert_sendError ..
        | ok m =>
          rw [Option.map_some, hr] at hv
          cases hv

/-- Nothing comes of a message about the session, once that is authenticated. -/
theorem inert_of_isSession (ha : (s.sessions w).authenticated = true) (hm : m.isSession = true) :
    Inert w s (s.onClientMessage w m) := by
  cases m with
  | register username password =>
    show Inert w s (s.handleRegister w username password)
    unfold handleRegister
    dsimp only
    rw [if_pos ha]
    exact inert_sendError ..
  | login username password =>
    show Inert w s (s.handleLogin w username password)
    unfold handleLogin
    rw [if_pos ha]
    exact inert_sendError ..
  | logout =>
    show Inert w s (s.handleLogout w)
    unfold handleLogout
    rw [if_neg (by rw [ha]; decide)]
    exact (inert_sendTo s w _ _).trans (inert_modifySession ..)
  | _ => cases hm

/-- Nothing comes of a message that is not handled. -/
theorem inert_of_handles {n : ℕ} {v : Option Json} (ha : (s.sessions w).authenticated = true)
    (hs : s.step (.message w n v) = some s') (hh : s.handles (.message w n v) w = []) :
    Inert w s s' := by
  have hraw : s.onClientRaw w n v = s' := by
    obtain ⟨-, hs⟩ := Option.ite_none_left_eq_some.mp hs
    obtain ⟨-, hs⟩ := Option.ite_none_right_eq_some.mp hs
    exact Option.some.inj hs
  cases hv : s.valid? n v with
  | none =>
    rw [← hraw]
    exact inert_of_invalid hv
  | some m =>
    cases hm : m.isSession with
    | true =>
      rw [← hraw, onClientRaw_of_valid hv]
      exact inert_of_isSession ha hm
    | false =>
      have harr := arrives_of_valid (w := w) hv hm
      have hann : s.announced (.message w n v) ≠ some w := fun h => by cases h
      obtain ⟨-, he⟩ := step_arrives hs harr
      rw [handles, if_neg hann, harr] at hh
      cases hi : s.immediate w with
      | true =>
        rw [hi] at hh
        cases hh
      | false =>
        rw [hi] at he
        rw [he, if_neg Bool.false_ne_true]
        exact inert_modifySession ..

theorem numbered_drained (hn : Numbered s) (w : WsId) (f : Session → Session) :
    Numbered ((s.modifySession w f).drained w) := by
  have he : ((s.modifySession w f).drained w).env = s.env ∧
    ((s.modifySession w f).drained w).store = s.store ∧
      ((s.modifySession w f).drained w).draws = s.draws := by
    unfold drained
    dsimp only
    rw [broadcastToAll_eq, show ((s.modifySession w f).modifySession w Session.ready).sendReady w =
      _ from sendTo_eq ..]
    exact ⟨rfl, rfl, rfl⟩
  exact ⟨he.1 ▸ hn.uuid, he.2.1 ▸ hn.filed, he.1 ▸ he.2.1 ▸ he.2.2 ▸ hn.group⟩

theorem numbered_turnStart (hn : Numbered s) (e : Event) : Numbered (s.turnStart e) := by
  unfold turnStart
  split
  · split
    · exact numbered_drained hn ..
    · exact numbered_drained hn ..
    · exact hn
  · exact hn

theorem numbered_of_turns (hn : Numbered s) {p : GatewayServer × ClientMessage}
    (hp : p ∈ turns w s ms) : Numbered p.1 := by
  induction ms generalizing s with
  | nil => exact absurd hp List.not_mem_nil
  | cons m ms ih =>
    rcases List.mem_cons.mp hp with rfl | hp
    · exact hn
    · refine ih (Deeds.numbered (P := fun _ => True) ?_ hn).1 hp
      exact handleClientMessage_deeds trivial

theorem numbered_of_late (hn : Numbered s) {p : GatewayServer × ClientMessage}
    (hp : p ∈ late w first (s, e)) : Numbered p.1 := by
  suffices h : p ∈ turns w (s.turnStart e) (s.handles e w) from
    numbered_of_turns (numbered_turnStart hn e) h
  unfold late at hp
  split at hp
  · exact List.mem_of_mem_drop hp
  · exact hp

/-- **One step spares the others** if what it does for the session is harmless, -/
theorem spares_of_harmless (ha : (s.sessions w).authenticated = true)
    (h : ∀ p ∈ late w first (s, e), p.1.Harmless w p.2) : Spares w first (s, e) := by
  refine ⟨?_, fun p hp => inert_of_harmless (h p hp)⟩
  rintro n v s' rfl hs
  cases hh : s.handles (.message w n v) w with
  | nil => exact inert_of_handles ha hs hh
  | cons m l =>
    -- the message is handled in the state in which it arrives, and is the only one
    have hann : s.announced (.message w n v) ≠ some w := fun h => by cases h
    have he := step_turns hs (by rw [hh]; exact List.cons_ne_nil m l)
    have hl : l = [] := by
      rw [handles, if_neg hann] at hh
      split at hh
      · exact (arrives_eq_cons hh).2.2
      · cases hh
    rw [hh, hl] at he
    have hmem : (s, m) ∈ late w first (s, .message w n v) := by
      rw [late, if_neg hann, hh]
      exact List.mem_cons_self
    rw [show s' = s.handleClientMessage w m from he]
    exact inert_of_harmless (h (s, m) hmem)

/-- and only if it is. -/
theorem harmless_of_spares (hn : Numbered s) (h : Spares w first (s, e)) :
    ∀ p ∈ late w first (s, e), p.1.Harmless w p.2 :=
  fun p hp => harmless_of_inert (numbered_of_late hn hp) (h.late p hp)

/-- **What comes after the logout.** In whatever the gateway does after it has handled the logout of
a session, or has told it `BACKEND_DISCONNECTED`, each step spares the others if the messages of the
session that take effect in it and have arrived since are harmless, and, as no id is drawn twice,
only if they are. -/
theorem nothing_after_logout_iff {env : Env} {config : GatewayConfig}
    (h : Run step (init env config) s) (hinv : s.Invalidates w e) (hs : s.step e = some s₀)
    (hp : Path step s₀ past t) :
    ∀ first a later, past = first ++ a :: later →
      ((∀ p ∈ late w first a, p.1.Harmless w p.2) → Spares w first a) ∧
      (Function.Injective env.uuid → Spares w first a →
        ∀ p ∈ late w first a, p.1.Harmless w p.2) := by
  rintro first ⟨u, e'⟩ later rfl
  obtain ⟨-, hu, -, -⟩ := hp.split
  have hrun : Run step s₀ u := hu.runIn.run
  have hjoined : Joined s₀ := (joined_of_run h).step hs
  have ha : (u.sessions w).authenticated = true :=
    (hrun.invariant (I := fun u => Joined u ∧ (u.sessions w).authenticated = true)
      ⟨hjoined, hinv.authenticated (joined_of_run h) hs⟩
      fun u e u' ⟨hj, ha⟩ _ hs => ⟨hj.step hs, hj.authenticated_step hs ha⟩).2
  refine ⟨spares_of_harmless ha, fun hinj => harmless_of_spares ?_⟩
  exact ((h.tail trivial hs).trans hrun).invariant (I := Numbered) (numbered_init hinj config)
    fun u e u' hn _ hs => (hn.step hs).1

/-- A message of the client that is ready first. -/
def pipelined (m : ClientMessage) : Event := .message 0 70 (some m.toJson)

set_option maxRecDepth 8000 in
/-- After its logout, the client asks for the state of the chat. -/
theorem state_after_logout :
    ∃ s s₀ t, Run step (init .unary {}) s ∧ s.step (pipelined .logout) = some s₀ ∧
    s₀.step (pipelined .requestState) = some t ∧ Inert 0 s₀ t := by
  obtain ⟨s, hs, hv, ha, hk, hall⟩ := exists_run_of_any step (init .unary {}) twoReady
    (fun s => s.valid? 70 (some ClientMessage.logout.toJson) = some .logout ∧
      (s.sessions 0).authenticated = true ∧
      (s.step (pipelined .logout)).isSome = true ∧ (s.step (pipelined .logout)).all (fun s₀ =>
        (s₀.step (pipelined .requestState)).isSome = true ∧
        ∀ p ∈ late 0 [] (s₀, pipelined .requestState), p.1.Harmless 0 p.2) = true) (by decide)
  obtain ⟨s₀, hs₀⟩ := Option.isSome_iff_exists.mp hk
  rw [hs₀, Option.all_some, decide_eq_true_eq] at hall
  obtain ⟨t, ht⟩ := Option.isSome_iff_exists.mp hall.1
  have hp : Path step s₀ [(s₀, pipelined .requestState)] t := .tail .refl trivial ht
  have hspares := (nothing_after_logout_iff hs (.logout hv ha) hs₀ hp [] _ [] rfl).1 hall.2
  exact ⟨s, s₀, t, hs, hs₀, ht, hspares.arriving _ _ t rfl ht⟩

set_option maxRecDepth 16000 in
/-- **Messages behind a logout.** Two users are there; the first logs out, and before its WebSocket
is closed it changes its presence and sends a public message. The other client is sent the presence,
the message is in the database, and its line has been given to the chat server. -/
theorem messages_after_logout :
    ∃ s s₀ past t, Run step (init .unary {}) s ∧ s.Invalidates 0 (pipelined .logout) ∧
    s.step (pipelined .logout) = some s₀ ∧ Path step s₀ past t ∧
    (t.sent 1).length = (s₀.sent 1).length + 1 ∧
    t.store.messages.length = s₀.store.messages.length + 1 ∧
    (t.outbox 0).length = (s₀.outbox 0).length + 1 ∧
    ¬ ∀ first a later, past = first ++ a :: later → Spares 0 first a := by
  obtain ⟨s, hs, hv, ha, hk, hall⟩ := exists_run_of_any step (init .unary {}) twoReady
    (fun s => s.valid? 70 (some ClientMessage.logout.toJson) = some .logout ∧
      (s.sessions 0).authenticated = true ∧
      (s.step (pipelined .logout)).isSome = true ∧ (s.step (pipelined .logout)).all (fun s₀ =>
        (s₀.step (pipelined (.setPresence .away))).isSome = true ∧
            (s₀.step (pipelined (.setPresence .away))).all (fun s₁ =>
          (s₁.step (pipelined (.sendMessage .everyone (units "hi")))).isSome = true ∧
          (s₁.sent 1).length = (s₀.sent 1).length + 1 ∧
          (s₁.step (pipelined (.sendMessage .everyone (units "hi")))).all (fun t =>
            (t.sent 1).length = (s₀.sent 1).length + 1 ∧
              t.store.messages.length = s₀.store.messages.length + 1 ∧
            (t.outbox 0).length = (s₀.outbox 0).length + 1) = true) = true) = true) (by decide)
  obtain ⟨s₀, hs₀⟩ := Option.isSome_iff_exists.mp hk
  rw [hs₀, Option.all_some, decide_eq_true_eq] at hall
  obtain ⟨s₁, hs₁⟩ := Option.isSome_iff_exists.mp hall.1
  rw [hs₁, Option.all_some, decide_eq_true_eq] at hall
  obtain ⟨-, hk₁, hsent, hall⟩ := hall
  obtain ⟨t, ht⟩ := Option.isSome_iff_exists.mp hk₁
  rw [ht, Option.all_some, decide_eq_true_eq] at hall
  have hp : Path step s₀ [(s₀, pipelined (.setPresence .away)),
      (s₁, pipelined (.sendMessage .everyone (units "hi")))] t :=
    .tail (.tail .refl trivial hs₁) trivial ht
  refine ⟨s, s₀, _, t, hs, .logout hv ha, hs₀, hp, hall.1, hall.2.1, hall.2.2, ?_⟩
  intro h
  have hinert := (h [] _ _ rfl).arriving _ _ s₁ rfl hs₁
  have hsame : s₁.sent 1 = s₀.sent 1 := hinert.sent 1 (by decide)
  rw [hsame] at hsent
  exact absurd hsent.symm (Nat.succ_ne_self _)

end GatewayServer

end ThreadLink.Gateway
