import ThreadLink.Gateway.Roster

/-!
# When messages take effect

A message that comes before the session is ready is to be queued, and replayed when
`ready` is announced. `onClientRaw` handles a message at once when the session has been
welcomed, which may be one round trip earlier: the session may still wait for the `NICK`
that confirms its username. This module has the order in which messages take effect, in
the runs in which no message comes in between.

## What is proved

* `step_handles` — what takes effect in a step, the messages of `handles`, is what
  `handleClientMessage` is called on.
* `fresh_of_path` — nothing comes from a session that has not arrived.
* `takes_effect_in_order` — if no message comes between the welcome and `ready`, messages
  take effect in the order in which they came, once, and not before the session is ready.
-/

namespace ThreadLink.Gateway

open Text Runs

namespace GatewayServer

variable {P : Cause → Prop} {past : List (GatewayServer × Event)} {s s' t u : GatewayServer}
  {e : Event} {c : Cause}
  {w x : WsId} {b : BackendId}

/-- The message that arrives from a session, if it is valid and not about the session itself. -/
def arrives (s : GatewayServer) (e : Event) (w : WsId) : List ClientMessage :=
  match e with
  | .message x n v => if x = w then ((s.valid? n v).filter fun m => !m.isSession).toList else []
  | _ => []

/-- The session that an event makes ready. -/
def announced (s : GatewayServer) : Event → Option WsId
  | .backendFrame b p =>
    if s.announces (s.backends b).owner (parseBackendLine (utf8Decode p))
      then some (s.backends b).owner else none
  | _ => none

/-- Whether an event welcomes a session. -/
def welcomes (s : GatewayServer) (e : Event) (w : WsId) : Bool :=
  match e with
  | .backendFrame b p =>
    (s.backends b).owner == w &&
      match parseBackendLine (utf8Decode p) with
      | .welcome _ => true
      | _ => false
  | _ => false

/-- The messages of a session that take effect in a step: one that has arrived, or all
that have waited. -/
def handles (s : GatewayServer) (e : Event) (w : WsId) : List ClientMessage :=
  if s.announced e = some w then (s.sessions w).pending
  else if s.immediate w then s.arrives e w
  else []

/-- All messages that have arrived from a session. -/
def received (past : List (GatewayServer × Event)) (w : WsId) : List ClientMessage :=
  past.flatMap fun a => a.1.arrives a.2 w

/-- All messages of a session that have taken effect. -/
def effective (past : List (GatewayServer × Event)) (w : WsId) : List ClientMessage :=
  past.flatMap fun a => a.1.handles a.2 w

@[simp] theorem received_append (past : List (GatewayServer × Event)) (s : GatewayServer)
    (e : Event) (w : WsId) : received (past ++ [(s, e)]) w = received past w ++ s.arrives e w := by
  simp [received]

@[simp] theorem effective_append (past : List (GatewayServer × Event)) (s : GatewayServer)
    (e : Event) (w : WsId) :
    effective (past ++ [(s, e)]) w = effective past w ++ s.handles e w := by
  simp [effective]

theorem arrives_eq_cons {n : ℕ} {v : Option Json} {m : ClientMessage} {l : List ClientMessage}
    (h : s.arrives (.message w n v) w = m :: l) :
    s.valid? n v = some m ∧ m.isSession = false ∧ l = [] := by
  unfold arrives at h
  dsimp only at h
  rw [if_pos rfl] at h
  cases hf : (s.valid? n v).filter fun m => !m.isSession with
  | none => rw [hf] at h; cases h
  | some m' =>
    rw [hf] at h
    cases h
    obtain ⟨hv, hm⟩ := Option.filter_eq_some_iff.mp hf
    exact ⟨hv, by simpa using hm, rfl⟩

theorem arrives_of_valid {n : ℕ} {v : Option Json} {m : ClientMessage} (hv : s.valid? n v = some m)
    (hm : m.isSession = false) : s.arrives (.message w n v) w = [m] := by
  unfold arrives
  dsimp only
  rw [if_pos rfl, Option.filter_eq_some_iff.mpr ⟨hv, by rw [hm]; rfl⟩]
  rfl

theorem announced_of_announces {p : Bytes}
    (h : s.announces (s.backends b).owner (parseBackendLine (utf8Decode p)) = true) :
    s.announced (.backendFrame b p) = some (s.backends b).owner := by
  rw [announced, if_pos h]

/-! ### Causes -/

/-- A session is announced only by the event that makes it ready. -/
theorem Causes.ready (h : s.Causes e (.ready x)) : s.announced e = some x := by
  cases e with
  | message w n v =>
    rcases h with h | ⟨m, -, h | ⟨-, h⟩⟩
    · cases h
    · cases h
    · split at h <;> cases h
  | backendFrame b p =>
    rcases h with h | ⟨ha, h | ⟨m, -, h⟩⟩ | ⟨-, h⟩ <;> cases h
    exact announced_of_announces ha
  | wsClose w => cases h.1
  | _ => cases h

/-- A session that is renamed has been ready. -/
theorem Causes.rename (h : s.Causes e (.rename x)) :
    ∃ b p, e = .backendFrame b p ∧ (s.backends b).owner = x ∧
    s.renames x (parseBackendLine (utf8Decode p)) = true := by
  cases e with
  | message w n v =>
    rcases h with h | ⟨m, -, h | ⟨-, h⟩⟩
    · cases h
    · cases h
    · split at h <;> cases h
  | backendFrame b p =>
    rcases h with h | ⟨-, h | ⟨m, -, h⟩⟩ | ⟨hr, h⟩ <;> cases h
    exact ⟨b, p, rfl, rfl, hr⟩
  | wsClose w => cases h.1
  | _ => cases h

/-- A message waits only if it has arrived and cannot be handled. -/
theorem Causes.wait {m : ClientMessage} (h : s.Causes e (.wait x m)) :
    s.arrives e x = [m] ∧ s.immediate x = false := by
  cases e with
  | message w n v =>
    rcases h with h | ⟨m', hm, h | ⟨hs, h⟩⟩
    · cases h
    · cases h
    · split at h
      · cases h
      · rename_i hi
        cases h
        exact ⟨arrives_of_valid hm hs, by simpa using hi⟩
  | backendFrame b p => rcases h with h | ⟨ha, h | ⟨m, -, h⟩⟩ | ⟨-, h⟩ <;> cases h
  | wsClose w => cases h.1
  | _ => cases h

/-- A message is handled only if it takes effect in this step. -/
theorem Causes.message {m : ClientMessage} (h : s.Causes e (.message x m)) : m ∈ s.handles e x := by
  cases e with
  | message w n v =>
    rcases h with h | ⟨m', hm, h | ⟨hs, h⟩⟩
    · cases h
    · cases h
    · split at h
      · rename_i hi
        cases h
        rw [handles, if_neg (by simp [announced]), if_pos hi, arrives_of_valid hm hs]
        exact List.mem_singleton_self _
      · cases h
  | backendFrame b p =>
    rcases h with h | ⟨ha, h | ⟨m', hm, h⟩⟩ | ⟨-, h⟩ <;> cases h
    rw [handles, if_pos (announced_of_announces ha)]
    exact hm
  | wsClose w => cases h.1
  | _ => cases h

/-- An event of the chat server is handled for the owner of the connection it arrives on. -/
theorem Causes.event {ev : BackendEvent} (h : s.Causes e (.event w ev)) :
    ∃ b p, e = .backendFrame b p ∧ w = (s.backends b).owner ∧
      parseBackendLine (utf8Decode p) = ev := by
  cases e with
  | message w n v =>
    rcases h with h | ⟨m', hm, h | ⟨hs, h⟩⟩
    · cases h
    · cases h
    · split at h <;> cases h
  | backendFrame b p =>
    rcases h with h | ⟨ha, h | ⟨m', hm, h⟩⟩ | ⟨-, h⟩ <;> cases h
    exact ⟨b, p, rfl, rfl, rfl⟩
  | wsClose w => cases h.1
  | _ => cases h

/-! ### The queue -/

/-- Only a message that has to wait, or the announcement of its session, changes the queue
of a session. -/
theorem Deed.pending (h : Deed s c t) (hw : ∀ m, c ≠ .wait x m) (hr : c ≠ .ready x) :
    (t.sessions x).pending = (s.sessions x).pending := by
  cases h with
  | @presence w p =>
    by_cases hx : x = w
    · subst hx
      rw [sessions_modifySession_self]
    · rw [sessions_modifySession_of_ne s hx]
  | @wait w m =>
    have hx : x ≠ w := fun hx => hw m (by rw [hx])
    rw [sessions_modifySession_of_ne s hx]
  | @drain w =>
    have hx : x ≠ w := fun hx => hr (by rw [hx])
    rw [sessions_modifySession_of_ne s hx]
  | nick => rw [sendLine_eq]
  | chat => rw [forward, sendLine_eq]
  | direct => rw [forward, sendLine_eq]
  | _ => rfl

theorem Deeds.pending (h : Deeds P s t) (hP : ∀ c, P c → (∀ m, c ≠ .wait x m) ∧ c ≠ .ready x) :
    (t.sessions x).pending = (s.sessions x).pending := by
  induction h with
  | refl => rfl
  | tail _ hd ih =>
    obtain ⟨c, hc, hd⟩ := hd
    rw [hd.pending (hP c hc).1 (hP c hc).2, ih]

section Field

/-! ### What a change leaves alone of a session -/

variable {α : Type*} {f : Session → α}

theorem field_modifySession {g : Session → Session} (hg : f (g (s.sessions w)) = f (s.sessions w)) :
    f ((s.modifySession w g).sessions x) = f (s.sessions x) := by
  by_cases hx : x = w
  · subst hx
    rw [sessions_modifySession_self, hg]
  · rw [sessions_modifySession_of_ne s hx]

theorem field_closeWs (hf : ∀ y ws, f { y with ws := ws } = f y) (s : GatewayServer) (w x : WsId) :
    f ((s.closeWs w).sessions x) = f (s.sessions x) :=
  field_modifySession (by split <;> first | rfl | exact hf _ _)

theorem field_leave (hf : ∀ y, f { y with closed := true } = f y) (s : GatewayServer) (w x : WsId) :
    f ((s.leave w).sessions x) = f (s.sessions x) := by
  have hm : f ((s.modifySession w fun session => { session with closed := true }).sessions x) =
      f (s.sessions x) :=
    field_modifySession (hf _)
  unfold leave
  dsimp only
  split
  · exact hm
  · rw [remove, sessions_closeBackend]
    exact hm

theorem field_close (hf : ∀ y ws, f { y with ws := ws } = f y) (s : GatewayServer) (x : WsId) :
    f (s.close.sessions x) = f (s.sessions x) := by
  obtain ⟨t, ht, hc⟩ := @close_rule s (fun t => f (t.sessions x) = f (s.sessions x)) rfl
    fun t w ht => by rw [field_closeWs hf, sessions_closeBackend, ht]
  rw [hc]
  exact ht

theorem field_join (hf : ∀ y account b, f (Session.joined y account b) = f y) (s : GatewayServer)
    (w x : WsId) (account : UserRecord) : f ((s.join w account).sessions x) = f (s.sessions x) := by
  by_cases hx : x = w
  · subst hx
    rw [sessions_join_self, hf]
  · rw [sessions_join_of_ne s hx]

end Field

theorem Same.id (h : Same s t) (w : WsId) : (t.sessions w).id = (s.sessions w).id := by
  obtain ⟨p, q, hw⟩ := h.sessions w
  rw [hw]

/-- The queue and the presence are the session's own: no change touches them. -/
theorem Change.own (h : Change s e t) (hn : e = .connection → x ≠ s.nextWs) :
    ((t.sessions x).presence, (t.sessions x).pending) =
    ((s.sessions x).presence, (s.sessions x).pending) := by
  let f (y : Session) := (y.presence, y.pending)
  show f (t.sessions x) = f (s.sessions x)
  cases h with
  | connection => rw [sessions_onConnection_of_ne s (hn rfl)]
  | logout => exact field_closeWs (fun _ _ => rfl) s _ x
  | wsClosing => exact field_closeWs (fun _ _ => rfl) s _ x
  | wsClose => exact (field_leave (fun _ => rfl) _ _ x).trans (field_modifySession rfl)
  | wsCloseAgain => exact field_modifySession rfl
  | joined => exact field_join (f := f) (fun _ _ _ => rfl) _ _ x _
  | connectFailed => exact field_closeWs (fun _ _ => rfl) _ _ x
  | nickTaken => exact field_closeWs (fun _ _ => rfl) s _ x
  | welcome => exact field_modifySession rfl
  | welcomeReady => exact field_modifySession rfl
  | nickReady => exact field_modifySession rfl
  | @rename b _ _ newNick =>
    exact field_modifySession (f := f) (w := (s.backends b).owner)
      (g := fun session => session.rename newNick) rfl
  | backendClose _ f =>
    cases f with
    | true => rfl
    | false => exact field_closeWs (fun _ _ => rfl) _ _ x
  | shutdown => exact field_close (fun _ _ => rfl) s x
  | _ => rfl

theorem announced_frame {p : Bytes} {ev : BackendEvent}
    (he : parseBackendLine (utf8Decode p) = ev) :
    s.announced (.backendFrame b p) =
    if s.announces (s.backends b).owner ev then some (s.backends b).owner else none := by
  rw [announced, he]

/-- A session is marked as ready exactly when it is announced. -/
theorem Change.readyAnnounced (h : Change s e t) (hn : e = .connection → x ≠ s.nextWs) :
    (t.sessions x).readyAnnounced = true ↔
    (s.sessions x).readyAnnounced = true ∨ s.announced e = some x := by
  have hno (heq : (t.sessions x).readyAnnounced = (s.sessions x).readyAnnounced)
      (ha : s.announced e = none) :
      (t.sessions x).readyAnnounced = true ↔
      (s.sessions x).readyAnnounced = true ∨ s.announced e = some x := by
    rw [heq, ha]
    simp
  have hyes {w : WsId} {g : Session → Session} (hg : (g (s.sessions w)).readyAnnounced = true)
      (ha : s.announced e = some w) :
      ((s.modifySession w g).sessions x).readyAnnounced = true ↔
        (s.sessions x).readyAnnounced = true ∨ s.announced e = some x := by
    rw [ha, Option.some.injEq]
    by_cases hx : x = w
    · subst hx
      simp [hg]
    · rw [sessions_modifySession_of_ne s hx]
      simp [Ne.symm hx]
  cases h with
  | connection => exact hno (by rw [sessions_onConnection_of_ne s (hn rfl)]) rfl
  | logout => exact hno (field_closeWs (fun _ _ => rfl) s _ x) rfl
  | wsClosing => exact hno (field_closeWs (fun _ _ => rfl) s _ x) rfl
  | wsClose => exact hno ((field_leave (fun _ => rfl) _ _ x).trans (field_modifySession rfl)) rfl
  | wsCloseAgain => exact hno (field_modifySession rfl) rfl
  | joined => exact hno (field_join (fun _ _ _ => rfl) _ _ x _) rfl
  | connectFailed => exact hno (field_closeWs (fun _ _ => rfl) _ _ x) rfl
  | @frame b p _ hw hnick =>
    apply hno rfl
    cases he : parseBackendLine (utf8Decode p) with
    | welcome nickname => exact absurd he (hw nickname)
    | nick oldNick newNick =>
      rw [announced_frame he]
      simp [announces, hnick oldNick newNick he]
    | _ => rw [announced_frame he]; rfl
  | nickTaken _ he =>
    exact hno (field_closeWs (fun _ _ => rfl) s _ x) (by rw [announced_frame he]; rfl)
  | welcome _ he hm =>
    exact hno (field_modifySession rfl) (by rw [announced_frame he]; simp [announces, hm])
  | welcomeReady _ he hm => exact hyes rfl (by rw [announced_frame he]; simp [announces, hm])
  | nickReady _ he hnick hr =>
    exact hyes rfl (by rw [announced_frame he]; simp [announces, hnick, hr])
  | @rename b _ _ newNick _ he hnick hr =>
    refine hno ?_ (by rw [announced_frame he]; simp [announces, hr])
    exact field_modifySession (f := Session.readyAnnounced) (w := (s.backends b).owner)
      (g := fun session => session.rename newNick) rfl
  | backendClose _ f =>
    cases f with
    | true => exact hno rfl rfl
    | false => exact hno (field_closeWs (fun _ _ => rfl) _ _ x) rfl
  | shutdown => exact hno (field_close (fun _ _ => rfl) s x) rfl
  | _ => exact hno rfl rfl

/-- A session is marked as welcomed exactly when it is. -/
theorem Change.welcomed (h : Change s e t) (hn : e = .connection → x ≠ s.nextWs) :
    (t.sessions x).welcomed = ((s.sessions x).welcomed || s.welcomes e x) := by
  have hno (heq : (t.sessions x).welcomed = (s.sessions x).welcomed) (hw : s.welcomes e x = false) :
      (t.sessions x).welcomed = ((s.sessions x).welcomed || s.welcomes e x) := by
    rw [heq, hw, Bool.or_false]
  have hframe {b : BackendId} {p : Bytes} {ev : BackendEvent}
    (he : parseBackendLine (utf8Decode p) = ev)
      (hw : ∀ nickname, ev ≠ .welcome nickname) : s.welcomes (.backendFrame b p) x = false := by
    unfold welcomes
    dsimp only
    rw [he]
    cases ev with
    | welcome nickname => exact absurd rfl (hw nickname)
    | _ => exact Bool.and_false _
  have hyes {b : BackendId} {p : Bytes} {nickname : Units} {g : Session → Session}
      (hg : (g (s.sessions (s.backends b).owner)).welcomed = true)
        (he : parseBackendLine (utf8Decode p) = .welcome nickname) :
      ((s.modifySession (s.backends b).owner g).sessions x).welcomed =
        ((s.sessions x).welcomed || s.welcomes (.backendFrame b p) x) := by
    simp only [welcomes, he, Bool.and_true]
    by_cases hx : x = (s.backends b).owner
    · subst hx
      simp [hg]
    · rw [sessions_modifySession_of_ne s hx, beq_eq_false_iff_ne.mpr (Ne.symm hx), Bool.or_false]
  cases h with
  | connection => exact hno (by rw [sessions_onConnection_of_ne s (hn rfl)]) rfl
  | logout => exact hno (field_closeWs (fun _ _ => rfl) s _ x) rfl
  | wsClosing => exact hno (field_closeWs (fun _ _ => rfl) s _ x) rfl
  | wsClose => exact hno ((field_leave (fun _ => rfl) _ _ x).trans (field_modifySession rfl)) rfl
  | wsCloseAgain => exact hno (field_modifySession rfl) rfl
  | joined => exact hno (field_join (fun _ _ _ => rfl) _ _ x _) rfl
  | connectFailed => exact hno (field_closeWs (fun _ _ => rfl) _ _ x) rfl
  | frame _ hw => exact hno rfl (hframe rfl hw)
  | nickTaken _ he => exact hno (field_closeWs (fun _ _ => rfl) s _ x) (hframe he nofun)
  | welcome _ he => exact hyes rfl he
  | welcomeReady _ he => exact hyes rfl he
  | nickReady _ he => exact hno (field_modifySession rfl) (hframe he nofun)
  | @rename b _ _ newNick _ he =>
    refine hno ?_ (hframe he nofun)
    exact field_modifySession (f := Session.welcomed) (w := (s.backends b).owner)
      (g := fun session => session.rename newNick) rfl
  | backendClose _ f =>
    cases f with
    | true => exact hno rfl rfl
    | false => exact hno (field_closeWs (fun _ _ => rfl) _ _ x) rfl
  | shutdown => exact hno (field_close (fun _ _ => rfl) s x) rfl
  | _ => exact hno rfl rfl

theorem step_readyAnnounced (hs : s.step e = some s') (hn : e = .connection → x ≠ s.nextWs) :
    (s'.sessions x).readyAnnounced = true ↔
    (s.sessions x).readyAnnounced = true ∨ s.announced e = some x := by
  obtain ⟨t, hc, hd⟩ := step_deeds hs
  obtain ⟨p, q, hx⟩ := hd.same.sessions x
  rw [← hc.readyAnnounced hn, hx]

/-! ### What takes effect in a step -/

/-- What has waited is handled when `ready` is announced, and none of it waits any more. -/
theorem replay_pending (t : GatewayServer) (w : WsId) (queued : List ClientMessage) :
    ((queued.foldl (fun s m => s.handleClientMessage w m) t).sessions x).pending =
    (t.sessions x).pending := by
  have hd : Deeds (fun c => ∃ m, c = .message w m) t
      (queued.foldl (fun s m => s.handleClientMessage w m) t) :=
    replay_deeds (.refl t) fun m _ => ⟨m, rfl⟩
  apply hd.pending
  rintro _ ⟨m, rfl⟩
  exact ⟨nofun, nofun⟩

/-- The event of the chat server that makes a session ready. -/
theorem announced_eq_some (h : s.announced e = some w) :
    ∃ b p, e = .backendFrame b p ∧ (s.backends b).owner = w ∧
      s.announces w (parseBackendLine (utf8Decode p)) = true := by
  cases e with
  | backendFrame b p =>
    rw [announced] at h
    split at h
    · rename_i ha
      cases h
      exact ⟨b, p, rfl, rfl, ha⟩
    · cases h
  | _ => cases h

/-- **A step that makes a session ready**: it is welcomed or renamed, and then announced. -/
theorem step_announceReady (hs : s.step e = some s') (ha : s.announced e = some w) :
    ∃ b p f nickname, e = .backendFrame b p ∧ (s.backends b).owner = w ∧
      (s.backends b).socket = .opened ∧
      (parseBackendLine (utf8Decode p) = .welcome nickname ∧
        (f = fun session => Session.welcome session nickname) ∨
        parseBackendLine (utf8Decode p) = .nick (s.sessions w).nickname nickname ∧
          (f = fun session => Session.rename session nickname)) ∧
      Change s e (s.modifySession w fun session => (f session).ready) ∧
      s' = (s.modifySession w f).announceReady w := by
  obtain ⟨b, p, rfl, rfl, ha⟩ := announced_eq_some ha
  obtain ⟨-, hs⟩ := Option.ite_none_left_eq_some.mp hs
  obtain ⟨⟨hb, -⟩, hs⟩ := Option.ite_none_right_eq_some.mp hs
  rw [← Option.some.inj hs]
  cases he : parseBackendLine (utf8Decode p) with
  | welcome nickname =>
    rw [he, announces] at ha
    have hm : ((s.sessions (s.backends b).owner).welcome nickname).mustClaim = false := by
      simpa using ha
    refine ⟨b, p, _, nickname, rfl, rfl, hb, .inl ⟨he, rfl⟩, .welcomeReady hb he hm, ?_⟩
    simp only [onBackendEvent, onWelcome, sessions_modifySession_self, hm, Bool.false_eq_true,
      if_false]
  | nick oldNick newNick =>
    rw [he, announces, Bool.and_eq_true, beq_iff_eq] at ha
    obtain ⟨hn, hr⟩ := ha
    have hr : (s.sessions (s.backends b).owner).readyAnnounced = false := by simpa using hr
    refine ⟨b, p, _, newNick, rfl, rfl, hb, .inr ⟨hn ▸ he, rfl⟩, .nickReady hb he hn hr, ?_⟩
    have hr' : ((s.sessions (s.backends b).owner).rename newNick).readyAnnounced = false := hr
    simp only [onBackendEvent, onNick, hn, if_true, sessions_modifySession_self, hr',
      Bool.not_false]
  | _ => rw [he] at ha; cases ha

/-- It is marked, it is told and the others are, and then all that has waited is handled in
order. -/
theorem step_announced (hs : s.step e = some s') (ha : s.announced e = some w) :
    ∃ t u, Change s e t ∧ (t.sessions w).ws = (s.sessions w).ws ∧ Deeds (· = .ready w)
      (t.sendReady w) u ∧
      (u.sessions w).pending = [] ∧
      s' = (s.sessions w).pending.foldl (fun s m => s.handleClientMessage w m) u := by
  obtain ⟨b, p, f, nickname, rfl, rfl, hb, hf, hc, rfl⟩ := step_announceReady hs ha
  obtain ⟨u, hd, hu, hr⟩ := announceReady_split (P := (· = .ready (s.backends b).owner))
    (s := s.modifySession (s.backends b).owner f) (w := (s.backends b).owner) rfl
  rw [modifySession_modifySession] at hd
  refine ⟨_, u, hc, ?_, hd, hu, ?_⟩
  · rw [sessions_modifySession_self]
    rcases hf with ⟨-, rfl⟩ | ⟨-, rfl⟩ <;> rfl
  · rw [hr, sessions_modifySession_self]
    rcases hf with ⟨-, rfl⟩ | ⟨-, rfl⟩ <;> rfl

/-- What is done about a valid message. -/
theorem onClientRaw_of_valid {n : ℕ} {v : Option Json} {m : ClientMessage}
    (hv : s.valid? n v = some m) : s.onClientRaw w n v = s.onClientMessage w m := by
  unfold valid? at hv
  split at hv
  · cases hv
  rename_i hn
  split at hv
  · rename_i m' hm
    cases hv
    obtain ⟨value, rfl, hr⟩ := Option.map_eq_some_iff.mp hm
    unfold onClientRaw
    simp only [if_neg hn, hr]
  · cases hv

/-- **A step in which a message arrives**: it is handled at once, or it waits. -/
theorem step_arrives {m : ClientMessage} {l : List ClientMessage} (hs : s.step e = some s')
    (ha : s.arrives e w = m :: l) :
    l = [] ∧ s' = if s.immediate w then s.handleClientMessage w m
      else s.modifySession w fun session => { session with pending := session.pending ++ [m] } := by
  cases e with
  | message x n v =>
    have hx : x = w := by
      by_contra hne
      simp [arrives, hne] at ha
    subst hx
    obtain ⟨hv, hm, hl⟩ := arrives_eq_cons ha
    obtain ⟨-, hs⟩ := Option.ite_none_left_eq_some.mp hs
    obtain ⟨-, hs⟩ := Option.ite_none_right_eq_some.mp hs
    refine ⟨hl, ?_⟩
    rw [← Option.some.inj hs, onClientRaw_of_valid hv]
    have hi : s.immediate x = ((s.sessions x).authenticated && (s.sessions x).welcomed) := rfl
    cases m with
    | register => cases hm
    | login => cases hm
    | logout => cases hm
    | _ =>
      simp only [onClientMessage, hi]
      cases (s.sessions x).authenticated <;> cases (s.sessions x).welcomed <;> rfl
  | _ => cases ha

/-- **What takes effect in a step**: the messages of `handles`, and no others, are handled
one after the other, after everything else the step does. -/
theorem step_handles (hs : s.step e = some s') (w : WsId) :
    ∃ t u, Change s e t ∧ Deeds (fun c => ∀ m, c ≠ .message w m) t u ∧
      s' = (s.handles e w).foldl (fun s m => s.handleClientMessage w m) u := by
  by_cases ha : s.announced e = some w
  · obtain ⟨t, u, hc, -, hd, -, he⟩ := step_announced hs ha
    have hr : Deeds (· = .ready w) t (t.sendReady w) :=
      sendReady_deeds (c := .ready w) rfl (.inl rfl)
    refine ⟨t, u, hc, (hr.trans hd).mono ?_, by rwa [handles, if_pos ha]⟩
    rintro _ rfl
    exact nofun
  rw [handles, if_neg ha]
  have hrest (hn : s.handles e w = []) :
      ∃ t u, Change s e t ∧ Deeds (fun c => ∀ m, c ≠ .message w m) t u ∧ s' = u := by
    obtain ⟨t, hc, hd⟩ := step_deeds hs
    refine ⟨t, s', hc, hd.mono ?_, rfl⟩
    intro c h m hm
    have hmem := (hm ▸ h : s.Causes e (.message w m)).message
    rw [hn] at hmem
    cases hmem
  rw [handles, if_neg ha] at hrest
  cases hi : s.immediate w with
  | false => exact hrest (by rw [hi]; rfl)
  | true =>
    rw [hi] at hrest
    cases hw : s.arrives e w with
    | nil => exact hrest hw
    | cons m l =>
      obtain ⟨rfl, he⟩ := step_arrives hs hw
      rw [hi] at he
      cases e with
      | message x n v =>
        obtain ⟨-, hs⟩ := Option.ite_none_left_eq_some.mp hs
        obtain ⟨hl, -⟩ := Option.ite_none_right_eq_some.mp hs
        exact ⟨s, s, .message hl, .refl s, he⟩
      | _ => cases hw

/-- The queue of a session after a step. -/
theorem step_pending (hs : s.step e = some s') (hn : e = .connection → x ≠ s.nextWs) :
    (s'.sessions x).pending =
      (if s.announced e = some x then [] else (s.sessions x).pending) ++
        if s.immediate x then [] else s.arrives e x := by
  by_cases ha : s.announced e = some x
  · obtain ⟨t, u, -, -, -, hu, he⟩ := step_announced hs ha
    obtain ⟨b, p, rfl, -⟩ := announced_eq_some ha
    rw [if_pos ha, he, replay_pending, hu]
    simp [arrives]
  rw [if_neg ha]
  cases hw : s.arrives e x with
  | nil =>
    obtain ⟨t, hc, hd⟩ := step_deeds hs
    have hp := hd.pending (x := x) fun c h => ⟨fun m hm => ?_, fun hr => ha (hr ▸ h).ready⟩
    · rw [hp, (Prod.mk.inj (hc.own hn)).2]
      simp
    · rw [(hm ▸ h : s.Causes e (.wait x m)).wait.1] at hw
      cases hw
  | cons m l =>
    obtain ⟨rfl, he⟩ := step_arrives hs hw
    rw [he]
    cases hi : s.immediate x with
    | true =>
      have hp := replay_pending (x := x) s x [m]
      simpa using hp
    | false => simp

/-! ### Sessions that have not arrived -/

/-- Nothing has come from sessions that have not arrived. -/
structure Fresh (past : List (GatewayServer × Event)) (s : GatewayServer) : Prop where
  /-- Only authenticated sessions join. -/
  joined : Joined s
  /-- No message waits. -/
  pending : ∀ w, s.nextWs ≤ w → (s.sessions w).pending = []
  /-- `ready` has not been announced. -/
  ready : ∀ w, s.nextWs ≤ w → (s.sessions w).readyAnnounced = false
  /-- No message has arrived. -/
  received : ∀ w, s.nextWs ≤ w → received past w = []
  /-- None has taken effect. -/
  effective : ∀ w, s.nextWs ≤ w → effective past w = []

theorem fresh_init (env : Env) (config : GatewayConfig) : Fresh [] (init env config) :=
  ⟨joined_init env config, fun _ _ => rfl, fun _ _ => rfl, fun _ _ => rfl, fun _ _ => rfl⟩

/-- A message arrives from a session that is there. -/
theorem Joined.lt_of_arrives (h : Joined s) (hs : s.step e = some s') (ha : s.arrives e w ≠ []) :
    w < s.nextWs := by
  cases e with
  | message x n v =>
    have hx : x = w := by
      by_contra hne
      simp [arrives, hne] at ha
    subst hx
    obtain ⟨-, hs⟩ := Option.ite_none_left_eq_some.mp hs
    obtain ⟨hl, -⟩ := Option.ite_none_right_eq_some.mp hs
    apply Nat.lt_of_not_le
    intro hle
    simp [live, (h.unborn x hle).1] at hl
  | _ => exact absurd rfl ha

/-- The owner of a connection that a frame arrives on is authenticated. -/
theorem Joined.authenticated_of_announced (h : Joined s) (hs : s.step e = some s')
    (ha : s.announced e = some w) : (s.sessions w).authenticated = true := by
  obtain ⟨b, p, rfl, rfl, -⟩ := announced_eq_some ha
  obtain ⟨-, hs⟩ := Option.ite_none_left_eq_some.mp hs
  obtain ⟨⟨hb, -⟩, -⟩ := Option.ite_none_right_eq_some.mp hs
  exact h.owner_of_opened hb

theorem step_nextWs (hs : s.step e = some s') :
    s'.nextWs = s.nextWs ∨ e = .connection ∧ s'.nextWs = s.nextWs + 1 := by
  obtain ⟨t, hc, hd⟩ := step_deeds hs
  rw [hd.same.nextWs]
  cases hc.moves with
  | arrives => exact .inr ⟨rfl, rfl⟩
  | joins => exact .inl rfl
  | leaves h => exact .inl h.nextWs
  | fails h => exact .inl h.nextWs
  | stays h => exact .inl h.nextWs

theorem Fresh.step (h : Fresh past s) (hs : s.step e = some s') : Fresh (past ++ [(s, e)]) s' := by
  have hlt {w : WsId} (hw : s'.nextWs ≤ w) : s.nextWs ≤ w ∧ (e = .connection → w ≠ s.nextWs) := by
    rcases step_nextWs hs with hn | ⟨-, hn⟩
    · refine ⟨hn ▸ hw, ?_⟩
      rintro rfl
      obtain ⟨-, hs⟩ := Option.ite_none_left_eq_some.mp hs
      obtain ⟨-, hs⟩ := Option.ite_none_left_eq_some.mp hs
      rw [← Option.some.inj hs] at hn
      exact absurd hn (Nat.succ_ne_self _)
    · rw [hn] at hw
      exact ⟨Nat.le_of_succ_le hw, fun _ => Nat.ne_of_gt hw⟩
  have harr {w : WsId} (hw : s'.nextWs ≤ w) : s.arrives e w = [] := by
    by_contra hne
    exact absurd (h.joined.lt_of_arrives hs hne) (Nat.not_lt.mpr (hlt hw).1)
  have hann {w : WsId} (hw : s'.nextWs ≤ w) : s.announced e ≠ some w := by
    intro ha
    have := h.joined.authenticated_of_announced hs ha
    rw [(h.joined.unborn w (hlt hw).1).2] at this
    cases this
  refine ⟨h.joined.step hs, ?_, ?_, ?_, ?_⟩
  · intro w hw
    rw [step_pending hs (hlt hw).2, harr hw, if_neg (hann hw), h.pending w (hlt hw).1]
    simp
  · intro w hw
    rw [Bool.eq_false_iff, Ne, step_readyAnnounced hs (hlt hw).2, h.ready w (hlt hw).1]
    simp [hann hw]
  · intro w hw
    rw [received_append, h.received w (hlt hw).1, harr hw]
    rfl
  · intro w hw
    rw [effective_append, h.effective w (hlt hw).1, handles, if_neg (hann hw), harr hw]
    simp

theorem fresh_of_path {C : GatewayServer → Event → Prop} {env : Env} {config : GatewayConfig}
    (h : PathIn step C (init env config) past s) : Fresh past s :=
  h.invariant (fresh_init env config) fun _ _ _ _ hf _ hs => hf.step hs

/-! ### In the order of arrival -/

/-- **The condition**: no message arrives from a session that has been welcomed before it
is ready and all that has waited has been handled. -/
def InTurn (s : GatewayServer) : Event → Prop
  | .message w n v =>
    s.arrives (.message w n v) w = [] ∨ s.immediate w = false ∨
      (s.sessions w).readyAnnounced = true ∧ (s.sessions w).pending = []
  | _ => True

instance (s : GatewayServer) (e : Event) : Decidable (InTurn s e) := by
  unfold InTurn
  split <;> infer_instance

theorem InTurn.of_arrives (h : InTurn s e) (ha : s.arrives e w ≠ []) (hi : s.immediate w = true) :
    (s.sessions w).readyAnnounced = true ∧ (s.sessions w).pending = [] := by
  cases e with
  | message x n v =>
    have hx : x = w := by
      by_contra hne
      simp [arrives, hne] at ha
    subst hx
    rcases h with h | h | h
    · exact absurd h ha
    · rw [hi] at h
      cases h
    · exact h
  | _ => exact absurd rfl ha

/-- One step keeps the order. -/
theorem InTurn.conserves (h : InTurn s e) (hf : Fresh past s) (hs : s.step e = some s') (w : WsId) :
    (s.sessions w).pending ++ s.arrives e w = s.handles e w ++ (s'.sessions w).pending := by
  by_cases hn : e = .connection ∧ w = s.nextWs
  · obtain ⟨rfl, rfl⟩ := hn
    obtain ⟨-, hs⟩ := Option.ite_none_left_eq_some.mp hs
    obtain ⟨-, hs⟩ := Option.ite_none_left_eq_some.mp hs
    rw [← Option.some.inj hs, sessions_onConnection_self, hf.pending _ le_rfl]
    simp [handles, announced, arrives]
  rw [step_pending hs fun he hw => hn ⟨he, hw⟩, handles]
  by_cases ha : s.announced e = some w
  · obtain ⟨b, p, rfl, -⟩ := announced_eq_some ha
    simp [ha, arrives]
  rw [if_neg ha, if_neg ha]
  cases hi : s.immediate w with
  | false => simp
  | true =>
    cases hw : s.arrives e w with
    | nil => simp
    | cons m l =>
      rw [(h.of_arrives (by rw [hw]; exact nofun) hi).2]
      simp

/-- **In order, once, and not before `ready`**: if no message arrives from a session
between its welcome and the moment it is ready, then what has arrived is what has taken
effect, in the same order, and what waits; and nothing has taken effect of a session that
is not ready. -/
theorem takes_effect_in_order {env : Env} {config : GatewayConfig}
    (h : PathIn step InTurn (init env config) past s) (w : WsId) :
    received past w = effective past w ++ (s.sessions w).pending ∧
    ((s.sessions w).readyAnnounced = false → effective past w = []) := by
  refine ⟨h.conserves rfl fun past t a u hp hc hs =>
    InTurn.conserves hc (fresh_of_path hp) hs w, ?_⟩
  refine (h.invariant (I := fun past s => Fresh past s ∧
    ((s.sessions w).readyAnnounced = false → effective past w = []))
    ⟨fresh_init env config, fun _ => rfl⟩ fun past s e s' ⟨hf, hI⟩ hc hs => ⟨hf.step hs, ?_⟩).2
  intro hr
  have hf' := hf.step hs
  by_cases hn : e = .connection ∧ w = s.nextWs
  · obtain ⟨rfl, rfl⟩ := hn
    rw [effective_append, hf.effective _ le_rfl]
    simp [handles, announced, arrives]
  have hready := (step_readyAnnounced hs (x := w) fun he hw => hn ⟨he, hw⟩).not
  rw [hr, not_or] at hready
  obtain ⟨hr0, ha⟩ := hready.mp nofun
  have hr0 : (s.sessions w).readyAnnounced = false := by simpa using hr0
  rw [effective_append, hI hr0, handles, if_neg ha, List.nil_append]
  cases hi : s.immediate w with
  | false => rfl
  | true =>
    by_contra hne
    rw [(hc.of_arrives hne hi).1] at hr0
    cases hr0

/-- A `setPresence` message. -/
def presenceMessage (presence : String) : Json :=
  .obj [(units "type", .str (units "setPresence")), (units "presence", .str (units presence))]

/-- Two messages, one before the session is authenticated and one when it is ready. -/
def inTurn : List Event :=
  [.connection, .message 0 70 (some (presenceMessage "away")),
    .message 0 70 (some (registerMessage "alice")), .authDone 0,
    .connected 0, .backendFrame 0 (bytes "WELCOME alice"),
    .message 0 70 (some (presenceMessage "online"))]

/-- The second message comes when the session has been welcomed under another name than its
username, and waits for the `NICK`. -/
def outOfTurn : List Event :=
  [.connection, .message 0 70 (some (presenceMessage "away")),
    .message 0 70 (some (registerMessage "alice")), .authDone 0,
    .connected 0, .backendFrame 0 (bytes "WELCOME User1"),
    .message 0 70 (some (presenceMessage "online"))]

set_option maxRecDepth 8000 in
theorem two_take_effect_in_order :
    ∃ past s, PathIn step InTurn (init .sample {}) past s ∧
      received past 0 = [.setPresence .away, .setPresence .online] ∧ (s.sessions 0).pending = [] ∧
      effective past 0 = [.setPresence .away, .setPresence .online] := by
  have h : (execAllIn step InTurn (init .sample {}) inTurn).map (fun s => (s.sessions 0).pending) =
      some [] := by decide
  obtain ⟨s, hs, hp⟩ := exists_pathIn_of_execAllIn h
  have hr : received (trace step (init .sample {}) inTurn) 0 =
      [.setPresence .away, .setPresence .online] := by decide
  have hc := (takes_effect_in_order hs 0).1
  rw [hp, List.append_nil, hr] at hc
  exact ⟨_, s, hs, hr, hp, hc.symm⟩

set_option maxRecDepth 8000 in
/-- **A message may overtake**: one that comes after the welcome takes effect at once, before
the session is ready and before one that has come earlier and waits. -/
theorem message_overtakes :
    ∃ past s, Path step (init .sample {}) past s ∧
      received past 0 = [.setPresence .away, .setPresence .online] ∧
      effective past 0 = [.setPresence .online] ∧
      (s.sessions 0).pending = [.setPresence .away] ∧ (s.sessions 0).readyAnnounced = false := by
  have h : (execAllIn step (fun _ _ => True) (init .sample {}) outOfTurn).map (fun s =>
      ((s.sessions 0).pending, (s.sessions 0).readyAnnounced)) =
      some ([.setPresence .away], false) := by decide
  obtain ⟨s, hs, he⟩ := exists_pathIn_of_execAllIn h
  simp only [Prod.mk.injEq] at he
  exact ⟨_, s, hs, by decide, by decide, he⟩

end GatewayServer

end ThreadLink.Gateway
