import ThreadLink.Frontend.ChatState
import ThreadLink.Gateway.Queue
import ThreadLink.Gateway.Standing

/-!
# What the browsers show

Each browser has a map of the users that are online. It is made of the snapshots that
`ready` brings, and changed by `userUpdate` and `userOffline`. This module has the map that
a browser has after what its session has been sent, against the roster.

## The model

* `view` replays what a session has been sent. What the browser had before does not matter,
  since `ready` replaces it.
* Between the welcome and `ready` a session is in the roster, and those who were told of the
  others already need not know of it; `Shows` says nothing of such a session.

## What is proved

* `mirrors_of_path` — in the runs with one attempt at a time and a chat server that tells
  things in order, the map of every browser shows who is ready.
-/

namespace ThreadLink.Gateway

open Text Runs Frontend

/-- What the browsers show of a session, and whether they do. -/
def Session.shown (session : Session) : User × Bool × Bool :=
  (⟨session.id, session.nickname, session.presence⟩, session.readyAnnounced, session.welcomed)

/-- A cause for which nobody is told of a user. -/
def Cause.Plain : Cause → Prop
  | .message _ m => ∀ p, m ≠ .setPresence p
  | .ready _ | .rename _ | .leave _ => False
  | .wait _ _ | .event _ _ | .answer => True

namespace GatewayServer

variable {past : List (GatewayServer × Event)} {s s' t : GatewayServer} {e : Event} {w x y : WsId}
  {id : Units}
  {users : OrdMap Units User}

/-! ### Who hears a broadcast -/

/-- The roster has every session under its id, and those who are ready and can be sent
something. -/
structure Placed (s : GatewayServer) : Prop where
  /-- A session is in the roster under its id. -/
  own : ∀ id w, s.roster.find? id = some w → (s.sessions w).id = id
  /-- A session that is ready has been welcomed. -/
  welcomed : ∀ x, (s.sessions x).readyAnnounced = true → (s.sessions x).welcomed = true
  /-- If it is open it is in the roster. -/
  listed : ∀ x, (s.sessions x).readyAnnounced = true → (s.sessions x).ws = .opened →
    s.roster.find? (s.sessions x).id = some x

theorem Standing.placed (h : Standing past s) : Placed s where
  own id w hw := (h.tidy.wired.roster id w hw).1
  welcomed := h.ready
  listed x hr ho := by
    refine h.listed (h.welcomed x (h.ready x hr)) (h.tidy.live_open ?_)
    rw [live, ho]
    rfl

theorem Placed.same (h : Placed s) (hs : Same s t) : Placed t where
  own id w hw := by
    obtain ⟨p, q, hx⟩ := hs.sessions w
    rw [hx]
    exact h.own id w (hs.roster ▸ hw)
  welcomed x hr := by
    obtain ⟨p, q, hx⟩ := hs.sessions x
    rw [hx] at hr ⊢
    exact h.welcomed x hr
  listed x hr ho := by
    obtain ⟨p, q, hx⟩ := hs.sessions x
    rw [hx] at hr ho ⊢
    rw [hs.roster]
    exact h.listed x hr ho

theorem Placed.map_id_values (h : Placed s) :
    s.roster.values.map (fun w => (s.sessions w).id) = s.roster.keys := by
  rw [OrdMap.values, OrdMap.keys, List.map_map]
  apply List.map_congr_left
  intro a ha
  exact h.own a.1 a.2 (OrdMap.find?_eq_some.mpr ha)

/-- No session is in the roster twice. -/
theorem Placed.nodup_values (h : Placed s) : s.roster.values.Nodup :=
  List.Nodup.of_map (fun w => (s.sessions w).id) (h.map_id_values ▸ s.roster.nodup_keys)

/-- A session in the roster is found under its id. -/
theorem Placed.find? (h : Placed s) (hw : w ∈ s.roster.values) :
    s.roster.find? (s.sessions w).id = some w := by
  obtain ⟨id, hf⟩ := OrdMap.mem_values.mp hw
  rw [h.own id w hf]
  exact hf

/-- Whoever is ready and open hears a broadcast once, unless it is left out. -/
theorem Placed.sent_broadcast (h : Placed s) (hr : (s.sessions x).readyAnnounced = true)
    (ho : (s.sessions x).ws = .opened) {ex : Option Units} (hne : some (s.sessions x).id ≠ ex)
    (m : ServerMessage) (about : List WsId) :
    (s.broadcastToAll m ex about).sent x = s.sent x ++ [⟨m, about⟩] := by
  have hf := h.listed x hr ho
  have hc : s.roster.values.count x = 1 :=
    List.count_eq_one_of_mem h.nodup_values (OrdMap.mem_values.mpr ⟨_, hf⟩)
  rw [sent_broadcastToAll, if_pos (show s.Hears ex x from ⟨hne, h.welcomed x hr, ho⟩), hc]
  rfl

/-- Whoever is left out does not hear it. -/
theorem sent_broadcast_excluded (m : ServerMessage) (about : List WsId) (x : WsId) :
    (s.broadcastToAll m (some (s.sessions x).id) about).sent x = s.sent x := by
  rw [sent_broadcastToAll, if_neg (fun hh => hh.1 rfl), List.append_nil]

/-! ### What a map shows -/

/-- A user, as the browsers are to have it. -/
def user (s : GatewayServer) (w : WsId) : User := userFromSummary (s.summarize w)

/-- A map shows the account as it is: with what its session says if it is ready, and not if
no session of it has been welcomed. -/
def ShowsAt (s : GatewayServer) (users : OrdMap Units User) (id : Units) : Prop :=
  (∀ w, s.roster.find? id = some w → (s.sessions w).readyAnnounced = true →
    users.find? id = some (s.user w)) ∧
  ((∀ w, s.roster.find? id = some w → (s.sessions w).welcomed = false) → users.find? id = none)

/-- A map shows who is ready. -/
def Shows (s : GatewayServer) (users : OrdMap Units User) : Prop := ∀ id, ShowsAt s users id

/-- The map of a browser that had `users` when its session arrived. -/
def view (users : OrdMap Units User) (l : List Sent) : OrdMap Units User :=
  (l.map (·.message)).foldl usersStep users

@[simp] theorem view_append (users : OrdMap Units User) (l l' : List Sent) :
    view users (l ++ l') = view (view users l) l' := by
  rw [view, List.map_append, List.foldl_append]
  rfl

@[simp] theorem view_singleton (users : OrdMap Units User) (m : Sent) :
    view users [m] = usersStep users m.message :=
  rfl

/-- What a session has to say for its account to be shown as before. -/
def Kept (s t : GatewayServer) (w : WsId) : Prop :=
  ((t.sessions w).readyAnnounced = true → (s.sessions w).readyAnnounced = true ∧
    t.user w = s.user w) ∧
  ((t.sessions w).welcomed = false → (s.sessions w).welcomed = false)

theorem kept_of_shown (h : (t.sessions w).shown = (s.sessions w).shown) : Kept s t w := by
  simp only [Session.shown, Prod.mk.injEq] at h
  obtain ⟨hu, hr, hw⟩ := h
  exact ⟨fun hready => ⟨hr ▸ hready, hu⟩, fun hn => hw ▸ hn⟩

/-- The account is shown as before if its session says the same. -/
theorem ShowsAt.congr (h : ShowsAt s users id) (hr : t.roster.find? id = s.roster.find? id)
    (hs : ∀ w, s.roster.find? id = some w → Kept s t w) : ShowsAt t users id := by
  refine ⟨?_, ?_⟩
  · intro w hw hready
    rw [hr] at hw
    obtain ⟨h1, h2⟩ := (hs w hw).1 hready
    rw [h2]
    exact h.1 w hw h1
  · intro hn
    exact h.2 fun w hw => (hs w hw).2 (hn w (hr.trans hw))

/-- A map that is changed elsewhere still shows the account. -/
theorem ShowsAt.of_find? {users' : OrdMap Units User} (h : ShowsAt s users id)
    (he : users'.find? id = users.find? id) : ShowsAt s users' id :=
  ⟨fun w hw hr => he.trans (h.1 w hw hr), fun hn => he.trans (h.2 hn)⟩

/-- A session that has been welcomed is shown when it has been told of. -/
theorem ShowsAt.insert (users : OrdMap Units User) (hf : s.roster.find? id = some w)
    (hw : (s.sessions w).welcomed = true) : ShowsAt s (users.insert id (s.user w)) id := by
  refine ⟨?_, ?_⟩
  · intro y hy _
    obtain rfl := Option.some.inj (hf.symm.trans hy)
    exact OrdMap.find?_insert_self ..
  · intro hn
    rw [hn w hf] at hw
    cases hw

/-- Telling of a session that has been welcomed keeps what is shown elsewhere, and shows it. -/
theorem Shows.update (hf : s.roster.find? (s.sessions w).id = some w)
    (hw : (s.sessions w).welcomed = true) (h : ∀ id, id ≠ (s.sessions w).id → ShowsAt s users id) :
    Shows s (usersStep users (.userUpdate (s.summarize w))) := by
  intro id
  by_cases hid : id = (s.sessions w).id
  · subst hid
    exact ShowsAt.insert users hf hw
  · exact (h id hid).of_find? (OrdMap.find?_insert_of_ne _ hid _)

/-- A snapshot shows who is ready. -/
theorem Placed.shows_ready (h : Placed s) (w : WsId) :
    Shows s (usersStep users (s.readyMessage w)) := by
  intro id
  show ShowsAt s (readyUsers (s.welcomedSessions.map s.summarize)) id
  refine ⟨fun y hy hr => ?_, fun hn => find?_readyUsers_eq_none fun u hu hid => ?_⟩
  · have hy' : s.summarize y ∈ s.welcomedSessions.map s.summarize :=
      List.mem_map_of_mem (List.mem_filter.mpr ⟨OrdMap.mem_values.mpr ⟨id, hy⟩, h.welcomed y hr⟩)
    rw [← h.own id y hy]
    refine find?_readyUsers hy' fun v hv hid => ?_
    obtain ⟨z, hz, rfl⟩ := List.mem_map.mp hv
    obtain ⟨id', hf⟩ := OrdMap.mem_values.mp (List.mem_filter.mp hz).1
    -- both are found under the same id
    have hid' : id' = id := (h.own id' z hf).symm.trans (hid.trans (h.own id y hy))
    rw [Option.some.inj (hf.symm.trans (hid' ▸ hy))]
  · obtain ⟨y, hy, rfl⟩ := List.mem_map.mp hu
    obtain ⟨hy, hw⟩ := List.mem_filter.mp hy
    obtain ⟨id', hf⟩ := OrdMap.mem_values.mp hy
    have hid' : id' = id := (h.own id' y hf).symm.trans hid
    rw [hn y (hid' ▸ hf)] at hw
    cases hw

/-! ### What the browsers show -/

/-- The browsers of the sessions that are ready and open show an account as it is. -/
def MirrorsAt (s : GatewayServer) (users : OrdMap Units User) (id : Units) : Prop :=
  ∀ x, (s.sessions x).readyAnnounced = true → (s.sessions x).ws = .opened →
    ShowsAt s (view users (s.sent x)) id

/-- They show who is ready. -/
def Mirrors (s : GatewayServer) (users : OrdMap Units User) : Prop := ∀ id, MirrorsAt s users id

theorem Mirrors.shows (h : Mirrors s users) (hr : (s.sessions x).readyAnnounced = true)
    (ho : (s.sessions x).ws = .opened) : Shows s (view users (s.sent x)) :=
  fun id => h id x hr ho

/-- Nothing is sent, nobody becomes ready, and the session of the account says the same. -/
theorem MirrorsAt.congr (h : MirrorsAt s users id) (hsent : t.sent = s.sent)
    (hopen : ∀ x, (t.sessions x).readyAnnounced = true → (t.sessions x).ws = .opened →
      (s.sessions x).readyAnnounced = true ∧ (s.sessions x).ws = .opened)
    (hr : t.roster.find? id = s.roster.find? id)
    (hs : ∀ w, s.roster.find? id = some w → Kept s t w) : MirrorsAt t users id := by
  intro x hready ho
  obtain ⟨hready, ho⟩ := hopen x hready ho
  rw [hsent]
  exact (h x hready ho).congr hr hs

/-- A change of one session leaves alone what is shown of the other accounts. -/
theorem MirrorsAt.modifySession (h : MirrorsAt s users id) (hp : Placed s)
    (hid : id ≠ (s.sessions w).id) {f : Session → Session}
    (hf : (f (s.sessions w)).readyAnnounced = true → (f (s.sessions w)).ws = .opened →
      (s.sessions w).readyAnnounced = true ∧ (s.sessions w).ws = .opened) :
    MirrorsAt (s.modifySession w f) users id := by
  refine h.congr rfl ?_ rfl ?_
  · intro x hr ho
    by_cases hxw : x = w
    · subst hxw
      rw [sessions_modifySession_self] at hr ho
      exact hf hr ho
    · rw [sessions_modifySession_of_ne s hxw] at hr ho
      exact ⟨hr, ho⟩
  · intro x hx
    have hxw : x ≠ w := by
      rintro rfl
      exact hid (hp.own id x hx).symm
    exact kept_of_shown (by rw [sessions_modifySession_of_ne s hxw])

/-- **All are told of a session** that is in the roster and has been welcomed: then its account
is shown too. -/
theorem Mirrors.broadcast (hp : Placed s) (hf : s.roster.find? (s.sessions w).id = some w)
    (hw : (s.sessions w).welcomed = true) (h : ∀ id, id ≠ (s.sessions w).id → MirrorsAt s users id)
    {ex : Option Units}
    (hex : ∀ x, (s.sessions x).readyAnnounced = true → (s.sessions x).ws = .opened →
      some (s.sessions x).id = ex → x = w ∧ Shows s (view users (s.sent w)))
    (about : List WsId) :
    Mirrors (s.broadcastToAll (.userUpdate (s.summarize w)) ex about) users := by
  have he := broadcastToAll_eq s (.userUpdate (s.summarize w)) ex about
  intro id x hr ho
  rw [he] at hr ho ⊢
  suffices Shows s
    (view users ((s.broadcastToAll (.userUpdate (s.summarize w)) ex about).sent x)) from this id
  by_cases hx : some (s.sessions x).id = ex
  · obtain ⟨rfl, hs⟩ := hex x hr ho hx
    rw [← hx, sent_broadcast_excluded]
    exact hs
  · rw [hp.sent_broadcast hr ho hx, view_append]
    exact Shows.update hf hw fun id hid => h id hid x hr ho

/-! ### Messages of a client -/

/-- What is sent for such a cause is a snapshot, or changes no map. -/
theorem Told.plain {c : Cause} {m : Sent} (h : Told s c x m) (hc : c.Plain) :
    m.message = s.readyMessage x ∨ ∀ users, usersStep users m.message = users := by
  cases h with
  | ready => exact .inl rfl
  | announced => exact hc.elim
  | renamed => exact hc.elim
  | presence => exact absurd rfl (hc _)
  | offline => exact hc.elim
  | _ => exact .inr fun _ => rfl

/-- Such a deed leaves alone what the sessions say of their users. -/
theorem Deed.plain {c : Cause} (h : Deed s c t) (hc : c.Plain) (x : WsId) :
    ∃ pending, t.sessions x = { s.sessions x with pending := pending } := by
  have hm {w : WsId} {f : List ClientMessage → List ClientMessage} :
      ∃ pending,
      (s.modifySession w fun session => { session with pending := f session.pending }).sessions x =
        { s.sessions x with pending := pending } := by
    by_cases hx : x = w
    · subst hx
      exact ⟨_, sessions_modifySession_self ..⟩
    · exact ⟨_, sessions_modifySession_of_ne s hx _⟩
  cases h with
  | presence => exact absurd rfl (hc _)
  | @wait w m => exact hm (f := fun pending => pending ++ [m])
  | @drain w => exact hc.elim
  | nick => rw [sendLine_eq]; exact ⟨_, rfl⟩
  | chat => rw [forward, sendLine_eq]; exact ⟨_, rfl⟩
  | direct => rw [forward, sendLine_eq]; exact ⟨_, rfl⟩
  | _ => exact ⟨_, rfl⟩

theorem Mirrors.deed {c : Cause} (h : Mirrors s users) (hp : Placed s) (hd : Deed s c t)
    (hc : c.Plain) : Mirrors t users := by
  have hsame : Same s t := Deeds.same (P := fun _ => True) ((Deeds.refl s).then trivial hd)
  -- what is sent is made of the state before the deed
  suffices ∀ x, (s.sessions x).readyAnnounced = true → (s.sessions x).ws = .opened →
      Shows s (view users (t.sent x)) by
    intro id x hr ho
    obtain ⟨pending, hx⟩ := hd.plain hc x
    rw [hx] at hr ho
    refine (this x hr ho id).congr (by rw [hsame.roster]) ?_
    intro w _
    obtain ⟨pending, hw⟩ := hd.plain hc w
    exact kept_of_shown (by rw [hw]; rfl)
  intro x hr ho
  rcases hd.sent x with hx | ⟨m, hx, hm⟩
  · rw [hx]
    exact h.shows hr ho
  · rw [hx, view_append, view_singleton]
    cases hm with
    | error => exact h.shows hr ho
    | loggedOut _ hno => exact absurd ho hno
    | told _ ht =>
      rcases ht.plain hc with hm | hm
      · rw [hm]
        exact hp.shows_ready x
      · rw [hm]
        exact h.shows hr ho

theorem Mirrors.deeds {P : Cause → Prop} (h : Mirrors s users) (hp : Placed s) (hd : Deeds P s t)
    (hP : ∀ c, P c → c.Plain) : Mirrors t users := by
  induction hd with
  | refl => exact h
  | tail hd hlast ih =>
    obtain ⟨c, hc, hlast⟩ := hlast
    exact ih.deed (hp.same (Deeds.same hd)) hlast (hP c hc)

/-- The session that is acted for is in the roster and has been welcomed. -/
def Listed (s : GatewayServer) (w : WsId) : Prop :=
  s.roster.find? (s.sessions w).id = some w ∧ (s.sessions w).welcomed = true

theorem Listed.same (h : Listed s w) (hs : Same s t) : Listed t w := by
  obtain ⟨p, q, hw⟩ := hs.sessions w
  rw [Listed, hw, hs.roster]
  exact h

/-- **Handling a message of a client.** -/
theorem Mirrors.handleClientMessage (h : Mirrors s users) (hp : Placed s) (hw : Listed s w)
    (m : ClientMessage) : Mirrors (s.handleClientMessage w m) users := by
  have hplain (hm : ∀ p, m ≠ .setPresence p) : Mirrors (s.handleClientMessage w m) users := by
    apply h.deeds hp (handleClientMessage_deeds (P := (· = .message w m)) rfl)
    rintro _ rfl
    exact hm
  cases m with
  | setPresence presence =>
    have hsame : Same s (s.modifySession w fun session => { session with presence := presence }) :=
      Deeds.same (P := fun _ => True) ((Deeds.refl s).then trivial .presence)
    obtain ⟨hf, hwelcomed⟩ := hw.same hsame
    refine Mirrors.broadcast (hp.same hsame) hf hwelcomed ?_ (fun _ _ _ hx => by cases hx) [w]
    intro id hid
    rw [sessions_modifySession_self] at hid
    exact (h id).modifySession hp hid fun hr ho => ⟨hr, ho⟩
  | _ => exact hplain nofun

theorem handleClientMessage_same (s : GatewayServer) (w : WsId) (m : ClientMessage) :
    Same s (s.handleClientMessage w m) :=
  Deeds.same (handleClientMessage_deeds (P := (· = .message w m)) rfl)

theorem Mirrors.replay (h : Mirrors s users) (hp : Placed s) (hw : Listed s w)
    (queued : List ClientMessage) :
    Mirrors (queued.foldl (fun s m => s.handleClientMessage w m) s) users := by
  induction queued generalizing s with
  | nil => exact h
  | cons m queued ih =>
    have hs := handleClientMessage_same s w m
    exact ih (h.handleClientMessage hp hw m) (hp.same hs) (hw.same hs)

/-! ### Announcing -/

theorem sendReady_eq (s : GatewayServer) (w : WsId) :
    s.sendReady w = { s with sent := (s.sendReady w).sent } :=
  sendTo_eq s w (s.readyMessage w) s.welcomedSessions

/-- Who is sent `ready` is shown who is ready. -/
theorem Placed.shows_sendReady (h : Placed s) (users : OrdMap Units User)
    (ho : (s.sessions w).ws = .opened) : Shows s (view users ((s.sendReady w).sent w)) := by
  have hsent : (s.sendReady w).sent w = s.sent w ++ [⟨s.readyMessage w, s.welcomedSessions⟩] := by
    show (s.sendTo w (s.readyMessage w) s.welcomedSessions).sent w = _
    rw [sendTo, if_pos ho]
    exact Function.update_self ..
  rw [hsent, view_append, view_singleton]
  exact h.shows_ready w

theorem sent_sendReady_of_ne (hx : x ≠ w) : (s.sendReady w).sent x = s.sent x := by
  show (s.sendTo w (s.readyMessage w) s.welcomedSessions).sent x = _
  unfold sendTo
  split
  · exact Function.update_of_ne hx ..
  · rfl

/-- A session that keeps its id, and that is ready only if it is in the roster and has been
welcomed. -/
theorem Placed.modifySession (h : Placed s) {f : Session → Session}
    (hid : (f (s.sessions w)).id = (s.sessions w).id)
    (hf : (f (s.sessions w)).readyAnnounced = true → (f (s.sessions w)).welcomed = true ∧
      ((f (s.sessions w)).ws = .opened → s.roster.find? (s.sessions w).id = some w)) :
    Placed (s.modifySession w f) := by
  have hx (x : WsId) : x = w ∨ (s.modifySession w f).sessions x = s.sessions x := by
    by_cases hx : x = w
    · exact .inl hx
    · exact .inr (sessions_modifySession_of_ne s hx _)
  refine ⟨?_, ?_, ?_⟩
  · intro id x hf
    rcases hx x with rfl | he
    · rw [sessions_modifySession_self, hid]
      exact h.own id x hf
    · rw [he]
      exact h.own id x hf
  · intro x hr
    rcases hx x with rfl | he
    · rw [sessions_modifySession_self] at hr ⊢
      exact (hf hr).1
    · rw [he] at hr ⊢
      exact h.welcomed x hr
  · intro x hr ho
    rcases hx x with rfl | he
    · rw [sessions_modifySession_self] at hr ho ⊢
      rw [hid]
      exact (hf hr).2 ho
    · rw [he] at hr ho ⊢
      exact h.listed x hr ho

/-- The queue does not matter. -/
theorem Mirrors.setPending (h : Mirrors s users) (pending : List ClientMessage) :
    Mirrors (s.modifySession w fun session => { session with pending := pending }) users := by
  have hx (x : WsId) :
    ∃ q, (s.modifySession w fun session => { session with pending := pending }).sessions x =
      { s.sessions x with pending := q } := by
    by_cases hx : x = w
    · subst hx
      exact ⟨_, sessions_modifySession_self ..⟩
    · exact ⟨_, sessions_modifySession_of_ne s hx _⟩
  intro id
  refine (h id).congr rfl ?_ rfl ?_
  · intro x hr ho
    obtain ⟨q, he⟩ := hx x
    rw [he] at hr ho
    exact ⟨hr, ho⟩
  · intro x _
    obtain ⟨q, he⟩ := hx x
    exact kept_of_shown (by rw [he]; rfl)

/-- What has been sent does not matter to the sessions. -/
theorem Same.sent (s : GatewayServer) (sent : WsId → List Sent) : Same s { s with sent := sent } :=
  ⟨rfl, rfl, fun _ => ⟨_, _, rfl⟩, rfl, rfl, rfl, rfl, rfl, rfl, rfl⟩

/-- Sending `ready` to one session. -/
theorem MirrorsAt.sendReady (hp : Placed s)
    (h : ∀ x, x ≠ w → (s.sessions x).readyAnnounced = true → (s.sessions x).ws = .opened →
      ShowsAt s (view users (s.sent x)) id) :
    MirrorsAt (s.sendReady w) users id := by
  intro x hr ho
  have hready : (s.sessions x).readyAnnounced = true := by rwa [sendReady_eq] at hr
  have hopen : (s.sessions x).ws = .opened := by rwa [sendReady_eq] at ho
  by_cases hx : x = w
  · subst hx
    rw [sendReady_eq]
    exact hp.shows_sendReady users hopen id
  · rw [sent_sendReady_of_ne hx, sendReady_eq]
    exact h x hx hready hopen

/-- Telling all others of a session that knows who is ready. -/
theorem Mirrors.announce (hp : Placed s) (hw : Listed s w)
    (h : ∀ id, id ≠ (s.sessions w).id → MirrorsAt s users id)
    (hself : (s.sessions w).readyAnnounced = true → (s.sessions w).ws = .opened →
      Shows s (view users (s.sent w)))
    (about : List WsId) :
    Mirrors (s.broadcastToAll (.userUpdate (s.summarize w)) (some (s.sessions w).id) about)
      users := by
  refine Mirrors.broadcast hp hw.1 hw.2 h ?_ about
  intro x hr ho hx
  have hxw : x = w := by
    have hl := hp.listed x hr ho
    rw [Option.some.inj hx, hw.1] at hl
    exact (Option.some.inj hl).symm
  subst hxw
  exact ⟨rfl, hself hr ho⟩

/-- **Announcing a session**: it is shown who is ready, the others are told of it, and then its
messages are handled. -/
theorem Mirrors.announceReady (hp : Placed s) (hw : Listed s w)
    (h : ∀ id, id ≠ (s.sessions w).id → MirrorsAt s users id) :
    Mirrors (s.announceReady w) users := by
  have hmark {α : Type} (f : Session → α) (hf : ∀ y, f (Session.ready y) = f y) (x : WsId) :
      f ((s.modifySession w Session.ready).sessions x) = f (s.sessions x) :=
      field_modifySession (hf _)
  have hp₁ : Placed (s.modifySession w Session.ready) :=
    hp.modifySession rfl fun _ => ⟨hw.2, fun _ => hw.1⟩
  have hw₁ : Listed (s.modifySession w Session.ready) w := by
    rw [Listed, sessions_modifySession_self]
    exact hw
  have hid := hmark Session.id (fun _ => rfl) w
  have hs₂ : Same (s.modifySession w Session.ready)
      ((s.modifySession w Session.ready).sendReady w) := by
    rw [sendReady_eq]
    exact .sent ..
  have hother : ∀ id, id ≠ (s.sessions w).id →
      MirrorsAt ((s.modifySession w Session.ready).sendReady w) users id := by
    refine fun id hne => MirrorsAt.sendReady hp₁ ?_
    intro x hx hr ho
    rw [sessions_modifySession_of_ne s hx] at hr ho
    refine (h id hne x hr ho).congr rfl ?_
    intro y hy
    have hyw : y ≠ w := by
      rintro rfl
      exact hne (hp.own id y hy).symm
    exact kept_of_shown (by rw [sessions_modifySession_of_ne s hyw])
  have hself : ((s.modifySession w Session.ready).sessions w).ws = .opened →
      Shows ((s.modifySession w Session.ready).sendReady w)
        (view users (((s.modifySession w Session.ready).sendReady w).sent w)) := fun ho => by
    rw [sendReady_eq]
    exact hp₁.shows_sendReady users ho
  unfold GatewayServer.announceReady
  dsimp only
  generalize (s.modifySession w Session.ready).sendReady w = t at hs₂ hother hself ⊢
  have hidt : (t.sessions w).id = (s.sessions w).id := (hs₂.id w).trans hid
  have hb := Mirrors.announce (hp₁.same hs₂) (hw₁.same hs₂) (fun id hne => hother id (hidt ▸ hne))
    (fun _ ho => ?_) [w]
  · have hs₃ :
        Same t (t.broadcastToAll (.userUpdate (t.summarize w)) (some (t.sessions w).id) [w]) := by
      rw [broadcastToAll_eq]
      exact .sent ..
    generalize t.broadcastToAll (.userUpdate (t.summarize w)) (some (t.sessions w).id) [w] =
      u at hb hs₃ ⊢
    have hs₄ : Same u (u.modifySession w fun session => { session with pending := [] }) :=
      Deeds.same (P := fun _ => True) ((Deeds.refl u).then trivial .drain)
    have hs := (hs₂.trans hs₃).trans hs₄
    exact (hb.setPending []).replay (hp₁.same hs) (hw₁.same hs) _
  · obtain ⟨p, q, hx⟩ := hs₂.sessions w
    rw [hx] at ho
    exact hself ho

/-! ### Changes of which nobody is told -/

/-- Nothing is sent, nobody becomes ready, and the sessions in the roster say the same. -/
theorem Mirrors.congr (h : Mirrors s users) (hsent : t.sent = s.sent) (hr : t.roster = s.roster)
    (hopen : ∀ x, (t.sessions x).readyAnnounced = true → (t.sessions x).ws = .opened →
      (s.sessions x).readyAnnounced = true ∧ (s.sessions x).ws = .opened)
    (hs : ∀ id w, s.roster.find? id = some w → Kept s t w) : Mirrors t users := fun id =>
  (h id).congr hsent hopen (by rw [hr]) (hs id)

/-- Sessions are closed at most. -/
theorem Mirrors.shut (h : Mirrors s users) (hsent : t.sent = s.sent) (hr : t.roster = s.roster)
    (hs : ∀ x, Session.Shut (s.sessions x) (t.sessions x)) : Mirrors t users := by
  apply h.congr hsent hr
  · intro x hready ho
    rcases hs x with he | ⟨_, he⟩
    · rw [he] at hready ho
      exact ⟨hready, ho⟩
    · rw [he] at ho
      cases ho
  · intro _ x _
    apply kept_of_shown
    rcases hs x with he | ⟨_, he⟩
    · rw [he]
    · rw [he]
      rfl

/-- **Joining**: no session of the account was in the roster, so nobody shows it; nor need they
as long as it is not ready. -/
theorem Mirrors.join (h : Mirrors s users) (account : UserRecord)
    (hn : s.roster.find? account.id = none) (hw : (s.sessions w).readyAnnounced = false)
    (hl : ∀ id, s.roster.find? id ≠ some w) : Mirrors (s.join w account) users := by
  have hroster : (s.join w account).roster = s.roster.insert account.id w := rfl
  have hjoined : ((s.join w account).sessions w).readyAnnounced = false := by
    rw [sessions_join_self]
    exact hw
  have hne {x : WsId} (hr : ((s.join w account).sessions x).readyAnnounced = true) : x ≠ w := by
    rintro rfl
    rw [hjoined] at hr
    cases hr
  intro id
  by_cases hid : id = account.id
  · subst hid
    intro x hr ho
    have hxw := hne hr
    rw [sessions_join_of_ne s hxw] at hr ho
    refine ⟨?_, ?_⟩
    · intro y hy hready
      rw [hroster, OrdMap.find?_insert_self] at hy
      exact absurd (Option.some.inj hy).symm (hne hready)
    · intro _
      apply (h account.id x hr ho).2
      intro y hy
      rw [hn] at hy
      cases hy
  · refine (h id).congr rfl (fun x hr ho => ?_) (by rw [hroster, OrdMap.find?_insert_of_ne _ hid])
      fun x hx => ?_
    · have hxw := hne hr
      rw [sessions_join_of_ne s hxw] at hr ho
      exact ⟨hr, ho⟩
    · have hxw : x ≠ w := by
        rintro rfl
        exact hl id hx
      exact kept_of_shown (by rw [sessions_join_of_ne s hxw])

/-- The changes of which nobody is told. -/
theorem Mirrors.change (h : Mirrors s users) (hs : Standing past s) (ho : OneAttempt s e)
    (hi : InOrder s e) (hc : Change s e t) (ha : s.announced e = none)
    (hr : ∀ b p, e = .backendFrame b p →
      s.renames (s.backends b).owner (parseBackendLine (utf8Decode p)) = false)
    (hl : ∀ w, e = .wsClose w → (s.sessions w).closed = true) : Mirrors t users := by
  have hauth {id : Units} {x : WsId} (hx : s.roster.find? id = some x) :
      (s.sessions x).authenticated = true :=
    (hs.tidy.wired.roster id x hx).2
  cases hc with
  | connection =>
    have hne {id : Units} {x : WsId} (hx : s.roster.find? id = some x) : x ≠ s.nextWs := by
      rintro rfl
      have hx := hauth hx
      rw [(hs.tidy.wired.unborn _ le_rfl).2] at hx
      cases hx
    refine h.congr rfl rfl ?_ ?_
    · intro x hr ho
      by_cases hx : x = s.nextWs
      · rw [hx, sessions_onConnection_self] at hr
        cases hr
      · rw [sessions_onConnection_of_ne s hx] at hr ho
        exact ⟨hr, ho⟩
    · intro id x hx
      exact kept_of_shown (by rw [sessions_onConnection_of_ne s (hne hx)])
  | message => exact h
  | raised => exact h
  | suspend => exact h
  | logout => exact h.shut rfl rfl fun x => shut_closeWs s _ x
  | wsClosing => exact h.shut rfl rfl fun x => shut_closeWs s _ x
  | wsClose _ hc => rw [hl _ rfl] at hc; cases hc
  | @wsCloseAgain w =>
    refine h.congr rfl rfl ?_ ?_
    · intro x hr ho
      by_cases hxw : x = w
      · subst hxw
        rw [sessions_modifySession_self] at ho
        cases ho
      · rw [sessions_modifySession_of_ne s hxw] at hr ho
        exact ⟨hr, ho⟩
    · intro id x hx
      exact kept_of_shown (field_modifySession rfl)
  | refused => exact h
  | elsewhere => exact h
  | @joined i w a account users' hj _ hce =>
    have hw := hs.waiting _ (List.mem_of_getElem? hj)
    apply Mirrors.join (s := (s.wake i).setUsers users') h account
    · -- a session that is found has not been closed, so it would be connected elsewhere
      show s.roster.find? account.id = none
      unfold connectedElsewhere at hce
      cases hf : s.roster.find? account.id with
      | none => rfl
      | some x =>
        rw [hf] at hce
        simp [hs.tidy.listed _ x hf] at hce
    · cases hr : (s.sessions w).readyAnnounced with
      | false => exact hr
      | true =>
        rw [hs.welcomed w (hs.ready w hr)] at hw
        cases hw.1
    · intro id hx
      have hx := hauth hx
      rw [hw.1] at hx
      cases hx
  | connected => exact h
  | connectFailed => cases ho.2
  | frame => exact h
  | nickTaken => exact h.shut rfl rfl fun x => shut_closeWs s _ x
  | @welcome b p nickname hb he =>
    -- it is not ready yet, so nothing is to be shown of it
    have hw : (s.sessions (s.backends b).owner).welcomed = false := by
      simpa [InOrder, expects, he] using hi
    have hno : ((s.sessions (s.backends b).owner).welcome nickname).readyAnnounced = false := by
      cases hready : (s.sessions (s.backends b).owner).readyAnnounced with
      | false => exact hready
      | true => rw [hs.ready _ hready] at hw; cases hw
    have hx (x : WsId) : x = (s.backends b).owner ∨
        (s.modifySession (s.backends b).owner fun session => session.welcome nickname).sessions x =
        s.sessions x := by
      by_cases hx : x = (s.backends b).owner
      · exact .inl hx
      · exact .inr (sessions_modifySession_of_ne s hx _)
    refine h.congr rfl rfl ?_ ?_
    · intro x hready ho
      rcases hx x with rfl | hx
      · rw [sessions_modifySession_self, hno] at hready
        cases hready
      · rw [hx] at hready ho
        exact ⟨hready, ho⟩
    · intro _ x _
      rcases hx x with rfl | hx
      · rw [Kept, sessions_modifySession_self, hno]
        exact ⟨fun hk => (by cases hk), fun hk => (by cases hk)⟩
      · exact kept_of_shown (by rw [hx])
  | welcomeReady _ he hm =>
    rw [announced_frame he, announces, hm] at ha
    cases ha
  | nickReady _ he hn hready =>
    rw [announced_frame he, announces, hn, hready] at ha
    simp at ha
  | rename _ he hn hready =>
    have hno := hr _ _ rfl
    rw [he, renames, hn, hready] at hno
    simp at hno
  | oversized => exact h
  | backendClose _ f =>
    cases f with
    | true => exact h
    | false => exact h.shut rfl rfl fun x => shut_closeWs _ _ x
  | shutdown => exact h.shut (by rw [close_eq]) (roster_close s) fun x => shut_close s x

/-! ### Changes of which the others are told -/

/-- A session that is open and has joined is in the roster. -/
theorem Standing.listed_owner (h : Standing past s) {b : BackendId}
    (hb : (s.backends b).socket = .opened) :
    s.roster.find? (s.sessions (s.backends b).owner).id = some (s.backends b).owner :=
  h.listed (h.owner hb) (h.tidy.owner_open (by rw [hb]; exact nofun) (by rw [hb]; exact nofun))

/-- **A session that becomes ready.** -/
theorem Mirrors.announced (h : Mirrors s users) (hs : Standing past s) (hi : InOrder s e)
    (hstep : s.step e = some s') (ha : s.announced e = some w) : Mirrors s' users := by
  obtain ⟨b, p, f, nickname, rfl, rfl, hb, hf, -, rfl⟩ := step_announceReady hstep ha
  have hl := hs.listed_owner hb
  have hsame (y : Session) : (f y).id = y.id ∧ (f y).readyAnnounced = y.readyAnnounced ∧
      (f y).ws = y.ws := by
    rcases hf with ⟨-, rfl⟩ | ⟨-, rfl⟩ <;> exact ⟨rfl, rfl, rfl⟩
  have hw : (f (s.sessions (s.backends b).owner)).welcomed = true := by
    rcases hf with ⟨-, rfl⟩ | ⟨he, rfl⟩
    · rfl
    · -- the chat server says so only of a connection that it has welcomed
      have hw : (s.sessions (s.backends b).owner).welcomed = true := by
        simpa [InOrder, expects, he] using hi
      exact hw
  have hid := (hsame (s.sessions (s.backends b).owner)).1
  have hlisted : Listed (s.modifySession (s.backends b).owner f) (s.backends b).owner := by
    rw [Listed, sessions_modifySession_self]
    exact ⟨hid.symm ▸ hl, hw⟩
  refine Mirrors.announceReady (hs.placed.modifySession hid fun _ => ⟨hw, fun _ => hl⟩) hlisted ?_
  intro id hne
  rw [sessions_modifySession_self, hid] at hne
  apply (h id).modifySession hs.placed hne
  intro hr ho
  rw [(hsame _).2.1] at hr
  rw [(hsame _).2.2] at ho
  exact ⟨hr, ho⟩

/-- **A session that has a new nickname.** -/
theorem Mirrors.renamed (h : Mirrors s users) (hs : Standing past s) {b : BackendId} {p : Bytes}
    (hstep : s.step (.backendFrame b p) = some s')
    (hr : s.renames (s.backends b).owner (parseBackendLine (utf8Decode p)) = true) :
    Mirrors s' users := by
  obtain ⟨-, hstep⟩ := Option.ite_none_left_eq_some.mp hstep
  obtain ⟨⟨hb, -⟩, hstep⟩ := Option.ite_none_right_eq_some.mp hstep
  rw [← Option.some.inj hstep]
  cases he : parseBackendLine (utf8Decode p) with
  | nick oldNick newNick =>
    rw [he, renames, Bool.and_eq_true, beq_iff_eq] at hr
    obtain ⟨hn, hr⟩ := hr
    have hr' : ((s.sessions (s.backends b).owner).rename newNick).readyAnnounced = true := hr
    have hl := hs.listed_owner hb
    have hw := hs.ready _ hr
    have hm : Mirrors
      ((s.modifySession (s.backends b).owner fun session => session.rename newNick).broadcastToAll
        (.userUpdate
          ((s.modifySession (s.backends b).owner fun session => session.rename newNick).summarize
          (s.backends b).owner)) none [(s.backends b).owner]) users := by
      refine Mirrors.broadcast (hs.placed.modifySession rfl fun _ => ⟨hw, fun _ => hl⟩) ?_ ?_ ?_
        (fun _ _ _ hx => by cases hx) _
      · rw [sessions_modifySession_self]
        exact hl
      · rw [sessions_modifySession_self]
        exact hw
      · intro id hne
        rw [sessions_modifySession_self] at hne
        exact (h id).modifySession hs.placed hne fun hr ho => ⟨hr, ho⟩
    simp only [onBackendEvent, onNick, hn, if_true, sessions_modifySession_self, hr', Bool.not_true,
      Bool.false_eq_true,
      if_false]
    exact hm
  | _ => rw [he] at hr; cases hr

theorem Same.symm (h : Same s t) : Same t s where
  env := h.env.symm
  config := h.config.symm
  sessions w := by
    obtain ⟨p, q, hw⟩ := h.sessions w
    exact ⟨(s.sessions w).presence, (s.sessions w).pending, by rw [hw]⟩
  nextWs := h.nextWs.symm
  roster := h.roster.symm
  backends := h.backends.symm
  nextBackend := h.nextBackend.symm
  hashing := h.hashing.symm
  users := h.users.symm
  closing := h.closing.symm

/-- **A session that leaves**: if it has been welcomed it is taken off, and else nobody shows
it. -/
theorem Mirrors.left (h : Mirrors s users) (hs : Standing past s) (hp' : Placed s')
    (hc : (s.sessions w).closed = false) (hstep : s.step (.wsClose w) = some s') :
    Mirrors s' users := by
  obtain ⟨-, hstep⟩ := Option.ite_none_left_eq_some.mp hstep
  obtain ⟨-, hstep⟩ := Option.ite_none_right_eq_some.mp hstep
  simp only [onClientClosed, sessions_modifySession_self, hc, Bool.false_eq_true, if_false] at hstep
  have hself :
    ((s.modifySession w fun session => { session with ws := .closed }).sessions w).authenticated =
      (s.sessions w).authenticated := by rw [sessions_modifySession_self]
  have hclosed :
      (((s.modifySession w fun session => { session with ws := .closed }).leave w).sessions w).ws =
      .closed := by
    rw [sessions_leave_self, sessions_modifySession_self]
  have hother (x : WsId) (hx : x ≠ w) :
      ((s.modifySession w fun session => { session with ws := .closed }).leave w).sessions x =
      s.sessions x := by
    rw [sessions_leave_of_ne _ hx, sessions_modifySession_of_ne s hx]
  have hsent : ((s.modifySession w fun session => { session with ws := .closed }).leave w).sent =
      s.sent := by
    rw [leave_eq]
    rfl
  have hroster : (s.sessions w).authenticated = true →
      ((s.modifySession w fun session => { session with ws := .closed }).leave w).roster =
        s.roster.erase (s.sessions w).id := fun ha => by
    rw [roster_leave (hself.trans ha), sessions_modifySession_self]
    rfl
  have hroster' : (s.sessions w).authenticated = false →
      ((s.modifySession w fun session => { session with ws := .closed }).leave w).roster =
      s.roster := fun ha =>
    roster_leave_of_not (hself.trans ha)
  generalize (s.modifySession w fun session => { session with ws := .closed }).leave w = t at *
  have hne {x : WsId} (ho : (t.sessions x).ws = .opened) : x ≠ w := by
    rintro rfl
    rw [hclosed] at ho
    cases ho
  have hopen (x : WsId) (hr : (t.sessions x).readyAnnounced = true)
      (ho : (t.sessions x).ws = .opened) :
      (s.sessions x).readyAnnounced = true ∧ (s.sessions x).ws = .opened := by
    have hxw := hne ho
    rw [hother x hxw] at hr ho
    exact ⟨hr, ho⟩
  cases ha : (s.sessions w).authenticated with
  | false =>
    rw [ha] at hstep
    obtain rfl : t = s' := by simpa using hstep
    apply h.congr hsent (hroster' ha) hopen
    intro id x hx
    have hxw : x ≠ w := by
      rintro rfl
      rw [(hs.tidy.wired.roster id x hx).2] at ha
      cases ha
    exact kept_of_shown (by rw [hother x hxw])
  | true =>
    have hl := hs.listed ha hc
    have hrest (id : Units) (hid : id ≠ (s.sessions w).id) : MirrorsAt t users id := by
      refine (h id).congr hsent hopen (by rw [hroster ha, OrdMap.find?_erase_of_ne _ hid])
        fun x hx => ?_
      have hxw : x ≠ w := by
        rintro rfl
        exact hid (hs.placed.own id x hx).symm
      exact kept_of_shown (by rw [hother x hxw])
    have hgone : t.roster.find? (s.sessions w).id = none := by
      rw [hroster ha, OrdMap.find?_erase_self]
    -- of the account that has left nothing is to be shown
    have hnone {users : OrdMap Units User} (hn : users.find? (s.sessions w).id = none) :
        ShowsAt t users (s.sessions w).id := by
      refine ⟨fun y hy => ?_, fun _ => hn⟩
      rw [hgone] at hy
      cases hy
    cases hw : (s.sessions w).welcomed with
    | false =>
      rw [ha, hw] at hstep
      obtain rfl : t = s' := by simpa using hstep
      intro id
      by_cases hid : id = (s.sessions w).id
      · subst hid
        intro x hr ho
        obtain ⟨hr, ho⟩ := hopen x hr ho
        apply hnone
        rw [hsent]
        refine (h _ x hr ho).2 fun y hy => ?_
        obtain rfl := Option.some.inj (hl.symm.trans hy)
        exact hw
      · exact hrest id hid
    | true =>
      rw [ha, hw] at hstep
      obtain rfl : t.broadcastToAll (.userOffline (s.sessions w).id) (some (s.sessions w).id) [] =
          s' := by
        simpa using hstep
      have hp : Placed t := by
        rw [broadcastToAll_eq] at hp'
        exact ⟨hp'.own, hp'.welcomed, hp'.listed⟩
      intro id x hr ho
      have he := broadcastToAll_eq t (.userOffline (s.sessions w).id) (some (s.sessions w).id) []
      have hr : (t.sessions x).readyAnnounced = true := by rwa [he] at hr
      have ho : (t.sessions x).ws = .opened := by rwa [he] at ho
      have hx : some (t.sessions x).id ≠ some (s.sessions w).id := fun hid => by
        have hlx := hp.listed x hr ho
        rw [Option.some.inj hid, hgone] at hlx
        cases hlx
      rw [hp.sent_broadcast hr ho hx, he, view_append, view_singleton]
      show ShowsAt t ((view users (t.sent x)).erase (s.sessions w).id) id
      by_cases hid : id = (s.sessions w).id
      · subst hid
        exact hnone (OrdMap.find?_erase_self ..)
      · exact (hrest id hid x hr ho).of_find? (OrdMap.find?_erase_of_ne _ hid)

/-- **A step keeps what the browsers show.** -/
theorem Mirrors.step (h : Mirrors s users) (hs : Standing past s) (ho : OneAttempt s e)
    (hi : InOrder s e) (hstep : s.step e = some s') : Mirrors s' users := by
  have hp' := (hs.step ho hi hstep).placed
  cases ha : s.announced e with
  | some w => exact h.announced hs hi hstep ha
  | none =>
    have hplain (hr : ∀ b p, e = .backendFrame b p →
      s.renames (s.backends b).owner (parseBackendLine (utf8Decode p)) = false)
        (hl : ∀ w, e = .wsClose w → (s.sessions w).closed = true)
          (hc : ∀ c, s.Causes e c → c.Plain) :
        Mirrors s' users := by
      obtain ⟨t, hct, hd⟩ := step_deeds hstep
      exact (h.change hs ho hi hct ha hr hl).deeds (hp'.same hd.same.symm) hd hc
    cases e with
    | message w n v =>
      cases hw : s.arrives (.message w n v) w with
      | nil =>
        refine hplain nofun nofun fun c hc => ?_
        rcases hc with rfl | ⟨m, hm, rfl | ⟨hsession, rfl⟩⟩
        · trivial
        · trivial
        · rw [arrives_of_valid hm hsession] at hw
          cases hw
      | cons m l =>
        obtain ⟨-, hstep'⟩ := Option.ite_none_left_eq_some.mp hstep
        obtain ⟨hlive, -⟩ := Option.ite_none_right_eq_some.mp hstep'
        obtain ⟨rfl, rfl⟩ := step_arrives hstep hw
        split
        · rename_i himm
          obtain ⟨hauth, hwelcomed⟩ : (s.sessions w).authenticated = true ∧
              (s.sessions w).welcomed = true := by
            simpa [immediate] using himm
          exact h.handleClientMessage hs.placed
            ⟨hs.listed hauth (hs.tidy.live_open hlive), hwelcomed⟩ m
        · refine h.deed hs.placed (c := .wait w m) ?_ trivial
          exact .wait
    | wsClose w =>
      cases hc : (s.sessions w).closed with
      | false => exact h.left hs hp' hc hstep
      | true =>
        refine hplain nofun (fun w' hw => by cases hw; exact hc) ?_
        intro c hcause
        rw [hcause.2.1] at hc
        cases hc
    | backendFrame b p =>
      cases hr : s.renames (s.backends b).owner (parseBackendLine (utf8Decode p)) with
      | true => exact h.renamed hs hstep hr
      | false =>
        refine hplain (fun b' p' he => by cases he; exact hr) nofun fun c hc => ?_
        rcases hc with rfl | ⟨hann, -⟩ | ⟨hren, -⟩
        · trivial
        · rw [announced_of_announces hann] at ha
          cases ha
        · rw [hr] at hren
          cases hren
    | _ =>
      refine hplain nofun nofun ?_
      rintro c rfl
      trivial

theorem mirrors_init (env : Env) (config : GatewayConfig) (users : OrdMap Units User) :
    Mirrors (init env config) users :=
  fun _ _ hr => by simp [init] at hr

theorem mirrors_of_path {C : GatewayServer → Event → Prop}
    (hC : ∀ s e, C s e → OneAttempt s e ∧ InOrder s e) {env : Env} {config : GatewayConfig}
    (h : PathIn GatewayServer.step C (init env config) past s) (users : OrdMap Units User) :
    Standing past s ∧ Mirrors s users :=
  h.invariant (I := fun past s => Standing past s ∧ Mirrors s users)
    ⟨standing_init env config, mirrors_init env config users⟩ fun _ _ _ _ ⟨hs, hm⟩ hc hstep =>
      ⟨hs.step (hC _ _ hc).1 (hC _ _ hc).2 hstep, hm.step hs (hC _ _ hc).1 (hC _ _ hc).2 hstep⟩

/-! ### When all are ready -/

/-- `SessionManager.welcomedUsers`. -/
def welcomedUsers (s : GatewayServer) : List UserSummary := s.welcomedSessions.map s.summarize

/-- A map that shows who is ready has exactly the users that are welcomed, if all of them are
ready. -/
theorem Placed.entries_perm (h : Placed s) (hs : Shows s users)
    (hall : ∀ w ∈ s.welcomedSessions, (s.sessions w).readyAnnounced = true) :
    users.entries.Perm (s.welcomedUsers.map fun u => (u.id, userFromSummary u)) := by
  have hkeys : ((s.welcomedUsers.map fun u => (u.id, userFromSummary u)).map Prod.fst).Nodup := by
    rw [welcomedUsers, List.map_map, List.map_map]
    have hn : (s.roster.values.map fun w => (s.sessions w).id).Nodup :=
      h.map_id_values ▸ s.roster.nodup_keys
    exact hn.sublist (List.filter_sublist.map _)
  apply (List.perm_ext_iff_of_nodup users.nodup_entries hkeys.of_map).mpr
  rintro ⟨id, v⟩
  rw [← OrdMap.find?_eq_some, welcomedUsers, List.map_map, List.mem_map]
  constructor
  · intro hv
    by_cases hn : ∀ w, s.roster.find? id = some w → (s.sessions w).welcomed = false
    · rw [(hs id).2 hn] at hv
      cases hv
    · push Not at hn
      obtain ⟨w, hf, hw⟩ := hn
      have hmem : w ∈ s.welcomedSessions :=
        List.mem_filter.mpr ⟨OrdMap.mem_values.mpr ⟨id, hf⟩, by simpa using hw⟩
      have hu := (hs id).1 w hf (hall w hmem)
      rw [hv] at hu
      exact ⟨w, hmem, Prod.ext (h.own id w hf) (Option.some.inj hu).symm⟩
  · rintro ⟨w, hw, he⟩
    obtain ⟨rfl, rfl⟩ := Prod.mk.inj he
    exact (hs _).1 w (h.find? (List.mem_filter.mp hw).1) (hall w hw)

end GatewayServer

end ThreadLink.Gateway
