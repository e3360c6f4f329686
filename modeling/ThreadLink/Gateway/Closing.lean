import ThreadLink.Gateway.Sessions

/-!
# Closed sessions

After it has waited for the password hash, `handleAuth` does not look at `closed` either.
So a session may join the roster after its WebSocket has closed, when nothing will take
it out again. This module has what holds of closed sessions in the runs in which that
does not happen.

## What is proved

* `closed_session_gone` — if sessions join once and before they are closed, then a session
  that has been closed is not in the roster, has no open backend connection, and nobody
  is told that it is online.
-/

namespace ThreadLink.Gateway

open Text Runs

namespace GatewayServer

variable {s s' t : GatewayServer} {e : Event} {w x : WsId} {b c : BackendId}

/-- **The condition**: no session joins that has joined before or has been closed. -/
def JoinsOpen (s : GatewayServer) (e : Event) : Prop :=
  ∀ w ∈ s.joins e, (s.sessions w).authenticated = false ∧ (s.sessions w).closed = false

instance (s : GatewayServer) (e : Event) : Decidable (JoinsOpen s e) :=
  inferInstanceAs (Decidable (∀ w ∈ s.joins e, _))

theorem JoinsOpen.once (h : JoinsOpen s e) : JoinsOnce s e := fun w hw => (h w hw).1

/-! ### Closed sessions -/

/-- Closed sessions have left. -/
structure Tidy (s : GatewayServer) : Prop where
  /-- The roster and the backend connections belong to the sessions. -/
  wired : Wired s
  /-- The flag is that of the WebSocket. -/
  closed_iff : ∀ w, (s.sessions w).closed = true ↔ (s.sessions w).ws = .closed
  /-- A session in the roster has not been closed. -/
  listed : ∀ id w, s.roster.find? id = some w → (s.sessions w).closed = false
  /-- The backend connection of a closed session has ended. -/
  ended : ∀ w b, (s.sessions w).closed = true → (s.sessions w).backend = some b →
    (s.backends b).socket = .ended

theorem tidy_init (env : Env) (config : GatewayConfig) : Tidy (init env config) where
  wired := wired_init env config
  closed_iff _ := ⟨nofun, nofun⟩
  listed _ _ h := by simp [init] at h
  ended _ _ h := by simp [init] at h

/-- The owner of a backend connection that has not ended has not been closed. -/
theorem Tidy.owner_open (h : Tidy s) (hu : (s.backends b).socket ≠ .unborn)
    (he : (s.backends b).socket ≠ .ended) : (s.sessions (s.backends b).owner).closed = false := by
  cases hc : (s.sessions (s.backends b).owner).closed with
  | false => rfl
  | true => exact absurd (h.ended _ b hc (h.wired.backend_owner hu)) he

/-- A session whose WebSocket is there has not been closed. -/
theorem Tidy.live_open (h : Tidy s) (hl : s.live w) : (s.sessions w).closed = false := by
  cases hc : (s.sessions w).closed with
  | false => rfl
  | true =>
    have hw := (h.closed_iff w).mp hc
    simp [live, hw] at hl

theorem Tidy.same (h : Tidy s) (hs : Same s t) : Tidy t := by
  have hl (w : WsId) : (t.sessions w).ws = (s.sessions w).ws ∧
    (t.sessions w).closed = (s.sessions w).closed ∧
      (t.sessions w).backend = (s.sessions w).backend := by
    obtain ⟨p, q, hw⟩ := hs.sessions w
    rw [hw]
    exact ⟨rfl, rfl, rfl⟩
  constructor
  · exact h.wired.same hs
  · intro w
    rw [(hl w).1, (hl w).2.1]
    exact h.closed_iff w
  · intro id w hw
    rw [(hl w).2.1]
    exact h.listed id w (hs.roster ▸ hw)
  · intro w b
    rw [(hl w).2.1, (hl w).2.2, hs.backends]
    exact h.ended w b

theorem Tidy.modifySession (h : Tidy s) {f : Session → Session}
    (hf : Session.SameLinks (s.sessions w) (f (s.sessions w)))
    (hc : (f (s.sessions w)).closed = (s.sessions w).closed)
    (hw : (f (s.sessions w)).ws = .closed ↔ (s.sessions w).ws = .closed) :
    Tidy (s.modifySession w f) := by
  have hl (x : WsId) : ((s.modifySession w f).sessions x).closed = (s.sessions x).closed ∧
      (((s.modifySession w f).sessions x).ws = .closed ↔ (s.sessions x).ws = .closed) ∧
      ((s.modifySession w f).sessions x).backend = (s.sessions x).backend := by
    by_cases hx : x = w
    · subst hx; rw [sessions_modifySession_self]; exact ⟨hc, hw, hf.backend⟩
    · rw [sessions_modifySession_of_ne s hx]; exact ⟨rfl, Iff.rfl, rfl⟩
  constructor
  · exact h.wired.modifySession hf
  · intro x
    rw [(hl x).1, (hl x).2.1]
    exact h.closed_iff x
  · intro id x hx
    rw [(hl x).1]
    exact h.listed id x hx
  · intro x b
    rw [(hl x).1, (hl x).2.2]
    exact h.ended x b

theorem Tidy.closeWs (h : Tidy s) (w : WsId) : Tidy (s.closeWs w) := by
  apply h.modifySession
  · split
    · rename_i ho
      exact ⟨rfl, rfl, rfl, fun hu => by simp [ho] at hu⟩
    · exact ⟨rfl, rfl, rfl, id⟩
  · split <;> rfl
  · split
    · rename_i ho
      rw [ho]
      exact ⟨nofun, nofun⟩
    · rfl

theorem Tidy.modifyBackend (h : Tidy s) {f : BackendConnection → BackendConnection}
    (hb : b < s.nextBackend) (hf : (f (s.backends b)).owner = (s.backends b).owner)
    (he : (s.backends b).socket = .ended → (f (s.backends b)).socket = .ended)
    (hc : (f (s.backends b)).closed = true → (f (s.backends b)).socket = .ended) :
    Tidy (s.modifyBackend b f) := by
  refine ⟨h.wired.modifyBackend hb hf hc, h.closed_iff, h.listed, ?_⟩
  intro x c hx hxc
  have hce := h.ended x c hx hxc
  by_cases hcb : c = b
  · subst hcb
    rw [backends_modifyBackend_self]
    exact he hce
  · rw [backends_modifyBackend_of_ne s hcb]
    exact hce

theorem Tidy.closeConnection (h : Tidy s) (hb : b < s.nextBackend) :
    Tidy (s.modifyBackend b .close) :=
  h.modifyBackend hb (owner_close _) (fun _ => h.wired.ended_close b) fun _ => h.wired.ended_close b

theorem Tidy.closeBackend (h : Tidy s) (w : WsId) : Tidy (s.closeBackend w) := by
  unfold GatewayServer.closeBackend
  split
  · exact h
  · rename_i b hb
    exact h.closeConnection ((h.wired.backend w b).mp hb).1

theorem Tidy.remove (h : Tidy s) (id : Units) : Tidy (s.remove id) where
  wired := h.wired.remove id
  closed_iff := h.closed_iff
  listed id' w hw := by
    rw [GatewayServer.remove, OrdMap.find?_erase] at hw
    split at hw
    · cases hw
    · exact h.listed id' w hw
  ended := h.ended

theorem Tidy.wake (h : Tidy s) (i : ℕ) : Tidy (s.wake i) :=
  ⟨h.wired.wake i, h.closed_iff, h.listed, h.ended⟩

theorem Tidy.setUsers (h : Tidy s) (users : Users) : Tidy (s.setUsers users) :=
  ⟨h.wired.setUsers users, h.closed_iff, h.listed, h.ended⟩

theorem Tidy.close (h : Tidy s) : Tidy s.close := by
  obtain ⟨t, ht, hc⟩ := close_rule h fun t w ht => (ht.closeBackend w).closeWs w
  rw [hc]
  exact ⟨⟨ht.wired.unborn, ht.wired.hashing, ht.wired.roster, ht.wired.backend,
    ht.wired.authenticated,
    ht.wired.uncreated, ht.wired.flag⟩, ht.closed_iff, ht.listed, ht.ended⟩

theorem Tidy.onConnection (h : Tidy s) : Tidy s.onConnection := by
  have hn := h.wired.unborn s.nextWs le_rfl
  have hother {x : WsId} (hx : x ≠ s.nextWs) := sessions_onConnection_of_ne s hx
  constructor
  · exact h.wired.onConnection
  · intro x
    by_cases hx : x = s.nextWs
    · subst hx
      rw [sessions_onConnection_self]
      exact ⟨nofun, nofun⟩
    · rw [hother hx]; exact h.closed_iff x
  · intro id x hx
    have hne : x ≠ s.nextWs := by
      rintro rfl
      simp [(h.wired.roster id _ hx).2] at hn
    rw [hother hne]
    exact h.listed id x hx
  · intro x b hx hb
    by_cases hxn : x = s.nextWs
    · subst hxn
      rw [sessions_onConnection_self] at hb
      cases hb
    · rw [hother hxn] at hx hb
      exact h.ended x b hx hb

theorem Tidy.join (h : Tidy s) (hw : w < s.nextWs) (ha : (s.sessions w).authenticated = false)
    (hc : (s.sessions w).closed = false) (account : UserRecord) : Tidy (s.join w account) := by
  have hself := sessions_join_self s w account
  have hother {x : WsId} (hx : x ≠ w) := sessions_join_of_ne s hx account
  have hclosed (x : WsId) : ((s.join w account).sessions x).closed = (s.sessions x).closed := by
    by_cases hx : x = w
    · subst hx; rw [hself]; rfl
    · rw [hother hx]
  constructor
  · exact h.wired.join hw ha account
  · intro x
    rw [hclosed]
    by_cases hx : x = w
    · subst hx; rw [hself]; exact h.closed_iff x
    · rw [hother hx]; exact h.closed_iff x
  · intro id x hx
    have hx : (s.roster.insert account.id w).find? id = some x := hx
    rw [hclosed]
    rw [OrdMap.find?_insert] at hx
    split at hx
    · cases hx
      exact hc
    · exact h.listed id x hx
  · intro x b hx hb
    rw [hclosed] at hx
    have hne : x ≠ w := by rintro rfl; simp [hc] at hx
    rw [hother hne] at hb
    have hlt : b ≠ s.nextBackend := ((h.wired.backend x b).mp hb).1.ne
    rw [show (s.join w account).backends b = _ from Function.update_of_ne hlt ..]
    exact h.ended x b hx hb

theorem Tidy.connected (h : Tidy s) (hb : (s.backends b).socket = .connecting) :
    Tidy (s.modifyBackend b fun connection => { connection with socket := .opened }) := by
  have hopen := h.owner_open (by rw [hb]; exact nofun) (by rw [hb]; exact nofun)
  refine ⟨h.wired.connected hb, h.closed_iff, h.listed, ?_⟩
  intro x c hx hc
  by_cases hcb : c = b
  · subst hcb
    replace hx : (s.sessions x).closed = true := hx
    rw [← ((h.wired.backend x c).mp hc).2, hopen] at hx
    cases hx
  · rw [backends_modifyBackend_of_ne s hcb]
    exact h.ended x c hx hc

/-- The close event of a WebSocket takes the session out. -/
theorem Tidy.wsClose (h : Tidy s) (hl : s.live w) :
    Tidy ((s.modifySession w fun session => { session with ws := .closed }).leave w) := by
  have hwired :
      Wired ((s.modifySession w fun session => { session with ws := .closed }).leave w) := by
    refine (h.wired.modifySession ⟨rfl, rfl, rfl, ?_⟩).leave w
    intro hu
    simp [live, hu] at hl
  revert hwired
  unfold GatewayServer.leave
  simp only [modifySession_modifySession, sessions_modifySession_self]
  generalize hs :
    (s.modifySession w fun session => { session with ws := .closed, closed := true }) = s₂
  have hself : s₂.sessions w = { s.sessions w with ws := .closed, closed := true } := by
    rw [← hs, sessions_modifySession_self]
  have hother {x : WsId} (hx : x ≠ w) : s₂.sessions x = s.sessions x := by
    rw [← hs, sessions_modifySession_of_ne s hx]
  have hrest : s₂.roster = s.roster ∧ s₂.backends = s.backends := by rw [← hs]; exact ⟨rfl, rfl⟩
  have hclosed (x : WsId) : (s₂.sessions x).closed = true ↔ (s₂.sessions x).ws = .closed := by
    by_cases hx : x = w
    · subst hx; rw [hself]; exact ⟨fun _ => rfl, fun _ => rfl⟩
    · rw [hother hx]; exact h.closed_iff x
  have hauth := h.wired.authenticated w
  cases ha : (s.sessions w).authenticated with
  | false =>
    -- it is not in the roster and has no backend connection
    simp only [Bool.not_false, if_true]
    intro hwired
    refine ⟨hwired, hclosed, ?_, ?_⟩
    · intro id x hx
      replace hx : s.roster.find? id = some x := hrest.1 ▸ hx
      have hne : x ≠ w := by
        rintro rfl
        simp [(h.wired.roster id _ hx).2] at ha
      show (s₂.sessions x).closed = false
      rw [hother hne]
      exact h.listed id x hx
    · intro x b hx hb
      replace hb : (s₂.sessions x).backend = some b := hb
      have hne : x ≠ w := by
        rintro rfl
        rw [hself] at hb
        rw [ha, show (s.sessions x).backend = some b from hb] at hauth
        cases hauth
      replace hx : (s₂.sessions x).closed = true := hx
      show (s₂.backends b).socket = .ended
      rw [hother hne] at hx hb
      rw [hrest.2]
      exact h.ended x b hx hb
  | true =>
    intro hwired
    rw [ha] at hauth
    obtain ⟨c, hc⟩ := Option.isSome_iff_exists.mp hauth.symm
    have hcb : s₂.closeBackend w = s₂.modifyBackend c .close := by
      unfold GatewayServer.closeBackend
      rw [hself]
      simp only [hc]
    have hended (b : BackendId) (hb : (s.backends b).socket = .ended ∨ b = c) :
        ((s₂.modifyBackend c .close).backends b).socket = .ended := by
      by_cases hbc : b = c
      · subst hbc
        rw [backends_modifyBackend_self, hrest.2]
        exact h.wired.ended_close b
      · rw [backends_modifyBackend_of_ne s₂ hbc, hrest.2]
        exact hb.resolve_right hbc
    simp only [hcb, Bool.not_true, Bool.false_eq_true, if_false] at hwired ⊢
    refine ⟨hwired, hclosed, ?_, ?_⟩
    · intro id x hx
      replace hx : (s₂.roster.erase (s.sessions w).id).find? id = some x := hx
      rw [OrdMap.find?_erase, hrest.1] at hx
      split at hx
      · cases hx
      · rename_i hid
        have hne : x ≠ w := by
          rintro rfl
          exact hid (h.wired.roster id _ hx).1.symm
        show (s₂.sessions x).closed = false
        rw [hother hne]
        exact h.listed id x hx
    · intro x b hx hb
      replace hx : (s₂.sessions x).closed = true := hx
      replace hb : (s₂.sessions x).backend = some b := hb
      apply hended b
      by_cases hxw : x = w
      · subst hxw
        rw [hself] at hb
        exact .inr (Option.some.inj (hb.symm.trans hc))
      · rw [hother hxw] at hx hb
        exact .inl (h.ended x b hx hb)

theorem Tidy.change (h : Tidy s) (hf : JoinsOpen s e) (hc : Change s e t) : Tidy t := by
  cases hc with
  | connection => exact h.onConnection
  | message => exact h
  | raised => exact ⟨h.wired.raise _, h.closed_iff, h.listed, h.ended⟩
  | suspend hl => exact ⟨h.wired.suspend (h.wired.lt_of_live hl) _, h.closed_iff, h.listed, h.ended⟩
  | logout => exact h.closeWs _
  | wsClosing => exact h.closeWs _
  | wsClose hl => exact h.wsClose hl
  | wsCloseAgain hl hc =>
    rw [h.live_open hl] at hc
    cases hc
  | refused => exact h.wake _
  | elsewhere => exact (h.wake _).setUsers _
  | joined hi ho hc =>
    obtain ⟨ha, hcl⟩ := hf _ (mem_joins hi ho hc)
    exact ((h.wake _).setUsers _).join (h.wired.hashing _ (List.mem_of_getElem? hi)) ha hcl _
  | connected hb => exact h.connected hb
  | connectFailed hb =>
    have hlt := h.wired.lt_nextBackend (by rw [hb]; exact nofun)
    exact ((h.modifyBackend hlt rfl (fun _ => rfl) fun _ => rfl).closeWs _).remove _
  | frame => exact h
  | nickTaken => exact h.closeWs _
  | welcome => exact h.modifySession ⟨rfl, rfl, rfl, id⟩ rfl Iff.rfl
  | welcomeReady => exact h.modifySession ⟨rfl, rfl, rfl, id⟩ rfl Iff.rfl
  | nickReady => exact h.modifySession ⟨rfl, rfl, rfl, id⟩ rfl Iff.rfl
  | @rename b _ _ newNick =>
    have hm :=
      h.modifySession (w := (s.backends b).owner) (f := fun session => session.rename newNick)
      ⟨rfl, rfl, rfl, id⟩ rfl Iff.rfl
    exact hm.setUsers _
  | oversized hb => exact h.closeConnection (h.wired.lt_nextBackend (by rw [hb]; exact nofun))
  | @backendClose b hb f =>
    have hlt := h.wired.lt_nextBackend (b := b) (by rw [hb]; exact nofun)
    have hm :=
      h.modifyBackend (f := fun connection => { connection with socket := .ended, closed := true })
      hlt rfl (fun _ => rfl) fun _ => rfl
    cases f with
    | true => exact hm
    | false => exact hm.closeWs _
  | shutdown => exact h.close

theorem Tidy.step (h : Tidy s) (hf : JoinsOpen s e) (hs : s.step e = some s') : Tidy s' := by
  obtain ⟨t, hc, hq⟩ := step_change hs
  exact (h.change hf hc).same hq.same

theorem tidy_of_run {env : Env} {config : GatewayConfig}
    (h : RunIn step JoinsOpen (init env config) s) : Tidy s :=
  h.invariant (tidy_init env config) fun _ _ _ ht hc hs => ht.step hc hs

/-! ### What is said of closed sessions -/

theorem closed_modifySession {f : Session → Session}
    (hf : (s.sessions w).closed = true → (f (s.sessions w)).closed = true)
    (hx : (s.sessions x).closed = true) : ((s.modifySession w f).sessions x).closed = true := by
  by_cases hxw : x = w
  · subst hxw
    rw [sessions_modifySession_self]
    exact hf hx
  · rw [sessions_modifySession_of_ne s hxw]
    exact hx

theorem closed_closeWs (w : WsId) (hx : (s.sessions x).closed = true) :
    ((s.closeWs w).sessions x).closed = true := by
  refine closed_modifySession ?_ hx
  intro hc
  split <;> exact hc

theorem closed_leave (w : WsId) (hx : (s.sessions x).closed = true) :
    ((s.leave w).sessions x).closed = true := by
  have hm := closed_modifySession (f := fun session => { session with closed := true }) (w := w)
    (fun _ => rfl) hx
  unfold leave
  dsimp only
  split
  · exact hm
  · rw [remove, sessions_closeBackend]
    exact hm

theorem closed_close (hx : (s.sessions x).closed = true) : (s.close.sessions x).closed = true := by
  obtain ⟨t, ht, hc⟩ := @close_rule s (fun t => (t.sessions x).closed = true) hx
    fun t w ht => closed_closeWs w (by rw [sessions_closeBackend]; exact ht)
  rw [hc]
  exact ht

/-- A session that has been closed stays closed. -/
theorem Tidy.closed_step (h : Tidy s) (hs : s.step e = some s')
    (hx : (s.sessions x).closed = true) : (s'.sessions x).closed = true := by
  obtain ⟨t, hc, hq⟩ := step_change hs
  obtain ⟨p, q, hsame⟩ := hq.same.sessions x
  rw [hsame]
  show (t.sessions x).closed = true
  cases hc with
  | connection =>
    have hne : x ≠ s.nextWs := by
      rintro rfl
      have hu := (h.wired.unborn s.nextWs le_rfl).1
      rw [(h.closed_iff _).mp hx] at hu
      cases hu
    rw [sessions_onConnection_of_ne s hne]
    exact hx
  | message => exact hx
  | raised => exact hx
  | suspend => exact hx
  | logout => exact closed_closeWs _ hx
  | wsClosing => exact closed_closeWs _ hx
  | wsClose => exact closed_leave _ (closed_modifySession id hx)
  | wsCloseAgain => exact closed_modifySession id hx
  | refused => exact hx
  | elsewhere => exact hx
  | @joined i w a account users =>
    by_cases hxw : x = w
    · subst hxw
      rw [sessions_join_self]
      exact hx
    · rw [sessions_join_of_ne _ hxw]
      exact hx
  | connected => exact hx
  | connectFailed => exact closed_closeWs _ hx
  | frame => exact hx
  | nickTaken => exact closed_closeWs _ hx
  | welcome => exact closed_modifySession id hx
  | welcomeReady => exact closed_modifySession id hx
  | nickReady => exact closed_modifySession id hx
  | @rename b _ _ newNick =>
    exact closed_modifySession (w := (s.backends b).owner)
      (f := fun session => session.rename newNick) id hx
  | oversized => exact hx
  | backendClose _ f =>
    cases f with
    | true => exact hx
    | false => exact closed_closeWs _ hx
  | shutdown => exact closed_close hx

/-- A step says of no closed session that it is online. -/
theorem Tidy.heard_step (h : Tidy s) (hf : JoinsOpen s e) (hs : s.step e = some s') :
    Heard (fun y => (s.sessions y).closed = false) s s' := by
  have h' := h.step hf hs
  have hmono {y : WsId} (hy : (s'.sessions y).closed = false) : (s.sessions y).closed = false := by
    cases hc : (s.sessions y).closed with
    | false => rfl
    | true =>
      rw [h.closed_step hs hc] at hy
      cases hy
  obtain ⟨t, hc, hq⟩ := step_change hs
  refine (Heard.of_eq hc.sent_eq).trans (hq.heard.mono ?_)
  intro y hy
  rcases hy with hy | hy
  · obtain ⟨id, hid⟩ := OrdMap.mem_values.mp hy
    exact hmono (h'.listed id y (hq.same.roster ▸ hid))
  · cases hc with
    | message hl => exact hy ▸ h.live_open hl
    | raised hl => exact hy ▸ h.live_open hl
    | suspend hl => exact hy ▸ h.live_open hl
    | logout hl => exact hy ▸ h.live_open hl
    | frame hb => exact hy ▸ h.owner_open (by rw [hb]; exact nofun) (by rw [hb]; exact nofun)
    | nickTaken hb => exact hy ▸ h.owner_open (by rw [hb]; exact nofun) (by rw [hb]; exact nofun)
    | welcome hb => exact hy ▸ h.owner_open (by rw [hb]; exact nofun) (by rw [hb]; exact nofun)
    | welcomeReady hb => exact hy ▸ h.owner_open (by rw [hb]; exact nofun) (by rw [hb]; exact nofun)
    | nickReady hb => exact hy ▸ h.owner_open (by rw [hb]; exact nofun) (by rw [hb]; exact nofun)
    | rename hb => exact hy ▸ h.owner_open (by rw [hb]; exact nofun) (by rw [hb]; exact nofun)
    | _ => exact hy.elim

/-- Nor does a run, of the sessions closed when it starts. -/
theorem Tidy.heard_run (h : Tidy s) (hr : RunIn GatewayServer.step JoinsOpen s s')
    (hw : (s.sessions w).closed = true) :
    Tidy s' ∧ (s'.sessions w).closed = true ∧ Heard (· ≠ w) s s' := by
  refine hr.invariant (I := fun t => Tidy t ∧ (t.sessions w).closed = true ∧ Heard (· ≠ w) s t)
    ⟨h, hw, .of_eq rfl⟩ fun t a t' ⟨ht, hc, hh⟩ hf hs =>
    ⟨ht.step hf hs, ht.closed_step hs hc, hh.trans ?_⟩
  apply (ht.heard_step hf hs).mono
  intro y hy
  rintro rfl
  rw [hc] at hy
  cases hy

/-- **A closed session is gone**: if sessions join once and before they are closed, then
from the close event on the session is not in the roster, its backend connections have
ended, and nothing that is sent to anyone says that it is online. -/
theorem closed_session_gone {env : Env} {config : GatewayConfig}
    (h : RunIn step JoinsOpen (init env config) s) (hw : (s.sessions w).closed = true)
    (h' : RunIn step JoinsOpen s s') :
    w ∉ s'.roster.values ∧
    (∀ b < s'.nextBackend, (s'.backends b).owner = w → (s'.backends b).socket = .ended) ∧
    ∀ x, ∃ extra, s'.sent x = s.sent x ++ extra ∧ ∀ m ∈ extra, w ∉ m.about := by
  obtain ⟨ht, hc, hh⟩ := (tidy_of_run h).heard_run h' hw
  refine ⟨?_, ?_, ?_⟩
  · intro hm
    obtain ⟨id, hid⟩ := OrdMap.mem_values.mp hm
    rw [ht.listed id w hid] at hc
    cases hc
  · intro b hb ho
    exact ht.ended w b hc ((ht.wired.backend w b).mpr ⟨hb, ho⟩)
  · intro x
    obtain ⟨extra, he, hp⟩ := hh x
    exact ⟨extra, he, fun m hm hmem => hp m hm w hmem rfl⟩

/-- A WebSocket registers an account and closes. -/
def registerAndClose : List Event := oneRegister ++ [.connected 0, .wsClose 0]

/-- The WebSocket closes while the password is hashed. -/
def closeWhileHashing : List Event :=
  [.connection, .message 0 70 (some (registerMessage "alice")), .wsClose 0, .authDone 0,
    .connected 0]

/-- Then another WebSocket registers an account. -/
def registerBob : List Event :=
  [.connection, .message 1 70 (some (registerMessage "bob")), .authDone 0, .connected 1,
    .backendFrame 1 (bytes "WELCOME bob")]

set_option maxRecDepth 8000 in
theorem gone_after_close :
    ∃ s s', RunIn step JoinsOpen (init .sample {}) s ∧ (s.sessions 0).closed = true ∧
      RunIn step JoinsOpen s s' ∧ (s'.sessions 1).readyAnnounced = true ∧ 0 ∉ s'.roster.values ∧
      (s'.backends 0).socket = .ended ∧
      ∃ extra, s'.sent 1 = s.sent 1 ++ extra ∧ ∀ m ∈ extra, 0 ∉ m.about := by
  have h : (execAllIn step JoinsOpen (init .sample {}) registerAndClose).any
      (fun s => (s.sessions 0).closed && (execAllIn step JoinsOpen s registerBob).any fun s' =>
        decide ((s'.sessions 1).readyAnnounced = true ∧ 0 < s'.nextBackend ∧
          (s'.backends 0).owner = 0)) = true := by decide
  obtain ⟨s, hs, h⟩ := (Option.any_eq_true ..).mp h
  obtain ⟨hc, h⟩ := Bool.and_eq_true .. |>.mp h
  obtain ⟨s', hs', h⟩ := (Option.any_eq_true ..).mp h
  obtain ⟨hready, hb, ho⟩ := of_decide_eq_true h
  obtain ⟨hroster, hended, hsent⟩ :=
    closed_session_gone (runIn_of_execAllIn hs) hc (runIn_of_execAllIn hs')
  exact ⟨s, s', runIn_of_execAllIn hs, hc, runIn_of_execAllIn hs', hready, hroster,
    hended 0 hb ho, hsent 1⟩

set_option maxRecDepth 4000 in
/-- **A closed session may join**: a WebSocket that closes while the password is hashed
leaves a session in the roster that nobody will ever take out, with an open backend
connection. -/
theorem closed_session_joins :
    ∃ s, Run step (init .sample {}) s ∧ (s.sessions 0).closed = true ∧ s.roster.values = [0] ∧
      (s.sessions 0).backend = some 0 ∧ (s.backends 0).socket = .opened := by
  have h : (execAll step (init .sample {}) closeWhileHashing).map (fun s =>
      ((s.sessions 0).closed, s.roster.values, (s.sessions 0).backend, (s.backends 0).socket)) =
      some (true, [0], some 0, .opened) := by decide
  obtain ⟨s, hs, he⟩ := exists_run_of_execAll h
  simp only [Prod.mk.injEq] at he
  exact ⟨s, hs, he⟩

end GatewayServer

end ThreadLink.Gateway
