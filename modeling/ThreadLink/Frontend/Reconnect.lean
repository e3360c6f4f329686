import ThreadLink.Frontend.ChatProvider

/-!
# Giving up

The status `"failed"` makes the browser log out. Three places of the transport report it: the
constructor of a socket throws; a connection ends when it has been tried often enough to reconnect;
or a socket fires `error` before it is open. The last does not look at how often it has been tried,
and the `close` that follows it schedules the next attempt.

## The model

* `attempts` counts the reconnect attempts that have begun since a socket was open: the timer has
  run, or `connect` has been called before it did.

## What is proved

* `gives_up_iff` — at each step, `"failed"` is only reported when it should be, if and only if the
  step is not such an error while attempts are left.
-/

namespace ThreadLink.Frontend.ThreadLinkClient

open Text Gateway Runs

variable {past : List (ThreadLinkClient × Event)} {c c' : ThreadLinkClient} {e : Event} {max : ℕ}

/-! ### Attempts -/

/-- The constructor of the socket throws. -/
def Event.throws : Event → Bool
  | .connect thrown | .timer _ thrown => thrown.isSome
  | _ => false

/-- The current socket is open now. -/
def opens (e : ThreadLinkClient × Event) : Bool :=
  match e.2 with
  | .opened id => e.1.socket == some id
  | _ => false

/-- A reconnect attempt begins. -/
def retries (e : ThreadLinkClient × Event) : Bool :=
  match e.2 with
  | .timer _ _ => true
  | .connect _ => e.1.reconnectTimer.isSome
  | _ => false

/-- How many have begun since a socket was open. -/
def attempts (past : List (ThreadLinkClient × Event)) : ℕ := countSince opens retries past

/-- None of them is under way. -/
def Over (c : ThreadLinkClient) : Prop :=
  ∀ id, c.socket = some id → (c.sockets.find? id).map WebSocket.readyState = some .closed

/-- **The claim's condition** for `"failed"`: the constructor throws, or as many attempts as there
may be have ended, and none of them was open. -/
def MayFail (past : List (ThreadLinkClient × Event)) (c : ThreadLinkClient) (e : Event)
    (c' : ThreadLinkClient) : Prop :=
  e.throws ∨ c.maxReconnectAttempts ≤ attempts (past ++ [(c, e)]) ∧ c'.Over

/-- **The defect**: a socket fires `error` before it is open, and attempts are left. -/
def Early (c : ThreadLinkClient) (e : Event) : Prop :=
  ∃ id, e = .error id ∧ c.socket = some id ∧ c.status = .connecting ∧
    c.reconnectAttempts < c.maxReconnectAttempts

/-! ### What is counted -/

/-- What `connect` leaves of the state. -/
theorem connect_fields (h : Steady c) (thrown : Option (Option Units)) :
    (c.connect thrown).reconnectTimer = none ∧
    (c.connect thrown).reconnectAttempts = c.reconnectAttempts ∧
      (c.connect thrown).intentionalClose = false := by
  have h0 : Steady { c with intentionalClose := false } :=
    ⟨h.own, h.attached, h.timers, h.alone, h.attempts⟩
  have htimer := (h0.cleared false).2.2
  have hsame : (clearReconnectTimer { c with intentionalClose := false }).reconnectAttempts =
    c.reconnectAttempts ∧
      (clearReconnectTimer { c with intentionalClose := false }).intentionalClose = false := by
    unfold clearReconnectTimer
    split <;> exact ⟨rfl, rfl⟩
  have hcleared :
    (closeSocket (clearReconnectTimer { c with intentionalClose := false })
      false).reconnectAttempts =
      c.reconnectAttempts ∧
      (closeSocket (clearReconnectTimer { c with intentionalClose := false })
        false).intentionalClose = false := by
    unfold closeSocket
    split
    · exact hsame
    · exact hsame
  unfold connect
  cases thrown <;> exact ⟨htimer, hcleared⟩

/-- The attempts that have begun, and the one that is scheduled, are those the client counts. -/
structure Counted (max : ℕ) (past : List (ThreadLinkClient × Event)) (c : ThreadLinkClient) :
    Prop where
  /-- The invariant. -/
  steady : Steady c
  /-- The client reconnects. -/
  enabled : c.reconnectEnabled = true
  /-- So often. -/
  limit : c.maxReconnectAttempts = max
  /-- `disconnect` has not been called. -/
  unintended : c.intentionalClose = false
  /-- The count. -/
  count : attempts past + c.reconnectTimer.isSome.toNat = c.reconnectAttempts

theorem Counted.init (max : ℕ) : Counted max [] (init true max) :=
  ⟨steady_init true max, rfl, rfl, rfl, rfl⟩

/-- What the client counts does not change. -/
def Alike (c c' : ThreadLinkClient) : Prop :=
  c'.intentionalClose = c.intentionalClose ∧ c'.reconnectAttempts = c.reconnectAttempts ∧
    c'.reconnectTimer = c.reconnectTimer

theorem alike_send (c : ThreadLinkClient) (message : ClientMessage) : Alike c (c.send message) := by
  unfold send
  split <;> exact ⟨rfl, rfl, rfl⟩

theorem alike_onmessage (c : ThreadLinkClient) (parsed : Option ServerMessage) :
    Alike c (c.onmessage parsed) := by
  cases parsed <;> exact ⟨rfl, rfl, rfl⟩

theorem alike_onerror (c : ThreadLinkClient) : Alike c c.onerror := by
  unfold onerror
  split <;> exact ⟨rfl, rfl, rfl⟩

theorem over_onerror (h : Over c) : c.onerror.Over := by
  unfold onerror
  split <;> exact h

/-- An event at which neither an attempt begins nor a socket is open. -/
theorem Counted.same (h : Counted max past c) (hs : c.step e = some c') (ho : opens (c, e) = false)
    (hr : retries (c, e) = false) (ha : Alike c c') : Counted max (past ++ [(c, e)]) c' := by
  obtain ⟨henabled, hlimit⟩ := options_step hs
  obtain ⟨hi, hcount, ht⟩ := ha
  refine ⟨h.steady.step hs, henabled.trans h.enabled, hlimit.trans h.limit,
    hi.trans h.unintended, ?_⟩
  rw [attempts, countSince_concat, ho, hr, hcount, ht]
  exact h.count

/-- An attempt begins. -/
theorem Counted.begin (h : Counted max past c) (hs : c.step e = some c') (ho : opens (c, e) = false)
    (hr : retries (c, e) = c.reconnectTimer.isSome) (hi : c'.intentionalClose = false)
    (hcount : c'.reconnectAttempts = c.reconnectAttempts) (ht : c'.reconnectTimer = none) :
    Counted max (past ++ [(c, e)]) c' := by
  obtain ⟨henabled, hlimit⟩ := options_step hs
  refine ⟨h.steady.step hs, henabled.trans h.enabled, hlimit.trans h.limit, hi, ?_⟩
  rw [attempts, countSince_concat, ho, hr, hcount, ht]
  exact h.count

/-- What `onclose` does if `disconnect` has not been called. -/
theorem onclose_eq (hi : c.intentionalClose = false) (hr : c.reconnectEnabled = true) :
    c.onclose = if c.reconnectAttempts < c.maxReconnectAttempts
    then scheduleReconnect { c with socket := none }
      else setStatus { c with socket := none }
        (if c.reconnectAttempts > 0 then .failed else .disconnected) := by
  unfold onclose
  dsimp only
  rw [hi, hr, if_neg Bool.false_ne_true, Bool.true_and]
  by_cases ha : c.reconnectAttempts < c.maxReconnectAttempts
  · rw [if_pos ha, if_pos (decide_eq_true ha)]
  · rw [if_neg ha, if_neg (by rw [decide_eq_true_eq]; exact ha)]

/-- **One event.** -/
theorem Counted.step (h : Counted max past c) (he : e ≠ .disconnect) (hs : c.step e = some c') :
    Counted max (past ++ [(c, e)]) c' := by
  have h0 : Steady { c with reports := [] } :=
    ⟨h.steady.own, h.steady.attached, h.steady.timers, h.steady.alone, h.steady.attempts⟩
  cases change_of_step hs with
  | disconnect => exact absurd rfl he
  | connect thrown =>
    obtain ⟨ht, hcount, hi⟩ := connect_fields h0 thrown
    exact h.begin hs rfl rfl hi hcount ht
  | timer ht thrown =>
    have htimer := (h.steady.timers _).mp ht
    rw [connect_of_timer htimer] at hs ⊢
    obtain ⟨ht, hcount, hi⟩ := connect_fields h0 thrown
    refine h.begin hs rfl ?_ hi hcount ht
    rw [htimer]
    rfl
  | send message => exact h.same hs rfl rfl (alike_send _ message)
  | closing hf hr => exact h.same hs rfl rfl ⟨rfl, rfl, rfl⟩
  | message hf hr parsed =>
    apply h.same hs rfl rfl
    split
    · exact alike_onmessage _ parsed
    · exact ⟨rfl, rfl, rfl⟩
  | @error id s hf hr =>
    apply h.same hs rfl rfl
    split
    · exact alike_onerror (becomes { c with reports := [] } id .closed)
    · exact ⟨rfl, rfl, rfl⟩
  | @opened id s hf hr =>
    by_cases hw : s.wired
    · rw [if_pos hw] at hs ⊢
      have hid := h.steady.own id s hf hw
      obtain ⟨henabled, hlimit⟩ := options_step hs
      refine ⟨h.steady.step hs, henabled.trans h.enabled, hlimit.trans h.limit, h.unintended, ?_⟩
      have ho : opens (c, .opened id) = true := beq_iff_eq.mpr hid
      rw [attempts, countSince_concat, ho, if_pos rfl]
      show 0 + c.reconnectTimer.isSome.toNat = 0
      rw [h.steady.timer_of_socket hid]
      rfl
    · rw [if_neg hw] at hs ⊢
      refine h.same hs ?_ rfl ⟨rfl, rfl, rfl⟩
      by_contra ho
      obtain ⟨s', hf', hw'⟩ := h.steady.attached id (beq_iff_eq.mp (Bool.not_eq_false _ ▸ ho))
      rw [hf] at hf'
      exact hw (Option.some.inj hf' ▸ hw')
  | @close id s hf =>
    by_cases hw : s.wired
    · rw [if_pos hw] at hs ⊢
      have htimer := h.steady.timer_of_socket (h.steady.own id s hf hw)
      rw [@onclose_eq { c with reports := [], sockets := c.sockets.erase id } h.unintended
        h.enabled] at hs ⊢
      by_cases ha : c.reconnectAttempts < c.maxReconnectAttempts
      · -- one more is scheduled
        rw [if_pos ha] at hs ⊢
        obtain ⟨henabled, hlimit⟩ := options_step hs
        refine ⟨h.steady.step hs, henabled.trans h.enabled, hlimit.trans h.limit, h.unintended, ?_⟩
        have hcount := h.count
        rw [htimer] at hcount
        show attempts (past ++ [(c, .close id)]) + 1 = c.reconnectAttempts + 1
        rw [← hcount, attempts, countSince_concat]
        rfl
      · rw [if_neg ha] at hs ⊢
        exact h.same hs rfl rfl ⟨rfl, rfl, rfl⟩
    · rw [if_neg hw] at hs ⊢
      exact h.same hs rfl rfl ⟨rfl, rfl, rfl⟩

/-- While there is a socket, all attempts have begun. -/
theorem Counted.attempts_eq (h : Counted max past c) {id : SocketId} (hid : c.socket = some id)
    (ho : opens (c, e) = false) (hr : retries (c, e) = false) :
    attempts (past ++ [(c, e)]) = c.reconnectAttempts := by
  have hcount := h.count
  rw [h.steady.timer_of_socket hid] at hcount
  rw [attempts, countSince_concat, ho, hr]
  exact hcount

/-! ### Reports of `"failed"` -/

/-- Which events report `"failed"`. -/
inductive Fails (c : ThreadLinkClient) : Event → ThreadLinkClient → Prop where
  /-- The constructor throws. -/
  | throws {e : Event} {c' : ThreadLinkClient} (ht : e.throws) (hs : c'.socket = none)
      (hr : c'.reconnectTimer = none) :
    Fails c e c'
  /-- The current socket fires `error` before it is open. -/
  | error {id : SocketId} {c' : ThreadLinkClient} (hid : c.socket = some id)
    (hc : c.status = .connecting) (ho : c'.Over)
    (hr : c'.reconnectTimer = none) : Fails c (.error id) c'
  /-- It fires `close`, and no attempt is left. -/
  | close {id : SocketId} {c' : ThreadLinkClient} (hid : c.socket = some id)
    (ha : c.maxReconnectAttempts ≤ c.reconnectAttempts) (hs : c'.socket = none)
      (hr : c'.reconnectTimer = none) :
    Fails c (.close id) c'

theorem fails_of_connect (h : Steady c) {thrown : Option (Option Units)}
    (he : e.throws = thrown.isSome)
    (hf : .status .failed ∈ (connect { c with reports := [] } thrown).reports) :
    Fails c e (connect { c with reports := [] } thrown) := by
  rw [connect_reports] at hf
  cases thrown with
  | none => simp at hf
  | some message =>
    have h0 : Steady { c with reports := [], intentionalClose := false } :=
      ⟨h.own, h.attached, h.timers, h.alone, h.attempts⟩
    obtain ⟨-, hsocket, htimer⟩ := h0.cleared false
    exact .throws he hsocket htimer

/-- **Which events report `"failed"`.** -/
theorem Counted.fails (h : Counted max past c) (he : e ≠ .disconnect) (hs : c.step e = some c')
    (hf : .status .failed ∈ c'.reports) : Fails c e c' := by
  cases change_of_step hs with
  | disconnect => exact absurd rfl he
  | connect thrown => exact fails_of_connect h.steady rfl hf
  | timer ht thrown =>
    rw [connect_of_timer ((h.steady.timers _).mp ht)] at hf ⊢
    exact fails_of_connect h.steady rfl hf
  | send message =>
    unfold send at hf
    split at hf
    · simp [onError] at hf
    · simp at hf
  | closing => cases hf
  | message hfind hr parsed =>
    split at hf
    · cases parsed with
      | none => cases hf
      | some m => simp [onmessage] at hf
    · cases hf
  | @opened id s hfind hr =>
    split at hf
    · simp [onopen, setStatus, becomes] at hf
    · cases hf
  | @error id s hfind hr =>
    by_cases hw : s.wired
    · rw [if_pos hw] at hf ⊢
      have hid := h.steady.own id s hfind hw
      have hover : (becomes { c with reports := [] } id .closed).Over := by
        intro id' hid'
        obtain rfl := Option.some.inj (hid.symm.trans hid')
        show ((c.sockets.modify id _).find? id).map WebSocket.readyState = some .closed
        rw [OrdMap.find?_modify_self, hfind]
        rfl
      by_cases hc : c.status = .connecting
      · exact .error hid hc (over_onerror hover)
          ((alike_onerror _).2.2.trans (h.steady.timer_of_socket hid))
      · unfold onerror at hf
        rw [if_neg (by exact hc)] at hf
        simp [onError, becomes] at hf
    · rw [if_neg hw] at hf
      cases hf
  | @close id s hfind =>
    by_cases hw : s.wired
    · rw [if_pos hw] at hf ⊢
      have hid := h.steady.own id s hfind hw
      rw [@onclose_eq { c with reports := [], sockets := c.sockets.erase id } h.unintended
        h.enabled] at hf ⊢
      by_cases ha : c.reconnectAttempts < c.maxReconnectAttempts
      · rw [if_pos ha] at hf
        simp [scheduleReconnect, setStatus] at hf
      · rw [if_neg ha]
        exact .close hid (not_lt.mp ha) rfl (h.steady.timer_of_socket hid)
    · rw [if_neg hw] at hf
      cases hf

/-! ### What follows -/

/-- No attempt will be scheduled. -/
structure Ended (c : ThreadLinkClient) : Prop where
  /-- The invariant. -/
  steady : Steady c
  /-- None is. -/
  timer : c.reconnectTimer = none
  /-- None is under way. -/
  idle : c.Over
  /-- If there is a socket, none is left. -/
  limit : c.socket.isSome → c.maxReconnectAttempts ≤ c.reconnectAttempts

theorem Ended.of_none (hs : Steady c) (hsocket : c.socket = none) (ht : c.reconnectTimer = none) :
    Ended c := by
  refine ⟨hs, ht, ?_, ?_⟩
  · intro id hid
    exact absurd (hsocket.symm.trans hid) (by simp)
  · intro hid
    rw [hsocket] at hid
    cases hid

/-- No attempt is left when a socket fires `close`. -/
theorem onclose_of_limit (h : c.maxReconnectAttempts ≤ c.reconnectAttempts) :
    c.onclose.socket = none ∧ c.onclose.reconnectTimer = c.reconnectTimer := by
  have ha : (c.reconnectEnabled && decide (c.reconnectAttempts < c.maxReconnectAttempts)) =
      false := by
    rw [decide_eq_false (not_lt.mpr h), Bool.and_false]
  unfold onclose
  dsimp only
  rw [ha, if_neg Bool.false_ne_true]
  split <;> exact ⟨rfl, rfl⟩

/-- The current socket is closed, so that it is not one of those that are not. -/
theorem Ended.unwired (h : Ended c) {id : SocketId} {s : WebSocket}
    (hf : c.sockets.find? id = some s) (hr : s.readyState ≠ .closed) : ¬ s.wired := by
  intro hw
  have hover := h.idle id (h.steady.own id s hf hw)
  rw [hf] at hover
  exact hr (Option.some.inj hover)

/-- Other sockets may change. -/
theorem Ended.other (h : Ended c) (hs : Steady c') (hsocket : c'.socket = c.socket)
    (htimer : c'.reconnectTimer = c.reconnectTimer)
    (hmax : c'.maxReconnectAttempts = c.maxReconnectAttempts)
    (hcount : c'.reconnectAttempts = c.reconnectAttempts)
    (hfind : ∀ id, c.socket = some id → c'.sockets.find? id = c.sockets.find? id) : Ended c' := by
  refine ⟨hs, htimer.trans h.timer, ?_, ?_⟩
  · intro id hid
    rw [hsocket] at hid
    rw [hfind id hid]
    exact h.idle id hid
  · rw [hsocket, hmax, hcount]
    exact h.limit

/-- A socket without handlers is not the current one. -/
theorem Steady.ne_of_unwired (h : Steady c) {id id' : SocketId} {s : WebSocket}
    (hf : c.sockets.find? id = some s) (hw : ¬ s.wired) (hid : c.socket = some id') : id' ≠ id := by
  rintro rfl
  obtain ⟨s', hf', hw'⟩ := h.attached id' hid
  rw [hf] at hf'
  exact hw (Option.some.inj hf' ▸ hw')

/-- **One event.** -/
theorem Ended.step (h : Ended c) (he : e.Idle) (hs : c.step e = some c') : Ended c' := by
  have hsteady : Steady c' := h.steady.step hs
  cases change_of_step hs with
  | connect thrown => exact absurd he fun h => h
  | timer ht thrown => exact absurd ht (h.steady.timers_of_none h.timer _)
  | disconnect =>
    have h0 : Steady { c with reports := [] } :=
      ⟨h.steady.own, h.steady.attached, h.steady.timers, h.steady.alone, h.steady.attempts⟩
    obtain ⟨-, hsocket, htimer⟩ := h0.disconnect
    exact .of_none hsteady hsocket htimer
  | send message =>
    unfold send at hsteady ⊢
    split at hsteady <;> exact h.other hsteady rfl rfl rfl rfl fun _ _ => rfl
  | @opened id s hf hr =>
    have hw := h.unwired hf (by rw [hr]; decide)
    rw [if_neg hw] at hsteady ⊢
    apply h.other hsteady rfl rfl rfl rfl
    intro id' hid
    exact OrdMap.find?_modify_of_ne _ (h.steady.ne_of_unwired hf hw hid) _
  | @closing id s hf hr =>
    have hw := h.unwired hf (by rw [hr]; decide)
    apply h.other hsteady rfl rfl rfl rfl
    intro id' hid
    exact OrdMap.find?_modify_of_ne _ (h.steady.ne_of_unwired hf hw hid) _
  | message hf hr parsed =>
    have hw := h.unwired hf (by rw [hr]; decide)
    rw [if_neg hw] at hsteady ⊢
    exact h.other hsteady rfl rfl rfl rfl fun _ _ => rfl
  | @error id s hf hr =>
    have hw := h.unwired hf hr
    rw [if_neg hw] at hsteady ⊢
    apply h.other hsteady rfl rfl rfl rfl
    intro id' hid
    exact OrdMap.find?_modify_of_ne _ (h.steady.ne_of_unwired hf hw hid) _
  | @close id s hf =>
    by_cases hw : s.wired
    · -- the current socket: nothing is left to try
      rw [if_pos hw] at hsteady ⊢
      have hlimit := h.limit (by rw [h.steady.own id s hf hw]; rfl)
      obtain ⟨hsocket, htimer⟩ :=
        @onclose_of_limit { c with reports := [], sockets := c.sockets.erase id } hlimit
      exact .of_none hsteady hsocket (htimer.trans h.timer)
    · rw [if_neg hw] at hsteady ⊢
      apply h.other hsteady rfl rfl rfl rfl
      intro id' hid
      exact OrdMap.find?_erase_of_ne _ (h.steady.ne_of_unwired hf hw hid)

/-- After an event that reports `"failed"` and is not early, none will be scheduled. -/
theorem Counted.ended (h : Counted max past c) (he : e ≠ .disconnect) (hs : c.step e = some c')
    (hn : ¬ Early c e) (hf : .status .failed ∈ c'.reports) : Ended c' := by
  have hsteady := h.steady.step hs
  have hh := (h.step he hs).limit
  cases h.fails he hs hf with
  | throws ht hsocket htimer => exact .of_none hsteady hsocket htimer
  | close hid ha hsocket htimer => exact .of_none hsteady hsocket htimer
  | @error id _ hid hc ho htimer =>
    refine ⟨hsteady, htimer, ho, ?_⟩
    intro _
    have hcount : c'.reconnectAttempts = c.reconnectAttempts := by
      have := (h.step he hs).count
      rw [h.attempts_eq hid rfl rfl, htimer] at this
      exact this.symm
    rw [hcount, (options_step hs).2]
    exact not_lt.mp fun hlt => hn ⟨id, rfl, hid, hc, hlt⟩

/-- An early error reports `"failed"`. -/
theorem failed_of_early (h : Steady c) (hs : c.step e = some c') (he : Early c e) :
    .status .failed ∈ c'.reports := by
  obtain ⟨id, rfl, hid, hc, -⟩ := he
  obtain ⟨s', hf', hw⟩ := h.attached id hid
  cases change_of_step hs with
  | @error _ s hf hr =>
    obtain rfl := Option.some.inj (hf.symm.trans hf')
    rw [if_pos hw]
    unfold onerror
    rw [if_pos (by exact hc)]
    exact List.mem_append_left _ (List.mem_singleton.mpr rfl)

/-- **Giving up.** In every run without `disconnect` of a client that reconnects, whatever event
comes next: `"failed"` is only reported if the constructor throws or as many attempts as there may
be have ended without an open socket, and `LOGGED_OUT` is only dispatched if no further attempt will
be scheduled until `connect` is called, if and only if the event is not the error of a socket that
is not open yet while attempts are left. -/
theorem gives_up_iff {max : ℕ} (h : PathIn step (fun _ e => e ≠ .disconnect) (init true max) past c)
    (he : e ≠ .disconnect) (hs : step c e = some c') :
    ((.status .failed ∈ c'.reports → MayFail past c e c') ∧
      ∀ stateRef status, .status status ∈ c'.reports → logsOut stateRef status = true →
        ∀ c'', RunIn step (fun _ e => e.Idle) c' c'' → c''.timers.keys = []) ↔ ¬ Early c e := by
  have hcounted : Counted max past c := by
    refine h.invariant (I := fun past c => Counted max past c) (.init max) ?_
    intro past c e c' hI he hs
    exact hI.step he hs
  constructor
  · intro hall hearly
    have hf := failed_of_early hcounted.steady hs hearly
    obtain ⟨id, rfl, hid, hc, hlt⟩ := hearly
    rcases hall.1 hf with ht | ⟨hle, -⟩
    · cases ht
    · rw [hcounted.attempts_eq hid rfl rfl] at hle
      exact absurd hle (not_le.mpr hlt)
  · intro hn
    refine ⟨?_, ?_⟩
    · intro hf
      cases hcounted.fails he hs hf with
      | throws ht => exact .inl ht
      | @close id _ hid ha hsocket =>
        refine .inr ⟨?_, fun id' hid' => absurd (hsocket.symm.trans hid') (by simp)⟩
        rw [hcounted.attempts_eq hid rfl rfl]
        exact ha
      | @error id _ hid hc ho =>
        refine .inr ⟨?_, ho⟩
        rw [hcounted.attempts_eq hid rfl rfl]
        exact not_lt.mp fun hlt => hn ⟨id, rfl, hid, hc, hlt⟩
    · intro stateRef status hr hl c'' hrun
      have hstatus : status = .failed := by
        unfold logsOut at hl
        rw [Bool.and_eq_true, beq_iff_eq] at hl
        exact hl.1
      rw [hstatus] at hr
      have hended : Ended c'' := by
        apply hrun.invariant (I := Ended) (hcounted.ended he hs hn hr)
        intro c e c' hI he hs
        exact hI.step he hs
      exact List.eq_nil_iff_forall_not_mem.mpr (hended.steady.timers_of_none hended.timer)

/-- The first socket is closed, and the timer makes the second. -/
def secondTry : List Event := [.connect none, .close 0, .timer 0 none]

theorem second_try_is_last :
    ∃ past c c', step c (.error 1) = some c' ∧ .status .failed ∈ c'.reports ∧
    (.status .failed ∈ c'.reports → MayFail past c (.error 1) c') := by
  let c := (execAllIn step (fun _ e => e ≠ .disconnect) (init true 1) secondTry).get (by decide)
  have hc : execAllIn step (fun _ e => e ≠ .disconnect) (init true 1) secondTry = some c :=
    (Option.some_get _).symm
  have hs : step c (.error 1) = some ((step c (.error 1)).get (by decide)) :=
    (Option.some_get _).symm
  have hearly : ¬ Early c (.error 1) := by
    rintro ⟨id, -, -, -, hlt⟩
    exact absurd hlt (by decide)
  exact ⟨_, c, _, hs,
    by decide, ((gives_up_iff (pathIn_of_execAllIn hc) (by decide) hs).mpr hearly).1⟩

/-- The first call of `connect`. -/
theorem path_connect (max : ℕ) : PathIn step (fun _ e => e ≠ .disconnect) (init true max)
    [(init true max, .connect none)] (connect (init true max) none) :=
  .tail .refl (by decide) rfl

/-- **The client gives up early**: the first socket fires `error`, and then `close`, which schedules
the first attempt to reconnect. -/
theorem gives_up_early :
    ¬ ∀ max past c e c', PathIn step (fun _ e => e ≠ .disconnect) (init true max) past c →
    e ≠ .disconnect → step c e = some c' →
    (.status .failed ∈ c'.reports → MayFail past c e c') ∧
      ∀ stateRef status, .status status ∈ c'.reports → logsOut stateRef status = true →
        ∀ c'', RunIn step (fun _ e => e.Idle) c' c'' → c''.timers.keys = [] := by
  intro hall
  obtain ⟨hfail, -⟩ := hall 5 _ _ (.error 0) _ (path_connect 5) (by decide) rfl
  rcases hfail (by decide) with ht | ⟨hle, -⟩
  · cases ht
  · exact absurd hle (by decide)

end ThreadLink.Frontend.ThreadLinkClient
