import ThreadLink.Gateway.Sessions

/-!
# What ends the process

An exception that leaves an event handler, and a promise that is rejected with nobody to
handle it, end the gateway. This module says when that happens: when the validator
raises on a message, and when a line is to be given to a backend connection that has been
closed.

## What is proved

* `answered_iff` — a JSON value is always answered or processed exactly if its `type` can be
  put into an error text.
* `never_sends_to_closed` — if no message is forwarded after the backend connection of its
  session has been closed, and sessions join once, no promise is ever rejected.
-/

namespace ThreadLink.Gateway

open Text Runs

namespace GatewayServer

variable {A : WsId → Prop} {L : Prop} {s s' t : GatewayServer} {e : Event} {w : WsId}

/-! ### The validator -/

theorem fault_raise (s : GatewayServer) {f f' : Fault} (h : s.fault ≠ some f') (hf : f ≠ f') :
    (s.raise f).fault ≠ some f' := by
  show s.fault.or (some f) ≠ some f'
  cases hs : s.fault with
  | none => exact fun he => hf (Option.some.inj he)
  | some g => exact fun he => h (hs.trans he)

theorem sendLine_typeError (line : Line) (h : s.fault ≠ some .typeError) :
    (s.sendLine w line).fault ≠ some .typeError := by
  unfold sendLine
  split
  · exact fault_raise s h nofun
  · split
    · exact fault_raise s h nofun
    · exact h

/-- Only the validator raises a `TypeError`. -/
theorem Quiet.typeError (h : Quiet A L s t) (hs : s.fault ≠ some .typeError) :
    t.fault ≠ some .typeError := by
  induction h with
  | refl => exact hs
  | tail _ h ih =>
    cases h with
    | send => exact ih
    | own => exact ih
    | keep => exact ih
    | nick => exact sendLine_typeError _ ih
    | chat => exact sendLine_typeError _ ih
    | direct => exact sendLine_typeError _ ih

theorem Deeds.typeError {P : Cause → Prop} (h : Deeds P s t) (hs : s.fault ≠ some .typeError) :
    t.fault ≠ some .typeError :=
  (h.quiet (A := fun _ => True) (L := True) (fun _ _ _ _ => trivial) fun _ _ _ => trivial).typeError
    hs

/-- **When the validator raises**: a JSON value leads to a result of the validator, and a
message with it to an answer or to processing, exactly if its `type` is printable. -/
theorem answered_iff (value : Json) :
    ((∃ result, validateClientMessage value = .ok result) ∧
      ∀ (s : GatewayServer) (w : WsId) (byteLength : ℕ), s.live w → s.fault ≠ some .typeError →
        (s.onClientRaw w byteLength (some value)).fault ≠ some .typeError) ↔
        TypePrintable value := by
  rw [validateClientMessage_isOk_iff, and_iff_left_iff_imp]
  intro hp s w n hl hs
  obtain ⟨result, hr⟩ := (validateClientMessage_isOk_iff value).mpr hp
  unfold onClientRaw
  split
  · exact ((Deeds.refl s).error (P := fun _ => True) (c := .answer) trivial ..).typeError hs
  · simp only [hr]
    cases result with
    | error error =>
      exact ((Deeds.refl s).error (P := fun _ => True) (c := .answer) trivial ..).typeError hs
    | ok message =>
      obtain ⟨t, -, hf, hd⟩ := onClientMessage_change (n := n) (v := some value) hl message
      exact hd.typeError (hf ▸ hs)

/-- An object that `String` raises on: its own `toString` hides the one it would inherit. -/
def hostile : Json := .obj [(units "type", .obj [(units "toString", .null)])]

set_option maxRecDepth 4000 in
/-- **One message takes the gateway down**, also before anyone has logged in. -/
theorem hostile_type_raises :
    (∀ result, validateClientMessage hostile ≠ .ok result) ∧
      ∃ s, Run step (init .sample {}) s ∧ (s.sessions 0).authenticated = false ∧
        s.fault = some .typeError := by
  have hv : (validateClientMessage hostile).toOption = none := by decide
  have h : (execAll step (init .sample {}) [.connection, .message 0 26 (some hostile)]).map
      (fun s =>
      ((s.sessions 0).authenticated, s.fault)) = some (false, some .typeError) := by decide
  obtain ⟨s, hs, he⟩ := exists_run_of_execAll h
  simp only [Prod.mk.injEq] at he
  refine ⟨?_, s, hs, he⟩
  intro result hr
  rw [hr] at hv
  cases hv

/-! ### Lines for a backend connection that has been closed -/

/-- The session has a backend connection that has not been closed. -/
def Connected (s : GatewayServer) (w : WsId) : Prop :=
  ∃ b, (s.sessions w).backend = some b ∧ (s.backends b).closed = false

/-- The backend connection of the session has been closed. -/
def backendClosed (s : GatewayServer) (w : WsId) : Bool :=
  match (s.sessions w).backend with
  | none => false
  | some b => (s.backends b).closed

/-- The session for which an event forwards a message. -/
def forwarder (s : GatewayServer) : Event → Option WsId
  | .message w n v =>
    match s.handled? w n v with
    | none => none
    | some m => if s.forwards m then some w else none
  | _ => none

/-- **The condition**: sessions join once, and no message is forwarded for a session whose
backend connection has been closed. -/
def SendsOpen (s : GatewayServer) (e : Event) : Prop :=
  JoinsOnce s e ∧ ∀ w ∈ s.forwarder e, s.backendClosed w = false

instance (s : GatewayServer) (e : Event) : Decidable (SendsOpen s e) :=
  inferInstanceAs (Decidable (_ ∧ ∀ w ∈ s.forwarder e, _))

theorem Connected.same (h : Connected s w) (hs : Same s t) : Connected t w := by
  obtain ⟨b, hb, hc⟩ := h
  obtain ⟨p, q, hw⟩ := hs.sessions w
  exact ⟨b, by rw [hw]; exact hb, by rw [hs.backends]; exact hc⟩

theorem sendLine_connected (h : Connected s w) (line : Line) :
    (s.sendLine w line).fault = s.fault := by
  obtain ⟨b, hb, hc⟩ := h
  unfold sendLine
  rw [hb]
  simp only [hc, Bool.false_eq_true, if_false]

theorem forward_connected {request : Request} (h : Connected s request.sender) (line : Units) :
    (s.forward request line).fault = s.fault :=
  sendLine_connected (s := { s with requests := s.requests ++ [request] }) h _

/-- A handler that gives lines only to connections that have not been closed raises nothing. -/
theorem Quiet.fault_eq (h : Quiet A L s t) (hc : L → ∀ w, A w → Connected s w) :
    t.fault = s.fault := by
  induction h with
  | refl => rfl
  | @tail t u hq h ih =>
    rw [← ih]
    have hs : Same s t := Quiet.same hq
    cases h with
    | send => rfl
    | own => rfl
    | keep => rfl
    | nick w hw hl => exact sendLine_connected ((hc hl w hw).same hs) _
    | chat w hw hl => exact forward_connected ((hc hl w hw).same hs) _
    | direct w hw hl => exact forward_connected ((hc hl w hw).same hs) _

theorem fault_leave (s : GatewayServer) (w : WsId) : (s.leave w).fault = s.fault := by
  rw [leave_eq]

theorem fault_close (s : GatewayServer) : s.close.fault = s.fault := by
  rw [close_eq]

/-- A change raises nothing but a `TypeError`. -/
theorem Change.fault_eq (h : Change s e t) :
    t.fault = s.fault ∨ t.fault = s.fault.or (some .typeError) := by
  cases h with
  | raised => exact .inr rfl
  | wsClose => exact .inl (fault_leave ..)
  | backendClose _ f => cases f <;> exact .inl rfl
  | shutdown => exact .inl (fault_close s)
  | _ => exact .inl rfl

theorem Connected.modifySession (h : Connected s w) {x : WsId} {f : Session → Session}
    (hf : (f (s.sessions x)).backend = (s.sessions x).backend) :
    Connected (s.modifySession x f) w := by
  obtain ⟨b, hb, hc⟩ := h
  refine ⟨b, ?_, hc⟩
  by_cases hx : w = x
  · subst hx
    rw [sessions_modifySession_self, hf]
    exact hb
  · rw [sessions_modifySession_of_ne s hx]
    exact hb

theorem Connected.closeWs (h : Connected s w) (x : WsId) : Connected (s.closeWs x) w :=
  h.modifySession (by split <;> rfl)

/-- A connection over which a frame arrives is the one of its owner, and open. -/
theorem Wired.connected_owner (h : Wired s) {b : BackendId} (hb : (s.backends b).socket = .opened) :
    Connected s (s.backends b).owner := by
  refine ⟨b, h.backend_owner (by rw [hb]; exact nofun), ?_⟩
  cases hc : (s.backends b).closed with
  | false => rfl
  | true =>
    have he := h.flag b hc
    rw [hb] at he
    cases he

/-- A session that forwards a message has an open connection, if the condition is met. -/
theorem SendsOpen.connected {n : ℕ} {v : Option Json} (h : SendsOpen s (.message w n v))
    (hw : Wired s) (hf : s.Forwards (.message w n v)) : Connected s w := by
  obtain ⟨m, hm, hfm⟩ := hf
  have hc : s.backendClosed w = false := h.2 w (by simp [forwarder, hm, hfm])
  have ha : (s.sessions w).authenticated = true := by
    unfold handled? at hm
    split at hm
    · cases hm
    split at hm
    · obtain ⟨hr, -⟩ := Option.ite_none_right_eq_some.mp hm
      simp only [Bool.and_eq_true] at hr
      exact hr.1
    · cases hm
  obtain ⟨b, hb⟩ := Option.isSome_iff_exists.mp ((hw.authenticated w).symm.trans ha)
  refine ⟨b, hb, ?_⟩
  rwa [backendClosed, hb] at hc

/-- Whoever an event gives lines for has an open connection after its change. -/
theorem SendsOpen.connected_change (h : SendsOpen s e) (hw : Wired s) (hc : Change s e t)
    (hf : s.Forwards e) : ∀ x, s.Acts e x → Connected t x := by
  cases hc with
  | message => rintro x rfl; exact h.connected hw hf
  | raised => rintro x rfl; exact h.connected hw hf
  | suspend => rintro x rfl; exact h.connected hw hf
  | logout => rintro x rfl; exact (h.connected hw hf).closeWs _
  | frame hb => rintro x rfl; exact hw.connected_owner hb
  | nickTaken hb => rintro x rfl; exact (hw.connected_owner hb).closeWs _
  | welcome hb => rintro x rfl; exact (hw.connected_owner hb).modifySession rfl
  | welcomeReady hb => rintro x rfl; exact (hw.connected_owner hb).modifySession rfl
  | nickReady hb => rintro x rfl; exact (hw.connected_owner hb).modifySession rfl
  | @rename b _ _ newNick hb =>
    rintro x rfl
    exact (hw.connected_owner hb).modifySession (f := fun session => session.rename newNick) rfl
  | _ => exact hf.elim

theorem SendsOpen.step (h : SendsOpen s e) (hw : Wired s) (hs : s.step e = some s') :
    s'.fault = none ∨ s'.fault = some .typeError := by
  have h0 : s.fault = none := by
    unfold GatewayServer.step at hs
    split at hs
    · cases hs
    · rename_i hf
      simpa using hf
  obtain ⟨t, hc, hq⟩ := step_change hs
  rw [hq.fault_eq fun hf => h.connected_change hw hc hf]
  rcases hc.fault_eq with ht | ht
  · exact .inl (ht.trans h0)
  · exact .inr (by rw [ht, h0]; rfl)

/-- **No line for a connection that has been closed**: in every run in which sessions join
once and no message is forwarded after the backend connection of its session has been
closed, no line is ever given to a connection that is not open. -/
theorem never_sends_to_closed {env : Env} {config : GatewayConfig}
    (h : RunIn step SendsOpen (init env config) s) :
    s.fault ≠ some .notOpen ∧ s.fault ≠ some .noBackend := by
  have hI := h.invariant (I := fun s => Wired s ∧ (s.fault = none ∨ s.fault = some .typeError))
    ⟨wired_init env config, .inl rfl⟩ fun s e s' ⟨hw, _⟩ hc hs => ⟨hw.step hc.1 hs, hc.step hw hs⟩
  rcases hI.2 with hf | hf
  · rw [hf]; exact ⟨nofun, nofun⟩
  · rw [hf]; exact ⟨nofun, nofun⟩

/-- A public message. -/
def publicMessage (text : String) : Json :=
  .obj [(units "type", .str (units "sendMessage")),
    (units "target", .obj [(units "kind", .str (units "public"))]),
    (units "text", .str (units text))]

/-- A session becomes ready. -/
def becomesReady : List Event :=
  oneRegister ++ [.connected 0, .backendFrame 0 (bytes "WELCOME alice")]

set_option maxRecDepth 8000 in
theorem sends_while_open :
    ∃ s, RunIn step SendsOpen (init .sample {}) s ∧ s.outbox 0 = [⟨units "hi", some 0⟩] ∧
      s.fault ≠ some .notOpen := by
  have h : (execAllIn step SendsOpen (init .sample {})
      (becomesReady ++ [.message 0 70 (some (publicMessage "hi"))])).map (fun s => s.outbox 0) =
      some [⟨units "hi", some 0⟩] := by decide
  obtain ⟨s, hs, ho⟩ := exists_runIn_of_execAllIn h
  exact ⟨s, hs, ho, (never_sends_to_closed hs).1⟩

set_option maxRecDepth 8000 in
/-- **A message that comes after the chat server has gone takes the gateway down**: the
WebSocket is closing, but its messages are still handled. -/
theorem sends_after_close :
    ∃ s, Run step (init .sample {}) s ∧ (s.sessions 0).ws = .closing ∧ s.fault = some .notOpen := by
  have h : (execAll step (init .sample {})
      (becomesReady ++ [.backendClose 0, .message 0 70 (some (publicMessage "hi"))])).map (fun s =>
        ((s.sessions 0).ws, s.fault)) = some (.closing, some .notOpen) := by decide
  obtain ⟨s, hs, he⟩ := exists_run_of_execAll h
  simp only [Prod.mk.injEq] at he
  exact ⟨s, hs, he⟩

end GatewayServer

end ThreadLink.Gateway
