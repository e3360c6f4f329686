import ThreadLink.Gateway.Accounts
import ThreadLink.Gateway.Becoming
import ThreadLink.Gateway.Closing

/-!
# One attempt at a time

A WebSocket that waits for one password hash at a time, and is not closed meanwhile, joins
once. If no `connect` fails besides, a session that is authenticated and has not been closed
is in the roster under its id, and stays there. The chat server welcomes a connection once,
before it says anything else of it; so a session that is ready has been welcomed.

## What is proved

* `Standing.step` — what holds of the sessions in these runs.
-/

namespace ThreadLink.Gateway

open Text Runs

namespace GatewayServer

variable {past : List (GatewayServer × Event)} {s s' t : GatewayServer} {e : Event} {w x : WsId}

/-! ### The conditions -/

/-- Whether a WebSocket closes for which an attempt waits, or a `connect` fails. -/
def interrupts (s : GatewayServer) : Event → Bool
  | .wsClose w => s.hashing.any fun a => a.1 == w
  | .connectFailed _ => true
  | _ => false

/-- **The condition on the clients**: no WebSocket has two attempts that wait, or closes
while one does, and no `connect` fails. -/
def OneAttempt (s : GatewayServer) (e : Event) : Prop :=
  (s.hashing.map Prod.fst).Nodup ∧ s.interrupts e = false

instance (s : GatewayServer) (e : Event) : Decidable (OneAttempt s e) :=
  inferInstanceAs (Decidable (_ ∧ _))

/-- Whether a session is told things in order: it is welcomed once, and no `NICK` is its own
before that. -/
def expects (s : GatewayServer) (w : WsId) : BackendEvent → Bool
  | .welcome _ => !(s.sessions w).welcomed
  | .nick oldNick _ => oldNick != (s.sessions w).nickname || (s.sessions w).welcomed
  | _ => true

/-- **The condition on the chat server**: it tells sessions things in order. -/
def InOrder (s : GatewayServer) : Event → Prop
  | .backendFrame b p => s.expects (s.backends b).owner (parseBackendLine (utf8Decode p)) = true
  | _ => True

instance (s : GatewayServer) (e : Event) : Decidable (InOrder s e) :=
  match e with
  | .backendFrame _ _ => inferInstanceAs (Decidable (_ = true))
  | .connection | .message _ _ _ | .wsClosing _ | .wsClose _ | .authDone _ | .connected _
  | .connectFailed _
  | .backendOversized _ | .backendClose _ | .shutdown => isTrue trivial

/-! ### What holds of the sessions -/

/-- The sessions stand in the roster as they should. -/
structure Standing (past : List (GatewayServer × Event)) (s : GatewayServer) : Prop where
  /-- Closed sessions have left. -/
  tidy : Tidy s
  /-- A session is found until it has been closed or its `connect` has failed. -/
  found : Found past s
  /-- None has. -/
  connects : ∀ a ∈ past, a.1.connectFails a.2 = none
  /-- A session with an attempt that waits has neither joined nor been closed. -/
  waiting : ∀ a ∈ s.hashing, (s.sessions a.1).authenticated = false ∧
    (s.sessions a.1).closed = false
  /-- Only a session that has joined is welcomed. -/
  welcomed : ∀ w, (s.sessions w).welcomed = true → (s.sessions w).authenticated = true
  /-- Only a session that has been welcomed is ready. -/
  ready : ∀ w, (s.sessions w).readyAnnounced = true → (s.sessions w).welcomed = true

theorem standing_init (env : Env) (config : GatewayConfig) : Standing [] (init env config) where
  tidy := tidy_init env config
  found := found_init env config
  connects _ h := absurd h List.not_mem_nil
  waiting _ h := absurd h List.not_mem_nil
  welcomed _ h := by simp [init] at h
  ready _ h := by simp [init] at h

/-- A session that has joined and has not been closed is found under its id. -/
theorem Standing.listed (h : Standing past s) (ha : (s.sessions w).authenticated = true)
    (hc : (s.sessions w).closed = false) : s.roster.find? (s.sessions w).id = some w := by
  apply h.found.kept w ha hc
  rintro ⟨a, hp, hf⟩
  rw [h.connects a hp] at hf
  cases hf

/-- Nobody joins twice, or after the close event. -/
theorem Standing.joinsOpen (h : Standing past s) (e : Event) : JoinsOpen s e := by
  intro w hw
  unfold joins at hw
  split at hw
  · rename_i i
    split at hw
    · cases hw
    · rename_i w' a hi
      have hwait := h.waiting _ (List.mem_of_getElem? hi)
      split at hw
      · cases hw
      · split at hw
        · cases hw
        · obtain rfl : w' = w := Option.some.inj hw
          exact hwait
  · cases hw

/-- Nobody joins under an account of which a session is still there. -/
theorem Standing.joinsAlone (h : Standing past s) (e : Event) : JoinsAlone s e := by
  intro j hj x _ _ ha hid hl
  have hx : (s.sessions x).closed = false := by
    rcases hl with hc | ⟨b, -, rfl, hb⟩
    · exact hc
    · exact h.tidy.owner_open (by rw [hb]; exact nofun) (by rw [hb]; exact nofun)
  unfold joinsAs at hj
  split at hj
  · split at hj
    · cases hj
    · split at hj
      · cases hj
      · rename_i account _ _
        split at hj
        · cases hj
        · rename_i hc
          obtain rfl := Option.some.inj hj
          apply hc
          unfold connectedElsewhere
          rw [show account.id = (s.sessions x).id from hid.symm, h.listed ha hx]
          simp [hx]
  · cases hj

/-- An attempt that is removed leaves none of its session, if there was one. -/
theorem ne_of_mem_eraseIdx {l : List (WsId × Attempt)} (hn : (l.map Prod.fst).Nodup) {i : ℕ}
    {a : Attempt} {b : WsId × Attempt} (hi : l[i]? = some (w, a)) (hb : b ∈ l.eraseIdx i) :
    b.1 ≠ w := by
  obtain ⟨j, hj, hb⟩ := List.mem_eraseIdx_iff_getElem?.mp hb
  intro he
  have hlt : j < (l.map Prod.fst).length := by
    rw [List.length_map]
    exact (List.getElem?_eq_some_iff.mp hb).1
  refine hj ((List.getElem?_inj hlt hn).mp ?_)
  rw [List.getElem?_map, List.getElem?_map, hb, hi]
  exact congrArg some he

theorem hashing_of_authDone {i : ℕ} (h : Change s (.authDone i) t) :
    t.hashing = s.hashing.eraseIdx i := by
  cases h <;> rfl

/-- The owner of an open connection has joined. -/
theorem Standing.owner (h : Standing past s) {b : BackendId}
    (hb : (s.backends b).socket = .opened) :
    (s.sessions (s.backends b).owner).authenticated = true :=
  h.found.joined.owner_of_opened hb

/-- An attempt still waits only if its session has not joined in this step. -/
theorem Standing.waiting_change (h : Standing past s) (ho : OneAttempt s e) (hc : Change s e t) :
    ∀ a ∈ t.hashing, (t.sessions a.1).authenticated = false ∧ (t.sessions a.1).closed = false := by
  intro a ha
  have hb := hc.becomes a.1
  revert hb
  generalize t.sessions a.1 = z
  intro hb
  rcases hc.hashing a ha with hs | ⟨n, v, rfl, -, hl, hauth⟩
  · obtain ⟨h1, h2⟩ := h.waiting a hs
    cases hb with
    | stays => exact ⟨h1, h2⟩
    | closing => exact ⟨h1, h2⟩
    | arrives => exact ⟨rfl, rfl⟩
    | closed =>
      have hn := ho.2
      rw [interrupts, List.any_eq_false] at hn
      exact absurd BEq.rfl (hn a hs)
    | joins hi =>
      rw [hashing_of_authDone hc] at ha
      exact absurd rfl (ne_of_mem_eraseIdx ho.1 hi ha)
    | welcome hb how => rw [← how, h.owner hb] at h1; cases h1
    | welcomeReady hb how => rw [← how, h.owner hb] at h1; cases h1
    | nickReady hb how => rw [← how, h.owner hb] at h1; cases h1
    | rename hb how => rw [← how, h.owner hb] at h1; cases h1
  · have hopen := h.tidy.live_open hl
    cases hb with
    | stays => exact ⟨hauth, hopen⟩
    | closing => exact ⟨hauth, hopen⟩

theorem Standing.step (h : Standing past s) (ho : OneAttempt s e) (hi : InOrder s e)
    (hs : s.step e = some s') : Standing (past ++ [(s, e)]) s' := by
  obtain ⟨t, hc, hd⟩ := step_deeds hs
  refine ⟨h.tidy.step (h.joinsOpen e) hs, h.found.step (h.joinsAlone e) hs, ?_, ?_, ?_, ?_⟩
  · intro a ha
    rcases List.mem_append.mp ha with ha | ha
    · exact h.connects a ha
    · rw [List.mem_singleton.mp ha]
      cases e with
      | connectFailed => cases ho.2
      | _ => rfl
  · intro a ha
    obtain ⟨p, q, hx⟩ := hd.same.sessions a.1
    rw [hx]
    exact h.waiting_change ho hc a (hd.same.hashing ▸ ha)
  · intro w hw
    obtain ⟨z, p, q, hb, hz⟩ := step_becomes hs w
    rw [hz] at hw ⊢
    cases hb with
    | stays => exact h.welcomed w hw
    | closing => exact h.welcomed w hw
    | arrives => cases hw
    | closed => exact h.welcomed w hw
    | joins => rfl
    | welcome hb how => exact how ▸ h.owner hb
    | welcomeReady hb how => exact how ▸ h.owner hb
    | nickReady hb how => exact how ▸ h.owner hb
    | rename hb how => exact how ▸ h.owner hb
  · intro w hw
    obtain ⟨z, p, q, hb, hz⟩ := step_becomes hs w
    rw [hz] at hw ⊢
    cases hb with
    | stays => exact h.ready w hw
    | closing => exact h.ready w hw
    | arrives => cases hw
    | closed => exact h.ready w hw
    | joins => exact h.ready w hw
    | welcome => rfl
    | welcomeReady => rfl
    | @nickReady b _ _ _ how he =>
      -- the chat server says so only of a connection that it has welcomed
      subst how
      have hwelcomed : (s.sessions (s.backends b).owner).welcomed = true := by
        simpa [InOrder, expects, he] using hi
      exact hwelcomed
    | rename _ _ _ hr => exact h.ready w hr

end GatewayServer

end ThreadLink.Gateway
