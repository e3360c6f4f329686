import ThreadLink.Gateway.Usernames
import ThreadLink.System.Texts

/-!
# Nicknames and usernames in the network

What `Agrees` asks of the chat server it has: nobody is told of a name that is not valid, and
sessions are told things in order. That a nickname is free of other accounts it cannot see to,
for it knows only who is connected.

## What is proved

* `validateUsername_name` — every nickname would do as a username.
* `nickname_is_username` — in the runs in which every step keeps names, a session that is ready
  goes by the username of its account, and no other account has it.
* `nickname_of_offline_account` — in others one may use the username of an account that is not
  connected, even if nobody is renamed before all of the last rename has been told.
-/

namespace ThreadLink.System

open Text Runs Backend Gateway

/-- A byte of a nickname is a character of a username. -/
theorem isUsernameUnit_toUInt16 {b : UInt8} (h : isNicknameByte b = true) :
    isUsernameUnit b.toUInt16 = true := by
  simp only [isNicknameByte, isalnum, Bool.or_eq_true, Bool.and_eq_true, decide_eq_true_eq,
    beq_iff_eq] at h
  simp only [isUsernameUnit, UInt8.toNat_toUInt16, Bool.or_eq_true, Bool.and_eq_true,
    decide_eq_true_eq, beq_iff_eq]
  rcases h with (((h | h) | h) | rfl) | rfl
  · exact .inl (.inl (.inr h))
  · exact .inl (.inl (.inl (.inl h)))
  · exact .inl (.inl (.inl (.inr h)))
  · exact .inl (.inr rfl)
  · exact .inr rfl

/-- **A nickname would do as a username.** -/
theorem validateUsername_name {n : Bytes} (h : isValidNickname n = true) :
    validateUsername (name n) = none := by
  obtain ⟨hne, hlen, hb⟩ := isValidNickname_iff.mp h
  have hn : name n = n.map UInt8.toUInt16 := utf8Decode_word (isWord_of_valid h)
  have hpos : 1 ≤ n.length := List.length_pos_iff.mpr hne
  have hall : (n.map UInt8.toUInt16).all isUsernameUnit = true := by
    rw [List.all_map, List.all_eq_true]
    exact fun b hmem => isUsernameUnit_toUInt16 (hb b hmem)
  rw [validateUsername, hn, List.length_map, if_pos ⟨hpos, hlen, hall⟩]

namespace Network

variable {s s' t : Network} {a : Action} {b : BackendId} {w : WsId}

/-- The sessions agree with their accounts, and what that rests on. -/
structure Agreeing (s : Network) : Prop where
  /-- Both machines. -/
  sound : Sound s
  /-- What sessions go by. -/
  follows : Follows s
  /-- Who is ready has been welcomed. -/
  greeted : Greeted s
  /-- The sessions have accounts. -/
  known : s.gateway.Known
  /-- With their names. -/
  agrees : s.gateway.Agrees

theorem agreeing_init (env : Env) (gateway : GatewayConfig) (server : LoadedConfig) :
    Agreeing (init env gateway server) :=
  ⟨sound_init .., follows_init .., greeted_init .., GatewayServer.known_init ..,
    GatewayServer.agrees_init ..⟩

/-- Nobody is renamed to what could not be a username. -/
theorem Sound.newNick_valid (hS : Sound s) {p : Bytes} {oldNick newNick : Units}
    (he : .backendFrame b p ∈ s.event? a)
    (hp : parseBackendLine (utf8Decode p) = .nick oldNick newNick) :
    validateUsername newNick = none := by
  obtain ⟨f, hf, rfl⟩ := nextFrame_of_event he
  have hn := hS.event_names hf
  rw [hp] at hn
  obtain ⟨-, n, hv, rfl⟩ := hn
  exact validateUsername_name hv

theorem Agreeing.step (h : Agreeing s) (hC : OfGateway GatewayServer.KeepsNames s a)
    (hs : s.step a = some s') : Agreeing s' := by
  have hfollows := h.follows.step h.sound (fun e he => (hC e he).1) hs
  have hgreeted := h.greeted.step h.sound hs
  rcases (step_moves hs).gateway_step with he | ⟨e, he, hg⟩
  · exact ⟨h.sound.step hs, hfollows, hgreeted, he ▸ h.known, he ▸ h.agrees⟩
  · refine ⟨h.sound.step hs, hfollows, hgreeted, h.known.step hg, ?_⟩
    refine h.agrees.step h.known
      (fun w hr => ⟨h.greeted.authenticated w hr, h.greeted.welcomed w hr⟩) (hC e he)
      (h.follows.inOrder h.sound e he) ?_ hg
    rintro b p rfl oldNick newNick hp
    exact h.sound.newNick_valid he hp

/-- **A session that is ready goes by the username of its account**, and no other account has it:
in every run in which nobody joins twice, or under an account that another session uses, or with a
username the account no longer has, and in which a nickname a session takes for its own is the
username of no other account or, before the session is ready, the one it claims. -/
theorem nickname_is_username {env : Env} {gateway : GatewayConfig} {server : LoadedConfig}
    (h : RunIn step (OfGateway GatewayServer.KeepsNames) (init env gateway server) s)
    (hr : (s.gateway.sessions w).readyAnnounced = true)
    (hc : (s.gateway.sessions w).closed = false) :
    s.gateway.store.users.usernameOf (s.gateway.sessions w).id = some
      (s.gateway.sessions w).nickname ∧
      ∀ id, s.gateway.store.users.usernameOf id = some (s.gateway.sessions w).nickname →
        id = (s.gateway.sessions w).id := by
  have hA : Agreeing s := h.invariant (agreeing_init ..) fun _ _ _ hA hC hs => hA.step hC hs
  have hn := hA.agrees.nickname hr hc
  exact ⟨hn, fun id hid => Users.id_unique hid hn⟩

set_option maxRecDepth 16000 in
theorem first_has_new_username : ∃ s, Run step (init .sample {} .default) s ∧
    s.gateway.store.users.usernameOf [3] = some (units "carol") := by
  obtain ⟨s, hs, hid, hr, hc, hn⟩ :=
    exists_runIn_of_any step (OfGateway GatewayServer.KeepsNames) (init .sample {} .default)
    renamed (fun s => (s.gateway.sessions 0).id = [3] ∧
      (s.gateway.sessions 0).readyAnnounced = true ∧
      (s.gateway.sessions 0).closed = false ∧ (s.gateway.sessions 0).nickname = units "carol")
      (by decide)
  have hu := (nickname_is_username hs hr hc).1
  rw [hid, hn] at hu
  exact ⟨s, hs.run, hu⟩

/-! ### Accounts that are not connected -/

/-- A line asks for a nickname. -/
def asksForNick (line : Line) : Bool := line.text.take 6 == units "/nick "

/-- A frame tells of a rename. -/
def tellsOfNick (f : Frame) : Bool :=
  match f.line with
  | .nick _ _ => true
  | _ => false

/-- Whether a rename is under way: a line that asks for one has yet to arrive, the chat server is
about to handle a line, or a `NICK` has yet to be read. -/
def UnderWay (s : Network) : Prop :=
  ∃ b < s.gateway.nextBackend,
  (∃ line ∈ (s.gateway.outbox b).drop (s.transmitted b), asksForNick line = true) ∨
    (∃ f ∈ (s.frames b).drop (s.read b), tellsOfNick f = true) ∨
    ∃ c ∈ s.conn b, s.server.inbox c ≠ [] ∨ s.server.todo (.handler c) ≠ []

instance (s : Network) : Decidable (UnderWay s) := inferInstanceAs (Decidable (∃ b < _, _))

/-- A rename is issued. -/
def Issues (s s' : Network) : Prop :=
  ∃ b < s'.gateway.nextBackend, ∃ line ∈ (s'.gateway.outbox b).drop (s.gateway.outbox b).length,
    asksForNick line = true

instance (s s' : Network) : Decidable (Issues s s') := inferInstanceAs (Decidable (∃ b < _, _))

/-- Every rename is handled before the next one is issued. -/
def OneByOne (s : Network) (a : Action) : Prop := ∀ s' ∈ s.step a, Issues s s' → ¬UnderWay s

instance (s : Network) (a : Action) : Decidable (OneByOne s a) :=
  inferInstanceAs (Decidable (∀ s' ∈ s.step a, _))

/-- Of two sessions the second leaves, and the first takes its nickname. -/
def takesOver : List Action :=
  twoReady ++ [.gateway (.wsClose 1), .server (.recvEnd 1)] ++ runs (.handler 1) 5 ++
  asksFor 0 "bob" ++
    runs (.handler 0) 2 ++ [.deliver 0, .deliver 0]

set_option maxRecDepth 16000 in
/-- **The username of an account that is not connected is free to take**: the account of the first
keeps its own, and there it stays. -/
theorem nickname_of_offline_account : ¬ ∀ s, RunIn step OneByOne (init .sample {} .default) s →
    ∀ w, (s.gateway.sessions w).readyAnnounced = true → (s.gateway.sessions w).closed = false →
      s.gateway.store.users.usernameOf (s.gateway.sessions w).id = some
        (s.gateway.sessions w).nickname ∧
        ∀ id, s.gateway.store.users.usernameOf id = some (s.gateway.sessions w).nickname →
          id = (s.gateway.sessions w).id := by
  intro hall
  obtain ⟨s, hs, hid, hr, hc, hn, hu⟩ :=
    exists_runIn_of_any step OneByOne (init .sample {} .default) takesOver
    (fun s => (s.gateway.sessions 0).id = [3] ∧ (s.gateway.sessions 0).readyAnnounced = true ∧
      (s.gateway.sessions 0).closed = false ∧ (s.gateway.sessions 0).nickname = units "bob" ∧
      s.gateway.store.users.usernameOf [6] = some (units "bob")) (by decide)
  have hname := (hall s hs 0 hr hc).2 [6]
  rw [hid, hn] at hname
  exact absurd (hname hu) (by decide)

end Network

end ThreadLink.System
