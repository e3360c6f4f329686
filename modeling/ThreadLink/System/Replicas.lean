import ThreadLink.Gateway.Replicas
import ThreadLink.System.Names

/-!
# What every browser shows

`Gateway.Replicas` says what the users map of a browser shows if the chat server tells each
session things in order. It does (`Follows.inOrder`).

## What is proved

* `users_eq_welcomedUsers` — whenever all welcomed sessions are ready, the events sent to any
  ready session give a browser the users map that the roster says.
-/

namespace ThreadLink.System

open Text Runs Backend Gateway Frontend
open GatewayServer (OneAttempt InOrder Standing)

namespace Network

variable {s s' : Network} {a : Action} {w : WsId}

/-- What holds in every run in which each WebSocket has one attempt at a time. -/
structure Serves (s : Network) : Prop where
  /-- Both machines. -/
  sound : Sound s
  /-- What sessions go by. -/
  follows : Follows s
  /-- The sessions. -/
  standing : ∃ past, Standing past s.gateway

theorem serves_init (env : Env) (gateway : GatewayConfig) (server : LoadedConfig) :
    Serves (init env gateway server) :=
  ⟨sound_init .., follows_init .., [], GatewayServer.standing_init ..⟩

theorem Serves.step (h : Serves s) (ho : OfGateway OneAttempt s a) (hs : s.step a = some s') :
    Serves s' := by
  obtain ⟨past, hstand⟩ := h.standing
  refine ⟨h.sound.step hs, h.follows.step h.sound (fun e _ => (hstand.joinsOpen e).once) hs, ?_⟩
  rcases (step_moves hs).gateway_step with he | ⟨e, he, hg⟩
  · rw [he]
    exact ⟨past, hstand⟩
  · exact ⟨_, hstand.step (ho e he) (h.follows.inOrder h.sound e he) hg⟩

/-- The gateway's part of such a run is one in which the chat server tells things in order. -/
theorem gateway_inOrder {env : Env} {gateway : GatewayConfig} {server : LoadedConfig}
    (h : RunIn step (OfGateway OneAttempt) (init env gateway server) s) :
    RunIn GatewayServer.step (fun g e => OneAttempt g e ∧ InOrder g e)
    (.init env gateway) s.gateway := by
  refine gateway_of_run (s := init env gateway server)
    (h.strengthen (I := Serves) (serves_init ..) ?_ ?_)
  · exact fun _ _ _ hk ho hs => hk.step ho hs
  · exact fun _ _ hk ho e he => ⟨ho e he, hk.follows.inOrder hk.sound e he⟩

/-- **Every browser shows who is there**: in a run in which each WebSocket has at most one
attempt at a time and does not close during it, and no `connect` fails, whenever every
welcomed session is ready, what has been sent to a session that is ready and whose WebSocket
is open makes the users map the one of `welcomedUsers`. -/
theorem users_eq_welcomedUsers {env : Env} {gateway : GatewayConfig} {server : LoadedConfig}
    (h : RunIn step (OfGateway OneAttempt) (init env gateway server) s)
    (hall : ∀ w ∈ s.gateway.welcomedSessions, (s.gateway.sessions w).readyAnnounced = true)
    (hr : (s.gateway.sessions w).readyAnnounced = true) (ho : (s.gateway.sessions w).ws = .opened)
    {c c' : ChatState} (hc : Replays c ((s.gateway.sent w).map (·.message)) c') :
    c'.users.entries.Perm (s.gateway.welcomedUsers.map fun u => (u.id, userFromSummary u)) := by
  obtain ⟨past, hp⟩ := (gateway_inOrder h).exists_path
  obtain ⟨hs, hm⟩ := GatewayServer.mirrors_of_path (fun _ _ => id) hp c.users
  rw [users_of_replays hc]
  exact hs.placed.entries_perm (fun id => hm id w hr ho) hall

set_option maxRecDepth 8000 in
/-- Two sessions are ready, and the first shows both. -/
theorem users_of_two : ∃ s c', RunIn step (OfGateway OneAttempt) (init .sample {} .default) s ∧
    Replays (createInitialState []) ((s.gateway.sent 0).map (·.message)) c' ∧
    c'.users.entries.Perm
      [([3], ⟨[3], units "alice", .online⟩), ([6], ⟨[6], units "bob", .online⟩)] := by
  have h : (execAllIn step (OfGateway OneAttempt) (init .sample {} .default) twoReady).map (fun s =>
      (s.gateway.welcomedSessions, (s.gateway.sessions 0).readyAnnounced,
        (s.gateway.sessions 1).readyAnnounced,
        (s.gateway.sessions 0).ws, s.gateway.welcomedUsers)) =
      some ([0, 1], true, true, .opened,
        [⟨[3], units "alice", .online⟩, ⟨[6], units "bob", .online⟩]) := by decide
  obtain ⟨s, hs, he⟩ := exists_runIn_of_execAllIn h
  simp only [Prod.mk.injEq] at he
  obtain ⟨hw, h0, h1, ho, hu⟩ := he
  obtain ⟨c', hc⟩ := exists_replays (createInitialState []) ((s.gateway.sent 0).map (·.message))
  refine ⟨s, c', hs, hc, ?_⟩
  have hp := users_eq_welcomedUsers hs (fun w hm => ?_) h0 ho hc
  · rw [hu] at hp
    exact hp
  · rw [hw] at hm
    simp only [List.mem_cons, List.not_mem_nil, or_false] at hm
    rcases hm with rfl | rfl
    · exact h0
    · exact h1

end Network

end ThreadLink.System
