import ThreadLink.System.Attribution

/-!
# Whom a direct message reaches

The gateway addresses the peer of a direct message by the nickname its session goes by, and the
chat server looks that nickname up when it handles the line.

## What is proved

* `priv_written_to_peer` — if whenever a direct message is routed nobody but its peer uses the
  nickname it is addressed to, and no descriptor number is given out again while a private
  message is on its way to it, every direct message is written to the backend connection of its
  peer only.
* `priv_written_to_third` — without that two renames take it to somebody else.
-/

namespace ThreadLink.System

open Text Runs Backend Gateway

namespace Network

variable {s s' t : Network} {a : Action} {b : BackendId} {c k : ConnId} {f : Frame} {n : ℕ}
  {p : WsId}

/-- A connection of the chat server is that of a session. -/
def IsOf (s : Network) (k : ConnId) (p : WsId) : Prop :=
  ∃ b < s.gateway.nextBackend, s.conn b = some k ∧ (s.gateway.backends b).owner = p

instance (s : Network) (k : ConnId) (p : WsId) : Decidable (s.IsOf k p) :=
  inferInstanceAs (Decidable (∃ b < _, _))

/-- Every welcomed client that uses a nickname, but for the one on `fd`, is the connection of a
session. -/
def Reaches (s : Network) (fd : Fd) (target : Bytes) (p : WsId) : Prop :=
  ∀ e ∈ s.server.clients.entries, e.2.welcomed = true → e.2.nickname = target → e.1 ≠ fd →
    ∃ k ∈ s.server.fds e.1, s.IsOf k p

instance (s : Network) (fd : Fd) (target : Bytes) (p : WsId) : Decidable (s.Reaches fd target p) :=
  inferInstanceAs (Decidable (∀ e ∈ _, _ → _ → _ → _))

/-- The peer of a request. -/
def peerOf (s : Network) (serial : Option ℕ) : Option WsId :=
  serial.bind fun n => s.gateway.requests[n]?.bind (·.peer)

/-- If a block routes a direct message, nobody but its peer uses the nickname it is addressed to. -/
def RoutesOp (s : Network) : Op → Prop
  | .handleMsg fd target _ serial => ∀ p ∈ s.peerOf serial, s.Reaches fd target p
  | _ => True

instance (s : Network) (op : Op) : Decidable (s.RoutesOp op) :=
  match op with
  | .handleMsg fd target _ serial =>
    inferInstanceAs (Decidable (∀ p ∈ s.peerOf serial, s.Reaches fd target p))
  | .accept | .register _ _ | .markWelcomed _ | .startThread _ _ | .sendToFd _ _ | .sendFrame _ _
  | .broadcast _ _ _ _
  | .handleChat _ _ _ | .handleNick _ _ | .handleList _ | .eraseClient _ | .closeFd _ | .endThread
  | .reap _
  | .joinEntry _ | .collectFds | .shutdownFd _ | .collectThreads | .joinThread _ | .closeListener =>
    isTrue trivial

/-- A step of the chat server that runs such a block. -/
def RoutesAction (s : Network) : Server.Action → Prop
  | .run t _ => ∀ op ∈ (s.server.todo t).head?, s.RoutesOp op
  | _ => True

instance (s : Network) (a : Server.Action) : Decidable (s.RoutesAction a) :=
  match a with
  | .run t _ => inferInstanceAs (Decidable (∀ op ∈ (s.server.todo t).head?, s.RoutesOp op))
  | .iterate _ | .leaveLoop | .requestShutdown | .recv _ | .recvEnd _ | .arrive _ _ | .rehash _ =>
    isTrue trivial

/-- Whenever a direct message is routed, nobody but its peer uses the nickname it is addressed to.
-/
def Routes (s : Network) (a : Action) : Prop := ∀ a' ∈ s.action? a, s.RoutesAction a'

instance (s : Network) (a : Action) : Decidable (s.Routes a) :=
  inferInstanceAs (Decidable (∀ a' ∈ s.action? a, _))

/-! ### One block -/

/-- A private message is meant for the peer of its request. -/
def Directed (s : Network) (f : Frame) : Prop :=
  f.IsPriv → (∀ n ∈ f.serial, n < s.gateway.requests.length) ∧
    ∀ p ∈ s.peerOf f.serial, ∃ sender k, f.cause = .priv sender (some k) ∧ s.IsOf k p

theorem IsOf.step (h : s.IsOf k p) (hs : s.step a = some s') : s'.IsOf k p := by
  obtain ⟨b, hb, hc, ho⟩ := h
  refine ⟨b, created_step hs hb, conn_step hs hc, ?_⟩
  rcases (step_moves hs).gateway_step with he | ⟨e, -, hg⟩
  · rw [he, ho]
  · rw [(GatewayServer.owner_step hg hb).2, ho]

theorem Directed.step (h : s.Directed f) (hs : s.step a = some s') : s'.Directed f := by
  intro hp
  obtain ⟨hlt, hd⟩ := h hp
  obtain ⟨new, hnew⟩ := requests_step hs
  refine ⟨?_, ?_⟩
  · intro n hn
    rw [← hnew, List.length_append]
    exact Nat.lt_add_right _ (hlt n hn)
  · intro p hpeer
    have hold : p ∈ s.peerOf f.serial := by
      cases hn : f.serial with
      | none => rw [hn] at hpeer; cases hpeer
      | some n =>
        have hsame : s'.gateway.requests[n]? = s.gateway.requests[n]? := by
          rw [← hnew, List.getElem?_append_left (hlt n hn)]
        rw [hn] at hpeer
        simpa only [peerOf, Option.bind_some, hsame] using hpeer
    obtain ⟨sender, k, hc, hk⟩ := hd p hold
    exact ⟨sender, k, hc, hk.step hs⟩

/-- A request that has been received has been made. -/
theorem HasSent.lt_length {g : ClientFrame} (hT : Traced s) (h : s.HasSent c g)
    (hn : g.serial = some n) : n < s.gateway.requests.length := by
  cases h with
  | foreign _ _ hs => rw [hs] at hn; cases hn
  | @line b line _ hl =>
    obtain ⟨-, hf⟩ := hT.lines.lines b line hl
    cases hf with
    | nick => cases hn
    | request hr =>
      obtain rfl := Option.some.inj hn
      exact (List.getElem?_eq_some_iff.mp hr).1

/-! ### All frames -/

/-- **Every private message is meant for the peer of its request.** -/
structure Directs (s : Network) : Prop where
  /-- To be delivered. -/
  todo : ∀ t, ∀ op ∈ s.server.todo t, ∀ fd f, op.delivery = some (fd, f) → s.Directed f
  /-- Written. -/
  written : ∀ k, ∀ f ∈ s.server.written k, s.Directed f

theorem directs_init (env : Env) (gateway : GatewayConfig) (server : LoadedConfig) :
    Directs (init env gateway server) :=
  ⟨fun _ _ h => absurd h List.not_mem_nil, fun _ _ h => absurd h List.not_mem_nil⟩

/-- **One block**: it makes private messages for the peers of their requests only. -/
theorem Directs.exec (h : Directs s) (hT : Traced s) (hM : Server.AllMarked s.server) {t : Tid}
    {ch : Server.Choice} {op op' : Op} {rest new : List Op} {u : Server}
    (ht : s.server.todo t = op :: rest) (hr : s.RoutesOp op)
    (he : s.server.exec t ch op = some (u, new)) (hop : op' ∈ new) {fd : Fd}
    (hd : op'.delivery = some (fd, f)) : s.Directed f := by
  intro hp
  have hmem : op ∈ s.server.todo t := Server.mem_todo_head ht
  cases Server.exec_makes he op' hop with
  | silent hs => rw [hs.1] at hd; cases hd
  | broadcast => cases hd
  | rename => cases hd
  | reply _ hp' _ _ hd' =>
    obtain ⟨-, rfl⟩ := Prod.mk.inj (Option.some.inj (hd'.symm.trans hd))
    exact absurd hp hp'
  | greet => cases hd; cases hp
  | relay hd' =>
    cases hd
    exact h.todo t op hmem _ _ hd' hp
  | announce ho =>
    cases hd
    subst ho
    exact absurd hp (hM.todo t _ hmem)
  | @priv fd₀ fd' target text serial r ho =>
    subst ho
    -- the block is that of `handle_msg`
    have hnew : new = s.server.routeMsg t fd₀ target text serial := by
      simp only [Server.exec, Option.some.injEq, Prod.mk.injEq] at he
      exact he.2.symm
    obtain ⟨hserial, hcause, hne, r', hfind, hw, hn⟩ := Server.routeMsg_priv (hnew ▸ hop) hd hp
    obtain ⟨c, g, -, hg, hgs, -⟩ := hT.sourced.todo t _ hmem
    refine ⟨fun n hn => hg.lt_length hT (hgs.trans (hserial ▸ hn)), ?_⟩
    intro p hpeer
    rw [hserial] at hpeer
    obtain ⟨k, hk, hof⟩ := hr p hpeer (fd, r') (OrdMap.find?_eq_some.mp hfind) hw hn hne
    exact ⟨t.conn, k, by rw [hcause, hk], hof⟩

theorem Directs.step (h : Directs s) (hT : Traced s) (hM : Server.AllMarked s.server)
    (hr : Routes s a) (hs : s.step a = some s') : Directs s' := by
  rcases (step_moves hs).server_step with he | ⟨a', ha, hserver⟩
  · refine ⟨?_, ?_⟩
    · intro t op hop fd f hd
      rw [he] at hop
      exact (h.todo t op hop fd f hd).step hs
    · intro k f hf
      rw [he] at hf
      exact (h.written k f hf).step hs
  · refine ⟨?_, ?_⟩
    · intro t op hop fd f hd
      rcases Server.step_mem_todo hserver hop with hop
      | ⟨ch, op₀, rest, u, new, rfl, ht, he, -, hop⟩ | hst
      · exact (h.todo t op hop fd f hd).step hs
      · have hroutes : s.RoutesOp op₀ := hr _ ha op₀ (by rw [ht]; rfl)
        exact (h.exec hT hM ht hroutes he hop hd).step hs
      · intro hp
        rcases hst.cases with hs' | ⟨_, _, _, rfl⟩ | rfl
        · rw [hs'.1] at hd; cases hd
        · cases hd; cases hp
        · cases hd
    · intro k f hf
      rcases Server.step_written hserver k with hw | ⟨t, fd, f', hpend, -, hw⟩
      · exact (h.written k f (hw ▸ hf)).step hs
      · rw [hw, List.mem_append, List.mem_singleton] at hf
        rcases hf with hf | rfl
        · exact (h.written k f hf).step hs
        · obtain ⟨op, hop, hd⟩ := Server.mem_pending.mp hpend
          exact (h.todo t op hop fd f hd).step hs

/-! ### In every run -/

/-- A direct message is routed to its peer, and no descriptor number to which a private message is
on its way is given out again. -/
def Reliable (s : Network) (a : Action) : Prop :=
  Routes s a ∧ OfServer (Server.NoReuse Frame.IsPriv) s a

instance (s : Network) (a : Action) : Decidable (s.Reliable a) :=
  inferInstanceAs (Decidable (_ ∧ _))

/-- **A direct message reaches its peer only**, in every run in which, whenever one is routed,
nobody but its peer uses the nickname it is addressed to, and no descriptor number is given out
again while a private message is on its way to it: every `PRIV` that has been written is another
client's, or that of a request, and if that is a direct message it has been written to the
backend connection of its peer. -/
theorem priv_written_to_peer {env : Env} {gateway : GatewayConfig} {server : LoadedConfig}
    (h : RunIn step Reliable (init env gateway server) s) (hf : f ∈ s.server.written k)
    (hp : f.IsPriv) :
    (f.serial = none ∧ ∃ c, senderOf k f = some c ∧ ¬ s.IsLinked c) ∨
    ∃ n r, f.serial = some n ∧ s.gateway.requests[n]? = some r ∧ ∀ p, r.peer = some p →
      s.IsOf k p := by
  have hinv : (Sound s ∧ Traced s) ∧ Server.AllMarked s.server ∧ Directs s :=
    h.invariant (I := fun s => (Sound s ∧ Traced s) ∧ Server.AllMarked s.server ∧ Directs s)
      ⟨⟨sound_init .., traced_init ..⟩, Server.allMarked_of_run (.refl _), directs_init ..⟩
      fun s a s' ⟨⟨hS, hT⟩, hM, hD⟩ hc hs => by
        refine ⟨⟨hS.step hs, hT.step hS hs⟩, ?_, hD.step hT hM hc.1 hs⟩
        rcases (step_moves hs).server_step with he | ⟨a', -, hserver⟩
        · rw [he]
          exact hM
        · exact hM.step hserver
  obtain ⟨⟨hS, hT⟩, hM, hD⟩ := hinv
  have hrun : RunIn Server.step (Server.NoReuse Frame.IsPriv) (.init server) s.server :=
    server_of_run (s := init env gateway server) (h.mono fun _ _ hc => hc.2)
  have hm : f.line.IsMessage := by
    unfold Frame.IsPriv ServerLine.IsPriv at hp
    cases hl : f.line <;> rw [hl] at hp <;> first | exact hp.elim | trivial
  obtain ⟨c, hc, ho⟩ := hT.origin hf hm
  cases hn : f.serial with
  | none =>
    rw [hn] at ho
    cases ho with
    | foreign hl => exact .inl ⟨rfl, c, hc, hl⟩
  | some n =>
    rw [hn] at ho
    cases ho with
    | @request _ _ r _ hr =>
      refine .inr ⟨n, r, rfl, hr, ?_⟩
      intro p hpeer
      obtain ⟨-, hd⟩ := hD.written k f hf hp
      obtain ⟨sender, k', hcause, hof⟩ := hd p (by rw [hn]; simp [peerOf, hr, hpeer])
      have hmeant := (Server.addressed_of_run hrun).written k f hf hp
      simp only [Frame.MeantFor, hcause, Option.some.injEq] at hmeant
      exact hmeant ▸ hof

/-- What is written to the backend connection of the second of two sessions when the first sends it
a direct message. -/
def privToSecond : Frame := ⟨.priv (bytes "alice") (bytes "hi"), .priv (some 0) (some 1), some 0⟩

set_option maxRecDepth 16000 in
theorem second_reached : ∃ s : Network, privToSecond ∈ s.server.written 1 ∧
    s.gateway.requests = [⟨0, some 1, units "hi"⟩] ∧ s.IsOf 1 1 := by
  obtain ⟨s, hs, hmem, hreq⟩ := exists_runIn_of_any step Reliable (init .sample {} .default)
    (twoReady ++ sends 0 (GatewayServer.directMessage [6] "hi") 5)
    (fun s => privToSecond ∈ s.server.written 1 ∧ s.gateway.requests = [⟨0, some 1, units "hi"⟩])
      (by decide)
  refine ⟨s, hmem, hreq, ?_⟩
  rcases priv_written_to_peer hs hmem trivial with ⟨hnone, -⟩ | ⟨n, r, hn, hr, hpeer⟩
  · cases hnone
  · obtain rfl := Option.some.inj hn
    rw [hreq] at hr
    obtain rfl := Option.some.inj hr
    exact hpeer 1 rfl

/-- Three sessions are ready, and the first sends the second a direct message. Before the chat
server reads it, the second is renamed and the third takes the nickname that was the second's. -/
def renamedBetween : List Action :=
  twoReady ++ registers 2 7 "carol" ++
  [.gateway (.message 0 50 (some (GatewayServer.directMessage [6] "hi")))] ++
    asksFor 1 "dave" ++ asksFor 2 "bob" ++ [.transmit 0, .server (.recv 0)] ++ runs (.handler 0) 3

set_option maxRecDepth 16000 in
/-- **Two renames take a direct message to a third user.** -/
theorem priv_written_to_third :
    ¬ ∀ s, Run step (init .sample {} .default) s → ∀ k f n r p, f ∈ s.server.written k →
    f.IsPriv → f.serial = some n → s.gateway.requests[n]? = some r → r.peer = some p →
    s.IsOf k p := by
  intro hall
  obtain ⟨s, hs, hmem, hreq, hnot⟩ :=
    exists_run_of_any step (init .sample {} .default) renamedBetween
    (fun s => ⟨.priv (bytes "alice") (bytes "hi"), .priv (some 0) (some 2),
      some 0⟩ ∈ s.server.written 2 ∧
      s.gateway.requests = [⟨0, some 1, units "hi"⟩] ∧ ¬ s.IsOf 2 1) (by decide)
  exact hnot (hall s hs 2 _ 0 _ 1 hmem trivial rfl (by rw [hreq]; rfl) rfl)

end Network

end ThreadLink.System
