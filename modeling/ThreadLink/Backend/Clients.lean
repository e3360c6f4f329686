import ThreadLink.Backend.Renames

/-!
# The clients

What the registry holds at any time, whatever the threads are doing. A nickname is assigned,
changed, and given up in blocks of different threads, and a descriptor is closed by yet another
block than the one that erases its record.

## What is proved

* `exec_closes` — what closes a descriptor.
* `Inv.find?_of_close` — a descriptor that is closed has no record any more.
* `registry_in_order` — the nicknames are valid, and no two clients use the same; there are no
  more clients than the configuration allows; a client in the registry has an open descriptor,
  which stays open as long as it is there; and a connection that is registered is inserted.
-/

namespace ThreadLink.Backend

open Text Runs

namespace Server

variable {s s' : Server} {t : Tid} {ch : Choice} {op : Op} {new rest : List Op} {a : Action}
  {fd : Fd} {c : ConnId}

/-! ### Closing a descriptor -/

/-- **What closes a descriptor** is the block that is to close it. -/
theorem exec_closes (h : s.exec t ch op = some (s', new)) (hk : s.fds fd = some c)
    (hn : s'.fds fd = none) : op = .closeFd fd := by
  have hsame (hf : s'.fds = s.fds) : op = .closeFd fd := by
    rw [hf, hk] at hn
    cases hn
  cases exec_done h with
  | accepted =>
    by_cases hfd : fd = ch.fd
    · subst hfd
      simp at hn
    · simp only [Function.update_of_ne hfd] at hn
      rw [hk] at hn
      cases hn
  | @closed fd' =>
    by_cases hfd : fd = fd'
    · rw [hfd]
    · simp only [Function.update_of_ne hfd] at hn
      rw [hk] at hn
      cases hn
  | frame => exact hsame (mild_sendFrame ..).fds
  | renamed => exact hsame (mild_renameClient ..).fds
  | erased =>
    apply hsame
    unfold eraseClient
    split <;> rfl
  | _ => exact hsame rfl

/-- A descriptor that is to be closed has no record any more. -/
theorem Inv.find?_of_close (hI : Inv s) (ht : s.todo t = .closeFd fd :: rest) :
    s.clients.find? fd = none := by
  cases t with
  | main =>
    cases hI.main_next ht with
    | control h => exact h.elim
    | admission ha =>
      cases ha with
      | close h =>
        exact hI.find?_of_not_listed (by rw [h]; exact ⟨by decide, by decide⟩)
          (by rw [h]; simp [Stage.Listed])
  | handler c =>
    have hn := (ht ▸ hI.handler c).next
    generalize hst : s.stage c = st at hn
    generalize s.alive c = al at hn
    cases hn with
    | serves h => exact h.elim
    | announces h => exact h.elim
    | close =>
      exact hI.find?_of_not_listed (by rw [hst]; exact ⟨by decide, by decide⟩)
        (by rw [hst]; simp [Stage.Listed])

/-- **A descriptor stays open as long as it has a record.** -/
theorem Inv.find?_of_closes (hI : Inv s) (h : Server.step s a = some s') (hk : s.fds fd = some c)
    (hn : s'.fds fd = none) : s.clients.find? fd = none := by
  rcases step_effect h with ⟨t, ch, op, rest, new, s₁, -, ht, he, -, rfl⟩ | ⟨-, hq⟩
  · obtain rfl := exec_closes he hk hn
    exact hI.find?_of_close ht
  · rw [hq.fds, hk] at hn
    cases hn

/-- The configuration is never changed. -/
theorem config_of_run {config : LoadedConfig} (h : Run step (init config) s) :
    s.config = config := by
  refine h.invariant (I := fun s => s.config = config) rfl ?_
  intro s a s' hc _ hs
  rcases step_effect hs with ⟨t, ch, op, rest, new, s₁, -, -, -, hE, rfl⟩ | ⟨-, hq⟩
  · exact hE.config.trans hc
  · exact hq.config.trans hc

/-- **The registry is in order in every state the server reaches.** No two clients use the same
nickname; nicknames have 1 to 24 characters, letters, digits, `_` or `-`; there are no more clients
than `max_clients`. A client in the registry has an open descriptor, which no step closes, and
`emplace` inserts the client that is registered. -/
theorem registry_in_order {config : LoadedConfig} (h : Run step (init config) s) :
    (∀ fd fd' r r', s.clients.find? fd = some r → s.clients.find? fd' = some r' →
      r.nickname = r'.nickname → fd = fd') ∧
    (∀ fd r, s.clients.find? fd = some r →
      1 ≤ r.nickname.length ∧ r.nickname.length ≤ 24 ∧ ∀ b ∈ r.nickname, isNicknameByte b = true) ∧
    (s.clients.size : ℤ) ≤ config.1.maxClients ∧
    (∀ fd r, s.clients.find? fd = some r → (s.fds fd).isSome = true ∧
      ∀ a s', step s a = some s' → (s'.fds fd).isSome = true) ∧
    ∀ t fd c rest r, s.todo t = .register fd c :: rest →
      s.clients.find? fd = none ∧ (s.clients.emplace fd r).find? fd = some r := by
  have hI := inv_of_run h
  have hN := named_of_run h
  refine ⟨hN.registry.unique, ?_, config_of_run h ▸ hN.registry.size, ?_, ?_⟩
  · intro fd r hr
    obtain ⟨hne, hlen, hb⟩ := isValidNickname_iff.mp (hN.registry.valid fd r hr)
    exact ⟨List.length_pos_iff.mpr hne, hlen, hb⟩
  · intro fd r hr
    obtain ⟨c, hc, -⟩ := hI.owner fd r hr
    refine ⟨by rw [hc]; rfl, ?_⟩
    intro a s' hs
    cases hn : s'.fds fd with
    | some _ => rfl
    | none =>
      rw [hI.find?_of_closes hs hc hn] at hr
      cases hr
  · intro t fd c rest r ht
    obtain ⟨-, hfd, -⟩ := hI.main_of_register ht
    have hst := hI.accepted_of_register ht
    have hnone : s.clients.find? fd = none :=
      hfd ▸ hI.find?_of_not_listed (by rw [hst]; exact ⟨by decide, by decide⟩)
        (by rw [hst]; simp [Stage.Listed])
    exact ⟨hnone, OrdMap.find?_emplace_self (OrdMap.find?_eq_none.mp hnone) r⟩

set_option maxRecDepth 4000 in
theorem two_in_order : ∃ s : Server, s.clients.find? 5 = some ⟨bytes "User1", true⟩ ∧
    s.clients.find? 6 = some ⟨bytes "User2", true⟩ ∧ (s.clients.size : ℤ) ≤ 100 ∧
    ∀ fd fd' r r', s.clients.find? fd = some r → s.clients.find? fd' = some r' →
      r.nickname = r'.nickname → fd = fd' := by
  obtain ⟨s, hs, h5, h6⟩ := exists_run_of_any step (init .default) (admits 5 0 ++ admits 6 1)
    (fun s => s.clients.find? 5 = some ⟨bytes "User1", true⟩ ∧
      s.clients.find? 6 = some ⟨bytes "User2", true⟩) (by decide)
  obtain ⟨hunique, -, hsize, -⟩ := registry_in_order hs
  exact ⟨s, h5, h6, hsize, hunique⟩

end Server

end ThreadLink.Backend
