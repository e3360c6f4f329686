import ThreadLink.Backend.Nicknames
import Mathlib.Data.Nat.Find

/-!
# The loop that looks for a default nickname

`assign_default_nickname_locked` counts up in an `int`, with no bound of its own, until a name is
not in use. The model of the server takes the loop with as many rounds as it needs; this module has
the loop itself.

## The model

* `pass` is one pass of the loop, which is undefined if the counter overflows.
* `Ends` says that the loop, from some value of the counter on, makes so many passes and returns a
  name.

## What is proved

* `least_free` — one of the first `User<N>` is not in use.
* `assigns_least_free` — the loop ends, with the first of them, and this is what the model has.
-/

namespace ThreadLink.Backend

open Text

variable {names : List Bytes} {n n' k k' : ℕ} {name result result' : Bytes}

/-- The largest `int`. -/
def intMax : ℕ := 2147483647

/-- One pass: the name that is tried, and the counter after it; `none` if it overflows. -/
def pass (n : ℕ) : Option (Bytes × ℕ) :=
  if n < intMax then some (defaultNickname n, n + 1) else none

/-- **The loop ends** after `k` passes and returns a name. -/
inductive Ends (names : List Bytes) : ℕ → ℕ → Bytes → Prop where
  /-- The name is not in use. -/
  | free {n n' : ℕ} {name : Bytes} (hp : pass n = some (name, n')) (h : name ∉ names) :
    Ends names n 1 name
  /-- It is, and the loop goes on. -/
  | taken {n n' k : ℕ} {name result : Bytes} (hp : pass n = some (name, n')) (h : name ∈ names)
    (hrest : Ends names n' k result) : Ends names n (k + 1) result

/-- It ends in one way only. -/
theorem Ends.unique (h : Ends names n k result) (h' : Ends names n k' result') :
    k = k' ∧ result = result' := by
  induction h generalizing k' with
  | free hp hfree =>
    cases h' with
    | free hp' => exact ⟨rfl, (Prod.mk.inj (Option.some.inj (hp.symm.trans hp'))).1⟩
    | taken hp' htaken =>
      rw [(Prod.mk.inj (Option.some.inj (hp.symm.trans hp'))).1] at hfree
      exact absurd htaken hfree
  | taken hp htaken _ ih =>
    cases h' with
    | free hp' hfree =>
      rw [(Prod.mk.inj (Option.some.inj (hp.symm.trans hp'))).1] at htaken
      exact absurd htaken hfree
    | taken hp' _ hrest' =>
      rw [← (Prod.mk.inj (Option.some.inj (hp.symm.trans hp'))).2] at hrest'
      obtain ⟨rfl, rfl⟩ := ih hrest'
      exact ⟨rfl, rfl⟩

/-- The first name from `n` on that is not in use is where the loop ends. -/
theorem ends_of_least (hn : n + k < intMax) (hfree : defaultNickname (n + k) ∉ names)
    (htaken : ∀ m, n ≤ m → m < n + k → defaultNickname m ∈ names) :
    Ends names n (k + 1) (defaultNickname (n + k)) := by
  induction k generalizing n with
  | zero => exact .free (if_pos hn) hfree
  | succ k ih =>
    have hstep : n + (k + 1) = n + 1 + k := by omega
    rw [hstep] at hn hfree htaken ⊢
    refine .taken (if_pos (by omega)) (htaken n (Nat.le_refl n) (by omega)) (ih hn hfree ?_)
    intro m h1 h2
    exact htaken m (by omega) h2

/-- What the model has, with enough rounds. -/
theorem assignFrom_of_least {fuel : ℕ} (hk : k < fuel) (hfree : defaultNickname (n + k) ∉ names)
    (htaken : ∀ m, n ≤ m → m < n + k → defaultNickname m ∈ names) :
    assignFrom names fuel n = some (defaultNickname (n + k)) := by
  induction k generalizing n fuel with
  | zero =>
    obtain ⟨fuel, rfl⟩ := Nat.exists_eq_add_one_of_ne_zero (Nat.ne_of_gt hk)
    exact if_neg hfree
  | succ k ih =>
    obtain ⟨fuel, rfl⟩ := Nat.exists_eq_add_one_of_ne_zero (show fuel ≠ 0 by omega)
    have hstep : n + (k + 1) = n + 1 + k := by omega
    rw [hstep] at hfree htaken ⊢
    rw [assignFrom, if_pos (htaken n (Nat.le_refl n) (by omega))]
    exact ih (by omega) hfree fun m h1 h2 => htaken m (by omega) h2

/-- One of the first names is not in use: there is one more of them than there are nicknames. -/
theorem least_free (names : List Bytes) : ∃ k, k ≤ names.length ∧ defaultNickname (1 + k) ∉ names ∧
    ∀ m, 1 ≤ m → m < 1 + k → defaultNickname m ∈ names := by
  have hfree : ∃ k, k ≤ names.length ∧ defaultNickname (1 + k) ∉ names := by
    obtain ⟨nick, hnick⟩ := assignDefaultNickname_isSome names
    obtain ⟨hnot, k, hk, hlt, rfl⟩ := assignFrom_spec hnick
    exact ⟨k - 1, by omega, by rw [Nat.add_sub_cancel' hk]; exact hnot⟩
  classical
  obtain ⟨hle, hnot⟩ := Nat.find_spec hfree
  refine ⟨Nat.find hfree, hle, hnot, ?_⟩
  intro m h1 h2
  have hmin := Nat.find_min hfree (m := m - 1) (by omega)
  rw [Nat.add_sub_cancel' h1] at hmin
  by_contra hm
  exact hmin ⟨by omega, hm⟩

/-- **The default nickname.** In a registry with fewer records than `max_clients`, the loop makes at
most one pass more than there are records, and no pass overflows the counter. It returns
`User<N>` for the least `N` whose name is not in use, which is a valid nickname. -/
theorem assigns_least_free (config : LoadedConfig) (s : Server)
    (h : s.clients.size < config.1.maxClients) :
    ∃ N k, Ends s.nicknames 1 k (defaultNickname N) ∧ k ≤ s.clients.size + 1 ∧ 1 ≤ N ∧ N < intMax ∧
      defaultNickname N ∉ s.nicknames ∧ (∀ m, 1 ≤ m → m < N → defaultNickname m ∈ s.nicknames) ∧
      isValidNickname (defaultNickname N) = true ∧
      assignDefaultNickname s.nicknames = some (defaultNickname N) ∧
      ∀ k' result, Ends s.nicknames 1 k' result → k' = k ∧ result = defaultNickname N := by
  have hlength : s.nicknames.length = s.clients.size := by
    rw [Server.nicknames, List.length_map, OrdMap.values, List.length_map]
    rfl
  have hmax := config.2.maxClients.2
  obtain ⟨k, hk, hfree, htaken⟩ := least_free s.nicknames
  have hint : 1 + k < intMax := by
    unfold intMax
    omega
  have hends := ends_of_least hint hfree htaken
  refine ⟨1 + k, k + 1, hends,
    by omega, by omega, hint, hfree, htaken, ?_, ?_, fun k' result h' => h'.unique hends⟩
  · exact isValidNickname_defaultNickname (by omega)
  · exact assignFrom_of_least (by omega) hfree htaken

/-- A client that is called `User2` is in the registry, and one that is called `alice`. -/
theorem user1_is_free : ∃ s : Server, s.clients.size < LoadedConfig.default.1.maxClients ∧
    s.nicknames = [bytes "User2", bytes "alice"] ∧ ∃ N k, Ends s.nicknames 1 k (defaultNickname N) ∧
      k ≤ s.clients.size + 1 := by
  let s : Server := { Server.init .default with
    clients := (OrdMap.empty.insert 5 ⟨bytes "User2", true⟩).insert 6 ⟨bytes "alice", true⟩ }
  have hsize : s.clients.size < LoadedConfig.default.1.maxClients := by decide
  obtain ⟨N, k, hends, hk, -⟩ := assigns_least_free .default s hsize
  exact ⟨s, hsize, by decide, N, k, hends, hk⟩

end ThreadLink.Backend
