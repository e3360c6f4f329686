import ThreadLink.Backend.Delivery
import Mathlib.Algebra.Group.Nat.Defs
import Mathlib.Data.List.Perm.Subperm

/-!
# Nicknames

A client gets a default nickname when it is registered and may change it. The
registry is locked for both, so that a nickname is never used twice.

## What is proved

* `assignDefaultNickname_isSome` — the loop that looks for a default nickname ends.
* `Named` holds of every state the server reaches (`named_of_run`): the nicknames are
  valid and no two clients use the same.
-/

namespace ThreadLink.Backend

open Text Runs

/-! ### Valid nicknames -/

theorem isValidNickname_iff {nick : Bytes} : isValidNickname nick = true ↔
    nick ≠ [] ∧ nick.length ≤ maxNicknameLength ∧ ∀ b ∈ nick, isNicknameByte b = true := by
  simp [isValidNickname, and_assoc]

/-- The characters of a nickname are ASCII and no blanks. -/
theorem isNicknameByte_range {b : UInt8} (h : isNicknameByte b = true) :
    45 ≤ b.toNat ∧ b.toNat ≤ 122 := by
  simp only [isNicknameByte, isalnum, Bool.or_eq_true, Bool.and_eq_true, decide_eq_true_eq,
    beq_iff_eq] at h
  rcases h with (((h | h) | h) | rfl) | rfl
  · omega
  · omega
  · omega
  · decide
  · decide

/-- The digits of a number, as bytes. -/
theorem bytes_toString (n : ℕ) :
    bytes (toString n) = (Nat.toDigits 10 n).map fun c => c.toNat.toUInt8 := by
  simp [bytes]

theorem toNat_digit {n : ℕ} {c : Char} (h : c ∈ Nat.toDigits 10 n) :
    48 ≤ c.toNat ∧ c.toNat ≤ 57 ∧ c.toNat.toUInt8.toNat = c.toNat := by
  have hd := Nat.isDigit_of_mem_toDigits (by decide) (by decide) h
  simp only [Char.isDigit, Bool.and_eq_true, decide_eq_true_eq, ge_iff_le] at hd
  have h1 : 48 ≤ c.toNat := hd.1
  have h2 : c.toNat ≤ 57 := hd.2
  exact ⟨h1, h2, by rw [Nat.toUInt8, UInt8.toNat_ofNat']; omega⟩

theorem defaultNickname_injective {n m : ℕ} (h : defaultNickname n = defaultNickname m) :
    n = m := by
  have hb := List.append_cancel_left h
  rw [bytes_toString, bytes_toString] at hb
  have hd : Nat.toDigits 10 n = Nat.toDigits 10 m := by
    have hinj : ∀ c ∈ Nat.toDigits 10 n, ∀ c' ∈ Nat.toDigits 10 m,
        c.toNat.toUInt8 = c'.toNat.toUInt8 → c = c' := fun c hc c' hc' he => by
      have he' := congrArg UInt8.toNat he
      rw [(toNat_digit hc).2.2, (toNat_digit hc').2.2] at he'
      exact Char.toNat_inj.mp he'
    generalize Nat.toDigits 10 n = l at hb hinj
    generalize Nat.toDigits 10 m = l' at hb hinj
    induction l generalizing l' with
    | nil => cases l' with
      | nil => rfl
      | cons => cases hb
    | cons c l ih => cases l' with
      | nil => cases hb
      | cons c' l' =>
        simp only [List.map_cons, List.cons.injEq] at hb
        rw [hinj c (.head _) c' (.head _) hb.1,
          ih l' hb.2 fun d hd d' hd' => hinj d (.tail _ hd) d' (.tail _ hd')]
  rw [← Nat.ofDigitChars_toDigits (b := 10) (n := n) (by decide) (by decide), hd,
    Nat.ofDigitChars_toDigits (by decide) (by decide)]

theorem length_defaultNickname {n k : ℕ} (hk : 0 < k) (h : n < 10 ^ k) :
    (defaultNickname n).length ≤ 4 + k := by
  have := (Nat.length_toDigits_le_iff (by decide) hk).mpr h
  simp only [defaultNickname, List.length_append, bytes_toString, List.length_map]
  have h4 : (bytes "User").length = 4 := by decide
  omega

/-- A default nickname is valid. -/
theorem isValidNickname_defaultNickname {n : ℕ} (h : n < 10 ^ 20) :
    isValidNickname (defaultNickname n) = true := by
  refine isValidNickname_iff.mpr
    ⟨by simp [defaultNickname, bytes], length_defaultNickname (by decide) h, ?_⟩
  simp only [defaultNickname, List.forall_mem_append, bytes_toString, List.forall_mem_map]
  refine ⟨by decide, ?_⟩
  intro c hc
  obtain ⟨h1, h2, h3⟩ := toNat_digit hc
  simp [isNicknameByte, isalnum, h3, h1, h2]

/-! ### The default nickname -/

theorem assignFrom_spec {names : List Bytes} {fuel n : ℕ} {nick : Bytes}
    (h : assignFrom names fuel n = some nick) :
    nick ∉ names ∧ ∃ k, n ≤ k ∧ k < n + fuel ∧ nick = defaultNickname k := by
  induction fuel generalizing n with
  | zero => cases h
  | succ fuel ih =>
    rw [assignFrom] at h
    split_ifs at h with hn
    · obtain ⟨h1, k, h2, h3, h4⟩ := ih h
      exact ⟨h1, k, by omega, by omega, h4⟩
    · cases h
      exact ⟨hn, n, Nat.le_refl n, by omega, rfl⟩

/-- A loop that finds nothing has found all its candidates in use. -/
theorem assignFrom_eq_none {names : List Bytes} {fuel n : ℕ} (h : assignFrom names fuel n = none) :
    ∀ k, n ≤ k → k < n + fuel → defaultNickname k ∈ names := by
  induction fuel generalizing n with
  | zero => omega
  | succ fuel ih =>
    rw [assignFrom] at h
    split_ifs at h with hn
    intro k h1 h2
    rcases Nat.eq_or_lt_of_le h1 with rfl | h1
    · exact hn
    · exact ih h k h1 (by omega)

/-- **The loop of `assign_default_nickname_locked` ends**: there are fewer nicknames in
use than candidates. -/
theorem assignDefaultNickname_isSome (names : List Bytes) :
    ∃ nick, assignDefaultNickname names = some nick := by
  by_contra hn
  simp only [not_exists, ← ne_eq, ← Option.eq_none_iff_forall_ne_some] at hn
  have hall := assignFrom_eq_none hn
  have hsub : (List.range' 1 (names.length + 1)).map defaultNickname ⊆ names := fun x hx => by
    obtain ⟨k, hk, rfl⟩ := List.mem_map.mp hx
    rw [List.mem_range'_1] at hk
    exact hall k hk.1 (by omega)
  have hnd : ((List.range' 1 (names.length + 1)).map defaultNickname).Nodup :=
    (List.nodup_range').map fun _ _ => defaultNickname_injective
  have := (List.subperm_of_subset hnd hsub).length_le
  simp only [List.length_map, List.length_range'] at this
  omega

theorem assignDefaultNickname_spec {names : List Bytes} {nick : Bytes}
    (h : assignDefaultNickname names = some nick) :
    nick ∉ names ∧ ∃ k, k ≤ names.length + 1 ∧ nick = defaultNickname k := by
  obtain ⟨h1, k, -, h3, h4⟩ := assignFrom_spec h
  exact ⟨h1, k, by omega, h4⟩

namespace Server

variable {s s' : Server} {t : Tid} {ch : Choice} {op : Op} {new : List Op} {a : Action}

theorem not_taken {fd fd' : Fd} {newNick : Bytes} {r : ClientRecord}
    (h : s.taken fd newNick = false) (hr : s.clients.find? fd' = some r) (hne : fd' ≠ fd) :
    r.nickname ≠ newNick := by
  intro hn
  have hm := OrdMap.find?_eq_some.mp hr
  simp only [taken, List.any_eq_false] at h
  exact h _ hm (by simp [hne, hn])

theorem mem_nicknames {n : Bytes} :
    n ∈ s.nicknames ↔ ∃ fd r, s.clients.find? fd = some r ∧ r.nickname = n := by
  simp only [nicknames, List.mem_map, OrdMap.mem_values]
  constructor
  · rintro ⟨r, ⟨fd, hr⟩, rfl⟩
    exact ⟨fd, r, hr, rfl⟩
  · rintro ⟨fd, r, hr, rfl⟩
    exact ⟨r, ⟨fd, hr⟩, rfl⟩

/-- A registry whose nicknames are in order. -/
structure WellNamed (clients : OrdMap Fd ClientRecord) (maxClients : ℤ) : Prop where
  /-- No two clients use the same. -/
  unique : ∀ fd fd' r r', clients.find? fd = some r → clients.find? fd' = some r' →
    r.nickname = r'.nickname → fd = fd'
  /-- They are valid. -/
  valid : ∀ fd r, clients.find? fd = some r → isValidNickname r.nickname = true
  /-- There are no more clients than the configuration allows. -/
  size : (clients.size : ℤ) ≤ maxClients

/-- A registry in which each record keeps its nickname stays in order. -/
theorem WellNamed.of_keeps {clients clients' : OrdMap Fd ClientRecord} {n : ℤ}
    (hW : WellNamed clients n) (hs : clients'.size ≤ clients.size)
    (h : ∀ fd r, clients'.find? fd = some r → ∃ r', clients.find? fd = some r' ∧
      r.nickname = r'.nickname) :
    WellNamed clients' n where
  unique fd fd' r r' h1 h2 he := by
    obtain ⟨q, hq, hq'⟩ := h fd r h1
    obtain ⟨q', hq2, hq2'⟩ := h fd' r' h2
    exact hW.unique fd fd' q q' hq hq2 (by rw [← hq', ← hq2', he])
  valid fd r h1 := by
    obtain ⟨q, hq, hq'⟩ := h fd r h1
    exact hq' ▸ hW.valid fd q hq
  size := (Int.ofNat_le.mpr hs).trans hW.size

/-- So does one in which one record, old or new, gets a valid nickname that no other
uses. -/
theorem WellNamed.of_renames {clients clients' : OrdMap Fd ClientRecord} {n : ℤ}
    (hW : WellNamed clients n) {f : Fd} {nick : Bytes} (hv : isValidNickname nick = true)
    (hs : (clients'.size : ℤ) ≤ n)
    (h : ∀ fd' r, clients'.find? fd' = some r → fd' = f ∧ r.nickname = nick ∨
      clients.find? fd' = some r ∧ r.nickname ≠ nick) :
    WellNamed clients' n where
  unique f1 f2 r r' h1 h2 he := by
    rcases h f1 r h1 with ⟨rfl, e1⟩ | ⟨g1, n1⟩ <;> rcases h f2 r' h2 with ⟨rfl, e2⟩ | ⟨g2, n2⟩
    · rfl
    · exact absurd (he.symm.trans e1) n2
    · exact absurd (he.trans e2) n1
    · exact hW.unique f1 f2 r r' g1 g2 he
  valid f1 r h1 := by
    rcases h f1 r h1 with ⟨-, e⟩ | ⟨g, -⟩
    · rw [e, hv]
    · exact hW.valid f1 r g
  size := hs

/-- **The invariant of the nicknames.** -/
structure Named (s : Server) : Prop where
  /-- Those in the registry. -/
  registry : WellNamed s.clients s.config.1.maxClients
  /-- Those a block is going to set are valid. -/
  todo : ∀ t fd n, .handleNick fd n ∈ s.todo t → isValidNickname n = true
  /-- A name that was assigned is a default nickname. -/
  assigned : ∀ c n, s.assigned c = some n → ∃ k, k ≤ 10001 ∧ n = defaultNickname k

theorem named_init (config : LoadedConfig) : Named (init config) where
  registry :=
    { unique := fun _ _ _ _ h => by cases h
      valid := fun _ _ h => by cases h
      size := by
        have := config.2.maxClients.1
        simp only [init, OrdMap.size, OrdMap.empty, List.length_nil]
        omega }
  todo _ _ _ h := by cases h
  assigned _ _ h := by cases h

theorem Named.length_le (hN : Named s) : s.nicknames.length ≤ 10000 := by
  have h1 := s.config.2.maxClients.2
  have h2 := hN.registry.size
  simp only [OrdMap.size] at h2
  simp only [nicknames, OrdMap.values, List.length_map]
  omega

theorem Named.fresh_lt (hN : Named s) {nick : Bytes}
    (h : assignDefaultNickname s.nicknames = some nick) :
    ∃ k, k ≤ 10001 ∧ nick = defaultNickname k := by
  obtain ⟨-, k, hk, he⟩ := assignDefaultNickname_spec h
  have := hN.length_le
  exact ⟨k, by omega, he⟩

/-- A record that changes only its flag keeps its nickname. -/
theorem find?_modify_nickname {fd fd' : Fd} {r : ClientRecord} {g : ClientRecord → ClientRecord}
    (hg : ∀ r, (g r).nickname = r.nickname) (h : (s.clients.modify fd g).find? fd' = some r) :
    ∃ r', s.clients.find? fd' = some r' ∧ r.nickname = r'.nickname := by
  by_cases hfd : fd' = fd
  · subst hfd
    rw [OrdMap.find?_modify_self] at h
    obtain ⟨r', hr', rfl⟩ := Option.map_eq_some_iff.mp h
    exact ⟨r', hr', hg r'⟩
  · rw [OrdMap.find?_modify_of_ne _ hfd] at h
    exact ⟨r, h, rfl⟩

/-- **A block keeps the nicknames in order.** -/
theorem Named.registers (hN : Named s) (ht : op ∈ s.todo t) (hr : Registers s s' t new op) :
    WellNamed s'.clients s.config.1.maxClients := by
  have hW := hN.registry
  cases hr with
  | same h => exact h ▸ hW
  | @add fd c nickname hs hn h =>
    by_cases hk : fd ∈ s.clients.keys
    · rw [OrdMap.emplace_of_mem hk] at h
      exact h ▸ hW
    · obtain ⟨hfresh, -⟩ := assignDefaultNickname_spec hn
      obtain ⟨k, hlt, he⟩ := hN.fresh_lt hn
      refine hW.of_renames (f := fd) (he ▸ isValidNickname_defaultNickname (by omega)) ?_ ?_
      · rw [h]
        simp only [OrdMap.size, OrdMap.entries_emplace hk, List.length_append,
          List.length_singleton] at hs ⊢
        omega
      · intro fd' r h1
        rw [h] at h1
        by_cases hfd : fd' = fd
        · subst hfd
          rw [OrdMap.find?_emplace_self hk] at h1
          cases h1
          exact .inl ⟨rfl, rfl⟩
        · rw [OrdMap.find?_emplace_of_ne _ hfd] at h1
          exact .inr ⟨h1, fun he => hfresh (mem_nicknames.mpr ⟨fd', r, h1, he⟩)⟩
  | welcome h =>
    apply hW.of_keeps
    · simp [h, OrdMap.size, OrdMap.modify, OrdMap.mapValues]
    · intro fd r hr
      rw [h] at hr
      exact find?_modify_nickname (by simp) hr
  | @rename fd newNick r₀ hnt hr₀ h =>
    apply hW.of_renames (f := fd) (hN.todo t fd newNick ht)
    · simpa [h, OrdMap.size, OrdMap.modify, OrdMap.mapValues] using hW.size
    · intro fd' r h1
      rw [h] at h1
      by_cases hfd : fd' = fd
      · subst hfd
        rw [OrdMap.find?_modify_self] at h1
        obtain ⟨q, -, rfl⟩ := Option.map_eq_some_iff.mp h1
        exact .inl ⟨rfl, rfl⟩
      · rw [OrdMap.find?_modify_of_ne _ hfd] at h1
        exact .inr ⟨h1, not_taken hnt h1 hfd⟩
  | @erase fd h =>
    apply hW.of_keeps
    · rw [h]
      exact List.length_filter_le _ _
    · intro fd' r hr
      rw [h, OrdMap.find?_erase] at hr
      split_ifs at hr
      exact ⟨r, hr, rfl⟩

/-- A block makes no block that handles a line. -/
theorem exec_not_handles (h : s.exec t ch op = some (s', new)) {op' : Op} (hop : op' ∈ new) :
    ¬ op'.Handles := by
  cases exec_makes h op' hop with
  | silent _ hh => exact hh
  | reply _ _ _ _ hd => cases op' <;> first | exact id | cases hd
  | _ => exact id

/-- **What `handle_nick` lets through** is valid. -/
theorem handleFrame_handleNick {cfg : Config} {fd₀ fd : Fd} {f : ClientFrame} {n : Bytes}
    (h : .handleNick fd n ∈ handleFrame cfg fd₀ f) : isValidNickname n = true := by
  unfold handleFrame at h
  split_ifs at h
  · simp [sendError, teardown] at h
  · simp only [handleLine] at h
    split_ifs at h
    · simp at h
    · unfold handleNick at h
      split at h
      · simp [sendError] at h
      · simp [sendError] at h
      · split_ifs at h with hv
        · simp only [List.mem_singleton, Op.handleNick.injEq] at h
          exact h.2 ▸ hv
        · simp [sendError] at h
    · unfold handleMsg at h
      simp only at h
      split_ifs at h <;> simp [sendError] at h
    · simp at h
    · simp [teardown] at h
    · simp [sendError] at h
    · simp at h

/-- **Every step** keeps the nicknames in order. -/
theorem Named.step (hN : Named s) (h : step s a = some s') : Named s' where
  registry := by
    rcases step_effect h with ⟨t, ch, op, rest, new, s₁, rfl, ht, -, hE, rfl⟩ | ⟨-, hq⟩
    · have := hN.registers (mem_todo_head ht) hE.clients
      rwa [← hE.config] at this
    · refine hq.config ▸ hN.registry.of_keeps hq.clients.length_eq.le fun fd r hr => ⟨r, ?_, rfl⟩
      rw [← hq.find?, hr]
  todo t fd n hop := by
    rcases step_mem_todo h hop with hop | ⟨ch, op₀, rest, s₁, new, -, -, he, -, hop⟩ | hs
    · exact hN.todo t fd n hop
    · exact absurd trivial (exec_not_handles he hop)
    · cases hs with
      | frame _ _ _ _ h => exact handleFrame_handleNick h
      | leave h => simp [teardown] at h
      | pass h => simp at h
      | stop h => simp [shutdownAll] at h
  assigned c n hc := by
    rcases step_effect h with ⟨t, ch, op, rest, new, s₁, rfl, ht, -, hE, rfl⟩ | ⟨-, hq⟩
    · rcases hE.assigned c with he | ⟨fd, -, he⟩
      · exact hN.assigned c n (he ▸ hc)
      · exact hN.fresh_lt (he ▸ hc)
    · exact hN.assigned c n (hq.assigned ▸ hc)

/-- **The nicknames are in order in every state the server reaches.** -/
theorem named_of_run {config : LoadedConfig} (h : Run Server.step (init config) s) : Named s :=
  h.invariant (named_init config) fun _ _ _ hN _ hs => hN.step hs

end Server

end ThreadLink.Backend
