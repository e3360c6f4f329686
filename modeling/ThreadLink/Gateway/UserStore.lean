import ThreadLink.Gateway.Server
import ThreadLink.Lib.Runs

/-!
# Calls that overlap

`src/users.ts`, when `register`, `login` and `rename` are called on one `UserStore` before
others of these calls have finished.

## The model

* `register` and `login` look the name up and then wait for a password hash; `rename` does not
  wait. What a call does before or after the wait is one step.
* Calls are numbered as they begin. The hashes come in any order, and `scrypt` may fail, which
  makes the call throw.
* A call that finishes is recorded with its outcome.

## What is proved

* `UserStep` — all that a step can do.
* `usernames_of_path` — the names keep the grammar and the ids stay.
* `unchanged_of_failed` — a call that throws or returns `null` has not touched the table.
* `renamed_between` — two registers of one name succeed only if the account of the first is
  renamed in between.
-/

namespace ThreadLink.Gateway

open Text Runs

/-- A call. -/
inductive UserCall where
  /-- `register`. -/
  | register (username password : Units)
  /-- `login`. -/
  | login (username password : Units)
  /-- `rename`. -/
  | rename (userId newUsername : Units)
  deriving DecidableEq, Repr

/-- How a call ends. -/
inductive Outcome where
  /-- `register` returns an account. -/
  | registered (user : UserRecord)
  /-- `login` returns an account. -/
  | loggedIn (user : UserRecord)
  /-- `login` returns `null`. -/
  | null
  /-- `rename` returns. -/
  | renamed
  /-- An error is thrown. -/
  | threw (message : Units)
  deriving DecidableEq, Repr

/-- The call has thrown or returned `null`. -/
def Outcome.Failed : Outcome → Prop
  | .null | .threw _ => True
  | _ => False

/-- `UserStore`, with the calls that have not finished. -/
structure UserStore where
  /-- The platform. -/
  env : Env
  /-- How many ids, times and salts have been drawn. -/
  draws : ℕ
  /-- The table. -/
  users : Users
  /-- How many calls have begun. -/
  calls : ℕ
  /-- The calls that wait for a hash. -/
  suspended : List (ℕ × Attempt)
  /-- The calls that have finished. -/
  outcomes : List (ℕ × Outcome)

/-- What happens. -/
inductive UserEvent where
  /-- A call begins. -/
  | call (c : UserCall)
  /-- The hash of a call is there. -/
  | resume (i : ℕ)
  /-- The hash of a call cannot be made. -/
  | reject (i : ℕ) (message : Units)
  deriving DecidableEq, Repr

namespace UserStore

/-- A store on which nothing has been called. -/
def start (env : Env) (users : Users) : UserStore := ⟨env, 0, users, 0, [], []⟩

/-- The call ends. -/
def finish (s : UserStore) (i : ℕ) (o : Outcome) : UserStore :=
  { s with outcomes := s.outcomes ++ [(i, o)] }

/-- The call waits. -/
def suspend (s : UserStore) (i : ℕ) (a : Attempt) : UserStore :=
  { s with suspended := s.suspended ++ [(i, a)] }

/-- What a call waits with. -/
def attempt? (s : UserStore) (i : ℕ) : Option Attempt :=
  (s.suspended.find? fun p => p.1 == i).map Prod.snd

/-- The call does not wait any more. -/
def wake (s : UserStore) (i : ℕ) : UserStore :=
  { s with suspended := s.suspended.filter fun p => p.1 != i }

/-- `register`, up to its `await`. -/
def register (s : UserStore) (i : ℕ) (username password : Units) : UserStore :=
  match validateUsername username with
  | some error => s.finish i (.threw error)
  | none =>
    match validatePassword password with
    | some error => s.finish i (.threw error)
    | none =>
      if (s.users.findByUsername username).isSome
        then s.finish i (.threw (units "That username is already taken."))
      else
        { s with draws := s.draws + 1 }.suspend i
          (.register username (hashPassword s.env password (s.env.randomBytes s.draws)))

/-- `login`, up to its `await`. -/
def login (s : UserStore) (i : ℕ) (username password : Units) : UserStore :=
  match s.users.findByUsername username with
  | none => s.finish i .null
  | some row =>
    s.suspend i (.login row.id row.username (verifyPassword s.env password row.password))

/-- `rename`. It throws what `validateUsername` says, or that the name is taken. -/
def rename (s : UserStore) (i : ℕ) (userId newUsername : Units) : UserStore :=
  match s.users.rename userId newUsername with
  | some users => { s with users := users }.finish i .renamed
  | none =>
    s.finish i
      (.threw ((validateUsername newUsername).getD (units "That username is already taken.")))

/-- A call begins. -/
def begin (s : UserStore) (c : UserCall) : UserStore :=
  let s' := { s with calls := s.calls + 1 }
  match c with
  | .register username password => s'.register s.calls username password
  | .login username password => s'.login s.calls username password
  | .rename userId newUsername => s'.rename s.calls userId newUsername

/-- The row that `register` inserts. -/
def newRow (s : UserStore) (username : Units) (password : PasswordRecord) : UserRow :=
  ⟨s.env.uuid s.draws, username, password, s.env.now s.draws⟩

/-- What is after the `await`. -/
def resume (s : UserStore) (i : ℕ) : Attempt → UserStore
  | .register username password =>
    match s.users.insert (s.newRow username password) with
    | some users =>
      { s with users := users, draws := s.draws + 1 }.finish i
        (.registered ⟨s.env.uuid s.draws, username⟩)
    | none =>
      { s with draws := s.draws + 1 }.finish i
        (.threw (units "UNIQUE constraint failed: users.username"))
  | .login id username ok => s.finish i (if ok then .loggedIn ⟨id, username⟩ else .null)

/-- A step. -/
def step (s : UserStore) : UserEvent → Option UserStore
  | .call c => some (s.begin c)
  | .resume i => (s.attempt? i).map fun a => (s.wake i).resume i a
  | .reject i message => (s.attempt? i).map fun _ => (s.wake i).finish i (.threw message)

/-- The call that a step is of. -/
def owner (s : UserStore) : UserEvent → ℕ
  | .call _ => s.calls
  | .resume i => i
  | .reject i _ => i

/-! ### What a step can do -/

/-- What a register waits with is a name of the grammar. -/
def Sound : Attempt → Prop
  | .register username _ => validateUsername username = none
  | .login _ _ _ => True

end UserStore

open UserStore in
/-- **What a step can do.** -/
inductive UserStep (s : UserStore) : UserEvent → UserStore → Prop where
  /-- A call waits. -/
  | waits {c : UserCall} {a : Attempt} {draws : ℕ} (ha : Sound a) :
    UserStep s (.call c)
      { s with calls := s.calls + 1, draws := draws, suspended := s.suspended ++ [(s.calls, a)] }
  /-- A call fails at once. -/
  | refused {c : UserCall} {o : Outcome} (ho : o.Failed) :
    UserStep s (.call c) { s with calls := s.calls + 1, outcomes := s.outcomes ++ [(s.calls, o)] }
  /-- An account is renamed. -/
  | renamed {userId newUsername : Units} {users : Users}
      (h : s.users.rename userId newUsername = some users) :
    UserStep s (.call (.rename userId newUsername))
      { s with
        users := users
        calls := s.calls + 1
        outcomes := s.outcomes ++ [(s.calls, .renamed)] }
  /-- An account is made. -/
  | registered {i : ℕ} {username : Units} {password : PasswordRecord} {users : Users}
    (ha : s.attempt? i = some (.register username password))
    (h : s.users.insert (s.newRow username password) = some users) :
    UserStep s (.resume i)
      { s.wake i with
        users := users
        draws := s.draws + 1
        outcomes := s.outcomes ++ [(i, .registered ⟨s.env.uuid s.draws, username⟩)] }
  /-- A login succeeds. -/
  | loggedIn {i : ℕ} {user : UserRecord} (ha : (s.attempt? i).isSome) :
    UserStep s (.resume i) ((s.wake i).finish i (.loggedIn user))
  /-- A call fails after its wait. -/
  | fails {i : ℕ} {o : Outcome} {draws : ℕ} (he : s.owner e = i) (ha : (s.attempt? i).isSome)
    (ho : o.Failed)
    (hc : ∀ c, e ≠ .call c) :
    UserStep s e { s.wake i with draws := draws, outcomes := s.outcomes ++ [(i, o)] }

namespace UserStore

variable {s s' u u' : UserStore} {e : UserEvent} {users : Users} {env : Env}
  {past : List (UserStore × UserEvent)} {i : ℕ}

theorem userStep_of_begin (s : UserStore) (c : UserCall) : UserStep s (.call c) (s.begin c) := by
  cases c with
  | register username password =>
    show UserStep s _ (register { s with calls := s.calls + 1 } s.calls username password)
    unfold register
    cases hv : validateUsername username with
    | some error => exact .refused trivial
    | none =>
      cases validatePassword password with
      | some error => exact .refused trivial
      | none =>
        dsimp only
        split
        · exact .refused trivial
        · exact .waits hv
  | login username password =>
    show UserStep s _ (login { s with calls := s.calls + 1 } s.calls username password)
    unfold login
    dsimp only
    split
    · exact .refused trivial
    · exact .waits trivial
  | rename userId newUsername =>
    show UserStep s _ (rename { s with calls := s.calls + 1 } s.calls userId newUsername)
    unfold rename
    dsimp only
    split
    · rename_i h
      exact .renamed h
    · exact .refused trivial

theorem userStep_of_resume {a : Attempt} (ha : s.attempt? i = some a) :
    UserStep s (.resume i) ((s.wake i).resume i a) := by
  have hsome : (s.attempt? i).isSome := by
    rw [ha]
    rfl
  cases a with
  | register username password =>
    unfold resume
    dsimp only
    split
    · rename_i h
      exact .registered ha h
    · exact .fails rfl hsome trivial nofun
  | login id username ok =>
    cases ok with
    | true => exact .loggedIn hsome
    | false => exact .fails rfl hsome trivial nofun

/-- **The cases of a step.** -/
theorem userStep_of_step (h : s.step e = some s') : UserStep s e s' := by
  cases e with
  | call c =>
    rw [← Option.some.inj h]
    exact userStep_of_begin s c
  | resume i =>
    obtain ⟨a, ha, rfl⟩ := Option.map_eq_some_iff.mp h
    exact userStep_of_resume ha
  | reject i message =>
    obtain ⟨a, ha, rfl⟩ := Option.map_eq_some_iff.mp h
    refine .fails rfl ?_ trivial nofun
    rw [ha]
    rfl

/-! ### The names and the ids -/

/-- The names of the table match the grammar. -/
def Proper (users : Users) : Prop := ∀ r ∈ users.rows, validateUsername r.username = none

theorem proper_empty : Proper .empty := fun _ h => absurd h List.not_mem_nil

theorem mem_suspended {a : Attempt} (h : s.attempt? i = some a) : (i, a) ∈ s.suspended := by
  obtain ⟨p, hp, rfl⟩ := Option.map_eq_some_iff.mp h
  have hi : p.1 = i := by simpa using List.find?_some hp
  exact hi ▸ List.mem_of_find?_eq_some hp

theorem mem_suspended_of_isSome (h : (s.attempt? i).isSome) : ∃ a, (i, a) ∈ s.suspended := by
  obtain ⟨a, ha⟩ := Option.isSome_iff_exists.mp h
  exact ⟨a, mem_suspended ha⟩

/-- The invariant. -/
structure Tidy (s : UserStore) : Prop where
  /-- The names are proper. -/
  proper : Proper s.users
  /-- Those that registers wait with are. -/
  sound : ∀ p ∈ s.suspended, Sound p.2
  /-- A call that waits has begun. -/
  begun : ∀ p ∈ s.suspended, p.1 < s.calls
  /-- A call that has finished has begun and does not wait. -/
  finished : ∀ p ∈ s.outcomes, p.1 < s.calls ∧ ∀ q ∈ s.suspended, q.1 ≠ p.1
  /-- A call finishes once. -/
  once : (s.outcomes.map Prod.fst).Nodup

theorem tidy_start (h : Proper users) : (start env users).Tidy :=
  ⟨h, nofun, nofun, nofun, List.nodup_nil⟩

/-- A call ends that has just begun. -/
theorem Tidy.begins (h : s.Tidy) {users : Users} (hp : Proper users) (o : Outcome) :
    Tidy { s with users := users, calls := s.calls + 1, outcomes := s.outcomes ++ [(s.calls, o)] }
      where
  proper := hp
  sound := h.sound
  begun p hq := Nat.lt_succ_of_lt (h.begun p hq)
  finished p hq := by
    rcases List.mem_append.mp hq with hq | hq
    · exact ⟨Nat.lt_succ_of_lt (h.finished p hq).1, (h.finished p hq).2⟩
    · rw [List.mem_singleton.mp hq]
      exact ⟨Nat.lt_succ_self _, fun q hq => (h.begun q hq).ne⟩
  once := by
    rw [List.map_append]
    refine List.nodup_append'.mpr ⟨h.once, List.nodup_singleton _, ?_⟩
    intro j hj hj'
    obtain ⟨p, hq, rfl⟩ := List.mem_map.mp hj
    exact absurd (List.mem_singleton.mp hj') (h.finished p hq).1.ne

/-- A call ends that has waited. -/
theorem Tidy.ends (h : s.Tidy) (hi : (s.attempt? i).isSome) {users : Users} (hp : Proper users)
    (draws : ℕ) (o : Outcome) :
    Tidy { s.wake i with users := users, draws := draws, outcomes := s.outcomes ++ [(i, o)] } := by
  obtain ⟨a, ha⟩ := mem_suspended_of_isSome hi
  have hsub : ∀ p ∈ (s.wake i).suspended, p ∈ s.suspended ∧ p.1 ≠ i := by
    intro p hq
    obtain ⟨hq, hne⟩ := List.mem_filter.mp hq
    exact ⟨hq, by simpa using hne⟩
  refine ⟨hp, fun p hq => h.sound p (hsub p hq).1, fun p hq => h.begun p (hsub p hq).1, ?_, ?_⟩
  · intro p hq
    rcases List.mem_append.mp hq with hq | hq
    · exact ⟨(h.finished p hq).1, fun q hq' => (h.finished p hq).2 q (hsub q hq').1⟩
    · rw [List.mem_singleton.mp hq]
      exact ⟨h.begun _ ha, fun q hq' => (hsub q hq').2⟩
  · show ((s.outcomes ++ [(i, o)]).map Prod.fst).Nodup
    rw [List.map_append]
    refine List.nodup_append'.mpr ⟨h.once, List.nodup_singleton _, ?_⟩
    intro j hj hj'
    obtain ⟨p, hq, rfl⟩ := List.mem_map.mp hj
    exact absurd (List.mem_singleton.mp hj').symm ((h.finished p hq).2 _ ha)

theorem Proper.rename (h : Proper users) {userId newUsername : Units} {users' : Users}
    (hr : users.rename userId newUsername = some users') : Proper users' := by
  obtain ⟨hv, -, hrows⟩ := Users.rename_eq_some hr
  intro r hm
  rw [hrows] at hm
  rcases Users.mem_setUsername.mp hm with ⟨hm, -⟩ | ⟨r', -, -, rfl⟩
  · exact h r hm
  · exact hv

theorem Proper.insert (h : Proper users) {row : UserRow} (hv : validateUsername row.username = none)
    {users' : Users} (hi : users.insert row = some users') : Proper users' := by
  intro r hm
  rw [Users.rows_insert hi, List.mem_append, List.mem_singleton] at hm
  rcases hm with hm | rfl
  · exact h r hm
  · exact hv

theorem Tidy.step (h : s.Tidy) (hs : s.step e = some s') : s'.Tidy := by
  cases userStep_of_step hs with
  | @waits c a draws ha =>
    constructor
    · exact h.proper
    · intro p hq
      rcases List.mem_append.mp hq with hq | hq
      · exact h.sound p hq
      · rw [List.mem_singleton.mp hq]
        exact ha
    · intro p hq
      rcases List.mem_append.mp hq with hq | hq
      · exact Nat.lt_succ_of_lt (h.begun p hq)
      · rw [List.mem_singleton.mp hq]
        exact Nat.lt_succ_self _
    · intro p hq
      refine ⟨Nat.lt_succ_of_lt (h.finished p hq).1, ?_⟩
      intro q hq'
      rcases List.mem_append.mp hq' with hq' | hq'
      · exact (h.finished p hq).2 q hq'
      · rw [List.mem_singleton.mp hq']
        exact (h.finished p hq).1.ne'
    · exact h.once
  | refused => exact h.begins h.proper _
  | renamed hr => exact h.begins (h.proper.rename hr) _
  | @registered i username password users ha hi =>
    have hv : validateUsername (s.newRow username password).username = none :=
      h.sound _ (mem_suspended ha)
    exact h.ends (by rw [ha]; rfl) (h.proper.insert hv hi) _ _
  | loggedIn ha => exact h.ends ha h.proper s.draws _
  | fails _ ha => exact h.ends ha h.proper _ _

/-- A step adds an account at most. -/
theorem ids_of_step (h : s.step e = some s') : s.users.ids <+: s'.users.ids := by
  cases userStep_of_step h with
  | @renamed userId newUsername users hr =>
    have hids := Users.ids_rename s.users userId newUsername
    rw [hr] at hids
    show _ <+: users.ids
    rw [← hids]
    exact List.prefix_rfl
  | @registered i username password users ha hi =>
    refine ⟨[s.env.uuid s.draws], ?_⟩
    show _ = users.ids
    rw [Users.ids, Users.ids, Users.rows_insert hi, List.map_append]
    rfl
  | _ => exact List.prefix_rfl

/-- **The names and the ids**: in every run the names match the grammar and no two accounts have
the same, and an account that was there at some time is there ever after. -/
theorem usernames_of_path (hp : Proper users) (h : Path step (start env users) past s) :
    s.Tidy ∧ ∀ p ∈ past, p.1.users.ids <+: s.users.ids := by
  refine h.invariant (I := fun past s => s.Tidy ∧ ∀ p ∈ past, p.1.users.ids <+: s.users.ids)
    ⟨tidy_start hp, nofun⟩ ?_
  intro past s e s' ⟨ht, hids⟩ _ hs
  refine ⟨ht.step hs, ?_⟩
  intro p hm
  rcases List.mem_append.mp hm with hm | hm
  · exact (hids p hm).trans (ids_of_step hs)
  · rw [List.mem_singleton.mp hm]
    exact ids_of_step hs

/-! ### Calls that fail -/

/-- A step that touches the table ends its call, and the call has not failed. -/
theorem users_of_step (h : s.step e = some s') :
    s'.users = s.users ∨ ∃ o : Outcome, ¬ o.Failed ∧ (s.owner e, o) ∈ s'.outcomes := by
  cases userStep_of_step h with
  | renamed => exact .inr ⟨.renamed, id, List.mem_append_right _ (List.mem_singleton_self _)⟩
  | registered =>
    exact .inr ⟨.registered _, id, List.mem_append_right _ (List.mem_singleton_self _)⟩
  | _ => exact .inl rfl

theorem outcomes_of_step (h : s.step e = some s') : s.outcomes ⊆ s'.outcomes := by
  cases userStep_of_step h with
  | waits => exact List.Subset.refl _
  | _ => exact List.subset_append_left ..

/-- **A call that fails** has not touched the table, with any of its steps. -/
theorem unchanged_of_failed (hp : Proper users) (h : Path step (start env users) past s)
    {o : Outcome} (ho : (i, o) ∈ s.outcomes) (hf : o.Failed) (hu : (u, e) ∈ past)
    (hi : u.owner e = i) (hs : u.step e = some u') : u'.users = u.users := by
  have ht := (usernames_of_path hp h).1
  have htouch := h.invariant (I := fun past s => ∀ p ∈ past, ∀ u', p.1.step p.2 = some u' →
      u'.users = p.1.users ∨ ∃ o : Outcome, ¬ o.Failed ∧ (p.1.owner p.2, o) ∈ s.outcomes) nofun ?_
  · rcases htouch _ hu u' hs with h | ⟨o', hn, ho'⟩
    · exact h
    · have he := List.inj_on_of_nodup_map ht.once ho ho' hi.symm
      rw [(Prod.mk.inj he).2] at hf
      exact absurd hf hn
  · intro past s e s' hI _ hs p hm u' hu'
    rcases List.mem_append.mp hm with hm | hm
    · rcases hI p hm u' hu' with h | ⟨o', hn, ho'⟩
      · exact .inl h
      · exact .inr ⟨o', hn, outcomes_of_step hs ho'⟩
    · rw [List.mem_singleton.mp hm] at hu' ⊢
      rw [hs] at hu'
      obtain rfl := Option.some.inj hu'
      exact users_of_step hs

/-! ### Registers of one name -/

/-- The step makes an account. -/
def Registers (s : UserStore) (e : UserEvent) (user : UserRecord) : Prop :=
  ∃ s', s.step e = some s' ∧ s'.outcomes = s.outcomes ++ [(s.owner e, .registered user)]

/-- The step gives an account another name than it has. -/
def RenamesAway (s : UserStore) (e : UserEvent) (user : UserRecord) : Prop :=
  ∃ newUsername, e = .call (.rename user.id newUsername) ∧ newUsername ≠ user.username ∧
    s.users.usernameOf user.id = some user.username ∧ (s.users.rename user.id newUsername).isSome

/-- What an account is made of. -/
theorem insert_of_registers {user : UserRecord} (h : s.Registers e user) (hs : s.step e = some s') :
    ∃ row, row.id = user.id ∧ row.username = user.username ∧
      s.users.insert row = some s'.users := by
  obtain ⟨t, ht, ho⟩ := h
  obtain rfl := Option.some.inj (hs.symm.trans ht)
  cases userStep_of_step hs with
  | waits => simp at ho
  | refused hf =>
    obtain ⟨-, he⟩ := Prod.mk.inj (List.singleton_inj.mp (List.append_cancel_left ho))
    exact absurd hf (he ▸ id)
  | renamed =>
    obtain ⟨-, he⟩ := Prod.mk.inj (List.singleton_inj.mp (List.append_cancel_left ho))
    cases he
  | @registered i username password users ha hi =>
    obtain ⟨-, he⟩ := Prod.mk.inj (List.singleton_inj.mp (List.append_cancel_left ho))
    obtain rfl := Outcome.registered.inj he
    exact ⟨_, rfl, rfl, hi⟩
  | loggedIn =>
    obtain ⟨-, he⟩ := Prod.mk.inj (List.singleton_inj.mp (List.append_cancel_left ho))
    cases he
  | fails _ _ hf =>
    obtain ⟨-, he⟩ := Prod.mk.inj (List.singleton_inj.mp (List.append_cancel_left ho))
    exact absurd hf (he ▸ id)

/-- An account keeps its name, unless it is renamed. -/
theorem keeps_name {user : UserRecord} (h : s.step e = some s')
    (hu : s.users.usernameOf user.id = some user.username) :
    s'.users.usernameOf user.id = some user.username ∨ s.RenamesAway e user := by
  cases userStep_of_step h with
  | @renamed userId newUsername users hr =>
    by_cases he : user.id = userId ∧ newUsername ≠ user.username
    · obtain ⟨rfl, hne⟩ := he
      exact .inr ⟨newUsername, rfl, hne, hu, by rw [hr]; rfl⟩
    · left
      show users.usernameOf user.id = _
      rw [Users.usernameOf_rename hr]
      split
      · rename_i hid
        rw [not_not.mp fun hne => he ⟨hid.1, hne⟩]
      · exact hu
  | @registered i username password users ha hi =>
    left
    show users.usernameOf user.id = _
    rw [Users.usernameOf_insert hi]
    split
    · rename_i hid
      exact absurd (Users.mem_ids_of_usernameOf hu) (hid ▸ (Users.insert_eq_some hi).1)
    · exact hu
  | _ => exact .inl hu

/-- Along a path. -/
theorem keeps_name_of_path {user : UserRecord} (h : Path step s past s')
    (hu : s.users.usernameOf user.id = some user.username) :
    s'.users.usernameOf user.id = some user.username ∨ ∃ p ∈ past, p.1.RenamesAway p.2 user := by
  refine h.invariant (I := fun past t => t.users.usernameOf user.id = some user.username ∨
    ∃ p ∈ past, p.1.RenamesAway p.2 user) (.inl hu) ?_
  intro past t e t' hI _ ht
  rcases hI with hI | ⟨p, hp, hr⟩
  · rcases keeps_name ht hI with hk | hr
    · exact .inl hk
    · exact .inr ⟨_, List.mem_append_right _ (List.mem_singleton_self _), hr⟩
  · exact .inr ⟨p, List.mem_append_left _ hp, hr⟩

/-- **Two registers of one name**: the second succeeds only if the account of the first has been
given another name in between. -/
theorem renamed_between {e' : UserEvent} {user user' : UserRecord} (hr : s.Registers e user)
    (hs : s.step e = some s') (h : Path step s' past u) (hr' : u.Registers e' user')
    (hs' : u.step e' = some u') (hn : user'.username = user.username) :
    ∃ p ∈ past, p.1.RenamesAway p.2 user := by
  obtain ⟨row, hid, hname, hi⟩ := insert_of_registers hr hs
  obtain ⟨row', -, hname', hi'⟩ := insert_of_registers hr' hs'
  have hu : s'.users.usernameOf user.id = some user.username := by
    rw [Users.usernameOf_insert hi, if_pos hid.symm, hname]
  rcases keeps_name_of_path h hu with hk | hk
  · -- the name is still there, so that it cannot be inserted
    obtain ⟨r, hm, -, hru⟩ := Users.usernameOf_eq_some.mp hk
    refine absurd (List.mem_map.mpr ⟨r, hm, ?_⟩) (Users.insert_eq_some hi').2.1
    rw [hru, hname', hn]
  · exact hk

/-! ### All of it -/

/-- **Calls that overlap**, on a table with proper names: no two accounts have the same name, the
names match the grammar, and the ids stay; of two registers of one name the second succeeds only
if the account of the first has been given another name in between; and a call that throws or
returns `null` has not touched the table. -/
theorem overlapping_calls (hp : Proper users) (h : Path step (start env users) past s) :
    (s.users.rows.map (·.username)).Nodup ∧
    (∀ r ∈ s.users.rows, 1 ≤ r.username.length ∧ r.username.length ≤ 24 ∧
      r.username.all isUsernameUnit) ∧
    (∀ p ∈ past, p.1.users.ids <+: s.users.ids) ∧
    (∀ before between after u e v e' user user',
      past = before ++ (u, e) :: (between ++ (v, e') :: after) →
      u.Registers e user → v.Registers e' user' → user'.username = user.username →
      ∃ p ∈ between, p.1.RenamesAway p.2 user) ∧
    ∀ i o, (i, o) ∈ s.outcomes → o.Failed → ∀ p ∈ past, p.1.owner p.2 = i →
      ∀ u', p.1.step p.2 = some u' →
      u'.users = p.1.users := by
  obtain ⟨ht, hids⟩ := usernames_of_path hp h
  refine ⟨s.users.usernameNodup, ?_, hids, ?_, ?_⟩
  · intro r hr
    have hv := ht.proper r hr
    unfold validateUsername at hv
    split at hv
    · rename_i hg
      exact hg
    · cases hv
  · rintro before between after u e v e' user user' rfl hr hr' hn
    obtain ⟨u', -, hs, hrest⟩ := h.split
    obtain ⟨v', hbetween, hs', -⟩ := hrest.split
    exact renamed_between hr hs hbetween hr' hs' hn
  · intro i o ho hf p hm hi u' hu'
    exact unchanged_of_failed hp h ho hf hm hi hu'

/-- Two registers of `x` begin before any of them has finished. -/
def twoRegisters : List UserEvent :=
  [.call (.register (units "x") (units "password")),
    .call (.register (units "x") (units "password")), .resume 0]

set_option maxRecDepth 8000 in
/-- The second of them fails. -/
theorem second_register_fails :
    ∃ past s, Path step (start .unary .empty) past s ∧ s.users.rows.length = 1 ∧
      (s.users.rows.map (·.username)).Nodup ∧ s.outcomes.map Prod.fst = [0, 1] := by
  have h :
    (execAllIn step (fun _ _ => True) (start .unary .empty) (twoRegisters ++ [.resume 1])).map
      (fun s => (s.users.rows.length, s.outcomes.map Prod.fst)) = some (1, [0, 1]) := by decide
  obtain ⟨s, hs, he⟩ := exists_pathIn_of_execAllIn h
  obtain ⟨hl, ho⟩ := Prod.mk.inj he
  exact ⟨_, s, hs, hl, (overlapping_calls proper_empty hs).1, ho⟩

set_option maxRecDepth 8000 in
/-- **Both may succeed**: the first account is renamed before the second hash is there. -/
theorem both_registers_succeed :
    ∃ s, Run step (start .unary .empty) s ∧
      s.outcomes = [(0, .registered ⟨Env.unary.uuid 2, units "x"⟩), (2, .renamed),
        (1, .registered ⟨Env.unary.uuid 3, units "x"⟩)] := by
  have h : (execAll step (start .unary .empty)
      (twoRegisters ++ [.call (.rename (Env.unary.uuid 2) (units "y")), .resume 1])).map
      (·.outcomes) =
      some [(0, .registered ⟨Env.unary.uuid 2, units "x"⟩), (2, .renamed),
        (1, .registered ⟨Env.unary.uuid 3, units "x"⟩)] := by decide
  exact exists_run_of_execAll h

end UserStore

end ThreadLink.Gateway
