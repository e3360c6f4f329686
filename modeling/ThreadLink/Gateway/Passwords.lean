import ThreadLink.Gateway.UserStore

/-!
# Passwords

`src/auth.ts`, and who may log in. `Gateway.Store` keeps a hash and its salt as bytes; in
the database both are strings of hexadecimal digits. Here is what `hashPassword` and
`verifyPassword` make of the strings, and what `login` says after any calls.

## The model

* `randomBytes` gives the salt, and `scrypt` is asked for a key of `KEY_LENGTH` bytes; both
  are the platform's. A password is given to `scrypt` as its UTF-8 bytes.
* `timingSafeEqual` compares bytes; it is called on as many of them on both sides.

## What is proved

* `hashPassword_text`, `verifyPassword_text` — the strings say what the bytes say.
* `Vouched.step` — the password of an account is the one of the call that has registered it.
* `login_iff` — after any calls, of which some may be waiting, `login` returns an account
  exactly if it has the username now and was registered with the password.
-/

namespace ThreadLink.Gateway

open Text Runs

/-! ### Hashes in hexadecimal -/

/-- `PasswordRecord`, as it is stored. -/
structure PasswordText where
  /-- The hash. -/
  hash : Units
  /-- The salt. -/
  salt : Units
  deriving DecidableEq, Repr

/-- `hashPassword`, with the salt it draws. -/
def hashPasswordText (env : Env) (password : Units) (salt : Bytes) : PasswordText :=
  let derived := env.scrypt (utf8Encode password) salt
  ⟨toHex derived, toHex salt⟩

/-- `verifyPassword`. -/
def verifyPasswordText (env : Env) (password : Units) (record : PasswordText) : Bool :=
  let salt := fromHex record.salt
  let derived := env.scrypt (utf8Encode password) salt
  let expected := fromHex record.hash
  if derived.length ≠ expected.length then false else derived == expected

/-- A row of `users`, as SQLite has it. -/
structure UserRowText where
  /-- `id`. -/
  id : Units
  /-- `username`. -/
  username : Units
  /-- `password_hash` and `password_salt`. -/
  password : PasswordText
  /-- `created_at`. -/
  createdAt : Units
  deriving DecidableEq, Repr

/-- The strings of a record of bytes. -/
def PasswordRecord.text (record : PasswordRecord) : PasswordText :=
  ⟨toHex record.hash, toHex record.salt⟩

/-- The row as it is stored. -/
def UserRow.text (row : UserRow) : UserRowText :=
  ⟨row.id, row.username, row.password.text, row.createdAt⟩

/-- What is stored of a new password. -/
theorem hashPassword_text (env : Env) (password : Units) (salt : Bytes) :
    (hashPassword env password salt).text = hashPasswordText env password salt := rfl

/-- **The strings say what the bytes say.** -/
theorem verifyPassword_text (env : Env) (password : Units) (record : PasswordRecord) :
    verifyPasswordText env password record.text = verifyPassword env password record := by
  unfold verifyPasswordText PasswordRecord.text verifyPassword
  simp only [fromHex_toHex]
  split
  · rename_i hne
    exact (beq_eq_false_iff_ne.mpr fun he => hne (congrArg List.length he)).symm
  · rfl

/-- `login`, on the rows of the table, if nothing comes between its query and its end. -/
def loginText (env : Env) (rows : List UserRowText) (username password : Units) :
    Option UserRecord :=
  match rows.find? fun row => row.username == username with
  | none => none
  | some row =>
    if verifyPasswordText env password row.password then some ⟨row.id, row.username⟩ else none

theorem find?_text (rows : List UserRow) (username : Units) :
    (rows.map UserRow.text).find? (fun row => row.username == username) =
      (rows.find? fun row => row.username == username).map UserRow.text := by
  rw [List.find?_map]
  rfl

theorem loginText_eq_some {env : Env} {t : Users} {username password : Units} {user : UserRecord} :
    loginText env (t.rows.map UserRow.text) username password = some user ↔
      ∃ row ∈ t.rows, row.username = username ∧ verifyPassword env password row.password = true ∧
        user = ⟨row.id, row.username⟩ := by
  unfold loginText
  rw [find?_text]
  show (match (t.findByUsername username).map UserRow.text with | none => _ | some row => _) = _ ↔ _
  cases hf : t.findByUsername username with
  | none =>
    constructor
    · intro h
      cases h
    · rintro ⟨row, hr, hu, -⟩
      rw [Users.findByUsername_eq_some.mpr ⟨hr, hu⟩] at hf
      cases hf
  | some row =>
    obtain ⟨hr, hu⟩ := Users.findByUsername_eq_some.mp hf
    show (if verifyPasswordText env password row.password.text
      then some (UserRecord.mk row.id row.username) else none) =
      some user ↔ _
    rw [verifyPassword_text]
    constructor
    · intro h
      obtain ⟨hv, he⟩ := Option.ite_none_right_eq_some.mp h
      exact ⟨row, hr, hu, hv, (Option.some.inj he).symm⟩
    · rintro ⟨row', hr', hu', hv, rfl⟩
      obtain rfl : row' = row := List.inj_on_of_nodup_map t.usernameNodup hr' hr (hu'.trans hu.symm)
      rw [if_pos hv]

/-! ### Who has registered an account -/

namespace UserStore

variable {s s' : UserStore} {e : UserEvent} {env : Env} {past : List (UserStore × UserEvent)}
  {i j : ℕ}

/-- A call of `register` with the password has returned the account. -/
def RegisteredWith (past : List (UserStore × UserEvent)) (s : UserStore) (id password : Units) :
    Prop :=
  ∃ v username, (v, UserEvent.call (.register username password)) ∈ past ∧
    (v.calls, Outcome.registered ⟨id, username⟩) ∈ s.outcomes

theorem env_of_step (h : s.step e = some s') : s'.env = s.env := by
  cases userStep_of_step h <;> rfl

/-- Calls are numbered. -/
theorem calls_of_step (h : s.step e = some s') :
    (∃ c, e = .call c) ∧ s'.calls = s.calls + 1 ∨ (∀ c, e ≠ .call c) ∧ s'.calls = s.calls := by
  cases userStep_of_step h with
  | waits => exact .inl ⟨⟨_, rfl⟩, rfl⟩
  | refused => exact .inl ⟨⟨_, rfl⟩, rfl⟩
  | renamed => exact .inl ⟨⟨_, rfl⟩, rfl⟩
  | registered => exact .inr ⟨nofun, rfl⟩
  | loggedIn => exact .inr ⟨nofun, rfl⟩
  | fails _ _ _ hc => exact .inr ⟨hc, rfl⟩

/-- A call of `register` waits with the hash of its password. -/
theorem register_of_begin {c : UserCall} {username : Units} {record : PasswordRecord}
    (h : (i, Attempt.register username record) ∈ (s.begin c).suspended) :
    (i, Attempt.register username record) ∈ s.suspended ∨
      i = s.calls ∧ ∃ password salt, c = .register username password ∧
        record = hashPassword s.env password salt := by
  cases c with
  | register name password =>
    have h : _ ∈ (register { s with calls := s.calls + 1 } s.calls name password).suspended := h
    unfold register at h
    split at h
    · exact .inl h
    · split at h
      · exact .inl h
      · split at h
        · exact .inl h
        · rcases List.mem_append.mp h with h | h
          · exact .inl h
          · obtain ⟨hi, ha⟩ := Prod.mk.inj (List.mem_singleton.mp h)
            obtain ⟨rfl, rfl⟩ := Attempt.register.inj ha
            exact .inr ⟨hi, password, _, rfl, rfl⟩
  | login name password =>
    have h : _ ∈ (login { s with calls := s.calls + 1 } s.calls name password).suspended := h
    unfold login at h
    split at h
    · exact .inl h
    · rcases List.mem_append.mp h with h | h
      · exact .inl h
      · cases (Prod.mk.inj (List.mem_singleton.mp h)).2
  | rename userId newUsername =>
    have h : _ ∈ (rename { s with calls := s.calls + 1 } s.calls userId newUsername).suspended := h
    unfold rename at h
    split at h <;> exact .inl h

theorem register_of_step (h : s.step e = some s') {username : Units} {record : PasswordRecord}
    (hi : (i, Attempt.register username record) ∈ s'.suspended) :
    (i, Attempt.register username record) ∈ s.suspended ∨
      i = s.calls ∧ ∃ password salt, e = .call (.register username password) ∧
        record = hashPassword s.env password salt := by
  have hwake {j : ℕ} (hm : (i, Attempt.register username record) ∈ (s.wake j).suspended) :
      (i, Attempt.register username record) ∈ s.suspended := (List.mem_filter.mp hm).1
  cases e with
  | call c =>
    obtain rfl := Option.some.inj h
    rcases register_of_begin hi with hold | ⟨hnew, password, salt, rfl, hr⟩
    · exact .inl hold
    · exact .inr ⟨hnew, password, salt, rfl, hr⟩
  | resume j =>
    cases userStep_of_step h with
    | registered => exact .inl (hwake hi)
    | loggedIn => exact .inl (hwake hi)
    | fails he => exact .inl (hwake hi)
  | reject j message =>
    cases userStep_of_step h with
    | fails he => exact .inl (hwake hi)

/-- An account is returned by the step that makes it. -/
theorem returned_of_step (h : s.step e = some s') {user : UserRecord}
    (hi : (i, Outcome.registered user) ∈ s'.outcomes) :
    (i, Outcome.registered user) ∈ s.outcomes ∨ user.id ∉ s.users.ids ∧ user.id ∈ s'.users.ids ∧
      s'.outcomes = s.outcomes ++ [(i, .registered user)] := by
  cases userStep_of_step h with
  | waits => exact .inl hi
  | refused ho =>
    apply (List.mem_append.mp hi).imp_right
    intro hm
    rw [← (Prod.mk.inj (List.mem_singleton.mp hm)).2] at ho
    exact ho.elim
  | renamed =>
    apply (List.mem_append.mp hi).imp_right
    intro hm
    cases (Prod.mk.inj (List.mem_singleton.mp hm)).2
  | @registered j username password users ha hins =>
    apply (List.mem_append.mp hi).imp_right
    intro hm
    obtain ⟨rfl, ho⟩ := Prod.mk.inj (List.mem_singleton.mp hm)
    obtain rfl := Outcome.registered.inj ho
    refine ⟨(Users.insert_eq_some hins).1, ?_, rfl⟩
    show s.env.uuid s.draws ∈ users.ids
    rw [Users.ids, Users.rows_insert hins, List.map_append]
    exact List.mem_append_right _ (List.mem_singleton_self _)
  | loggedIn =>
    apply (List.mem_append.mp hi).imp_right
    intro hm
    cases (Prod.mk.inj (List.mem_singleton.mp hm)).2
  | fails _ _ ho =>
    apply (List.mem_append.mp hi).imp_right
    intro hm
    rw [← (Prod.mk.inj (List.mem_singleton.mp hm)).2] at ho
    exact ho.elim

/-- An account keeps its password, and has it from the call that makes it. -/
theorem row_of_step (h : s.step e = some s') {row : UserRow} (hr : row ∈ s'.users.rows) :
    (∃ r ∈ s.users.rows, r.id = row.id ∧ r.password = row.password) ∨
      ∃ i username, (i, Attempt.register username row.password) ∈ s.suspended ∧
        (i, Outcome.registered ⟨row.id, username⟩) ∈ s'.outcomes := by
  cases userStep_of_step h with
  | @renamed userId newUsername users hren =>
    obtain ⟨-, -, hrows⟩ := Users.rename_eq_some hren
    rcases Users.mem_setUsername.mp (hrows ▸ hr) with ⟨hm, -⟩ | ⟨r, hm, -, rfl⟩
    · exact .inl ⟨row, hm, rfl, rfl⟩
    · exact .inl ⟨r, hm, rfl, rfl⟩
  | @registered j username password users ha hins =>
    have hrows := Users.rows_insert hins
    rcases List.mem_append.mp (hrows ▸ hr) with hm | hm
    · exact .inl ⟨row, hm, rfl, rfl⟩
    · rw [List.mem_singleton.mp hm]
      exact .inr ⟨j, username, mem_suspended ha,
        List.mem_append_right _ (List.mem_singleton_self _)⟩
  | waits => exact .inl ⟨row, hr, rfl, rfl⟩
  | refused => exact .inl ⟨row, hr, rfl, rfl⟩
  | loggedIn => exact .inl ⟨row, hr, rfl, rfl⟩
  | fails => exact .inl ⟨row, hr, rfl, rfl⟩

/-- Every account is vouched for by one call of `register`. -/
structure Vouched (env : Env) (past : List (UserStore × UserEvent)) (s : UserStore) : Prop where
  /-- The platform. -/
  platform : s.env = env
  /-- Calls have begun. -/
  begun : ∀ v c, (v, UserEvent.call c) ∈ past → v.calls < s.calls
  /-- A number is that of one call. -/
  numbered : ∀ v v' c c', (v, UserEvent.call c) ∈ past → (v', UserEvent.call c') ∈ past →
    v.calls = v'.calls → c = c'
  /-- A `register` waits with the hash of its password. -/
  waiting : ∀ i username record, (i, Attempt.register username record) ∈ s.suspended →
    ∃ v password salt, (v, UserEvent.call (.register username password)) ∈ past ∧ v.calls = i ∧
      record = hashPassword env password salt
  /-- An account has the password of the call that has made it. -/
  account : ∀ row ∈ s.users.rows, ∃ password salt, RegisteredWith past s row.id password ∧
    row.password = hashPassword env password salt
  /-- An account that has been returned is there. -/
  returned : ∀ i user, (i, Outcome.registered user) ∈ s.outcomes → user.id ∈ s.users.ids
  /-- An account is returned once. -/
  once : ∀ i j user user', (i, Outcome.registered user) ∈ s.outcomes →
    (j, Outcome.registered user') ∈ s.outcomes →
    user.id = user'.id → i = j

theorem vouched_start (env : Env) : Vouched env [] (start env .empty) where
  platform := rfl
  begun _ _ h := absurd h List.not_mem_nil
  numbered _ _ _ _ h := absurd h List.not_mem_nil
  waiting _ _ _ h := absurd h List.not_mem_nil
  account _ h := absurd h List.not_mem_nil
  returned _ _ h := absurd h List.not_mem_nil
  once _ _ _ _ h := absurd h List.not_mem_nil

theorem RegisteredWith.step {id password : Units} (h : RegisteredWith past s id password)
    (hs : s.step e = some s') : RegisteredWith (past ++ [(s, e)]) s' id password := by
  obtain ⟨v, username, hv, ho⟩ := h
  exact ⟨v, username, List.mem_append_left _ hv, outcomes_of_step hs ho⟩

theorem Vouched.step (h : Vouched env past s) (hs : s.step e = some s') :
    Vouched env (past ++ [(s, e)]) s' := by
  have hold {v : UserStore} {c : UserCall} (hm : (v, UserEvent.call c) ∈ past ++ [(s, e)]) :
      (v, UserEvent.call c) ∈ past ∨ v = s ∧ e = .call c := by
    rcases List.mem_append.mp hm with hm | hm
    · exact .inl hm
    · obtain ⟨rfl, rfl⟩ := Prod.mk.inj (List.mem_singleton.mp hm)
      exact .inr ⟨rfl, rfl⟩
  constructor
  · exact (env_of_step hs).trans h.platform
  · intro v c hm
    rcases hold hm with hm | ⟨rfl, rfl⟩
    · have hlt := h.begun v c hm
      rcases calls_of_step hs with ⟨-, hc⟩ | ⟨-, hc⟩ <;> omega
    · rcases calls_of_step hs with ⟨-, hc⟩ | ⟨hn, -⟩
      · omega
      · exact absurd rfl (hn c)
  · intro v v' c c' hm hm' he
    rcases hold hm with hp | ⟨rfl, rfl⟩
    · rcases hold hm' with hp' | ⟨hv', -⟩
      · exact h.numbered v v' c c' hp hp' he
      · exact absurd (hv' ▸ he) (h.begun v c hp).ne
    · rcases hold hm' with hp' | ⟨-, he'⟩
      · exact absurd he (h.begun v' c' hp').ne'
      · exact UserEvent.call.inj he'
  · intro i username record hi
    rcases register_of_step hs hi with hi | ⟨rfl, password, salt, rfl, hr⟩
    · obtain ⟨v, password, salt, hv, hc, hr⟩ := h.waiting i username record hi
      exact ⟨v, password, salt, List.mem_append_left _ hv, hc, hr⟩
    · exact ⟨s, password, salt, List.mem_append_right _ (List.mem_singleton_self _), rfl,
        h.platform ▸ hr⟩
  · intro row hr
    rcases row_of_step hs hr with ⟨r, hm, hid, hp⟩ | ⟨i, username, hi, ho⟩
    · obtain ⟨password, salt, hreg, hh⟩ := h.account r hm
      exact ⟨password, salt, hid ▸ hreg.step hs, hp ▸ hh⟩
    · obtain ⟨v, password, salt, hv, rfl, hh⟩ := h.waiting i username _ hi
      exact ⟨password, salt, ⟨v, username, List.mem_append_left _ hv, ho⟩, hh⟩
  · intro i user hi
    rcases returned_of_step hs hi with hi | ⟨-, hi, -⟩
    · exact (ids_of_step hs).subset (h.returned i user hi)
    · exact hi
  · intro i j user user' hi hj he
    rcases returned_of_step hs hi with hi | ⟨hn, -, ho⟩
    · rcases returned_of_step hs hj with hj | ⟨hn, -, -⟩
      · exact h.once i j user user' hi hj he
      · exact absurd (h.returned i user hi) (he ▸ hn)
    · rw [ho] at hj
      rcases List.mem_append.mp hj with hj | hj
      · exact absurd (h.returned j user' hj) (he ▸ hn)
      · exact (Prod.mk.inj (List.mem_singleton.mp hj)).1.symm

theorem vouched_of_path (h : Path step (start env .empty) past s) : Vouched env past s :=
  h.invariant (I := Vouched env) (vouched_start env) fun _ _ _ _ hv _ hs => hv.step hs

/-- The password an account was registered with is one. -/
theorem Vouched.password_unique (h : Vouched env past s) {id password password' : Units}
    (hr : RegisteredWith past s id password) (hr' : RegisteredWith past s id password') :
    password = password' := by
  obtain ⟨v, username, hv, ho⟩ := hr
  obtain ⟨v', username', hv', ho'⟩ := hr'
  have hc := h.once _ _ _ _ ho ho' rfl
  exact (UserCall.register.inj (h.numbered v v' _ _ hv hv' hc)).2

/-! ### Who may log in -/

/-- How `login` ends. -/
def answer : Option UserRecord → Outcome
  | some user => .loggedIn user
  | none => .null

/-- A `login` begins and, if it has to wait, goes on before anything else happens. -/
def loginAlone (s : UserStore) (username password : Units) : UserStore :=
  let t := s.begin (.login username password)
  match t.attempt? s.calls with
  | none => t
  | some a => (t.wake s.calls).resume s.calls a

theorem run_loginAlone (s : UserStore) (username password : Units) :
    Run step s (s.loginAlone username password) := by
  have hb : Run step s (s.begin (.login username password)) :=
    (RunIn.refl s).tail trivial (a := .call _) rfl
  unfold loginAlone
  dsimp only
  split
  · exact hb
  · rename_i a ha
    exact hb.tail trivial (a := .resume s.calls) (by rw [step, ha]; rfl)

/-- The call that begins next does not wait. -/
theorem Tidy.find?_calls (h : s.Tidy) : s.suspended.find? (fun p => p.1 == s.calls) = none :=
  List.find?_eq_none.mpr fun p hp => by simpa using (h.begun p hp).ne

/-- **A `login` by itself** ends as `loginText` says. -/
theorem Tidy.loginAlone (h : s.Tidy) (username password : Units) :
    (s.loginAlone username password).outcomes =
      s.outcomes ++
      [(s.calls, answer (loginText s.env (s.users.rows.map UserRow.text) username password))] := by
  have hlt : loginText s.env (s.users.rows.map UserRow.text) username password =
      (s.users.findByUsername username).bind fun row =>
        if verifyPassword s.env password row.password then some ⟨row.id, row.username⟩
            else none := by
    rw [loginText, find?_text]
    show (match (s.users.findByUsername username).map UserRow.text with
      | none => _ | some row => _) = _
    cases s.users.findByUsername username with
    | none => rfl
    | some row =>
      show (if verifyPasswordText s.env password row.password.text then _ else _) = _
      rw [verifyPassword_text]
      rfl
  rw [hlt]
  cases hf : s.users.findByUsername username with
  | none =>
    have hb : s.begin (.login username password) =
        { s with calls := s.calls + 1 }.finish s.calls .null := by
      show login { s with calls := s.calls + 1 } s.calls username password = _
      rw [login, hf]
    have ha : (s.begin (.login username password)).attempt? s.calls = none := by
      rw [hb, attempt?]
      exact congrArg _ h.find?_calls
    rw [UserStore.loginAlone, ha, hb]
    rfl
  | some row =>
    have hb : s.begin (.login username password) = { s with calls := s.calls + 1 }.suspend s.calls
        (.login row.id row.username (verifyPassword s.env password row.password)) := by
      show login { s with calls := s.calls + 1 } s.calls username password = _
      rw [login, hf]
    have ha : (s.begin (.login username password)).attempt? s.calls =
        some (.login row.id row.username (verifyPassword s.env password row.password)) := by
      rw [hb, attempt?, suspend, List.find?_append, h.find?_calls]
      simp
    rw [UserStore.loginAlone, ha, hb]
    show s.outcomes ++ [(s.calls, if verifyPassword s.env password row.password then _ else _)] = _
    cases hv : verifyPassword s.env password row.password with
    | true => simp [hv, answer]
    | false => simp [hv, answer]

theorem isUsernameUnit_lt {u : UInt16} (h : isUsernameUnit u = true) : u.toNat < 0x80 := by
  simp only [isUsernameUnit, Bool.or_eq_true, Bool.and_eq_true, decide_eq_true_eq, beq_iff_eq] at h
  rcases h with (((⟨-, h⟩ | ⟨-, h⟩) | ⟨-, h⟩) | rfl) | rfl
  · omega
  · omega
  · omega
  · decide
  · decide

/-- A proper name is ASCII. -/
theorem Proper.ascii {users : Users} (h : Proper users) {row : UserRow} (hr : row ∈ users.rows) :
    ∀ u ∈ row.username, u.toNat < 0x80 := by
  have hv := h row hr
  unfold validateUsername at hv
  split at hv
  · rename_i hg
    exact fun u hu => isUsernameUnit_lt (List.all_eq_true.mp hg.2.2 u hu)
  · cases hv

/-- **Who may log in** after any calls. -/
theorem login_iff (hinj : ∀ salt, Function.Injective fun password => env.scrypt password salt)
    (h : Path step (start env .empty) past s) (username password : Units) (user : UserRecord) :
    loginText env (s.users.rows.map UserRow.text) username password = some user ↔
      s.users.usernameOf user.id = some user.username ∧
      utf8Encode user.username = utf8Encode username ∧
      ∃ registered, RegisteredWith past s user.id registered ∧
        utf8Encode registered = utf8Encode password := by
  have hv := vouched_of_path h
  have ht := (usernames_of_path proper_empty h).1
  -- the hash of a row is that of its password
  have hverify {row : UserRow} {registered : Units} {salt : Bytes}
      (hp : row.password = hashPassword env registered salt) :
      verifyPassword env password row.password = true ↔
      utf8Encode password = utf8Encode registered := by
    rw [hp, verifyPassword, hashPassword, beq_iff_eq]
    exact ⟨fun he => hinj salt he, fun he => by rw [he]⟩
  rw [loginText_eq_some]
  constructor
  · rintro ⟨row, hr, hu, hok, rfl⟩
    obtain ⟨registered, salt, hreg, hp⟩ := hv.account row hr
    refine ⟨Users.usernameOf_eq_some.mpr ⟨row, hr, rfl, rfl⟩, by rw [hu], registered, hreg, ?_⟩
    exact ((hverify hp).mp hok).symm
  · rintro ⟨hname, hu, registered, hreg, hp⟩
    obtain ⟨row, hr, hid, hru⟩ := Users.usernameOf_eq_some.mp hname
    obtain ⟨registered', salt, hreg', hp'⟩ := hv.account row hr
    obtain rfl := hv.password_unique hreg (hid ▸ hreg')
    have hascii := ht.proper.ascii hr
    refine ⟨row, hr, ?_, (hverify hp').mpr hp.symm, ?_⟩
    · rw [hru]
      exact (eq_of_utf8Encode_eq (hru ▸ hascii) hu.symm).symm
    · rw [hid, hru]

/-- **Logging in** after any calls of `register`, `rename` and `login`: `login` returns an
account exactly if the account has the username now and was registered with the password,
and `null` otherwise; an account was registered with one password; and whoever has a name
now is the only one it authenticates. -/
theorem login_authenticates_current_name
    (hinj : ∀ salt, Function.Injective fun password => env.scrypt password salt)
    (h : Path step (start env .empty) past s) (username password : Units) :
    (∀ user, loginText env (s.users.rows.map UserRow.text) username password = some user ↔
      s.users.usernameOf user.id = some user.username ∧
      utf8Encode user.username = utf8Encode username ∧
      ∃ registered, RegisteredWith past s user.id registered ∧
        utf8Encode registered = utf8Encode password) ∧
    (Run step s (s.loginAlone username password) ∧
      (s.loginAlone username password).outcomes = s.outcomes ++
        [(s.calls, answer (loginText env (s.users.rows.map UserRow.text) username password))]) ∧
    (∀ id registered registered', RegisteredWith past s id registered →
      RegisteredWith past s id registered' → registered = registered') ∧
    ∀ id, s.users.usernameOf id = some username →
      ∀ user, loginText env (s.users.rows.map UserRow.text) username password = some user →
        user.id = id := by
  have hv := vouched_of_path h
  refine ⟨login_iff hinj h username password, ⟨run_loginAlone s username password, ?_⟩, ?_, ?_⟩
  · rw [(usernames_of_path proper_empty h).1.loginAlone, hv.platform]
  · intro id registered registered' hr hr'
    exact hv.password_unique hr hr'
  · intro id hid user hlogin
    obtain ⟨row, hr, hu, -, rfl⟩ := loginText_eq_some.mp hlogin
    exact Users.id_unique (Users.usernameOf_eq_some.mpr ⟨row, hr, rfl, hu⟩) hid

/-- A platform whose keys have 64 bytes, as long as the passwords have less. -/
def stretching : Env :=
  { Env.unary with scrypt := fun password _ =>
    password ++ 1 :: List.replicate (63 - password.length) 0 }

theorem stretching_injective (salt : Bytes) :
    Function.Injective fun password => stretching.scrypt password salt := by
  -- the last byte that is not 0 is where the password ends
  have hend (n m : ℕ) (p q : Bytes)
      (h : List.replicate n (0 : UInt8) ++ 1 :: p = List.replicate m 0 ++ 1 :: q) : p = q := by
    induction n generalizing m with
    | zero =>
      cases m with
      | zero => exact (List.cons.inj h).2
      | succ m => cases (List.cons.inj h).1
    | succ n ih =>
      cases m with
      | zero => cases (List.cons.inj h).1
      | succ m => exact ih m (List.cons.inj h).2
  intro p q h
  have h := congrArg List.reverse h
  simp only [stretching, List.reverse_append, List.reverse_cons, List.reverse_replicate,
    List.append_assoc,
    List.singleton_append] at h
  exact List.reverse_injective (hend _ _ _ _ h)

/-- `alice` registers and takes the name `bob`; then somebody else registers as `alice`. -/
def nameFreed : List UserEvent :=
  [.call (.register (units "alice") (units "password")), .resume 0,
    .call (.rename (Env.unary.uuid 1) (units "bob")),
    .call (.register (units "alice") (units "passphrase")), .resume 2]

/-- A call of `register` in a list of events that has returned the account. -/
theorem registeredWith_of_trace {s₀ : UserStore} {es : List UserEvent}
    {username password id : Units}
    (hc : ∃ e ∈ trace step s₀ es, e.2 = .call (.register username password) ∧ e.1.calls = i)
    (ho : (i, Outcome.registered ⟨id, username⟩) ∈ s.outcomes) :
    RegisteredWith (trace step s₀ es) s id password := by
  obtain ⟨⟨v, e⟩, hv, rfl, rfl⟩ := hc
  exact ⟨v, username, hv, ho⟩

set_option maxRecDepth 8000 in
/-- The password goes with the account, not with the name. -/
theorem bob_logs_in :
    ∃ past s, Path step (start stretching .empty) past s ∧
      loginText stretching (s.users.rows.map UserRow.text) (units "bob") (units "password") =
        some ⟨Env.unary.uuid 1, units "bob"⟩ ∧
      loginText stretching (s.users.rows.map UserRow.text) (units "alice") (units "passphrase") =
        some ⟨Env.unary.uuid 3, units "alice"⟩ ∧
      loginText stretching (s.users.rows.map UserRow.text) (units "alice") (units "password") =
        none := by
  have h : (execAllIn step (fun _ _ => True) (start stretching .empty) nameFreed).map
      (fun s => (s.users.usernameOf (Env.unary.uuid 1), s.users.usernameOf (Env.unary.uuid 3),
        s.outcomes)) =
      some (some (units "bob"), some (units "alice"),
        [(0, .registered ⟨Env.unary.uuid 1, units "alice"⟩), (1, .renamed),
          (2, .registered ⟨Env.unary.uuid 3, units "alice"⟩)]) := by decide
  obtain ⟨s, hs, he⟩ := exists_pathIn_of_execAllIn h
  simp only [Prod.mk.injEq] at he
  obtain ⟨hbob, halice, hout⟩ := he
  have hfirst : RegisteredWith (trace step (start stretching .empty) nameFreed) s
      (Env.unary.uuid 1) (units "password") :=
    @registeredWith_of_trace s 0 _ _ (units "alice") _ _ (by decide) (by rw [hout]; exact .head _)
  have hsecond : RegisteredWith (trace step (start stretching .empty) nameFreed) s
      (Env.unary.uuid 3) (units "passphrase") :=
    @registeredWith_of_trace s 2 _ _ (units "alice") _ _ (by decide)
      (by rw [hout]; exact .tail _ (.tail _ (.head _)))
  refine ⟨_, s, hs, ?_, ?_, ?_⟩
  · exact ((login_authenticates_current_name stretching_injective hs _ _).1 _).mpr
      ⟨hbob, rfl, _, hfirst, rfl⟩
  · exact ((login_authenticates_current_name stretching_injective hs _ _).1 _).mpr
      ⟨halice, rfl, _, hsecond, rfl⟩
  · obtain ⟨hiff, -, hunique, hid⟩ :=
      login_authenticates_current_name stretching_injective hs (units "alice") (units "password")
    refine Option.eq_none_iff_forall_ne_some.mpr fun user hl => ?_
    obtain ⟨-, -, registered, hreg, hp⟩ := (hiff user).mp hl
    rw [hid _ halice user hl] at hreg
    rw [hunique _ _ _ hreg hsecond] at hp
    exact absurd hp (by decide)

end UserStore

end ThreadLink.Gateway
