import ThreadLink.Gateway.Standing
import ThreadLink.Gateway.UserStore

/-!
# Nicknames and usernames

The chat server sees to it that nobody has the nickname of another client; the table of the
accounts, that no two accounts have one username. Neither asks the other. A session claims the
username of its account when it has been welcomed, and a rename is written to the table when
it has taken effect; what `UserStore.rename` throws then is swallowed. So a session that is
renamed to the username of somebody who is not connected keeps the nickname, and its account
the old username. And `login` reads the username before it waits for the hash.

## What is proved

* `Agrees` — what the sessions have to do with the accounts: each has the username it goes by,
  or claims, and no two sessions have one account.
* `Agrees.step` — it stays so while `KeepsNames`: nobody joins twice, or under an account that
  another session uses, or with a username that the account no longer has; and nobody that is
  ready takes a nickname that is the username of another account.
-/

namespace ThreadLink.Gateway

open Text Runs

/-- What a session goes by, or wants to before it is ready. -/
def Session.claimed (session : Session) : Option Units :=
  if session.readyAnnounced then some session.nickname else session.desiredUsername

theorem Session.claimed_of_ready {session : Session} (h : session.readyAnnounced = true) :
    session.claimed = some session.nickname :=
  if_pos h

theorem Session.claimed_of_unready {session : Session} (h : session.readyAnnounced = false) :
    session.claimed = session.desiredUsername := by
  rw [Session.claimed, h]
  rfl

instance (users : Users) (a : Attempt) : Decidable (a.Sound users) :=
  match a with
  | .register _ _ | .login _ _ _ => inferInstanceAs (Decidable (_ = _))

/-- No other account has the username. -/
def Users.Free (users : Users) (username id : Units) : Prop :=
  ∀ r ∈ users.rows, r.username = username → r.id = id

instance (users : Users) (username id : Units) : Decidable (users.Free username id) :=
  inferInstanceAs (Decidable (∀ r ∈ users.rows, _))

namespace GatewayServer

variable {s s' t : GatewayServer} {e : Event} {w x y : WsId} {a : Attempt} {account : UserRecord}
  {users : Users} {id : Units}

/-! ### The conditions -/

/-- Whether a session uses its account: it is ready and has not been closed, or its backend
connection has not ended. -/
def Present (s : GatewayServer) (x : WsId) : Prop :=
  ((s.sessions x).readyAnnounced = true ∧ (s.sessions x).closed = false) ∨
    ∃ b < s.nextBackend, (s.backends b).owner = x ∧
      ((s.backends b).socket = .connecting ∨ (s.backends b).socket = .opened)

instance (s : GatewayServer) (x : WsId) : Decidable (s.Present x) :=
  inferInstanceAs (Decidable (_ ∨ _))

/-- **The first condition**: no session joins under an account that another one uses. -/
def JoinsUnused (s : GatewayServer) (e : Event) : Prop :=
  ∀ j ∈ s.joinsAs e, ∀ x < s.nextWs, x ≠ j.1 → (s.sessions x).id = j.2 → ¬s.Present x

instance (s : GatewayServer) (e : Event) : Decidable (JoinsUnused s e) :=
  inferInstanceAs (Decidable (∀ j ∈ s.joinsAs e, _))

/-- **The second**: when a session joins, its attempt is as sound as it was before it had to
wait for the hash. So the account has the username that was read. -/
def JoinsCurrent (s : GatewayServer) : Event → Prop
  | .authDone i =>
    (s.joins (.authDone i)).isSome = true → ∀ a ∈ s.hashing[i]?, a.2.Sound s.store.users
  | _ => True

instance (s : GatewayServer) (e : Event) : Decidable (JoinsCurrent s e) :=
  match e with
  | .authDone _ => inferInstanceAs (Decidable (_ → _))
  | .connection | .message _ _ _ | .wsClosing _ | .wsClose _ | .connected _ | .connectFailed _
  | .backendFrame _ _
  | .backendOversized _ | .backendClose _ | .shutdown => isTrue trivial

/-- The nickname a session takes for its own. -/
def takes (s : GatewayServer) (w : WsId) : BackendEvent → Option Units
  | .nick oldNick newNick => if oldNick = (s.sessions w).nickname then some newNick else none
  | _ => none

/-- **The third**: a nickname a session takes is the username of no other account, if it is
ready, and before that the username it claims. -/
def TakesFree (s : GatewayServer) : Event → Prop
  | .backendFrame b p =>
    ∀ newNick ∈ s.takes (s.backends b).owner (parseBackendLine (utf8Decode p)),
      if (s.sessions (s.backends b).owner).readyAnnounced then
        s.store.users.Free newNick (s.sessions (s.backends b).owner).id
      else (s.sessions (s.backends b).owner).desiredUsername = some newNick
  | _ => True

instance (s : GatewayServer) (e : Event) : Decidable (TakesFree s e) :=
  match e with
  | .backendFrame _ _ => inferInstanceAs (Decidable (∀ newNick ∈ _, _))
  | .connection | .message _ _ _ | .wsClosing _ | .wsClose _ | .authDone _ | .connected _
  | .connectFailed _
  | .backendOversized _ | .backendClose _ | .shutdown => isTrue trivial

/-- **The condition** on a step. -/
def KeepsNames (s : GatewayServer) (e : Event) : Prop :=
  JoinsOnce s e ∧ JoinsUnused s e ∧ JoinsCurrent s e ∧ TakesFree s e

instance (s : GatewayServer) (e : Event) : Decidable (KeepsNames s e) :=
  inferInstanceAs (Decidable (_ ∧ _ ∧ _ ∧ _))

theorem TakesFree.of_nick {b : BackendId} {p : Bytes} {newNick : Units}
    (h : TakesFree s (.backendFrame b p)) (ho : (s.backends b).owner = w)
    (he : parseBackendLine (utf8Decode p) = .nick (s.sessions w).nickname newNick) :
    if (s.sessions w).readyAnnounced then s.store.users.Free newNick (s.sessions w).id
    else (s.sessions w).desiredUsername = some newNick := by
  subst ho
  exact h newNick (by rw [he, takes, if_pos rfl]; rfl)

/-! ### The accounts -/

/-- What an attempt gives leaves the usernames of the accounts there are. -/
theorem usernameOf_outcome (ho : s.outcome a = some (account, users))
    (hid : id ∈ s.store.users.ids) : users.usernameOf id = s.store.users.usernameOf id := by
  cases a with
  | register username password =>
    obtain ⟨users', hu, he⟩ := Option.map_eq_some_iff.mp ho
    obtain ⟨-, rfl⟩ := Prod.mk.inj he
    rw [Users.usernameOf_insert hu, if_neg]
    -- the id of the new account is none of theirs
    rintro rfl
    have hn := users'.idNodup
    rw [Users.rows_insert hu, List.map_append] at hn
    exact (List.nodup_append'.mp hn).2.2 hid (List.mem_singleton_self _)
  | login id username ok =>
    obtain ⟨-, he⟩ := Option.ite_none_right_eq_some.mp ho
    obtain ⟨-, rfl⟩ := Prod.mk.inj (Option.some.inj he)
    rfl

/-- The account it gives has its username, if the attempt is sound yet. -/
theorem usernameOf_account (ho : s.outcome a = some (account, users)) (ha : a.Sound s.store.users) :
    users.usernameOf account.id = some account.username := by
  cases a with
  | register username password =>
    obtain ⟨users', hu, he⟩ := Option.map_eq_some_iff.mp ho
    obtain ⟨rfl, rfl⟩ := Prod.mk.inj he
    rw [Users.usernameOf_insert hu, if_pos rfl]
  | login id username ok =>
    obtain ⟨-, he⟩ := Option.ite_none_right_eq_some.mp ho
    obtain ⟨rfl, rfl⟩ := Prod.mk.inj (Option.some.inj he)
    exact ha

/-- The usernames stay proper. -/
theorem proper_outcome (ho : s.outcome a = some (account, users)) (ha : UserStore.Sound a)
    (hp : UserStore.Proper s.store.users) : UserStore.Proper users := by
  cases a with
  | register username password =>
    obtain ⟨users', hu, he⟩ := Option.map_eq_some_iff.mp ho
    obtain ⟨-, rfl⟩ := Prod.mk.inj he
    refine hp.insert ?_ hu
    exact ha
  | login id username ok =>
    obtain ⟨-, he⟩ := Option.ite_none_right_eq_some.mp ho
    obtain ⟨-, rfl⟩ := Prod.mk.inj (Option.some.inj he)
    exact hp

theorem Change.proper (h : Change s e t) (ha : ∀ a ∈ s.hashing, UserStore.Sound a.2)
    (hp : UserStore.Proper s.store.users) : UserStore.Proper t.store.users := by
  cases h with
  | elsewhere hi ho => exact proper_outcome ho (ha _ (List.mem_of_getElem? hi)) hp
  | joined hi ho => exact proper_outcome ho (ha _ (List.mem_of_getElem? hi)) hp
  | wsClose =>
    rw [leave_eq]
    exact hp
  | @rename b _ _ newNick =>
    show UserStore.Proper ((s.store.users.rename _ newNick).getD s.store.users)
    cases hr : s.store.users.rename (s.sessions (s.backends b).owner).id newNick with
    | none => exact hp
    | some users => exact hp.rename hr
  | backendClose _ f => cases f <;> exact hp
  | shutdown =>
    rw [close_eq]
    exact hp
  | _ => exact hp

/-- Unless a session is renamed that is ready, the accounts there are keep their usernames. -/
theorem Change.usernameOf (h : Change s e t) (hid : id ∈ s.store.users.ids)
    (hn : ∀ b p, e = .backendFrame b p →
      s.renames (s.backends b).owner (parseBackendLine (utf8Decode p)) = false) :
    t.store.users.usernameOf id = s.store.users.usernameOf id := by
  cases h with
  | elsewhere _ ho => exact usernameOf_outcome ho hid
  | joined _ ho => exact usernameOf_outcome ho hid
  | wsClose =>
    rw [leave_eq]
    rfl
  | rename hb he ho hr =>
    have hf := hn _ _ rfl
    rw [he, GatewayServer.renames, ho, hr] at hf
    simp at hf
  | backendClose _ f => cases f <;> rfl
  | shutdown => rw [close_eq]
  | _ => rfl

/-! ### The sessions that use an account -/

theorem Present.of_opened (hj : Joined s) {b : BackendId} (hb : (s.backends b).socket = .opened)
    (ho : (s.backends b).owner = x) : s.Present x :=
  .inr ⟨b, Nat.lt_of_not_le fun hle => (hj.uncreated b hle).2 hb, ho, .inr hb⟩

/-- It is not ready after a step that has neither been so before nor has been heard of. -/
theorem Becomes.present {z : Session} (h : Becomes s x e z) (hj : Joined s)
    (hr : z.readyAnnounced = true) (hc : z.closed = false) : s.Present x := by
  cases h with
  | stays => exact .inl ⟨hr, hc⟩
  | closing => exact .inl ⟨hr, hc⟩
  | arrives => cases hr
  | closed => cases hc
  | joins => exact .inl ⟨hr, hc⟩
  | welcome hb ho => exact .of_opened hj hb ho
  | welcomeReady hb ho => exact .of_opened hj hb ho
  | nickReady hb ho => exact .of_opened hj hb ho
  | rename hb ho => exact .of_opened hj hb ho

/-- A session joins. -/
inductive Joining (s : GatewayServer) (w : WsId) : Event → GatewayServer → Prop where
  /-- Its hash is there, and its account is not connected elsewhere. -/
  | mk {i : ℕ} {a : Attempt} {account : UserRecord} {users : Users} {t : GatewayServer}
    (hi : s.hashing[i]? = some (w, a)) (ho : s.outcome a = some (account, users))
    (hc : s.connectedElsewhere account.id = false)
      (ht : t = ((s.wake i).setUsers users).join w account) :
    Joining s w (.authDone i) t

/-- Who uses an account after a step has used it before, or joins in it. -/
theorem Change.present (h : Change s e t) (hj : Joined s) (hp : t.Present x) :
    s.Present x ∨ Joining s x e t := by
  rcases hp with ⟨hr, hc⟩ | ⟨b, hlt, ho, hb⟩
  · exact .inl ((h.becomes x).present hj hr hc)
  · have hstays (hs : Stays s t) : s.Present x :=
      .inr ⟨b, hs.nextBackend ▸ hlt, (hs.owner b).symm.trans ho,
        hb.elim (fun hb => .inl (hs.connecting b hb)) (hs.opened b)⟩
    cases h.moves with
    | arrives => exact .inl (.inr ⟨b, hlt, ho, hb⟩)
    | @joins i w a account users hi hout hn =>
      by_cases hbn : b = s.nextBackend
      · subst hbn
        have how :
            ((Function.update s.backends s.nextBackend ⟨w, .connecting, false⟩)
              s.nextBackend).owner = x := ho
        rw [Function.update_self] at how
        obtain rfl : w = x := how
        exact .inr (.mk hi hout hn rfl)
      · have hold : (Function.update s.backends s.nextBackend ⟨w, .connecting, false⟩) b =
            s.backends b :=
          Function.update_of_ne hbn ..
        change (Function.update s.backends s.nextBackend ⟨w, .connecting, false⟩ b).owner = x at ho
        change (Function.update s.backends s.nextBackend ⟨w, .connecting, false⟩ b).socket =
          .connecting ∨
          (Function.update s.backends s.nextBackend ⟨w, .connecting, false⟩ b).socket =
          .opened at hb
        rw [hold] at ho hb
        exact .inl (.inr ⟨b, Nat.lt_of_le_of_ne (Nat.lt_succ_iff.mp hlt) hbn, ho, hb⟩)
    | leaves hs => exact .inl (hstays hs)
    | fails hs => exact .inl (hstays hs)
    | stays hs => exact .inl (hstays hs)

/-! ### The invariant -/

/-- **The names of the sessions agree with those of their accounts.** -/
structure Agrees (s : GatewayServer) : Prop where
  /-- The usernames are proper. -/
  proper : UserStore.Proper s.store.users
  /-- So are those that registers wait with. -/
  attempts : ∀ a ∈ s.hashing, UserStore.Sound a.2
  /-- No two sessions use one account. -/
  alone : ∀ x y, s.Present x → s.Present y → (s.sessions x).id = (s.sessions y).id → x = y
  /-- A session that uses one goes by its username, or claims it. -/
  named : ∀ x, s.Present x → s.store.users.usernameOf (s.sessions x).id = (s.sessions x).claimed

theorem agrees_init (env : Env) (config : GatewayConfig) : Agrees (init env config) where
  proper := UserStore.proper_empty
  attempts _ h := absurd h List.not_mem_nil
  alone x y h := by
    rcases h with ⟨h, -⟩ | ⟨b, h, -⟩
    · cases h
    · exact absurd h (Nat.not_lt_zero b)
  named x h := by
    rcases h with ⟨h, -⟩ | ⟨b, h, -⟩
    · cases h
    · exact absurd h (Nat.not_lt_zero b)

/-- Who is ready has joined and been welcomed. -/
def Introduced (s : GatewayServer) : Prop :=
  ∀ w, (s.sessions w).readyAnnounced = true → (s.sessions w).authenticated = true ∧
    (s.sessions w).welcomed = true

theorem Present.authenticated (h : s.Present x) (hj : Joined s) (hr : s.Introduced) :
    (s.sessions x).authenticated = true := by
  rcases h with ⟨h, -⟩ | ⟨b, hb, rfl, -⟩
  · exact (hr x h).1
  · exact hj.owner b hb

/-- Only who is ready is renamed; before that a session is told what it claims. -/
theorem Agrees.becomes (h : Agrees s) (hk : Known s) (hr : s.Introduced) (hC : KeepsNames s e)
    (hi : InOrder s e)
    (hn : ∀ b p, e = .backendFrame b p →
      s.renames (s.backends b).owner (parseBackendLine (utf8Decode p)) = false)
    {z : Session} (hb : Becomes s x e z) (hp : s.Present x) :
    z.id = (s.sessions x).id ∧ z.claimed = (s.sessions x).claimed := by
  have hauth := hp.authenticated hk.joined hr
  have hnamed := h.named x hp
  -- nobody is welcomed who is ready
  have hfresh {b : BackendId} {p : Bytes} {nickname : Units}
    (hw : parseBackendLine (utf8Decode p) = .welcome nickname)
      (ho : (s.backends b).owner = x) (he : e = .backendFrame b p) :
      (s.sessions x).readyAnnounced = false := by
    subst he
    simp only [InOrder, hw, expects, ho] at hi
    cases hready : (s.sessions x).readyAnnounced with
    | false => rfl
    | true =>
      rw [(hr x hready).2] at hi
      cases hi
  cases hb with
  | stays => exact ⟨rfl, rfl⟩
  | closing => exact ⟨rfl, rfl⟩
  | arrives hx => exact absurd (hk.joined.lt_nextWs hauth) (by rw [hx]; exact lt_irrefl _)
  | closed => exact ⟨rfl, rfl⟩
  | joins hw ho hce => exact Bool.noConfusion (hauth.symm.trans (hC.1 x (mem_joins hw ho hce)))
  | @welcome b p nickname hb ho he =>
    have hf := hfresh he ho rfl
    have hf' : ((s.sessions x).welcome nickname).readyAnnounced = false := hf
    exact ⟨rfl, by rw [Session.claimed_of_unready hf, Session.claimed_of_unready hf']; rfl⟩
  | @welcomeReady b p nickname hb ho he hm =>
    have hf := Session.claimed_of_unready (hfresh he ho rfl)
    rw [hf] at hnamed
    refine ⟨rfl, ?_⟩
    rw [Session.claimed_of_ready rfl, hf]
    -- it claims its username, so that is what it has been welcomed with
    have hd : (s.sessions x).desiredUsername = some nickname := by
      cases hd : (s.sessions x).desiredUsername with
      | none =>
        have hid := hk.session x hauth
        rw [hd] at hnamed
        obtain ⟨r, hr, hid⟩ := List.mem_map.mp hid
        rw [Users.usernameOf_eq_some.mpr ⟨r, hr, hid, rfl⟩] at hnamed
        cases hnamed
      | some username =>
        rw [hd] at hnamed
        obtain ⟨r, hr, -, rfl⟩ := Users.usernameOf_eq_some.mp hnamed
        have hv := h.proper r hr
        simp only [Session.mustClaim, Session.welcome, hd, Bool.and_eq_false_iff,
          Bool.not_eq_false',
          bne_eq_false_iff_eq, List.isEmpty_iff] at hm
        rcases hm with hm | hm
        · rw [hm] at hv
          cases hv
        · rw [hm]
    rw [hd]
    rfl
  | @nickReady b p newNick hb ho he hready =>
    have hf := hC.2.2.2.of_nick ho he
    rw [hready] at hf
    refine ⟨rfl, ?_⟩
    rw [Session.claimed_of_ready rfl, Session.claimed_of_unready hready,
      show (s.sessions x).desiredUsername = some newNick from hf]
    rfl
  | @rename b p newNick hb ho he hready =>
    have hf := hn b p rfl
    rw [he, ho, GatewayServer.renames, hready] at hf
    simp at hf

/-- The attempts that wait have proper names. -/
theorem Agrees.attempts_change (h : Agrees s) (hc : Change s e t) :
    ∀ a ∈ t.hashing, UserStore.Sound a.2 := by
  intro a ha
  rcases hc.hashing a ha with ha | ⟨n, v, -, hs, -⟩
  · exact h.attempts a ha
  · obtain ⟨w, a⟩ := a
    cases a with
    | register => exact hs
    | login => trivial

/-- A session joins: it has its account for itself. -/
theorem Agrees.join (h : Agrees s) (hk : Known s) (hr : s.Introduced) (hC : KeepsNames s e)
    (hc : Change s e t) (hj : Joining s w e t) : Agrees t := by
  have hproper := hc.proper h.attempts h.proper
  have hattempts := h.attempts_change hc
  have hpresent {x : WsId} (hp : t.Present x) := hc.present hk.joined hp
  obtain ⟨hi, ho, hce, ht⟩ := hj
  rename_i i a account users
  have hself : t.sessions w = Session.joined (s.sessions w) account s.nextBackend :=
    ht ▸ sessions_join_self _ w account
  have hne {x : WsId} (hx : x ≠ w) : t.sessions x = s.sessions x :=
    ht ▸ sessions_join_of_ne _ hx account
  have hfresh : (s.sessions w).readyAnnounced = false := by
    have hauth := hC.1 w (mem_joins hi ho hce)
    cases hready : (s.sessions w).readyAnnounced with
    | false => rfl
    | true => exact Bool.noConfusion ((hr w hready).1.symm.trans hauth)
  have husers : t.store.users = users := ht ▸ rfl
  have hother {x : WsId} (hp : t.Present x) (hxw : x ≠ w) :
      s.Present x ∧ (s.sessions x).id ≠ account.id := by
    have hold : s.Present x := by
      rcases hpresent hp with hp | ⟨hi', -, -⟩
      · exact hp
      · exact absurd (Prod.mk.inj (Option.some.inj (hi'.symm.trans hi))).1 hxw
    exact ⟨hold, fun hid =>
      hC.2.1 _ (mem_joinsAs hi ho hce) x (hk.joined.lt_nextWs (hold.authenticated hk.joined hr)) hxw
        hid hold⟩
  refine ⟨hproper, hattempts, ?_, ?_⟩
  · intro x y hx hy hid
    by_cases hxw : x = w
    · by_cases hyw : y = w
      · rw [hxw, hyw]
      · rw [hxw, hself, hne hyw] at hid
        exact absurd hid.symm (hother hy hyw).2
    · by_cases hyw : y = w
      · rw [hyw, hself, hne hxw] at hid
        exact absurd hid (hother hx hxw).2
      · rw [hne hxw, hne hyw] at hid
        exact h.alone x y (hother hx hxw).1 (hother hy hyw).1 hid
  · intro x hx
    rw [husers]
    by_cases hxw : x = w
    · have hsound : a.Sound s.store.users := hC.2.2.1 (by rw [mem_joins hi ho hce]; rfl) _ hi
      have hfresh' : (Session.joined (s.sessions w) account s.nextBackend).readyAnnounced = false :=
        hfresh
      rw [hxw, hself]
      exact (usernameOf_account ho hsound).trans (Session.claimed_of_unready hfresh').symm
    · have hold := (hother hx hxw).1
      rw [hne hxw, ← h.named x hold]
      exact usernameOf_outcome ho (hk.session x (hold.authenticated hk.joined hr))

/-- What a rename of a session does that is ready. -/
theorem Change.of_renames {b : BackendId} {p : Bytes} (hc : Change s (.backendFrame b p) t)
    (hn : s.renames (s.backends b).owner (parseBackendLine (utf8Decode p)) = true) :
    ∃ newNick, (s.backends b).socket = .opened ∧
      (s.sessions (s.backends b).owner).readyAnnounced = true ∧
      parseBackendLine (utf8Decode p) = .nick (s.sessions (s.backends b).owner).nickname newNick ∧
      t.sessions (s.backends b).owner = (s.sessions (s.backends b).owner).rename newNick ∧
      (∀ x, x ≠ (s.backends b).owner → t.sessions x = s.sessions x) ∧
      t.store.users = (s.store.users.rename (s.sessions (s.backends b).owner).id newNick).getD
        s.store.users := by
  cases hc with
  | @rename _ _ oldNick newNick hb he ho hr =>
    refine ⟨newNick, hb, hr, ho ▸ he, ?_, ?_, rfl⟩
    · show (s.modifySession _ fun session => session.rename newNick).sessions _ = _
      rw [sessions_modifySession_self]
    · intro x hx
      show (s.modifySession _ fun session => session.rename newNick).sessions _ = _
      rw [sessions_modifySession_of_ne s hx]
  | frame hb hw hno =>
    cases he : parseBackendLine (utf8Decode p) with
    | nick oldNick newNick =>
      rw [he, GatewayServer.renames, Bool.and_eq_true, beq_iff_eq] at hn
      exact absurd hn.1 (hno oldNick newNick he)
    | _ =>
      rw [he] at hn
      cases hn
  | nickReady hb he ho hr =>
    rw [he, GatewayServer.renames, hr, Bool.and_false] at hn
    cases hn
  | nickTaken hb he =>
    rw [he] at hn
    cases hn
  | welcome hb he =>
    rw [he] at hn
    cases hn
  | welcomeReady hb he =>
    rw [he] at hn
    cases hn

/-- A session that is ready is renamed: the table has room for its new name. -/
theorem Agrees.rename (h : Agrees s) (hk : Known s) (hr : s.Introduced) {b : BackendId} {p : Bytes}
    (hf : TakesFree s (.backendFrame b p))
    (hv : ∀ oldNick newNick, parseBackendLine (utf8Decode p) = .nick oldNick newNick →
      validateUsername newNick = none)
    (hc : Change s (.backendFrame b p) t)
    (hn : s.renames (s.backends b).owner (parseBackendLine (utf8Decode p)) = true) : Agrees t := by
  obtain ⟨newNick, hb, hready, he, hself, hne, hstore⟩ := hc.of_renames hn
  have hfree := hf.of_nick rfl he
  rw [if_pos hready] at hfree
  have hp : s.Present (s.backends b).owner := .of_opened hk.joined hb rfl
  generalize (s.backends b).owner = w at *
  obtain ⟨users, hu⟩ := Option.isSome_iff_exists.mp (Users.rename_of_free (hv _ _ he) hfree)
  rw [hu, Option.getD_some] at hstore
  have hold {x : WsId} (hp : t.Present x) : s.Present x := by
    rcases hc.present hk.joined hp with hp | hj
    · exact hp
    · cases hj
  have hid (x : WsId) : (t.sessions x).id = (s.sessions x).id := by
    by_cases hx : x = w
    · rw [hx, hself]
      rfl
    · rw [hne x hx]
  refine ⟨hc.proper h.attempts h.proper, h.attempts_change hc, ?_, ?_⟩
  · intro x y hx hy he
    rw [hid, hid] at he
    exact h.alone x y (hold hx) (hold hy) he
  · intro x hx
    rw [hstore, hid, Users.usernameOf_rename hu]
    by_cases hxw : x = w
    · have hready' : ((s.sessions w).rename newNick).readyAnnounced = true := hready
      rw [hxw, hself, if_pos ⟨rfl, hk.session w (hp.authenticated hk.joined hr)⟩,
        Session.claimed_of_ready hready']
      rfl
    · rw [if_neg fun he => hxw (h.alone x w (hold hx) hp he.1), hne x hxw]
      exact h.named x (hold hx)

theorem Agrees.change (h : Agrees s) (hk : Known s) (hr : s.Introduced) (hC : KeepsNames s e)
    (hi : InOrder s e)
    (hv : ∀ b p, e = .backendFrame b p → ∀ oldNick newNick,
      parseBackendLine (utf8Decode p) = .nick oldNick newNick → validateUsername newNick = none)
    (hc : Change s e t) : Agrees t := by
  by_cases hn : ∃ b p, e = .backendFrame b p ∧
    s.renames (s.backends b).owner (parseBackendLine (utf8Decode p)) = true
  · obtain ⟨b, p, rfl, hn⟩ := hn
    exact h.rename hk hr hC.2.2.2 (hv b p rfl) hc hn
  · have hn : ∀ b p, e = .backendFrame b p →
        s.renames (s.backends b).owner (parseBackendLine (utf8Decode p)) = false :=
      fun b p he => Bool.eq_false_iff.mpr fun hrn => hn ⟨b, p, he, hrn⟩
    -- a session that does not join has its account as before
    have hkeeps (hj : ∀ x, t.Present x → s.Present x) : Agrees t := by
      have hx {x : WsId} (hp : t.Present x) := h.becomes hk hr hC hi hn (hc.becomes x) (hj x hp)
      refine ⟨hc.proper h.attempts h.proper, h.attempts_change hc, ?_, ?_⟩
      · intro x y hp hq hid
        rw [(hx hp).1, (hx hq).1] at hid
        exact h.alone x y (hj x hp) (hj y hq) hid
      · intro x hp
        rw [(hx hp).1, (hx hp).2, ← h.named x (hj x hp)]
        exact hc.usernameOf (hk.session x ((hj x hp).authenticated hk.joined hr)) hn
    by_cases hj : ∃ w, Joining s w e t
    · obtain ⟨w, hj⟩ := hj
      exact h.join hk hr hC hc hj
    · apply hkeeps
      intro x hp
      rcases hc.present hk.joined hp with hx | hx
      · exact hx
      · exact absurd ⟨x, hx⟩ hj

theorem Present.same (h : t.Present x) (hs : Same s t) : s.Present x := by
  obtain ⟨p, q, hx⟩ := hs.sessions x
  unfold Present at h ⊢
  rw [hx, hs.nextBackend, hs.backends] at h
  exact h

/-- A deed changes no names. -/
theorem Agrees.same (h : Agrees s) (hs : Same s t) : Agrees t := by
  have hx (x : WsId) : (t.sessions x).id = (s.sessions x).id ∧
      (t.sessions x).claimed = (s.sessions x).claimed := by
    obtain ⟨p, q, hx⟩ := hs.sessions x
    rw [hx]
    exact ⟨rfl, rfl⟩
  refine ⟨hs.users ▸ h.proper, hs.hashing ▸ h.attempts, ?_, ?_⟩
  · intro x y hp hq hid
    rw [(hx x).1, (hx y).1] at hid
    exact h.alone x y (hp.same hs) (hq.same hs) hid
  · intro x hp
    rw [(hx x).1, (hx x).2, hs.users]
    exact h.named x (hp.same hs)

/-- **The names go on agreeing.** -/
theorem Agrees.step (h : Agrees s) (hk : Known s) (hr : s.Introduced) (hC : KeepsNames s e)
    (hi : InOrder s e)
    (hv : ∀ b p, e = .backendFrame b p → ∀ oldNick newNick,
      parseBackendLine (utf8Decode p) = .nick oldNick newNick → validateUsername newNick = none)
    (hs : s.step e = some s') : Agrees s' := by
  obtain ⟨t, hc, hd⟩ := step_deeds hs
  exact (h.change hk hr hC hi hv hc).same hd.same

/-- Whoever is ready, and has not been closed, goes by the username of its account. -/
theorem Agrees.nickname (h : Agrees s) (hr : (s.sessions w).readyAnnounced = true)
    (hc : (s.sessions w).closed = false) :
    s.store.users.usernameOf (s.sessions w).id = some (s.sessions w).nickname :=
  (h.named w (.inl ⟨hr, hc⟩)).trans (Session.claimed_of_ready hr)

end GatewayServer

end ThreadLink.Gateway
