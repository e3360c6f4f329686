import ThreadLink.Backend.Clients
import ThreadLink.Backend.DefaultNicknames
import ThreadLink.Backend.Routing
import ThreadLink.Lib.Refinement
import Mathlib.Data.Set.Card

/-!
# The chat room

What the server is for: a room that clients enter, each under a name that nobody else in
it uses, where they may take another name, speak to everybody or to one, and which they
leave. There are no descriptor numbers, threads or locks in it, and each of these is one
event.

## What is proved

* `server_refines_room` — in every run of `Backend.Server`, whatever the order in which
  its threads run their blocks and whatever descriptor numbers `::accept` returns, the
  blocks that look at the registry are the events of a room; what each leaves to be sent
  is what the room says, and to whom.

What is left to be sent is written later, block by block; `Backend.Delivery` and
`Backend.Welcome` say when it reaches the clients it is for.
-/

namespace ThreadLink.Backend

open Text Runs

/-- A room for at most `max` members. -/
@[ext]
structure Room (max : ℤ) where
  /-- The members, with their names. One that is not yet welcomed hears nothing. -/
  member : ConnId → Option ClientRecord
  /-- No two members use the same name. -/
  unique : ∀ i j r q, member i = some r → member j = some q → r.nickname = q.nickname → i = j
  /-- The names are valid. -/
  valid : ∀ i r, member i = some r → isValidNickname r.nickname = true
  /-- There are finitely many members. -/
  finite : {i | (member i).isSome = true}.Finite
  /-- There is room for all of them. -/
  capacity : ({i | (member i).isSome = true}.ncard : ℤ) ≤ max

/-- What is to be sent. -/
inductive Announcement where
  /-- A line for one client. -/
  | to (k : ConnId) (line : ServerLine)
  /-- A line for all who are welcomed, but perhaps one. -/
  | toAll (except : Option ConnId) (line : ServerLine)
  deriving DecidableEq, Repr

/-- What happens in a room. -/
inductive RoomEvent where
  /-- A client asks to enter. -/
  | enter (c : ConnId)
  /-- A member is welcomed. -/
  | welcome (c : ConnId)
  /-- A member says something to all. -/
  | say (c : ConnId) (text : Bytes)
  /-- A member asks for a name. -/
  | rename (c : ConnId) (name : Bytes)
  /-- A member says something to the one who uses a name. -/
  | tell (c : ConnId) (name text : Bytes)
  /-- A member asks who is there. -/
  | list (c : ConnId)
  /-- A member leaves. -/
  | leave (c : ConnId)
  /-- Those are looked up who are to hear a line. -/
  | gather (except : Option ConnId) (line : ServerLine)
  deriving DecidableEq, Repr

namespace Room

variable {max : ℤ}

/-- A room with nobody in it. -/
def empty (h : 0 ≤ max) : Room max where
  member _ := none
  unique _ _ _ _ h := by cases h
  valid _ _ h := by cases h
  finite := by simp
  capacity := by simpa using h

/-- A name is in use. -/
def Uses (R : Room max) (name : Bytes) : Prop := ∃ i r, R.member i = some r ∧ r.nickname = name

/-- A member is welcomed and uses a name. -/
def Answers (R : Room max) (i : ConnId) (name : Bytes) : Prop :=
  ∃ r, R.member i = some r ∧ r.welcomed = true ∧ r.nickname = name

/-- A line that says why something is not done. -/
def refusal (c : ConnId) (code text : Bytes) : List Announcement := [.to c (.err code text)]

/-- **What may happen in a room**, and what is to be sent then. -/
inductive Step (R : Room max) : RoomEvent → List Announcement → Room max → Prop
  /-- A client enters under the first default name that is free. -/
  | enter {c : ConnId} {n : ℕ} {R' : Room max} (hc : R.member c = none) (hpos : 1 ≤ n)
    (hn : ¬ R.Uses (defaultNickname n)) (hleast : ∀ m, 1 ≤ m → m < n → R.Uses (defaultNickname m))
    (h : R'.member = Function.update R.member c (some ⟨defaultNickname n, false⟩)) :
    Step R (.enter c)
      [.to c (.welcome (defaultNickname n)),
        .toAll (some c) (.sys (defaultNickname n ++ bytes " has joined."))] R'
  /-- There is no room for it. -/
  | turnAway {c : ConnId} (hfull : max ≤ {i | (R.member i).isSome = true}.ncard) :
    Step R (.enter c)
      (refusal c (bytes "SERVER_FULL") (bytes "Server is full, try again later")) R
  /-- It is welcomed. -/
  | welcome {c : ConnId} {r : ClientRecord} {R' : Room max} (hr : R.member c = some r)
    (h : R'.member = Function.update R.member c (some { r with welcomed := true })) :
    Step R (.welcome c) [] R'
  /-- A member says something. -/
  | say {c : ConnId} {text : Bytes} {r : ClientRecord} (hr : R.member c = some r) :
    Step R (.say c text) [.toAll (some c) (.msg r.nickname text)] R
  /-- A member takes a valid name that no other uses. -/
  | rename {c : ConnId} {name : Bytes} {r : ClientRecord} {R' : Room max}
    (hr : R.member c = some r) (hv : isValidNickname name = true)
    (hfree : ∀ i q, R.member i = some q → q.nickname = name → i = c)
    (h : R'.member = Function.update R.member c (some { r with nickname := name })) :
    Step R (.rename c name) [.toAll none (.nick r.nickname name)] R'
  /-- Another uses it. -/
  | taken {c i : ConnId} {name : Bytes} {r q : ClientRecord} (hr : R.member c = some r)
    (hi : R.member i = some q) (hq : q.nickname = name) (hne : i ≠ c) :
    Step R (.rename c name)
      (refusal c (bytes "NICK_TAKEN") (bytes "Nickname '" ++ name ++ bytes "' is already in use")) R
  /-- A member says something to another. -/
  | tell {c i : ConnId} {name text : Bytes} {r : ClientRecord} (hr : R.member c = some r)
    (hi : R.Answers i name) (hne : i ≠ c) :
    Step R (.tell c name text) [.to i (.priv r.nickname text), .to c (.privSent name text)] R
  /-- Nobody answers to the name. -/
  | notFound {c : ConnId} {name text : Bytes} {r : ClientRecord} (hr : R.member c = some r)
    (hn : ∀ i, ¬ R.Answers i name) :
    Step R (.tell c name text)
      (refusal c (bytes "USER_NOT_FOUND") (bytes "User '" ++ name ++ bytes "' not found")) R
  /-- The member does. -/
  | self {c : ConnId} {name text : Bytes} (hc : R.Answers c name) :
    Step R (.tell c name text)
      (refusal c (bytes "MSG_SELF") (bytes "You cannot send a private message to yourself")) R
  /-- A member is told the names, in order. -/
  | list {c : ConnId} {r : ClientRecord} {names : List Bytes} (hr : R.member c = some r)
    (hs : names.Pairwise (· ≤ ·)) (hd : names.Nodup)
    (hm : ∀ name, name ∈ names ↔ ∃ i, R.Answers i name) :
    Step R (.list c) [.to c (.list names)] R
  /-- A member leaves. -/
  | leave {c : ConnId} {r : ClientRecord} {R' : Room max} (hr : R.member c = some r)
    (h : R'.member = Function.update R.member c none) :
    Step R (.leave c) [.toAll (some c) (.sys (r.nickname ++ bytes " has left."))] R'
  /-- A line is for those who are welcomed, each once. -/
  | gather {except : Option ConnId} {line : ServerLine} {audience : List ConnId}
    (hd : audience.Nodup)
    (hm : ∀ i, i ∈ audience ↔ some i ≠ except ∧ ∃ name, R.Answers i name) :
    Step R (.gather except line) (audience.map fun i => .to i line) R

end Room

namespace Server

variable {s s₁ s' : Server} {t : Tid} {ch : Choice} {a : Action} {op : Op} {new rest : List Op}
  {c k : ConnId} {fd : Fd} {r : ClientRecord} {config : LoadedConfig}

/-! ### The room of a state -/

/-- The record of a connection. -/
def member (s : Server) (k : ConnId) : Option ClientRecord :=
  if s.fds (s.fdOf k) = some k then s.clients.find? (s.fdOf k) else none

/-- A record is the member's whose descriptor it is under. -/
theorem member_eq_some (hI : Inv s) :
    s.member k = some r ↔ ∃ fd, s.fds fd = some k ∧ s.clients.find? fd = some r := by
  unfold member
  constructor
  · intro h
    split_ifs at h with hk
    exact ⟨_, hk, h⟩
  · rintro ⟨fd, hk, hr⟩
    obtain ⟨rfl, -⟩ := (hI.fds_iff _ _).mp hk
    rw [if_pos hk, hr]

theorem member_of_fds (hI : Inv s) (hk : s.fds fd = some k) :
    s.member k = s.clients.find? fd := by
  obtain ⟨rfl, -⟩ := (hI.fds_iff _ _).mp hk
  rw [member, if_pos hk]

/-- The members are those whose descriptors are the keys of the registry. -/
theorem fdOf_image_members (hI : Inv s) :
    s.fdOf '' {k | (s.member k).isSome = true} = ↑s.clients.keys.toFinset := by
  ext fd
  simp only [Set.mem_image, Set.mem_ofPred_eq, List.coe_toFinset, Option.isSome_iff_exists]
  constructor
  · rintro ⟨k, ⟨r, hr⟩, rfl⟩
    obtain ⟨fd, hk, hr⟩ := (member_eq_some hI).mp hr
    obtain ⟨rfl, -⟩ := (hI.fds_iff _ _).mp hk
    exact OrdMap.mem_keys_of_find? hr
  · intro hfd
    obtain ⟨r, hr⟩ := OrdMap.mem_keys.mp hfd
    have hr := OrdMap.find?_eq_some.mpr hr
    obtain ⟨k, hk, -⟩ := hI.owner fd r hr
    exact ⟨k, ⟨r, (member_eq_some hI).mpr ⟨fd, hk, hr⟩⟩, ((hI.fds_iff _ _).mp hk).1⟩

theorem fdOf_injOn_members (s : Server) : Set.InjOn s.fdOf {k | (s.member k).isSome = true} := by
  intro k hk k' hk' he
  simp only [Set.mem_ofPred_eq, member] at hk hk'
  split_ifs at hk hk' with h h'
  · rw [he, h'] at h
    exact (Option.some.inj h).symm
  all_goals simp at hk hk'

theorem finite_members (hI : Inv s) : {k | (s.member k).isSome = true}.Finite :=
  Set.Finite.of_finite_image (fdOf_image_members hI ▸ Finset.finite_toSet _) (fdOf_injOn_members s)

/-- There are as many members as records. -/
theorem ncard_members (hI : Inv s) :
    {k | (s.member k).isSome = true}.ncard = s.clients.size := by
  rw [← (fdOf_injOn_members s).ncard_image, fdOf_image_members hI,
    Set.ncard_coe_finset, List.toFinset_card_of_nodup s.clients.nodup_keys]
  simp [OrdMap.size, OrdMap.keys]

/-- What holds of every state the server reaches with a configuration. -/
structure InOrderWith (config : LoadedConfig) (s : Server) : Prop where
  /-- The registry and the descriptors. -/
  inv : Inv s
  /-- The nicknames. -/
  named : Named s
  /-- The configuration. -/
  config : s.config = config

/-- **The room a state of the server stands for.** -/
def room (config : LoadedConfig) (s : Server) (h : InOrderWith config s) :
    Room config.1.maxClients where
  member := s.member
  unique i j r q hi hj he := by
    obtain ⟨fd, hk, hr⟩ := (member_eq_some h.inv).mp hi
    obtain ⟨fd', hk', hq⟩ := (member_eq_some h.inv).mp hj
    obtain rfl := h.named.registry.unique fd fd' r q hr hq he
    rw [hk] at hk'
    exact Option.some.inj hk'
  valid i r hr := by
    obtain ⟨fd, -, hr⟩ := (member_eq_some h.inv).mp hr
    exact h.named.registry.valid fd r hr
  finite := finite_members h.inv
  capacity := by
    rw [ncard_members h.inv, ← h.config]
    exact h.named.registry.size

/-! ### The events of a run -/

/-- What a block is to the room, if it looks at the registry to change it or to answer. -/
def roomEvent? (s : Server) : Op → Option RoomEvent
  | .register _ c => some (.enter c)
  | .markWelcomed fd => (s.fds fd).map .welcome
  | .handleChat fd line _ => (s.fds fd).map (.say · line)
  | .handleNick fd newNick => (s.fds fd).map (.rename · newNick)
  | .handleMsg fd target text _ => (s.fds fd).map (.tell · target text)
  | .handleList fd => (s.fds fd).map .list
  | .eraseClient fd => (s.fds fd).map .leave
  | .broadcast line excludeFd _ _ => some (.gather (s.fds excludeFd) line)
  | _ => none

/-- What a block that is left to be run is to send. -/
def announcement? (s : Server) : Op → Option Announcement
  | .sendToFd fd f | .sendFrame fd f => (s.fds fd).map (.to · f.line)
  | .broadcast line excludeFd _ _ => some (.toAll (s.fds excludeFd) line)
  | _ => none

/-- What a step of the server is to the room, and what it leaves to be sent. -/
def event? : Server × Action → Option (RoomEvent × List Announcement)
  | (s, .run t ch) =>
    match s.todo t with
    | [] => none
    | op :: _ =>
      (s.roomEvent? op).bind fun e => (s.exec t ch op).map fun r =>
        (e, r.2.filterMap s.announcement?)
  | _ => none

/-! ### What a block changes of the room -/

/-- A block that changes one record at most. -/
theorem member_update (hI : Inv s) (hfds : s₁.fds = s.fds) (hfdOf : s₁.fdOf = s.fdOf)
    (hk : s.fds fd = some c)
    (hfind : ∀ fd', fd' ≠ fd → s₁.clients.find? fd' = s.clients.find? fd') :
    s₁.member = Function.update s.member c (s₁.clients.find? fd) := by
  obtain ⟨rfl, -⟩ := (hI.fds_iff _ _).mp hk
  funext k
  by_cases hkc : k = c
  · subst hkc
    simp [member, hfds, hfdOf, hk]
  · rw [Function.update_of_ne hkc]
    simp only [member, hfds, hfdOf]
    split_ifs with h
    · refine hfind _ fun he => hkc ?_
      rw [he, hk] at h
      exact (Option.some.inj h).symm
    · rfl

/-- One that changes no descriptor and no record. -/
theorem member_congr (hfds : s₁.fds = s.fds) (hfdOf : s₁.fdOf = s.fdOf)
    (hfind : ∀ fd, s₁.clients.find? fd = s.clients.find? fd) : s₁.member = s.member := by
  funext k
  simp only [member, hfds, hfdOf, hfind]

/-- A connection that is accepted is not yet a member. -/
theorem member_accept (hI : Inv s) (hfree : s.fds fd = none) :
    ({ s with
        nextConn := s.nextConn + 1
        fds := Function.update s.fds fd (some s.nextConn)
        fdOf := Function.update s.fdOf s.nextConn fd
        stage := Function.update s.stage s.nextConn .accepted } : Server).member = s.member := by
  have hnone : s.clients.find? fd = none := by
    by_contra hne
    obtain ⟨r, hr⟩ := Option.ne_none_iff_exists'.mp hne
    obtain ⟨c, hc, -⟩ := hI.owner fd r hr
    rw [hfree] at hc
    cases hc
  have hnew : s.fds (s.fdOf s.nextConn) ≠ some s.nextConn := fun h =>
    ((hI.fds_iff _ _).mp h).2.1 ((hI.unborn_iff _).mpr le_rfl)
  funext k
  by_cases hk : k = s.nextConn
  · subst hk
    simp [member, hnone, hnew]
  · by_cases hfd : s.fdOf k = fd
    · simp [member, hk, hfd, hfree, Ne.symm hk]
    · simp [member, hk, hfd]

/-- A connection whose descriptor is closed was no member any more. -/
theorem member_close (hI : Inv s) (ht : s.todo t = .closeFd fd :: rest) :
    ({ s.setStage fd .closed with fds := Function.update s.fds fd none } : Server).member =
      s.member := by
  have hnone := hI.find?_of_close ht
  funext k
  by_cases hfd : s.fdOf k = fd
  · simp [member, setStage, hfd, hnone]
  · simp [member, setStage, hfd]

/-- **Any other block** leaves the room as it is. -/
theorem Done.member_eq (hI : Inv s) (ht : s.todo t = op :: rest) (hd : Done s t ch op s₁ new)
    (hn : s.roomEvent? op = none) : s₁.member = s.member := by
  have hgone {fd : Fd} {g : ConnId → RoomEvent} (h : (s.fds fd).map g = none) :
      s.clients.find? fd = none := by
    by_contra hne
    obtain ⟨r, hr⟩ := Option.ne_none_iff_exists'.mp hne
    obtain ⟨c, hc, -⟩ := hI.owner fd r hr
    simp [hc] at h
  cases hd with
  | accepted hfd hfree => exact member_accept hI hfree
  | closed => exact member_close hI ht
  | full | registered => cases hn
  | welcomed =>
    refine member_congr rfl rfl fun fd' => ?_
    rw [OrdMap.modify_of_not_mem (OrdMap.find?_eq_none.mp (hgone hn))]
  | frame =>
    exact member_congr (mild_sendFrame ..).fds (mild_sendFrame ..).fdOf fun _ => by
      rw [clients_sendFrame]
  | @renamed fd newNick =>
    have hm := mild_renameClient s t fd newNick
    refine member_congr hm.fds hm.fdOf fun fd' => ?_
    by_cases hfd : fd' = fd
    · subst hfd
      have h := hm.isSome_find? fd'
      rw [hgone hn] at h ⊢
      simpa using h
    · exact find?_renameClient_of_ne s t hfd newNick
  | erased =>
    obtain ⟨c, -, hst, rfl, -⟩ := hI.handler_of_erase ht
    simp [roomEvent?, hI.fds_fdOf (c := c) (hst ▸ ⟨by decide, by decide⟩)] at hn
  | _ => rfl

/-! ### The blocks that are events -/

/-- A block that handles a line is run for a member. -/
theorem Inv.member_of_handles (hI : Inv s) (ht : s.todo t = op :: rest) (hh : op.Handles) :
    ∃ c r, t = .handler c ∧ op.Serves (s.fdOf c) ∧ s.fds (s.fdOf c) = some c ∧
      s.clients.find? (s.fdOf c) = some r := by
  obtain ⟨c, rfl, hst, hs⟩ := hI.handler_of_handles ht hh
  obtain ⟨r, hr⟩ := hI.listed c (.inr hst)
  exact ⟨c, r, rfl, hs, hI.fds_fdOf (hst ▸ ⟨by decide, by decide⟩), hr⟩

/-- A client is welcomed while it has a record. -/
theorem Inv.find?_of_mark (hI : Inv s) (ht : s.todo t = .markWelcomed fd :: rest) :
    ∃ r, s.clients.find? fd = some r := by
  cases t with
  | main =>
    cases hI.main_next ht with
    | control h => exact h.elim
    | admission ha => cases ha with | mark _ _ hr => exact ⟨_, hr⟩
  | handler c =>
    have hn := (ht ▸ hI.handler c).next
    generalize s.stage c = st at hn
    generalize s.alive c = al at hn
    cases hn with
    | serves h => exact h.elim
    | announces h => exact h.elim

/-- Who answers to a name, by descriptors. -/
theorem answers_iff (h : InOrderWith config s) {name : Bytes} :
    (s.room config h).Answers k name ↔
      ∃ fd r, s.fds fd = some k ∧ s.clients.find? fd = some r ∧ r.welcomed = true ∧
        r.nickname = name := by
  constructor
  · rintro ⟨r, hr, hw, hn⟩
    obtain ⟨fd, hk, hr⟩ := (member_eq_some h.inv).mp hr
    exact ⟨fd, r, hk, hr, hw, hn⟩
  · rintro ⟨fd, r, hk, hr, hw, hn⟩
    exact ⟨r, (member_eq_some h.inv).mpr ⟨fd, hk, hr⟩, hw, hn⟩

/-- A name is in use if a record has it. -/
theorem uses_iff (h : InOrderWith config s) {name : Bytes} :
    (s.room config h).Uses name ↔ name ∈ s.nicknames := by
  rw [mem_nicknames]
  constructor
  · rintro ⟨k, r, hr, hn⟩
    obtain ⟨fd, -, hr⟩ := (member_eq_some h.inv).mp hr
    exact ⟨fd, r, hr, hn⟩
  · rintro ⟨fd, r, hr, hn⟩
    obtain ⟨k, hk, -⟩ := h.inv.owner fd r hr
    exact ⟨k, r, (member_eq_some h.inv).mpr ⟨fd, hk, hr⟩, hn⟩

/-- **Registering** is entering, or being turned away. -/
theorem room_register (h : InOrderWith config s) (h' : InOrderWith config s')
    (ht : s.todo t = .register fd c :: rest) (hd : Done s t ch (.register fd c) s₁ new)
    (hm : s'.member = s₁.member) :
    Room.Step (s.room config h) (.enter c) (new.filterMap s.announcement?) (s'.room config h') := by
  have hI := h.inv
  obtain ⟨-, hfd, -⟩ := hI.main_of_register ht
  have hst := hI.accepted_of_register ht
  have hk : s.fds fd = some c := hfd ▸ hI.fds_fdOf (hst ▸ ⟨by decide, by decide⟩)
  have hnone : s.clients.find? fd = none :=
    hfd ▸ hI.find?_of_not_listed (hst ▸ ⟨by decide, by decide⟩) (by simp [hst, Stage.Listed])
  cases hd with
  | full hf =>
    have hs : s'.room config h' = s.room config h := Room.ext hm
    rw [hs]
    have hout : [Op.sendFrame fd serverFull, .closeFd fd].filterMap s.announcement? =
        Room.refusal c (bytes "SERVER_FULL") (bytes "Server is full, try again later") := by
      simp [announcement?, hk, Room.refusal, serverFull]
    rw [hout]
    refine .turnAway ?_
    calc config.1.maxClients
      _ = s.config.1.maxClients := by rw [h.config]
      _ ≤ s.clients.size := hf
      _ = {k | (s.member k).isSome = true}.ncard := by rw [ncard_members hI]
  | @registered _ _ nickname hf hn =>
    obtain ⟨k, hle, hfree, htaken⟩ := least_free s.nicknames
    have he := assignFrom_of_least (Nat.lt_succ_of_le hle) hfree htaken
    obtain rfl : nickname = defaultNickname (1 + k) := by
      rw [assignDefaultNickname] at hn
      exact Option.some.inj (hn.symm.trans he)
    have hout : (Op.sendToFd fd (welcomeFrame (defaultNickname (1 + k))) ::
        afterWelcome fd c (defaultNickname (1 + k))).filterMap s.announcement? =
        [.to c (.welcome (defaultNickname (1 + k))),
          .toAll (some c) (.sys (defaultNickname (1 + k) ++ bytes " has joined."))] := by
      simp [announcement?, hk, afterWelcome, welcomeFrame, List.filterMap_cons]
    rw [hout]
    refine .enter ?_ (Nat.le_add_right 1 k) (fun hu => hfree ((uses_iff h).mp hu))
      (fun m h1 h2 => (uses_iff h).mpr (htaken m h1 h2)) ?_
    · rw [← hnone]
      exact member_of_fds hI hk
    · refine (hm.trans (member_update hI (by rfl) (by rfl) hk fun fd' hne => ?_)).trans ?_
      · exact OrdMap.find?_emplace_of_ne _ hne _
      · simp only [OrdMap.find?_emplace_self (OrdMap.find?_eq_none.mp hnone)]
        rfl

/-- **A rename** is one, or is refused. -/
theorem room_rename (h : InOrderWith config s) (h' : InOrderWith config s') {newNick : Bytes}
    (ht : s.todo t = .handleNick fd newNick :: rest) (hk : s.fds fd = some c)
    (hr : s.clients.find? fd = some r) (hm : s'.member = (s.renameClient t fd newNick).1.member) :
    Room.Step (s.room config h) (.rename c newNick)
      ((s.renameClient t fd newNick).2.filterMap s.announcement?) (s'.room config h') := by
  have hI := h.inv
  have hc := (member_of_fds hI hk).trans hr
  have hmin : s.fds (-1) = none := by
    by_contra hne
    obtain ⟨k, hk⟩ := Option.ne_none_iff_exists'.mp hne
    exact absurd (hI.fd_nonneg _ _ hk) (by decide)
  unfold renameClient at hm ⊢
  split_ifs at hm ⊢ with htaken
  · have hs : s'.room config h' = s.room config h := Room.ext hm
    rw [hs]
    obtain ⟨e, he, hp⟩ := List.any_eq_true.mp htaken
    simp only [Bool.and_eq_true, bne_iff_ne, ne_eq, beq_iff_eq] at hp
    have hq := OrdMap.find?_eq_some.mpr he
    obtain ⟨i, hi, -⟩ := hI.owner _ _ hq
    have hout : [sendError fd (bytes "NICK_TAKEN")
        (bytes "Nickname '" ++ newNick ++ bytes "' is already in use")].filterMap
          s.announcement? = Room.refusal c (bytes "NICK_TAKEN")
            (bytes "Nickname '" ++ newNick ++ bytes "' is already in use") := by
      simp [announcement?, sendError, hk, Room.refusal]
    rw [hout]
    refine .taken hc ((member_of_fds hI hi).trans hq) hp.2 ?_
    rintro rfl
    exact hp.1 ((hI.fds_iff _ _).mp hi |>.1.symm.trans ((hI.fds_iff _ _).mp hk).1)
  · simp only [hr] at hm ⊢
    have hout : [Op.broadcast (.nick r.nickname newNick) (-1) t.conn none].filterMap
        s.announcement? = [.toAll none (.nick r.nickname newNick)] := by
      simp [announcement?, hmin]
    rw [hout]
    refine .rename hc (h.named.todo t fd newNick (mem_todo_head ht)) ?_ ?_
    · intro i q hi hq
      obtain ⟨fd', hi', hq'⟩ := (member_eq_some hI).mp hi
      by_cases hfd : fd' = fd
      · rw [hfd, hk] at hi'
        exact (Option.some.inj hi').symm
      · exact absurd hq (not_taken (by simpa using htaken) hq' hfd)
    · refine (hm.trans (member_update hI (by rfl) (by rfl) hk fun fd' hne => ?_)).trans ?_
      · exact OrdMap.find?_modify_of_ne _ hne _
      · simp only [OrdMap.find?_modify_self, hr]
        rfl

/-- **A private message** is for whoever answers to the name. -/
theorem room_tell (h : InOrderWith config s) (h' : InOrderWith config s') {target text : Bytes}
    {serial : Option ℕ} (hk : s.fds fd = some c) (hr : s.clients.find? fd = some r)
    (hm : s'.member = s.member) :
    Room.Step (s.room config h) (.tell c target text)
      ((s.routeMsg t fd target text serial).filterMap s.announcement?) (s'.room config h') := by
  have hI := h.inv
  have hc := (member_of_fds hI hk).trans hr
  have hs : s'.room config h' = s.room config h := Room.ext hm
  rw [hs]
  have hown {fd' : Fd} (h0 : s.findTarget target = fd') (hpos : fd' ≠ -1) :
      ∃ q i, s.fds fd' = some i ∧ s.clients.find? fd' = some q ∧ q.welcomed = true ∧
        q.nickname = target := by
    obtain ⟨q, hq, hw, hn⟩ := findTarget_spec (h0 ▸ hpos)
    obtain ⟨i, hi, -⟩ := hI.owner _ _ hq
    exact ⟨q, i, h0 ▸ hi, h0 ▸ hq, hw, hn⟩
  simp only [routeMsg, hr]
  split_ifs with h1 h2
  · have hout : [sendError fd (bytes "USER_NOT_FOUND")
        (bytes "User '" ++ target ++ bytes "' not found")].filterMap s.announcement? =
        Room.refusal c (bytes "USER_NOT_FOUND")
          (bytes "User '" ++ target ++ bytes "' not found") := by
      simp [announcement?, sendError, hk, Room.refusal]
    rw [hout]
    refine .notFound hc fun i hi => ?_
    obtain ⟨fd', q, hi, hq, hw, hn⟩ := (answers_iff h).mp hi
    have hpos := hI.fd_nonneg _ _ hi
    rw [← findTarget_eq hI h.named hq hw hn, h1] at hpos
    exact absurd hpos (by decide)
  · obtain ⟨q, i, hi, hq, hw, hn⟩ := hown h2 (h2 ▸ h1)
    rw [hk] at hi
    obtain rfl := Option.some.inj hi
    have hout : [sendError fd (bytes "MSG_SELF")
        (bytes "You cannot send a private message to yourself")].filterMap s.announcement? =
        Room.refusal c (bytes "MSG_SELF")
          (bytes "You cannot send a private message to yourself") := by
      simp [announcement?, sendError, hk, Room.refusal]
    rw [hout]
    exact .self ((answers_iff h).mpr ⟨fd, q, hk, hq, hw, hn⟩)
  · obtain ⟨q, i, hi, hq, hw, hn⟩ := hown rfl h1
    have hout : [Op.sendToFd (s.findTarget target)
          ⟨.priv r.nickname text, .priv t.conn (s.fds (s.findTarget target)), serial⟩,
        .sendToFd fd ⟨.privSent target text, .direct, serial⟩].filterMap s.announcement? =
        [.to i (.priv r.nickname text), .to c (.privSent target text)] := by
      simp [announcement?, hk, hi]
    rw [hout]
    refine .tell hc ((answers_iff h).mpr ⟨_, q, hi, hq, hw, hn⟩) ?_
    rintro rfl
    exact h2 (((hI.fds_iff _ _).mp hi).1.symm.trans ((hI.fds_iff _ _).mp hk).1)

/-- **Who is there** is who answers to a name. -/
theorem room_list (h : InOrderWith config s) (h' : InOrderWith config s')
    (hk : s.fds fd = some c) (hr : s.clients.find? fd = some r) (hm : s'.member = s.member) :
    Room.Step (s.room config h) (.list c) ((s.listClients fd).filterMap s.announcement?)
      (s'.room config h') := by
  have hI := h.inv
  have hs : s'.room config h' = s.room config h := Room.ext hm
  have hout : (s.listClients fd).filterMap s.announcement? = [.to c (.list
      (((s.clients.values.filter (·.welcomed)).map (·.nickname)).insertionSort (· ≤ ·)))] := by
    simp [announcement?, listClients, hk]
  rw [hs, hout]
  refine .list ((member_of_fds hI hk).trans hr) (List.pairwise_insertionSort _ _) ?_ fun name => ?_
  · rw [(List.perm_insertionSort _ _).nodup_iff, OrdMap.values, List.filter_map, List.map_map]
    refine List.Nodup.map_on ?_ (s.clients.nodup_entries.filter _)
    intro e he e' he' heq
    have hq := OrdMap.find?_eq_some.mpr (List.mem_of_mem_filter he)
    have hq' := OrdMap.find?_eq_some.mpr (List.mem_of_mem_filter he')
    have hfd := h.named.registry.unique _ _ _ _ hq hq' heq
    exact Prod.ext hfd (Option.some.inj (hq.symm.trans (hfd ▸ hq')))
  · rw [List.mem_insertionSort]
    simp only [List.mem_map, List.mem_filter, OrdMap.mem_values, answers_iff]
    constructor
    · rintro ⟨q, ⟨⟨fd', hq⟩, hw⟩, hn⟩
      obtain ⟨i, hi, -⟩ := hI.owner _ _ hq
      exact ⟨i, fd', q, hi, hq, hw, hn⟩
    · rintro ⟨i, fd', q, -, hq, hw, hn⟩
      exact ⟨q, ⟨⟨fd', hq⟩, hw⟩, hn⟩

/-- **A broadcast** is for all who are welcomed, but the one it leaves out. -/
theorem room_gather (h : InOrderWith config s) (h' : InOrderWith config s') {line : ServerLine}
    {excludeFd : Fd} {cause : Cause} {serial : Option ℕ} (hm : s'.member = s.member) :
    Room.Step (s.room config h) (.gather (s.fds excludeFd) line)
      (((s.targets excludeFd).map fun fd => Op.sendFrame fd ⟨line, cause, serial⟩).filterMap
        s.announcement?) (s'.room config h') := by
  have hI := h.inv
  have hs : s'.room config h' = s.room config h := Room.ext hm
  have hout : ((s.targets excludeFd).map fun fd => Op.sendFrame fd ⟨line, cause, serial⟩).filterMap
      s.announcement? =
      ((s.targets excludeFd).filterMap s.fds).map fun i => .to i line := by
    rw [List.filterMap_map, List.map_filterMap]
    rfl
  rw [hs, hout]
  refine .gather ?_ fun i => ?_
  · refine (nodup_targets s excludeFd).filterMap fun fd₁ fd₂ k h1 h2 => ?_
    rw [← ((hI.fds_iff _ _).mp h1).1, ← ((hI.fds_iff _ _).mp h2).1]
  · simp only [List.mem_filterMap, mem_targets_iff, answers_iff]
    constructor
    · rintro ⟨fd', ⟨hne, q, hq, hw⟩, hi⟩
      refine ⟨fun he => hne ?_, q.nickname, fd', q, hi, hq, hw, rfl⟩
      rw [← ((hI.fds_iff _ _).mp hi).1, ← ((hI.fds_iff _ _).mp he.symm).1]
    · rintro ⟨hne, name, fd', q, hi, hq, hw, -⟩
      refine ⟨fd', ⟨?_, q, hq, hw⟩, hi⟩
      rintro rfl
      exact hne hi.symm

/-- **A client that leaves** is erased. -/
theorem room_leave (h : InOrderWith config s) (h' : InOrderWith config s')
    (hk : s.fds fd = some c) (hr : s.clients.find? fd = some r)
    (hm : s'.member = (s.eraseClient t fd).1.member) :
    Room.Step (s.room config h) (.leave c)
      ((s.eraseClient t fd).2.filterMap s.announcement?) (s'.room config h') := by
  have hI := h.inv
  obtain ⟨hne, -⟩ := isValidNickname_iff.mp (h.named.registry.valid fd r hr)
  have hout : (s.eraseClient t fd).2.filterMap s.announcement? =
      [.toAll (some c) (.sys (r.nickname ++ bytes " has left."))] := by
    rw [eraseClient_of hk hr]
    simp [announcement?, hk, hne]
  rw [hout]
  rw [eraseClient_of hk hr] at hm
  refine .leave ((member_of_fds hI hk).trans hr) ?_
  refine (hm.trans (member_update hI (by rfl) (by rfl) hk fun fd' hne => ?_)).trans ?_
  · exact OrdMap.find?_erase_of_ne _ hne
  · simp only [OrdMap.find?_erase_self]
    rfl

/-- **A block that is an event** is one of the room. -/
theorem Done.room_step (h : InOrderWith config s) (h' : InOrderWith config s')
    (ht : s.todo t = op :: rest) (hd : Done s t ch op s₁ new) (hm : s'.member = s₁.member)
    {e : RoomEvent} (he : s.roomEvent? op = some e) :
    Room.Step (s.room config h) e (new.filterMap s.announcement?) (s'.room config h') := by
  have hI := h.inv
  -- a client that is served, with its record
  have client {fd : Fd} {g : ConnId → RoomEvent} (hh : op.Handles)
      (hs : ∀ fd', op.Serves fd' → fd = fd') (he : (s.fds fd).map g = some e) :
      ∃ c r, s.fds fd = some c ∧ s.clients.find? fd = some r ∧ e = g c := by
    obtain ⟨c, r, -, hserves, hk, hr⟩ := hI.member_of_handles ht hh
    obtain rfl := hs _ hserves
    rw [hk] at he
    exact ⟨c, r, hk, hr, (Option.some.inj he).symm⟩
  cases hd with
  | @full fd c hf =>
    cases he
    exact room_register h h' ht (@Done.full s t ch fd c hf) hm
  | @registered fd c nickname hf hn =>
    cases he
    exact room_register h h' ht (@Done.registered s t ch fd c nickname hf hn) hm
  | @welcomed fd =>
    obtain ⟨c, hk, rfl⟩ := Option.map_eq_some_iff.mp he
    obtain ⟨r, hr⟩ := hI.find?_of_mark ht
    refine .welcome ((member_of_fds hI hk).trans hr) ?_
    refine (hm.trans (member_update hI (by rfl) (by rfl) hk fun fd' hne => ?_)).trans ?_
    · exact OrdMap.find?_modify_of_ne _ hne _
    · simp only [OrdMap.find?_modify_self, hr]
      rfl
  | unsaid hr =>
    obtain ⟨c, r, -, hr', -⟩ := client trivial (fun _ h => h) he
    rw [hr] at hr'
    cases hr'
  | @said fd line serial r hr =>
    obtain ⟨c, r', hk, hr', rfl⟩ := client trivial (fun _ h => h) he
    have hs : s'.room config h' = s.room config h := Room.ext hm
    have hout : [Op.broadcast (.msg r.nickname line) fd t.conn serial].filterMap s.announcement? =
        [.toAll (some c) (.msg r.nickname line)] := by
      simp [announcement?, hk]
    rw [hs, hout]
    exact .say ((member_of_fds hI hk).trans hr)
  | renamed =>
    obtain ⟨c, r, hk, hr, rfl⟩ := client trivial (fun _ h => h) he
    exact room_rename h h' ht hk hr hm
  | routed =>
    obtain ⟨c, r, hk, hr, rfl⟩ := client trivial (fun _ h => h) he
    exact room_tell h h' hk hr hm
  | listed =>
    obtain ⟨c, r, hk, hr, rfl⟩ := client trivial (fun _ h => h) he
    exact room_list h h' hk hr hm
  | erased =>
    obtain ⟨c, -, hst, rfl, -⟩ := hI.handler_of_erase ht
    obtain ⟨r, hr⟩ := hI.listed c (.inr hst)
    have hk := hI.fds_fdOf (c := c) (hst ▸ ⟨by decide, by decide⟩)
    simp only [roomEvent?, hk, Option.map_some, Option.some.injEq] at he
    exact he ▸ room_leave h h' hk hr hm
  | broadcast =>
    cases he
    exact room_gather h h' hm
  | _ => cases he

/-- What a step keeps. -/
theorem InOrderWith.step (h : InOrderWith config s) (hs : Server.step s a = some s') :
    InOrderWith config s' := by
  refine ⟨h.inv.step hs, h.named.step hs, ?_⟩
  rcases step_effect hs with ⟨t, ch, op, rest, new, s₁, -, -, -, hE, rfl⟩ | ⟨-, hq⟩
  · exact hE.config.trans h.config
  · exact hq.config.trans h.config

theorem inOrderWith_init (config : LoadedConfig) : InOrderWith config (init config) :=
  ⟨inv_init config, named_init config, rfl⟩

/-- **What happens on a path** is a trace of the room. -/
theorem room_trace {past : List (Server × Action)} (h0 : InOrderWith config s)
    (h : Path Server.step s past s') :
    ∃ hs : InOrderWith config s',
      Trace (fun R e R' => Room.Step R e.1 e.2 R') (s.room config h0) (past.filterMap event?)
        (s'.room config hs) := by
  refine h.refines (fun s h => s.room config h) event? h0 (fun s a s' h _ hs => h.step hs) ?_
  intro s a s' h h' _ hs
  rcases step_effect hs with ⟨t, ch, op, rest, new, s₁, rfl, ht, he, -, rfl⟩ | ⟨ha, hq⟩
  · have hd := exec_done he
    constructor
    · intro hn
      simp only [event?, ht, he, Option.bind_eq_none_iff, Option.map_some, reduceCtorEq,
        imp_false, ← Option.eq_none_iff_forall_ne_some] at hn
      have hm : s₁.member = s.member := hd.member_eq h.inv ht hn
      exact Room.ext hm
    · intro b hb
      simp only [event?, ht, he, Option.bind_eq_some_iff, Option.map_some, Option.some.injEq] at hb
      obtain ⟨e, hev, rfl⟩ := hb
      exact hd.room_step h h' ht rfl hev
  · refine ⟨fun _ => Room.ext (member_congr hq.fds hq.fdOf hq.find?), fun b hb => ?_⟩
    cases a with
    | run t ch => exact absurd rfl (ha t ch)
    | _ => cases hb

/-- **The threaded server is a chat room.** In every run, whatever the order in which the
threads run their blocks, whatever descriptor numbers `::accept` returns and whatever writes fail,
the blocks that look at the registry are the events of a room, one after the other, and what
each of them leaves to be sent is what the room says. -/
theorem server_refines_room {past : List (Server × Action)}
    (h : Path Server.step (init config) past s) :
    ∃ hs : InOrderWith config s,
      Trace (fun R e R' => Room.Step R e.1 e.2 R')
        (Room.empty (by have := config.2.maxClients.1; omega))
        (past.filterMap event?) (s.room config hs) := by
  have hempty : (init config).room config (inOrderWith_init config) =
      Room.empty (by have := config.2.maxClients.1; omega) := Room.ext (funext fun k => by rfl)
  exact hempty ▸ room_trace (inOrderWith_init config) h

/-- Two clients enter; the second takes another name, and the first writes to it. -/
def roomVisit : List Action :=
  admits 5 0 ++ admits 6 1 ++ [.arrive 1 ⟨bytes "/nick Ada", none⟩, .recv 1] ++
    blocks (.handler 1) 2 ++ [.arrive 0 ⟨bytes "/msg Ada hi", none⟩, .recv 0] ++
    blocks (.handler 0) 1

set_option maxRecDepth 8000 in
theorem room_of_roomVisit :
    ∃ s, ∃ hs : InOrderWith .default s,
      Trace (fun R e R' => Room.Step R e.1 e.2 R') (Room.empty (by decide))
        [(.enter 0, [.to 0 (.welcome (bytes "User1")),
            .toAll (some 0) (.sys (bytes "User1 has joined."))]),
          (.welcome 0, []), (.gather (some 0) (.sys (bytes "User1 has joined.")), []),
          (.enter 1, [.to 1 (.welcome (bytes "User2")),
            .toAll (some 1) (.sys (bytes "User2 has joined."))]),
          (.welcome 1, []),
          (.gather (some 1) (.sys (bytes "User2 has joined.")),
            [.to 0 (.sys (bytes "User2 has joined."))]),
          (.rename 1 (bytes "Ada"), [.toAll none (.nick (bytes "User2") (bytes "Ada"))]),
          (.gather none (.nick (bytes "User2") (bytes "Ada")),
            [.to 0 (.nick (bytes "User2") (bytes "Ada")),
              .to 1 (.nick (bytes "User2") (bytes "Ada"))]),
          (.tell 0 (bytes "Ada") (bytes "hi"),
            [.to 1 (.priv (bytes "User1") (bytes "hi")),
              .to 0 (.privSent (bytes "Ada") (bytes "hi"))])] (s.room .default hs) := by
  have h : (execAllIn step (fun _ _ => True) (init .default) roomVisit).isSome = true := by decide
  obtain ⟨s, hs⟩ := Option.isSome_iff_exists.mp h
  obtain ⟨hi, htr⟩ := server_refines_room (pathIn_of_execAllIn hs)
  refine ⟨s, hi, ?_⟩
  convert htr using 1
  decide

end Server

end ThreadLink.Backend
