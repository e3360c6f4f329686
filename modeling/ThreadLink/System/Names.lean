import ThreadLink.System.Network

/-!
# What sessions go by

The gateway learns from the frames it reads what the session of a backend connection is
called. It hears of every rename, and takes those for the session's own whose old nickname is
the one the session goes by.

## What is proved

* `Follows` — if no session joins twice, a session goes by what has been announced in the
  frames that have been read for it.
* `Follows.inOrder` — it is welcomed once, before any `NICK` is its own.
* `goes_by_own_name` — if besides no nickname is given away while the `NICK` that gives it up is
  under way, that is a name of its own, and the one in the registry when all has been told.
* `nickname_not_in_registry` — before that it is not, and without the condition it may never be.
-/

namespace ThreadLink.System

open Text Runs Backend Gateway

/-! ### One frame -/

/-- What a session goes by that has been announced so. -/
def goesBy (announced : Option Bytes) : Bool × Units :=
  (announced.isSome, (announced.map name).getD [])

/-- What has been announced to a connection is valid. -/
theorem announced_valid {l : List Frame}
    (hw : ∀ f ∈ l, ∀ n, f.line = .welcome n → isValidNickname n = true)
    (hn : ∀ f ∈ l, ∀ o n, f.line = .nick o n → isValidNickname n = true) :
    ∀ n, announced l = some n → isValidNickname n = true := by
  induction l using List.reverseRecOn with
  | nil => exact fun n h => by cases h
  | append_singleton l f ih =>
    intro n h
    have hold := ih (fun g hg => hw g (List.mem_append_left _ hg)) fun g hg =>
      hn g (List.mem_append_left _ hg)
    have hf : f ∈ l ++ [f] := List.mem_append_right _ (.head _)
    rw [announced_concat] at h
    cases hl : f.line with
    | welcome m =>
      simp only [hear, hl, Option.some.injEq] at h
      exact h ▸ hw f hf m hl
    | nick o m =>
      simp only [hear, hl] at h
      split_ifs at h
      · exact Option.some.inj h ▸ hn f hf o m hl
      · exact hold n h
    | _ =>
      simp only [hear, hl] at h
      exact hold n h

/-- **One frame**: a session that goes by what has been announced still does when it has
heard the next. -/
theorem hear_event {session : Session} {known : Option Bytes} {f : Frame}
    (hg : session.goesBy = goesBy known) (hk : ∀ n, known = some n → isValidNickname n = true)
    (hl : Legible f.line) (ho : ∀ o n, f.line = .nick o n → isValidNickname o = true) :
    session.hear (parseBackendLine (utf8Decode f.line.payload)) = goesBy (hear known f) := by
  obtain ⟨h1, h2⟩ := Prod.mk.inj hg
  cases hline : f.line with
  | welcome n =>
    rw [parse_payload (show Legible (.welcome n) from trivial) fun _ h => (by cases h), hear, hline]
    rfl
  | nick o n =>
    have hvalid := ho o n hline
    rw [hline] at hl
    rw [parse_payload hl fun _ h => (by cases h), hear, hline]
    show (session.welcomed, if name o = session.nickname then name n else session.nickname) = _
    rw [h1, h2]
    cases known with
    | none =>
      have hne : ¬ name o = [] := name_ne_nil hvalid
      show (false, if name o = [] then name n else []) = _
      rw [if_neg hne]
      rfl
    | some m =>
      show (true, if name o = name m then name n else name m) = _
      by_cases hm : m = o
      · subst hm
        rw [if_pos rfl]
        simp [goesBy]
      · have hne : ¬ name o = name m := fun he => hm (name_injective hvalid (hk m rfl) he).symm
        rw [if_neg hne]
        simp [goesBy, hm]
  | list ns =>
    obtain ⟨count, names, he⟩ := parse_payload_list ns
    rw [he, hear, hline]
    exact hg
  | _ =>
    rw [hline] at hl
    rw [parse_payload hl fun _ h => (by cases h), hear, hline]
    exact hg

namespace Network

variable {s s' t : Network} {a : Action} {b : BackendId} {c : ConnId} {f : Frame} {w : WsId}

/-! ### All frames -/

/-- **Sessions go by what has been announced to them.** -/
structure Follows (s : Network) : Prop where
  /-- Sessions and backend connections belong together. -/
  wired : s.gateway.Wired
  /-- A session with a backend connection goes by what has been announced in it. -/
  owner : ∀ b < s.gateway.nextBackend,
    (s.gateway.sessions (s.gateway.backends b).owner).goesBy = goesBy (announced (s.heard b))
  /-- One that has not joined goes by nothing. -/
  apart : ∀ w, (s.gateway.sessions w).authenticated = false →
    (s.gateway.sessions w).goesBy = goesBy none

theorem follows_init (env : Env) (gateway : GatewayConfig) (server : LoadedConfig) :
    Follows (init env gateway server) :=
  ⟨GatewayServer.wired_init .., fun b hb => absurd hb (Nat.not_lt_zero b), fun _ _ => rfl⟩

theorem exists_written (hf : f ∈ s.frames b) : ∃ c, s.conn b = some c ∧ f ∈ s.server.written c := by
  cases hc : s.conn b with
  | none => rw [frames_of_none hc] at hf; cases hf
  | some c => exact ⟨c, rfl, frames_of_conn hc ▸ hf⟩

/-- What has been announced in what has been read is valid. -/
theorem Sound.announced_valid (hS : Sound s) (b : BackendId) :
    ∀ n, announced (s.heard b) = some n → isValidNickname n = true := by
  have hmem {f : Frame} (hf : f ∈ s.heard b) : ∃ c, f ∈ s.server.written c := by
    obtain ⟨c, -, hf⟩ := exists_written (List.mem_of_mem_take hf)
    exact ⟨c, hf⟩
  apply System.announced_valid
  · intro f hf n hl
    obtain ⟨c, hf⟩ := hmem hf
    exact hS.orderly.spoken.welcome c f hf n hl
  · intro f hf o n hl
    obtain ⟨c, hf⟩ := hmem hf
    exact (hS.orderly.spoken.nick c f hf o n hl).2.1

/-- An event of the gateway that is no frame of a backend connection leaves its session
going by what it went by. -/
theorem Follows.owner_step (hF : Follows s) (hS : Sound s) {e : GatewayServer.Event}
    {g : GatewayServer} (ho : s.gateway.JoinsOnce e) (h : s.gateway.step e = some g)
    (hb : b < g.nextBackend) (hn : ∀ b' p, e = .backendFrame b' p → b' ≠ b) :
    (g.sessions (g.backends b).owner).goesBy = goesBy (announced (s.heard b)) := by
  have hold (hb : b < s.gateway.nextBackend)
      (hown : (g.backends b).owner = (s.gateway.backends b).owner) :
      (g.sessions (g.backends b).owner).goesBy = goesBy (announced (s.heard b)) := by
    rw [hown, GatewayServer.goesBy_step h, hF.owner b hb]
    · rintro b' p rfl hown'
      apply hn b' p rfl
      -- one session, one backend connection
      have hb' := (hF.wired.backend _ b').mpr ⟨hF.wired.lt_nextBackend ?_, hown'⟩
      · rw [(hF.wired.backend _ b).mpr ⟨hb, rfl⟩] at hb'
        exact (Option.some.inj hb').symm
      · rw [GatewayServer.opened_of_frame h]
        exact fun h => by cases h
    · rintro - hx
      have ha := hS.joined.owner b hb
      rw [hx, (hS.joined.unborn _ le_rfl).2] at ha
      cases ha
  rcases GatewayServer.step_backends h with ⟨hnb, hown⟩ | ⟨w, hw, hnb, hnew, hown⟩
  · exact hold (hnb ▸ hb) (hown b)
  · by_cases hbn : b = s.gateway.nextBackend
    · subst hbn
      obtain ⟨i, rfl⟩ := GatewayServer.exists_authDone hw
      have hheard : s.heard s.gateway.nextBackend = [] := by
        cases hc : s.conn s.gateway.nextBackend with
        | none => rw [heard, frames_of_none hc, List.take_nil]
        | some c => exact absurd (hS.linked.created _ _ hc) (lt_irrefl _)
      rw [hnew, GatewayServer.goesBy_step h (fun _ _ he => by cases he) (fun he => by cases he),
        hF.apart w (ho w hw), hheard]
      rfl
    · rw [hnb] at hb
      exact hold (Nat.lt_of_le_of_ne (Nat.lt_succ_iff.mp hb) hbn) (hown b hbn)

/-- Nor does a session that has not joined go by anything. -/
theorem Follows.apart_step (hF : Follows s) (hS : Sound s) {e : GatewayServer.Event}
    {g : GatewayServer} (h : s.gateway.step e = some g)
    (ha : (g.sessions w).authenticated = false) : (g.sessions w).goesBy = goesBy none := by
  obtain ⟨z, presence, pending, hb, hz⟩ := GatewayServer.step_becomes h w
  rw [hz] at ha ⊢
  have howner {b : BackendId} (hb : (s.gateway.backends b).socket = .opened)
      (how : (s.gateway.backends b).owner = w) :
      (s.gateway.sessions w).authenticated = true := how ▸ hS.joined.owner_of_opened hb
  cases hb with
  | stays => exact hF.apart w ha
  | closing => exact hF.apart w ha
  | arrives => rfl
  | closed => exact hF.apart w ha
  | joins => cases ha
  | welcome hb how => exact Bool.noConfusion ((howner hb how).symm.trans ha)
  | welcomeReady hb how => exact Bool.noConfusion ((howner hb how).symm.trans ha)
  | nickReady hb how => exact Bool.noConfusion ((howner hb how).symm.trans ha)
  | rename hb how => exact Bool.noConfusion ((howner hb how).symm.trans ha)

theorem Follows.step (hF : Follows s) (hS : Sound s) (ho : OfGateway GatewayServer.JoinsOnce s a)
    (hs : s.step a = some s') : Follows s' := by
  have hwired : s'.gateway.Wired := by
    rcases (step_moves hs).gateway_step with he | ⟨e, he, h⟩
    · rw [he]
      exact hF.wired
    · exact hF.wired.step (ho e he) h
  have hsame (ha : ∀ b, a ≠ .deliver b) (b : BackendId) : s'.heard b = s.heard b := by
    rcases heard_step hS.linked hs b with hh | ⟨_, hd, -⟩
    · exact hh
    · exact absurd hd (ha b)
  cases step_moves hs with
  | server =>
    exact ⟨hwired, fun b hb => (hsame (fun _ ha => by cases ha) b).symm ▸ hF.owner b hb, hF.apart⟩
  | accept =>
    exact ⟨hwired, fun b hb => (hsame (fun _ ha => by cases ha) b).symm ▸ hF.owner b hb, hF.apart⟩
  | transmit =>
    exact ⟨hwired, fun b hb => (hsame (fun _ ha => by cases ha) b).symm ▸ hF.owner b hb, hF.apart⟩
  | @gateway e g hn h =>
    refine ⟨hwired, ?_, fun w ha => hF.apart_step hS h ha⟩
    intro b hb
    refine hF.owner_step hS (ho e (by simp [event?, hn])) h hb ?_
    intro b' p he
    rw [he] at hn
    cases hn
  | @oversized b' f g hf hm h =>
    refine ⟨hwired, ?_, fun w ha => hF.apart_step hS h ha⟩
    intro b hb
    exact hF.owner_step hS (ho _ (by simp [event?, hf, hm])) h hb fun _ _ he => by cases he
  | @deliver b' f g hf hm h =>
    refine ⟨hwired, ?_, fun w ha => hF.apart_step hS h ha⟩
    intro b hb
    by_cases hbb : b = b'
    · subst hbb
      have hopen := GatewayServer.opened_of_frame h
      have hlt := hF.wired.lt_nextBackend (b := b) (by rw [hopen]; exact fun hu => by cases hu)
      obtain ⟨c, -, hfc⟩ := exists_written (mem_frames hf)
      have hheard : (s.frames b).take (Function.update s.read b (s.read b + 1) b) =
          s.heard b ++ [f] := by
        rw [Function.update_self, heard_concat hf]
      show (g.sessions (g.backends b).owner).goesBy = goesBy (announced ((s.frames b).take _))
      rw [hheard, announced_concat, (GatewayServer.owner_step h hlt).2, GatewayServer.step_hears h]
      exact hear_event (hF.owner b hlt) (hS.announced_valid b)
        (legible_of_written hS.sourced hS.orderly.spoken hfc)
        fun o n hl => (hS.orderly.spoken.nick c f hfc o n hl).1
    · have hheard : (s.frames b).take (Function.update s.read b' (s.read b' + 1) b) =
          s.heard b := by
        rw [Function.update_of_ne hbb, heard]
      show (g.sessions (g.backends b).owner).goesBy = goesBy (announced ((s.frames b).take _))
      rw [hheard]
      refine hF.owner_step hS (ho _ (by simp [event?, hf, hm])) h hb ?_
      intro b₁ p he
      cases he
      exact Ne.symm hbb

/-- What has been written to a backend connection, around the frame that is read next. -/
theorem frames_eq (hf : s.nextFrame b = some f) :
    s.frames b = s.heard b ++ f :: (s.frames b).drop (s.read b + 1) := by
  have h := List.take_append_drop (s.read b + 1) (s.frames b)
  rw [heard_concat hf, List.append_assoc, List.singleton_append] at h
  exact h.symm

/-- **Sessions are told things in order**: each is welcomed once, and no `NICK` is its own
before that. -/
theorem Follows.inOrder (hF : Follows s) (hS : Sound s) : OfGateway GatewayServer.InOrder s a := by
  intro e he
  cases a with
  | server | accept | transmit => cases he
  | gateway e' =>
    simp only [event?, Option.mem_def, Option.ite_none_left_eq_some, Option.some.injEq] at he
    obtain ⟨hn, rfl⟩ := he
    cases e' with
    | backendFrame => exact absurd rfl hn
    | _ => trivial
  | deliver b =>
    obtain ⟨f, hf, rfl⟩ := Option.map_eq_some_iff.mp he
    obtain ⟨c, hc, hfc⟩ := exists_written (mem_frames hf)
    split
    · have hgo := hF.owner b (hS.linked.created b c hc)
      obtain ⟨h1, h2⟩ := Prod.mk.inj hgo
      have hl := legible_of_written hS.sourced hS.orderly.spoken hfc
      show s.gateway.expects (s.gateway.backends b).owner _ = true
      cases hline : f.line with
      | welcome n =>
        rw [parse_payload (show Legible (.welcome n) from trivial) fun _ h => (by cases h)]
        -- nothing has been announced before
        have hnone : announced (s.heard b) = none := by
          refine hS.orderly.introduced c _ f ((s.frames b).drop (s.read b + 1)) n ?_ hline
          rw [← frames_of_conn hc]
          exact frames_eq hf
        show (!(s.gateway.sessions _).welcomed) = true
        rw [h1, hnone]
        rfl
      | nick o n =>
        have ho := (hS.orderly.spoken.nick c f hfc o n hline).1
        rw [hline] at hl
        rw [parse_payload hl fun _ h => (by cases h)]
        show (name o != (s.gateway.sessions _).nickname || (s.gateway.sessions _).welcomed) = true
        rw [h1, h2]
        cases announced (s.heard b) with
        | none => simpa using name_ne_nil ho
        | some m => simp
      | list ns =>
        obtain ⟨count, names, hp⟩ := parse_payload_list ns
        rw [hp]
        rfl
      | _ =>
        rw [hline] at hl
        rw [parse_payload hl fun _ h => (by cases h)]
        rfl
    · trivial

/-! ### Its own name -/

/-- The nickname a connection was told in WELCOME and in the `NICK` lines of its own renames. -/
def ownName (c : ConnId) (l : List Frame) : Option Bytes := l.foldl (hearOwn c) none

/-- **Every `ready` names what the session was called** at some time. -/
structure Announces (s : Network) : Prop where
  /-- A session that has joined. -/
  owner : ∀ b < s.gateway.nextBackend, ∀ m ∈ s.gateway.sent (s.gateway.backends b).owner,
    ∀ id n users conversations messages, m.message = .ready id n users conversations messages →
      ∃ p, p <+: s.heard b ∧ n = (goesBy (announced p)).2
  /-- One that has not, of which there is none to tell. -/
  apart : ∀ w, (s.gateway.sessions w).authenticated = false → ∀ m ∈ s.gateway.sent w,
    ∀ id n users conversations messages,
    m.message = .ready id n users conversations messages → n = []

theorem announces_init (env : Env) (gateway : GatewayConfig) (server : LoadedConfig) :
    Announces (init env gateway server) :=
  ⟨fun b hb => absurd hb (Nat.not_lt_zero b), fun _ _ _ hm => absurd hm List.not_mem_nil⟩

theorem heard_grows (hL : Linked s) (hs : s.step a = some s') (b : BackendId) :
    s.heard b <+: s'.heard b := by
  rcases heard_step hL hs b with he | ⟨f, -, -, he⟩
  · exact he ▸ List.prefix_rfl
  · exact ⟨[f], he.symm⟩

theorem Announces.step (hA : Announces s) (hF' : Follows s') (hS : Sound s)
    (ho : OfGateway GatewayServer.JoinsOnce s a) (hs : s.step a = some s') : Announces s' := by
  rcases (step_moves hs).gateway_step with he | ⟨e, hev, h⟩
  · refine ⟨?_, by rw [he]; exact hA.apart⟩
    intro b hb m hm id n users conversations messages hr
    rw [he] at hb hm
    obtain ⟨p, hp, hn⟩ := hA.owner b hb m hm id n users conversations messages hr
    exact ⟨p, hp.trans (heard_grows hS.linked hs b), hn⟩
  · refine ⟨?_, ?_⟩
    · intro b hb m hm id n users conversations messages hr
      obtain ⟨extra, hx, hn⟩ := GatewayServer.ready_of_step h (s'.gateway.backends b).owner
      rw [hx, List.mem_append] at hm
      rcases hm with hm | hm
      · rcases GatewayServer.step_backends h with ⟨hnb, hown⟩ | ⟨w, hw, hnb, hnew, hown⟩
        · obtain ⟨p, hp, he⟩ :=
            hA.owner b (hnb ▸ hb) m (hown b ▸ hm) id n users conversations messages hr
          exact ⟨p, hp.trans (heard_grows hS.linked hs b), he⟩
        · by_cases hbn : b = s.gateway.nextBackend
          · subst hbn
            rw [hnew] at hm
            exact ⟨[], List.nil_prefix,
              hA.apart w (ho e hev w hw) m hm id n users conversations messages hr⟩
          · rw [hnb] at hb
            have hlt := Nat.lt_of_le_of_ne (Nat.lt_succ_iff.mp hb) hbn
            obtain ⟨p, hp, he⟩ :=
              hA.owner b hlt m (hown b hbn ▸ hm) id n users conversations messages hr
            exact ⟨p, hp.trans (heard_grows hS.linked hs b), he⟩
      · refine ⟨s'.heard b, List.prefix_rfl, ?_⟩
        rw [← hF'.owner b hb]
        exact hn m hm id n users conversations messages hr
    · intro w ha m hm id n users conversations messages hr
      obtain ⟨extra, hx, hn⟩ := GatewayServer.ready_of_step h w
      rw [hx, List.mem_append] at hm
      rcases hm with hm | hm
      · refine hA.apart w ?_ m hm id n users conversations messages hr
        rcases GatewayServer.unauthenticated_of_step h ha with ha | rfl
        · exact ha
        · exact (hS.joined.unborn _ le_rfl).2
      · rw [hn m hm id n users conversations messages hr]
        exact (Prod.mk.inj (hF'.apart w ha)).2

/-- What holds in the runs in which no session joins twice and no nickname is given away while
the `NICK` that gives it up is under way. -/
structure Heeds (s : Network) : Prop where
  /-- Both machines. -/
  sound : Sound s
  /-- What sessions go by. -/
  follows : Follows s
  /-- What they have been told of themselves. -/
  announces : Announces s
  /-- What clients have been told of their names. -/
  settled : s.server.Settled

theorem heeds_init (env : Env) (gateway : GatewayConfig) (server : LoadedConfig) :
    Heeds (init env gateway server) :=
  ⟨sound_init .., follows_init .., announces_init .., Server.settled_init _⟩

theorem Heeds.step (h : Heeds s) (ho : OfGateway GatewayServer.JoinsOnce s a)
    (hc : OfServer Server.Calm s a) (hs : s.step a = some s') : Heeds s' := by
  have hF' := h.follows.step h.sound ho hs
  refine ⟨h.sound.step hs, hF', h.announces.step hF' h.sound ho hs, ?_⟩
  rcases (step_moves hs).server_step with he | ⟨a', ha, hserver⟩
  · rw [he]
    exact h.settled
  · exact h.settled.step (hc a' ha) hserver

/-- Reading a frame is no joining, and the chat server does nothing. -/
theorem Heeds.deliver (h : Heeds s) (hs : s.step (.deliver b) = some s') : Heeds s' := by
  refine h.step ?_ (fun _ ha => by cases ha) hs
  intro e he w hw
  obtain ⟨f, -, rfl⟩ := Option.map_eq_some_iff.mp he
  split at hw <;> cases hw

/-- Nor does it change which connection it is, and whose. -/
theorem conn_deliver (hs : s.step (.deliver b) = some s') (hb : b < s.gateway.nextBackend) :
    s'.conn b = s.conn b ∧ (s'.gateway.backends b).owner = (s.gateway.backends b).owner := by
  cases step_moves hs with
  | deliver hf hm h => exact ⟨rfl, (GatewayServer.owner_step h hb).2⟩
  | oversized hf hm h => exact ⟨rfl, (GatewayServer.owner_step h hb).2⟩

/-- What has been read of a connection has been announced by its own name. -/
theorem Heeds.announced_eq (h : Heeds s) (hc : s.conn b = some c) {p : List Frame}
    (hp : p <+: s.frames b) : announced p = ownName c p :=
  h.settled.mirrored.own c p (frames_of_conn hc ▸ hp)

/-- **A session goes by its own name**: the one its connection was told in WELCOME and in the
`NICK` lines of its own renames. When all has been read, and nothing is still to be told, that is
the nickname in the registry of the chat server. The `NICK` of another client changes nothing,
and every `ready` names the session by a name of its own. -/
theorem goes_by_own_name {env : Env} {gateway : GatewayConfig} {server : LoadedConfig}
    (h : RunIn step (fun s a => OfGateway GatewayServer.JoinsOnce s a ∧ OfServer Server.Calm s a)
      (init env gateway server) s)
    (hc : s.conn b = some c) :
    (s.gateway.sessions (s.gateway.backends b).owner).goesBy = goesBy (ownName c (s.heard b)) ∧
    (∀ fd r, s.server.fds fd = some c → s.server.clients.find? fd = some r → r.welcomed = true →
      s.server.broken c = false → (∀ o n, ¬ s.server.Awaits c o n) →
      s.read b = (s.frames b).length →
      (s.gateway.sessions (s.gateway.backends b).owner).nickname = name r.nickname) ∧
    (∀ f o n s', s.nextFrame b = some f → f.line = .nick o n → f.about ≠ some c →
      s.step (.deliver b) = some s' →
      (s'.gateway.sessions (s.gateway.backends b).owner).goesBy =
        (s.gateway.sessions (s.gateway.backends b).owner).goesBy) ∧
    ∀ m ∈ s.gateway.sent (s.gateway.backends b).owner, ∀ id n users conversations messages,
      m.message = .ready id n users conversations messages →
        ∃ p, p <+: s.heard b ∧ n = (goesBy (ownName c p)).2 := by
  have hk : Heeds s := h.invariant (heeds_init ..) fun _ _ _ hk hc hs => hk.step hc.1 hc.2 hs
  have hb := hk.sound.linked.created b c hc
  have hprefix : s.heard b <+: s.frames b := List.take_prefix ..
  have hgo : (s.gateway.sessions (s.gateway.backends b).owner).goesBy =
      goesBy (ownName c (s.heard b)) := by
    rw [hk.follows.owner b hb, hk.announced_eq hc hprefix]
  refine ⟨hgo, ?_, ?_, ?_⟩
  · intro fd r hfd hr hw hbr hn hread
    have hall : s.heard b = s.server.written c := by
      rw [heard, hread, List.take_length, frames_of_conn hc]
    have ha := hk.settled.announced_eq hfd hr hw hbr hn
    rw [← hall] at ha
    have hgo' := hk.follows.owner b hb
    rw [ha] at hgo'
    exact (Prod.mk.inj hgo').2
  · intro f o n s' hf hl ha hs
    have hk' := hk.deliver hs
    obtain ⟨hc', hown⟩ := conn_deliver hs hb
    have hprefix' : s'.heard b <+: s'.frames b := List.take_prefix ..
    rw [hgo, ← hown, hk'.follows.owner b (created_step hs hb),
      hk'.announced_eq (hc'.trans hc) hprefix']
    rcases heard_step hk.sound.linked hs b with hh | ⟨f', -, hf', hh⟩
    · rw [hh]
    · obtain rfl := Option.some.inj (hf.symm.trans hf')
      rw [hh, ownName, ownName, List.foldl_append]
      show goesBy (hearOwn c _ f) = _
      simp only [hearOwn, hl, if_neg ha]
  · intro m hm id n users conversations messages hr
    obtain ⟨p, hp, hn⟩ := hk.announces.owner b hb m hm id n users conversations messages hr
    exact ⟨p, hp, by rw [hn, hk.announced_eq hc (hp.trans hprefix)]⟩

/-- The first of two sessions is renamed. -/
def renamed : List Action :=
  twoReady ++ asksFor 0 "carol" ++ runs (.handler 0) 3 ++ [.deliver 0, .deliver 1]

set_option maxRecDepth 16000 in
theorem first_goes_by_new_name :
    ∃ s, Run step (init .sample {} .default) s ∧ s.read 0 = (s.frames 0).length ∧
    (s.gateway.sessions 0).nickname = name (bytes "carol") := by
  obtain ⟨s, hs, hc, hown, hfd, hr, hb, ht, hread⟩ := exists_runIn_of_any step
    (fun s a => OfGateway GatewayServer.JoinsOnce s a ∧ OfServer Server.Calm s a)
      (init .sample {} .default) renamed
    (fun s => s.conn 0 = some 0 ∧ (s.gateway.backends 0).owner = 0 ∧ s.server.fds 5 = some 0 ∧
      s.server.clients.find? 5 = some ⟨bytes "carol", true⟩ ∧ s.server.broken 0 = false ∧
      s.server.todo (.handler 0) = [] ∧ s.read 0 = (s.frames 0).length) (by decide)
  refine ⟨s, hs.run, hread, ?_⟩
  have hname := (goes_by_own_name hs hc).2.1 5 _ hfd hr rfl hb ?_ hread
  · rwa [hown] at hname
  · rintro o n ⟨op, hop, -⟩
    rw [ht] at hop
    cases hop

/-- The first of two sessions is being renamed, the second takes the nickname it gives up, and is
told so before it is told that the first gives it up. -/
def renamedTwice : List Action :=
  twoReady ++ asksFor 0 "carol" ++ asksFor 1 "alice" ++ runs (.handler 1) 3 ++ [.deliver 1] ++
  runs (.handler 0) 3 ++
    [.deliver 0, .deliver 0, .deliver 1]

set_option maxRecDepth 16000 in
/-- **The registry is ahead of what has been written**: a client has been renamed, and the `NICK`
is still to be broadcast. And where another client takes the old nickname meanwhile, it is renamed
in the gateway by a `NICK` that is not its own, and stays so when all has been written and read. -/
theorem nickname_not_in_registry :
    (¬ ∀ s, Run step (init .sample {} .default) s → ∀ b c fd r, s.conn b = some c →
      s.server.fds fd = some c →
      s.server.clients.find? fd = some r → s.read b = (s.frames b).length →
      (s.gateway.sessions (s.gateway.backends b).owner).nickname = name r.nickname) ∧
    ∃ s, Run step (init .sample {} .default) s ∧
      (s.gateway.sessions 1).nickname = name (bytes "carol") ∧
      s.conn 1 = some 1 ∧ s.server.fds 6 = some 1 ∧
      s.server.clients.find? 6 = some ⟨bytes "alice", true⟩ ∧
      s.read 1 = (s.frames 1).length ∧ s.server.todo .main = [] ∧
      ∀ c ∈ [0, 1], s.server.todo (.handler c) = [] := by
  constructor
  · intro hall
    obtain ⟨s, hs, hc, hown, hfd, hr, hread, hn⟩ :=
      exists_run_of_any step (init .sample {} .default)
      (twoReady ++ asksFor 0 "carol")
        (fun s => s.conn 0 = some 0 ∧ (s.gateway.backends 0).owner = 0 ∧ s.server.fds 5 = some 0 ∧
        s.server.clients.find? 5 = some ⟨bytes "carol", true⟩ ∧ s.read 0 = (s.frames 0).length ∧
        (s.gateway.sessions 0).nickname = units "alice") (by decide)
    have hname := hall s hs 0 0 5 _ hc hfd hr hread
    rw [hown, hn] at hname
    exact absurd hname (by decide)
  · exact exists_run_of_any step _ renamedTwice _ (by decide)

end Network

end ThreadLink.System
