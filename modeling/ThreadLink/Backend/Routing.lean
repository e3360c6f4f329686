import ThreadLink.Backend.Relay

/-!
# Routing a private message

A private message is routed in one block: the thread that has received it looks up its own
client and the target together. It answers with an error, or it sends `PRIV` to the target and
`PRIV_SENT` to its client, one after the other, and each time looks up the client once more.

## The model

`Steady` is what is assumed while the thread is at it: the sockets take its frames
(`Undisturbed`), and nobody is renamed or leaves.

## What is proved

* `Sending` — a thread that has frames to send, and what it has written so far.
* `Routing` — where the thread is with a private message.
* `routed_of_path` — when it has nothing left to do, it has written the message once to a
  connection if another welcomed client has that connection and uses the nickname, and then
  confirmed it once; if not, it has written at most errors and confirmations there.
* `uses_of_run` — a client uses its nickname as long as nobody is renamed or leaves.
-/

namespace ThreadLink.Backend

open Text Runs

/-- The frame says an error. -/
def Frame.IsErr (f : Frame) : Prop := ∃ code text, IsWord code ∧ f.line = .err code text

namespace Server

variable {config : LoadedConfig} {s s' b : Server} {a : Action} {c k : ConnId} {fd : Fd}
  {nick target text : Bytes}
  {serial : Option ℕ} {past : List (Server × Action)} {posts : List (Fd × Frame)}

/-! ### Nobody leaves -/

/-- Nobody who is in the registry is renamed by a step, or leaves. -/
def AllStay (s : Server) (a : Action) : Prop :=
  ∀ s' ∈ s.step a, ∀ e ∈ s.clients.entries, ∃ r ∈ s'.clients.find? e.1, r.nickname = e.2.nickname

instance (s : Server) (a : Action) : Decidable (AllStay s a) :=
  inferInstanceAs (Decidable (∀ s' ∈ s.step a, ∀ e ∈ _, ∃ r ∈ _, _))

/-- The thread of a connection is undisturbed, and nobody is renamed or leaves. -/
def Steady (c : ConnId) (s : Server) (a : Action) : Prop := Undisturbed c s a ∧ AllStay s a

/-- A client that has been welcomed is not unwelcomed. -/
theorem welcomed_step (h : step s a = some s') {r r' : ClientRecord}
    (hr : s.clients.find? fd = some r) (hw : r.welcomed = true)
    (hr' : s'.clients.find? fd = some r') : r'.welcomed = true := by
  rcases step_effect h with ⟨t, ch, op, rest, new, s₁, rfl, -, -, hE, rfl⟩ | ⟨-, hq⟩
  · have hr₁ : s₁.clients.find? fd = some r' := hr'
    have hsame (h : s₁.clients.find? fd = s.clients.find? fd) : r'.welcomed = true := by
      rw [hr₁, hr] at h
      rwa [Option.some.inj h]
    -- the record is changed for its nickname, or to mark it
    have hmodify (f : ClientRecord → ClientRecord) (fd' : Fd)
      (h : s₁.clients = s.clients.modify fd' f)
        (hf : (f r).welcomed = true) : r'.welcomed = true := by
      by_cases hfd : fd = fd'
      · subst hfd
        rw [h, OrdMap.find?_modify_self, hr] at hr₁
        rw [← Option.some.inj hr₁]
        exact hf
      · exact hsame (by rw [h, OrdMap.find?_modify_of_ne _ hfd])
    cases hE.clients with
    | same h => exact hsame (congrArg (OrdMap.find? · fd) h)
    | @add fd' _ _ _ _ h =>
      by_cases hk : fd' ∈ s.clients.keys
      · exact hsame (by rw [h, OrdMap.emplace_of_mem hk])
      · have hfd : fd ≠ fd' := fun he => hk (he ▸ OrdMap.mem_keys_of_find? hr)
        exact hsame (by rw [h, OrdMap.find?_emplace_of_ne _ hfd])
    | welcome h => exact hmodify _ _ h rfl
    | rename _ _ h => exact hmodify _ _ h hw
    | @erase fd' h =>
      by_cases hfd : fd = fd'
      · subst hfd
        rw [h, OrdMap.find?_erase_self] at hr₁
        cases hr₁
      · exact hsame (by rw [h, OrdMap.find?_erase_of_ne _ hfd])
  · rw [hq.find?, hr] at hr'
    rwa [← Option.some.inj hr']

/-- **A client that stays** keeps its connection and its nickname. -/
theorem AllStay.keeps (h : AllStay s a) (hI : Inv s) (hs : step s a = some s') {r : ClientRecord}
    (hk : s.fds fd = some k) (hr : s.clients.find? fd = some r) :
    s'.fds fd = some k ∧ ∃ r', s'.clients.find? fd = some r' ∧ r'.nickname = r.nickname ∧
      (r.welcomed = true → r'.welcomed = true) := by
  obtain ⟨r', hr', hn⟩ := h s' hs (fd, r) (OrdMap.find?_eq_some.mp hr)
  refine ⟨?_, r', hr', hn, fun hw => welcomed_step hs hr hw hr'⟩
  cases hf : s'.fds fd with
  | none =>
    rw [hI.find?_of_closes hs hk hf] at hr
    cases hr
  | some k' =>
    rcases step_fds hI hs hf with hf' | ⟨-, -, -, -, -, hf', -⟩
    · rw [← hf', hk]
    · rw [hk] at hf'
      cases hf'

/-! ### A list of frames -/

/-- What is posted reaches a connection. -/
def Goes (config : LoadedConfig) (b : Server) (k : ConnId) (p : Fd × Frame) : Prop :=
  b.fds p.1 = some k ∧ p.2.line.payload.length ≤ config.1.maxMessageSize

instance (config : LoadedConfig) (b : Server) (k : ConnId) (p : Fd × Frame) :
    Decidable (Goes config b k p) :=
  inferInstanceAs (Decidable (_ ∧ _))

/-- The clients of these descriptors are there, with the connections they had in `b`. -/
def Attended (b s : Server) (posts : List (Fd × Frame)) : Prop :=
  ∀ p ∈ posts, ∃ k, b.fds p.1 = some k ∧ s.fds p.1 = some k ∧ ∃ r, s.clients.find? p.1 = some r

theorem Attended.step (h : Attended b s posts) (hI : Inv s) (ha : AllStay s a)
    (hs : step s a = some s') : Attended b s' posts := by
  intro p hp
  obtain ⟨k, hb, hk, r, hr⟩ := h p hp
  obtain ⟨hk', r', hr', -⟩ := ha.keeps hI hs hk hr
  exact ⟨k, hb, hk', r', hr'⟩

/-- The blocks that send what is posted. -/
def sends (posts : List (Fd × Frame)) : List Op := posts.map fun p => .sendToFd p.1 p.2

/-- **Where a thread is** that has frames to send: `done` have been sent. -/
inductive Sending (config : LoadedConfig) (c : ConnId) (b : Server) (posts : List (Fd × Frame))
    (past : List (Server × Action)) (s : Server) : Prop where
  /-- It looks up the client of the next. -/
  | lookup {done rest : List (Fd × Frame)} (hp : posts = done ++ rest)
    (ht : s.todo (.handler c) = sends rest)
    (ha : Attended b s rest)
      (hw : ∀ k, writtenBy (.handler c) past k = (done.filter (Goes config b k)).map Prod.snd)
  /-- It has found it. -/
  | found {done rest : List (Fd × Frame)} {p : Fd × Frame} (hp : posts = done ++ p :: rest)
    (ht : s.todo (.handler c) = .sendFrame p.1 p.2 :: sends rest)
    (ha : Attended b s (p :: rest))
      (hw : ∀ k, writtenBy (.handler c) past k = (done.filter (Goes config b k)).map Prod.snd)

/-- A step of another thread leaves the thread where it is. -/
theorem Sending.other (h : Sending config c b posts past s) (hI : Inv s) (hq : Steady c s a)
    (ha : ∀ ch, a ≠ .run (.handler c) ch) (hs : step s a = some s') :
    Sending config c b posts (past ++ [(s, a)]) s' := by
  have htodo := todo_of_ne hq.1 ha hs
  have hwrites (k : ConnId) :
      writtenBy (.handler c) (past ++ [(s, a)]) k = writtenBy (.handler c) past k := by
    rw [writtenBy_concat, writes_of_ne ha, List.append_nil]
  cases h with
  | lookup hp ht hat hw =>
    exact .lookup hp (htodo.trans ht) (hat.step hI hq.2 hs) fun k => (hwrites k).trans (hw k)
  | found hp ht hat hw =>
    exact .found hp (htodo.trans ht) (hat.step hI hq.2 hs) fun k => (hwrites k).trans (hw k)

/-- **What `send_frame` writes**: it has to fit, and the socket has to take it. -/
theorem written_of_sendFrame (s : Server) (fd : Fd) (f : Frame) (ok : Bool) (x : ConnId) :
    (s.sendFrame fd f ok).written x = s.written x ++
      if f.line.payload.length ≤ s.config.1.maxMessageSize ∧ ok = true ∧ s.fds fd = some x ∧
        s.broken x = false
      then [f] else [] := by
  unfold sendFrame
  split
  · rename_i hlt
    rw [if_neg (fun h => absurd h.1 (not_le.mpr hlt)), List.append_nil]
  · rename_i hle
    cases hk : s.fds fd with
    | none =>
      rw [if_neg (fun h => by cases h.2.2.1), List.append_nil]
    | some k =>
      dsimp only
      cases hb : s.broken k with
      | true =>
        rw [if_pos rfl, if_neg, List.append_nil]
        rintro ⟨-, -, hx, hbx⟩
        rw [Option.some.inj hx, hbx] at hb
        cases hb
      | false =>
        rw [if_neg Bool.false_ne_true]
        cases ok with
        | false =>
          rw [if_neg Bool.false_ne_true, if_neg (fun h => by cases h.2.1), List.append_nil]
        | true =>
          rw [if_pos rfl]
          by_cases hx : x = k
          · subst hx
            rw [if_pos ⟨not_lt.mp hle, rfl, rfl, hb⟩]
            exact Function.update_self ..
          · rw [if_neg (fun h => hx (Option.some.inj h.2.2.1).symm), List.append_nil]
            exact Function.update_of_ne hx ..

/-- What it writes to a socket that takes it. -/
theorem sendFrame_written {f : Frame} (hk : s.fds fd = some k) (hb : s.broken k = false)
    (x : ConnId) :
    (s.sendFrame fd f true).written x = s.written x ++
      if k = x ∧ f.line.payload.length ≤ s.config.1.maxMessageSize then [f] else [] := by
  rw [written_of_sendFrame, hk]
  refine congrArg (s.written x ++ ·) (if_congr ?_ rfl rfl)
  constructor
  · rintro ⟨hlen, -, hx, -⟩
    exact ⟨Option.some.inj hx, hlen⟩
  · rintro ⟨rfl, hlen⟩
    exact ⟨hlen, rfl, rfl, hb⟩

/-- **A block of the thread itself** takes it on. -/
theorem Sending.own {ch : Choice} (h : Sending config c b posts past s) (hI : Inv s)
    (hc : s.config = config) (hq : Steady c s (.run (.handler c) ch))
    (hs : step s (.run (.handler c) ch) = some s') :
    Sending config c b posts (past ++ [(s, .run (.handler c) ch)]) s' := by
  obtain ⟨op, rest₀, s₁, new, ht₀, he, hs'⟩ := step_run hs
  have hwritten {l : ConnId → List Frame} (hl : ∀ x, s₁.written x = s.written x ++ l x)
      (x : ConnId) :
      writtenBy (.handler c) (past ++ [(s, .run (.handler c) ch)]) x =
      writtenBy (.handler c) past x ++ l x := by
    rw [writtenBy_concat, writes_of_run hs (by rw [hs']; exact hl x)]
  cases h with
  | @lookup done rest hp ht hat hw =>
    cases rest with
    | nil => rw [ht] at ht₀; cases ht₀
    | cons p rest =>
      have ht' : .sendToFd p.1 p.2 :: sends rest = op :: rest₀ := ht.symm.trans ht₀
      obtain ⟨rfl, rfl⟩ := List.cons.inj ht'
      obtain ⟨k, -, -, r, hr⟩ := hat p (.head _)
      simp only [exec, hr, Option.some.injEq, Prod.mk.injEq] at he
      obtain ⟨rfl, rfl⟩ := he
      refine .found hp (by rw [hs']; exact Function.update_self ..) (hat.step hI hq.2 hs) ?_
      intro x
      rw [hwritten (fun x => (List.append_nil (s.written x)).symm), List.append_nil, hw]
  | @found done rest p hp ht hat hw =>
    obtain ⟨rfl, rfl⟩ := List.cons.inj (ht.symm.trans ht₀)
    obtain ⟨hok, k', hk', hbr, -⟩ := hq.1 rfl _ _ _ ht
    obtain ⟨k, hbk, hk, -⟩ := hat p (.head _)
    obtain rfl := Option.some.inj (hk.symm.trans hk')
    simp only [exec, hok, Option.some.injEq, Prod.mk.injEq] at he
    obtain ⟨hs₁, rfl⟩ := he
    have hw₁ (x : ConnId) : s₁.written x = s.written x ++ if Goes config b x p then [p.2]
        else [] := by
      rw [← hs₁, sendFrame_written hk hbr, hc]
      simp only [Goes, hbk, Option.some.injEq]
    have hp' : posts = (done ++ [p]) ++ rest := by rw [hp, List.append_assoc]; rfl
    refine .lookup hp' (by rw [hs']; exact Function.update_self ..)
      (fun q hq' => (hat.step hI hq.2 hs) q (.tail _ hq')) ?_
    intro x
    rw [hwritten hw₁, hw, List.filter_append, List.map_append, List.filter_singleton]
    by_cases hg : Goes config b x p
    · simp only [hg, if_true, decide_true, Bool.cond_true, List.map_singleton]
    · simp only [hg, if_false, decide_false, Bool.cond_false, List.map_nil]

/-- When nothing is left to do, everything has been written where it goes. -/
theorem Sending.done (h : Sending config c b posts past s) (hd : s.todo (.handler c) = [])
    (k : ConnId) :
    writtenBy (.handler c) past k = (posts.filter (Goes config b k)).map Prod.snd := by
  cases h with
  | @lookup done rest hp ht _ hw =>
    have hrest : rest = [] := List.map_eq_nil_iff.mp (ht.symm.trans hd)
    rw [hw, hp, hrest, List.append_nil]
  | found _ ht => rw [hd] at ht; cases ht

theorem Sending.of_path {s₀ s₁ : Server} (h : Run step (init config) s₀)
    (h0 : Sending config c b posts [] s₀) (hp : PathIn step (Steady c) s₀ past s₁) :
    Sending config c b posts past s₁ := by
  apply at_work (c := c) h h0 hp
  · intro past s a s' hs hq ha hstep hS
    exact hS.other (inv_of_run hs) hq ha hstep
  · intro past s ch s' hs hq hstep hS
    exact hS.own (inv_of_run hs) (config_of_run hs) hq hstep

/-! ### A private message -/

/-- A welcomed client other than the one on `fd` has a connection and uses a nickname. -/
def Uses (s : Server) (fd : Fd) (target : Bytes) (k : ConnId) : Prop :=
  ∃ fd' r, fd' ≠ fd ∧ s.clients.find? fd' = some r ∧ r.welcomed = true ∧ r.nickname = target ∧
    s.fds fd' = some k

/-- **It still does** after a step in which nobody is renamed or leaves. -/
theorem Uses.step (h : s.Uses fd target k) (hI : Inv s) (ha : AllStay s a)
    (hs : step s a = some s') : s'.Uses fd target k := by
  obtain ⟨fd', r, hne, hr, hw, hn, hk⟩ := h
  obtain ⟨hk', r', hr', hn', hw'⟩ := ha.keeps hI hs hk hr
  exact ⟨fd', r', hne, hr', hw' hw, hn'.trans hn, hk'⟩

theorem uses_of_run (h : Run step (init config) s) (hp : RunIn step AllStay s s')
    (hu : s.Uses fd target k) : s'.Uses fd target k := by
  have hinv : Inv s' ∧ s'.Uses fd target k :=
    hp.invariant (I := fun s => Inv s ∧ s.Uses fd target k) ⟨inv_of_run h, hu⟩
    fun s a s' ⟨hI, hu⟩ hc hs => ⟨hI.step hs, hu.step hI hc hs⟩
  exact hinv.2

/-- The frame of a private message for a connection. -/
def privFrame (c k : ConnId) (nick text : Bytes) (serial : Option ℕ) : Frame :=
  ⟨.priv nick text, .priv (some c) (some k), serial⟩

/-- The frame that confirms one. -/
def sentFrame (target text : Bytes) (serial : Option ℕ) : Frame :=
  ⟨.privSent target text, .direct, serial⟩

/-- **What is posted for a private message**: the message and its confirmation, or else errors. -/
inductive Posted (b : Server) (c : ConnId) (fd : Fd) (nick target text : Bytes) (serial : Option ℕ)
    (posts : List (Fd × Frame)) : Prop where
  /-- Another welcomed client uses the nickname. -/
  | sent {fd' : Fd} {r : ClientRecord} {k : ConnId} (hne : fd' ≠ fd)
    (hr : b.clients.find? fd' = some r)
    (hw : r.welcomed = true) (hn : r.nickname = target) (hk : b.fds fd' = some k)
    (hp : posts = [(fd', privFrame c k nick text serial), (fd, sentFrame target text serial)])
  /-- None does. -/
  | refused (hno : ∀ k, ¬ b.Uses fd target k) (hp : ∀ p ∈ posts, p.2.IsErr)

/-- **The search for a target finds** the welcomed client that uses the nickname. -/
theorem findTarget_eq (hI : Inv s) (hN : Named s) {r : ClientRecord}
    (hr : s.clients.find? fd = some r) (hw : r.welcomed = true) (hn : r.nickname = target) :
    s.findTarget target = fd := by
  have hne : s.findTarget target ≠ -1 := by
    unfold findTarget
    split
    · rename_i e he
      obtain ⟨k, hk, -⟩ :=
        hI.owner e.1 e.2 (OrdMap.find?_eq_some.mpr (List.mem_of_find?_eq_some he))
      have hpos := hI.fd_nonneg _ _ hk
      intro heq
      rw [heq] at hpos
      exact absurd hpos (by decide)
    · rename_i hnone
      have hall := List.find?_eq_none.mp hnone (fd, r) (OrdMap.find?_eq_some.mp hr)
      simp [hw, hn] at hall
  obtain ⟨r', hr', -, hn'⟩ := findTarget_spec hne
  exact hN.registry.unique _ _ r' r hr' hr (hn'.trans hn.symm)

/-- The routing block posts it. -/
theorem routeMsg_posted (hI : Inv s) (hN : Named s) {r : ClientRecord} (hk : s.fds fd = some c)
    (hr : s.clients.find? fd = some r) (target text : Bytes) (serial : Option ℕ) :
    ∃ posts, s.routeMsg (.handler c) fd target text serial = sends posts ∧ Attended s s posts ∧
      Posted s c fd r.nickname target text serial posts := by
  have hself {f : Frame} : Attended s s [(fd, f)] := by
    intro p hp
    rw [List.mem_singleton.mp hp]
    exact ⟨c, hk, hk, r, hr⟩
  unfold routeMsg
  simp only [hr]
  split_ifs with h1 h2
  · refine ⟨[(fd, _)], rfl, hself, .refused ?_ ?_⟩
    · -- whoever uses the nickname would have been found
      rintro k ⟨fd', r', -, hr', hw', hn', hk'⟩
      have hpos := hI.fd_nonneg _ _ hk'
      rw [← findTarget_eq hI hN hr' hw' hn', h1] at hpos
      exact absurd hpos (by decide)
    · intro p hp
      rw [List.mem_singleton.mp hp]
      exact ⟨_, _, by decide, rfl⟩
  · refine ⟨[(fd, _)], rfl, hself, .refused ?_ ?_⟩
    · rintro k ⟨fd', r', hne, hr', hw', hn', -⟩
      exact hne ((findTarget_eq hI hN hr' hw' hn').symm.trans h2)
    · intro p hp
      rw [List.mem_singleton.mp hp]
      exact ⟨_, _, by decide, rfl⟩
  · obtain ⟨r', hr', hw', hn'⟩ := findTarget_spec h1
    obtain ⟨k, hk', -⟩ := hI.owner _ _ hr'
    refine ⟨[(s.findTarget target, privFrame c k r.nickname text serial),
      (fd, sentFrame target text serial)], ?_, ?_,
      .sent h2 hr' hw' hn' hk' rfl⟩
    · rw [hk']
      rfl
    · intro p hp
      rcases List.mem_cons.mp hp with rfl | hp
      · exact ⟨k, hk', hk', r', hr'⟩
      · exact hself p hp

/-- **Where the thread of a connection is** with a private message. -/
inductive Routing (config : LoadedConfig) (c : ConnId) (fd : Fd) (nick target text : Bytes)
    (serial : Option ℕ) (past : List (Server × Action)) (s : Server) : Prop where
  /-- It has to route it. -/
  | routing (ht : s.todo (.handler c) = [.handleMsg fd target text serial]) (hk : s.fds fd = some c)
    (hr : ∃ r, s.clients.find? fd = some r ∧ r.nickname = nick)
      (hw : ∀ k, writtenBy (.handler c) past k = [])
  /-- It has routed it in `b`, and sends what it has posted. -/
  | sending {b : Server} {ch : Choice} {posts : List (Fd × Frame)}
    (hb : (b, .run (.handler c) ch) ∈ past)
    (htb : b.todo (.handler c) = [.handleMsg fd target text serial]) (hk : b.fds fd = some c)
    (hp : Posted b c fd nick target text serial posts) (hs : Sending config c b posts past s)

/-- A step of another thread leaves the thread where it is. -/
theorem Routing.other (h : Routing config c fd nick target text serial past s) (hI : Inv s)
    (hq : Steady c s a) (ha : ∀ ch, a ≠ .run (.handler c) ch) (hs : step s a = some s') :
    Routing config c fd nick target text serial (past ++ [(s, a)]) s' := by
  cases h with
  | routing ht hk hr hw =>
    obtain ⟨r, hr, hn⟩ := hr
    obtain ⟨hk', r', hr', hn', -⟩ := hq.2.keeps hI hs hk hr
    refine .routing ((todo_of_ne hq.1 ha hs).trans ht) hk' ⟨r', hr', hn'.trans hn⟩ ?_
    intro k
    rw [writtenBy_concat, writes_of_ne ha, List.append_nil, hw]
  | sending hb htb hk hp hsend =>
    exact .sending (List.mem_append_left _ hb) htb hk hp (hsend.other hI hq ha hs)

/-- **A block of the thread itself** takes it on. -/
theorem Routing.own {ch : Choice} (h : Routing config c fd nick target text serial past s)
    (hI : Inv s) (hN : Named s) (hc : s.config = config) (hq : Steady c s (.run (.handler c) ch))
    (hs : step s (.run (.handler c) ch) = some s') :
    Routing config c fd nick target text serial (past ++ [(s, .run (.handler c) ch)]) s' := by
  cases h with
  | routing ht hk hr hw =>
    obtain ⟨r, hr, rfl⟩ := hr
    obtain ⟨op, rest₀, s₁, new, ht₀, he, hs'⟩ := step_run hs
    obtain ⟨rfl, rfl⟩ := List.cons.inj (ht.symm.trans ht₀)
    obtain ⟨posts, hp, hat, hposted⟩ := routeMsg_posted hI hN hk hr target text serial
    simp only [exec, Option.some.injEq, Prod.mk.injEq] at he
    obtain ⟨rfl, rfl⟩ := he
    refine .sending (List.mem_append_right _ (List.mem_singleton_self _)) ht hk hposted ?_
    refine .lookup (List.nil_append _).symm ?_ (hat.step hI hq.2 hs) ?_
    · rw [hs', hp, List.append_nil]
      exact Function.update_self ..
    · intro k
      rw [writtenBy_concat, writes_of_run hs (by rw [hs']; exact (List.append_nil _).symm),
        List.append_nil, hw]
      rfl
  | sending hb htb hk hp hsend =>
    exact .sending (List.mem_append_left _ hb) htb hk hp (hsend.own hI hc hq hs)

theorem Routing.of_path {s₀ s₁ : Server} (h : Run step (init config) s₀)
    (h0 : Routing config c fd nick target text serial [] s₀)
    (hp : PathIn step (Steady c) s₀ past s₁) :
    Routing config c fd nick target text serial past s₁ := by
  apply at_work (c := c) h h0 hp
  · intro past s a s' hs hq ha hstep hR
    exact hR.other (inv_of_run hs) hq ha hstep
  · intro past s ch s' hs hq hstep hR
    exact hR.own (inv_of_run hs) (named_of_run hs) (config_of_run hs) hq hstep

/-- **What becomes of a private message.** When the thread has nothing left to do, it has
routed the message in `b`. If another welcomed client had connection `k` and used the nickname,
the thread has written the message to `k` and the confirmation to its own client, each once; if
not, it has written at most errors and confirmations to `k`. -/
theorem routed_of_path {s₀ s₁ : Server} (h : Run step (init config) s₀)
    (h₀ : Routing config c fd nick target text serial [] s₀)
    (hp : PathIn step (Steady c) s₀ past s₁) (hd : s₁.todo (.handler c) = [])
    (hpriv : (ServerLine.priv nick text).payload.length ≤ config.1.maxMessageSize)
    (hsent : (ServerLine.privSent target text).payload.length ≤ config.1.maxMessageSize) :
    ∃ b ch, (b, .run (.handler c) ch) ∈ past ∧
      b.todo (.handler c) = [.handleMsg fd target text serial] ∧ ∀ k,
      (b.Uses fd target k → writtenBy (.handler c) past k = [privFrame c k nick text serial] ∧
        writtenBy (.handler c) past c = [sentFrame target text serial]) ∧
      (¬ b.Uses fd target k → ∀ f ∈ writtenBy (.handler c) past k,
        f = sentFrame target text serial ∨ f.IsErr) := by
  cases Routing.of_path h h₀ hp with
  | routing ht => rw [hd] at ht; cases ht
  | @sending b ch posts hb htb hk hposted hsend =>
    have hw := hsend.done hd
    have hrun : Run step (init config) b := h.trans (hp.mem hb).1.run
    have hI := inv_of_run hrun
    refine ⟨b, ch, hb, htb, ?_⟩
    intro k
    cases hposted with
    | @sent fd' r k' hne hr hwel hn hk' hp =>
      have hck : c ≠ k' := fun he => by
        have h1 := ((hI.fds_iff _ _).mp hk).1
        have h2 := ((hI.fds_iff _ _).mp hk').1
        exact hne (by rw [← h1, ← h2, he])
      have hone : writtenBy (.handler c) past k' = [privFrame c k' nick text serial] := by
        rw [hw, hp]
        simp [Goes, hk, hk', hck, privFrame, hpriv]
      have hother : writtenBy (.handler c) past c = [sentFrame target text serial] := by
        rw [hw, hp]
        simp [Goes, hk, hk', hck.symm, sentFrame, hsent]
      constructor
      · rintro ⟨fd'', r'', -, hr'', -, hn'', hk''⟩
        have hfd := (named_of_run hrun).registry.unique _ _ r'' r hr'' hr (hn''.trans hn.symm)
        subst hfd
        obtain rfl := Option.some.inj (hk'.symm.trans hk'')
        exact ⟨hone, hother⟩
      · intro hno f hf
        rw [hw, hp] at hf
        obtain ⟨p, hmem, rfl⟩ := List.mem_map.mp hf
        obtain ⟨hmem, hg⟩ := List.mem_filter.mp hmem
        simp only [List.mem_cons, List.not_mem_nil, or_false] at hmem
        rcases hmem with rfl | rfl
        · exact absurd ⟨fd', r, hne, hr, hwel, hn, (of_decide_eq_true hg).1⟩ hno
        · exact .inl rfl
    | refused hno hp =>
      refine ⟨fun hu => absurd hu (hno k), ?_⟩
      intro _ f hf
      rw [hw] at hf
      obtain ⟨p, hmem, rfl⟩ := List.mem_map.mp hf
      exact .inr (hp p (List.mem_filter.mp hmem).1)

/-- The thread that has received a private message is to route it. -/
theorem routing_of_recv {f : ClientFrame} {rest : List ClientFrame} {r : ClientRecord} {s₀ : Server}
    (h : Run step (init config) s) (hr : s.clients.find? (s.fdOf c) = some r)
    (hin : s.inbox c = f :: rest) (hlen : f.payload.length ≤ config.1.maxMessageSize)
    (hf : f.Messages target text) (hs : step s (.recv c) = some s₀) :
    Routing config c (s.fdOf c) r.nickname target text f.serial [] s₀ := by
  obtain ⟨ht, -, hfds, hclients, hk, -⟩ := received h hin hs
  refine .routing ?_ (hfds ▸ hk) ⟨r, hclients ▸ hr, rfl⟩ fun _ => rfl
  rw [ht, handleFrame_of_fits hlen, handleLine_of_messages hf]

/-- One that answers what it has received with one frame writes nothing else. -/
theorem answered_of_recv {f : ClientFrame} {rest : List ClientFrame} {s₀ s₁ : Server} {g : Frame}
    (h : Run step (init config) s) (hin : s.inbox c = f :: rest) (hs : step s (.recv c) = some s₀)
    (hg : handleFrame config.1 (s.fdOf c) f = [.sendToFd (s.fdOf c) g])
    (hp : PathIn step (Steady c) s₀ past s₁) (hd : s₁.todo (.handler c) = []) (k : ConnId) :
    ∀ f' ∈ writtenBy (.handler c) past k, f' = g := by
  obtain ⟨ht, -, hfds, hclients, hk, r, hr⟩ := received h hin hs
  rw [← hfds] at hk
  have h₀ : Sending config c s₀ [(s.fdOf c, g)] [] s₀ := by
    refine .lookup (List.nil_append _).symm (ht.trans hg) ?_ fun _ => rfl
    intro p hp
    rw [List.mem_singleton.mp hp]
    exact ⟨c, hk, hk, r, hclients ▸ hr⟩
  intro f' hf'
  rw [(h₀.of_path (h.tail trivial hs) hp).done hd] at hf'
  obtain ⟨p, hmem, rfl⟩ := List.mem_map.mp hf'
  rw [List.mem_singleton.mp (List.mem_filter.mp hmem).1]

end Server

end ThreadLink.Backend
