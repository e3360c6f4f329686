import ThreadLink.Backend.Renames

/-!
# What a client is told of its own name

A client that listens to its frames learns its nickname from WELCOME, and changes it
when a NICK line names the nickname it goes by (`announced`). NICK is sent after the
registry has been changed; so until then the client is behind, and a nickname that has
been given up may be given to another client while the NICK that gives it up is still
under way.

## What is proved

* `Mirrored` — in a run in which no nickname is given to a client while a NICK that
  gives it up is under way (`Calm`), what a client was told is what the registry says,
  or was before the rename that it is still to be told of (`mirrored_of_run`).
-/

namespace ThreadLink.Backend

open Text Runs

/-- The nickname a block says is given up. -/
def Op.oldNick (op : Op) : Option Bytes :=
  match op.line with
  | some (.nick o _) => some o
  | _ => none

theorem Op.oldNick_of_line {op : Op} {o n : Bytes} (h : op.line = some (.nick o n)) :
    op.oldNick = some o := by
  rw [Op.oldNick, h]

namespace Server

variable {s s' : Server} {t : Tid} {ch : Choice} {op : Op} {rest new : List Op} {a : Action}
  {fd : Fd} {f : Frame}
  {c k : ConnId} {o n : Bytes}

/-- **The condition**: no nickname is given to a client while it is still to be said that
another gave it up. -/
def Calm (s : Server) (a : Action) : Prop :=
  ∀ n ∈ s.gives a, ∀ t ∈ s.threads, ∀ op ∈ s.todo t, op.oldNick ≠ some n

instance (s : Server) (a : Action) : Decidable (Calm s a) :=
  inferInstanceAs
    (Decidable (∀ n ∈ s.gives a, ∀ t ∈ s.threads, ∀ op ∈ s.todo t, op.oldNick ≠ some n))

theorem Calm.not_renames (hc : Calm s a) (hI : Inv s) (hg : s.gives a = some o) :
    ¬ s.Renames c o n := by
  rintro ⟨op, hop, hl⟩
  exact hc o hg _ (hI.mem_threads (List.ne_nil_of_mem hop)) op hop (Op.oldNick_of_line hl)

/-- Connection `k` is still to be told of its own rename. -/
def Awaits (s : Server) (k : ConnId) (o n : Bytes) : Prop :=
  ∃ op ∈ s.todo (.handler k), op.line = some (.nick o n) ∧
    (op.delivery = none ∨ ∃ f, op.delivery = some (s.fdOf k, f))

/-- The NICK line with which connection `c` gives up `o` is on its way to connection `k`. -/
def Reaches (s : Server) (c : ConnId) (o : Bytes) (k : ConnId) : Prop :=
  ∃ fd f n, (fd, f) ∈ s.pending (.handler c) ∧ f.line = .nick o n ∧ s.fds fd = some k

/-- **The invariant of what clients were told.** -/
structure Mirrored (s : Server) : Prop where
  /-- Nobody else uses a nickname while it is said that a client gave it up. -/
  gone : ∀ c o n, s.Renames c o n → ∀ k, s.Holds k o → k = c
  /-- Nor goes by it. -/
  apart : ∀ c o n, s.Renames c o n → ∀ k, k ≠ c → s.broken k = false → (s.stage k).Listed ∨
    s.Reaches c o k →
    announced (s.written k) ≠ some o
  /-- A client is still to be welcomed, or goes by the nickname it uses, or is still to be
  told of it. -/
  mirror : ∀ k n, s.Holds k n → s.broken k = false →
    (∃ fd, s.fds fd = some k ∧ (fd, welcomeFrame n) ∈ s.pending .main) ∨
    announced (s.written k) = some n ∨
      ∃ o, s.Awaits k o n ∧ announced (s.written k) = some o
  /-- A client hears of no other renames than its own. -/
  own : ∀ k p, p <+: s.written k → announced p = p.foldl (hearOwn k) none

theorem Holds.eq {n' : Bytes} (h : s.Holds k n) (h' : s.Holds k n') : n = n' := by
  obtain ⟨r, -, hr, rfl⟩ := h
  obtain ⟨r', -, hr', rfl⟩ := h'
  rw [Option.some.inj (hr.symm.trans hr')]

theorem Awaits.renames (h : s.Awaits k o n) : s.Renames k o n :=
  let ⟨op, hop, hl, _⟩ := h
  ⟨op, hop, hl⟩

/-- A connection that is renamed is served. -/
theorem Renames.serving (hI : Inv s) (hR : Renaming s) (h : s.Renames c o n) :
    s.stage c = .serving := by
  obtain ⟨op, hop, -⟩ := id h
  obtain ⟨r, hk, hr, -⟩ := hR.holds c o n h
  obtain ⟨c', hc', hl⟩ := hI.owner _ r hr
  obtain rfl := Option.some.inj (hk.symm.trans hc')
  rcases hl with hl | hl
  · have hto := hI.handler c
    rw [hl] at hto
    generalize s.todo (.handler c) = l at hto hop
    generalize s.alive c = al at hto
    cases hto
    cases hop
  · exact hl

/-- **What a client makes of a frame**: nothing, or it goes by the nickname it uses; and
that is what it makes of it if it listens to its own renames only. -/
theorem Mirrored.hear_cases (hM : Mirrored s) (hI : Inv s) (hS : Spoken s) (hR : Renaming s)
    (ht : s.todo t = .sendFrame fd f :: rest) (hk : s.fds fd = some k) (hb : s.broken k = false) :
    ∃ name, hear (announced (s.written k)) f = name ∧ hearOwn k (announced (s.written k)) f = name ∧
      (name = announced (s.written k) ∨ ∃ n, s.Holds k n ∧ name = some n) := by
  cases hl : f.line with
  | welcome n =>
    obtain ⟨c, hc, -, hr, -, -⟩ := hS.welcome_write hI ht hl
    obtain rfl := Option.some.inj (hk.symm.trans hc)
    exact ⟨some n,
      by
        simp [hear, hl],
          by simp [hearOwn, hl], .inr ⟨n, (holds_iff hI).mpr ⟨fd, _, hk, hr, rfl⟩, rfl⟩⟩
  | nick o n =>
    obtain ⟨c, rfl, -, -, ⟨_, hop⟩ | ⟨_, taken, serial, hop⟩⟩ :=
      (hS.todo t _ (mem_todo_head ht)).nick o n (by rw [Op.line, hl]) <;> cases hop
    have hren : s.Renames c o n := ⟨_, mem_todo_head ht, rfl⟩
    by_cases hck : c = k
    · -- its own rename
      subst hck
      have hold := hR.holds c o n hren
      refine ⟨some n, ?_, by simp [hearOwn, Frame.about], .inr ⟨n, hold, rfl⟩⟩
      rcases hM.mirror c n hold hb with ⟨fd', hfd', hp⟩ | ha | ⟨o', haw, ha⟩
      · obtain ⟨c', hc', hst, -⟩ := hI.pending_welcome hp
        obtain rfl := Option.some.inj (hfd'.symm.trans hc')
        rw [hren.serving hI hR] at hst
        cases hst
      · simp [hear, ha]
      · obtain ⟨rfl, -⟩ := hR.one c o' n o n haw.renames hren
        simp [hear, ha]
    · have hne := hM.apart c o n hren k (Ne.symm hck) hb
        (.inr ⟨fd, _, n, mem_pending.mpr ⟨_, mem_todo_head ht, rfl⟩, rfl, hk⟩)
      exact ⟨_, by simp [hear, hne], by simp [hearOwn, Frame.about, hck], .inl rfl⟩
  | _ => exact ⟨_, by simp [hear, hl], by simp [hearOwn, hl], .inl rfl⟩

/-- What a connection goes by after a step: as before, or by the nickname it uses. -/
theorem Mirrored.announced_step (hM : Mirrored s) (hI : Inv s) (hS : Spoken s) (hR : Renaming s)
    (h : step s a = some s') (k : ConnId) : announced (s'.written k) = announced (s.written k) ∨
      ∃ n, s.Holds k n ∧ announced (s'.written k) = some n := by
  rcases step_writes h k with hw | ⟨t, ch, rest, fd, f, -, ht, hfd, hb, -, hw⟩
  · exact .inl (by rw [hw])
  · obtain ⟨name, h1, -, h2⟩ := hM.hear_cases hI hS hR ht hfd hb
    rw [hw, announced_concat, h1]
    exact h2.imp id fun ⟨n, hn, he⟩ => ⟨n, hn, he⟩

/-! ### What a step preserves -/

theorem broken_of_step (h : step s a = some s') (hb : s'.broken k = false) :
    s.broken k = false := by
  rcases step_effect h with ⟨t, ch, op, rest, new, s₁, rfl, ht, he, hE, rfl⟩ | ⟨-, hq⟩
  · cases hk : s.broken k with
    | false => rfl
    | true =>
      rw [show (s₁.setTodo t (new ++ rest)).broken k = s₁.broken k from rfl, hE.broken k hk] at hb
      cases hb
  · rwa [hq.broken] at hb

/-- A connection that is listed after a step was listed before it, or has just been
registered. -/
theorem listed_of_step (hI : Inv s) (hI' : Inv s') (h : step s a = some s')
    (hl : (s'.stage k).Listed) : (s.stage k).Listed ∨ s.stage k = .accepted := by
  obtain ⟨r, hr⟩ := hI'.listed k hl
  have hk :=
    hI'.fds_fdOf (c := k) (by rcases hl with hl | hl <;> rw [hl] <;> exact ⟨by decide, by decide⟩)
  have hold {r' : ClientRecord} (hr' : s.clients.find? (s'.fdOf k) = some r') :
      (s.stage k).Listed := by
    rw [fds_step hI hI' h hr' hr] at hk
    obtain ⟨c, hc, hl⟩ := hI.owner _ r' hr'
    exact Option.some.inj (hk.symm.trans hc) ▸ hl
  rcases find?_step h hr with ⟨r', hr', -⟩ | hg
  · exact .inl (hold hr')
  · generalize hfd : s'.fdOf k = fd at hg hk
    cases hg with
    | @register t ch _ c rest n ht =>
      obtain ⟨rfl, hc, rfl⟩ := hI.main_of_register ht
      have hst := hI.accepted_of_register ht
      have hfds := hI.fds_fdOf (c := c) (hst ▸ ⟨by decide, by decide⟩)
      rcases step_fds hI h hk with hk | ⟨_, _, -, -, -, hn, -⟩
      · rw [← hc, hfds] at hk
        exact .inr (Option.some.inj hk ▸ hst)
      · rw [← hc, hfds] at hn
        cases hn
    | rename _ _ hr' => exact .inl (hold (hfd ▸ hr'))

/-- A NICK on its way to a connection after a step was on its way before it, or the
connection is listed, or has just been accepted. -/
theorem Reaches.of_step (hI : Inv s) (h : step s a = some s') (hr : s'.Reaches c o k) :
    s.Reaches c o k ∨ (s.stage k).Listed ∨ s.stage k = .unborn := by
  obtain ⟨fd, f, n, hp, hl, hk⟩ := hr
  obtain ⟨op, hop, hd⟩ := mem_pending.mp hp
  have hfds : s.fds fd = some k ∨ s.stage k = .unborn := by
    rcases step_fds hI h hk with hk | ⟨_, _, -, -, -, -, rfl⟩
    · exact .inl hk
    · exact .inr ((hI.unborn_iff _).mpr le_rfl)
  rcases hfds with hfds | hu
  · have hline : op.line = some (.nick o n) := by rw [Op.line_of_delivery hd, hl]
    rcases step_mem_todo h hop with hold | ⟨ch, op₀, rest, s₁, new, ha, ht, he, hs', hnew⟩ | hs
    · exact .inl ⟨fd, f, n, mem_pending.mpr ⟨op, hold, hd⟩, hl, hfds⟩
    · cases exec_makes he op hnew with
      | silent hs => rw [hs.1] at hd; cases hd
      | broadcast | rename => cases hd
      | reply _ _ hn _ hd' =>
        rw [Op.line_of_delivery hd'] at hline
        rw [Option.some.inj hline] at hn
        exact absurd trivial hn
      | greet => simp [Op.line, welcomeFrame] at hline
      | relay hd' =>
        cases hd
        exact .inl ⟨fd, f, n, mem_pending.mpr ⟨op₀, mem_todo_head ht, hd'⟩, hl, hfds⟩
      | announce _ hr =>
        cases hd
        obtain ⟨c', hc', hls⟩ := hI.owner _ _ hr
        exact .inr (.inl (Option.some.inj (hfds.symm.trans hc') ▸ hls))
      | priv => cases hd; cases hl
    · exact absurd trivial (hs.not_names _ hline)
  · exact .inr (.inr hu)

theorem Mirrored.gone_step (hM : Mirrored s) (hI : Inv s) (hI' : Inv s') (hN : Named s)
    (hN' : Named s') (hR : Renaming s) (hc : Calm s a) (h : step s a = some s')
    (hr : s'.Renames c o n) (hk : s'.Holds k o) : k = c := by
  rcases hr.of_step hI hR.alone h with hr | hr
  · rcases hk.of_step hI hI' h with hk | hg
    · exact hM.gone c o n hr k hk
    · exact absurd hr (hc.not_renames hI hg)
  · rcases hk.of_step hI hI' h with hk | hg
    · exact hN.holder_unique hk hr.holds
    · -- it is renamed to the nickname it has
      obtain ⟨ch, rfl⟩ := hr.run
      obtain ⟨r, -, hf, -⟩ := hr.holds
      simp only [gives, hr.todo, hr.free, hf, Option.isNone_some, Bool.or_self, Bool.false_eq_true,
        if_false,
        Option.some.injEq] at hg
      exact hN'.holder_unique (hg ▸ hk) (hr.holds_new hI')

/-- A connection that is listed uses a nickname. -/
theorem Inv.holds_of_listed (hI : Inv s) (hl : (s.stage k).Listed) : ∃ n, s.Holds k n := by
  obtain ⟨r, hr⟩ := hI.listed k hl
  have hk :=
    hI.fds_fdOf (c := k) (by rcases hl with hl | hl <;> rw [hl] <;> exact ⟨by decide, by decide⟩)
  exact ⟨r.nickname, r, hk, hr, rfl⟩

/-- When a connection gives up a nickname, no other goes by it. -/
theorem Mirrored.apart_renamed (hM : Mirrored s) (hN : Named s) (hF : Fresh s) (hI : Inv s)
    (hr : Renamed s a s' c o n) (hkc : k ≠ c) (hb : s.broken k = false) (hl : (s.stage k).Listed) :
    announced (s.written k) ≠ some o := by
  intro ha
  obtain ⟨n', hk⟩ := hI.holds_of_listed hl
  rcases hM.mirror k n' hk hb with ⟨fd, hfd, hp⟩ | ha' | ⟨o', haw, ha'⟩
  · rw [hF k (.inr (.inr ⟨fd, n', hfd, hp⟩))] at ha
    cases ha
  · obtain rfl := Option.some.inj (ha.symm.trans ha')
    exact hkc (hN.holder_unique hk hr.holds)
  · obtain rfl := Option.some.inj (ha.symm.trans ha')
    exact hkc (hM.gone k o n' haw.renames c hr.holds).symm

theorem Mirrored.apart_step (hM : Mirrored s) (hI : Inv s) (hI' : Inv s') (hN : Named s)
    (hS : Spoken s) (hR : Renaming s) (hF : Fresh s) (h : step s a = some s')
    (hr : s'.Renames c o n) (hkc : k ≠ c) (hb : s'.broken k = false)
    (hl : (s'.stage k).Listed ∨ s'.Reaches c o k) : announced (s'.written k) ≠ some o := by
  have hb' := broken_of_step h hb
  rcases hr.of_step hI hR.alone h with hr | hr
  · have hbase : announced (s.written k) ≠ some o := by
      have hfresh (hk : s.Untold k) : announced (s.written k) ≠ some o := by
        rw [hF k hk]
        exact nofun
      rcases hl with hl | hl
      · rcases listed_of_step hI hI' h hl with hl | hl
        · exact hM.apart c o n hr k hkc hb' (.inl hl)
        · exact hfresh (.inr (.inl hl))
      · rcases hl.of_step hI h with hl | hl | hl
        · exact hM.apart c o n hr k hkc hb' (.inr hl)
        · exact hM.apart c o n hr k hkc hb' (.inl hl)
        · exact hfresh (.inl hl)
    rcases hM.announced_step hI hS hR h k with he | ⟨n', hk, he⟩
    · rwa [he]
    · rw [he]
      intro hn
      obtain rfl := Option.some.inj hn
      exact hkc (hM.gone c n' n hr k hk)
  · rw [hr.eq] at hl ⊢
    rcases hl with hl | ⟨fd, f, n', hp, -⟩
    · exact hM.apart_renamed hN hF hI hr hkc hb' hl
    · simp [Server.pending, setTodo, Op.delivery] at hp

/-- A frame that fits is written, unless the connection breaks. -/
theorem written_sendFrame {ok : Bool} (hf : f.line.payload.length ≤ s.config.1.maxMessageSize)
    (hk : s.fds fd = some k) (hb : (s.sendFrame fd f ok).broken k = false) :
    (s.sendFrame fd f ok).written k = s.written k ++ [f] := by
  unfold sendFrame at hb ⊢
  rw [if_neg (not_lt.mpr hf)] at hb ⊢
  simp only [hk] at hb ⊢
  cases hbk : s.broken k with
  | true => simp [hbk] at hb
  | false => cases ok <;> simp_all

/-- A nickname is short. -/
theorem length_le_of_valid (h : isValidNickname n = true) : n.length ≤ 24 :=
  (isValidNickname_iff.mp h).2.1

/-- A NICK line always fits. -/
theorem nick_fits (ho : isValidNickname o = true) (hn : isValidNickname n = true) :
    (ServerLine.nick o n).payload.length ≤ s.config.1.maxMessageSize := by
  have h1 := length_le_of_valid ho
  have h2 := length_le_of_valid hn
  have h3 := s.config.2.maxMessageSize.1
  have h4 : (bytes "NICK ").length = 5 := by decide
  have h5 : (bytes " ").length = 1 := by decide
  simp only [ServerLine.payload, List.length_append]
  omega

/-- Nor is WELCOME too long. -/
theorem welcome_fits (hn : isValidNickname n = true) :
    (welcomeFrame n).line.payload.length ≤ s.config.1.maxMessageSize := by
  have h1 := length_le_of_valid hn
  have h2 := s.config.2.maxMessageSize.1
  have h3 : (bytes "WELCOME ").length = 8 := by decide
  simp only [welcomeFrame, ServerLine.payload, List.length_append]
  omega

/-- A client that is to be welcomed still is after a step, or has been. -/
theorem greeting_step (hI : Inv s) (hS : Spoken s) (h : step s a = some s')
    (hfd : s.fds fd = some k) (hp : (fd, welcomeFrame n) ∈ s.pending .main)
    (hb : s'.broken k = false) :
    (fd, welcomeFrame n) ∈ s'.pending .main ∨ announced (s'.written k) = some n := by
  obtain ⟨op, hop, hd⟩ := mem_pending.mp hp
  obtain ⟨-, -, -, hr⟩ := hI.pending_welcome hp
  rcases step_keeps_todo h hop with hop | ⟨ch, rest, s₁, new, -, ht, he, rfl⟩
  · exact .inl (mem_pending.mpr ⟨op, hop, hd⟩)
  · cases op <;> cases hd
    · simp only [exec, hr, Option.some.injEq, Prod.mk.injEq] at he
      obtain ⟨rfl, rfl⟩ := he
      exact .inl (mem_pending.mpr ⟨.sendFrame fd (welcomeFrame n), by simp [setTodo], rfl⟩)
    · simp only [exec, Option.some.injEq, Prod.mk.injEq] at he
      obtain ⟨rfl, rfl⟩ := he
      have hv := ((hS.todo _ _ (mem_todo_head ht)).welcome n rfl).2.1
      right
      rw [show ((s.sendFrame fd (welcomeFrame n) ch.ok).setTodo .main ([] ++ rest)).written k =
          _ from
        written_sendFrame (welcome_fits hv) hfd hb, announced_concat]
      rfl

/-- A client that is to be told of its rename still is after a step, or has been. -/
theorem awaits_step (hI : Inv s) (hS : Spoken s) (hR : Renaming s) (h : step s a = some s')
    (haw : s.Awaits k o n) (ha : announced (s.written k) = some o) (hfd' : s'.fdOf k = s.fdOf k)
    (hb : s'.broken k = false) : s'.Awaits k o n ∨ announced (s'.written k) = some n := by
  have hst := haw.renames.serving hI hR
  have hk := hI.fds_fdOf (c := k) (hst ▸ ⟨by decide, by decide⟩)
  obtain ⟨op, hop, hl, hd⟩ := haw
  rcases step_keeps_todo h hop with hop | ⟨ch, rest, s₁, new, -, ht, he, rfl⟩
  · exact .inl ⟨op, hop, hl, by rwa [hfd']⟩
  · obtain ⟨c, hc, ho, hn, ⟨serial, rfl⟩ | ⟨fd, taken, serial, rfl⟩⟩ :=
      (hS.todo _ _ (mem_todo_head ht)).nick o n hl
    · -- the connection is one of the targets
      obtain ⟨r, hr⟩ := hI.listed k (.inr hst)
      have hw := hI.welcomed k r hst hr
      have hnn := hI.fd_nonneg _ _ hk
      have htgt : s.fdOf k ∈ s.targets (-1) := by
        refine List.mem_map.mpr
          ⟨(s.fdOf k, r), List.mem_filter.mpr ⟨OrdMap.find?_eq_some.mp hr, ?_⟩, rfl⟩
        simp only [hw, Bool.and_true, bne_iff_ne, ne_eq]
        rintro he
        rw [he] at hnn
        exact absurd hnn (by decide)
      simp only [exec, Option.some.injEq, Prod.mk.injEq] at he
      obtain ⟨rfl, rfl⟩ := he
      refine .inl ⟨.sendFrame (s.fdOf k) ⟨.nick o n, .broadcast (some c) s.nextConn, serial⟩, ?_,
        rfl, .inr ⟨_, rfl⟩⟩
      simp only [setTodo, Function.update_self, List.mem_append]
      exact .inl (List.mem_map.mpr ⟨_, htgt, rfl⟩)
    · rcases hd with hd | ⟨f, hd⟩ <;> cases hd
      simp only [exec, Option.some.injEq, Prod.mk.injEq] at he
      obtain ⟨rfl, rfl⟩ := he
      right
      rw [show ((s.sendFrame (s.fdOf k) _ ch.ok).setTodo (.handler k) ([] ++ rest)).written k =
          _ from
        written_sendFrame (nick_fits ho hn) hk hb, announced_concat, ha]
      simp [hear]

/-- A client that is registered is to be welcomed. -/
theorem greeting_of_register (hI : Inv s) (h : step s (.run t ch) = some s')
    (ht : s.todo t = .register fd c :: rest) (hs : s.clients.size < s.config.1.maxClients)
    (hn : assignDefaultNickname s.nicknames = some n) :
    (fd, welcomeFrame n) ∈ s'.pending .main := by
  obtain ⟨rfl, -, rfl⟩ := hI.main_of_register ht
  obtain ⟨op, rest', s₁, new, ht', he, rfl⟩ := step_run h
  rw [ht, List.cons.injEq] at ht'
  obtain ⟨rfl, rfl⟩ := ht'
  cases exec_done he with
  | full hf => exact absurd hs (not_lt.mpr hf)
  | registered _ hn' =>
    obtain rfl := Option.some.inj (hn.symm.trans hn')
    exact mem_pending.mpr ⟨.sendToFd fd (welcomeFrame n), by simp [setTodo], rfl⟩

/-- A client that is renamed is to be told of it. -/
theorem Mirrored.awaits_of_renamed (hM : Mirrored s) (hI : Inv s) (hA : Alone s)
    (hr : Renamed s a s' k o n) (hb : s.broken k = false) :
    s'.Awaits k o n ∧ announced (s'.written k) = some o := by
  have ha : announced (s.written k) = some o := by
    rcases hM.mirror k o hr.holds hb with ⟨fd, hfd, hp⟩ | ha | ⟨o', haw, -⟩
    · obtain ⟨c, hc, hst, -⟩ := hI.pending_welcome hp
      obtain rfl := Option.some.inj (hfd.symm.trans hc)
      rw [hr.stage] at hst
      cases hst
    · exact ha
    · exact absurd haw.renames (hA.not_renames (mem_todo_head hr.todo))
  rw [hr.eq]
  exact ⟨⟨.broadcast (.nick o n) (-1) (some k) none, by simp [setTodo], rfl, .inl rfl⟩, ha⟩

theorem Mirrored.mirror_step (hM : Mirrored s) (hI : Inv s) (hI' : Inv s') (hS : Spoken s)
    (hR : Renaming s) (hk' : s'.Holds k n) (h : step s a = some s') (hb : s'.broken k = false) :
    (∃ fd, s'.fds fd = some k ∧ (fd, welcomeFrame n) ∈ s'.pending .main) ∨
    announced (s'.written k) = some n ∨
      ∃ o, s'.Awaits k o n ∧ announced (s'.written k) = some o := by
  have hb' := broken_of_step h hb
  obtain ⟨r, hfds, hr, rfl⟩ := id hk'
  rcases find?_step h hr with ⟨r', hr', hn⟩ | hg
  · -- it kept its nickname
    have hfds' : s.fds (s'.fdOf k) = some k := by rw [← fds_step hI hI' h hr' hr, hfds]
    have hfd : s'.fdOf k = s.fdOf k := ((hI.fds_iff _ _).mp hfds').1.symm
    have hk : s.Holds k r.nickname := (holds_iff hI).mpr ⟨_, r', hfds', hr', hn.symm⟩
    have hstep := hM.announced_step hI hS hR h k
    have hnew (hs : ∃ n, s.Holds k n ∧ announced (s'.written k) = some n) :
        announced (s'.written k) = some r.nickname := by
      obtain ⟨n, hk', he⟩ := hs
      rw [he, hk'.eq hk]
    rcases hM.mirror k _ hk hb' with ⟨fd, hfd', hp⟩ | ha | ⟨o, haw, ha⟩
    · rcases greeting_step hI hS h hfd' hp hb with hp | ha
      · have hfd₁ : fd = s'.fdOf k := by rw [hfd, ((hI.fds_iff _ _).mp hfd').1]
        exact .inl ⟨fd, by rw [hfd₁, hfds], hp⟩
      · exact .inr (.inl ha)
    · rcases hstep with he | hs
      · exact .inr (.inl (by rw [he, ha]))
      · exact .inr (.inl (hnew hs))
    · rcases awaits_step hI hS hR h haw ha hfd hb with haw | ha'
      · rcases hstep with he | hs
        · exact .inr (.inr ⟨o, haw, by rw [he, ha]⟩)
        · exact .inr (.inl (hnew hs))
      · exact .inr (.inl ha')
  · generalize hfd : s'.fdOf k = fd at hg hfds
    generalize hname : r.nickname = n at hg
    cases hg with
    | register ht hs hn => exact .inl ⟨fd, hfds, greeting_of_register hI h ht hs hn⟩
    | rename ht hnt hr₀ =>
      obtain ⟨c, hc, hren⟩ := renamed_of_head hI hR.alone h ht hnt hr₀
      obtain rfl : k = c := by
        have hck := hI.fds_fdOf (c := c) (hren.stage ▸ ⟨by decide, by decide⟩)
        rw [hren.eq] at hfds
        exact Option.some.inj (hfds.symm.trans (hc ▸ hck))
      exact .inr (.inr ⟨_, hM.awaits_of_renamed hI hR.alone hren hb'⟩)

/-- **A calm step** keeps what clients were told in order. -/
theorem Mirrored.step (hM : Mirrored s) (hI : Inv s) (hI' : Inv s') (hN : Named s) (hN' : Named s')
    (hS : Spoken s) (hR : Renaming s) (hF : Fresh s) (hc : Calm s a) (h : step s a = some s') :
    Mirrored s' where
  gone _ _ _ hr _ hk := hM.gone_step hI hI' hN hN' hR hc h hr hk
  apart _ _ _ hr _ hkc hb hl := hM.apart_step hI hI' hN hS hR hF h hr hkc hb hl
  mirror _ _ hk hb := hM.mirror_step hI hI' hS hR hk h hb
  own k p hp := by
    rcases step_writes h k with hw | ⟨t, ch, rest, fd, f, -, ht, hfd, hb, -, hw⟩
    · exact hM.own k p (hw ▸ hp)
    · rw [hw, List.prefix_concat_iff] at hp
      rcases hp with rfl | hp
      · obtain ⟨name, h1, h2, -⟩ := hM.hear_cases hI hS hR ht hfd hb
        rw [announced_concat, h1, List.foldl_append, ← hM.own k _ (List.prefix_refl _)]
        exact h2.symm
      · exact hM.own k p hp

/-- What holds of every state of a calm run. -/
structure Settled (s : Server) : Prop extends Orderly s where
  /-- What clients were told. -/
  mirrored : Mirrored s

theorem settled_init (config : LoadedConfig) : Settled (init config) where
  toOrderly := orderly_init config
  mirrored :=
    { gone := fun c o n h => by obtain ⟨op, h, -⟩ := h; simp [init] at h
      apart := fun c o n h => by obtain ⟨op, h, -⟩ := h; simp [init] at h
      mirror := fun k n h => by obtain ⟨r, h, -⟩ := h; simp [init] at h
      own := fun k p h => by rw [List.prefix_nil.mp h]; rfl }

theorem Settled.step (hS : Settled s) (hc : Calm s a) (h : step s a = some s') : Settled s' where
  toOrderly := hS.toOrderly.step h
  mirrored := hS.mirrored.step hS.inv (hS.inv.step h) hS.named (hS.named.step h) hS.spoken
    hS.renames hS.fresh hc h

/-- **A client that has been told everything goes by the nickname it uses**, in a calm
run. -/
theorem Settled.announced_eq (hS : Settled s) {r : ClientRecord} (hk : s.fds fd = some k)
    (hr : s.clients.find? fd = some r) (hw : r.welcomed = true) (hb : s.broken k = false)
    (hn : ∀ o n, ¬ s.Awaits k o n) : announced (s.written k) = some r.nickname := by
  have hh : s.Holds k r.nickname := (holds_iff hS.inv).mpr ⟨fd, r, hk, hr, rfl⟩
  rcases hS.mirrored.mirror k _ hh hb with ⟨fd', hfd', hp⟩ | ha | ⟨o, haw, -⟩
  · obtain ⟨-, -, -, hr'⟩ := hS.inv.pending_welcome hp
    have hfd := ((hS.inv.fds_iff _ _).mp hfd').1
    rw [← hfd, ((hS.inv.fds_iff _ _).mp hk).1, hr] at hr'
    rw [Option.some.inj hr'] at hw
    cases hw
  · exact ha
  · exact absurd haw (hn _ _)

end Server

end ThreadLink.Backend
