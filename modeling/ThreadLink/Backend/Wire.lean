import ThreadLink.Backend.Clients
import ThreadLink.Backend.Mutexes

/-!
# Frames on the wire

What the kernel has taken for a connection, byte by byte, is what its client reads. The bytes of a
frame are given to the kernel in several calls, and other threads run in between.

## What is proved

* `Whole` — the bytes taken for a connection are the frames written to it and, perhaps, the start
  of one more. It holds in every run in which no descriptor number is given out again while a
  thread has still to send to it (`whole_of_run`).
* `Whole.split_cut` — so what is read from a part of them are the frames that are wholly there.
-/

namespace ThreadLink.Backend

open Text Runs Framing

namespace Wire

variable {config : LoadedConfig} {w w' : Wire} {s s₁ : Server} {a : Action} {t t' : Tid}
  {c : ConnId} {fd : Fd} {f f' : Frame} {u u' : Unsent} {rest : List Op}

/-! ### What is on the wire -/

/-- Nobody is sending to the connection, and it is open for it; or it has not been accepted. -/
def Idle (w : Wire) (c : ConnId) : Prop :=
  w.server.stage c = .unborn ∨
    (w.server.stage c).Open ∧ w.server.broken c = false ∧ ∀ t f u, ¬ Writes w t c f u

/-- **Where a connection is cut**: `part` follows the frames that have been written to it. -/
structure Cut (w : Wire) (c : ConnId) (part : Bytes) : Prop where
  /-- It is less than a frame that fits. -/
  short : ∃ p y, p.length ≤ w.server.config.1.maxMessageSize ∧ part ++ y = encode p ∧ y ≠ []
  /-- It is what has been taken of the frame that is being sent. -/
  writer : w.server.broken c = false → ∀ t f u, Writes w t c f u →
    part ++ u.bytes = encode f.line.payload
  /-- It is nothing if there is none. -/
  idle : Idle w c → part = []

/-- **The frames on the wire are whole**, but for the last. -/
structure Whole (w : Wire) (c : ConnId) : Prop where
  /-- What has been written fits. -/
  fits : ∀ f ∈ w.server.written c, f.line.payload.length ≤ w.server.config.1.maxMessageSize
  /-- The bytes that have been taken. -/
  stream : ∃ part, Cut w c part ∧
    w.stream c = (w.server.written c).flatMap (fun f => encode f.line.payload) ++ part

theorem whole_init (config : LoadedConfig) (c : ConnId) : Whole (init config) c where
  fits f hf := by cases hf
  stream := by
    refine ⟨[], ⟨⟨[], encode [], Nat.zero_le _, rfl, by decide⟩, ?_, fun _ => rfl⟩, rfl⟩
    rintro - t f u ⟨fd, rest, ht, -⟩
    cases ht

/-- A step that leaves alone what is written to the connection, and who is sending to it. -/
theorem Whole.congr (hW : Whole w c) (hconfig : w'.server.config = w.server.config)
    (hstream : w'.stream c = w.stream c) (hwritten : w'.server.written c = w.server.written c)
    (hbroken : w'.server.broken c = false → w.server.broken c = false)
    (hwriter : ∀ t f u, Writes w' t c f u → Writes w t c f u) (hidle : Idle w' c → Idle w c) :
    Whole w' c := by
  obtain ⟨hfits, part, ⟨hshort, hw, hi⟩, hs⟩ := hW
  refine ⟨by rwa [hwritten, hconfig], part, ⟨by rwa [hconfig], ?_, fun h => hi (hidle h)⟩, ?_⟩
  · exact fun hb t f u h => hw (hbroken hb) t f u (hwriter t f u h)
  · rw [hstream, hwritten, hs]

theorem unsent_others {a : Server.Action} (h : Others w a w') : w'.unsent = w.unsent := by
  cases h <;> rfl

theorem written_others {a : Server.Action} (h : Others w a w') :
    w'.server.written = w.server.written := by
  funext c
  cases h with
  | run ht hop he =>
    refine ((Server.exec_effect he).written c).resolve_right ?_
    rintro ⟨fd, f, rfl, -⟩
    cases hop
  | outside ha hs =>
    rcases Server.step_effect hs with ⟨t, ch, _, _, _, _, rfl, -⟩ | ⟨-, hq⟩
    · exact absurd rfl (ha t ch)
    · exact congrFun hq.written c

theorem broken_others {a : Server.Action} (h : Others w a w')
    (hb : w'.server.broken c = false) : w.server.broken c = false := by
  rcases Server.step_effect h.server with ⟨_, _, _, _, _, _, -, -, -, hE, hs⟩ | ⟨-, hq⟩
  · by_contra hb'
    rw [hs] at hb
    have hbr := hE.broken c (by simpa using hb')
    exact absurd (hbr.symm.trans hb) (by simp)
  · rwa [hq.broken] at hb

/-- **Who is sending** is left alone by a step that runs no `send_frame`. -/
theorem writes_others {a : Server.Action} (hG : Guarded w) (h : Others w a w')
    (hc : NoReuse w (.other a)) (hw : Writes w' t c f u) : Writes w t c f u := by
  obtain ⟨fd, rest, ht, hu, hk⟩ := hw
  rw [unsent_others h] at hu
  rw [hG.todo_other h hu] at ht
  rcases Server.step_fds hG.inv h.server hk with hk | ⟨ch, rest', rfl, hta, hfd, -⟩
  · exact ⟨fd, rest, ht, hu, hk⟩
  · exact absurd hfd (hc.fd_ne hG.inv hta (t := t) (by simp [destinations, ht, Op.sends?]))

/-- A connection to which nobody sends is not one to which somebody was sending. -/
theorem idle_others {a : Server.Action} (hG : Guarded w) (h : Others w a w')
    (hi : Idle w' c) : Idle w c := by
  have hI := hG.inv
  have hI' := hI.step h.server
  have hm := moves_step hI h.server c
  rcases hi with hi | ⟨hopen, hb, hno⟩
  · rw [hi] at hm
    rcases hm with hm | ⟨t, op, hm⟩
    · exact .inl hm.symm
    · cases hm
  · by_cases hst : w.server.stage c = .unborn
    · exact .inl hst
    · refine .inr ⟨⟨hst, ?_⟩, ?_, ?_⟩
      · intro hcl
        rcases hm with hm | ⟨t, op, hm⟩
        · exact hopen.2 (hm.trans hcl)
        · generalize w'.server.stage c = st at hm
          cases hm <;> simp_all
      · exact broken_others h hb
      · rintro t f u ⟨fd, rest, ht, hu, hk⟩
        refine hno t f u ⟨fd, rest, (hG.todo_other h hu).trans ht, unsent_others h ▸ hu, ?_⟩
        rw [hI'.fds_iff, Server.fdOf_step hI hI' h.server hst hopen]
        exact ⟨((hI.fds_iff _ _).mp hk).1, hopen⟩

/-- A step that runs no `send_frame`. -/
theorem Whole.others {a : Server.Action} (hW : Whole w c) (hG : Guarded w) (h : Others w a w')
    (hc : NoReuse w (.other a)) : Whole w' c :=
  hW.congr (config_others h) (by cases h <;> rfl) (congrFun (written_others h) c) (broken_others h)
    (fun _ _ _ => writes_others hG h hc) (idle_others hG h)

/-- A step that leaves alone who sends to the connection, or breaks it. -/
theorem Whole.breaks (hW : Whole w c) (hconfig : w'.server.config = w.server.config)
    (hstream : w'.stream c = w.stream c) (hwritten : w'.server.written c = w.server.written c)
    (hbroken : w'.server.broken c = true) (hstage : w'.server.stage c ≠ .unborn) : Whole w' c := by
  obtain ⟨hfits, part, ⟨hshort, -, -⟩, hs⟩ := hW
  refine ⟨by rwa [hwritten, hconfig], part, ⟨by rwa [hconfig], ?_, ?_⟩, ?_⟩
  · intro hb
    rw [hbroken] at hb
    cases hb
  · rintro (hi | ⟨-, hb, -⟩)
    · exact absurd hi hstage
    · rw [hbroken] at hb
      cases hb
  · rw [hstream, hwritten, hs]

/-- **Who is sending** when `send_frame` has returned. -/
theorem writes_returns (hm : Server.Mild w.server s₁) {st : ConnId → Bytes} :
    Writes ({ w with server := s₁.setTodo t rest, stream := st }.release t) t' c f u ↔
      t' ≠ t ∧ Writes w t' c f u := by
  change (∃ fd rest', Function.update s₁.todo t rest t' = _ ∧
    Function.update w.unsent t none t' = some u ∧ s₁.fds fd = some c) ↔ _
  by_cases htt : t' = t
  · simp [htt]
  · rw [Function.update_of_ne htt, Function.update_of_ne htt, hm.todo, hm.fds]
    exact ⟨fun h => ⟨htt, h⟩, And.right⟩

/-- `send_frame` returns, and it was not to this connection. -/
theorem Whole.returns (hW : Whole w c) (hm : Server.Mild w.server s₁) {st : ConnId → Bytes}
    (hno : ∀ f u, ¬ Writes w t c f u) (hwritten : s₁.written c = w.server.written c)
    (hbroken : s₁.broken c = w.server.broken c) (hst : st c = w.stream c) :
    Whole ({ w with server := s₁.setTodo t rest, stream := st }.release t) c := by
  refine hW.congr hm.config hst hwritten (fun hb => hbroken ▸ hb)
    (fun _ _ _ h => ((writes_returns hm).mp h).2) ?_
  rintro (hi | ⟨hopen, hb, hnone⟩)
  · exact .inl (hm.stage ▸ hi)
  · refine .inr ⟨hm.stage ▸ hopen, hbroken ▸ hb, fun t' f u hw => ?_⟩
    by_cases htt : t' = t
    · exact hno f u (htt ▸ hw)
    · exact hnone t' f u ((writes_returns hm).mpr ⟨htt, hw⟩)

/-- `send_frame` leaves alone the connections the descriptor does not stand for. -/
theorem sendFrame_of_ne (f : Frame) (ok : Bool) (h : s.fds fd ≠ some c) :
    (s.sendFrame fd f ok).written c = s.written c ∧
      (s.sendFrame fd f ok).broken c = s.broken c := by
  rcases s.sendFrame_cases fd f ok with he | ⟨k, hk, -, he⟩ | ⟨k, hk, he⟩ <;> rw [he]
  · exact ⟨rfl, rfl⟩
  · have hne : c ≠ k := by
      rintro rfl
      exact h hk
    exact ⟨Function.update_of_ne hne .., rfl⟩
  · have hne : c ≠ k := by
      rintro rfl
      exact h hk
    exact ⟨rfl, Function.update_of_ne hne ..⟩

/-- A thread sends to one connection at a time. -/
theorem not_writes (ht : w.server.todo t = .sendFrame fd f :: rest)
    (hfd : w.server.fds fd ≠ some c) : ¬ Writes w t c f' u :=
  fun h => hfd (h.next ht).2.2

/-- A thread sends, and it is not to this connection. -/
theorem Whole.elsewhere (hW : Whole w c) (ht : w.server.todo t = .sendFrame fd f :: rest)
    (hfd : w.server.fds fd ≠ some c) (hserver : w'.server = w.server)
    (hunsent : ∀ t', t' ≠ t → w'.unsent t' = w.unsent t') (hst : w'.stream c = w.stream c) :
    Whole w' c := by
  have hwrites (t' : Tid) (f : Frame) (u : Unsent) : Writes w' t' c f u ↔ Writes w t' c f u := by
    by_cases htt : t' = t
    · subst htt
      refine iff_of_false (not_writes (hserver ▸ ht) (hserver ▸ hfd)) (not_writes ht hfd)
    · rw [Writes, Writes, hserver, hunsent t' htt]
  refine hW.congr (by rw [hserver]) hst (by rw [hserver]) (fun hb => hserver ▸ hb)
    (fun t' f u => (hwrites t' f u).mp) ?_
  rw [Idle, Idle, hserver]
  exact Or.imp_right fun ⟨ho, hb, hno⟩ =>
    ⟨ho, hb, fun t' f u hw => hno t' f u ((hwrites ..).mpr hw)⟩

/-- The connection that is being sent to is not idle. -/
theorem Guarded.not_idle (hG : Guarded w) (h : Writes w t c f u) : ¬ Idle w c := by
  rintro (hi | ⟨-, -, hno⟩)
  · obtain ⟨fd, rest, -, -, hk⟩ := h
    exact ((hG.inv.fds_iff _ _).mp hk).2.1 hi
  · exact hno t f u h

/-- **A thread begins to send** to a connection: nobody else was sending. -/
theorem Whole.begins (hW : Whole w c) (hG : Guarded w) (hG' : Guarded w')
    (ht : w.server.todo t = .sendFrame fd f :: rest) (hu : w.unsent t = none)
    (hfd : w.server.fds fd = some c) (hserver : w'.server = w.server)
    (hunsent : w'.unsent = Function.update w.unsent t
      (some ⟨writeHeader f.line.payload.length, f.line.payload⟩))
    (hst : w'.stream = w.stream) : Whole w' c := by
  have hw : Writes w' t c f ⟨writeHeader f.line.payload.length, f.line.payload⟩ :=
    ⟨fd, rest, hserver ▸ ht, by rw [hunsent, Function.update_self], hserver ▸ hfd⟩
  have hno (t' : Tid) (f' : Frame) (u' : Unsent) : ¬ Writes w t' c f' u' := by
    rintro ⟨fd', rest', ht', hu', hk⟩
    have htt : t' ≠ t := by
      rintro rfl
      rw [hu] at hu'
      cases hu'
    refine htt (hG'.writer_unique (f := f') (u := u') ?_ hw)
    exact ⟨fd', rest', hserver ▸ ht', by rw [hunsent, Function.update_of_ne htt, hu'],
      hserver ▸ hk⟩
  obtain ⟨hfits, part, ⟨hshort, -, hi⟩, hs⟩ := hW
  refine ⟨hserver ▸ hfits, part, ⟨hserver ▸ hshort, ?_, fun h => absurd h (hG'.not_idle hw)⟩, ?_⟩
  · intro hb t' f' u' hw'
    obtain rfl := hG'.writer_unique hw' hw
    obtain ⟨rfl, hu', -⟩ := hw'.next (hserver ▸ ht)
    rw [hunsent, Function.update_self] at hu'
    obtain rfl := Option.some.inj hu'
    rw [hi (.inr ⟨((hG.inv.fds_iff _ _).mp hfd).2, hserver ▸ hb, hno⟩)]
    rfl
  · rw [hst, hserver, hs]

/-- **Some more bytes are taken** of the frame that is being sent. -/
theorem Whole.goes_on {taken : Bytes} (hW : Whole w c) (hG' : Guarded w')
    (hw : Writes w t c f u) (hb : w.server.broken c = false) (hu : u.bytes = taken ++ u'.bytes)
    (hserver : w'.server = w.server) (hunsent : w'.unsent = Function.update w.unsent t (some u'))
    (hst : w'.stream c = w.stream c ++ taken) : Whole w' c := by
  have hut : w'.unsent t = some u' := by rw [hunsent, Function.update_self]
  obtain ⟨fd, rest, ht, -, hfd⟩ := id hw
  have hw' : Writes w' t c f u' := ⟨fd, rest, hserver ▸ ht, hut, hserver ▸ hfd⟩
  obtain ⟨hfits, part, ⟨-, hwr, -⟩, hs⟩ := hW
  have hpart : part ++ taken ++ u'.bytes = encode f.line.payload := by
    rw [List.append_assoc, ← hu, hwr hb t f u hw]
  obtain ⟨hl, hne⟩ := hG'.fits (hserver ▸ ht) hut
  refine ⟨hserver ▸ hfits, part ++ taken,
    ⟨⟨f.line.payload, u'.bytes, hl, hpart, hne⟩, ?_, fun h => absurd h (hG'.not_idle hw')⟩, ?_⟩
  · intro _ t' f' u'' h
    obtain rfl := hG'.writer_unique h hw'
    obtain ⟨rfl, hu', -⟩ := h.next (hserver ▸ ht)
    obtain rfl := Option.some.inj (hut.symm.trans hu')
    exact hpart
  · rw [hst, hserver, hs, List.append_assoc]

/-- **The last bytes of a frame are taken.** -/
theorem Whole.ends {st : ConnId → Bytes} (hW : Whole w c) (hG : Guarded w)
    (hw : Writes w t c f u) (hb : w.server.broken c = false)
    (hm : Server.Mild w.server s₁) (hwritten : s₁.written c = w.server.written c ++ [f])
    (hst : st c = w.stream c ++ u.bytes) :
    Whole ({ w with server := s₁.setTodo t rest, stream := st }.release t) c := by
  obtain ⟨hfits, part, ⟨-, hwr, -⟩, hs⟩ := hW
  have hpart := hwr hb t f u hw
  obtain ⟨fd, rest', ht, hu, -⟩ := id hw
  have hl := (hG.fits ht hu).1
  refine ⟨?_, [], ⟨⟨[], encode [], Nat.zero_le _, rfl, by decide⟩, ?_, fun _ => rfl⟩, ?_⟩
  · change ∀ f' ∈ s₁.written c, _ ≤ s₁.config.1.maxMessageSize
    rw [hwritten, hm.config]
    exact List.forall_mem_append.mpr ⟨hfits, by simpa using hl⟩
  · intro _ t' f' u' h
    obtain ⟨htt, hw'⟩ := (writes_returns hm).mp h
    exact absurd (hG.writer_unique hw' hw) htt
  · change st c = (s₁.written c).flatMap _ ++ []
    rw [hst, hwritten, hs, List.append_assoc, hpart]
    simp

theorem sendFrame_fails (hl : f.line.payload.length ≤ s.config.1.maxMessageSize)
    (hfd : s.fds fd = some c) :
    (s.sendFrame fd f false).written c = s.written c ∧
      (s.sendFrame fd f false).broken c = true := by
  cases hb : s.broken c <;> simp [Server.sendFrame, not_lt.mpr hl, hfd, hb]

theorem sendFrame_writes (hl : f.line.payload.length ≤ s.config.1.maxMessageSize)
    (hfd : s.fds fd = some c) (hb : s.broken c = false) :
    (s.sendFrame fd f true).written c = s.written c ++ [f] := by
  simp [Server.sendFrame, not_lt.mpr hl, hfd, hb]

/-- **Every step** keeps the frames whole. -/
theorem Whole.step (hW : Whole w c) (hG : Guarded w) (hc : NoReuse w a)
    (h : w.step a = some w') : Whole w' c := by
  have hG' := hG.step hc h
  cases a with
  | other a => exact hW.others hG (other_cases h) hc
  | lock t =>
    cases sending_of_lock h with
    | @tooLarge _ fd f rest ht hu hfree hl =>
      have hsame : w.server.sendFrame fd f true = w.server := by simp [Server.sendFrame, hl]
      rw [hsame]
      refine hW.returns (.refl _) ?_ rfl rfl rfl
      rintro f u ⟨_, _, -, hu', -⟩
      rw [hu] at hu'
      cases hu'
    | @locked _ fd f rest ht hu hfree hl =>
      by_cases hfd : w.server.fds fd = some c
      · exact hW.begins hG hG' ht hu hfd rfl rfl rfl
      · exact hW.elsewhere ht hfd rfl (fun t' htt => Function.update_of_ne htt ..) rfl
  | send t turn =>
    cases sending_of_send h with
    | interrupted => exact hW
    | @failed _ fd f u rest ht hu =>
      have hm := Server.mild_sendFrame w.server fd f false
      by_cases hfd : w.server.fds fd = some c
      · obtain ⟨hwr, hbr⟩ := sendFrame_fails (hG.fits ht hu).1 hfd
        refine hW.breaks hm.config rfl hwr hbr ?_
        exact hm.stage ▸ ((hG.inv.fds_iff _ _).mp hfd).2.1
      · obtain ⟨hwr, hbr⟩ := sendFrame_of_ne f false hfd
        exact hW.returns hm (fun _ _ => not_writes ht hfd) hwr hbr rfl
    | @some _ fd f u rest n k ht hu hfd hb hd =>
      by_cases hck : c = k
      · subst hck
        exact hW.goes_on hG' ⟨fd, rest, ht, hu, hfd⟩ hb (u.take_append_drop (n + 1)).symm rfl rfl
          (Function.update_self ..)
      · refine hW.elsewhere ht ?_ rfl (fun t' htt => Function.update_of_ne htt ..)
          (Function.update_of_ne hck ..)
        rw [hfd]
        exact fun hk => hck (Option.some.inj hk).symm
    | @last _ fd f u rest n k ht hu hfd hb hd =>
      have hm := Server.mild_sendFrame w.server fd f true
      by_cases hck : c = k
      · subst hck
        have htaken := u.take_append_drop (n + 1)
        rw [hd, List.append_nil] at htaken
        refine hW.ends hG ⟨fd, rest, ht, hu, hfd⟩ hb hm
          (sendFrame_writes (hG.fits ht hu).1 hfd hb) ?_
        rw [Function.update_self, htaken]
      · have hne : w.server.fds fd ≠ some c := by
          rw [hfd]
          exact fun hk => hck (Option.some.inj hk).symm
        obtain ⟨hwr, hbr⟩ := sendFrame_of_ne f true hne
        exact hW.returns hm (fun _ _ => not_writes ht hne) hwr hbr (Function.update_of_ne hck ..)

theorem whole_of_run (h : RunIn step NoReuse (init config) w) :
    Guarded w ∧ ∀ c, Whole w c := by
  refine h.invariant (I := fun w => Guarded w ∧ ∀ c, Whole w c)
    ⟨guarded_init config, whole_init config⟩ ?_
  rintro w a w' ⟨hG, hW⟩ hc hs
  exact ⟨hG.step hc hs, fun c => (hW c).step hG hc hs⟩

/-- The payloads that have been written to a connection. -/
def payloads (w : Wire) (c : ConnId) : List Bytes :=
  (w.server.written c).map fun f => f.line.payload

/-- **What is read from a part of the stream**: the frames that are wholly there. -/
theorem Whole.split_cut {max : ℕ} {x : Bytes} (hW : Whole w c)
    (hmax : w.server.config.1.maxMessageSize ≤ max) (hx : x <+: w.stream c) :
    ∃ k, (split max x).frames = (payloads w c).take k ∧ (split max x).oversized = false ∧
      ∀ j ≤ (payloads w c).length,
        (((payloads w c).take j).flatMap encode).length ≤ x.length ↔ j ≤ k := by
  obtain ⟨hfits, part, ⟨⟨p, y, hp, hpart, hy⟩, -, -⟩, hs⟩ := hW
  have hlimit := w.server.config.2.maxMessageSize.2
  -- the stream goes on to be one of whole frames
  have hall : w.stream c ++ y = (payloads w c ++ [p]).flatMap encode := by
    rw [hs, List.append_assoc, hpart, payloads, List.flatMap_append, List.flatMap_map,
      List.flatMap_singleton]
  have hfit : ∀ q ∈ payloads w c ++ [p], q.length ≤ max ∧ q.length < 4294967296 := by
    refine List.forall_mem_append.mpr ⟨List.forall_mem_map.mpr fun f hf => ?_, ?_⟩
    · have hlen := hfits f hf
      omega
    · simp only [List.mem_singleton, forall_eq]
      omega
  obtain ⟨k, h1, h2, h3⟩ := Framing.split_cut hfit (hx.trans (hall ▸ List.prefix_append ..))
  have hk : k ≤ (payloads w c).length := by
    by_contra hlt
    have hlen := (h3 _ le_rfl).mpr (by rw [List.length_append, List.length_singleton]; omega)
    rw [List.take_length, ← hall, List.length_append] at hlen
    have hlx := hx.length_le
    have hpos := List.length_pos_iff.mpr hy
    omega
  refine ⟨k, by rw [h1, List.take_append_of_le_length hk], h2, fun j hj => ?_⟩
  rw [← h3 j (hj.trans (by simp)), List.take_append_of_le_length hj]

end Wire

end ThreadLink.Backend
