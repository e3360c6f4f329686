import ThreadLink.Backend.Clients
import ThreadLink.Backend.Sources

/-!
# Relaying a chat line

A chat line is relayed in three blocks and more: the thread that has received it looks up the
nickname of its client, fixes the targets, and writes to one after the other. The relayed line
has the nickname in front, but `send_frame` has the limit `recv_frame` has.

## The model

`Undisturbed` is what is assumed of the sockets while the thread is at it: the kernel takes
every frame, and a descriptor stands for the connection it stood for when the targets were
fixed.

## What is proved

* `Relaying` — where the thread is, and what it has written so far.
* `relayed_iff` — the line is written once to every other welcomed client, exactly if it is
  within the limit together with the nickname.
* `long_line_is_dropped` — an accepted line that nobody gets.
-/

namespace ThreadLink.Backend

open Text Runs

namespace Server

variable {config : LoadedConfig} {s s' b : Server} {a : Action} {c k : ConnId} {fd : Fd}
  {nick text : Bytes}
  {serial : Option ℕ} {past : List (Server × Action)}

/-! ### What a thread writes -/

/-- What a thread writes to a connection in a step. -/
def writes (t : Tid) (k : ConnId) (e : Server × Action) : List Frame :=
  match e.2 with
  | .run t' _ =>
    if t' = t then ((e.1.step e.2).elim [] fun s' => s'.written k).drop (e.1.written k).length
      else []
  | _ => []

/-- What a thread has written to a connection. -/
def writtenBy (t : Tid) (past : List (Server × Action)) (k : ConnId) : List Frame :=
  past.flatMap (writes t k)

theorem writtenBy_concat (t : Tid) (past : List (Server × Action)) (e : Server × Action)
    (k : ConnId) : writtenBy t (past ++ [e]) k = writtenBy t past k ++ writes t k e := by
  rw [writtenBy, List.flatMap_append, List.flatMap_singleton]
  rfl

theorem writes_of_run {t : Tid} {ch : Choice} (h : step s (.run t ch) = some s') {l : List Frame}
    (hw : s'.written k = s.written k ++ l) : writes t k (s, .run t ch) = l := by
  simp only [writes, if_true, h, Option.elim_some, hw, List.drop_left]

theorem writes_of_ne {t : Tid} (ha : ∀ ch, a ≠ .run t ch) (k : ConnId) :
    writes t k (s, a) = [] := by
  cases a with
  | run t' ch =>
    have hne : t' ≠ t := fun he => ha ch (by rw [he])
    simp only [writes, if_neg hne]
  | _ => rfl

/-! ### A thread at work -/

/-- The thread of a connection receives nothing more, and writes to sockets that take its
frames and stand for the connections the frames are meant for. -/
def Undisturbed (c : ConnId) (s : Server) : Action → Prop
  | .recv c' | .recvEnd c' => c' ≠ c
  | .run t ch => t = .handler c → ∀ fd f rest, s.todo t = .sendFrame fd f :: rest →
      ch.ok = true ∧ ∃ k, s.fds fd = some k ∧ s.broken k = false ∧ f.MeantFor k
  | _ => True

/-- No other thread changes what a handler thread has to do. -/
theorem todo_of_ne (hu : Undisturbed c s a) (ha : ∀ ch, a ≠ .run (.handler c) ch)
    (hs : step s a = some s') : s'.todo (.handler c) = s.todo (.handler c) := by
  cases a with
  | run t ch =>
    obtain ⟨op, rest, s₁, new, -, he, rfl⟩ := step_run hs
    have hne : Tid.handler c ≠ t := fun h => ha ch (by rw [h])
    simp only [setTodo, Function.update_of_ne hne, (exec_effect he).todo]
  | iterate | leaveLoop =>
    simp only [step, Option.ite_none_right_eq_some, Option.some.injEq] at hs
    obtain ⟨-, rfl⟩ := hs
    have hne : Tid.handler c ≠ .main := fun h => by cases h
    simp only [Function.update_of_ne hne]
  | recv c' =>
    have hne : Tid.handler c ≠ .handler c' := fun h => hu (Tid.handler.inj h).symm
    obtain ⟨-, -, k, f, rest, -, -, rfl⟩ := step_recv hs
    exact Function.update_of_ne hne ..
  | recvEnd c' =>
    have hne : Tid.handler c ≠ .handler c' := fun h => hu (Tid.handler.inj h).symm
    simp only [step, Option.ite_none_right_eq_some, Option.some.injEq] at hs
    obtain ⟨-, rfl⟩ := hs
    exact Function.update_of_ne hne ..
  | requestShutdown | arrive =>
    cases hs
    rfl
  | rehash es =>
    simp only [step, Option.dite_none_right_eq_some, Option.some.injEq] at hs
    obtain ⟨_, rfl⟩ := hs
    rfl

/-- **Its own client stays** as it is, whatever the other threads do. -/
theorem own_client_stays (hI : Inv s) (ha : ∀ ch, a ≠ .run (.handler c) ch)
    (hs : step s a = some s') {r : ClientRecord} (hk : s.fds fd = some c)
    (hr : s.clients.find? fd = some r) :
    s'.fds fd = some c ∧ ∃ r', s'.clients.find? fd = some r' ∧ r'.nickname = r.nickname := by
  constructor
  · cases hf : s'.fds fd with
    | none =>
      rw [hI.find?_of_closes hs hk hf] at hr
      cases hr
    | some k =>
      rcases step_fds hI hs hf with hf' | ⟨-, -, -, -, -, hf', -⟩
      · rw [← hf', hk]
      · rw [hk] at hf'
        cases hf'
  · rcases find?_keeps hI hs hk hr with hr' | ⟨ch, -, -, -, -, he, -⟩
    · exact hr'
    · exact absurd he (ha ch)

/-- **The rule for a thread at work**: what the steps of other threads leave true, and the blocks
of the thread itself, holds along a path. -/
theorem at_work {D : Server → Action → Prop} {P : List (Server × Action) → Server → Prop}
    {s₀ s₁ : Server} (h : Run step (init config) s₀) (h0 : P [] s₀) (hp : PathIn step D s₀ past s₁)
    (hother : ∀ past s a s', Run step (init config) s → D s a → (∀ ch, a ≠ .run (.handler c) ch) →
      step s a = some s' → P past s → P (past ++ [(s, a)]) s')
    (hown : ∀ past s ch s', Run step (init config) s → D s (.run (.handler c) ch) → step s
      (.run (.handler c) ch) = some s' → P past s → P (past ++ [(s, .run (.handler c) ch)]) s') :
    P past s₁ := by
  induction hp with
  | refl => exact h0
  | @tail past t u a hp hd ha ih =>
    have ht : Run step (init config) t := h.trans hp.runIn.run
    by_cases hrun : ∃ ch, a = .run (.handler c) ch
    · obtain ⟨ch, rfl⟩ := hrun
      exact hown _ _ _ _ ht hd ha ih
    · exact hother _ _ _ _ ht hd (fun ch he => hrun ⟨ch, he⟩) ha ih

/-- The frame a chat line is relayed in, when its targets are fixed in `b`. -/
def relayFrame (b : Server) (c : ConnId) (nick text : Bytes) (serial : Option ℕ) : Frame :=
  ⟨.msg nick text, .broadcast (some c) b.nextConn, serial⟩

/-- The relayed line is within the limit. -/
def FitsRelay (config : LoadedConfig) (nick text : Bytes) : Prop :=
  nick.length + text.length + 5 ≤ config.1.maxMessageSize

instance (config : LoadedConfig) (nick text : Bytes) : Decidable (FitsRelay config nick text) :=
  inferInstanceAs (Decidable (_ ≤ _))

theorem length_msg (nick text : Bytes) :
    (ServerLine.msg nick text).payload.length = nick.length + text.length + 5 := by
  have h4 : (bytes "MSG ").length = 4 := by decide
  have h1 : (bytes " ").length = 1 := by decide
  simp only [ServerLine.payload, List.length_append, h4, h1]
  omega

/-- **Where the thread of a connection is** with a chat line: it has to look up the nickname,
to fix the targets, or to write to those that are left. -/
inductive Relaying (config : LoadedConfig) (c : ConnId) (fd : Fd) (nick text : Bytes)
    (serial : Option ℕ) (past : List (Server × Action)) (s : Server) : Prop where
  /-- The nickname is that of its client. -/
  | named (ht : s.todo (.handler c) = [.handleChat fd text serial]) (hk : s.fds fd = some c)
    (hr : ∃ r, s.clients.find? fd = some r ∧ r.nickname = nick)
      (hw : ∀ k, writtenBy (.handler c) past k = [])
  /-- The targets are fixed next. -/
  | fixing (ht : s.todo (.handler c) = [.broadcast (.msg nick text) fd (some c) serial])
    (hw : ∀ k, writtenBy (.handler c) past k = [])
  /-- They were in `b`; `done` have been written to, unless the line is too long. -/
  | writing {b : Server} {ch : Choice} {done rest : List Fd} (hb : (b, .run (.handler c) ch) ∈ past)
    (ht₀ : b.todo (.handler c) = [.broadcast (.msg nick text) fd (some c) serial])
    (hT : b.targets fd = done ++ rest)
    (ht : s.todo (.handler c) = rest.map fun fd' =>
      .sendFrame fd' (relayFrame b c nick text serial))
    (hn : b.nextConn ≤ s.nextConn)
      (hfds : ∀ fd' k, s.fds fd' = some k → k < b.nextConn → b.fds fd' = some k)
    (hw : ∀ k, writtenBy (.handler c) past k = if FitsRelay config nick text then
      (done.filter fun fd' => b.fds fd' = some k).map fun _ =>
        relayFrame b c nick text serial else [])

/-- A step of another thread leaves the thread where it is. -/
theorem Relaying.other (h : Relaying config c fd nick text serial past s) (hI : Inv s)
    (hI' : Inv s') (hu : Undisturbed c s a) (ha : ∀ ch, a ≠ .run (.handler c) ch)
    (hs : step s a = some s') : Relaying config c fd nick text serial (past ++ [(s, a)]) s' := by
  have htodo := todo_of_ne hu ha hs
  have hwrites (k : ConnId) :
      writtenBy (.handler c) (past ++ [(s, a)]) k = writtenBy (.handler c) past k := by
    rw [writtenBy_concat, writes_of_ne ha, List.append_nil]
  cases h with
  | named ht hk hr hw =>
    obtain ⟨r, hr, hn⟩ := hr
    obtain ⟨hk', hr'⟩ := own_client_stays hI ha hs hk hr
    obtain ⟨r', hr', hn'⟩ := hr'
    exact .named (htodo.trans ht) hk' ⟨r', hr', hn'.trans hn⟩ fun k => (hwrites k).trans (hw k)
  | fixing ht hw => exact .fixing (htodo.trans ht) fun k => (hwrites k).trans (hw k)
  | writing hb ht₀ hT ht hn hfds hw =>
    refine .writing (List.mem_append_left _ hb) ht₀ hT (htodo.trans ht) ?_ ?_ fun k =>
      (hwrites k).trans (hw k)
    · by_contra hlt
      exact absurd (lt_nextConn_step hI hI' hs ((not_le.mp hlt).trans_le hn)) (lt_irrefl _)
    · intro fd' k hk hlt
      rcases step_fds hI hs hk with hk | ⟨-, -, -, -, -, -, rfl⟩
      · exact hfds fd' k hk hlt
      · exact absurd hlt (not_lt.mpr hn)

/-- **A block of the thread itself** takes it on. -/
theorem Relaying.own {ch : Choice} (h : Relaying config c fd nick text serial past s)
    (hc : s.config = config) (hu : Undisturbed c s (.run (.handler c) ch))
    (hs : step s (.run (.handler c) ch) = some s') :
    Relaying config c fd nick text serial (past ++ [(s, .run (.handler c) ch)]) s' := by
  obtain ⟨op, rest₀, s₁, new, ht₀, he, rfl⟩ := step_run hs
  have hconcat {k : ConnId} {l : List Frame} (hl : s₁.written k = s.written k ++ l) :
      writtenBy (.handler c) (past ++ [(s, .run (.handler c) ch)]) k =
      writtenBy (.handler c) past k ++ l := by
    rw [writtenBy_concat, writes_of_run hs hl]
  cases h with
  | named ht hk hr hw =>
    obtain ⟨r, hr, rfl⟩ := hr
    rw [ht] at ht₀
    cases ht₀
    simp only [exec, hr, Option.some.injEq, Prod.mk.injEq] at he
    obtain ⟨rfl, rfl⟩ := he
    exact .fixing (Function.update_self ..) fun k =>
      by rw [hconcat (List.append_nil _).symm, hw, List.append_nil]
  | fixing ht hw =>
    rw [ht] at ht₀
    cases ht₀
    simp only [exec, Option.some.injEq, Prod.mk.injEq] at he
    obtain ⟨rfl, rfl⟩ := he
    refine .writing (List.mem_append_right _ (List.mem_singleton_self _)) ht
      (List.nil_append _).symm ?_ le_rfl (fun _ _ h _ => h) ?_
    · show Function.update _ _ _ _ = _
      rw [Function.update_self, List.append_nil]
      rfl
    · intro k
      rw [hconcat (List.append_nil _).symm, hw, List.filter_nil, List.map_nil, ite_self]
      rfl
  | @writing b chb done rest hb htb hT ht hn hfds hw =>
    cases rest with
    | nil =>
      rw [ht] at ht₀
      cases ht₀
    | cons fd' rest =>
      have ht' := ht
      rw [ht₀, List.map_cons, List.cons.injEq] at ht
      obtain ⟨rfl, rfl⟩ := ht
      obtain ⟨hok, k', hk', hbr, hmeant⟩ := hu rfl _ _ _ ht'
      simp only [exec, Option.some.injEq, Prod.mk.injEq] at he
      obtain ⟨hs₁, rfl⟩ := he
      have hbk : b.fds fd' = some k' := hfds fd' k' hk' hmeant
      have hlen :
        s.config.1.maxMessageSize < (relayFrame b c nick text serial).line.payload.length ↔
          ¬ FitsRelay config nick text := by
        rw [hc]
        show _ < (ServerLine.msg nick text).payload.length ↔ _
        rw [length_msg, FitsRelay, not_le]
      have hcase : FitsRelay config nick text ∧
          s₁ = { s with
            written := Function.update s.written k'
              (s.written k' ++ [relayFrame b c nick text serial]) } ∨
          ¬ FitsRelay config nick text ∧ s₁ = s := by
        rw [← hs₁]
        by_cases hfit : FitsRelay config nick text
        · refine .inl ⟨hfit, ?_⟩
          rw [sendFrame, if_neg (fun h => hlen.mp h hfit), hk']
          simp only [hbr, hok, Bool.false_eq_true, if_false, if_true]
        · exact .inr ⟨hfit, by rw [sendFrame, if_pos (hlen.mpr hfit)]⟩
      have hfd : s₁.fds = s.fds ∧ s₁.nextConn = s.nextConn := by
        rcases hcase with ⟨-, rfl⟩ | ⟨-, rfl⟩ <;> exact ⟨rfl, rfl⟩
      have hT' : b.targets fd = (done ++ [fd']) ++ rest := by rw [hT, List.append_assoc]; rfl
      refine .writing (List.mem_append_left _ hb) htb hT' ?_ ?_
        (fun fd'' k hk hlt => hfds fd'' k (hfd.1 ▸ hk) hlt) ?_
      · exact Function.update_self ..
      · exact hfd.2 ▸ hn
      · intro k
        have hw := hw k
        rcases hcase with ⟨hfit, rfl⟩ | ⟨hfit, rfl⟩
        · rw [if_pos hfit] at hw
          rw [if_pos hfit, List.filter_append, List.map_append]
          by_cases hkk : k = k'
          · subst hkk
            rw [hconcat (Function.update_self ..), hw, List.filter_singleton]
            simp only [hbk, decide_true, Bool.cond_true, List.map_singleton]
          · rw [hconcat ((Function.update_of_ne hkk ..).trans (List.append_nil _).symm), hw,
              List.filter_singleton]
            have hne : ¬ b.fds fd' = some k := fun h => hkk (Option.some.inj (h.symm.trans hbk))
            simp only [hne, decide_false, Bool.cond_false, List.map_nil]
        · rw [if_neg hfit] at hw ⊢
          rw [hconcat (List.append_nil _).symm, hw, List.append_nil]

/-! ### Who hears it -/

/-- Another welcomed client has this connection. -/
def Hears (b : Server) (fd : Fd) (k : ConnId) : Prop :=
  ∃ fd' r, fd' ≠ fd ∧ b.clients.find? fd' = some r ∧ r.welcomed = true ∧ b.fds fd' = some k

theorem mem_targets_iff {fd' : Fd} : fd' ∈ b.targets fd ↔
    fd' ≠ fd ∧ ∃ r, b.clients.find? fd' = some r ∧ r.welcomed = true := by
  refine ⟨mem_targets, ?_⟩
  rintro ⟨hne, r, hr, hw⟩
  refine List.mem_map.mpr ⟨(fd', r), List.mem_filter.mpr ⟨OrdMap.find?_eq_some.mp hr, ?_⟩, rfl⟩
  simp [hne, hw]

theorem nodup_targets (b : Server) (fd : Fd) : (b.targets fd).Nodup :=
  b.clients.nodup_keys.sublist (List.filter_sublist.map _)

/-- Each target is found once among those with its connection. -/
theorem filter_targets (hI : Inv b) (fd : Fd) (k : ConnId) :
    (Hears b fd k → ((b.targets fd).filter fun fd' => b.fds fd' = some k).length = 1) ∧
      (¬ Hears b fd k → (b.targets fd).filter (fun fd' => b.fds fd' = some k) = []) := by
  constructor
  · rintro ⟨fd', r, hne, hr, hw, hk⟩
    have hmem : fd' ∈ b.targets fd := mem_targets_iff.mpr ⟨hne, r, hr, hw⟩
    have hall : ∀ fd'' ∈ (b.targets fd).filter (fun fd' => b.fds fd' = some k), fd'' = fd' :=
        fun fd'' h => by
      have hk'' := of_decide_eq_true (List.mem_filter.mp h).2
      rw [← ((hI.fds_iff _ _).mp hk'').1, ((hI.fds_iff _ _).mp hk).1]
    have hin : fd' ∈ (b.targets fd).filter (fun fd' => b.fds fd' = some k) :=
      List.mem_filter.mpr ⟨hmem, decide_eq_true hk⟩
    have hrep := List.eq_replicate_iff.mpr ⟨rfl, hall⟩
    have hnd := (nodup_targets b fd).filter fun fd' => decide (b.fds fd' = some k)
    rw [hrep, List.nodup_replicate] at hnd
    exact le_antisymm hnd (List.length_pos_iff.mpr (List.ne_nil_of_mem hin))
  · intro hn
    refine List.filter_eq_nil_iff.mpr fun fd' hmem hk => hn ?_
    obtain ⟨hne, r, hr, hw⟩ := mem_targets hmem
    exact ⟨fd', r, hne, hr, hw, of_decide_eq_true hk⟩

theorem Relaying.of_path {s₀ s₁ : Server} (h : Run step (init config) s₀)
    (h0 : Relaying config c fd nick text serial [] s₀)
    (hp : PathIn step (Undisturbed c) s₀ past s₁) :
    Relaying config c fd nick text serial past s₁ := by
  apply at_work (c := c) h h0 hp
  · intro past s a s' hs hc ha hstep hR
    exact hR.other (inv_of_run hs) (inv_of_run (hs.tail trivial hstep)) hc ha hstep
  · intro past s ch s' hs hc hstep hR
    exact hR.own (config_of_run hs) hc hstep

/-- A thread that has something to do can run its next block, a write being one that does not
wait. -/
theorem goes_on {C : Server → Action → Prop} {s₀ s₁ : Server} (h : Run step (init config) s₀)
    (hp : PathIn step C s₀ past s₁) (hne : s₁.todo (.handler c) ≠ []) (ch : Choice) :
    (step s₁ (.run (.handler c) ch)).isSome = true :=
  handler_runs (inv_of_run (h.trans hp.runIn.run)) hne ch

/-- **What the thread of a client does** when it has received a frame. -/
theorem received {f : ClientFrame} {rest : List ClientFrame} {s₀ : Server}
    (h : Run step (init config) s) (hin : s.inbox c = f :: rest) (hs : step s (.recv c) = some s₀) :
    s₀.todo (.handler c) = handleFrame config.1 (s.fdOf c) f ∧ s₀.fdOf c = s.fdOf c ∧
    s₀.fds = s.fds ∧
      s₀.clients = s.clients ∧ s.fds (s.fdOf c) = some c ∧
      ∃ r, s.clients.find? (s.fdOf c) = some r := by
  obtain ⟨ha, ht, k, f', rest', hk', hin', rfl⟩ := step_recv hs
  have hI := inv_of_run h
  have hst := hI.serving_of_idle ha ht
  have hk : s.fds (s.fdOf c) = some c := hI.fds_fdOf (by rw [hst]; exact ⟨by decide, by decide⟩)
  obtain rfl := Option.some.inj (hk.symm.trans hk')
  obtain ⟨rfl, rfl⟩ := List.cons.inj (hin.symm.trans hin')
  exact ⟨by
    simp only [Function.update_self, config_of_run h], rfl, rfl, rfl, hk, hI.listed c (.inr hst)⟩

/-- The thread that has received a chat line is to relay it. -/
theorem relaying_of_recv {f : ClientFrame} {rest : List ClientFrame} {r : ClientRecord}
    {s₀ : Server} (h : Run step (init config) s) (hr : s.clients.find? (s.fdOf c) = some r)
    (hin : s.inbox c = f :: rest) (hlen : f.payload.length ≤ config.1.maxMessageSize)
    (hf : f.Chats text) (hs : step s (.recv c) = some s₀) :
    Relaying config c (s.fdOf c) r.nickname text f.serial [] s₀ := by
  obtain ⟨ht, -, hfds, hclients, hk, -⟩ := received h hin hs
  refine .named ?_ (hfds ▸ hk) ⟨r, hclients ▸ hr, rfl⟩ fun _ => rfl
  rw [ht, handleFrame_of_fits hlen, handleLine_of_chats hf]

/-- **When a chat line is relayed.** The thread that has received it can run its next block as long
as it has one: no lock is in its way, and a write is a step that does not wait here. When it has
nothing left to do, it has written the line once to every other client that was welcomed when the
targets were fixed, and to nobody else, exactly if the line is within the limit together with the
nickname; if there was nobody else, there is nothing to write. -/
theorem relayed_iff {f : ClientFrame} {rest : List ClientFrame} {r : ClientRecord} {s₀ : Server}
    (h : Run step (init config) s) (hr : s.clients.find? (s.fdOf c) = some r)
    (hin : s.inbox c = f :: rest) (hlen : f.payload.length ≤ config.1.maxMessageSize)
    (hf : f.Chats text) (hs : step s (.recv c) = some s₀) :
    (∀ past s₁, PathIn step (Undisturbed c) s₀ past s₁ → s₁.todo (.handler c) ≠ [] →
      ∀ ch, (step s₁ (.run (.handler c) ch)).isSome = true) ∧
    ∀ past s₁, PathIn step (Undisturbed c) s₀ past s₁ → s₁.todo (.handler c) = [] →
      ∃ b ch, (b, .run (.handler c) ch) ∈ past ∧
        b.todo (.handler c) = [.broadcast (.msg r.nickname text) (s.fdOf c) (some c) f.serial] ∧
        ((∀ k, (Hears b (s.fdOf c) k →
          (writtenBy (.handler c) past k).map (·.line) = [.msg r.nickname text]) ∧
            (¬ Hears b (s.fdOf c) k → writtenBy (.handler c) past k = [])) ↔
          r.nickname.length + text.length + 5 ≤ config.1.maxMessageSize ∨
          ∀ k, ¬ Hears b (s.fdOf c) k) := by
  have h₀ : Run step (init config) s₀ := h.tail trivial hs
  have hR := relaying_of_recv h hr hin hlen hf hs
  refine ⟨fun past s₁ hp hne ch => goes_on h₀ hp hne ch, ?_⟩
  intro past s₁ hp hnil
  cases hR.of_path h₀ hp with
  | named ht => rw [hnil] at ht; cases ht
  | fixing ht => rw [hnil] at ht; cases ht
  | @writing b ch done rest hb htb hT ht hn hfds hw =>
    rw [hnil] at ht
    have hrest : rest = [] := List.map_eq_nil_iff.mp ht.symm
    rw [hrest, List.append_nil] at hT
    rw [← hT] at hw
    have hIb : Inv b := inv_of_run (h₀.trans (hp.mem hb).1.run)
    refine ⟨b, ch, hb, htb, ?_⟩
    by_cases hfit : FitsRelay config r.nickname text
    · simp only [if_pos hfit] at hw
      refine iff_of_true (fun k => ⟨?_, ?_⟩) (.inl hfit)
      · intro hk
        obtain ⟨fd', hfd'⟩ := List.length_eq_one_iff.mp ((filter_targets hIb _ k).1 hk)
        rw [hw, hfd']
        rfl
      · intro hk
        rw [hw, (filter_targets hIb _ k).2 hk]
        rfl
    · simp only [if_neg hfit] at hw
      constructor
      · refine fun hall => .inr ?_
        intro k hk
        have hone := (hall k).1 hk
        rw [hw] at hone
        cases hone
      · rintro (hfit' | hnone)
        · exact absurd hfit' hfit
        · exact fun k => ⟨fun hk => absurd hk (hnone k), fun _ => hw k⟩

/-! ### A short line and a long one -/

/-- Two clients are there, and the first has sent a line. -/
def lineArrives (line : Bytes) : List Action :=
  admits 5 0 ++ admits 6 1 ++ blocks .main 1 ++ [.arrive 0 ⟨line, none⟩]

/-- What a block writes, and to which descriptor. -/
def writes? : Op → Option (Fd × Frame)
  | .sendFrame fd f => some (fd, f)
  | _ => none

theorem writes?_eq_some {op : Op} {fd : Fd} {f : Frame} :
    writes? op = some (fd, f) ↔ op = .sendFrame fd f := by
  cases op <;> simp [writes?]

/-- Whether a frame is meant for a connection. -/
def meantFor (f : Frame) (k : ConnId) : Bool :=
  match f.cause with
  | .direct => true
  | .broadcast _ taken => k < taken
  | .priv _ holder => holder == some k

theorem meantFor_iff {f : Frame} {k : ConnId} : meantFor f k = true ↔ f.MeantFor k := by
  unfold meantFor Frame.MeantFor
  cases f.cause <;> simp

/-- The thread of `c` writes what it is to write where it belongs. -/
def writesWell (s : Server) (t : Tid) (ch : Choice) : Bool :=
  ((s.todo t).head?.bind writes?).all fun d =>
    ch.ok && (s.fds d.1).any fun k => !s.broken k && meantFor d.2 k

instance (c : ConnId) (s : Server) (a : Action) : Decidable (Undisturbed c s a) :=
  match a with
  | .recv c' | .recvEnd c' => inferInstanceAs (Decidable (c' ≠ c))
  | .run t ch => decidable_of_iff (t = .handler c → writesWell s t ch = true) (by
      apply imp_congr_right
      intro _
      constructor
      · intro h fd f rest ht
        simp only [writesWell, ht, List.head?_cons, Option.bind_some, writes?, Option.all_some,
          Bool.and_eq_true] at h
        obtain ⟨k, hk, hb⟩ := (Option.any_eq_true ..).mp h.2
        simp only [Bool.and_eq_true, Bool.not_eq_true', meantFor_iff] at hb
        exact ⟨h.1, k, hk, hb⟩
      · intro h
        apply Option.all_eq_true .. |>.mpr
        intro d hd
        obtain ⟨op, hop, hw⟩ := Option.bind_eq_some_iff.mp hd
        obtain ⟨rest, hrest⟩ := List.head?_eq_some_iff.mp hop
        obtain ⟨hok, k, hk, hb, hm⟩ := h d.1 d.2 rest (by rw [hrest, writes?_eq_some.mp hw])
        simp [hok, hk, hb, meantFor_iff.mpr hm])
  | .iterate _ | .leaveLoop | .requestShutdown | .arrive _ _ | .rehash _ => isTrue trivial

set_option maxRecDepth 16000 in
theorem short_line_is_relayed : ∃ s s₀ past s₁ b, Run step (init .default) s ∧
    s.inbox 0 = [⟨bytes "hi", none⟩] ∧ step s (.recv 0) = some s₀ ∧
    PathIn step (Undisturbed 0) s₀ past s₁ ∧ s₁.todo (.handler 0) = [] ∧
    ∀ k, (Hears b 5 k →
      (writtenBy (.handler 0) past k).map (·.line) = [.msg (bytes "User1") (bytes "hi")]) ∧
      (¬ Hears b 5 k → writtenBy (.handler 0) past k = []) := by
  obtain ⟨s, hs, hr, hin, hfd, hk, hall⟩ :=
    exists_run_of_any step (init .default) (lineArrives (bytes "hi"))
    (fun s => s.clients.find? 5 = some ⟨bytes "User1", true⟩ ∧ s.inbox 0 = [⟨bytes "hi", none⟩] ∧
      s.fdOf 0 = 5 ∧ (step s (.recv 0)).isSome = true ∧
      (step s (.recv 0)).all (fun s₀ =>
        (execAllIn step (Undisturbed 0) s₀ (blocks (.handler 0) 3)).map
          (fun s₁ => s₁.todo (.handler 0)) = some []) = true) (by decide)
  obtain ⟨s₀, hs₀⟩ := Option.isSome_iff_exists.mp hk
  rw [hs₀, Option.all_some, decide_eq_true_eq] at hall
  obtain ⟨s₁, hp, hd⟩ := exists_pathIn_of_execAllIn hall
  have hf : ClientFrame.Chats ⟨bytes "hi", none⟩ (bytes "hi") := ⟨by decide, by decide, by decide⟩
  obtain ⟨b, ch, -, -, hiff⟩ :=
    (relayed_iff hs (hfd ▸ hr) hin (by decide) hf hs₀).2 _ s₁ hp hd
  rw [hfd] at hiff
  exact ⟨s, s₀, _, s₁, b, hs, hin, hs₀, hp, hd, hiff.mpr (.inl (by decide))⟩

/-- The smallest limit there is. -/
def smallConfig : LoadedConfig := ⟨{ maxMessageSize := 64 }, ⟨by decide, by decide, by decide⟩⟩

/-- A line of 64 bytes. -/
def longLine : ClientFrame := ⟨List.replicate 64 97, none⟩

set_option maxRecDepth 16000 in
/-- **An accepted line that nobody gets.** It is within the limit of 64 bytes when it is
received; with `MSG User1` in front it is not, and the second client, who is welcomed, gets
nothing. -/
theorem long_line_is_dropped : longLine.payload.length ≤ smallConfig.1.maxMessageSize ∧
    longLine.Chats longLine.payload ∧
    ∃ s : Server, Run step (init smallConfig) s ∧ s.clients.find? 6 = some ⟨bytes "User2", true⟩ ∧
      s.fds 6 = some 1 ∧
      s.broken 1 = false ∧ s.inbox 0 = [] ∧ s.todo (.handler 0) = [] ∧ s.alive 0 = true ∧
      s.written 1 = [welcomeFrame (bytes "User2")] := by
  refine ⟨by decide, ⟨by decide, by decide, by decide⟩, ?_⟩
  exact exists_run_of_any step (init smallConfig)
    (lineArrives longLine.payload ++ .recv 0 :: blocks (.handler 0) 3)
    (fun s => s.clients.find? 6 = some ⟨bytes "User2", true⟩ ∧ s.fds 6 = some 1 ∧
      s.broken 1 = false ∧ s.inbox 0 = [] ∧ s.todo (.handler 0) = [] ∧ s.alive 0 = true ∧
      s.written 1 = [welcomeFrame (bytes "User2")]) (by decide)

end Server

end ThreadLink.Backend
