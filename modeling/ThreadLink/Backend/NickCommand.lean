import ThreadLink.Backend.Replies

/-!
# The command `/nick`

A line whose first word is `/nick` renames the client or is refused. The words of the rest are told
apart by white space, so a tab separates and a blank too many does not count. Whether the name is in
use is decided in one locked block; what comes after it is sent without the lock.

## The model

* `Accepts` and `Refusal` say what the command calls for, in the state it is decided in.
* `RenamedTo` and `Refused` are what is to happen, over all the blocks the thread runs for the
  command: `b` is the state in which the first of them is run, `b'` the state after it, and `later`
  what has happened since.
* `begunBy` has the broadcasts a thread has started.

## What is proved

* `refusalFits_iff` — the refusals that can exceed the limit on the size of a frame.
* `nick_handled_iff` — **the command does what it should, in every interleaving, exactly if it is
  accepted, or the refusal fits and the socket of the client takes it**.
-/

namespace ThreadLink.Backend

open Text Runs

namespace Server

variable {config : LoadedConfig} {s s' b b' : Server} {a : Action} {c k : ConnId} {fd : Fd}
  {args w code text : Bytes}
  {past first later : List (Server × Action)} {e : Server × Action} {line : ServerLine} {g : Frame}
    {ch : Choice}
  {r : ClientRecord}

/-! ### What the command calls for -/

/-- Another client has the nickname. -/
def HeldByOther (b : Server) (fd : Fd) (w : Bytes) : Prop :=
  ∃ fd' r, fd' ≠ fd ∧ b.clients.find? fd' = some r ∧ r.nickname = w

/-- **The command is accepted** with a nickname. -/
structure Accepts (b : Server) (fd : Fd) (args w : Bytes) : Prop where
  /-- It is the only word. -/
  words : words args = [w]
  /-- It is valid. -/
  valid : isValidNickname w = true
  /-- No other client has it. -/
  free : ¬ b.HeldByOther fd w

/-- **The command is refused**, with this code and text. -/
inductive Refusal (b : Server) (fd : Fd) (args : Bytes) : Bytes → Bytes → Prop where
  /-- There are several words. -/
  | many (h : 2 ≤ (words args).length) :
    Refusal b fd args (bytes "NICK_INVALID") (bytes "Nickname must not contain spaces")
  /-- There is none. -/
  | empty (h : words args = []) :
    Refusal b fd args (bytes "NICK_EMPTY") (bytes "Usage: /nick <name>")
  /-- The word is no nickname. -/
  | invalid {w : Bytes} (hw : words args = [w]) (h : isValidNickname w = false) :
    Refusal b fd args (bytes "NICK_INVALID")
      (bytes "Nickname must be 1-24 characters: letters, digits, '_' or '-' only")
  /-- It is in use. -/
  | taken {w : Bytes} (hw : words args = [w]) (hv : isValidNickname w = true)
      (h : b.HeldByOther fd w) :
    Refusal b fd args (bytes "NICK_TAKEN") (bytes "Nickname '" ++ w ++ bytes "' is already in use")

/-- The refusals that may not fit do. -/
structure RefusalFits (config : LoadedConfig) (b : Server) (fd : Fd) (args : Bytes) : Prop where
  /-- A word that is no nickname. -/
  invalid : ∀ w, words args = [w] → isValidNickname w = false → 83 ≤ config.1.maxMessageSize
  /-- A nickname in use. -/
  taken : ∀ w, words args = [w] → isValidNickname w = true → b.HeldByOther fd w →
    w.length + 44 ≤ config.1.maxMessageSize

theorem taken_iff : s.taken fd w = true ↔ s.HeldByOther fd w := by
  simp only [taken, List.any_eq_true, Bool.and_eq_true, bne_iff_ne, beq_iff_eq, HeldByOther]
  constructor
  · rintro ⟨e, he, hne, hw⟩
    exact ⟨e.1, e.2, hne, OrdMap.find?_eq_some.mpr he, hw⟩
  · rintro ⟨fd', r, hne, hr, hw⟩
    exact ⟨(fd', r), OrdMap.find?_eq_some.mp hr, hne, hw⟩

/-- It is accepted or refused. -/
theorem accepts_or_refusal (b : Server) (fd : Fd) (args : Bytes) :
    (∃ w, b.Accepts fd args w) ∨ ∃ code text, b.Refusal fd args code text := by
  rcases hw : words args with _ | ⟨w, _ | ⟨w', ws⟩⟩
  · exact .inr ⟨_, _, .empty hw⟩
  · cases hv : isValidNickname w with
    | false => exact .inr ⟨_, _, .invalid hw hv⟩
    | true =>
      by_cases hheld : b.HeldByOther fd w
      · exact .inr ⟨_, _, .taken hw hv hheld⟩
      · exact .inl ⟨w, hw, hv, hheld⟩
  · refine .inr ⟨_, _, .many ?_⟩
    rw [hw, List.length_cons, List.length_cons]
    omega

/-- Not both. -/
theorem Accepts.not_refusal (h : b.Accepts fd args w) : ¬ b.Refusal fd args code text := by
  intro hr
  have hwords := h.words
  cases hr with
  | many hm =>
    rw [hwords] at hm
    simp at hm
  | empty he =>
    rw [hwords] at he
    cases he
  | invalid hw hv =>
    obtain rfl := (List.cons.inj (hwords.symm.trans hw)).1
    rw [h.valid] at hv
    cases hv
  | taken hw _ hheld =>
    obtain rfl := (List.cons.inj (hwords.symm.trans hw)).1
    exact h.free hheld

/-- In one way. -/
theorem Refusal.unique {code' text' : Bytes} (h : b.Refusal fd args code text)
    (h' : b.Refusal fd args code' text') : code = code' ∧ text = text' := by
  cases h with
  | many hm =>
    cases h' with
    | many => exact ⟨rfl, rfl⟩
    | empty hw | invalid hw | taken hw => rw [hw] at hm; simp at hm
  | empty hw =>
    cases h' with
    | empty => exact ⟨rfl, rfl⟩
    | many hm => rw [hw] at hm; simp at hm
    | invalid hw' | taken hw' => rw [hw] at hw'; cases hw'
  | invalid hw hv =>
    cases h' with
    | invalid => exact ⟨rfl, rfl⟩
    | many hm => rw [hw] at hm; simp at hm
    | empty hw' => rw [hw] at hw'; cases hw'
    | taken hw' hv' =>
      obtain rfl := (List.cons.inj (hw.symm.trans hw')).1
      rw [hv] at hv'
      cases hv'
  | taken hw hv =>
    cases h' with
    | many hm => rw [hw] at hm; simp at hm
    | empty hw' => rw [hw] at hw'; cases hw'
    | invalid hw' hv' =>
      obtain rfl := (List.cons.inj (hw.symm.trans hw')).1
      rw [hv] at hv'
      cases hv'
    | taken hw' =>
      obtain rfl := (List.cons.inj (hw.symm.trans hw')).1
      exact ⟨rfl, rfl⟩

/-- **Which refusals can exceed the limit.** -/
theorem refusalFits_iff (h : b.Refusal fd args code text) :
    RefusalFits config b fd args ↔
    (ServerLine.err code text).payload.length ≤ config.1.maxMessageSize := by
  have hmin : 64 ≤ config.1.maxMessageSize := config.2.maxMessageSize.1
  cases h with
  | many hm =>
    have hlen :
        (ServerLine.err (bytes "NICK_INVALID")
          (bytes "Nickname must not contain spaces")).payload.length = 49 := by
      decide
    refine iff_of_true ⟨?_, ?_⟩ (by omega)
    · intro w hw
      rw [hw] at hm
      simp at hm
    · intro w hw
      rw [hw] at hm
      simp at hm
  | empty hw =>
    have hlen : (ServerLine.err (bytes "NICK_EMPTY") (bytes "Usage: /nick <name>")).payload.length =
        34 := by decide
    refine iff_of_true ⟨?_, ?_⟩ (by omega)
    · intro w hw'
      rw [hw] at hw'
      cases hw'
    · intro w hw'
      rw [hw] at hw'
      cases hw'
  | @invalid w hw hv =>
    have hlen : (ServerLine.err (bytes "NICK_INVALID")
        (bytes
          "Nickname must be 1-24 characters: letters, digits, '_' or '-' only")).payload.length =
          83 := by decide
    rw [hlen]
    refine ⟨fun hf => hf.invalid w hw hv, fun hle => ⟨fun _ _ _ => hle, ?_⟩⟩
    intro w' hw' hv'
    obtain rfl := (List.cons.inj (hw.symm.trans hw')).1
    rw [hv] at hv'
    cases hv'
  | @taken w hw hv hheld =>
    have h1 : (bytes "NICK_TAKEN").length = 10 := by decide
    have h2 : (bytes "Nickname '").length = 10 := by decide
    have h3 : (bytes "' is already in use").length = 19 := by decide
    have hlen : (ServerLine.err (bytes "NICK_TAKEN")
        (bytes "Nickname '" ++ w ++ bytes "' is already in use")).payload.length =
        w.length + 44 := by
      rw [length_err, List.length_append, List.length_append, h1, h2, h3]
      omega
    rw [hlen]
    refine ⟨fun hf => hf.taken w hw hv hheld, fun hle => ⟨?_, ?_⟩⟩
    · intro w' hw' hv'
      obtain rfl := (List.cons.inj (hw.symm.trans hw')).1
      rw [hv] at hv'
      cases hv'
    · intro w' hw' _ _
      obtain rfl := (List.cons.inj (hw.symm.trans hw')).1
      exact hle

/-! ### What happens -/

/-- The broadcasts the thread of a connection starts in a step. -/
def begins (c : ConnId) (e : Server × Action) : List ServerLine :=
  match e.2 with
  | .run t _ =>
    if t = .handler c then
      match e.1.todo t with
      | .broadcast line _ _ _ :: _ => [line]
      | _ => []
    else []
  | _ => []

/-- The broadcasts it has started. -/
def begunBy (c : ConnId) (past : List (Server × Action)) : List ServerLine :=
  past.flatMap (begins c)

/-- The step is none of the thread. -/
def Alien (c : ConnId) (e : Server × Action) : Prop := ∀ ch, e.2 ≠ .run (.handler c) ch

/-- If it is one, it leaves the registry as it is. -/
def LeavesClients (c : ConnId) (e : Server × Action) : Prop :=
  ∀ ch s', e.2 = .run (.handler c) ch → step e.1 e.2 = some s' → s'.clients = e.1.clients

/-- If the thread writes to the socket of its client in the step, the socket takes it. -/
def Takes (c : ConnId) (e : Server × Action) : Prop :=
  ∀ ch fd f rest, e.2 = .run (.handler c) ch → e.1.todo (.handler c) = .sendFrame fd f :: rest →
    ch.ok = true ∧ e.1.broken c = false

/-- **The client is renamed**: its nickname changes and nothing else does, and one NICK is
broadcast. -/
structure RenamedTo (c : ConnId) (fd : Fd) (w : Bytes) (b b' : Server)
    (past later : List (Server × Action)) : Prop where
  /-- The nickname changes. -/
  renamed : ∃ r, b.clients.find? fd = some r ∧ b'.clients.find? fd = some { r with nickname := w } ∧
    begunBy c past = [.nick r.nickname w] ∧
    ∀ k, ∀ g ∈ writtenBy (.handler c) past k, g.line = .nick r.nickname w
  /-- No other record does. -/
  others : ∀ fd', fd' ≠ fd → b'.clients.find? fd' = b.clients.find? fd'
  /-- The thread changes nothing later. -/
  later : ∀ e ∈ later, LeavesClients c e

/-- **The client is refused**: nothing changes, nothing is broadcast, and the client gets the error
and nobody gets anything else. -/
structure Refused (c : ConnId) (code : Bytes) (b b' : Server)
    (past later : List (Server × Action)) : Prop where
  /-- No record changes. -/
  clients : b'.clients = b.clients
  /-- Not later either. -/
  later : ∀ e ∈ later, LeavesClients c e
  /-- Nothing is broadcast. -/
  silent : begunBy c past = []
  /-- Nobody else gets anything from the thread. -/
  alone : ∀ k, k ≠ c → writtenBy (.handler c) past k = []
  /-- The client gets one error. -/
  once : ∃ text, (writtenBy (.handler c) past c).map (·.line) = [.err code text]

/-- **What the command is to do.** -/
structure NickHandled (c : ConnId) (fd : Fd) (args : Bytes) (b b' : Server)
    (past later : List (Server × Action)) : Prop where
  /-- If it is accepted. -/
  accepted : ∀ w, b.Accepts fd args w → RenamedTo c fd w b b' past later
  /-- If it is refused. -/
  refused : ∀ code text, b.Refusal fd args code text → Refused c code b b' past later

theorem begunBy_concat (c : ConnId) (past : List (Server × Action)) (e : Server × Action) :
    begunBy c (past ++ [e]) = begunBy c past ++ begins c e := by
  rw [begunBy, List.flatMap_append, List.flatMap_singleton]
  rfl

theorem begins_of_alien (h : Alien c e) : begins c e = [] := by
  obtain ⟨s, a⟩ := e
  cases a with
  | run t ch =>
    have hne : t ≠ .handler c := fun he => h ch (by rw [he])
    simp only [begins, if_neg hne]
  | _ => rfl

theorem begins_of_broadcast {excludeFd : Fd} {about : Option ConnId} {serial : Option ℕ}
    {rest : List Op} (ht : s.todo (.handler c) = .broadcast line excludeFd about serial :: rest) :
    begins c (s, .run (.handler c) ch) = [line] := by
  simp only [begins, if_true, ht]

theorem begins_of_other {op : Op} {rest : List Op} (ht : s.todo (.handler c) = op :: rest)
    (hop : ∀ line excludeFd about serial, op ≠ .broadcast line excludeFd about serial) :
    begins c (s, .run (.handler c) ch) = [] := by
  simp only [begins, if_true, ht]
  split
  · rename_i line excludeFd about serial _ he
    exact absurd (List.cons.inj he).1 (hop line excludeFd about serial)
  · rfl

theorem leavesClients_of_alien (h : Alien c e) : LeavesClients c e :=
  fun ch _ he _ => absurd he (h ch)

/-- The step leaves the registry as it is. -/
theorem leavesClients_of_step (hs : step s (.run (.handler c) ch) = some s')
    (hc : s'.clients = s.clients) : LeavesClients c (s, .run (.handler c) ch) := by
  intro ch' s'' _ hs'
  rw [hs] at hs'
  obtain rfl := Option.some.inj hs'
  exact hc

/-! ### Where the thread is -/

/-- The client is in the registry. -/
def Listed (c : ConnId) (fd : Fd) (s : Server) : Prop :=
  s.fds fd = some c ∧ ∃ r, s.clients.find? fd = some r

/-- The thread announces the new nickname. -/
inductive Announcing (c : ConnId) (line : ServerLine) (past : List (Server × Action)) (s : Server) :
    Prop where
  /-- It has to fix the targets. -/
  | fix (ht : s.todo (.handler c) = [.broadcast line (-1) (some c) none]) (ha : begunBy c past = [])
    (hw : ∀ k, writtenBy (.handler c) past k = [])
  /-- It has fixed them. -/
  | write (ht : ∀ op ∈ s.todo (.handler c), ∃ fd f, op = .sendFrame fd f ∧ f.line = line)
    (ha : begunBy c past = [line])
    (hw : ∀ k, ∀ g ∈ writtenBy (.handler c) past k, g.line = line)

/-- The thread sends its client the one frame. -/
inductive Replying (config : LoadedConfig) (c : ConnId) (fd : Fd) (g : Frame)
    (past : List (Server × Action)) (s : Server) : Prop where
  /-- It has to look the client up. -/
  | lookup (ht : s.todo (.handler c) = [.sendToFd fd g]) (hl : Listed c fd s)
    (hw : ∀ k, writtenBy (.handler c) past k = []) (hn : ∀ e ∈ past, Takes c e)
  /-- It has to write. -/
  | write (ht : s.todo (.handler c) = [.sendFrame fd g]) (hl : Listed c fd s)
    (hw : ∀ k, writtenBy (.handler c) past k = []) (hn : ∀ e ∈ past, Takes c e)
  /-- It has written, if it could. -/
  | done (ht : s.todo (.handler c) = []) (hothers : ∀ k, k ≠ c → writtenBy (.handler c) past k = [])
    (hsent : g.line.payload.length ≤ config.1.maxMessageSize → (∀ e ∈ past, Takes c e) →
      writtenBy (.handler c) past c = [g])
    (hnot : ¬ (g.line.payload.length ≤ config.1.maxMessageSize ∧ ∀ e ∈ past, Takes c e) →
      writtenBy (.handler c) past c = [])

/-- **Where the thread is** with the command. -/
inductive Nicking (config : LoadedConfig) (c : ConnId) (fd : Fd) (args : Bytes)
    (past : List (Server × Action)) (s : Server) : Prop where
  /-- It has to decide it. -/
  | deciding (ht : s.todo (.handler c) = handleNick fd args) (hl : Listed c fd s)
    (hp : ∀ e ∈ past, Alien c e)
  /-- It was accepted in `b`. -/
  | accepted {first later : List (Server × Action)} {b b' : Server} {ch : Choice} {w : Bytes}
    {r : ClientRecord}
    (hp : past = first ++ (b, .run (.handler c) ch) :: later) (hf : ∀ e ∈ first, Alien c e)
    (hb : step b (.run (.handler c) ch) = some b') (hacc : b.Accepts fd args w)
      (hr : b.clients.find? fd = some r)
    (hc : b'.clients = b.clients.modify fd fun r => { r with nickname := w })
      (hl : ∀ e ∈ later, LeavesClients c e)
    (hat : Announcing c (.nick r.nickname w) past s)
  /-- It was refused in `b`. -/
  | refused {first later : List (Server × Action)} {b b' : Server} {ch : Choice} {code text : Bytes}
    (hp : past = first ++ (b, .run (.handler c) ch) :: later) (hf : ∀ e ∈ first, Alien c e)
    (hb : step b (.run (.handler c) ch) = some b') (href : b.Refusal fd args code text)
      (hc : b'.clients = b.clients)
    (hl : ∀ e ∈ later, LeavesClients c e) (ha : begunBy c past = [])
    (hat : Replying config c fd (errFrame code text) past s)

/-! ### One step -/

theorem Listed.other (h : Listed c fd s) (hI : Inv s) (ha : ∀ ch, a ≠ .run (.handler c) ch)
    (hs : step s a = some s') : Listed c fd s' := by
  obtain ⟨hk, r, hr⟩ := h
  obtain ⟨hk', r', hr', -⟩ := own_client_stays hI ha hs hk hr
  exact ⟨hk', r', hr'⟩

theorem Announcing.other (h : Announcing c line past s) (hq : Attends c s a)
    (ha : ∀ ch, a ≠ .run (.handler c) ch) (hs : step s a = some s') :
    Announcing c line (past ++ [(s, a)]) s' := by
  have htodo := todo_of_attends hq ha hs
  have hbegun : begunBy c (past ++ [(s, a)]) = begunBy c past := by
    rw [begunBy_concat, begins_of_alien (e := (s, a)) ha, List.append_nil]
  have hwritten (k : ConnId) :
      writtenBy (.handler c) (past ++ [(s, a)]) k = writtenBy (.handler c) past k := by
    rw [writtenBy_concat, writes_of_ne ha, List.append_nil]
  cases h with
  | fix ht hb hw => exact .fix (htodo.trans ht) (hbegun.trans hb) fun k => (hwritten k).trans (hw k)
  | write ht hb hw =>
    refine .write (fun op hop => ht op (htodo ▸ hop)) (hbegun.trans hb) ?_
    intro k g hg
    rw [hwritten] at hg
    exact hw k g hg

theorem Announcing.own (h : Announcing c line past s)
    (hs : step s (.run (.handler c) ch) = some s') :
    Announcing c line (past ++ [(s, .run (.handler c) ch)]) s' ∧ s'.clients = s.clients := by
  obtain ⟨op, rest₀, s₁, new, ht₀, he, hs'⟩ := step_run hs
  have htodo : s'.todo (.handler c) = new ++ rest₀ := by
    rw [hs']
    exact Function.update_self ..
  have hclients : s'.clients = s₁.clients := by rw [hs', setTodo]
  cases h with
  | fix ht hb hw =>
    obtain ⟨rfl, rfl⟩ := List.cons.inj (ht.symm.trans ht₀)
    simp only [exec, Option.some.injEq, Prod.mk.injEq] at he
    obtain ⟨rfl, rfl⟩ := he
    have hwrites (k : ConnId) : writes (.handler c) k (s, .run (.handler c) ch) = [] :=
      writes_of_run hs (by rw [hs', List.append_nil, List.append_nil]; rfl)
    refine ⟨.write ?_ ?_ ?_, hclients⟩
    · intro op hop
      rw [htodo, List.append_nil] at hop
      obtain ⟨fd', -, rfl⟩ := List.mem_map.mp hop
      exact ⟨fd', _, rfl, rfl⟩
    · rw [begunBy_concat, hb, begins_of_broadcast ht]
      rfl
    · intro k g hg
      rw [writtenBy_concat, hw, hwrites] at hg
      exact absurd hg List.not_mem_nil
  | write ht hb hw =>
    have hop := ht op (by rw [ht₀]; exact List.mem_cons_self)
    obtain ⟨fd', f, rfl, hf⟩ := hop
    simp only [exec, Option.some.injEq, Prod.mk.injEq] at he
    obtain ⟨rfl, rfl⟩ := he
    have hsame : (s.sendFrame fd' f ch.ok).clients = s.clients := clients_sendFrame s fd' f ch.ok
    refine ⟨.write ?_ ?_ ?_, hclients.trans hsame⟩
    · intro op hop
      rw [htodo] at hop
      exact ht op (by rw [ht₀]; exact List.mem_cons_of_mem _ hop)
    · rw [begunBy_concat, hb, begins_of_other ht₀ (fun _ _ _ _ h => by cases h)]
      rfl
    · intro k g hg
      have hwrites :=
        writes_of_run (k := k) hs (by rw [hs']; exact written_of_sendFrame s fd' f ch.ok k)
      rw [writtenBy_concat, List.mem_append, hwrites] at hg
      rcases hg with hg | hg
      · exact hw k g hg
      · split at hg
        · rw [List.mem_singleton.mp hg]
          exact hf
        · exact absurd hg List.not_mem_nil

theorem Takes.of_alien (h : Alien c e) : Takes c e := fun ch _ _ _ he => absurd he (h ch)

theorem forall_takes_concat (hp : ∀ e ∈ past, Takes c e) (he : Takes c e) :
    ∀ e' ∈ past ++ [e], Takes c e' := by
  intro e' he'
  rcases List.mem_append.mp he' with h | h
  · exact hp e' h
  · rw [List.mem_singleton.mp h]
    exact he

theorem Replying.other (h : Replying config c fd g past s) (hI : Inv s) (hq : Attends c s a)
    (ha : ∀ ch, a ≠ .run (.handler c) ch) (hs : step s a = some s') :
    Replying config c fd g (past ++ [(s, a)]) s' := by
  have htodo := todo_of_attends hq ha hs
  have hwritten (k : ConnId) :
      writtenBy (.handler c) (past ++ [(s, a)]) k = writtenBy (.handler c) past k := by
    rw [writtenBy_concat, writes_of_ne ha, List.append_nil]
  have htakes : Takes c (s, a) := Takes.of_alien ha
  cases h with
  | lookup ht hl hw hn =>
    exact .lookup (htodo.trans ht) (hl.other hI ha hs) (fun k => (hwritten k).trans (hw k))
      (forall_takes_concat hn htakes)
  | write ht hl hw hn =>
    exact .write (htodo.trans ht) (hl.other hI ha hs) (fun k => (hwritten k).trans (hw k))
      (forall_takes_concat hn htakes)
  | done ht hothers hsent hnot =>
    refine .done (htodo.trans ht) (fun k hk => (hwritten k).trans (hothers k hk)) ?_ ?_
    · intro hle hn
      exact (hwritten c).trans (hsent hle fun e he => hn e (List.mem_append_left _ he))
    · intro hno
      exact (hwritten c).trans (hnot fun h => hno ⟨h.1, forall_takes_concat h.2 htakes⟩)

theorem Replying.own (h : Replying config c fd g past s) (hc : s.config = config)
    (hs : step s (.run (.handler c) ch) = some s') :
    Replying config c fd g (past ++ [(s, .run (.handler c) ch)]) s' ∧ s'.clients = s.clients ∧
      begins c (s, .run (.handler c) ch) = [] := by
  obtain ⟨op, rest₀, s₁, new, ht₀, he, hs'⟩ := step_run hs
  have htodo : s'.todo (.handler c) = new ++ rest₀ := by
    rw [hs']
    exact Function.update_self ..
  cases h with
  | lookup ht hl hw hn =>
    obtain ⟨hk, r, hr⟩ := hl
    obtain ⟨rfl, rfl⟩ := List.cons.inj (ht.symm.trans ht₀)
    simp only [exec, hr, Option.some.injEq, Prod.mk.injEq] at he
    obtain ⟨rfl, rfl⟩ := he
    have hwrites (k : ConnId) : writes (.handler c) k (s, .run (.handler c) ch) = [] :=
      writes_of_run hs (by rw [hs', List.append_nil, List.append_nil]; rfl)
    refine ⟨.write htodo ⟨?_, r, ?_⟩ ?_ (forall_takes_concat hn ?_), by rw [hs', setTodo], ?_⟩
    · rw [hs']
      exact hk
    · rw [hs']
      exact hr
    · intro k
      rw [writtenBy_concat, hw, hwrites, List.append_nil]
    · intro ch' fd' f rest' _ ht'
      cases (List.cons.inj (ht.symm.trans ht')).1
    · exact begins_of_other ht fun _ _ _ _ h => by cases h
  | write ht hl hw hn =>
    obtain ⟨hk, -⟩ := hl
    obtain ⟨rfl, rfl⟩ := List.cons.inj (ht.symm.trans ht₀)
    simp only [exec, Option.some.injEq, Prod.mk.injEq] at he
    obtain ⟨rfl, rfl⟩ := he
    have hwrites (k : ConnId) :=
      writes_of_run (k := k) hs (by rw [hs']; exact written_of_sendFrame s fd g ch.ok k)
    have htakes : Takes c (s, .run (.handler c) ch) ↔ ch.ok = true ∧ s.broken c = false := by
      refine ⟨fun h => h ch fd g [] rfl ht, ?_⟩
      intro h ch' fd' f rest' he _
      obtain ⟨-, rfl⟩ := Action.run.inj he
      exact h
    have hall : (∀ e ∈ past ++ [(s, .run (.handler c) ch)], Takes c e) ↔
        ch.ok = true ∧ s.broken c = false :=
      ⟨fun h => htakes.mp (h _ (List.mem_append_right _ (List.mem_singleton_self _))),
        fun h => forall_takes_concat hn (htakes.mpr h)⟩
    refine ⟨.done htodo ?_ ?_ ?_, ?_, ?_⟩
    · intro k hne
      rw [writtenBy_concat, hw, hwrites,
        if_neg fun h => hne (Option.some.inj (h.2.2.1.symm.trans hk))]
      rfl
    · intro hle hn'
      rw [writtenBy_concat, hw, hwrites, if_pos ⟨hc ▸ hle, (hall.mp hn').1, hk, (hall.mp hn').2⟩]
      rfl
    · intro hno
      rw [writtenBy_concat, hw, hwrites, if_neg fun h => hno ⟨hc ▸ h.1, hall.mpr ⟨h.2.1, h.2.2.2⟩⟩]
      rfl
    · rw [hs']
      exact clients_sendFrame s fd g ch.ok
    · exact begins_of_other ht fun _ _ _ _ h => by cases h
  | done ht =>
    rw [ht] at ht₀
    cases ht₀

/-- What the thread has to do is found in one of three ways. -/
theorem Nicking.other (h : Nicking config c fd args past s) (hI : Inv s) (hq : Attends c s a)
    (ha : ∀ ch, a ≠ .run (.handler c) ch) (hs : step s a = some s') :
    Nicking config c fd args (past ++ [(s, a)]) s' := by
  have hleaves {later : List (Server × Action)} (hl : ∀ e ∈ later, LeavesClients c e) :
      ∀ e ∈ later ++ [(s, a)], LeavesClients c e := by
    intro e he
    rcases List.mem_append.mp he with he | he
    · exact hl e he
    · rw [List.mem_singleton.mp he]
      exact leavesClients_of_alien ha
  have hpast {first later : List (Server × Action)} {e : Server × Action}
      (hp : past = first ++ e :: later) :
      past ++ [(s, a)] = first ++ e :: (later ++ [(s, a)]) := by
    rw [hp, List.append_assoc, List.cons_append]
  cases h with
  | deciding ht hl hp =>
    refine .deciding ((todo_of_attends hq ha hs).trans ht) (hl.other hI ha hs) ?_
    intro e he
    rcases List.mem_append.mp he with he | he
    · exact hp e he
    · rw [List.mem_singleton.mp he]
      exact ha
  | accepted hp hf hb hacc hr hc hl hat =>
    exact .accepted (hpast hp) hf hb hacc hr hc (hleaves hl) (hat.other hq ha hs)
  | refused hp hf hb href hc hl hbegun hat =>
    refine .refused (hpast hp) hf hb href hc (hleaves hl) ?_ (hat.other hI hq ha hs)
    rw [begunBy_concat, hbegun, begins_of_alien (e := (s, a)) ha]
    rfl

/-- Nothing has come of it yet. -/
theorem untouched_of_alien (hp : ∀ e ∈ past, Alien c e) :
    begunBy c past = [] ∧ (∀ k, writtenBy (.handler c) past k = []) ∧ ∀ e ∈ past, Takes c e := by
  refine ⟨List.flatMap_eq_nil_iff.mpr fun e he => begins_of_alien (hp e he),
    fun k => List.flatMap_eq_nil_iff.mpr ?_, fun e he => Takes.of_alien (hp e he)⟩
  intro e he
  obtain ⟨s, a⟩ := e
  exact writes_of_ne (hp _ he) k

/-- **An error is sent at once.** -/
theorem refuses_atOnce {code text : Bytes} (hl : Listed c fd s) (hp : ∀ e ∈ past, Alien c e)
    (hc : s.config = config) (ht : s.todo (.handler c) = [sendError fd code text])
    (href : s.Refusal fd args code text) (hs : step s (.run (.handler c) ch) = some s') :
    Nicking config c fd args (past ++ [(s, .run (.handler c) ch)]) s' := by
  obtain ⟨hbegun, hw, hn⟩ := untouched_of_alien hp
  have h : Replying config c fd (errFrame code text) past s := .lookup ht hl hw hn
  obtain ⟨hat, hsame, hb⟩ := h.own hc hs
  have hpast : past ++ [(s, Action.run (.handler c) ch)] =
      past ++ (s, .run (.handler c) ch) :: [] := rfl
  refine .refused hpast hp hs href hsame (fun e he => absurd he List.not_mem_nil) ?_ hat
  rw [begunBy_concat, hbegun, hb]
  rfl

/-- **The locked block decides.** -/
theorem decides_locked {w : Bytes} (hl : Listed c fd s) (hp : ∀ e ∈ past, Alien c e)
    (ht : s.todo (.handler c) = [.handleNick fd w]) (hw : words args = [w])
    (hv : isValidNickname w = true) (hs : step s (.run (.handler c) ch) = some s') :
    Nicking config c fd args (past ++ [(s, .run (.handler c) ch)]) s' := by
  obtain ⟨hk, r, hr⟩ := hl
  obtain ⟨hbegun, hwritten, hn⟩ := untouched_of_alien hp
  obtain ⟨op, rest₀, s₁, new, ht₀, he, hs'⟩ := step_run hs
  obtain ⟨rfl, rfl⟩ := List.cons.inj (ht.symm.trans ht₀)
  have htodo : s'.todo (.handler c) = new := by
    rw [hs', List.append_nil]
    exact Function.update_self ..
  have hbegins : begins c (s, .run (.handler c) ch) = [] :=
    begins_of_other ht fun _ _ _ _ h => by cases h
  have hbegun' : begunBy c (past ++ [(s, .run (.handler c) ch)]) = [] := by
    rw [begunBy_concat, hbegun, hbegins]
    rfl
  have hwritten' (hsame : s₁.written = s.written) (k : ConnId) :
      writtenBy (.handler c) (past ++ [(s, .run (.handler c) ch)]) k = [] := by
    have hwrites : writes (.handler c) k (s, .run (.handler c) ch) = [] :=
      writes_of_run hs (by rw [hs', List.append_nil, List.append_nil, ← hsame]; rfl)
    rw [writtenBy_concat, hwritten, hwrites, List.append_nil]
  have hpast : past ++ [(s, Action.run (.handler c) ch)] =
      past ++ (s, .run (.handler c) ch) :: [] := rfl
  by_cases htaken : s.taken fd w = true
  · simp only [exec, renameClient, if_pos htaken, Option.some.injEq, Prod.mk.injEq] at he
    obtain ⟨rfl, rfl⟩ := he
    refine .refused hpast hp hs (.taken hw hv (taken_iff.mp htaken)) (by rw [hs']; rfl)
      (fun e he => absurd he List.not_mem_nil) hbegun' ?_
    refine .lookup htodo ⟨by rw [hs']; exact hk, r, by rw [hs']; exact hr⟩ (hwritten' rfl)
      (forall_takes_concat hn ?_)
    intro ch' fd' f rest' _ ht'
    cases (List.cons.inj (ht.symm.trans ht')).1
  · simp only [exec, renameClient, if_neg htaken, hr, Option.some.injEq, Prod.mk.injEq] at he
    obtain ⟨rfl, rfl⟩ := he
    refine .accepted hpast hp hs ⟨hw, hv, fun h => htaken (taken_iff.mpr h)⟩ hr (by rw [hs']; rfl)
      (fun e he => absurd he List.not_mem_nil) ?_
    exact .fix htodo hbegun' (hwritten' rfl)

theorem Nicking.own (h : Nicking config c fd args past s) (hc : s.config = config)
    (hs : step s (.run (.handler c) ch) = some s') :
    Nicking config c fd args (past ++ [(s, .run (.handler c) ch)]) s' := by
  have hleaves {later : List (Server × Action)} (hl : ∀ e ∈ later, LeavesClients c e)
      (hsame : s'.clients = s.clients) :
      ∀ e ∈ later ++ [(s, .run (.handler c) ch)], LeavesClients c e := by
    intro e he
    rcases List.mem_append.mp he with he | he
    · exact hl e he
    · rw [List.mem_singleton.mp he]
      exact leavesClients_of_step hs hsame
  have hpast {first later : List (Server × Action)} {e : Server × Action}
      (hp : past = first ++ e :: later) :
      past ++ [(s, .run (.handler c) ch)] =
      first ++ e :: (later ++ [(s, .run (.handler c) ch)]) := by
    rw [hp, List.append_assoc, List.cons_append]
  cases h with
  | deciding ht hl hp =>
    have hvalid : bytes "Nickname must be 1-" ++ bytes (toString maxNicknameLength) ++
        bytes " characters: letters, digits, '_' or '-' only" =
        bytes "Nickname must be 1-24 characters: letters, digits, '_' or '-' only" := by decide
    rcases hw : words args with _ | ⟨w, _ | ⟨w', ws⟩⟩
    · simp only [handleNick, hw] at ht
      exact refuses_atOnce hl hp hc ht (.empty hw) hs
    · simp only [handleNick, hw, hvalid] at ht
      cases hv : isValidNickname w with
      | true =>
        rw [if_pos hv] at ht
        exact decides_locked hl hp ht hw hv hs
      | false =>
        rw [if_neg (by rw [hv]; decide)] at ht
        exact refuses_atOnce hl hp hc ht (.invalid hw hv) hs
    · simp only [handleNick, hw] at ht
      refine refuses_atOnce hl hp hc ht (.many ?_) hs
      rw [hw, List.length_cons, List.length_cons]
      omega
  | accepted hp hf hb hacc hr hcl hl hat =>
    obtain ⟨hat', hsame⟩ := hat.own hs
    exact .accepted (hpast hp) hf hb hacc hr hcl (hleaves hl hsame) hat'
  | refused hp hf hb href hcl hl hbegun hat =>
    obtain ⟨hat', hsame, hbegins⟩ := hat.own hc hs
    refine .refused (hpast hp) hf hb href hcl (hleaves hl hsame) ?_ hat'
    rw [begunBy_concat, hbegun, hbegins]
    rfl

theorem Nicking.of_path {s₀ s₁ : Server} (h : Run step (init config) s₀)
    (h0 : Nicking config c fd args [] s₀) (hp : PathIn step (Attends c) s₀ past s₁) :
    Nicking config c fd args past s₁ := by
  apply at_work (c := c) h h0 hp
  · intro past s a s' hs hq ha hstep hN
    exact hN.other (inv_of_run hs) hq ha hstep
  · intro past s ch s' hs _ hstep hN
    exact hN.own (config_of_run hs) hstep

/-! ### When it has nothing left to do -/

theorem handleNick_ne_nil (fd : Fd) (args : Bytes) : handleNick fd args ≠ [] := by
  unfold handleNick
  split
  · exact List.cons_ne_nil _ _
  · exact List.cons_ne_nil _ _
  · split_ifs
    · exact List.cons_ne_nil _ _
    · exact List.cons_ne_nil _ _

theorem handleLine_nick {payload : Bytes} (fd : Fd) (serial : Option ℕ)
    (h : (splitFirst (stripLine payload)).1 = bytes "/nick") :
    handleLine fd payload serial = handleNick fd (splitFirst (stripLine payload)).2 := by
  -- the line begins with its first token
  have hpre : (splitFirst (stripLine payload)).1 <+: stripLine payload := List.takeWhile_prefix _
  obtain ⟨l, hl⟩ := hpre
  rw [h, show bytes "/nick" = 47 :: bytes "nick" by decide, List.cons_append] at hl
  have hempty : (stripLine payload).isEmpty = false := by rw [← hl]; rfl
  have hhead : (stripLine payload).head? = some 47 := by rw [← hl]; rfl
  unfold handleLine
  simp only [hempty, hhead, Bool.false_eq_true, if_false, if_true, h]

theorem Announcing.finished (h : Announcing c line past s) (hd : s.todo (.handler c) = []) :
    begunBy c past = [line] ∧ ∀ k, ∀ g ∈ writtenBy (.handler c) past k, g.line = line := by
  cases h with
  | fix ht =>
    rw [hd] at ht
    cases ht
  | write _ ha hw => exact ⟨ha, hw⟩

/-- What is accepted is done. -/
theorem Accepts.handled (hacc : b.Accepts fd args w) (hr : b.clients.find? fd = some r)
    (hc : b'.clients = b.clients.modify fd fun r => { r with nickname := w })
    (hl : ∀ e ∈ later, LeavesClients c e)
    (hat : begunBy c past = [.nick r.nickname w] ∧
      ∀ k, ∀ g ∈ writtenBy (.handler c) past k, g.line = .nick r.nickname w) :
    NickHandled c fd args b b' past later := by
  refine ⟨?_, fun code text href => absurd href hacc.not_refusal⟩
  intro w' hacc'
  obtain rfl := (List.cons.inj (hacc.words.symm.trans hacc'.words)).1
  refine ⟨⟨r, hr, ?_, hat.1, hat.2⟩, ?_, hl⟩
  · rw [hc, OrdMap.find?_modify_self, hr]
    rfl
  · intro fd' hne
    rw [hc, OrdMap.find?_modify_of_ne _ hne]

/-- What is refused is told, if it can be. -/
theorem Refusal.handled_iff (href : b.Refusal fd args code text) (hc : b'.clients = b.clients)
    (hl : ∀ e ∈ later, LeavesClients c e) (hbegun : begunBy c past = [])
    (hat : Replying config c fd (errFrame code text) past s) (hd : s.todo (.handler c) = []) :
    NickHandled c fd args b b' past later ↔
      (ServerLine.err code text).payload.length ≤ config.1.maxMessageSize ∧
      ∀ e ∈ past, Takes c e := by
  cases hat with
  | lookup ht | write ht =>
    rw [hd] at ht
    cases ht
  | done _ hothers hsent hnot =>
    constructor
    · intro hn
      by_contra hno
      obtain ⟨text', ht'⟩ := (hn.refused code text href).once
      rw [hnot hno] at ht'
      cases ht'
    · rintro ⟨hle, hn⟩
      refine ⟨fun w hacc => absurd href hacc.not_refusal, ?_⟩
      intro code' text' href'
      obtain ⟨rfl, rfl⟩ := href.unique href'
      refine ⟨hc, hl, hbegun, hothers, text, ?_⟩
      rw [hsent hle hn]
      rfl

/-! ### The whole command -/

/-- **The command does what it should**, in every interleaving: exactly if it is accepted, or the
refusal is within the limit and the socket of the client takes it. The thread can run its next
block as long as it has one, as no lock is in its way and a write is a step that does not wait
here; it decides the command in a block of its own, its first, and what it does changes the
registry in no other. -/
theorem nick_handled_iff {f : ClientFrame} {rest : List ClientFrame} {s₀ : Server}
    (h : Run step (init config) s) (hin : s.inbox c = f :: rest)
    (hlen : f.payload.length ≤ config.1.maxMessageSize)
    (hcmd : (splitFirst (stripLine f.payload)).1 = bytes "/nick")
    (hs : step s (.recv c) = some s₀) :
    (∀ past s₁, PathIn step (Attends c) s₀ past s₁ → s₁.todo (.handler c) ≠ [] →
      ∀ ch, (step s₁ (.run (.handler c) ch)).isSome = true) ∧
    ∀ past s₁, PathIn step (Attends c) s₀ past s₁ → s₁.todo (.handler c) = [] →
      ∃ first b ch b' later, past = first ++ (b, .run (.handler c) ch) :: later ∧
        (∀ e ∈ first, Alien c e) ∧
        step b (.run (.handler c) ch) = some b' ∧
        (NickHandled c (s.fdOf c) (splitFirst (stripLine f.payload)).2 b b' past later ↔
          (∃ w, b.Accepts (s.fdOf c) (splitFirst (stripLine f.payload)).2 w) ∨
            RefusalFits config b (s.fdOf c) (splitFirst (stripLine f.payload)).2 ∧
              ∀ e ∈ past, Takes c e) := by
  have hrun := h.tail trivial hs
  obtain ⟨ht, -, hfds, hclients, hk, hr⟩ := received h hin hs
  have hline : handleFrame config.1 (s.fdOf c) f =
      handleNick (s.fdOf c) (splitFirst (stripLine f.payload)).2 := by
    rw [handleFrame_of_fits hlen]
    exact handleLine_nick (s.fdOf c) f.serial hcmd
  have h0 : Nicking config c (s.fdOf c) (splitFirst (stripLine f.payload)).2 [] s₀ :=
    .deciding (ht.trans hline) ⟨hfds ▸ hk, hclients ▸ hr⟩ fun e he => absurd he List.not_mem_nil
  refine ⟨fun past s₁ hp hne ch => goes_on hrun hp hne ch, ?_⟩
  intro past s₁ hp hd
  cases h0.of_path hrun hp with
  | deciding ht' =>
    rw [hd] at ht'
    exact absurd ht'.symm (handleNick_ne_nil _ _)
  | @accepted first later b b' ch w r hp hf hb hacc hr hc hl hat =>
    refine ⟨first, b, ch, b', later, hp, hf, hb, iff_of_true ?_ (.inl ⟨w, hacc⟩)⟩
    exact hacc.handled hr hc hl (hat.finished hd)
  | @refused first later b b' ch code text hp hf hb href hc hl hbegun hat =>
    refine ⟨first, b, ch, b', later, hp, hf, hb, ?_⟩
    rw [refusalFits_iff href, or_iff_right (not_exists.mpr fun w hacc => hacc.not_refusal href)]
    exact href.handled_iff hc hl hbegun hat hd

set_option maxRecDepth 8000 in
/-- The client that is `User1` is to be `bob`. -/
theorem user1_becomes_bob : ∃ s s₀ past s₁ b b' later, Run step (init .default) s ∧
    s.inbox 0 = [⟨bytes "/nick bob", none⟩] ∧ step s (.recv 0) = some s₀ ∧
    PathIn step (Attends 0) s₀ past s₁ ∧
    NickHandled 0 5 (bytes "bob") b b' past later ∧ b.Accepts 5 (bytes "bob") (bytes "bob") := by
  obtain ⟨s, hs, hin, hfd, hk, hall⟩ :=
    exists_run_of_any step (init .default) (lineArrives (bytes "/nick bob"))
    (fun s => s.inbox 0 = [⟨bytes "/nick bob", none⟩] ∧ s.fdOf 0 = 5 ∧
      (step s (.recv 0)).isSome = true ∧
      (step s (.recv 0)).all (fun s₀ => s₀.taken 5 (bytes "bob") = false ∧
        s₀.todo (.handler 0) ≠ [] ∧
        (execAllIn step (Attends 0) s₀ (blocks (.handler 0) 4)).map
          (fun s₁ => s₁.todo (.handler 0)) = some []) = true)
    (by decide)
  obtain ⟨s₀, hs₀⟩ := Option.isSome_iff_exists.mp hk
  rw [hs₀, Option.all_some, decide_eq_true_eq] at hall
  obtain ⟨hfree, hne, hexec⟩ := hall
  obtain ⟨s₁, hp, hd⟩ := exists_pathIn_of_execAllIn hexec
  have hlen : (⟨bytes "/nick bob", none⟩ : ClientFrame).payload.length ≤
      LoadedConfig.default.1.maxMessageSize := by decide
  have hargs : (splitFirst (stripLine (bytes "/nick bob"))).2 = bytes "bob" := by decide
  have hacc : s₀.Accepts 5 (bytes "bob") (bytes "bob") :=
    ⟨by decide, by decide, fun h => by rw [taken_iff.mpr h] at hfree; cases hfree⟩
  obtain ⟨hruns, hhandled⟩ := nick_handled_iff hs hin hlen (by decide) hs₀
  obtain ⟨t, ht⟩ := Option.isSome_iff_exists.mp (hruns [] s₀ .refl hne {})
  obtain ⟨first, b, ch, b', later, hpast, hf, -, hiff⟩ := hhandled _ s₁ hp hd
  rw [hfd, hargs] at hiff
  rw [show blocks (.handler 0) 4 = .run (.handler 0) {} :: blocks (.handler 0) 3 from
    rfl, trace, ht] at hpast
  -- the first step of the path is one of the thread, so it is the one that decides
  cases first with
  | nil =>
    obtain rfl : s₀ = b := congrArg Prod.fst (List.cons.inj hpast).1
    exact ⟨s, s₀, _, s₁, s₀, b', later, hs, hin, hs₀, hp, hiff.mpr (.inl ⟨_, hacc⟩), hacc⟩
  | cons e first =>
    obtain rfl : (s₀, Action.run (.handler 0) {}) = e := (List.cons.inj hpast).1
    exact absurd rfl (hf _ List.mem_cons_self {})

set_option maxRecDepth 16000 in
/-- **A refusal that is not told.** The nickname has a character that is not allowed, the limit is
64 bytes, the thread runs undisturbed, and the socket takes what it is given: the client gets
nothing, whatever block decides. -/
theorem refusal_is_not_told :
    ∃ s s₀ past s₁, Run step (init smallConfig) s ∧ s.inbox 0 = [⟨bytes "/nick a!", none⟩] ∧
    (bytes "/nick a!").length ≤ smallConfig.1.maxMessageSize ∧ step s (.recv 0) = some s₀ ∧
    PathIn step (Attends 0) s₀ past s₁ ∧ s₁.todo (.handler 0) = [] ∧ (∀ e ∈ past, Takes 0 e) ∧
    writtenBy (.handler 0) past 0 = [] ∧ ∀ b b' later, ¬ NickHandled 0 (s.fdOf 0)
      (bytes "a!") b b' past later := by
  obtain ⟨s, hs, hin, hk, hall⟩ :=
    exists_run_of_any step (init smallConfig) (lineArrives (bytes "/nick a!"))
    (fun s => s.inbox 0 = [⟨bytes "/nick a!", none⟩] ∧ (step s (.recv 0)).isSome = true ∧
      (step s (.recv 0)).all (fun s₀ =>
        (execAllIn step (Attends 0) s₀ (blocks (.handler 0) 2)).map
          (fun s₁ => s₁.todo (.handler 0)) = some [] ∧
        writtenBy (.handler 0) (trace step s₀ (blocks (.handler 0) 2)) 0 = [] ∧
        ∀ e ∈ trace step s₀ (blocks (.handler 0) 2), e.1.broken 0 = false ∧
          e.2 = .run (.handler 0) {}) = true)
    (by decide)
  obtain ⟨s₀, hs₀⟩ := Option.isSome_iff_exists.mp hk
  rw [hs₀, Option.all_some, decide_eq_true_eq] at hall
  obtain ⟨hexec, hw, hsteps⟩ := hall
  obtain ⟨s₁, hp, hd⟩ := exists_pathIn_of_execAllIn hexec
  refine ⟨s, s₀, _, s₁, hs, hin, by decide, hs₀, hp, hd, ?_, hw, ?_⟩
  · intro e he ch fd f rest hrun _
    obtain ⟨hbroken, hact⟩ := hsteps e he
    rw [hact] at hrun
    obtain ⟨-, rfl⟩ := Action.run.inj hrun
    exact ⟨rfl, hbroken⟩
  · intro b b' later hn
    have href : b.Refusal (s.fdOf 0) (bytes "a!") _ _ :=
      .invalid (w := bytes "a!") (by decide) (by decide)
    obtain ⟨text, ht⟩ := (hn.refused _ _ href).once
    rw [hw] at ht
    cases ht

end Server

end ThreadLink.Backend
