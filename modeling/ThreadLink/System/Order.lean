import ThreadLink.Backend.Order
import ThreadLink.System.Attribution

/-!
# The order of messages

A message of a session crosses its backend connection, the thread of the chat server that
serves it, and the backend connection of whoever it is for. Each keeps the order of what it is
given. The numbers of the requests say in which order the messages were sent.

## What is proved

* `Ordered` — whatever the schedule, what is on the way from one backend connection to another,
  and what has arrived, is in the order of the requests, each at most once.
* `in_order` — so the messages of a session arrive at the browser of another in the order in
  which they were sent, if each of the two has opened one backend connection.
-/

namespace ThreadLink.System

open Text Runs Backend Gateway

namespace Network

variable {s s' t u : Network} {a : Action} {b : BackendId} {c k : ConnId} {f : Frame} {fd : Fd}
  {A B : WsId}
  {past : List (Network × Action)}

/-! ### On the way -/

/-- The numbers of the lines of a backend connection that have not arrived. -/
def waiting (s : Network) (b : BackendId) : List ℕ :=
  ((s.gateway.outbox b).drop (s.transmitted b)).filterMap Line.serial

/-- What of a backend connection is on the way to connection `k` of the chat server, or has
arrived there. -/
def transit (s : Network) (b : BackendId) (k : ConnId) (fd : Fd) : List ℕ :=
  (s.conn b).elim [] (fun c => s.server.passage c k fd) ++ s.waiting b

/-- **What is on the way is in order.** -/
structure Ordered (s : Network) : Prop where
  /-- The numbers increase. -/
  sorted : ∀ b k fd, s.server.At k fd → (s.transit b k fd).Pairwise (· < ·)
  /-- They are those of requests. -/
  made : ∀ b k fd, s.server.At k fd → ∀ n ∈ s.transit b k fd, n < s.gateway.requests.length

theorem ordered_init (env : Env) (gateway : GatewayConfig) (server : LoadedConfig) :
    Ordered (init env gateway server) :=
  ⟨fun _ _ _ _ => List.Pairwise.nil, fun _ _ _ _ _ h => absurd h List.not_mem_nil⟩

/-- What loses some of it keeps the order. -/
theorem Ordered.sublist (h : Ordered s)
    (hr : s.gateway.requests.length ≤ s'.gateway.requests.length)
    (hs : ∀ b k fd, s'.server.At k fd → s.server.At k fd ∧
      (s'.transit b k fd).Sublist (s.transit b k fd)) :
    Ordered s' where
  sorted b k fd hat := (h.sorted b k fd (hs b k fd hat).1).sublist (hs b k fd hat).2
  made b k fd hat n hn :=
    (h.made b k fd (hs b k fd hat).1 n ((hs b k fd hat).2.subset hn)).trans_le hr

/-- The lines of new requests come after all others. -/
theorem Ordered.handled (h : Ordered s) {e : GatewayServer.Event} {g : GatewayServer}
    (hg : s.gateway.step e = some g) : Ordered (s.handled g) := by
  have hsplit (b : BackendId) : ∃ new, ((s.handled g).waiting b).Sublist (s.waiting b ++ new) ∧
    new.Pairwise (· < ·) ∧
      ∀ n ∈ new, s.gateway.requests.length ≤ n ∧ n < g.requests.length := by
    obtain ⟨-, new, ho, hN⟩ := GatewayServer.step_numbers hg b
    refine ⟨new.filterMap Line.serial, ?_, hN.sorted, fun n hn => ⟨hN.lower n hn, hN.upper n hn⟩⟩
    show ((g.outbox b).drop (s.transmitted b)).filterMap Line.serial |>.Sublist _
    rw [ho, List.drop_append, List.filterMap_append]
    exact (List.Sublist.refl _).append ((List.drop_sublist ..).filterMap _)
  have htransit (b : BackendId) (k : ConnId) (fd : Fd) :
      (s.handled g).transit b k fd = (s.conn b).elim [] (fun c => s.server.passage c k fd) ++
      (s.handled g).waiting b := rfl
  have hle := (GatewayServer.step_numbers hg 0).1
  constructor
  · intro b k fd hat
    obtain ⟨new, hsub, hsorted, hnew⟩ := hsplit b
    apply List.Pairwise.sublist (htransit b k fd ▸ (List.Sublist.refl _).append hsub)
    rw [← List.append_assoc]
    refine List.pairwise_append.mpr ⟨h.sorted b k fd hat, hsorted, ?_⟩
    intro i hi j hj
    exact (h.made b k fd hat i hi).trans_le (hnew j hj).1
  · intro b k fd hat n hn
    obtain ⟨new, hsub, -, hnew⟩ := hsplit b
    have hn := ((List.Sublist.refl _).append hsub).subset (htransit b k fd ▸ hn)
    rw [← List.append_assoc] at hn
    rcases List.mem_append.mp hn with hn | hn
    · exact (h.made b k fd hat n hn).trans_le hle
    · exact (hnew n hn).2

/-- What connections have sent, they have been accepted for. -/
theorem HasSent.lt_nextConn {g : ClientFrame} (h : s.HasSent c g) (hL : Linked s) :
    c < s.server.nextConn := by
  cases h with
  | foreign hc => exact hc
  | line hb => exact hL.accepted _ c hb

/-- A step of the chat server keeps the order of what is on the way; `l` is what arrives. -/
theorem passage_of_step (hS : Sound s) (hS' : Sound s') (hT : Traced s) {a' : Server.Action}
    (ha : s.server.step a' = some s'.server) (hat : s'.server.At k fd) :
    s.server.At k fd ∧
    (s'.server.passage c k fd).Sublist (s.server.passage c k fd ++ Server.arriving c a') :=
  ⟨hat.of_step hS.orderly.inv hS'.orderly.inv ha,
    Server.passage_step hS.orderly.inv hS'.orderly.inv hT.sourced ha hat⟩

/-- **Every step** keeps what is on the way in order. -/
theorem Ordered.step (h : Ordered s) (hS : Sound s) (hT : Traced s) (hs : s.step a = some s') :
    Ordered s' := by
  have hS' := hS.step hs
  have hsplit (b : BackendId) (k : ConnId) (fd : Fd) :
      s.transit b k fd = (s.conn b).elim [] (fun c => s.server.passage c k fd) ++ s.waiting b := rfl
  cases step_moves hs with
  | gateway _ hg => exact h.handled hg
  | oversized _ _ hg => exact h.handled hg
  | deliver _ _ hg => exact ⟨(h.handled hg).sorted, (h.handled hg).made⟩
  | @server a' t hf ha =>
    refine h.sublist le_rfl ?_
    intro b k fd hat
    refine ⟨(passage_of_step (c := 0) hS hS' hT ha hat).1, ?_⟩
    cases hb : s.conn b with
    | none => simp only [transit, hb]; exact List.Sublist.refl _
    | some c =>
      have harr : Server.arriving c a' = [] := by
        cases a' with
        | arrive c' f =>
          show (if c' = c then f.serial.toList else []) = []
          rw [hf.2.2]
          exact ite_self _
        | _ => rfl
      have hp := (passage_of_step (c := c) hS hS' hT ha hat).2
      rw [harr, List.append_nil] at hp
      simp only [transit, hb]
      exact hp.append (List.Sublist.refl _)
  | @accept b' ch t hb hn ht hfd ha =>
    refine h.sublist le_rfl ?_
    intro b k fd hat
    refine ⟨(passage_of_step (c := 0) hS hS' hT ha hat).1, ?_⟩
    have hp (c : ConnId) : (t.passage c k fd).Sublist (s.server.passage c k fd) := by
      have hp := (passage_of_step (c := c) hS hS' hT ha hat).2
      rwa [show Server.arriving c (.run .main ch) = [] from rfl, List.append_nil] at hp
    have hconn : ((Function.update s.conn b' (some s.server.nextConn) b).elim [] fun c =>
      t.passage c k fd).Sublist
        ((s.conn b).elim [] fun c => s.server.passage c k fd) := by
      by_cases hbb : b = b'
      · subst hbb
        have hnone := Server.passage_unborn hS.orderly.inv hT.sourced
          (fun c g hg => hg.lt_nextConn hS.linked) le_rfl k fd
        rw [Function.update_self, hn]
        exact hnone ▸ hp s.server.nextConn
      · rw [Function.update_of_ne hbb]
        cases s.conn b with
        | none => exact List.Sublist.refl _
        | some c => exact hp c
    exact hconn.append (List.Sublist.refl _)
  | @transmit b' c' line t hl ha =>
    refine h.sublist le_rfl ?_
    intro b k fd hat
    refine ⟨(passage_of_step (c := 0) hS hS' hT ha hat).1, ?_⟩
    obtain ⟨c₀, hc₀, hl'⟩ := Option.bind_eq_some_iff.mp hl
    obtain ⟨line₀, hline, he⟩ := Option.map_eq_some_iff.mp hl'
    obtain ⟨rfl, rfl⟩ := Prod.mk.inj he
    have hp (c : ConnId) := (passage_of_step (c := c) hS hS' hT ha hat).2
    by_cases hbb : b = b'
    · -- the line that arrives is the first that waits
      subst hbb
      obtain ⟨hlt, hget⟩ := List.getElem?_eq_some_iff.mp hline
      have hwait : s.waiting b =
          line₀.serial.toList ++ ((s.gateway.outbox b).drop (s.transmitted b + 1)).filterMap
            Line.serial := by
        unfold waiting
        rw [List.drop_eq_getElem_cons hlt, hget, ← List.singleton_append, List.filterMap_append,
          filterMap_one]
      have harr : Server.arriving c₀ (.arrive c₀ ⟨utf8Encode line₀.text, line₀.serial⟩) =
          line₀.serial.toList := if_pos rfl
      rw [hsplit, hwait, hc₀, ← List.append_assoc]
      simp only [transit, waiting, hc₀, Function.update_self]
      exact (harr ▸ hp c₀).append (List.Sublist.refl _)
    · simp only [transit, waiting, Function.update_of_ne hbb]
      refine List.Sublist.append ?_ (List.Sublist.refl _)
      cases hb : s.conn b with
      | none => exact List.Sublist.refl _
      | some c =>
        have hne : c₀ ≠ c := fun he => hbb (hS.linked.injective b b' c hb (he ▸ hc₀))
        have harr : Server.arriving c (.arrive c₀ ⟨utf8Encode line₀.text, line₀.serial⟩) = [] :=
          if_neg hne
        have hpc := hp c
        rwa [harr, List.append_nil] at hpc

/-! ### At the browsers -/

instance : DecidablePred ServerLine.IsMessage := fun line =>
  match line with
  | .msg _ _ | .priv _ _ | .privSent _ _ => isTrue trivial
  | .welcome _ | .sys _ | .nick _ _ | .list _ | .err _ _ => isFalse not_false

/-- The number of the request whose message a frame is. -/
def number (f : Frame) : Option ℕ := if f.line.IsMessage then f.serial else none

/-- An event that shows a message. -/
def isMessage (m : Sent) : Bool :=
  match m.message with
  | .message _ => true
  | _ => false

/-- The requests that are made in a step of the messages session `A` sends after it has been
announced; `peer` says to whom they are, if they are not public. -/
def made (A : WsId) (peer : Option WsId) (e : Network × Action) : List ℕ :=
  match e.2, e.1.step e.2 with
  | .gateway (.message w _ _), some s =>
    if w = A ∧ (e.1.gateway.sessions A).readyAnnounced = true then
      (List.range' e.1.gateway.requests.length
          (s.gateway.requests.length - e.1.gateway.requests.length)).filter fun n =>
        s.gateway.requests[n]?.any fun r => decide (r.sender = A ∧ r.peer = peer)
    else []
  | _, _ => []

/-- **What a session sends** after it has been announced, to everybody or to one peer. -/
def sendings (A : WsId) (peer : Option WsId) (past : List (Network × Action)) : List ℕ :=
  past.flatMap (made A peer)

/-- The numbers of the messages session `B` is sent in a step: those of the frame that is read,
once for each event that shows a message. -/
def arrived (B : WsId) (e : Network × Action) : List ℕ :=
  match e.2, e.1.step e.2 with
  | .deliver b, some s =>
    (e.1.nextFrame b).elim [] fun f =>
      ((s.gateway.sent B).drop (e.1.gateway.sent B).length).filterMap fun m =>
        if isMessage m then number f else none
  | _, _ => []

/-- **What arrives at the WebSocket of a session**, in the order in which it is sent there. -/
def arrivals (B : WsId) (past : List (Network × Action)) : List ℕ := past.flatMap (arrived B)

/-- A session has opened one backend connection at most. -/
def Single (s : Network) (w : WsId) : Prop :=
  ∀ b < s.gateway.nextBackend, ∀ b' < s.gateway.nextBackend,
    (s.gateway.backends b).owner = w → (s.gateway.backends b').owner = w → b = b'

instance (s : Network) (w : WsId) : Decidable (s.Single w) :=
  inferInstanceAs (Decidable (∀ b < _, ∀ b' < _, _ → _ → _))

/-- Backend connection `b` is the only one of a session. -/
def Only (s : Network) (w : WsId) (b : BackendId) : Prop :=
  ∀ b' < s.gateway.nextBackend, (s.gateway.backends b').owner = w → b' = b

/-- A backend connection stays its owner's. -/
theorem owner_of_step (hs : s.step a = some s') (hb : b < s.gateway.nextBackend) :
    b < s'.gateway.nextBackend ∧ (s'.gateway.backends b).owner = (s.gateway.backends b).owner := by
  rcases (step_moves hs).gateway_step with he | ⟨e, -, hg⟩
  · rw [he]
    exact ⟨hb, rfl⟩
  · exact GatewayServer.owner_step hg hb

theorem Only.of_step {w : WsId} (h : s'.Only w b) (hs : s.step a = some s') : s.Only w b := by
  intro b' hb' how
  obtain ⟨hlt, ho⟩ := owner_of_step hs hb'
  exact h b' hlt (ho.trans how)

theorem getElem?_of_prefix {l l' : List Request} (h : l <+: l') {n : ℕ} {r : Request}
    (hr : l[n]? = some r) : l'[n]? = some r := by
  obtain ⟨new, rfl⟩ := h
  rw [List.getElem?_append_left (List.getElem?_eq_some_iff.mp hr).1, hr]

/-- What is made in a step are the numbers of new requests, in order. -/
theorem mem_made {peer : Option WsId} {n : ℕ} (hs : s.step a = some s')
    (hn : n ∈ made A peer (s, a)) :
    s.gateway.requests.length ≤ n ∧ ∃ r, s'.gateway.requests[n]? = some r ∧ r.sender = A ∧
      r.peer = peer := by
  unfold made at hn
  rw [hs] at hn
  split at hn
  · rename_i he
    obtain rfl := Option.some.inj he
    split at hn
    · obtain ⟨hr, hp⟩ := List.mem_filter.mp hn
      obtain ⟨r, hr', hp⟩ := (Option.any_eq_true ..).mp hp
      exact ⟨(List.mem_range'_1.mp hr).1, r, hr', of_decide_eq_true hp⟩
    · exact absurd hn List.not_mem_nil
  · exact absurd hn List.not_mem_nil

theorem made_sorted (peer : Option WsId) (e : Network × Action) :
    (made A peer e).Pairwise (· < ·) := by
  unfold made
  split
  · split
    · exact List.Pairwise.filter _ (@List.pairwise_lt_range' _ _ 1 Nat.one_pos)
    · exact List.Pairwise.nil
  · exact List.Pairwise.nil

/-- **What a session sends is numbered in order.** -/
theorem sendings_sorted {C : Network → Action → Prop} (h : PathIn step C s past t) (A : WsId)
    (peer : Option WsId) :
    (sendings A peer past).Pairwise (· < ·) ∧
      ∀ n ∈ sendings A peer past, ∃ r, t.gateway.requests[n]? = some r ∧ r.sender = A ∧
        r.peer = peer := by
  induction h with
  | refl => exact ⟨List.Pairwise.nil, fun _ h => absurd h List.not_mem_nil⟩
  | @tail past t u a h hc hs ih =>
    have he : sendings A peer (past ++ [(t, a)]) = sendings A peer past ++ made A peer (t, a) := by
      unfold sendings
      rw [List.flatMap_append, List.flatMap_singleton]
    rw [he]
    refine ⟨List.pairwise_append.mpr ⟨ih.1, made_sorted .., ?_⟩, ?_⟩
    · intro i hi j hj
      obtain ⟨r, hr, -⟩ := ih.2 i hi
      exact (List.getElem?_eq_some_iff.mp hr).1.trans_le (mem_made hs hj).1
    · intro n hn
      rcases List.mem_append.mp hn with hn | hn
      · obtain ⟨r, hr, hp⟩ := ih.2 n hn
        exact ⟨r, getElem?_of_prefix (requests_step hs) hr, hp⟩
      · exact (mem_made hs hn).2

/-- The numbers of the messages the gateway has read of a backend connection. -/
def numbers (s : Network) (b : BackendId) : List ℕ := (s.heard b).filterMap number

/-- What is read of a frame is an event that says a message only if the frame is one. -/
theorem filterMap_isMessage {l : List Sent} {o : Option ℕ} (hl : l.length ≤ 1) :
    (l.filterMap fun m => if isMessage m then o else none).Sublist o.toList := by
  match l, hl with
  | [], _ => exact List.nil_sublist _
  | [m], _ =>
    rw [filterMap_one]
    split
    · exact List.Sublist.refl _
    · exact List.nil_sublist _

/-- **In one step** a session is sent the message of the frame that is read, once at most, and
only if the frame comes of a backend connection of its own. -/
theorem arrived_step (hS : Sound s) (hs : s.step a = some s') (B : WsId) :
    arrived B (s, a) = [] ∨ ∃ b f, a = .deliver b ∧ b < s.gateway.nextBackend ∧
      (s.gateway.backends b).owner = B ∧
      s'.heard b = s.heard b ++ [f] ∧ (arrived B (s, a)).Sublist (number f).toList := by
  have hdeliver {b : BackendId} {f : Frame} {extra : List Sent} (ha : a = .deliver b)
    (hf : s.nextFrame b = some f)
      (he : s'.gateway.sent B = s.gateway.sent B ++ extra) :
      arrived B (s, a) = extra.filterMap fun m => if isMessage m then number f else none := by
    subst ha
    unfold arrived
    simp only [hs, hf, Option.elim_some, he, List.drop_left]
  cases step_moves hs with
  | gateway | server | accept | transmit => exact .inl rfl
  | oversized hf _ hg =>
    refine .inl (@hdeliver _ _ [] rfl hf ?_)
    rw [List.append_nil]
    exact GatewayServer.sent_of_oversized hg B
  | @deliver b f g hf _ hg =>
    cases hb : s.conn b with
    | none =>
      have hmem := mem_frames hf
      rw [frames_of_none hb] at hmem
      exact absurd hmem List.not_mem_nil
    | some k =>
      by_cases hm : f.line.IsMessage
      · have hparse : parseBackendLine (utf8Decode f.line.payload) = event f.line :=
          parse_payload
            (legible_of_written hS.sourced hS.orderly.spoken (frames_of_conn hb ▸ mem_frames hf))
            fun ns hl => by rw [hl] at hm; exact hm
        have hmp : (parseBackendLine (utf8Decode f.line.payload)).IsMessage :=
          hparse ▸ isMessage_event hm
        obtain ⟨extra, he, hlen⟩ := GatewayServer.sent_once_of_step hg hmp B
        rw [hdeliver rfl hf he]
        by_cases ho : (s.gateway.backends b).owner = B
        · refine .inr ⟨b, f, rfl, hS.linked.created b k hb, ho, ?_, filterMap_isMessage hlen⟩
          rw [← heard_concat hf]
          show (s.frames b).take (Function.update s.read b (s.read b + 1) b) = _
          rw [Function.update_self]
        · -- no other session is sent it
          left
          obtain ⟨extra', he', hx⟩ := GatewayServer.relayed_of_step hg hmp B
          obtain rfl := List.append_cancel_left (he.symm.trans he')
          refine List.filterMap_eq_nil_iff.mpr fun m hmem => if_neg ?_
          intro hms
          unfold isMessage at hms
          split at hms
          · exact ho (hx m hmem _ ‹_›).1.symm
          · cases hms
      · -- what is no message has no number
        obtain ⟨extra, he, -⟩ := GatewayServer.message_of_step hg B
        left
        rw [hdeliver rfl hf he]
        apply List.filterMap_eq_nil_iff.mpr
        intro m _
        rw [number, if_neg hm]
        exact ite_self _

/-- **What arrives at a session** is what the gateway has read of its backend connection, in that
order. -/
theorem arrivals_sublist {C : Network → Action → Prop} {env : Env} {gateway : GatewayConfig}
    {server : LoadedConfig} (h : PathIn step C (init env gateway server) past t) (ho : t.Only B b) :
    (arrivals B past).Sublist (t.numbers b) := by
  refine (h.invariant (I := fun past s => Sound s ∧
    (s.Only B b → (arrivals B past).Sublist (s.numbers b)))
    ⟨sound_init .., fun _ => List.nil_sublist _⟩ ?_).2 ho
  rintro past s a s' ⟨hS, ih⟩ - hs
  refine ⟨hS.step hs, ?_⟩
  intro ho
  have hos := ho.of_step hs
  have he : arrivals B (past ++ [(s, a)]) = arrivals B past ++ arrived B (s, a) := by
    unfold arrivals
    rw [List.flatMap_append, List.flatMap_singleton]
  rw [he]
  rcases arrived_step hS hs B with hn | ⟨b', f, -, hlt, how, hh, hsub⟩
  · rw [hn, List.append_nil]
    apply (ih hos).trans
    unfold numbers
    rcases heard_step hS.linked hs b with hh | ⟨f, -, -, hh⟩
    · rw [hh]
    · rw [hh, List.filterMap_append]
      exact List.sublist_append_left ..
  · obtain rfl := hos b' hlt how
    have hnum : s'.numbers b' = s.numbers b' ++ (number f).toList := by
      rw [numbers, hh, List.filterMap_append, filterMap_one]
      rfl
    exact hnum ▸ (ih hos).append hsub

/-! ### In every run -/

/-- A message a client is sent is from its author, or confirms one of its own. -/
theorem Traced.author (h : Traced s) (hf : f ∈ s.server.written k) (hm : f.line.IsMessage) :
    f.author = senderOf k f ∨ senderOf k f = some k := by
  rcases h.sourced.written k f hf with hp | hn | ⟨c, hq, hd⟩
  · exact absurd hp hm.not_plain
  · exact absurd hn hm.not_names
  · unfold Frame.Quotes at hq
    unfold Frame.author senderOf
    cases hl : f.line with
    | msg =>
      simp only [hl] at hq
      obtain ⟨-, ⟨taken, hc⟩, -⟩ := hq
      exact .inl (by simp only [hc])
    | priv =>
      simp only [hl] at hq
      obtain ⟨-, ⟨holder, hc⟩, -⟩ := hq
      exact .inl (by simp only [hc])
    | privSent =>
      simp only [hl] at hq
      obtain ⟨-, hc, -⟩ := hq
      exact .inr (by simp only [hc])
    | _ => simp only [hl] at hq

/-- **The message of a request of another session** has passed from a backend connection of that
session. -/
theorem passes_of_number {n : ℕ} {r : Request} (hL : Linked s) (hT : Traced s)
    (hb : s.conn b = some k) (hf : f ∈ s.server.written k) (hn : number f = some n)
    (hr : s.gateway.requests[n]? = some r) (ho : (s.gateway.backends b).owner ≠ r.sender) :
    ∃ a c, s.conn a = some c ∧ (s.gateway.backends a).owner = r.sender ∧ f.passes c = some n := by
  unfold number at hn
  split at hn
  · rename_i hm
    obtain ⟨c, hc, horigin⟩ := hT.origin hf hm
    rw [hn] at horigin
    cases horigin with
    | @request _ a r' ha hr' how =>
      obtain rfl := Option.some.inj (hr.symm.trans hr')
      refine ⟨a, c, ha, how.symm, ?_⟩
      rcases hT.author hf hm with he | he
      · rw [Frame.passes, if_pos (he.trans hc), hn]
      · -- it would be its own
        obtain rfl := Option.some.inj (hc.symm.trans he)
        obtain rfl := hL.injective a b c ha hb
        exact absurd how.symm ho
  · cases hn

/-- What two functions give of the same is the same where it matters. -/
theorem filter_filterMap_sublist {α : Type} {g g' : α → Option ℕ} {p : ℕ → Bool} {l : List α}
    (h : ∀ x ∈ l, ∀ n, g x = some n → p n = true → g' x = some n) :
    ((l.filterMap g).filter p).Sublist (l.filterMap g') := by
  induction l with
  | nil => exact List.nil_sublist _
  | cons x l ih =>
    have hrest := ih fun y hy => h y (List.mem_cons_of_mem x hy)
    rw [← List.singleton_append, List.filterMap_append, List.filterMap_append, List.filter_append,
      filterMap_one, filterMap_one]
    refine List.Sublist.append ?_ hrest
    cases hx : g x with
    | none => exact List.nil_sublist _
    | some n =>
      by_cases hp : p n = true
      · rw [h x (.head _) n hx hp]
        exact List.filter_sublist
      · rw [Option.toList_some, List.filter_cons_of_neg hp]
        exact List.nil_sublist _

/-- What the gateway has read for a session of what another has sent is in order. -/
theorem numbers_sorted {p : ℕ → Bool} (hL : Linked s) (hT : Traced s) (hO : Ordered s)
    (hA : s.Single A) (ho : (s.gateway.backends b).owner ≠ A)
    (hp : ∀ n, p n = true → ∃ r, s.gateway.requests[n]? = some r ∧ r.sender = A) :
    ((s.numbers b).filter p).Pairwise (· < ·) := by
  cases hb : s.conn b with
  | none =>
    rw [numbers, heard, frames_of_none hb, List.take_nil]
    exact List.Pairwise.nil
  | some k =>
    have hmem {f : Frame} (hf : f ∈ s.heard b) : f ∈ s.server.written k :=
      frames_of_conn hb ▸ List.mem_of_mem_take hf
    by_cases hc : ∃ a c, s.conn a = some c ∧ (s.gateway.backends a).owner = A
    · obtain ⟨a, c, ha, how⟩ := hc
      have hsub : ((s.numbers b).filter p).Sublist ((s.heard b).filterMap (Frame.passes c)) := by
        apply filter_filterMap_sublist
        intro f hf n hn hpn
        obtain ⟨r, hr, rfl⟩ := hp n hpn
        obtain ⟨a', c', ha', how', hpass⟩ := passes_of_number hL hT hb (hmem hf) hn hr ho
        obtain rfl := hA a' (hL.created a' c' ha') a (hL.created a c ha) how' how
        obtain rfl := Option.some.inj (ha.symm.trans ha')
        exact hpass
      have hpassed :
          ((s.heard b).filterMap (Frame.passes c)).Sublist (s.transit a k (s.server.fdOf k)) := by
        have hw : (s.heard b).Sublist (s.server.written k) :=
          frames_of_conn hb ▸ List.take_sublist ..
        simp only [transit, ha, Option.elim_some, Server.passage]
        exact ((hw.filterMap _).trans (List.sublist_append_left ..)).trans
          ((List.sublist_append_left ..).trans (List.sublist_append_left ..))
      exact (hO.sorted a k _ fun _ => rfl).sublist (hsub.trans hpassed)
    · have hnil : (s.numbers b).filter p = [] := by
        apply List.filter_eq_nil_iff.mpr
        intro n hn hpn
        obtain ⟨f, hf, hn⟩ := List.mem_filterMap.mp hn
        obtain ⟨r, hr, rfl⟩ := hp n hpn
        obtain ⟨a, c, ha, how, -⟩ := passes_of_number hL hT hb (hmem hf) hn hr ho
        exact hc ⟨a, c, ha, how⟩
      rw [hnil]
      exact List.Pairwise.nil

/-- What holds of the network in every run. -/
theorem ordered_of_path {C : Network → Action → Prop} {env : Env} {gateway : GatewayConfig}
    {server : LoadedConfig} (h : PathIn step C (init env gateway server) past t) :
    Sound t ∧ Traced t ∧ Ordered t :=
  h.runIn.invariant (I := fun s => Sound s ∧ Traced s ∧ Ordered s)
    ⟨sound_init .., traced_init .., ordered_init ..⟩
    fun _ _ _ ⟨hS, hT, hO⟩ _ hs => ⟨hS.step hs, hT.step hS hs, hO.step hS hT hs⟩

/-- **Messages arrive in the order in which they were sent**, each at most once, whatever the
schedule: those a session has sent to everybody, and those it has sent to any one peer. -/
theorem in_order {env : Env} {gateway : GatewayConfig} {server : LoadedConfig}
    (h : Path step (init env gateway server) past t) (hne : A ≠ B) (hA : t.Single A)
    (hB : t.Single B) (peer : Option WsId) :
    (sendings A peer past).Pairwise (· < ·) ∧
      ((arrivals B past).filter fun n => decide (n ∈ sendings A peer past)).Sublist
        (sendings A peer past) := by
  obtain ⟨hS, hT, hO⟩ := ordered_of_path h
  obtain ⟨hsorted, hsent⟩ := sendings_sorted h A peer
  have hp : ∀ n, decide (n ∈ sendings A peer past) = true → ∃ r, t.gateway.requests[n]? = some r ∧
      r.sender = A := by
    intro n hn
    obtain ⟨r, hr, ha, -⟩ := hsent n (of_decide_eq_true hn)
    exact ⟨r, hr, ha⟩
  refine ⟨hsorted, ?_⟩
  have harr : ((arrivals B past).filter fun n => decide (n ∈ sendings A peer past)).Pairwise
      (· < ·) := by
    by_cases hb : ∃ b < t.gateway.nextBackend, (t.gateway.backends b).owner = B
    · obtain ⟨b, hlt, how⟩ := hb
      refine List.Pairwise.sublist ?_
        (numbers_sorted hS.linked hT hO hA (b := b) (how ▸ hne.symm) hp)
      exact (arrivals_sublist h fun b' hlt' how' => hB b' hlt' b hlt how' how).filter _
    · -- nothing arrives at a session without a backend connection
      have hconn : t.conn t.gateway.nextBackend = none :=
        Option.eq_none_iff_forall_not_mem.mpr fun c hc =>
        absurd (hS.linked.created _ c hc) (lt_irrefl _)
      have hnil : t.numbers t.gateway.nextBackend = [] := by
        rw [numbers, heard, frames_of_none hconn, List.take_nil]
        rfl
      have hsub := arrivals_sublist (b := t.gateway.nextBackend) (B := B) h fun b' hlt how =>
        absurd ⟨b', hlt, how⟩ hb
      rw [hnil] at hsub
      rw [List.sublist_nil.mp hsub]
      exact List.Pairwise.nil
  refine List.sublist_of_subperm_of_pairwise (List.subperm_of_subset harr.nodup ?_) harr hsorted
  intro n hn
  exact of_decide_eq_true (List.mem_filter.mp hn).2

/-- The first of two sessions says two things to everybody, then one to the second. -/
def threeMessages : List Action :=
  twoReady ++ sends 0 (GatewayServer.publicMessage "hi") 3 ++
  sends 0 (GatewayServer.publicMessage "ho") 3 ++
    sends 0 (GatewayServer.directMessage [6] "psst") 5 ++ [.deliver 1, .deliver 1, .deliver 1]

set_option maxRecDepth 16000 in
theorem three_in_order : ∃ past, arrivals 1 past = [0, 1, 2] ∧
    (((arrivals 1 past).filter fun n => decide (n ∈ sendings 0 none past)).Sublist
      (sendings 0 none past) ∧
      sendings 0 none past = [0, 1]) ∧
    ((arrivals 1 past).filter fun n => decide (n ∈ sendings 0 (some 1) past)).Sublist
      (sendings 0 (some 1) past) ∧
      sendings 0 (some 1) past = [2] := by
  obtain ⟨t, hp, ht⟩ := @exists_pathIn_of_execAllIn Network Action step (fun _ _ => True) _ _
    (fun t => (decide (t.Single 0), decide (t.Single 1))) threeMessages (init .sample {} .default)
      (true, true) (by decide)
  obtain ⟨h0, h1⟩ := Prod.mk.inj ht
  refine ⟨_, ?_,
    ⟨(in_order hp (A := 0) (B := 1) (by decide) (of_decide_eq_true h0) (of_decide_eq_true h1)
      none).2, ?_⟩,
    (in_order hp (A := 0) (B := 1) (by decide) (of_decide_eq_true h0) (of_decide_eq_true h1)
      (some 1)).2, ?_⟩
  all_goals decide

end Network

end ThreadLink.System
