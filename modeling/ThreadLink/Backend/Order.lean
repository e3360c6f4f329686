import ThreadLink.Backend.Relay
import ThreadLink.Backend.Sources

/-!
# The order of what is passed on

What a client says to everybody, or to another client, goes through its inbox, through the
blocks of its handler thread and into the connections it is written to. This module follows
the numbers of its frames on that way.

## What is proved

* `exec_passes` — a block passes on to a client what it has been given, once at most.
* `passage_step` — whatever thread makes a step, what is on the way from one client to another
  keeps its order, and only the frame that arrives comes after it.
-/

namespace ThreadLink.Backend

open Text Runs

/-- The connection whose client a message is from. -/
def Frame.author (f : Frame) : Option ConnId :=
  match f.line with
  | .msg _ _ | .priv _ _ =>
    match f.cause with
    | .broadcast about _ => about
    | .priv sender _ => sender
    | .direct => none
  | _ => none

/-- The number of what a message passes on from connection `c`. -/
def Frame.passes (c : ConnId) (f : Frame) : Option ℕ := if f.author = some c then f.serial else none

/-- The number of what a block of the thread of `c` is to pass on to descriptor `fd`. -/
def Op.passes (c : ConnId) (fd : Fd) : Op → Option ℕ
  | .sendToFd fd' f | .sendFrame fd' f => if fd' = fd then f.passes c else none
  | .broadcast line _ about serial => Frame.passes c ⟨line, .broadcast about 0, serial⟩
  | .handleChat _ _ serial | .handleMsg _ _ _ serial => serial
  | _ => none

variable {c : ConnId} {fd fd₀ : Fd} {f : Frame}

theorem Frame.passes_of_author (h : f.author ≠ some c) : f.passes c = none := if_neg h

/-- Only a message has an author. -/
theorem Frame.author_of_not_message (h : ¬ f.line.IsMessage) : f.author = none := by
  unfold Frame.author
  split
  · exact absurd (by simp [*, ServerLine.IsMessage]) h
  · exact absurd (by simp [*, ServerLine.IsMessage]) h
  · rfl

theorem ServerLine.Plain.not_message {line : ServerLine} (h : line.Plain) : ¬ line.IsMessage :=
  fun hm => hm.not_plain h

theorem ServerLine.Names.not_message {line : ServerLine} (h : line.Names) : ¬ line.IsMessage :=
  fun hm => hm.not_names h

/-- A block that neither says a message nor handles what its client has said passes nothing on. -/
theorem Op.passes_of_not_message {op : Op} (h : ∀ line ∈ op.line, ¬ line.IsMessage)
    (hh : ¬ op.Handles) : op.passes c fd = none := by
  have hf {f : Frame} (hl : ¬ f.line.IsMessage) : f.passes c = none :=
    Frame.passes_of_author
      (by rw [Frame.author_of_not_message hl]; exact (Option.some_ne_none c).symm)
  cases op with
  | sendToFd fd' f | sendFrame fd' f =>
    show (if fd' = fd then f.passes c else none) = none
    rw [hf (h f.line rfl), ite_self]
  | broadcast line => exact hf (h line rfl)
  | handleChat | handleMsg => exact absurd trivial hh
  | _ => rfl

/-- What quotes a client passes on nothing of another. -/
theorem Frame.Quotes.passes_of_ne {Q : ConnId → ClientFrame → Prop} {c' : ConnId}
    (h : f.Quotes Q c') (hne : c' ≠ c) : f.passes c = none := by
  apply Frame.passes_of_author
  unfold Frame.Quotes at h
  unfold Frame.author
  cases hl : f.line with
  | msg =>
    simp only [hl] at h
    obtain ⟨-, ⟨_, hc⟩, -⟩ := h
    simpa [hc] using hne
  | priv =>
    simp only [hl] at h
    obtain ⟨-, ⟨_, hc⟩, -⟩ := h
    simpa [hc] using hne
  | _ => exact (Option.some_ne_none c).symm

/-- What quotes a client quotes what it has sent. -/
theorem Frame.Quotes.exists_sent {Q : ConnId → ClientFrame → Prop} (h : f.Quotes Q c) :
    ∃ g, Q c g := by
  unfold Frame.Quotes at h
  cases hl : f.line with
  | msg =>
    simp only [hl] at h
    obtain ⟨-, -, g, hg, -⟩ := h
    exact ⟨g, hg⟩
  | priv =>
    simp only [hl] at h
    obtain ⟨-, -, g, -, hg, -⟩ := h
    exact ⟨g, hg⟩
  | privSent =>
    simp only [hl] at h
    obtain ⟨-, -, g, hg, -⟩ := h
    exact ⟨g, hg⟩
  | _ =>
    simp only [hl] at h

/-- What is quoted from nobody, or from another client, passes on nothing of this one. -/
theorem Frame.passes_of_ne {Q : ConnId → ClientFrame → Prop}
    (h : f.line.Plain ∨ f.line.Names ∨ ∃ c', c' ≠ c ∧ f.Quotes Q c') : f.passes c = none := by
  have hnone (hl : ¬ f.line.IsMessage) : f.passes c = none :=
    Frame.passes_of_author
      (by rw [Frame.author_of_not_message hl]; exact (Option.some_ne_none c).symm)
  rcases h with hp | hn | ⟨c', hne, hq⟩
  · exact hnone hp.not_message
  · exact hnone hn.not_message
  · exact hq.passes_of_ne hne

/-- What another thread says is not this client's. -/
theorem Frame.Sourced.passes_of_ne {Q : ConnId → ClientFrame → Prop} {t : Tid} (h : f.Sourced Q t)
    (ht : t ≠ .handler c) : f.passes c = none :=
  Frame.passes_of_ne (h.imp id (Or.imp id fun ⟨c', hc', hq⟩ => ⟨c', fun he => ht (he ▸ hc'), hq⟩))

theorem filterMap_one {α β : Type} (g : α → Option β) (x : α) : [x].filterMap g = (g x).toList := by
  cases hx : g x with
  | none => rw [List.filterMap_cons_none hx, List.filterMap_nil]; rfl
  | some y => rw [List.filterMap_cons_some hx, List.filterMap_nil]; rfl

/-- What a frame of the client makes its thread do passes the frame on, once at most. -/
theorem handleFrame_passes (cfg : Config) (f : ClientFrame) :
    ((handleFrame cfg fd₀ f).filterMap (Op.passes c fd)).Sublist f.serial.toList := by
  have hnone {l : List Op} (h : ∀ op ∈ l, op.passes c fd = none) :
      (l.filterMap (Op.passes c fd)).Sublist f.serial.toList := by
    rw [List.filterMap_eq_nil_iff.mpr h]
    exact List.nil_sublist _
  have herr (code text : Bytes) : (sendError fd₀ code text).passes c fd = none := by
    show (if fd₀ = fd then none else none) = none
    exact ite_self _
  have hleave : ∀ op ∈ teardown fd₀, op.passes c fd = none := by
    intro op hop
    simp only [teardown, List.mem_cons, List.not_mem_nil, or_false] at hop
    rcases hop with rfl | rfl | rfl <;> rfl
  unfold handleFrame
  split_ifs
  · exact hnone (List.forall_mem_cons.mpr ⟨herr .., hleave⟩)
  · simp only [handleLine]
    split_ifs
    · exact List.nil_sublist _
    · unfold handleNick
      split
      · exact hnone (Server.forall_mem_singleton (herr ..))
      · exact hnone (Server.forall_mem_singleton (herr ..))
      · split_ifs
        · exact hnone (Server.forall_mem_singleton rfl)
        · exact hnone (Server.forall_mem_singleton (herr ..))
    · unfold handleMsg
      simp only
      split_ifs
      · exact hnone (Server.forall_mem_singleton (herr ..))
      · rw [filterMap_one]
        exact List.Sublist.refl _
    · exact hnone (Server.forall_mem_singleton rfl)
    · exact hnone hleave
    · exact hnone (Server.forall_mem_singleton (herr ..))
    · rw [filterMap_one]
      exact List.Sublist.refl _

/-- What is given to everybody once is given to one of them once at most. -/
theorem filterMap_ite_sublist {l : List Fd} (h : l.Nodup) (o : Option ℕ) :
    (l.filterMap fun fd' => if fd' = fd then o else none).Sublist o.toList := by
  induction l with
  | nil => exact List.nil_sublist _
  | cons fd' l ih =>
    obtain ⟨hnot, hl⟩ := List.nodup_cons.mp h
    by_cases hfd : fd' = fd
    · subst hfd
      have hrest : (l.filterMap fun x => if x = fd' then o else none) = [] :=
        by
        refine List.filterMap_eq_nil_iff.mpr fun x hx => if_neg ?_
        rintro rfl
        exact hnot hx
      rw [← List.singleton_append, List.filterMap_append, filterMap_one, hrest, List.append_nil,
        if_pos rfl]
    · rw [List.filterMap_cons, if_neg hfd]
      exact ih hl

namespace Server

variable {Q : ConnId → ClientFrame → Prop} {s s' : Server} {t : Tid} {ch : Choice} {op : Op}
  {new rest : List Op}
  {a : Action} {k : ConnId}

/-- **A block passes on what it has been given**, once at most. -/
theorem exec_passes (h : s.exec (.handler c) ch op = some (s', new)) :
    (new.filterMap (Op.passes c fd)).Sublist (op.passes c fd).toList := by
  cases exec_done h with
  | unsaid | unsent | frame => exact List.nil_sublist _
  | @said fd' text serial =>
    rw [filterMap_one]
    show (if some c = some c then serial else none).toList.Sublist _
    rw [if_pos rfl]
    exact List.Sublist.refl _
  | @routed fd' target text serial =>
    have herr (code text : Bytes) : ((sendError fd' code text).passes c fd) = none := ite_self _
    unfold routeMsg
    split
    · exact List.nil_sublist _
    · simp only
      split_ifs
      · rw [List.filterMap_cons_none (herr ..)]
        exact List.nil_sublist _
      · rw [List.filterMap_cons_none (herr ..)]
        exact List.nil_sublist _
      · -- the confirmation passes nothing on
        have hsent {r : Bytes} :
            Op.passes c fd (.sendToFd fd' ⟨.privSent r text, .direct, serial⟩) = none :=
          ite_self _
        have hpriv {n : Bytes} {holder : Option ConnId} :
            Frame.passes c ⟨.priv n text, .priv (some c) holder, serial⟩ = serial := if_pos rfl
        have hone := @filterMap_ite_sublist fd _ (List.nodup_singleton (s.findTarget target)) serial
        rw [filterMap_one] at hone
        rw [← List.singleton_append, List.filterMap_append, filterMap_one, filterMap_one, hsent,
          Option.toList_none,
          List.append_nil]
        simpa only [Op.passes, Tid.conn, hpriv] using hone
  | broadcast =>
    rw [List.filterMap_map]
    exact filterMap_ite_sublist (nodup_targets s _) _
  | sent =>
    rw [filterMap_one]
    exact List.Sublist.refl _
  | _ =>
    rw [List.filterMap_eq_nil_iff.mpr]
    · exact List.nil_sublist _
    · intro op' hop'
      cases exec_says h op' hop' with
      | plain hl hh => exact Op.passes_of_not_message (fun line hm => (hl line hm).not_message) hh
      | names hl hn hh => exact Op.passes_of_not_message (fun line hm => by
          rw [hl] at hm
          exact Option.some.inj hm ▸ hn.not_message) hh
      | relay hop | chat hop | priv hop | privSent hop | announce hop => cases hop

/-- A connection keeps the descriptor number it was accepted with. -/
theorem exec_fdOf (h : s.exec t ch op = some (s', new)) (hk : k ≠ s.nextConn) :
    s'.fdOf k = s.fdOf k := by
  cases exec_done h with
  | accepted => exact Function.update_of_ne hk ..
  | frame => rw [(mild_sendFrame ..).fdOf]
  | renamed => rw [(mild_renameClient ..).fdOf]
  | erased =>
    unfold eraseClient
    split <;> rfl
  | _ => rfl

/-- The descriptor number of a connection, once it has one. -/
def At (s : Server) (k : ConnId) (fd : Fd) : Prop := k < s.nextConn → s.fdOf k = fd

theorem At.of_step (hI : Inv s) (hI' : Inv s') (h : step s a = some s') (hat : s'.At k fd) :
    s.At k fd := by
  intro hk
  rw [← hat (lt_nextConn_step hI hI' h hk)]
  rcases step_effect h with ⟨t, ch, op, rest, new, s₁, rfl, ht, he, hE, rfl⟩ | ⟨-, hq⟩
  · exact (exec_fdOf he hk.ne).symm
  · rw [hq.fdOf]

/-- What of connection `c` is on the way to connection `k`, which has descriptor `fd`, or has
arrived there. -/
def passage (s : Server) (c k : ConnId) (fd : Fd) : List ℕ :=
  (s.written k).filterMap (Frame.passes c) ++ (s.todo (.handler c)).filterMap (Op.passes c fd) ++
    (s.inbox c).filterMap ClientFrame.serial

/-- Nothing of a connection that has not been accepted is on the way. -/
theorem passage_unborn (hI : Inv s) (hS : Sourced Q s) (hQ : ∀ c g, Q c g → c < s.nextConn)
    (hc : s.nextConn ≤ c) (k : ConnId) (fd : Fd) : s.passage c k fd = [] := by
  have hw : (s.written k).filterMap (Frame.passes c) = [] := by
    refine List.filterMap_eq_nil_iff.mpr fun f hf => Frame.passes_of_ne (Q := Q) ?_
    refine (hS.written k f hf).imp id (Or.imp id ?_)
    rintro ⟨c', hq, -⟩
    obtain ⟨g, hg⟩ := hq.exists_sent
    exact ⟨c', fun he => absurd (hQ c' g hg) (he ▸ not_lt.mpr hc), hq⟩
  have ht : s.todo (.handler c) = [] := by
    have h := hI.handler c
    rw [(hI.unborn_iff c).mpr hc] at h
    generalize s.todo (.handler c) = l, s.alive c = al at h
    cases h with
    | unborn => rfl
    | early h => exact absurd rfl h.open.1
  have hi : s.inbox c = [] :=
    List.eq_nil_iff_forall_not_mem.mpr fun g hg => absurd (hQ c g (hS.inbox c g hg)) (not_lt.mpr hc)
  unfold passage
  rw [hw, ht, hi]
  rfl

/-- The number of the frame that arrives from connection `c` in a step. -/
def arriving (c : ConnId) : Action → List ℕ
  | .arrive c' f => if c' = c then f.serial.toList else []
  | _ => []

/-- **Every step** keeps the order of what is on the way from one client to another; the frame
that arrives comes after it. -/
theorem passage_step (hI : Inv s) (hI' : Inv s') (hS : Sourced Q s) (h : step s a = some s')
    (hat : s'.At k fd) : (s'.passage c k fd).Sublist (s.passage c k fd ++ arriving c a) := by
  have hats := hat.of_step hI hI' h
  have hstays (hw : s'.written k = s.written k) (ht : s'.todo (.handler c) = s.todo (.handler c))
      (hi : s'.inbox c = s.inbox c) :
      (s'.passage c k fd).Sublist (s.passage c k fd ++ arriving c a) := by
    unfold passage
    rw [hw, ht, hi]
    exact List.sublist_append_left ..
  cases a with
  | run t ch =>
    obtain ⟨op, rest, s₁, new, ht, he, rfl⟩ := step_run h
    have hE := exec_effect he
    have hinbox : s₁.inbox c = s.inbox c := by rw [hE.inbox]
    unfold passage arriving
    rw [List.append_nil]
    by_cases htc : t = .handler c
    · subst htc
      simp only [setTodo, Function.update_self, hinbox, ht]
      refine List.Sublist.append ?_ (List.Sublist.refl _)
      rw [← List.singleton_append (x := op), List.filterMap_append, List.filterMap_append,
        filterMap_one]
      rcases hE.written k with hw | ⟨fd', f, rfl, hk, -, hw⟩
      · rw [hw]
        exact (List.Sublist.refl _).append ((exec_passes he).append (List.Sublist.refl _))
      · -- the frame that is written moves from the thread to the connection
        simp only [exec, Option.some.injEq, Prod.mk.injEq] at he
        obtain ⟨-, rfl⟩ := he
        have hfd : fd' = fd := ((hI.fds_iff _ _).mp hk).1.symm.trans (hats (hI.lt_nextConn hk))
        have hp : Op.passes c fd (.sendFrame fd' f) = f.passes c := if_pos hfd
        rw [hw, List.filterMap_append, filterMap_one, hp, List.filterMap_nil, List.nil_append,
          List.append_assoc]
    · have hne : Tid.handler c ≠ t := fun he => htc he.symm
      simp only [setTodo, Function.update_of_ne hne, hE.todo, hinbox]
      refine List.Sublist.append (List.Sublist.append ?_ (List.Sublist.refl _))
        (List.Sublist.refl _)
      rcases hE.written k with hw | ⟨fd', f, rfl, hk, -, hw⟩
      · rw [hw]
      · -- another thread says nothing of this client
        have hnone : f.passes c = none :=
          Frame.Sourced.passes_of_ne (hS.todo t _ (mem_todo_head ht)) htc
        rw [hw, List.filterMap_append, filterMap_one, hnone, Option.toList_none, List.append_nil]
  | recv c' =>
    obtain ⟨ha, htodo, k', g, rest, hk', hg, rfl⟩ := step_recv h
    have hst := hI.serving_of_idle ha htodo
    rw [hI.fds_fdOf (hst ▸ ⟨by decide, by decide⟩)] at hk'
    obtain rfl := Option.some.inj hk'
    by_cases hc : c' = c
    · subst hc
      unfold passage arriving
      simp only [Function.update_self, htodo, hg, List.filterMap_nil, List.append_nil]
      rw [← List.singleton_append (x := g), List.filterMap_append, filterMap_one,
        List.append_assoc]
      exact (List.Sublist.refl _).append ((handleFrame_passes _ _).append (List.Sublist.refl _))
    · exact hstays rfl (Function.update_of_ne (fun he => hc (Tid.handler.inj he).symm) ..)
        (Function.update_of_ne (Ne.symm hc) ..)
  | recvEnd c' =>
    simp only [step, Option.ite_none_right_eq_some, Bool.and_eq_true, List.isEmpty_iff,
      Option.some.injEq] at h
    obtain ⟨⟨-, htodo⟩, rfl⟩ := h
    by_cases hc : c' = c
    · subst hc
      unfold passage arriving
      simp only [Function.update_self, htodo, List.append_nil]
      exact List.Sublist.refl _
    · exact hstays rfl (Function.update_of_ne (fun he => hc (Tid.handler.inj he).symm) ..) rfl
  | arrive c' g =>
    obtain rfl := Option.some.inj h
    unfold passage arriving
    by_cases hc : c' = c
    · subst hc
      simp only [Function.update_self, if_true]
      rw [List.filterMap_append, filterMap_one, List.append_assoc, List.append_assoc,
        List.append_assoc]
    · simp only [Function.update_of_ne (Ne.symm hc), if_neg hc, List.append_nil]
      exact List.Sublist.refl _
  | iterate | leaveLoop =>
    simp only [step, Option.ite_none_right_eq_some, Option.some.injEq] at h
    obtain ⟨-, rfl⟩ := h
    have hne : Tid.handler c ≠ .main := fun h => by cases h
    exact hstays rfl (by simp only [Function.update_of_ne hne]) rfl
  | requestShutdown =>
    obtain rfl := Option.some.inj h
    exact hstays rfl rfl rfl
  | rehash es =>
    simp only [step, Option.dite_none_right_eq_some, Option.some.injEq] at h
    obtain ⟨_, rfl⟩ := h
    exact hstays rfl rfl rfl

end Server

end ThreadLink.Backend
