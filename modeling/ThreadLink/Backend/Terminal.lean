import ThreadLink.Backend.Commands
import ThreadLink.Backend.Protocol
import ThreadLink.Lib.Runs

/-!
# The terminal client

`src/client.cpp`. The client waits for the socket and for the keyboard; it shows each frame it
receives and sends each line that is typed.

## The model

* A step is a pass of the loop after `select` has returned; it says which of the two is ready, and
  what `std::getline` gives, `none` for the end of the input.
* What the terminal shows is a list of what is put on `std::cout` at a time; `Shown.text` are its
  bytes.
* The socket has the bytes that the server sends before the connection ends.

## What is proved

* `Terminal.shows_of_path` — what has been shown are the frames the bytes start with, in order, as
  many as have been received; when the connection has ended, all of them.
* `Terminal.written_of_path` — what has been sent are the lines typed, in order, each as a frame.
-/

namespace ThreadLink.Backend

open Text Runs Framing

/-- `CLIENT_MAX_MESSAGE_SIZE`. -/
def clientMaxMessageSize : ℕ := 1 * 1024 * 1024

/-- `print_server_message`. -/
def printServerMessage (payload : Bytes) : Bytes :=
  let (type, rest) := splitFirst payload
  let (first, remainder) := splitFirst rest
  (if type = bytes "WELCOME" then
    bytes "\r* Connected. Your nickname is '" ++ rest ++ bytes "'. Use /nick <name> to change it.\n"
  else if type = bytes "SYS" then bytes "\r* " ++ rest ++ bytes "\n"
  else if type = bytes "MSG" then bytes "\r" ++ first ++ bytes ": " ++ remainder ++ bytes "\n"
  else if type = bytes "PRIV" then
    bytes "\r[PM from " ++ first ++ bytes "] " ++ remainder ++ bytes "\n"
  else if type = bytes "PRIV_SENT" then
    bytes "\r[PM to " ++ first ++ bytes "] " ++ remainder ++ bytes "\n"
  else if type = bytes "NICK" then
    bytes "\r* " ++ first ++ bytes " is now known as " ++ remainder ++ bytes "\n"
  else if type = bytes "LIST" then
    bytes "\r* Online users (" ++ first ++ bytes "): " ++ remainder ++ bytes "\n"
  else if type = bytes "ERR" then
    bytes "\r! Error [" ++ first ++ bytes "]: " ++ remainder ++ bytes "\n"
  else bytes "\r" ++ payload ++ bytes "\n") ++ bytes "> "

/-- What is put on `std::cout`. -/
inductive Shown where
  /-- That the client is connected to an address, and what can be typed. -/
  | connected (address : Bytes)
  /-- A frame of the server. -/
  | message (payload : Bytes)
  /-- The prompt. -/
  | prompt
  /-- The connection has ended. -/
  | disconnected
  /-- A frame is too large. -/
  | oversized
  /-- A line could not be sent. -/
  | failed
  /-- The end. -/
  | goodbye
  deriving DecidableEq, Repr

/-- Its bytes. -/
def Shown.text : Shown → Bytes
  | .connected address =>
    bytes "Connected to ThreadLink server at " ++ address ++ bytes "\n" ++
      bytes "Commands: /nick <name>   /msg <name> <message>   /list   /exit\n" ++ bytes "> "
  | .message payload => printServerMessage payload
  | .prompt => bytes "> "
  | .disconnected => bytes "\nServer disconnected.\n"
  | .oversized => bytes "\nServer sent an oversized frame; disconnecting.\n"
  | .failed => bytes "\nFailed to send (connection lost).\n"
  | .goodbye => bytes "Goodbye.\n"

/-- The frame of the server it is, if it is one. -/
def Shown.payload? : Shown → Option Bytes
  | .message payload => some payload
  | _ => none

/-- The terminal client. -/
structure Terminal where
  /-- The receiving side of `sock`. -/
  socket : Socket
  /-- The sending side of it. -/
  outlet : Outlet
  /-- What has been shown. -/
  screen : List Shown
  /-- The loop has not been left. -/
  running : Bool
  deriving DecidableEq, Repr

/-- What `select` finds ready. -/
structure Ready where
  /-- The socket. -/
  readable : Bool
  /-- The keyboard, and what `std::getline` gives. -/
  typed : Option (Option Bytes)
  deriving DecidableEq, Repr

namespace Terminal

/-- The client has connected. -/
def start (address : Bytes) (socket : Socket) (outlet : Outlet) : Terminal where
  socket := socket
  outlet := outlet
  screen := [.connected address]
  running := true

/-- Something is put on `std::cout`. -/
def print (t : Terminal) (o : Shown) : Terminal := { t with screen := t.screen ++ [o] }

/-- The loop is left. -/
def leave (t : Terminal) : Terminal := { t.print .goodbye with running := false }

/-- The socket is ready. -/
def receive (t : Terminal) : Terminal :=
  match t.socket.recvFrame clientMaxMessageSize with
  | (.ok, payload, socket) => { t with socket := socket }.print (.message payload)
  | (.tooLarge, _, socket) => ({ t with socket := socket }.print .oversized).leave
  | (.closedByPeer, _, socket) | (.error, _, socket) =>
    ({ t with socket := socket }.print .disconnected).leave

/-- A line is typed. -/
def enter (t : Terminal) (line : Bytes) : Terminal :=
  if line = bytes "/exit" then
    { t with outlet := (t.outlet.sendFrame line clientMaxMessageSize).2 }.leave
  else if line.isEmpty then t.print .prompt
  else
    match t.outlet.sendFrame line clientMaxMessageSize with
    | (.ok, outlet) => { t with outlet := outlet }.print .prompt
    | (_, outlet) => ({ t with outlet := outlet }.print .failed).leave

/-- The socket first. -/
def attend (t : Terminal) (r : Ready) : Terminal := if r.readable then t.receive else t

/-- A pass of the loop. -/
def step (t : Terminal) (r : Ready) : Option Terminal :=
  if t.running then
    let t := t.attend r
    if t.running then
      match r.typed with
      | none => some t
      | some none => some t.leave
      | some (some line) => some (t.enter line)
    else some t
  else none

/-- The frames of the server that have been shown. -/
def shown (t : Terminal) : List Bytes := t.screen.filterMap Shown.payload?

/-- The line that a pass sends. -/
def sent? (e : Terminal × Ready) : Option Bytes :=
  if (e.1.attend e.2).running then
    match e.2.typed with
    | some (some line) =>
      if line.isEmpty || clientMaxMessageSize < line.length then none else some line
    | _ => none
  else none

variable {t t' : Terminal} {r : Ready} {x address : Bytes} {recvs sends : List Turn}
  {past : List (Terminal × Ready)} {line : Bytes} {o : Shown}

/-! ### What is shown -/

theorem shown_print (t : Terminal) (o : Shown) :
    (t.print o).shown = t.shown ++ o.payload?.toList := by
  unfold shown print
  cases h : o.payload? <;> simp [h]

theorem shown_leave (t : Terminal) : t.leave.shown = t.shown :=
  (t.shown_print .goodbye).trans (List.append_nil _)

/-- A pass that receives nothing: something is put on `std::cout` that is no frame. -/
structure Aside (t t' : Terminal) : Prop where
  /-- The socket is left alone. -/
  socket : t'.socket = t.socket
  /-- So are the frames. -/
  shown : t'.shown = t.shown
  /-- The connection is as it was. -/
  disconnected : .disconnected ∈ t'.screen ↔ .disconnected ∈ t.screen
  /-- So is what was too large. -/
  oversized : .oversized ∈ t'.screen ↔ .oversized ∈ t.screen

theorem Aside.trans {t'' : Terminal} (h : Aside t t') (h' : Aside t' t'') : Aside t t'' :=
  ⟨h'.socket.trans h.socket, h'.shown.trans h.shown, h'.disconnected.trans h.disconnected,
    h'.oversized.trans h.oversized⟩

theorem aside_print (t : Terminal) (ho : o = .prompt ∨ o = .failed ∨ o = .goodbye) :
    Aside t (t.print o) := by
  refine ⟨rfl, ?_, ?_, ?_⟩
  · rw [shown_print]
    rcases ho with rfl | rfl | rfl <;> exact List.append_nil _
  all_goals rcases ho with rfl | rfl | rfl <;> simp [print]

theorem aside_leave (t : Terminal) : Aside t t.leave :=
  have h := t.aside_print (o := .goodbye) (.inr (.inr rfl))
  ⟨h.socket, h.shown, h.disconnected, h.oversized⟩

/-- What is typed shows no frame. -/
theorem aside_enter (t : Terminal) (line : Bytes) : Aside t (t.enter line) := by
  have houtlet (outlet : Outlet) : Aside t { t with outlet := outlet } := ⟨rfl, rfl, .rfl, .rfl⟩
  unfold enter
  split_ifs
  · exact (houtlet _).trans (aside_leave _)
  · exact aside_print _ (.inl rfl)
  · split
    · exact (houtlet _).trans (aside_print _ (.inl rfl))
    · exact ((houtlet _).trans (aside_print _ (.inr (.inl rfl)))).trans (aside_leave _)

/-- **A client that follows the stream** `x`: it has shown the frames that it has received, and
the others are still to come. -/
structure Following (x : Bytes) (t : Terminal) : Prop where
  /-- No call fails. -/
  turns : .failed ∉ t.socket.turns
  /-- What is shown, and what is to come. -/
  split : split clientMaxMessageSize x =
    ⟨t.shown ++ (split clientMaxMessageSize t.socket.bytes).frames,
      (split clientMaxMessageSize t.socket.bytes).oversized,
      (split clientMaxMessageSize t.socket.bytes).rest⟩
  /-- The connection has not ended. -/
  disconnected : .disconnected ∉ t.screen
  /-- Nothing was too large. -/
  oversized : .oversized ∉ t.screen

/-- **What a client may have shown** of the stream. -/
structure Shows (x : Bytes) (t : Terminal) : Prop where
  /-- Frames from its start. -/
  shown : t.shown <+: (split clientMaxMessageSize x).frames
  /-- All of them when the connection has ended. -/
  disconnected : .disconnected ∈ t.screen → t.shown = (split clientMaxMessageSize x).frames
  /-- A frame is too large if the client says so. -/
  oversized : .oversized ∈ t.screen → (split clientMaxMessageSize x).oversized = true

theorem Following.shows (h : Following x t) : Shows x t where
  shown := by
    rw [h.split]
    exact List.prefix_append ..
  disconnected hd := absurd hd h.disconnected
  oversized ho := absurd ho h.oversized

theorem Following.aside (h : Following x t) (ha : Aside t t') : Following x t' where
  turns := ha.socket ▸ h.turns
  split := by
    rw [ha.shown, ha.socket]
    exact h.split
  disconnected := fun hd => h.disconnected (ha.disconnected.mp hd)
  oversized := fun ho => h.oversized (ha.oversized.mp ho)

theorem Shows.aside (h : Shows x t) (ha : Aside t t') : Shows x t' where
  shown := ha.shown ▸ h.shown
  disconnected hd := ha.shown ▸ h.disconnected (ha.disconnected.mp hd)
  oversized ho := h.oversized (ha.oversized.mp ho)

/-- A frame is received. -/
theorem split_of_readsFrame {s s' : Socket} {max : ℕ} {out : Bytes}
    (h : Socket.ReadsFrame s max .ok out s') :
    Framing.split max s.bytes =
      ⟨out :: (Framing.split max s'.bytes).frames, (Framing.split max s'.bytes).oversized,
        (Framing.split max s'.bytes).rest⟩ := by
  cases h with
  | ok hr hm hb ht =>
    obtain ⟨header, hh, hs⟩ := hb
    have hd : s.bytes.drop headerSize = out ++ s'.bytes := by rw [hs, ← hh, List.drop_left]
    have hd' : s.bytes.drop (headerSize + readHeader s.bytes) = s'.bytes := by
      rw [← List.drop_drop, hd, hr, List.drop_left]
    have hsplit := @split_of_frame max s.bytes (by rwa [hr])
      (by rw [hr, hs, List.length_append, List.length_append, hh]; omega)
    rw [hsplit, hd, hd', hr, List.take_left]

/-- **The stream has come to its end**: the client says why, and leaves. -/
theorem Following.leave (h : Following x t) (ho : o.payload? = none)
    (hframes : (Framing.split clientMaxMessageSize t.socket.bytes).frames = [])
    (hsize : o = .oversized →
      (Framing.split clientMaxMessageSize t.socket.bytes).oversized = true) (socket : Socket) :
    Shows x ({ t with socket := socket }.print o).leave := by
  have hend := h.split
  rw [hframes, List.append_nil] at hend
  have hshown : ({ t with socket := socket }.print o).leave.shown = t.shown := by
    rw [shown_leave, shown_print, ho]
    exact List.append_nil _
  refine ⟨?_, fun _ => ?_, fun hmem => ?_⟩
  · simp only [hshown, hend, List.prefix_rfl]
  · rw [hshown, hend]
  · rw [hend]
    refine hsize ?_
    rcases List.mem_append.mp ((aside_leave _).oversized.mp hmem) with hm | hm
    · exact absurd hm h.oversized
    · exact (List.mem_singleton.mp hm).symm

/-- **The socket is ready**: a frame is shown, or the stream has come to its end. -/
theorem Following.receive (h : Following x t) :
    Shows x t.receive ∧ (t.receive.running = true → Following x t.receive) := by
  generalize hr : t.socket.recvFrame clientMaxMessageSize = r
  obtain ⟨status, out, socket⟩ := r
  have hc := Socket.recvFrame_cases hr
  cases hc with
  | ok hlen hm hb ht =>
    have hreceive : t.receive = { t with socket := socket }.print (.message out) := by
      simp only [Terminal.receive, hr]
    have hF : Following x t.receive := by
      rw [hreceive]
      refine ⟨fun hf => h.turns (ht.subset hf), ?_, by simpa [print] using h.disconnected,
        by simpa [print] using h.oversized⟩
      rw [h.split, split_of_readsFrame (.ok hlen hm hb ht), shown_print]
      simp [Shown.payload?, shown, print]
    exact ⟨hF.shows, fun _ => hF⟩
  | tooLarge hb hm =>
    have hreceive : t.receive = ({ t with socket := socket }.print .oversized).leave := by
      simp only [Terminal.receive, hr]
    have hsplit := split_of_oversized hb hm
    rw [hreceive]
    exact ⟨h.leave rfl (by rw [hsplit]) (fun _ => by rw [hsplit]) _, fun hrun => by cases hrun⟩
  | closed hb =>
    have hreceive : t.receive = ({ t with socket := socket }.print .disconnected).leave := by
      simp only [Terminal.receive, hr]
    have hsplit : Framing.split clientMaxMessageSize t.socket.bytes =
        ⟨[], false, t.socket.bytes⟩ := by
      rcases hb with hb | ⟨hm, hb⟩
      · exact split_of_short hb
      · exact split_of_unfinished hm hb
    rw [hreceive]
    exact ⟨h.leave rfl (by rw [hsplit]) (by simp) _, fun hrun => by cases hrun⟩
  | error hf => exact absurd hf h.turns

theorem Following.attend (h : Following x t) (r : Ready) :
    Shows x (t.attend r) ∧ ((t.attend r).running = true → Following x (t.attend r)) := by
  unfold Terminal.attend
  split
  · exact h.receive
  · exact ⟨h.shows, fun _ => h⟩

/-- The ways through a pass. -/
theorem step_cases (h : t.step r = some t') :
    t.running = true ∧ ((t.attend r).running = true ∧ Aside (t.attend r) t' ∨
      t' = t.attend r) := by
  unfold step at h
  dsimp only at h
  split_ifs at h with hrun hrun'
  · refine ⟨hrun, ?_⟩
    split at h
    · exact .inr (Option.some.inj h).symm
    · exact .inl ⟨hrun', Option.some.inj h ▸ aside_leave _⟩
    · exact .inl ⟨hrun', Option.some.inj h ▸ aside_enter _ _⟩
  · exact ⟨hrun, .inr (Option.some.inj h).symm⟩

/-- **What a client shows**, in every run. -/
theorem shows_of_path (hf : .failed ∉ recvs) {outlet : Outlet}
    (h : Path step (start address ⟨x, recvs⟩ outlet) past t) :
    Shows x t ∧ (t.running = true → Following x t) := by
  refine h.invariant (I := fun _ t => Shows x t ∧ (t.running = true → Following x t)) ?_ ?_
  · have hF : Following x (start address ⟨x, recvs⟩ outlet) :=
      ⟨hf, rfl, by simp [start], by simp [start]⟩
    exact ⟨hF.shows, fun _ => hF⟩
  · rintro past t r t' ⟨-, hF⟩ - hs
    obtain ⟨hrun, hcase⟩ := step_cases hs
    obtain ⟨hS', hF'⟩ := (hF hrun).attend r
    rcases hcase with ⟨hrun', ha⟩ | rfl
    · exact ⟨hS'.aside ha, fun _ => (hF' hrun').aside ha⟩
    · exact ⟨hS', hF'⟩

/-! ### What is sent -/

theorem outlet_receive (t : Terminal) : t.receive.outlet = t.outlet := by
  unfold receive
  split <;> rfl

theorem outlet_attend (t : Terminal) (r : Ready) : (t.attend r).outlet = t.outlet := by
  unfold attend
  split
  · exact outlet_receive t
  · rfl

/-- **A line that is typed** is sent as a frame, if it is not empty and not too long. -/
theorem takes_enter (hf : .failed ∉ t.outlet.turns) (line : Bytes) :
    t.outlet.Takes
      (if line.isEmpty || clientMaxMessageSize < line.length then [] else encode line)
      (t.enter line).outlet := by
  obtain ⟨-, ht⟩ := Outlet.sendFrame_eq hf line clientMaxMessageSize
  have hbytes : (sendFrame line clientMaxMessageSize).2 =
      if clientMaxMessageSize < line.length then [] else encode line := by
    unfold sendFrame
    split <;> rfl
  rw [hbytes] at ht
  unfold enter
  by_cases hexit : line = bytes "/exit"
  · subst hexit
    exact ht
  · rw [if_neg hexit]
    by_cases he : line.isEmpty = true
    · rw [if_pos he, he]
      exact ⟨(List.append_nil _).symm, List.suffix_rfl⟩
    · rw [if_neg he, Bool.eq_false_iff.mpr he, Bool.false_or]
      simp only [decide_eq_true_eq]
      generalize t.outlet.sendFrame line clientMaxMessageSize = r at ht ⊢
      obtain ⟨status, outlet⟩ := r
      cases status <;> exact ht

/-- **What a pass sends.** -/
theorem takes_step (hf : .failed ∉ t.outlet.turns) (h : t.step r = some t') :
    t.outlet.Takes ((sent? (t, r)).toList.flatMap encode) t'.outlet := by
  have hnone {t' : Terminal} (he : t'.outlet = t.outlet) : t.outlet.Takes [] t'.outlet :=
    ⟨by rw [he, List.append_nil], by simp only [he, List.suffix_rfl]⟩
  have houtlet := outlet_attend t r
  unfold step at h
  unfold sent?
  dsimp only at h ⊢
  split_ifs at h ⊢ with hrun hrun'
  · split at h <;> rename_i htyped <;> obtain rfl := Option.some.inj h <;> rw [htyped]
    · exact hnone houtlet
    · exact hnone houtlet
    · rename_i line
      have ht := takes_enter (t := t.attend r) (houtlet ▸ hf) line
      rw [houtlet] at ht
      dsimp only
      split_ifs at ht ⊢ <;> simpa using ht
  · obtain rfl := Option.some.inj h
    exact hnone houtlet

/-- **What has been sent** are the lines that have been typed, in order. -/
theorem written_of_path (hf : .failed ∉ sends) {socket : Socket}
    (h : Path step (start address socket ⟨[], sends⟩) past t) :
    t.outlet.written = (past.filterMap sent?).flatMap encode ∧ .failed ∉ t.outlet.turns := by
  refine h.invariant (I := fun past t => t.outlet.written = (past.filterMap sent?).flatMap encode ∧
    .failed ∉ t.outlet.turns) ⟨rfl, hf⟩ ?_
  rintro past t r t' ⟨hw, hf⟩ - hs
  obtain ⟨hwritten, hturns⟩ := takes_step hf hs
  rw [hwritten, hw, List.filterMap_append, List.flatMap_append]
  refine ⟨?_, fun hm => hf (hturns.subset hm)⟩
  cases hsent : sent? (t, r) <;> simp [hsent]

end Terminal

end ThreadLink.Backend
