import ThreadLink.Backend.Terminal
import ThreadLink.System.Lines
import ThreadLink.System.Wire

/-!
# A terminal at the chat server

What the terminal client shows is what the chat server has written to its connection, in between
whatever else the threads of the server do and however the bytes come; and what the server receives
is what has been typed.

## What is proved

* `print_payload` — a line of the server is shown as `display` says, with the names and the text
  that the server had.
* `terminal_shows_written` — **the screen has the lines that the server has written**, in order,
  and the server is sent the lines that have been typed.
-/

namespace ThreadLink.System

open Text Runs Framing Backend Gateway

/-- What a line is to look like. -/
def display : ServerLine → Bytes
  | .welcome n => bytes "\r* Connected. Your nickname is '" ++ n ++
      bytes "'. Use /nick <name> to change it.\n" ++ bytes "> "
  | .sys t => bytes "\r* " ++ t ++ bytes "\n" ++ bytes "> "
  | .msg s t => bytes "\r" ++ s ++ bytes ": " ++ t ++ bytes "\n" ++ bytes "> "
  | .priv s t => bytes "\r[PM from " ++ s ++ bytes "] " ++ t ++ bytes "\n" ++ bytes "> "
  | .privSent r t => bytes "\r[PM to " ++ r ++ bytes "] " ++ t ++ bytes "\n" ++ bytes "> "
  | .nick o n => bytes "\r* " ++ o ++ bytes " is now known as " ++ n ++ bytes "\n" ++ bytes "> "
  | .list ns => bytes "\r* Online users (" ++ bytes (toString ns.length) ++ bytes "): " ++
      List.intercalate (bytes " ") ns ++ bytes "\n" ++ bytes "> "
  | .err c t => bytes "\r! Error [" ++ c ++ bytes "]: " ++ t ++ bytes "\n" ++ bytes "> "

/-- The keyword of a line, and what follows. -/
theorem split_keyword {k : Bytes} (hk : 32 ∉ k.dropLast) (h : k.dropLast ++ [32] = k) (t : Bytes) :
    Backend.splitFirst (k ++ t) = (k.dropLast, t) := by
  have hsplit := splitFirst_append hk t
  rwa [← List.singleton_append, ← List.append_assoc, h] at hsplit

/-- A word, and what follows. -/
theorem split_word {w : Bytes} (hw : IsWord w) (t : Bytes) :
    Backend.splitFirst (w ++ (bytes " " ++ t)) = (w, t) :=
  splitFirst_append (fun hm => (hw 32 hm).2 rfl) t

theorem notMem_numeral (n : ℕ) : 32 ∉ bytes (toString n) := by
  intro hm
  rw [bytes_toString] at hm
  obtain ⟨c, hc, he⟩ := List.mem_map.mp hm
  have hd := toNat_digit hc
  rw [he] at hd
  have h32 := hd.2.2
  change 32 = _ at h32
  omega

/-- Names with a blank before each are names with a blank between any two. -/
theorem tail_flatMap_blank (ns : List Bytes) :
    (ns.flatMap fun n => bytes " " ++ n).tail = List.intercalate (bytes " ") ns := by
  induction ns with
  | nil => rfl
  | cons n ns ih =>
    cases ns with
    | nil => simp [bytes]
    | cons m ns =>
      rw [List.intercalate_cons_cons, ← ih]
      simp [bytes]

/-- **A line is shown as it is meant.** -/
theorem print_payload {line : ServerLine} (h : Legible line) :
    printServerMessage line.payload = display line := by
  cases line with
  | welcome n | sys t =>
    rw [ServerLine.payload, printServerMessage, split_keyword]
    · rfl
    · decide
    · decide
  | msg w t | priv w t | privSent w t | nick w t | err w t =>
    rw [ServerLine.payload, List.append_assoc, List.append_assoc, printServerMessage,
      split_keyword]
    · dsimp only
      rw [split_word h]
      rfl
    · decide
    · decide
  | list ns =>
    -- the count is a word, and there may be no names
    have hcount :
        Backend.splitFirst (bytes (toString ns.length) ++ ns.flatMap fun n => bytes " " ++ n) =
          (bytes (toString ns.length), (ns.flatMap fun n => bytes " " ++ n).tail) := by
      cases ns with
      | nil =>
        rw [List.flatMap_nil, List.append_nil]
        exact splitFirst_of_notMem (notMem_numeral _)
      | cons n ns => exact splitFirst_append (notMem_numeral _) _
    rw [ServerLine.payload, List.append_assoc, printServerMessage, split_keyword]
    · dsimp only
      rw [hcount, tail_flatMap_blank]
      rfl
    · decide
    · decide

/-- What the server has written is shown as it is meant. -/
theorem print_of_written {config : LoadedConfig} {s : Server} {c : ConnId} {f : Frame}
    (h : Run Server.step (.init config) s) (hf : f ∈ s.written c) :
    (Shown.message f.line.payload).text = display f.line := by
  have hS : Server.Sourced (fun _ _ => True) s := by
    refine (h.invariant
      (I := fun s => s.Inv ∧ s.Named ∧ s.Sourced fun _ _ => True) ?_ ?_).2.2
    · exact ⟨Server.inv_init config, Server.named_init config, Server.sourced_init config⟩
    · rintro s a s' ⟨hI, hN, hS⟩ - hs
      exact ⟨hI.step hs, hN.step hs, hS.step hI hN (fun _ _ _ => trivial) hs⟩
  exact print_payload (legible_of_written hS (Server.spoken_of_run h) hf)

/-- **What a terminal shows is what has been written to it.** The server, with all its threads and
mutexes, has written the bytes of which the client has received a part; the client runs its loop
as the socket and the keyboard become ready. It has shown the first lines that the server has
written to it, in order, each as it is meant; no frame is too large for it; it says that the
connection has ended when it has shown all that has come. What it has sent are the lines typed, and
if they fit the server receives them. -/
theorem terminal_shows_written {config : LoadedConfig} {w : Wire} {c : ConnId} {cut address : Bytes}
    {recvs sends : List Turn} {past : List (Terminal × Ready)} {t : Terminal}
    (h : RunIn Wire.step Wire.NoReuse (Wire.init config) w)
    (hmax : config.1.maxMessageSize ≤ clientMaxMessageSize) (hcut : cut <+: w.stream c)
    (hr : .failed ∉ recvs) (hs : .failed ∉ sends)
    (hp : Path Terminal.step (.start address ⟨cut, recvs⟩ ⟨[], sends⟩) past t) :
    (∃ n ≤ (w.server.written c).length,
      t.shown = ((w.server.written c).take n).map (fun f => f.line.payload) ∧
      (∀ f ∈ (w.server.written c).take n,
        (Shown.message f.line.payload).text = display f.line) ∧
      (.disconnected ∈ t.screen → ∀ j ≤ (w.server.written c).length,
        (((w.server.written c).take j).flatMap fun f => encodeFrame f.line.payload).length ≤
          cut.length ↔ j ≤ n)) ∧
    .oversized ∉ t.screen ∧
    t.outlet.written = (past.filterMap Terminal.sent?).flatMap encodeFrame ∧
    ∀ turns : List Turn, .failed ∉ turns →
      (∀ p ∈ past.filterMap Terminal.sent?, p.length ≤ config.1.maxMessageSize) →
      Socket.recvFrames ⟨t.outlet.written, turns⟩ config.1.maxMessageSize =
        (past.filterMap Terminal.sent?, .closedByPeer) := by
  have hrun := Wire.run_server h.run
  have hconfig := Server.config_of_run hrun
  obtain ⟨k, hk, hover, hiff⟩ := ((Wire.whole_of_run h).2 c).split_cut (hconfig ▸ hmax) hcut
  obtain ⟨⟨hshown, hdisc, hsize⟩, -⟩ := Terminal.shows_of_path hr hp
  obtain ⟨hsent, -⟩ := Terminal.written_of_path hs hp
  have hlen : (w.payloads c).length = (w.server.written c).length := List.length_map ..
  rw [hk] at hshown hdisc
  refine ⟨⟨t.shown.length, ?_, ?_, ?_, ?_⟩, ?_, hsent, ?_⟩
  · have hle := hshown.length_le
    rw [List.length_take, hlen] at hle
    omega
  · have hle := hshown.length_le
    rw [List.length_take] at hle
    have htake := List.prefix_iff_eq_take.mp hshown
    rw [List.take_take, Nat.min_eq_left (by omega)] at htake
    rw [List.map_take]
    exact htake
  · exact fun f hf => print_of_written hrun (List.mem_of_mem_take hf)
  · intro hd j hj
    have hj' := hiff j (hlen ▸ hj)
    rw [Wire.payloads, ← List.map_take, List.flatMap_map] at hj'
    refine hj'.trans ?_
    rw [hdisc hd, List.length_take, hlen]
    omega
  · intro ho
    rw [hsize ho] at hover
    cases hover
  · intro turns hturns hfit
    rw [hsent]
    have hlimit := config.2.maxMessageSize.2
    exact received_of_encoded (fun p hp => ⟨hfit p hp, by have := hfit p hp; omega⟩) hturns

/-- The bytes of the second of two clients, up to a frame that has only begun. -/
def beginning : Bytes := 0 :: 0 :: 0 :: 13 :: bytes "WELCOME User2" ++ [0, 0]

theorem recvFrame_beginning :
    Socket.recvFrame ⟨beginning, []⟩ clientMaxMessageSize =
      (.ok, bytes "WELCOME User2", ⟨[0, 0], []⟩) := by
  simp [beginning, bytes, Socket.recvFrame, Socket.recvExact, Socket.recvLoop, Socket.recv,
    Socket.ntohl, readHeader, headerSize, clientMaxMessageSize]

theorem sendFrame_hi :
    Outlet.sendFrame ⟨[], []⟩ (bytes "hi") clientMaxMessageSize =
      (.ok, ⟨encode (bytes "hi"), []⟩) := by
  obtain ⟨hstatus, hwritten, hturns⟩ :=
    @Outlet.sendFrame_eq ⟨[], []⟩ (by simp) (bytes "hi") clientMaxMessageSize
  refine Prod.ext hstatus ?_
  exact congrArg₂ Outlet.mk hwritten (List.suffix_nil.mp hturns)

set_option maxRecDepth 8000 in
/-- It is welcomed, and says hi. -/
theorem welcome_is_shown : ∃ w past t, RunIn Wire.step Wire.NoReuse (Wire.init .default) w ∧
    Path Terminal.step (.start (bytes "127.0.0.1:8080") ⟨w.stream 1, []⟩ ⟨[], []⟩) past t ∧
    t.screen.map Shown.text = [(Shown.connected (bytes "127.0.0.1:8080")).text,
      display (.welcome (bytes "User2")), bytes "> "] ∧
    Socket.recvFrames ⟨t.outlet.written, [.atMost 0]⟩ 8192 = ([bytes "hi"], .closedByPeer) := by
  have h : (execAllIn Wire.step Wire.NoReuse (Wire.init .default) halfSent).map
      (fun w => w.stream 1) = some beginning := by decide
  obtain ⟨w, hw, hstream⟩ := exists_runIn_of_execAllIn h
  have hexit : bytes "hi" ≠ bytes "/exit" := by decide
  have hsome : (bytes "hi").isEmpty = false := by decide
  have hsent : Terminal.sent? (.start (bytes "127.0.0.1:8080") ⟨w.stream 1, []⟩ ⟨[], []⟩,
      ⟨true, some (some (bytes "hi"))⟩) = some (bytes "hi") := by
    have hlen : ¬ clientMaxMessageSize < (bytes "hi").length := by decide
    simp [hstream, Terminal.sent?, Terminal.attend, Terminal.start, Terminal.receive,
      recvFrame_beginning, Terminal.print, hsome, hlen]
  have hstep : Terminal.step (.start (bytes "127.0.0.1:8080") ⟨w.stream 1, []⟩ ⟨[], []⟩)
      ⟨true, some (some (bytes "hi"))⟩ =
      some ⟨⟨[0, 0], []⟩, ⟨encode (bytes "hi"), []⟩,
        [.connected (bytes "127.0.0.1:8080"), .message (bytes "WELCOME User2"), .prompt],
        true⟩ := by
    simp [hstream, Terminal.step, Terminal.attend, Terminal.start, Terminal.receive,
      recvFrame_beginning, Terminal.print, Terminal.enter, sendFrame_hi, hexit, hsome]
  have hp := PathIn.tail (C := fun _ _ => True) .refl trivial hstep
  have hall := terminal_shows_written hw (by decide) (List.prefix_rfl (l := w.stream 1)) (by simp)
    (by simp) hp
  refine ⟨w, _, _, hw, hp, ?_, ?_⟩
  · simp only [List.map_cons, List.map_nil]
    rw [show (Shown.message (bytes "WELCOME User2")).text = display (.welcome (bytes "User2"))
      from @print_payload (.welcome (bytes "User2")) trivial]
    rfl
  · obtain ⟨-, -, -, hread⟩ := hall
    rw [List.nil_append, List.filterMap_cons_some hsent, List.filterMap_nil] at hread
    exact hread [.atMost 0] (by simp) (by decide)

end ThreadLink.System
