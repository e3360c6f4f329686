import ThreadLink.Backend.Wire
import ThreadLink.System.Framing

/-!
# From the threads of the server to its clients

The threads of the chat server send to its clients all at once, each call of `::send` taking some
bytes of a frame. A client, be it a terminal or the gateway, has received some of the bytes by now.

## What is proved

* `frames_stay_whole` — if no descriptor number is given out again while a thread has still to
  send to it, what a client reads are the frames that `Backend.Server` says are written, as far as
  they have come.
* `frames_are_torn` — else it may be something else.
-/

namespace ThreadLink.System

open Text Runs Framing Backend Gateway Wire

/-- **Frames stay whole on the wire.** The server that takes mutexes and calls `::send` as often as
the kernel wants does what the server does that writes a frame in one step. If no descriptor number
is given out again while a thread has still to send to it, two threads never send to one connection
at the same time, whoever holds a mutex is sending, and from whatever part of the bytes, in whatever
pieces, a client reads the frames that are wholly there, and nothing else. All are there when the
connection is open and nobody is sending. -/
theorem frames_stay_whole {config : LoadedConfig} {w : Wire} {max : ℕ} {turns : List Turn}
    (h : RunIn step NoReuse (init config) w) (hmax : config.1.maxMessageSize ≤ max)
    (hf : .failed ∉ turns) :
    Run Server.step (.init config) w.server ∧
    (∀ c t t' f f' u u', Writes w t c f u → Writes w t' c f' u' → t = t') ∧
    (∀ c t, w.holder c = some t →
      ∃ fd f rest u, w.server.todo t = .sendFrame fd f :: rest ∧ w.unsent t = some u) ∧
    ∀ c,
      (∀ cut, cut <+: w.stream c →
        ∃ k, (∀ j ≤ (payloads w c).length,
            (((payloads w c).take j).flatMap encodeFrame).length ≤ cut.length ↔ j ≤ k) ∧
          Socket.recvFrames ⟨cut, turns⟩ max = ((payloads w c).take k, .closedByPeer) ∧
          ∀ chunks : List Bytes, chunks.flatten = cut →
            (FrameDecoder.pushAll ⟨max, []⟩ chunks).1.flatMap (·.frames) = (payloads w c).take k ∧
            ∀ r ∈ (FrameDecoder.pushAll ⟨max, []⟩ chunks).1, r.tooLarge = false) ∧
      (payloads w c).flatMap encodeFrame <+: w.stream c ∧
      ((w.server.stage c).Open → w.server.broken c = false → (∀ t f u, ¬ Writes w t c f u) →
        w.stream c = (payloads w c).flatMap encodeFrame) := by
  obtain ⟨hG, hW⟩ := whole_of_run h
  have hrun := run_server h.run
  have hconfig := Server.config_of_run hrun
  have hflat (c : ConnId) : (w.server.written c).flatMap (fun f => encode f.line.payload) =
      (payloads w c).flatMap encodeFrame := by
    rw [payloads, List.flatMap_map]
    rfl
  refine ⟨hrun, fun _ _ _ _ _ _ _ => hG.writer_unique, ?_, fun c => ⟨?_, ?_, ?_⟩⟩
  · intro c t hh
    obtain ⟨u, hu⟩ := Option.isSome_iff_exists.mp ((hG.holds c t).mp hh).1
    obtain ⟨fd, f, rest, ht, -⟩ := hG.sending t u hu
    exact ⟨fd, f, rest, u, ht, hu⟩
  · intro cut hcut
    obtain ⟨k, h1, h2, h3⟩ := (hW c).split_cut (hconfig ▸ hmax) hcut
    exact ⟨k, h3, read_of_split h1 h2 hf⟩
  · obtain ⟨-, part, -, hs⟩ := hW c
    rw [hs, hflat]
    exact List.prefix_append ..
  · intro hopen hb hno
    obtain ⟨-, part, ⟨-, -, hi⟩, hs⟩ := hW c
    rw [hs, hi (.inr ⟨hopen, hb, hno⟩), List.append_nil, hflat]

/-- A thread runs its next `n` blocks. -/
def blocks (t : Tid) (n : ℕ) : List Wire.Action := List.replicate n (.other (.run t {}))

/-- It sends a frame, the header first. -/
def sendsFrame (t : Tid) : List Wire.Action :=
  [.lock t, .send t (.atMost 3), .send t (.atMost 8191)]

/-- A connection is admitted on descriptor `fd`, up to the targets of the announcement. -/
def admits (fd : Fd) (entries : ℕ) : List Wire.Action :=
  .other (.iterate true) :: (blocks .main (entries + 1) ++ .other (.run .main { fd := fd }) ::
    blocks .main 2 ++ sendsFrame .main ++ blocks .main 3)

/-- Two clients join. The first sends the second a private message, and the kernel has taken two
bytes of it. -/
def halfSent : List Wire.Action :=
  admits 5 0 ++ admits 6 1 ++ sendsFrame .main ++
    .other (.arrive 0 ⟨bytes "/msg User2 hi", none⟩) :: .other (.recv 0) ::
      blocks (.handler 0) 2 ++ [.lock (.handler 0), .send (.handler 0) (.atMost 1)]

set_option maxRecDepth 8000 in
/-- The second client has got its WELCOME, and no more. -/
theorem half_is_not_read : ∃ w, RunIn step NoReuse (init .default) w ∧
    w.holder 1 = some (.handler 0) ∧ (w.stream 1).length = 19 ∧
    (FrameDecoder.pushAll ⟨8192, []⟩ [w.stream 1]).1.flatMap (·.frames) =
      [bytes "WELCOME User2"] := by
  have h : (execAllIn step NoReuse (init .default) halfSent).map
      (fun w => (w.holder 1, (w.stream 1).length, payloads w 1)) =
      some (some (.handler 0), 19, [bytes "WELCOME User2"]) := by decide
  obtain ⟨w, hw, he⟩ := exists_runIn_of_execAllIn h
  simp only [Prod.mk.injEq] at he
  obtain ⟨hholder, hlen, hwritten⟩ := he
  obtain ⟨-, -, -, hall⟩ := @frames_stay_whole _ w 8192 [] hw (by decide) (by simp)
  obtain ⟨hparts, hwhole, -⟩ := hall 1
  obtain ⟨k, hk, -, hread⟩ := hparts _ List.prefix_rfl
  refine ⟨w, hw, hholder, hlen, ?_⟩
  rw [(hread [w.stream 1] (by simp)).1, List.take_of_length_le, hwritten]
  exact (hk _ le_rfl).mp (by rw [List.take_length]; exact hwhole.length_le)

set_option maxRecDepth 8000 in
/-- The second client leaves then, and a third is accepted on its descriptor: it gets the rest of
the frame, without its start. -/
theorem frames_are_torn :
    ¬ ∀ w, Run step (init .default) w → ∀ c,
      Socket.recvFrames ⟨w.stream c, []⟩ 8192 = (payloads w c, .closedByPeer) := by
  intro hall
  have h : (execAll step (init .default) (halfSent ++ .other (.recvEnd 1) ::
      (blocks (.handler 1) 2 ++ sendsFrame (.handler 1) ++ blocks (.handler 1) 2 ++
      .other (.iterate true) :: (blocks .main 4 ++ .other (.run .main { fd := 6 }) ::
      blocks .main 1) ++ [.send (.handler 0) (.atMost 1), .send (.handler 0) (.atMost 8191)]))).map
      (fun w => w.stream 2) = some (0 :: 13 :: bytes "PRIV User1 hi") := by decide
  obtain ⟨w, hw, hs⟩ := exists_run_of_execAll h
  have hread := hall w hw 2
  rw [Socket.recvFrames_spec (by simp)] at hread
  dsimp only at hread
  rw [hs, split_of_oversized (by decide) (by decide)] at hread
  simp at hread

end ThreadLink.System
