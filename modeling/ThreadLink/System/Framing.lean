import ThreadLink.Backend.Protocol
import ThreadLink.Gateway.WireProtocol

/-!
# Both sides of the framing

The gateway's decoder is given chunks, the chat server's loop asks for bytes. Both cut a
stream of bytes into the same frames, and each reads what the other writes.

## What is proved

* `pushed_eq_received` — the same bytes, in any chunks and in any partial reads, give the
  same payloads and end for the same reason.
* `received_of_encoded` — the chat server reads those the gateway has.
* `written_and_read` — what successive calls of `send_frame` write, however the kernel takes
  it, is read back by either side, and from a part of it the frames that are wholly there.
-/

namespace ThreadLink.System

open Text Framing Backend Gateway

variable {max maxSize : ℕ} {payloads : List Bytes}

/-- **One stream, the same frames**: the payloads of all the chunks are those that
`recv_frame` returns before it stops; `too_large` is reported exactly if that loop ends
with `TooLarge`, and at every `push` from then on; otherwise what the decoder keeps is
less than a frame. -/
theorem pushed_eq_received (max : ℕ) (chunks : List Bytes) (turns : List Turn)
    (hf : .failed ∉ turns) :
    let decoded := FrameDecoder.pushAll ⟨max, []⟩ chunks
    let received := Socket.recvFrames ⟨chunks.flatten, turns⟩ max
    decoded.1.flatMap (·.frames) = received.1 ∧
    ((∃ r ∈ decoded.1, r.tooLarge = true) ↔ received.2 = .tooLarge) ∧
    (decoded.1.Pairwise fun r r' => r.tooLarge = true → r' = ⟨[], true⟩) ∧
    ((∀ r ∈ decoded.1, r.tooLarge = false) → decoded.2.buffer.length < 4 + max) := by
  intro decoded received
  obtain ⟨h1, h2, h3, h4⟩ := FrameDecoder.pushAll_spec (FrameDecoder.cut_new max) chunks
  have hr : received = _ := @Socket.recvFrames_spec ⟨chunks.flatten, turns⟩ max hf
  rw [hr]
  refine ⟨h1, h2.trans ?_, h4, ?_⟩
  · show (split max chunks.flatten).oversized = true ↔ _
    cases (split max chunks.flatten).oversized <;> simp
  · intro hn
    have ho : (split max chunks.flatten).oversized = false := by
      cases ho : (split max chunks.flatten).oversized with
      | false => rfl
      | true =>
        obtain ⟨r, hr, ht⟩ := h2.mpr ho
        rw [hn r hr] at ht
        cases ht
    show decoded.2.buffer.length < headerSize + max
    rw [h3 hn]
    exact length_rest_lt ho

/-- Two frames and the header of one that is too large, in chunks that cut the headers. -/
theorem pushed_eq_received_two :
    (FrameDecoder.pushAll ⟨3, []⟩ [[0, 0], [0, 1, 7, 0, 0, 0], [0, 0, 0, 0, 9]]).1.flatMap
      (·.frames) =
      (Socket.recvFrames ⟨[0, 0, 0, 1, 7, 0, 0, 0, 0, 0, 0, 0, 9], [.atMost 2, .interrupted]⟩
        3).1 :=
  (pushed_eq_received 3 [[0, 0], [0, 1, 7, 0, 0, 0], [0, 0, 0, 0, 9]] [.atMost 2, .interrupted]
    (by decide)).1

/-- What both sides read from bytes that are cut into frames without an end at one that is
too large. -/
theorem read_of_split {x : Bytes} (hs : (split max x).frames = payloads)
    (ho : (split max x).oversized = false) {turns : List Turn} (hf : .failed ∉ turns) :
    Socket.recvFrames ⟨x, turns⟩ max = (payloads, .closedByPeer) ∧
    ∀ chunks : List Bytes, chunks.flatten = x →
      (FrameDecoder.pushAll ⟨max, []⟩ chunks).1.flatMap (·.frames) = payloads ∧
      ∀ r ∈ (FrameDecoder.pushAll ⟨max, []⟩ chunks).1, r.tooLarge = false := by
  have hr : Socket.recvFrames ⟨x, turns⟩ max = (payloads, .closedByPeer) := by
    rw [Socket.recvFrames_spec hf, hs, ho]
    rfl
  refine ⟨hr, ?_⟩
  intro chunks hc
  obtain ⟨h1, h2, -, -⟩ := FrameDecoder.pushAll_spec (FrameDecoder.cut_new max) chunks
  rw [List.nil_append, hc] at h1 h2
  refine ⟨h1.trans hs, ?_⟩
  intro r hr
  cases ht : r.tooLarge with
  | false => rfl
  | true =>
    have hlate := h2.mp ⟨r, hr, ht⟩
    rw [ho] at hlate
    cases hlate

/-- **From the gateway to the chat server**: what has been encoded is received, however
the calls of `::recv` cut it. -/
theorem received_of_encoded (hm : ∀ p ∈ payloads, p.length ≤ max ∧ p.length < 4294967296)
    {turns : List Turn} (hf : .failed ∉ turns) :
    Socket.recvFrames ⟨payloads.flatMap encodeFrame, turns⟩ max = (payloads, .closedByPeer) := by
  have he : split max (payloads.flatMap encodeFrame) = ⟨payloads, false, []⟩ := split_encode hm
  exact (read_of_split (by rw [he]) (by rw [he]) hf).1

/-- **What is written is read.** Successive calls of `send_frame` write the encoded frames,
one after the other. Both sides read the payloads back; from a part of the bytes they read
those payloads that are wholly there, and then `recv_frame` reports that the peer has closed. -/
theorem written_and_read (hu : maxSize < 4294967296) (hp : ∀ p ∈ payloads, p.length ≤ maxSize)
    {sends recvs : List Turn} (hs : .failed ∉ sends) (hr : .failed ∉ recvs) :
    let sent := Outlet.sendFrames ⟨[], sends⟩ maxSize payloads
    sent.1 = payloads.map (fun _ => .ok) ∧ sent.2.written = payloads.flatMap encodeFrame ∧
    Socket.recvFrames ⟨sent.2.written, recvs⟩ maxSize = (payloads, .closedByPeer) ∧
    (∀ chunks : List Bytes, chunks.flatten = sent.2.written →
      (FrameDecoder.pushAll ⟨maxSize, []⟩ chunks).1.flatMap (·.frames) = payloads ∧
      ∀ r ∈ (FrameDecoder.pushAll ⟨maxSize, []⟩ chunks).1, r.tooLarge = false) ∧
    ∀ cut : Bytes, cut <+: sent.2.written →
      ∃ k, (∀ j ≤ payloads.length, ((payloads.take j).flatMap encodeFrame).length ≤ cut.length ↔
        j ≤ k) ∧
        Socket.recvFrames ⟨cut, recvs⟩ maxSize = (payloads.take k, .closedByPeer) ∧
        ∀ chunks : List Bytes, chunks.flatten = cut →
          (FrameDecoder.pushAll ⟨maxSize, []⟩ chunks).1.flatMap (·.frames) = payloads.take k ∧
          ∀ r ∈ (FrameDecoder.pushAll ⟨maxSize, []⟩ chunks).1, r.tooLarge = false := by
  intro sent
  have hfits : ∀ p ∈ payloads, p.length ≤ maxSize ∧ p.length < 4294967296 := fun p h =>
    ⟨hp p h, (hp p h).trans_lt hu⟩
  obtain ⟨hok, ht⟩ := Outlet.sendFrames_takes (s := ⟨[], sends⟩) hs hp
  have hw : sent.2.written = payloads.flatMap encodeFrame := ht.written
  have hall : split maxSize sent.2.written = ⟨payloads, false, []⟩ := by
    rw [hw]
    exact split_encode hfits
  obtain ⟨hrecv, hpush⟩ := read_of_split (by rw [hall]) (by rw [hall]) hr
  refine ⟨hok, hw, hrecv, hpush, ?_⟩
  intro cut hcut
  rw [hw] at hcut
  obtain ⟨k, h1, h2, h3⟩ := split_cut hfits hcut
  exact ⟨k, h3, read_of_split h1 h2 hr⟩

/-- Three payloads, one of them empty, written and read in parts. -/
theorem written_and_read_three :
    (Outlet.sendFrames ⟨[], [.atMost 1, .interrupted, .atMost 0]⟩ 3 [[7], [], [8, 9]]).2.written =
      [[7], [], [8, 9]].flatMap encodeFrame :=
  (written_and_read (by decide) (by decide) (by decide) (List.not_mem_nil (a := Turn.failed))).2.1

end ThreadLink.System
