import ThreadLink.Lib.Framing

/-!
# The gateway's side of the framing

`src/wireProtocol.ts`. A TCP socket hands its bytes over in chunks of any size; the
decoder keeps what is not yet a frame.

## The model

* `readUInt32BE` is a method of `Buffer`, for a buffer of four bytes at least.
* A buffer that shares its memory with the chunk it was cut from is a list of its own.

## What is proved

* `FrameDecoder.push_eq` — a `push` cuts what was kept and the chunk into frames.
* `FrameDecoder.pushAll_spec` — over all chunks, the frames, the errors and what is kept
  are those of the whole stream.
-/

namespace ThreadLink.Gateway

open Text Framing

/-- `FrameDecoder`. -/
structure FrameDecoder where
  /-- `maxPayloadSize`. -/
  maxPayloadSize : ℕ
  /-- What has been received and is not yet a frame. -/
  buffer : Bytes := []
  deriving DecidableEq, Repr

/-- What `push` returns. -/
structure Pushed where
  /-- The frames that are complete now. -/
  frames : List Bytes
  /-- Whether there is an `error`, which is then `too_large`. -/
  tooLarge : Bool
  deriving DecidableEq, Repr

/-- `FRAME_HEADER_SIZE`. -/
def frameHeaderSize : ℕ := 4

/-- `readUInt32BE(0)`. -/
def readUInt32BE (buffer : Bytes) : ℕ :=
  (buffer.getD 0 0).toNat * 16777216 + (buffer.getD 1 0).toNat * 65536 +
    (buffer.getD 2 0).toNat * 256 + (buffer.getD 3 0).toNat

/-- The loop of `push`, with the frames it has found: what it returns, and the buffer it leaves. -/
def FrameDecoder.loop (max : ℕ) (buffer : Bytes) (frames : List Bytes) : Pushed × Bytes :=
  if buffer.length < frameHeaderSize then (⟨frames, false⟩, buffer)
  else
    let length := readUInt32BE buffer
    if max < length then (⟨frames, true⟩, buffer)
    else if buffer.length < frameHeaderSize + length then (⟨frames, false⟩, buffer)
    else
      let payload := (buffer.take (frameHeaderSize + length)).drop frameHeaderSize
      FrameDecoder.loop max (buffer.drop (frameHeaderSize + length)) (frames ++ [payload])
termination_by buffer.length
decreasing_by simp only [List.length_drop, frameHeaderSize] at *; omega

/-- `push`. -/
def FrameDecoder.push (d : FrameDecoder) (chunk : Bytes) : Pushed × FrameDecoder :=
  let buffer := if d.buffer.length = 0 then chunk else d.buffer ++ chunk
  let r := FrameDecoder.loop d.maxPayloadSize buffer []
  (r.1, { d with buffer := r.2 })

/-- One `push` for each chunk. -/
def FrameDecoder.pushAll (d : FrameDecoder) : List Bytes → List Pushed × FrameDecoder
  | [] => ([], d)
  | chunk :: chunks =>
    let r := d.push chunk
    let rs := FrameDecoder.pushAll r.2 chunks
    (r.1 :: rs.1, rs.2)

/-- `encodeFrame`, of bytes. -/
def encodeFrame (body : Bytes) : Bytes := writeHeader body.length ++ body

/-! ### Chunks and the whole stream -/

theorem readUInt32BE_eq {buffer : Bytes} (h : headerSize ≤ buffer.length) :
    readUInt32BE buffer = readHeader buffer := by
  match buffer, h with
  | a :: b :: c :: d :: l, _ =>
    show a.toNat * 16777216 + b.toNat * 65536 + c.toNat * 256 + d.toNat =
      (((0 * 256 + a.toNat) * 256 + b.toNat) * 256 + c.toNat) * 256 + d.toNat
    omega

namespace FrameDecoder

variable {d : FrameDecoder} {max : ℕ}

theorem loop_eq (buffer : Bytes) (frames : List Bytes) :
    loop max buffer frames =
      (⟨frames ++ (split max buffer).frames, (split max buffer).oversized⟩,
        (split max buffer).rest) := by
  induction buffer, frames using loop.induct max with
  | case1 buffer frames hs =>
    rw [loop, if_pos hs, split_of_short hs, List.append_nil]
  | case2 buffer frames hs length hm =>
    have hb : headerSize ≤ buffer.length := not_lt.mp hs
    have hr := readUInt32BE_eq hb
    rw [loop, if_neg hs, if_pos hm, split_of_oversized hb (hr ▸ hm), List.append_nil]
  | case3 buffer frames hs length hm hl =>
    have hr := readUInt32BE_eq (not_lt.mp hs)
    rw [loop, if_neg hs, if_neg hm, if_pos hl, split_of_unfinished (hr ▸ not_lt.mp hm) (hr ▸ hl),
      List.append_nil]
  | case4 buffer frames hs length hm hl payload ih =>
    have hr : length = readHeader buffer := readUInt32BE_eq (not_lt.mp hs)
    have hp : payload = (buffer.drop headerSize).take (readHeader buffer) := by
      show (buffer.take (frameHeaderSize + length)).drop frameHeaderSize = _
      rw [List.drop_take, hr]
      congr 1
      exact Nat.add_sub_cancel_left ..
    have hf := @split_of_frame max buffer (hr ▸ not_lt.mp hm) (hr ▸ not_lt.mp hl)
    rw [loop, if_neg hs, if_neg hm, if_neg hl, ih, hf, hp, hr, List.append_assoc,
      List.singleton_append]
    rfl

/-- **A `push` cuts what was kept and the chunk.** -/
theorem push_eq (d : FrameDecoder) (chunk : Bytes) :
    d.push chunk =
      (⟨(split d.maxPayloadSize (d.buffer ++ chunk)).frames,
        (split d.maxPayloadSize (d.buffer ++ chunk)).oversized⟩,
        { d with buffer := (split d.maxPayloadSize (d.buffer ++ chunk)).rest }) := by
  have hb : (if d.buffer.length = 0 then chunk else d.buffer ++ chunk) = d.buffer ++ chunk := by
    split
    · rename_i h
      rw [List.length_eq_zero_iff.mp h, List.nil_append]
    · rfl
  simp only [push, hb, loop_eq, List.nil_append]

/-- What is kept is not a frame. -/
def Cut (d : FrameDecoder) (o : Bool) : Prop := split d.maxPayloadSize d.buffer = ⟨[], o, d.buffer⟩

theorem cut_new (max : ℕ) : Cut ⟨max, []⟩ false := split_of_short (Nat.succ_pos 3)

theorem cut_push (d : FrameDecoder) (chunk : Bytes) :
    Cut (d.push chunk).2 (d.push chunk).1.tooLarge := by
  rw [push_eq]
  exact split_rest

@[simp] theorem maxPayloadSize_push (d : FrameDecoder) (chunk : Bytes) :
    (d.push chunk).2.maxPayloadSize = d.maxPayloadSize := rfl

/-- A decoder that has met a frame that is too large has no others, and says so at every `push`. -/
theorem push_of_tooLarge (h : Cut d true) (chunk : Bytes) :
    (d.push chunk).1 = ⟨[], true⟩ ∧ Cut (d.push chunk).2 true := by
  have hs := split_append_of_oversized (by rw [h]) chunk
  rw [h] at hs
  have hp : (d.push chunk).1 = ⟨[], true⟩ := by rw [push_eq, hs]
  have hc := cut_push d chunk
  rw [hp] at hc
  exact ⟨hp, hc⟩

theorem pushAll_of_tooLarge (h : Cut d true) (chunks : List Bytes) :
    ∀ r ∈ (d.pushAll chunks).1, r = ⟨[], true⟩ := by
  induction chunks generalizing d with
  | nil => exact fun _ hr => absurd hr List.not_mem_nil
  | cons chunk chunks ih =>
    obtain ⟨hp, hc⟩ := push_of_tooLarge h chunk
    intro r hr
    rcases List.mem_cons.mp hr with rfl | hr
    · exact hp
    · exact ih hc r hr

/-- **All chunks together** give what the stream gives, and after `too_large` there is
nothing but `too_large`. -/
theorem pushAll_spec (h : Cut d false) (chunks : List Bytes) :
    (d.pushAll chunks).1.flatMap
      (·.frames) = (split d.maxPayloadSize (d.buffer ++ chunks.flatten)).frames ∧
    ((∃ r ∈ (d.pushAll chunks).1, r.tooLarge = true) ↔
      (split d.maxPayloadSize (d.buffer ++ chunks.flatten)).oversized = true) ∧
    ((∀ r ∈ (d.pushAll chunks).1, r.tooLarge = false) →
      (d.pushAll chunks).2.buffer = (split d.maxPayloadSize (d.buffer ++ chunks.flatten)).rest) ∧
    (d.pushAll chunks).1.Pairwise fun r r' => r.tooLarge = true → r' = ⟨[], true⟩ := by
  induction chunks generalizing d with
  | nil =>
    have hs : split d.maxPayloadSize d.buffer = ⟨[], false, d.buffer⟩ := h
    simp [pushAll, hs]
  | cons chunk chunks ih =>
    have hp := push_eq d chunk
    have hc := cut_push d chunk
    have hm := maxPayloadSize_push d chunk
    rw [List.flatten_cons, ← List.append_assoc]
    show ((d.push chunk).1 :: ((d.push chunk).2.pushAll chunks).1).flatMap (·.frames) = _ ∧
      ((∃ r ∈ (d.push chunk).1 :: ((d.push chunk).2.pushAll chunks).1, r.tooLarge = true) ↔ _) ∧
      ((∀ r ∈ (d.push chunk).1 :: ((d.push chunk).2.pushAll chunks).1, r.tooLarge = false) →
        ((d.push chunk).2.pushAll chunks).2.buffer = _) ∧
      ((d.push chunk).1 :: ((d.push chunk).2.pushAll chunks).1).Pairwise _
    generalize hr : d.push chunk = r at *
    obtain ⟨out, d'⟩ := r
    simp only at hc hm
    rw [Prod.mk.injEq] at hp
    obtain ⟨hout, hd'⟩ := hp
    have hbuf : d'.buffer = (split d.maxPayloadSize (d.buffer ++ chunk)).rest := by rw [hd']
    cases ho : (split d.maxPayloadSize (d.buffer ++ chunk)).oversized with
    | true =>
      have hlate : out.tooLarge = true := by rw [hout]; exact ho
      rw [hlate] at hc
      have hall := pushAll_of_tooLarge hc chunks
      rw [split_append_of_oversized ho]
      refine ⟨?_, ⟨fun _ => rfl, fun _ => ⟨out, List.mem_cons_self, hlate⟩⟩, ?_, ?_⟩
      · rw [List.flatMap_cons, hout,
          List.flatMap_eq_nil_iff.mpr fun r hr => by rw [hall r hr], List.append_nil]
      · intro hn
        rw [hn out List.mem_cons_self] at hlate
        cases hlate
      · refine List.pairwise_cons.mpr ⟨fun r hr _ => hall r hr, ?_⟩
        exact List.pairwise_of_forall_mem_list fun _ _ r hr _ => hall r hr
    | false =>
      have hopen : out.tooLarge = false := by rw [hout]; exact ho
      rw [hopen] at hc
      obtain ⟨h1, h2, h3, h4⟩ := ih hc
      rw [hm, hbuf] at h1 h2 h3
      rw [split_append ho]
      refine ⟨?_, ?_, ?_, List.pairwise_cons.mpr ⟨?_, h4⟩⟩
      · rw [List.flatMap_cons, h1, hout]
      · rw [← h2]
        simp [hopen]
      · intro hn
        exact h3 fun r hr => hn r (List.mem_cons_of_mem _ hr)
      · intro _ _ hl
        rw [hopen] at hl
        cases hl

end FrameDecoder

end ThreadLink.Gateway
