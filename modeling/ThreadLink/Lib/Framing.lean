import ThreadLink.Lib.Text

/-!
# Length-prefixed frames

A stream of bytes is cut into frames: four bytes with the length of a payload, the
most significant first, and the payload. A reader has a limit; it stops at a frame
that announces more.

## What is here

* `split max l` — the payloads of the frames `l` starts with, why the reader stops
  there, and what is left.
* `split_append` — reading goes on where it stopped: what is read from `x ++ y` is what
  is read from `x`, and then from what is left of it and `y`.
* `split_encode` — a stream of frames that fit is read back; `split_cut`, from a stream
  that ends early those frames that are wholly there.
-/

namespace ThreadLink.Framing

open Text

/-- The size of the header. -/
def headerSize : ℕ := 4

/-- The number the first four bytes stand for. -/
def readHeader (l : Bytes) : ℕ := (l.take headerSize).foldl (fun n b => n * 256 + b.toNat) 0

/-- The header of a payload of length `n`. -/
def writeHeader (n : ℕ) : Bytes :=
  [(n / 16777216).toUInt8, (n / 65536).toUInt8, (n / 256).toUInt8, n.toUInt8]

/-- A frame. -/
def encode (payload : Bytes) : Bytes := writeHeader payload.length ++ payload

/-- What is read from a stream. -/
structure Split where
  /-- The payloads of complete frames. -/
  frames : List Bytes
  /-- Whether the next frame announces more than the limit. -/
  oversized : Bool
  /-- What has not been read. -/
  rest : Bytes
  deriving DecidableEq, Repr

/-- Read all the frames a stream starts with. -/
def split (max : ℕ) (l : Bytes) : Split :=
  if l.length < headerSize then ⟨[], false, l⟩
  else if max < readHeader l then ⟨[], true, l⟩
  else if l.length < headerSize + readHeader l then ⟨[], false, l⟩
  else
    let s := split max (l.drop (headerSize + readHeader l))
    ⟨(l.drop headerSize).take (readHeader l) :: s.frames, s.oversized, s.rest⟩
termination_by l.length
decreasing_by simp only [List.length_drop, headerSize] at *; omega

variable {max : ℕ} {l x y : Bytes}

/-- The header is the same, whatever follows. -/
theorem readHeader_append (h : headerSize ≤ x.length) (y : Bytes) :
    readHeader (x ++ y) = readHeader x := by
  rw [readHeader, readHeader, List.take_append_of_le_length h]

/-! ### The three ways to stop, and to go on -/

theorem split_of_short (h : l.length < headerSize) : split max l = ⟨[], false, l⟩ := by
  rw [split, if_pos h]

theorem split_of_oversized (h : headerSize ≤ l.length) (hm : max < readHeader l) :
    split max l = ⟨[], true, l⟩ := by
  rw [split, if_neg (not_lt.mpr h), if_pos hm]

theorem split_of_unfinished (hm : readHeader l ≤ max) (hl : l.length < headerSize + readHeader l) :
    split max l = ⟨[], false, l⟩ := by
  rw [split]
  split_ifs with h1 h2
  · rfl
  · omega
  · rfl

theorem split_of_frame (hm : readHeader l ≤ max) (hl : headerSize + readHeader l ≤ l.length) :
    split max l =
      ⟨(l.drop headerSize).take (readHeader l) ::
        (split max (l.drop (headerSize + readHeader l))).frames,
        (split max (l.drop (headerSize + readHeader l))).oversized,
        (split max (l.drop (headerSize + readHeader l))).rest⟩ := by
  rw [split, if_neg (by omega), if_neg (by omega), if_neg (by omega)]

/-- A complete frame is read in the same way, whatever follows. -/
theorem split_append_of_frame (hm : readHeader x ≤ max)
    (hl : headerSize + readHeader x ≤ x.length) (y : Bytes) :
    split max (x ++ y) =
      ⟨(x.drop headerSize).take (readHeader x) ::
        (split max (x.drop (headerSize + readHeader x) ++ y)).frames,
        (split max (x.drop (headerSize + readHeader x) ++ y)).oversized,
        (split max (x.drop (headerSize + readHeader x) ++ y)).rest⟩ := by
  have hx : headerSize ≤ x.length := by omega
  have hr := readHeader_append hx y
  rw [split_of_frame (hr ▸ hm) (by rw [hr, List.length_append]; omega), hr,
    List.drop_append_of_le_length hl, List.drop_append_of_le_length hx,
    List.take_append_of_le_length (by rw [List.length_drop]; omega)]

/-- **A reader that stopped at a frame over the limit** stays there, whatever follows. -/
theorem split_append_of_oversized (h : (split max x).oversized = true) (y : Bytes) :
    split max (x ++ y) = ⟨(split max x).frames, true, (split max x).rest ++ y⟩ := by
  induction x using split.induct max with
  | case1 x hs => rw [split_of_short hs] at h; cases h
  | case2 x hs hm =>
    have hx : headerSize ≤ x.length := not_lt.mp hs
    rw [split_of_oversized hx hm]
    exact split_of_oversized (by rw [List.length_append]; omega) (by rwa [readHeader_append hx])
  | case3 x hs hm hl => rw [split_of_unfinished (not_lt.mp hm) hl] at h; cases h
  | case4 x hs hm hl ih =>
    rw [split_of_frame (not_lt.mp hm) (not_lt.mp hl)] at h ⊢
    rw [split_append_of_frame (not_lt.mp hm) (not_lt.mp hl), ih h]

/-- **A reader that ran out of bytes** goes on with what is left and what follows. -/
theorem split_append (h : (split max x).oversized = false) (y : Bytes) :
    split max (x ++ y) =
      ⟨(split max x).frames ++ (split max ((split max x).rest ++ y)).frames,
        (split max ((split max x).rest ++ y)).oversized,
        (split max ((split max x).rest ++ y)).rest⟩ := by
  induction x using split.induct max with
  | case1 x hs => simp [split_of_short hs]
  | case2 x hs hm => rw [split_of_oversized (not_lt.mp hs) hm] at h; cases h
  | case3 x hs hm hl => simp [split_of_unfinished (not_lt.mp hm) hl]
  | case4 x hs hm hl ih =>
    rw [split_of_frame (not_lt.mp hm) (not_lt.mp hl)] at h ⊢
    rw [split_append_of_frame (not_lt.mp hm) (not_lt.mp hl), ih h]
    rfl

/-- What is left of a stream that stopped for lack of bytes is less than a frame. -/
theorem length_rest_lt (h : (split max l).oversized = false) :
    (split max l).rest.length < headerSize + max := by
  induction l using split.induct max with
  | case1 l hs => rw [split_of_short hs]; show l.length < _; omega
  | case2 l hs hm => rw [split_of_oversized (not_lt.mp hs) hm] at h; cases h
  | case3 l hs hm hl => rw [split_of_unfinished (not_lt.mp hm) hl]; show l.length < _; omega
  | case4 l hs hm hl ih =>
    rw [split_of_frame (not_lt.mp hm) (not_lt.mp hl)] at h ⊢
    exact ih h

/-- A frame that is read is within the limit. -/
theorem length_le_of_mem_frames {payload : Bytes} (h : payload ∈ (split max l).frames) :
    payload.length ≤ max := by
  induction l using split.induct max with
  | case1 l hs => rw [split_of_short hs] at h; exact absurd h List.not_mem_nil
  | case2 l hs hm => rw [split_of_oversized (not_lt.mp hs) hm] at h; exact absurd h List.not_mem_nil
  | case3 l hs hm hl =>
    rw [split_of_unfinished (not_lt.mp hm) hl] at h; exact absurd h List.not_mem_nil
  | case4 l hs hm hl ih =>
    rw [split_of_frame (not_lt.mp hm) (not_lt.mp hl)] at h
    rcases List.mem_cons.mp h with rfl | h
    · have hlt := List.length_take_le (readHeader l) (l.drop headerSize)
      omega
    · exact ih h

/-- Nothing more is read from what is left. -/
theorem split_rest :
    split max (split max l).rest = ⟨[], (split max l).oversized, (split max l).rest⟩ := by
  induction l using split.induct max with
  | case1 l hs => rw [split_of_short hs, split_of_short hs]
  | case2 l hs hm => rw [split_of_oversized (not_lt.mp hs) hm, split_of_oversized (not_lt.mp hs) hm]
  | case3 l hs hm hl =>
    rw [split_of_unfinished (not_lt.mp hm) hl, split_of_unfinished (not_lt.mp hm) hl]
  | case4 l hs hm hl ih => rw [split_of_frame (not_lt.mp hm) (not_lt.mp hl)]; exact ih

/-! ### Writing and reading back -/

theorem length_writeHeader (n : ℕ) : (writeHeader n).length = headerSize := rfl

/-- The header says the length. -/
theorem readHeader_writeHeader {n : ℕ} (h : n < 4294967296) (y : Bytes) :
    readHeader (writeHeader n ++ y) = n := by
  rw [readHeader_append (length_writeHeader n).ge, readHeader,
    List.take_of_length_le (length_writeHeader n).le]
  show (((0 * 256 + (n / 16777216).toUInt8.toNat) * 256 + (n / 65536).toUInt8.toNat) * 256
    + (n / 256).toUInt8.toNat) * 256 + n.toUInt8.toNat = n
  have hb (k : ℕ) : k.toUInt8.toNat = k % 256 := rfl
  simp only [hb]
  omega

/-- A frame that fits is read first. -/
theorem split_encode_append {payload : Bytes} (hm : payload.length ≤ max)
    (h : payload.length < 4294967296) (y : Bytes) :
    split max (encode payload ++ y) =
      ⟨payload :: (split max y).frames, (split max y).oversized, (split max y).rest⟩ := by
  have hr : readHeader (encode payload ++ y) = payload.length := by
    rw [encode, List.append_assoc, readHeader_writeHeader h]
  have hl : (encode payload).length = headerSize + payload.length := by
    rw [encode, List.length_append, length_writeHeader]
  have hd : (encode payload ++ y).drop headerSize = payload ++ y := by
    rw [encode, List.append_assoc, ← length_writeHeader payload.length, List.drop_left]
  rw [split_of_frame (by rwa [hr]) (by rw [hr, List.length_append, hl]; omega), hr, ← hl,
    List.drop_left, hd,
    List.take_left]

/-- **A stream of frames that fit** is read back. -/
theorem split_encode {payloads : List Bytes}
    (h : ∀ p ∈ payloads, p.length ≤ max ∧ p.length < 4294967296) :
    split max (payloads.flatMap encode) = ⟨payloads, false, []⟩ := by
  induction payloads with
  | nil => exact split_of_short (by decide)
  | cons p payloads ih =>
    obtain ⟨hm, hp⟩ := h p List.mem_cons_self
    rw [List.flatMap_cons, split_encode_append hm hp,
      ih fun q hq => h q (List.mem_cons_of_mem p hq)]

/-- A frame that ends early is not read. -/
theorem split_of_length_lt {payload : Bytes} (hm : payload.length ≤ max)
    (h : payload.length < 4294967296) (hx : x ++ y = encode payload ++ l)
    (hlt : x.length < (encode payload).length) : split max x = ⟨[], false, x⟩ := by
  rcases Nat.lt_or_ge x.length headerSize with hs | hs
  · exact split_of_short hs
  · have hr : readHeader x = payload.length := by
      rw [← readHeader_append hs y, hx, encode, List.append_assoc, readHeader_writeHeader h]
    rw [encode, List.length_append, length_writeHeader] at hlt
    exact split_of_unfinished (hr ▸ hm) (hr ▸ hlt)

/-- **From a stream that ends early** the frames that are wholly there are read, and no more:
the first `j` are wholly there if that many bytes are. -/
theorem split_cut {payloads : List Bytes}
    (h : ∀ p ∈ payloads, p.length ≤ max ∧ p.length < 4294967296)
    (hx : x <+: payloads.flatMap encode) :
    ∃ k, (split max x).frames = payloads.take k ∧ (split max x).oversized = false ∧
      ∀ j ≤ payloads.length, ((payloads.take j).flatMap encode).length ≤ x.length ↔ j ≤ k := by
  induction payloads generalizing x with
  | nil =>
    rw [List.flatMap_nil, List.prefix_nil] at hx
    subst hx
    exact ⟨0,
      by
        rw [split_of_short (by decide)]; rfl,
          by rw [split_of_short (by decide)], fun j hj => by simp_all⟩
  | cons p payloads ih =>
    obtain ⟨hm, hp⟩ := h p List.mem_cons_self
    rcases Nat.lt_or_ge x.length (encode p).length with hlt | hge
    · obtain ⟨y, hy⟩ := hx
      have hs := split_of_length_lt hm hp (hy.trans List.flatMap_cons) hlt
      refine ⟨0, by rw [hs]; rfl, by rw [hs], ?_⟩
      intro j _
      cases j with
      | zero => simp
      | succ j =>
        rw [List.take_succ_cons, List.flatMap_cons, List.length_append]
        omega
    · obtain ⟨z, rfl⟩ : encode p <+: x :=
        List.prefix_of_prefix_length_le (List.prefix_append ..) hx hge
      rw [List.flatMap_cons, List.prefix_append_right_inj] at hx
      obtain ⟨k, h1, h2, h3⟩ := ih (fun q hq => h q (List.mem_cons_of_mem p hq)) hx
      refine ⟨k + 1, ?_, ?_, ?_⟩
      · rw [split_encode_append hm hp, h1, List.take_succ_cons]
      · rw [split_encode_append hm hp, h2]
      · intro j hj
        cases j with
        | zero => simp
        | succ j =>
          rw [List.take_succ_cons, List.flatMap_cons, List.length_append, List.length_append,
            Nat.add_le_add_iff_left,
            h3 j (Nat.le_of_succ_le_succ hj), Nat.succ_le_succ_iff]

end ThreadLink.Framing
