import ThreadLink.Lib.Framing

/-!
# The chat server's side of the framing

`src/Protocol.cpp`. `recv_frame` asks the kernel for the bytes it still needs, and asks
again when it gets fewer. `send_frame` offers it the bytes that are left, and offers again
what it has not taken.

## The model

* A socket has the bytes that its peer sends before it shuts down, and what the kernel
  does at the calls of `::recv` to come: a call may be interrupted, fail, or be given a
  limited number of bytes. When that list is at its end, a call gets all it asks for.
* What is in `out` matters only when the status is `Ok`.
* The sending side of a socket has the bytes the kernel has taken, and what the kernel does
  at the calls of `::send` to come. `sendFrame` is `send_frame` of a socket that takes
  everything; `uint32_t` is ℕ, since a payload that passes the first check fits.

## What is proved

* `Socket.recvFrame_cases` — what each status says about the bytes.
* `Socket.recvFrames_spec` — calling `recv_frame` until it does not return `Ok` gives the
  frames the bytes start with.
* `Outlet.sendFrame_eq` — if no call of `::send` fails, `send_frame` writes what it writes to
  a socket that takes everything.
-/

namespace ThreadLink.Backend

open Text Framing

/-- `IoStatus`. -/
inductive IoStatus where
  /-- `Ok`. -/
  | ok
  /-- `ClosedByPeer`. -/
  | closedByPeer
  /-- `Error`. -/
  | error
  /-- `TooLarge`. -/
  | tooLarge
  deriving DecidableEq, Repr

/-- What the kernel does at a call of `::recv` or `::send`. -/
inductive Turn where
  /-- The call fails with `EINTR`; `::send`, with `EAGAIN` or `EWOULDBLOCK` as well. -/
  | interrupted
  /-- It fails otherwise. -/
  | failed
  /-- It gives or takes `n + 1` bytes at most. -/
  | atMost (n : ℕ)
  deriving DecidableEq, Repr

/-- The receiving side of a socket. -/
structure Socket where
  /-- The bytes that have not been received. -/
  bytes : Bytes
  /-- What the kernel does at the next calls. -/
  turns : List Turn
  deriving DecidableEq, Repr

/-- What `::recv` gives. -/
inductive Received where
  /-- Bytes; none if there are no more. -/
  | bytes (l : Bytes)
  /-- `EINTR`. -/
  | interrupted
  /-- Another error. -/
  | failed
  deriving DecidableEq, Repr

namespace Socket

/-- `::recv`. -/
def recv (s : Socket) (len : ℕ) : Received × Socket :=
  match s.turns with
  | [] => (.bytes (s.bytes.take len), ⟨s.bytes.drop len, []⟩)
  | .atMost n :: turns =>
    (.bytes (s.bytes.take (min len (n + 1))), ⟨s.bytes.drop (min len (n + 1)), turns⟩)
  | .interrupted :: turns => (.interrupted, ⟨s.bytes, turns⟩)
  | .failed :: turns => (.failed, ⟨s.bytes, turns⟩)

variable {s s' : Socket} {len max : ℕ} {buf out : Bytes} {status : IoStatus}

/-- What a call takes is the start of the bytes, no more than was asked for, and nothing
only if there is nothing. -/
theorem recv_bytes {l : Bytes} (h : s.recv len = (.bytes l, s')) :
    s.bytes = l ++ s'.bytes ∧ l.length ≤ len ∧ s'.turns <:+ s.turns ∧
    (0 < len → l = [] → s.bytes = []) := by
  unfold recv at h
  split at h
  · rename_i ht
    cases h
    refine ⟨(List.take_append_drop ..).symm, List.length_take_le .., List.nil_suffix, ?_⟩
    intro hl hn
    exact (List.take_eq_nil_iff.mp hn).resolve_left hl.ne'
  · rename_i n turns ht
    cases h
    refine ⟨(List.take_append_drop ..).symm, (List.length_take_le ..).trans (Nat.min_le_left ..),
      by rw [ht]; exact List.suffix_cons .., ?_⟩
    intro hl hn
    exact (List.take_eq_nil_iff.mp hn).resolve_left (by omega)
  · cases h
  · cases h

/-- A call that is interrupted takes nothing. -/
theorem recv_interrupted (h : s.recv len = (.interrupted, s')) :
    s'.bytes = s.bytes ∧ s.turns = .interrupted :: s'.turns := by
  unfold recv at h
  split at h
  · cases h
  · cases h
  · rename_i ht
    cases h
    exact ⟨rfl, ht⟩
  · cases h

theorem recv_failed (h : s.recv len = (.failed, s')) :
    s'.bytes = s.bytes ∧ s.turns = .failed :: s'.turns := by
  unfold recv at h
  split at h
  · cases h
  · cases h
  · cases h
  · rename_i ht
    cases h
    exact ⟨rfl, ht⟩

/-- `recv_exact`, when some bytes are there already. -/
def recvLoop (s : Socket) (buf : Bytes) (len : ℕ) : IoStatus × Bytes × Socket :=
  if buf.length < len then
    match _h : s.recv (len - buf.length) with
    | (.bytes [], s') => (.closedByPeer, buf, s')
    | (.bytes (b :: l), s') => s'.recvLoop (buf ++ b :: l) len
    | (.interrupted, s') => s'.recvLoop buf len
    | (.failed, s') => (.error, buf, s')
  else (.ok, buf, s)
termination_by s.turns.length + (len - buf.length)
decreasing_by
  · have ht := (recv_bytes _h).2.2.1.length_le
    simp only [List.length_append, List.length_cons]
    omega
  · rw [(recv_interrupted _h).2]
    simp only [List.length_cons]
    omega

/-- `recv_exact`. -/
def recvExact (s : Socket) (len : ℕ) : IoStatus × Bytes × Socket := s.recvLoop [] len

/-- `ntohl`, of the four bytes of `len_be`. -/
def ntohl (bytes : Bytes) : ℕ := readHeader bytes

/-- `recv_frame`. -/
def recvFrame (s : Socket) (maxSize : ℕ) : IoStatus × Bytes × Socket :=
  match s.recvExact 4 with
  | (.ok, lenBe, s) =>
    let len := ntohl lenBe
    if maxSize < len then (.tooLarge, [], s)
    else if len = 0 then (.ok, [], s)
    else s.recvExact len
  | (status, _, s) => (status, [], s)

/-! ### What is received -/

/-- What an end of `recv_exact` says: `buf` are the bytes that were there before. -/
structure Reads (s : Socket) (buf : Bytes) (len : ℕ) (status : IoStatus) (out : Bytes)
    (s' : Socket) : Prop where
  /-- Bytes have been received, and the others are still there. -/
  bytes : ∃ l, out = buf ++ l ∧ s.bytes = l ++ s'.bytes
  /-- What the kernel does next is the rest of what it was to do. -/
  turns : s'.turns <:+ s.turns
  /-- `Ok`: there are as many as was asked for. -/
  ok : status = .ok → out.length = len
  /-- `ClosedByPeer`: there are fewer, and no more to come. -/
  closed : status = .closedByPeer → out.length < len ∧ s'.bytes = []
  /-- `Error`: a call has failed. -/
  failed : status = .error → .failed ∈ s.turns
  /-- `TooLarge` is not for `recv_exact`. -/
  fits : status ≠ .tooLarge

theorem recvLoop_reads (h : s.recvLoop buf len = (status, out, s')) (hb : buf.length ≤ len) :
    Reads s buf len status out s' := by
  induction s, buf using recvLoop.induct len with
  | case1 s buf hl s₁ hr =>
    rw [recvLoop, if_pos hl, hr] at h
    cases h
    obtain ⟨h1, -, h3, h4⟩ := recv_bytes hr
    have hnil : s.bytes = [] := h4 (by omega) rfl
    exact ⟨⟨[], (List.append_nil _).symm, h1⟩, h3, nofun,
      fun _ => ⟨hl, by rw [← h1.trans (List.nil_append _)]; exact hnil⟩,
      nofun, nofun⟩
  | case2 s buf hl b l s₁ hr ih =>
    rw [recvLoop, if_pos hl, hr] at h
    obtain ⟨h1, h2, h3, -⟩ := recv_bytes hr
    have hlen : (buf ++ b :: l).length ≤ len := by rw [List.length_append]; omega
    obtain ⟨⟨l', ho, hs⟩, ht, hok, hc, hf, hfit⟩ := ih h hlen
    refine ⟨⟨b :: l ++ l', by rw [ho, List.append_assoc], by rw [h1, hs, List.append_assoc]⟩,
      ht.trans h3, hok, hc,
      fun he => h3.subset (hf he), hfit⟩
  | case3 s buf hl s₁ hr ih =>
    rw [recvLoop, if_pos hl, hr] at h
    obtain ⟨h1, h2⟩ := recv_interrupted hr
    obtain ⟨hbytes, ht, hok, hc, hf, hfit⟩ := ih h hb
    have hsuf : s₁.turns <:+ s.turns := by rw [h2]; exact List.suffix_cons ..
    exact ⟨h1 ▸ hbytes, ht.trans hsuf, hok, hc, fun he => hsuf.subset (hf he), hfit⟩
  | case4 s buf hl s₁ hr =>
    rw [recvLoop, if_pos hl, hr] at h
    cases h
    obtain ⟨h1, h2⟩ := recv_failed hr
    exact ⟨⟨[], (List.append_nil _).symm, h1.symm⟩,
      by rw [h2]; exact List.suffix_cons .., nofun, nofun,
      fun _ => by rw [h2]; exact List.mem_cons_self, nofun⟩
  | case5 s buf hl =>
    rw [recvLoop, if_neg hl] at h
    cases h
    exact ⟨⟨[], (List.append_nil _).symm, rfl⟩, List.suffix_rfl,
      fun _ => by omega, nofun, nofun, nofun⟩

/-- What the statuses of `recv_frame` say about the bytes. -/
inductive ReadsFrame (s : Socket) (max : ℕ) : IoStatus → Bytes → Socket → Prop where
  /-- The bytes start with a frame. -/
  | ok {out : Bytes} {s' : Socket} (hr : readHeader s.bytes = out.length) (hm : out.length ≤ max)
    (hb : ∃ header, header.length = headerSize ∧ s.bytes = header ++ (out ++ s'.bytes))
      (ht : s'.turns <:+ s.turns) :
    ReadsFrame s max .ok out s'
  /-- They start with the header of a frame that is too large. -/
  | tooLarge {out : Bytes} {s' : Socket} (hb : headerSize ≤ s.bytes.length)
      (hm : max < readHeader s.bytes) :
    ReadsFrame s max .tooLarge out s'
  /-- They end too early. -/
  | closed {out : Bytes} {s' : Socket}
    (hb : s.bytes.length < headerSize ∨ readHeader s.bytes ≤ max ∧
      s.bytes.length < headerSize + readHeader s.bytes) :
    ReadsFrame s max .closedByPeer out s'
  /-- A call has failed. -/
  | error {out : Bytes} {s' : Socket} (hf : .failed ∈ s.turns) : ReadsFrame s max .error out s'

/-- **What `recv_frame` does.** -/
theorem recvFrame_cases (h : s.recvFrame max = (status, out, s')) :
    ReadsFrame s max status out s' := by
  unfold recvFrame at h
  split at h
  · rename_i lenBe s₁ hh
    obtain ⟨⟨l, hl, hs⟩, ht, hok, -, -, -⟩ := recvLoop_reads hh (Nat.zero_le _)
    rw [List.nil_append] at hl
    subst hl
    have hlen : lenBe.length = headerSize := hok rfl
    have hhead : readHeader s.bytes = ntohl lenBe := by rw [hs, readHeader_append hlen.ge]; rfl
    dsimp only at h
    split_ifs at h with hm h0
    · cases h
      exact .tooLarge (by rw [hs, List.length_append]; omega) (by rwa [hhead])
    · cases h
      exact .ok (by rw [hhead, h0]; rfl) (Nat.zero_le _) ⟨lenBe, hlen, hs⟩ ht
    · obtain ⟨⟨l, ho, hs'⟩, ht', hok', hc', hf', hfit'⟩ := recvLoop_reads h (Nat.zero_le _)
      rw [List.nil_append] at ho
      subst ho
      cases status with
      | ok =>
        have hout : out.length = ntohl lenBe := hok' rfl
        exact .ok (by rw [hhead, hout]) (by rw [hout]; exact not_lt.mp hm)
          ⟨lenBe, hlen, by rw [hs, hs']⟩ (ht'.trans ht)
      | closedByPeer =>
        obtain ⟨hlt, hnil⟩ := hc' rfl
        refine .closed (.inr ⟨by rw [hhead]; exact not_lt.mp hm, ?_⟩)
        rw [hhead, hs, hs', hnil, List.append_nil, List.length_append, hlen]
        exact Nat.add_lt_add_left hlt _
      | error => exact .error (ht.subset (hf' rfl))
      | tooLarge => exact absurd rfl hfit'
  · rename_i st buf s₁ hne hh
    cases h
    obtain ⟨⟨l, ho, hs⟩, ht, hok, hc, hf, hfit⟩ := recvLoop_reads hh (Nat.zero_le _)
    cases status with
    | ok => exact (hne rfl).elim
    | closedByPeer =>
      obtain ⟨hlt, hnil⟩ := hc rfl
      refine .closed (.inl ?_)
      rw [hs, hnil, List.append_nil]
      rw [List.nil_append] at ho
      exact ho ▸ hlt
    | error => exact .error (hf rfl)
    | tooLarge => exact absurd rfl hfit

/-- A frame takes its header at least. -/
theorem ReadsFrame.length_lt (h : ReadsFrame s max .ok out s') :
    s'.bytes.length < s.bytes.length := by
  cases h with
  | ok hr hm hb ht =>
    obtain ⟨header, hh, hs⟩ := hb
    rw [hs, List.length_append, List.length_append, hh]
    exact Nat.lt_of_lt_of_le (Nat.lt_add_of_pos_left (by decide))
      (Nat.add_le_add_left (Nat.le_add_left ..) _)

/-- Call `recv_frame` until it does not return `Ok`: the payloads, and what it returns then. -/
def recvFrames (s : Socket) (maxSize : ℕ) : List Bytes × IoStatus :=
  match h : s.recvFrame maxSize with
  | (.ok, out, s') =>
    have : s'.bytes.length < s.bytes.length := (recvFrame_cases h).length_lt
    let r := s'.recvFrames maxSize
    (out :: r.1, r.2)
  | (status, _, _) => ([], status)
termination_by s.bytes.length

/-- **The frames of a stream**: if no call fails, they are those the bytes start with, and
the loop ends for a frame that is too large or for want of bytes. -/
theorem recvFrames_spec (hf : .failed ∉ s.turns) :
    s.recvFrames max =
      ((split max s.bytes).frames, if (split max s.bytes).oversized then .tooLarge
        else .closedByPeer) := by
  generalize hn : s.bytes.length = n
  induction n using Nat.strong_induction_on generalizing s with
  | _ n ih =>
    rw [recvFrames]
    split
    · rename_i out s' h
      have hc := recvFrame_cases h
      have hlt := hc.length_lt
      cases hc with
      | ok hr hm hb ht =>
        have hrec := ih _ (hn ▸ hlt) (fun hmem => hf (ht.subset hmem)) rfl
        obtain ⟨header, hh, hs⟩ := hb
        have hd : s.bytes.drop headerSize = out ++ s'.bytes := by rw [hs, ← hh, List.drop_left]
        have hd' : s.bytes.drop (headerSize + readHeader s.bytes) = s'.bytes := by
          rw [← List.drop_drop, hd, hr, List.drop_left]
        have hsplit := @split_of_frame max s.bytes (by rwa [hr])
          (by rw [hr, hs, List.length_append, List.length_append, hh]; omega)
        rw [hsplit, hrec, hd, hd', hr, List.take_left]
    · rename_i status out s' hne h
      have hc := recvFrame_cases h
      cases hc with
      | ok => exact (hne rfl).elim
      | tooLarge hb hm => rw [split_of_oversized hb hm]; rfl
      | closed hb =>
        rcases hb with hb | ⟨hm, hb⟩
        · rw [split_of_short hb]; rfl
        · rw [split_of_unfinished hm hb]; rfl
      | error he => exact absurd he hf

end Socket

/-! ### What is sent -/

/-- `send_frame`: the status, and the bytes it writes. -/
def sendFrame (payload : Bytes) (maxSize : ℕ) : IoStatus × Bytes :=
  if maxSize < payload.length then (.tooLarge, []) else (.ok, writeHeader payload.length ++ payload)

/-- The sending side of a socket. -/
structure Outlet where
  /-- The bytes that have been taken. -/
  written : Bytes
  /-- What the kernel does at the next calls. -/
  turns : List Turn
  deriving DecidableEq, Repr

/-- What `::send` gives. -/
inductive Taken where
  /-- The number of bytes it has taken. -/
  | bytes (n : ℕ)
  /-- `EINTR`, `EAGAIN` or `EWOULDBLOCK`. -/
  | interrupted
  /-- Another error. -/
  | failed
  deriving DecidableEq, Repr

namespace Outlet

/-- `::send`. -/
def send (s : Outlet) (buf : Bytes) : Taken × Outlet :=
  match s.turns with
  | [] => (.bytes buf.length, ⟨s.written ++ buf, []⟩)
  | .atMost n :: turns => (.bytes (min buf.length (n + 1)), ⟨s.written ++ buf.take (n + 1), turns⟩)
  | .interrupted :: turns => (.interrupted, ⟨s.written, turns⟩)
  | .failed :: turns => (.failed, ⟨s.written, turns⟩)

variable {s s' : Outlet} {buf payload : Bytes} {n total maxSize : ℕ} {status : IoStatus}

/-- What a call takes is the start of what it is offered, and something if there is any. -/
theorem send_bytes (h : s.send buf = (.bytes n, s')) :
    s'.written = s.written ++ buf.take n ∧ n ≤ buf.length ∧ s'.turns <:+ s.turns ∧
    (buf ≠ [] → 0 < n) := by
  unfold send at h
  split at h
  · rename_i ht
    cases h
    exact ⟨by rw [List.take_length], le_rfl, List.nil_suffix, List.length_pos_iff.mpr⟩
  · rename_i k turns ht
    cases h
    refine ⟨?_, Nat.min_le_left .., by rw [ht]; exact List.suffix_cons .., ?_⟩
    · rw [Nat.min_comm, ← List.take_eq_take_min]
    · intro hne
      have := List.length_pos_iff.mpr hne
      omega
  · cases h
  · cases h

/-- A call that is interrupted takes nothing. -/
theorem send_interrupted (h : s.send buf = (.interrupted, s')) :
    s'.written = s.written ∧ s.turns = .interrupted :: s'.turns := by
  unfold send at h
  split at h
  · cases h
  · cases h
  · rename_i ht
    cases h
    exact ⟨rfl, ht⟩
  · cases h

theorem send_failed (h : s.send buf = (.failed, s')) : .failed ∈ s.turns := by
  unfold send at h
  split at h
  · cases h
  · cases h
  · cases h
  · rename_i ht
    rw [ht]
    exact List.mem_cons_self

/-- `send_all`, when `total` bytes have been sent already. -/
def sendLoop (s : Outlet) (buf : Bytes) (total : ℕ) : IoStatus × Outlet :=
  if total < buf.length then
    match _h : s.send (buf.drop total) with
    | (.bytes 0, s') => (.error, s')
    | (.bytes (n + 1), s') => s'.sendLoop buf (total + (n + 1))
    | (.interrupted, s') => s'.sendLoop buf total
    | (.failed, s') => (.error, s')
  else (.ok, s)
termination_by s.turns.length + (buf.length - total)
decreasing_by
  · have ht := (send_bytes _h).2.2.1.length_le
    omega
  · rw [(send_interrupted _h).2]
    simp only [List.length_cons]
    omega

/-- `send_all`. -/
def sendAll (s : Outlet) (buf : Bytes) : IoStatus × Outlet := s.sendLoop buf 0

/-- `send_frame`. -/
def sendFrame (s : Outlet) (payload : Bytes) (maxSize : ℕ) : IoStatus × Outlet :=
  if maxSize < payload.length then (.tooLarge, s)
  else
    match s.sendAll (writeHeader payload.length) with
    | (.ok, s) => if payload.isEmpty then (.ok, s) else s.sendAll payload
    | (status, s) => (status, s)

/-- Call `send_frame` for each payload: what it returns, and the bytes. -/
def sendFrames (s : Outlet) (maxSize : ℕ) : List Bytes → List IoStatus × Outlet
  | [] => ([], s)
  | payload :: payloads =>
    let r := s.sendFrame payload maxSize
    let rs := r.2.sendFrames maxSize payloads
    (r.1 :: rs.1, rs.2)

/-- A step of a socket that takes everything. -/
structure Takes (s : Outlet) (l : Bytes) (s' : Outlet) : Prop where
  /-- The bytes are taken, in order. -/
  written : s'.written = s.written ++ l
  /-- What the kernel does next is the rest of what it was to do. -/
  turns : s'.turns <:+ s.turns

theorem Takes.trans {s'' : Outlet} {l l' : Bytes} (h : Takes s l s') (h' : Takes s' l' s'') :
    Takes s (l ++ l') s'' :=
  ⟨by rw [h'.written, h.written, List.append_assoc], h'.turns.trans h.turns⟩

/-- **`send_all` sends what is left**, if no call fails. -/
theorem sendLoop_takes (hf : .failed ∉ s.turns) (buf : Bytes) (total : ℕ) :
    (s.sendLoop buf total).1 = .ok ∧ Takes s (buf.drop total) (s.sendLoop buf total).2 := by
  induction s, total using sendLoop.induct buf with
  | case1 s total hl s₁ hr =>
    have := (send_bytes hr).2.2.2 (fun hn => by rw [List.drop_eq_nil_iff] at hn; omega)
    exact absurd this (lt_irrefl 0)
  | case2 s total hl n s₁ hr ih =>
    obtain ⟨h1, h2, h3, -⟩ := send_bytes hr
    obtain ⟨hok, ht⟩ := ih fun hm => hf (h3.subset hm)
    rw [sendLoop, if_pos hl, hr]
    refine ⟨hok, ?_⟩
    have htake : Takes s ((buf.drop total).take (n + 1)) s₁ := ⟨h1, h3⟩
    have := htake.trans ht
    rwa [← List.drop_drop, List.take_append_drop] at this
  | case3 s total hl s₁ hr ih =>
    obtain ⟨h1, h2⟩ := send_interrupted hr
    have hsuf : s₁.turns <:+ s.turns := by rw [h2]; exact List.suffix_cons ..
    obtain ⟨hok, ht⟩ := ih fun hm => hf (hsuf.subset hm)
    rw [sendLoop, if_pos hl, hr]
    exact ⟨hok, by rw [← h1]; exact ht.written, ht.turns.trans hsuf⟩
  | case4 s total hl s₁ hr => exact absurd (send_failed hr) hf
  | case5 s total hl =>
    rw [sendLoop, if_neg hl, List.drop_eq_nil_iff.mpr (not_lt.mp hl)]
    exact ⟨rfl, (List.append_nil _).symm, List.suffix_rfl⟩

/-- **`send_frame` does not depend on how the kernel takes the bytes**, if no call fails. -/
theorem sendFrame_eq (hf : .failed ∉ s.turns) (payload : Bytes) (maxSize : ℕ) :
    (s.sendFrame payload maxSize).1 = (Backend.sendFrame payload maxSize).1 ∧
      Takes s (Backend.sendFrame payload maxSize).2 (s.sendFrame payload maxSize).2 := by
  unfold sendFrame Backend.sendFrame
  by_cases hm : maxSize < payload.length
  · rw [if_pos hm, if_pos hm]
    exact ⟨rfl, (List.append_nil _).symm, List.suffix_rfl⟩
  · rw [if_neg hm, if_neg hm]
    have hh := sendLoop_takes hf (writeHeader payload.length) 0
    rw [← sendAll] at hh
    generalize s.sendAll (writeHeader payload.length) = r at hh
    obtain ⟨status, s₁⟩ := r
    obtain ⟨rfl, ht⟩ := hh
    rw [List.drop_zero] at ht
    dsimp only
    split_ifs with he
    · rw [List.isEmpty_iff.mp he] at ht ⊢
      exact ⟨rfl, by rwa [List.append_nil]⟩
    · obtain ⟨hok, ht'⟩ := sendLoop_takes (fun hm => hf (ht.turns.subset hm)) payload 0
      exact ⟨hok, ht.trans ht'⟩

theorem sendFrames_takes (hf : .failed ∉ s.turns) {payloads : List Bytes}
    (hm : ∀ p ∈ payloads, p.length ≤ maxSize) :
    (s.sendFrames maxSize payloads).1 = payloads.map (fun _ => .ok) ∧
      Takes s (payloads.flatMap encode) (s.sendFrames maxSize payloads).2 := by
  induction payloads generalizing s with
  | nil => exact ⟨rfl, (List.append_nil _).symm, List.suffix_rfl⟩
  | cons p payloads ih =>
    obtain ⟨hok, ht⟩ := sendFrame_eq hf p maxSize
    rw [Backend.sendFrame, if_neg (not_lt.mpr (hm p (.head _)))] at hok ht
    obtain ⟨hoks, hts⟩ := ih (fun hmem => hf (ht.turns.subset hmem)) fun q hq => hm q (.tail _ hq)
    refine ⟨?_, ?_⟩
    · show (s.sendFrame p maxSize).1 :: _ = _
      rw [hok, hoks]
      rfl
    · rw [List.flatMap_cons]
      exact ht.trans hts

end Outlet

end ThreadLink.Backend
