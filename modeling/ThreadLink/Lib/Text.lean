import Mathlib.Data.List.Basic
import Mathlib.Data.List.DropRight
import Mathlib.Data.Nat.Notation

/-!
# Texts in code units and in bytes

A program that holds a text as a list of UTF-16 code units and one that holds it
as a list of bytes exchange it as UTF-8. The units need not be well formed: a
surrogate without its other half is encoded as U+FFFD. Nor need the bytes be
UTF-8: each maximal subpart of an ill-formed sequence is decoded as U+FFFD. Both
directions go through the list of characters.

## What is proved

* `ofChars_toChars_iff` — units survive the way through characters exactly when
  every surrogate in them is paired.
* `decodeChars_encodeChars` — decoding undoes the encoding of characters, so
  `utf8Decode_utf8Encode_iff`: a text survives the round trip exactly when it is
  well formed.
* `utf8Decode_ascii_append` — an ASCII prefix is decoded byte by byte.
* `length_utf8Encode` — how many bytes a text is encoded in, counted over its code units.
* `head?_of_utf8Encode`, `getLast?_of_utf8Encode` — an ASCII byte at the front or at the end
  of an encoding is a code unit of the text.
* `fromHex_toHex` — bytes survive the way through hexadecimal.
* `splitFirst_append` — splitting at the first separator.
-/

namespace ThreadLink.Text

/-- A string of UTF-16 code units. -/
abbrev Units := List UInt16

/-- A string of bytes. -/
abbrev Bytes := List UInt8

/-- What holds of all units of a text is decided one by one, not by going through all there are. -/
instance (priority := 1100) decidableForallMem {α : Type} (p : α → Prop) [DecidablePred p]
    (l : List α) :
    Decidable (∀ a ∈ l, p a) :=
  List.decidableBAll p l

instance (priority := 1100) decidableForallMemOption {α : Type} (p : α → Prop) [DecidablePred p]
    (o : Option α) :
    Decidable (∀ a ∈ o, p a) :=
  Option.decidableForallMem o

/-- An ASCII literal in code units. -/
def units (s : String) : Units := s.toList.map fun c => c.toNat.toUInt16

/-- An ASCII literal in bytes. -/
def bytes (s : String) : Bytes := s.toList.map fun c => c.toNat.toUInt8

/-! ### Splitting -/

section Split

variable {α : Type*} [DecidableEq α]

/-- What stands before the first `sep`, and what stands after it; everything and
nothing if there is none. -/
def splitFirst (sep : α) (l : List α) : List α × List α :=
  (l.takeWhile (· ≠ sep), (l.dropWhile (· ≠ sep)).tail)

theorem splitFirst_append {sep : α} {w : List α} (hw : sep ∉ w) (r : List α) :
    splitFirst sep (w ++ sep :: r) = (w, r) := by
  have hall : ∀ a ∈ w, decide (a ≠ sep) = true := fun a ha => by
    simpa using ne_of_mem_of_not_mem ha hw
  simp only [splitFirst]
  rw [List.takeWhile_append_of_pos hall, List.dropWhile_append_of_pos hall]
  simp

theorem splitFirst_of_notMem {sep : α} {w : List α} (hw : sep ∉ w) :
    splitFirst sep w = (w, []) := by
  have hall : ∀ a ∈ w, decide (a ≠ sep) = true := fun a ha => by
    simpa using ne_of_mem_of_not_mem ha hw
  simp only [splitFirst, List.takeWhile_eq_self_iff.mpr hall, List.dropWhile_eq_nil_iff.mpr hall,
    List.tail_nil]

end Split

/-! ### Code units and characters -/

/-- The first half of a surrogate pair. -/
def isHigh (u : UInt16) : Bool := 0xD800 ≤ u.toNat && u.toNat < 0xDC00

/-- The second half of a surrogate pair. -/
def isLow (u : UInt16) : Bool := 0xDC00 ≤ u.toNat && u.toNat < 0xE000

/-- What stands for a surrogate without its other half, and for bytes that are not UTF-8. -/
def replacement : Char := '\uFFFD'

/-- The character of a surrogate pair. -/
def joinPair (h l : UInt16) : Char :=
  Char.ofNat (0x10000 + (h.toNat - 0xD800) * 0x400 + (l.toNat - 0xDC00))

/-- The characters of a string of code units. -/
def toChars : Units → List Char
  | [] => []
  | [u] => if isHigh u || isLow u then [replacement] else [Char.ofNat u.toNat]
  | u :: v :: rest =>
    if isHigh u then
      if isLow v then joinPair u v :: toChars rest else replacement :: toChars (v :: rest)
    else if isLow u then replacement :: toChars (v :: rest)
    else Char.ofNat u.toNat :: toChars (v :: rest)

/-- The code units of a character. -/
def ofChar (c : Char) : Units :=
  if c.toNat < 0x10000 then [c.toNat.toUInt16]
  else [(0xD800 + (c.toNat - 0x10000) / 0x400).toUInt16,
    (0xDC00 + (c.toNat - 0x10000) % 0x400).toUInt16]

/-- The code units of a list of characters. -/
def ofChars (cs : List Char) : Units := cs.flatMap ofChar

/-- Every surrogate is half of a pair. -/
def isWellFormed : Units → Bool
  | [] => true
  | [u] => !(isHigh u || isLow u)
  | u :: v :: rest =>
    if isHigh u then isLow v && isWellFormed rest
    else !isLow u && isWellFormed (v :: rest)

theorem toNat_ofNat_of_lt {n : ℕ} (h : n < 0xD800) : (Char.ofNat n).toNat = n := by
  rw [Char.ofNat, dif_pos (Or.inl h)]
  rfl

theorem toNat_ofNat_of_gt {n : ℕ} (h : 0xDFFF < n) (h' : n < 0x110000) :
    (Char.ofNat n).toNat = n := by
  rw [Char.ofNat, dif_pos (Or.inr ⟨h, h'⟩)]
  rfl

/-- A unit that is no surrogate is the number of a character. -/
theorem toNat_ofNat_unit {u : UInt16} (hh : isHigh u = false) (hl : isLow u = false) :
    (Char.ofNat u.toNat).toNat = u.toNat := by
  have hu : u.toNat < 0x10000 := u.toNat_lt
  simp only [isHigh, isLow, Bool.and_eq_false_iff, decide_eq_false_iff_not] at hh hl
  rcases Nat.lt_or_ge u.toNat 0xD800 with h | h
  · exact toNat_ofNat_of_lt h
  · exact toNat_ofNat_of_gt (by omega) (by omega)

/-- A unit that is no surrogate is its character's only unit. -/
theorem ofChar_unit {u : UInt16} (hh : isHigh u = false) (hl : isLow u = false) :
    ofChar (Char.ofNat u.toNat) = [u] := by
  have hu : u.toNat < 0x10000 := u.toNat_lt
  rw [ofChar, toNat_ofNat_unit hh hl, if_pos hu]
  simp

/-- The number of the character of a surrogate pair. -/
theorem number_joinPair {h l : UInt16} (hh : isHigh h = true) (hl : isLow l = true) :
    (joinPair h l).toNat = 0x10000 + (h.toNat - 0xD800) * 0x400 + (l.toNat - 0xDC00) := by
  simp only [isHigh, isLow, Bool.and_eq_true, decide_eq_true_eq] at hh hl
  apply toNat_ofNat_of_gt
  · omega
  · omega

/-- A surrogate pair is the units of its character. -/
theorem ofChar_joinPair {h l : UInt16} (hh : isHigh h = true) (hl : isLow l = true) :
    ofChar (joinPair h l) = [h, l] := by
  have hn := number_joinPair hh hl
  simp only [isHigh, isLow, Bool.and_eq_true, decide_eq_true_eq] at hh hl
  rw [ofChar, hn, if_neg (by omega)]
  have h1 : 0xD800 + (0x10000 + (h.toNat - 0xD800) * 0x400 + (l.toNat - 0xDC00) - 0x10000) / 0x400 =
      h.toNat := by
    omega
  have h2 : 0xDC00 + (0x10000 + (h.toNat - 0xD800) * 0x400 + (l.toNat - 0xDC00) - 0x10000) % 0x400 =
      l.toNat := by
    omega
  rw [h1, h2]
  simp

/-- Units all of whose surrogates are paired survive. -/
theorem ofChars_toChars {s : Units} (h : isWellFormed s = true) : ofChars (toChars s) = s := by
  induction s using toChars.induct with
  | case1 => rfl
  | case2 u hu => simp_all [isWellFormed]
  | case3 u hu =>
    simp only [Bool.or_eq_true, not_or, Bool.not_eq_true] at hu
    simp [toChars, hu, ofChars, ofChar_unit]
  | case4 u v rest hu hv ih =>
    simp only [isWellFormed, hu, hv, if_true, Bool.true_and] at h
    simp only [toChars, hu, hv, if_true, ofChars, List.flatMap_cons, ofChar_joinPair]
    rw [← ofChars, ih h]
    rfl
  | case5 u v rest hu hv ih => simp [isWellFormed, hu, hv] at h
  | case6 u v rest hu hv ih => simp [isWellFormed, hu, hv] at h
  | case7 u v rest hu hv ih =>
    simp only [Bool.not_eq_true] at hu hv
    simp only [isWellFormed, hu, hv, Bool.not_false, Bool.true_and, Bool.false_eq_true,
      if_false] at h
    simp only [toChars, hu, hv, Bool.false_eq_true, if_false, ofChars, List.flatMap_cons,
      ofChar_unit]
    rw [← ofChars, ih h]
    rfl

/-- The units of a character are well formed, whatever follows. -/
theorem isWellFormed_ofChar_append (c : Char) (s : Units) :
    isWellFormed (ofChar c ++ s) = isWellFormed s := by
  have hv := c.valid
  have hc : c.toNat < 0xD800 ∨ 0xDFFF < c.toNat ∧ c.toNat < 0x110000 := hv
  unfold ofChar
  split_ifs with h
  · have hn : c.toNat.toUInt16.toNat = c.toNat := by simp; omega
    have hh : isHigh c.toNat.toUInt16 = false := by simp only [isHigh, hn]; grind
    have hl : isLow c.toNat.toUInt16 = false := by simp only [isLow, hn]; grind
    cases s with
    | nil => simp [isWellFormed, hh, hl]
    | cons v rest => simp [isWellFormed, hh, hl]
  · have h1 : (0xD800 + (c.toNat - 0x10000) / 0x400).toUInt16.toNat =
        0xD800 + (c.toNat - 0x10000) / 0x400 := by
      simp; omega
    have h2 : (0xDC00 + (c.toNat - 0x10000) % 0x400).toUInt16.toNat =
        0xDC00 + (c.toNat - 0x10000) % 0x400 := by
      simp; omega
    have hh : isHigh (0xD800 + (c.toNat - 0x10000) / 0x400).toUInt16 = true := by
      simp only [isHigh, h1, Bool.and_eq_true, decide_eq_true_eq]; omega
    have hl : isLow (0xDC00 + (c.toNat - 0x10000) % 0x400).toUInt16 = true := by
      simp only [isLow, h2, Bool.and_eq_true, decide_eq_true_eq]; omega
    simp only [List.cons_append, List.nil_append, isWellFormed, hh, hl, if_true, Bool.true_and]

theorem isWellFormed_ofChars (cs : List Char) : isWellFormed (ofChars cs) = true := by
  induction cs with
  | nil => rfl
  | cons c cs ih => rw [ofChars, List.flatMap_cons, isWellFormed_ofChar_append]; exact ih

/-- **Units survive the way through characters exactly when they are well formed.** -/
theorem ofChars_toChars_iff (s : Units) : ofChars (toChars s) = s ↔ isWellFormed s = true :=
  ⟨fun h => h ▸ isWellFormed_ofChars _, ofChars_toChars⟩

/-! ### Characters and bytes -/

/-- The bytes of a list of characters. -/
def encodeChars (cs : List Char) : Bytes := cs.flatMap String.utf8EncodeChar

/-- The character whose encoding the bytes start with, if there is one. -/
def firstChar? (l : Bytes) : Option Char := (l.take 4).toByteArray.utf8DecodeChar? 0

/-- Whether `b` may continue a character that starts with `a`: the second byte of a
sequence is restricted after some first bytes, to rule out overlong forms,
surrogates and values past U+10FFFF. -/
def continues (a b : UInt8) : Bool :=
  if a = 0xE0 then 0xA0 ≤ b && b ≤ 0xBF
  else if a = 0xED then 0x80 ≤ b && b ≤ 0x9F
  else if a = 0xF0 then 0x90 ≤ b && b ≤ 0xBF
  else if a = 0xF4 then 0x80 ≤ b && b ≤ 0x8F
  else 0x80 ≤ b && b ≤ 0xBF

/-- The length of the maximal subpart at the front of bytes that start with no
character: how many bytes one U+FFFD stands for. -/
def subpartLength : Bytes → ℕ
  | a :: b :: c :: _ =>
    if 0xE0 ≤ a && a ≤ 0xF4 && continues a b then
      if 0xF0 ≤ a && 0x80 ≤ c && c ≤ 0xBF then 3 else 2
    else 1
  | [a, b] => if 0xE0 ≤ a && a ≤ 0xF4 && continues a b then 2 else 1
  | _ => 1

/-- Decode, with the number of bytes as fuel. -/
def decodeFuel : ℕ → Bytes → List Char
  | 0, _ => []
  | _ + 1, [] => []
  | n + 1, b :: l =>
    match firstChar? (b :: l) with
    | some c => c :: decodeFuel n ((b :: l).drop c.utf8Size)
    | none => replacement :: decodeFuel n ((b :: l).drop (subpartLength (b :: l)))

/-- The characters of a string of bytes. -/
def decodeChars (l : Bytes) : List Char := decodeFuel l.length l

theorem subpartLength_pos (l : Bytes) : 0 < subpartLength l := by
  unfold subpartLength
  split
  · split_ifs <;> decide
  · split_ifs <;> decide
  · decide

/-- More fuel than bytes changes nothing. -/
theorem decodeFuel_eq {n m : ℕ} {l : Bytes} (hn : l.length ≤ n) (hm : l.length ≤ m) :
    decodeFuel n l = decodeFuel m l := by
  induction n generalizing m l with
  | zero =>
    have hl : l = [] := List.eq_nil_of_length_eq_zero (by omega)
    subst hl
    cases m <;> rfl
  | succ n ih =>
    cases l with
    | nil => cases m <;> rfl
    | cons b l =>
      obtain ⟨m, rfl⟩ : ∃ k, m = k + 1 := ⟨m - 1, by simp at hm; omega⟩
      simp only [List.length_cons] at hn hm
      simp only [decodeFuel]
      split
      · rename_i c _
        have hc : 0 < c.utf8Size := c.utf8Size_pos
        rw [ih] <;> simp <;> omega
      · have hs : 0 < subpartLength (b :: l) := subpartLength_pos _
        rw [ih] <;> simp <;> omega

/-- The bytes of a character are decoded as it. -/
theorem firstChar?_encode (c : Char) (l : Bytes) :
    firstChar? (String.utf8EncodeChar c ++ l) = some c := by
  have hc : (String.utf8EncodeChar c).length ≤ 4 := by
    rw [String.length_utf8EncodeChar]; exact c.utf8Size_le_four
  rw [firstChar?, List.take_append, List.take_of_length_le hc, List.toByteArray_append]
  exact ByteArray.utf8DecodeChar?_utf8EncodeChar_append

theorem decodeChars_encode_append (c : Char) (l : Bytes) :
    decodeChars (String.utf8EncodeChar c ++ l) = c :: decodeChars l := by
  have hlen : (String.utf8EncodeChar c).length = c.utf8Size := String.length_utf8EncodeChar c
  have hpos : 0 < c.utf8Size := c.utf8Size_pos
  obtain ⟨b, r, hb⟩ : ∃ b r, String.utf8EncodeChar c = b :: r := by
    cases h : String.utf8EncodeChar c with
    | nil => simp [h] at hlen; omega
    | cons b r => exact ⟨b, r, rfl⟩
  have hf := firstChar?_encode c l
  have hd : (String.utf8EncodeChar c ++ l).drop c.utf8Size = l := by
    rw [← hlen, List.drop_left]
  rw [hb, List.cons_append] at hf hd
  rw [hb, List.length_cons] at hlen
  rw [decodeChars, hb, List.cons_append, List.length_cons, decodeFuel]
  simp only [hf, hd]
  congr 1
  exact decodeFuel_eq (by simp) le_rfl

/-- **Decoding undoes the encoding**, and goes on with what follows. -/
theorem decodeChars_encodeChars_append (cs : List Char) (l : Bytes) :
    decodeChars (encodeChars cs ++ l) = cs ++ decodeChars l := by
  induction cs with
  | nil => rfl
  | cons c cs ih =>
    rw [encodeChars, List.flatMap_cons, List.append_assoc, decodeChars_encode_append,
      ← encodeChars, ih]
    rfl

theorem decodeChars_encodeChars (cs : List Char) : decodeChars (encodeChars cs) = cs := by
  simpa [decodeChars, decodeFuel] using decodeChars_encodeChars_append cs []

/-! ### Code units and bytes -/

/-- A string of code units, encoded as UTF-8. -/
def utf8Encode (s : Units) : Bytes := encodeChars (toChars s)

/-- A string of bytes, decoded as UTF-8. -/
def utf8Decode (l : Bytes) : Units := ofChars (decodeChars l)

/-- **A text survives the round trip exactly when it is well formed.** -/
theorem utf8Decode_utf8Encode_iff (s : Units) :
    utf8Decode (utf8Encode s) = s ↔ isWellFormed s = true := by
  rw [utf8Decode, utf8Encode, decodeChars_encodeChars, ofChars_toChars_iff]

/-- An ASCII byte. -/
def IsAscii (b : UInt8) : Prop := b.toNat < 0x80

instance (b : UInt8) : Decidable (IsAscii b) := inferInstanceAs (Decidable (_ < _))

theorem utf8EncodeChar_of_lt {n : ℕ} (h : n < 0x80) :
    String.utf8EncodeChar (Char.ofNat n) = [n.toUInt8] := by
  have hn : (Char.ofNat n).toNat = n := toNat_ofNat_of_lt (by omega)
  have hv : (Char.ofNat n).val.toNat = n := hn
  simp only [String.utf8EncodeChar, hv]
  rw [if_pos (by omega)]

theorem decodeChars_ascii_cons {b : UInt8} (h : IsAscii b) (l : Bytes) :
    decodeChars (b :: l) = Char.ofNat b.toNat :: decodeChars l := by
  have hb : String.utf8EncodeChar (Char.ofNat b.toNat) = [b] := by
    rw [utf8EncodeChar_of_lt h]; simp
  simpa [hb] using decodeChars_encode_append (Char.ofNat b.toNat) l

theorem ofChar_of_lt {n : ℕ} (h : n < 0x80) : ofChar (Char.ofNat n) = [n.toUInt16] := by
  have hn : (Char.ofNat n).toNat = n := toNat_ofNat_of_lt (by omega)
  rw [ofChar, hn, if_pos (by omega)]

theorem utf8Decode_ascii_cons {b : UInt8} (h : IsAscii b) (l : Bytes) :
    utf8Decode (b :: l) = b.toUInt16 :: utf8Decode l := by
  rw [utf8Decode, decodeChars_ascii_cons h, ofChars, List.flatMap_cons, ofChar_of_lt h]
  simp [utf8Decode, ofChars]

/-- An ASCII prefix is decoded byte by byte. -/
theorem utf8Decode_ascii_append {p : Bytes} (hp : ∀ b ∈ p, IsAscii b) (l : Bytes) :
    utf8Decode (p ++ l) = p.map UInt8.toUInt16 ++ utf8Decode l := by
  induction p with
  | nil => rfl
  | cons b p ih =>
    rw [List.cons_append, utf8Decode_ascii_cons (hp b List.mem_cons_self),
      ih fun b hb => hp b (List.mem_cons_of_mem _ hb)]
    rfl

theorem utf8Decode_ascii {p : Bytes} (hp : ∀ b ∈ p, IsAscii b) :
    utf8Decode p = p.map UInt8.toUInt16 := by
  simpa [utf8Decode, decodeChars, decodeFuel, ofChars] using utf8Decode_ascii_append hp []

/-- An ASCII code unit is no surrogate. -/
theorem isHigh_of_lt {u : UInt16} (h : u.toNat < 0x80) : isHigh u = false ∧ isLow u = false := by
  simp only [isHigh, isLow]
  grind

/-- ASCII code units are encoded one by one. -/
theorem utf8Encode_ascii_cons {u : UInt16} (h : u.toNat < 0x80) (s : Units) :
    utf8Encode (u :: s) = u.toUInt8 :: utf8Encode s := by
  obtain ⟨hh, hl⟩ := isHigh_of_lt h
  have hc : toChars (u :: s) = Char.ofNat u.toNat :: toChars s := by
    cases s with
    | nil => simp [toChars, hh, hl]
    | cons v s => simp [toChars, hh, hl]
  rw [utf8Encode, hc, encodeChars, List.flatMap_cons, utf8EncodeChar_of_lt h]
  simp [utf8Encode, encodeChars]

theorem utf8Encode_ascii_append {p : Units} (hp : ∀ u ∈ p, u.toNat < 0x80) (s : Units) :
    utf8Encode (p ++ s) = p.map UInt16.toUInt8 ++ utf8Encode s := by
  induction p with
  | nil => rfl
  | cons u p ih =>
    rw [List.cons_append, utf8Encode_ascii_cons (hp u List.mem_cons_self),
      ih fun u hu => hp u (List.mem_cons_of_mem _ hu)]
    rfl

theorem utf8Encode_ascii {p : Units} (hp : ∀ u ∈ p, u.toNat < 0x80) :
    utf8Encode p = p.map UInt16.toUInt8 := by
  have happend := utf8Encode_ascii_append hp []
  have hnil : utf8Encode [] = [] := rfl
  rwa [hnil, List.append_nil, List.append_nil] at happend

theorem toNat_lt_of_mem_map {p : Bytes} (hp : ∀ b ∈ p, IsAscii b) :
    ∀ u ∈ p.map UInt8.toUInt16, u.toNat < 0x80 := by
  intro u hu
  obtain ⟨b, hb, rfl⟩ := List.mem_map.mp hu
  exact hp b hb

/-- ASCII bytes, as code units, are encoded as they were. -/
theorem utf8Encode_map_toUInt16 {p : Bytes} (hp : ∀ b ∈ p, IsAscii b) :
    utf8Encode (p.map UInt8.toUInt16) = p := by
  rw [utf8Encode_ascii (toNat_lt_of_mem_map hp), List.map_map]
  exact List.map_id'' UInt8.toUInt8_toUInt16 p

/-! ### How long an encoding is -/

/-- The bytes of a code unit that is no half of a pair. -/
def unitLength (u : UInt16) : ℕ := if u.toNat < 0x80 then 1 else if u.toNat < 0x800 then 2 else 3

/-- The number of bytes a string of code units is encoded in. -/
def utf8Length : Units → ℕ
  | [] => 0
  | [u] => unitLength u
  | u :: v :: rest =>
    if isHigh u && isLow v then 4 + utf8Length rest else unitLength u + utf8Length (v :: rest)

theorem unitLength_le (u : UInt16) : unitLength u ≤ 3 := by
  unfold unitLength
  split_ifs <;> decide

/-- The size of a character with a given number. -/
theorem utf8Size_eq {c : Char} {n : ℕ} (h : c.toNat = n) :
    c.utf8Size = if n < 0x80 then 1 else if n < 0x800 then 2 else if n < 0x10000 then 3 else 4 := by
  have hv : c.val.toNat = n := h
  simp only [Char.utf8Size, UInt32.le_iff_toNat_le, hv]
  split_ifs <;> first | rfl | (exfalso; simp at *; omega)

/-- A unit that is no surrogate takes as many bytes as its character. -/
theorem utf8Size_unit {u : UInt16} (hh : isHigh u = false) (hl : isLow u = false) :
    (Char.ofNat u.toNat).utf8Size = unitLength u := by
  have hu : u.toNat < 0x10000 := u.toNat_lt
  rw [utf8Size_eq (toNat_ofNat_unit hh hl), unitLength, if_pos hu]

/-- A surrogate without its other half takes as many bytes as what stands for it. -/
theorem unitLength_surrogate {u : UInt16} (h : isHigh u = true ∨ isLow u = true) :
    unitLength u = 3 := by
  simp only [isHigh, isLow, Bool.and_eq_true, decide_eq_true_eq] at h
  rw [unitLength, if_neg (by omega), if_neg (by omega)]

theorem utf8Size_joinPair {h l : UInt16} (hh : isHigh h = true) (hl : isLow l = true) :
    (joinPair h l).utf8Size = 4 := by
  rw [utf8Size_eq (number_joinPair hh hl), if_neg (by omega), if_neg (by omega), if_neg (by omega)]

theorem length_encodeChars_cons (c : Char) (cs : List Char) :
    (encodeChars (c :: cs)).length = c.utf8Size + (encodeChars cs).length := by
  rw [encodeChars, List.flatMap_cons, List.length_append, String.length_utf8EncodeChar]
  rfl

/-- **The length of an encoding.** -/
theorem length_utf8Encode (s : Units) : (utf8Encode s).length = utf8Length s := by
  unfold utf8Encode
  have hr : replacement.utf8Size = 3 := by decide
  induction s using toChars.induct with
  | case1 => rfl
  | case2 u hu =>
    rw [toChars, if_pos hu, length_encodeChars_cons, hr, utf8Length,
      unitLength_surrogate (by simpa only [Bool.or_eq_true] using hu)]
    rfl
  | case3 u hu =>
    simp only [Bool.or_eq_true, not_or, Bool.not_eq_true] at hu
    rw [toChars, if_neg (by simp [hu]), length_encodeChars_cons, utf8Size_unit hu.1 hu.2]
    rfl
  | case4 u v rest hu hv ih =>
    rw [toChars, if_pos hu, if_pos hv, length_encodeChars_cons, utf8Size_joinPair hu hv, ih,
      utf8Length,
      if_pos (by rw [hu, hv]; rfl)]
  | case5 u v rest hu hv ih =>
    rw [toChars, if_pos hu, if_neg hv, length_encodeChars_cons, hr, ih, utf8Length,
      if_neg (by simp [hv]),
      unitLength_surrogate (.inl hu)]
  | case6 u v rest hu hv ih =>
    rw [toChars, if_neg hu, if_pos hv, length_encodeChars_cons, hr, ih, utf8Length,
      if_neg (by simp [hu]),
      unitLength_surrogate (.inr hv)]
  | case7 u v rest hu hv ih =>
    simp only [Bool.not_eq_true] at hu hv
    rw [toChars, if_neg (by simp [hu]), if_neg (by simp [hv]), length_encodeChars_cons,
      utf8Size_unit hu hv, ih,
      utf8Length, if_neg (by simp [hu])]

/-- No code unit takes more than three bytes. -/
theorem utf8Length_le (s : Units) : utf8Length s ≤ 3 * s.length := by
  induction s using utf8Length.induct with
  | case1 => exact Nat.zero_le _
  | case2 u => exact unitLength_le u
  | case3 u v rest h ih =>
    rw [utf8Length, if_pos h, List.length_cons, List.length_cons]
    omega
  | case4 u v rest h ih =>
    have := unitLength_le u
    rw [utf8Length, if_neg h, List.length_cons]
    omega

/-- A unit that starts no pair is counted by itself. -/
theorem utf8Length_cons {u : UInt16} (h : isHigh u = false) (s : Units) :
    utf8Length (u :: s) = unitLength u + utf8Length s := by
  cases s with
  | nil => rfl
  | cons v s => rw [utf8Length, if_neg (by simp [h])]

theorem utf8Length_replicate {u : UInt16} (h : isHigh u = false) (n : ℕ) :
    utf8Length (List.replicate n u) = n * unitLength u := by
  induction n with
  | zero => rw [Nat.zero_mul]; rfl
  | succ n ih => rw [List.replicate_succ, utf8Length_cons h, ih, Nat.succ_mul, Nat.add_comm]

/-- An ASCII code unit takes one byte, and no part in what stands before it. -/
theorem utf8Length_append_ascii {u : UInt16} (h : u.toNat < 0x80) (s t : Units) :
    utf8Length (s ++ u :: t) = utf8Length s + 1 + utf8Length t := by
  obtain ⟨hh, hl⟩ := isHigh_of_lt h
  have hu : utf8Length (u :: t) = 1 + utf8Length t := by
    rw [utf8Length_cons hh, unitLength, if_pos h]
  induction s using utf8Length.induct with
  | case1 => rw [List.nil_append, hu, utf8Length, Nat.zero_add]
  | case2 v =>
    have hv : utf8Length (v :: u :: t) = unitLength v + utf8Length (u :: t) := by
      rw [utf8Length, if_neg (by simp [hl])]
    rw [List.singleton_append, hv, hu, utf8Length]
    omega
  | case3 v w rest hp ih =>
    rw [List.cons_append, List.cons_append, utf8Length, if_pos hp, ih, utf8Length, if_pos hp]
    omega
  | case4 v w rest hp ih =>
    rw [List.cons_append, List.cons_append, utf8Length, if_neg hp, ← List.cons_append, ih,
      utf8Length, if_neg hp]
    omega

theorem utf8Length_ascii_append {p : Units} (hp : ∀ u ∈ p, u.toNat < 0x80) (s : Units) :
    utf8Length (p ++ s) = p.length + utf8Length s := by
  induction p with
  | nil => rw [List.nil_append, List.length_nil, Nat.zero_add]
  | cons u p ih =>
    have hu := hp u List.mem_cons_self
    rw [List.cons_append, utf8Length_cons (isHigh_of_lt hu).1,
      ih fun u hu => hp u (List.mem_cons_of_mem _ hu), unitLength,
      if_pos hu, List.length_cons]
    omega

/-! ### Where an encoding starts and ends -/

/-- A byte under 0x80 is the encoding of a character by itself. -/
theorem toNat_of_mem_encodeChar {c : Char} {b : UInt8} (h : b ∈ String.utf8EncodeChar c)
    (hb : IsAscii b) : c.toNat = b.toNat := by
  have hv : c.val.toNat = c.toNat := rfl
  have hc : c.toNat < 0x110000 := by
    have := c.valid
    rcases this with h | ⟨-, h⟩ <;> omega
  unfold IsAscii at hb
  unfold String.utf8EncodeChar at h
  simp only [hv] at h
  split_ifs at h
  all_goals
    simp only [List.mem_cons, List.not_mem_nil, or_false] at h
  · subst h
    rw [UInt8.toNat_ofNat']
    omega
  · exfalso
    rcases h with rfl | rfl <;> rw [UInt8.toNat_ofNat'] at hb <;> omega
  · exfalso
    rcases h with rfl | rfl | rfl <;> rw [UInt8.toNat_ofNat'] at hb <;> omega
  · exfalso
    rcases h with rfl | rfl | rfl | rfl <;> rw [UInt8.toNat_ofNat'] at hb <;> omega

/-- Going through characters keeps the number of code units. -/
theorem length_ofChars_toChars (s : Units) : (ofChars (toChars s)).length = s.length := by
  have hr : ofChar replacement = [0xFFFD] := by decide
  induction s using toChars.induct with
  | case1 => rfl
  | case2 u hu => rw [toChars, if_pos hu]; rfl
  | case3 u hu =>
    simp only [Bool.or_eq_true, not_or, Bool.not_eq_true] at hu
    rw [toChars, if_neg (by simp [hu]), ofChars, List.flatMap_singleton, ofChar_unit hu.1 hu.2]
  | case4 u v rest hu hv ih =>
    rw [toChars, if_pos hu, if_pos hv, ofChars, List.flatMap_cons, ofChar_joinPair hu hv,
      List.length_append, ← ofChars, ih]
    simp only [List.length_cons, List.length_nil]
    omega
  | case5 u v rest hu hv ih =>
    rw [toChars, if_pos hu, if_neg hv, ofChars, List.flatMap_cons, hr, List.length_append,
      ← ofChars, ih]
    simp only [List.length_cons, List.length_nil]
    omega
  | case6 u v rest hu hv ih =>
    rw [toChars, if_neg hu, if_pos hv, ofChars, List.flatMap_cons, hr, List.length_append,
      ← ofChars, ih]
    simp only [List.length_cons, List.length_nil]
    omega
  | case7 u v rest hu hv ih =>
    simp only [Bool.not_eq_true] at hu hv
    rw [toChars, if_neg (by simp [hu]), if_neg (by simp [hv]), ofChars, List.flatMap_cons,
      ofChar_unit hu hv,
      List.length_append, ← ofChars, ih]
    simp only [List.length_cons, List.length_nil]
    omega

/-- A text survives the round trip of a prefix of it only if that is the whole text. -/
theorem utf8Decode_utf8Encode_eq_iff {s t : Units} (h : s <+: t) :
    utf8Decode (utf8Encode s) = t ↔ s = t ∧ isWellFormed t = true := by
  constructor
  · intro he
    have hlen : s.length = t.length := by
      rw [← length_ofChars_toChars s, ← he, utf8Decode, utf8Encode, decodeChars_encodeChars]
    obtain rfl := h.eq_of_length hlen
    exact ⟨rfl, (utf8Decode_utf8Encode_iff s).mp he⟩
  · rintro ⟨rfl, hw⟩
    exact (utf8Decode_utf8Encode_iff s).mpr hw

theorem encodeChars_eq_nil {cs : List Char} : encodeChars cs = [] ↔ cs = [] := by
  cases cs with
  | nil => exact iff_of_true rfl rfl
  | cons c cs =>
    refine iff_of_false ?_ (List.cons_ne_nil c cs)
    intro h
    have hlen := length_encodeChars_cons c cs
    rw [h, List.length_nil] at hlen
    have := c.utf8Size_pos
    omega

theorem toChars_eq_nil {s : Units} : toChars s = [] ↔ s = [] := by
  constructor
  · intro h
    have hlen := length_ofChars_toChars s
    rw [h] at hlen
    exact List.eq_nil_of_length_eq_zero hlen.symm
  · rintro rfl
    rfl

theorem utf8Encode_eq_nil {s : Units} : utf8Encode s = [] ↔ s = [] :=
  encodeChars_eq_nil.trans toChars_eq_nil

/-- A character under 0x80 is a code unit by itself. -/
theorem toNat_unit {u : UInt16} {c : Char} (hh : isHigh u = false) (hl : isLow u = false)
    (hc : Char.ofNat u.toNat = c) : u = c.toNat.toUInt16 := by
  rw [← hc, toNat_ofNat_unit hh hl]
  simp

theorem toNat_joinPair {h l : UInt16} (hh : isHigh h = true) (hl : isLow l = true) :
    ¬ (joinPair h l).toNat < 0x80 := by
  rw [number_joinPair hh hl]
  omega

/-- The first character, if it is under 0x80, is the first code unit. -/
theorem head?_of_toChars {s : Units} {c : Char} (h : (toChars s).head? = some c)
    (hc : c.toNat < 0x80) : s.head? = some c.toNat.toUInt16 := by
  have hr : ¬ replacement.toNat < 0x80 := by decide
  fun_cases toChars s with
  | case1 => cases h
  | case2 u hu =>
    rw [toChars, if_pos hu] at h
    obtain rfl := Option.some.inj h
    exact absurd hc hr
  | case3 u hu =>
    rw [toChars, if_neg hu] at h
    simp only [Bool.or_eq_true, not_or, Bool.not_eq_true] at hu
    exact congrArg some (toNat_unit hu.1 hu.2 (Option.some.inj h))
  | case4 u v rest hu hv =>
    rw [toChars, if_pos hu, if_pos hv] at h
    obtain rfl := Option.some.inj h
    exact absurd hc (toNat_joinPair hu hv)
  | case5 u v rest hu hv =>
    rw [toChars, if_pos hu, if_neg hv] at h
    obtain rfl := Option.some.inj h
    exact absurd hc hr
  | case6 u v rest hu hv =>
    rw [toChars, if_neg hu, if_pos hv] at h
    obtain rfl := Option.some.inj h
    exact absurd hc hr
  | case7 u v rest hu hv =>
    rw [toChars, if_neg hu, if_neg hv] at h
    exact congrArg some (toNat_unit (by simpa using hu) (by simpa using hv) (Option.some.inj h))

/-- The last character, if it is under 0x80, is the last code unit. -/
theorem getLast?_of_toChars {s : Units} {c : Char} (h : (toChars s).getLast? = some c)
    (hc : c.toNat < 0x80) : s.getLast? = some c.toNat.toUInt16 := by
  have hr : ¬ replacement.toNat < 0x80 := by decide
  -- of two characters or more the first does not matter
  have hcons {x : Char} {r : Units} (hx : (x :: toChars r).getLast? = some c) :
      r ≠ [] ∧ (toChars r).getLast? = some c ∨ r = [] ∧ x = c := by
    rcases List.eq_nil_or_concat r with rfl | ⟨r', y, rfl⟩
    · exact .inr ⟨rfl, Option.some.inj hx⟩
    · have hne : toChars (r'.concat y) ≠ [] := fun he => by
        have := toChars_eq_nil.mp he
        simp at this
      rw [List.getLast?_cons_of_ne_nil hne] at hx
      exact .inl ⟨by simp, hx⟩
  induction s using toChars.induct with
  | case1 => cases h
  | case2 u hu =>
    rw [toChars, if_pos hu] at h
    obtain rfl := Option.some.inj h
    exact absurd hc hr
  | case3 u hu =>
    rw [toChars, if_neg hu] at h
    simp only [Bool.or_eq_true, not_or, Bool.not_eq_true] at hu
    exact congrArg some (toNat_unit hu.1 hu.2 (Option.some.inj h))
  | case4 u v rest hu hv ih =>
    rw [toChars, if_pos hu, if_pos hv] at h
    rcases hcons h with ⟨hne, h⟩ | ⟨-, rfl⟩
    · rw [List.getLast?_cons_cons, List.getLast?_cons_of_ne_nil hne]
      exact ih h
    · exact absurd hc (toNat_joinPair hu hv)
  | case5 u v rest hu hv ih =>
    rw [toChars, if_pos hu, if_neg hv] at h
    rcases hcons h with ⟨-, h⟩ | ⟨he, -⟩
    · rw [List.getLast?_cons_cons]
      exact ih h
    · cases he
  | case6 u v rest hu hv ih =>
    rw [toChars, if_neg hu, if_pos hv] at h
    rcases hcons h with ⟨-, h⟩ | ⟨he, -⟩
    · rw [List.getLast?_cons_cons]
      exact ih h
    · cases he
  | case7 u v rest hu hv ih =>
    rw [toChars, if_neg hu, if_neg hv] at h
    rcases hcons h with ⟨-, h⟩ | ⟨he, -⟩
    · rw [List.getLast?_cons_cons]
      exact ih h
    · cases he

theorem head?_encodeChars {cs : List Char} {b : UInt8} (h : (encodeChars cs).head? = some b)
    (hb : IsAscii b) : ∃ c, cs.head? = some c ∧ c.toNat = b.toNat := by
  cases cs with
  | nil => cases h
  | cons c cs =>
    refine ⟨c, rfl, toNat_of_mem_encodeChar ?_ hb⟩
    rw [encodeChars, List.flatMap_cons,
      List.head?_append_of_ne_nil _ String.utf8EncodeChar_ne_nil] at h
    exact List.mem_of_head? h

theorem getLast?_encodeChars {cs : List Char} {b : UInt8} (h : (encodeChars cs).getLast? = some b)
    (hb : IsAscii b) : ∃ c, cs.getLast? = some c ∧ c.toNat = b.toNat := by
  rcases List.eq_nil_or_concat cs with rfl | ⟨cs, c, rfl⟩
  · cases h
  · refine ⟨c, by simp, toNat_of_mem_encodeChar ?_ hb⟩
    rw [List.concat_eq_append, encodeChars, List.flatMap_append, List.flatMap_singleton,
      List.getLast?_append_of_ne_nil _ String.utf8EncodeChar_ne_nil] at h
    exact List.mem_of_getLast? h

/-- **An ASCII byte an encoding starts with** is the first code unit. -/
theorem head?_of_utf8Encode {s : Units} {b : UInt8} (h : (utf8Encode s).head? = some b)
    (hb : IsAscii b) : s.head? = some b.toUInt16 := by
  obtain ⟨c, hc, hn⟩ := head?_encodeChars h hb
  have hlt : c.toNat < 0x80 := hn ▸ hb
  rw [head?_of_toChars hc hlt, hn]
  simp

/-- **An ASCII byte an encoding ends in** is the last code unit. -/
theorem getLast?_of_utf8Encode {s : Units} {b : UInt8} (h : (utf8Encode s).getLast? = some b)
    (hb : IsAscii b) : s.getLast? = some b.toUInt16 := by
  obtain ⟨c, hc, hn⟩ := getLast?_encodeChars h hb
  have hlt : c.toNat < 0x80 := hn ▸ hb
  rw [getLast?_of_toChars hc hlt, hn]
  simp

theorem toChars_concat_ascii (s : Units) {u : UInt16} (h : u.toNat < 0x80) :
    toChars (s ++ [u]) = toChars s ++ [Char.ofNat u.toNat] := by
  obtain ⟨hh, hl⟩ := isHigh_of_lt h
  have hone : toChars [u] = [Char.ofNat u.toNat] := by simp [toChars, hh, hl]
  induction s using toChars.induct with
  | case1 => exact hone
  | case2 v hv =>
    have hv' : isHigh v = true ∨ isLow v = true := by simpa using hv
    rw [List.singleton_append, toChars, toChars, if_pos hv, hone]
    rcases hv' with hv' | hv'
    · simp [hv', hl]
    · by_cases hvh : isHigh v = true
      · simp [hvh, hl]
      · simp [hvh, hv']
  | case3 v hv =>
    simp only [Bool.or_eq_true, not_or, Bool.not_eq_true] at hv
    rw [List.singleton_append, toChars, toChars, hone]
    simp [hv]
  | case4 v w rest hv hw ih =>
    rw [List.cons_append, List.cons_append, toChars, toChars, if_pos hv, if_pos hv, if_pos hw,
      if_pos hw, ih]
    rfl
  | case5 v w rest hv hw ih =>
    rw [List.cons_append, List.cons_append, toChars, toChars, if_pos hv, if_pos hv, if_neg hw,
      if_neg hw,
      ← List.cons_append, ih]
    rfl
  | case6 v w rest hv hw ih =>
    rw [List.cons_append, List.cons_append, toChars, toChars, if_neg hv, if_neg hv, if_pos hw,
      if_pos hw,
      ← List.cons_append, ih]
    rfl
  | case7 v w rest hv hw ih =>
    rw [List.cons_append, List.cons_append, toChars, toChars, if_neg hv, if_neg hv, if_neg hw,
      if_neg hw,
      ← List.cons_append, ih]
    rfl

/-- An ASCII code unit is encoded by itself at the end as well. -/
theorem utf8Encode_concat_ascii (s : Units) {u : UInt16} (h : u.toNat < 0x80) :
    utf8Encode (s ++ [u]) = utf8Encode s ++ [u.toUInt8] := by
  rw [utf8Encode, toChars_concat_ascii s h, encodeChars, List.flatMap_append,
    List.flatMap_singleton,
    utf8EncodeChar_of_lt h]
  simp [utf8Encode, encodeChars]

/-- A string that is encoded as an ASCII string is that string. -/
theorem eq_of_utf8Encode_eq {s t : Units} (ht : ∀ u ∈ t, u.toNat < 0x80)
    (h : utf8Encode s = utf8Encode t) : s = t := by
  induction t generalizing s with
  | nil => exact utf8Encode_eq_nil.mp h
  | cons u t ih =>
    have hu := ht u List.mem_cons_self
    have hb : u.toUInt8.toUInt16 = u := by
      apply UInt16.toNat_inj.mp
      rw [UInt8.toNat_toUInt16, UInt16.toNat_toUInt8]
      omega
    have hascii : IsAscii u.toUInt8 := by
      rw [IsAscii, UInt16.toNat_toUInt8]
      omega
    rw [utf8Encode_ascii_cons hu] at h
    have hd := head?_of_utf8Encode (by rw [h]; rfl) hascii
    rw [hb] at hd
    obtain ⟨s, rfl⟩ := List.head?_eq_some_iff.mp hd
    rw [utf8Encode_ascii_cons hu, List.cons.injEq] at h
    rw [ih (fun v hv => ht v (List.mem_cons_of_mem _ hv)) h.2]

/-! ### Hexadecimal -/

/-- A digit, in lower case. -/
def hexDigit (n : ℕ) : UInt16 := if n < 10 then (48 + n).toUInt16 else (87 + n).toUInt16

/-- Two digits for each byte. -/
def toHex (l : Bytes) : Units :=
  l.flatMap fun b => [hexDigit (b.toNat / 16), hexDigit (b.toNat % 16)]

/-- What a digit stands for, in either case. -/
def hexValue? (u : UInt16) : Option ℕ :=
  if 48 ≤ u.toNat ∧ u.toNat ≤ 57 then some (u.toNat - 48)
  else if 97 ≤ u.toNat ∧ u.toNat ≤ 102 then some (u.toNat - 87)
  else if 65 ≤ u.toNat ∧ u.toNat ≤ 70 then some (u.toNat - 55)
  else none

/-- The bytes, up to the first pair that is not two digits. -/
def fromHex : Units → Bytes
  | a :: b :: s =>
    match hexValue? a, hexValue? b with
    | some x, some y => (16 * x + y).toUInt8 :: fromHex s
    | _, _ => []
  | _ => []

theorem hexValue?_hexDigit {n : ℕ} (h : n < 16) : hexValue? (hexDigit n) = some n := by
  have hall : ∀ m : Fin 16, hexValue? (hexDigit m.val) = some m.val := by decide
  exact hall ⟨n, h⟩

/-- **What is written is read back.** -/
theorem fromHex_toHex (l : Bytes) : fromHex (toHex l) = l := by
  induction l with
  | nil => rfl
  | cons b l ih =>
    have hb := b.toNat_lt
    have hv : 16 * (b.toNat / 16) + b.toNat % 16 = b.toNat := by omega
    show fromHex (hexDigit (b.toNat / 16) :: hexDigit (b.toNat % 16) :: toHex l) = b :: l
    rw [fromHex, hexValue?_hexDigit (by omega), hexValue?_hexDigit (by omega)]
    dsimp only
    rw [ih, hv]
    congr 1
    apply UInt8.toNat_inj.mp
    exact Nat.mod_eq_of_lt hb

end ThreadLink.Text
