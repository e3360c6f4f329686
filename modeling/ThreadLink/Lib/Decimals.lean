import Mathlib.Data.List.Basic
import Mathlib.Data.List.TakeDrop
import Mathlib.Data.List.TakeWhile
import Mathlib.Data.Nat.Notation
import Mathlib.Data.Int.Notation

/-!
# Reading decimal integers

What `strtol` does with base ten, over any alphabet that has the signs and the digits: blanks are
skipped, then a sign is taken if there is one, then as many digits as follow. A reader of this kind
accepts a prefix; whether it took the whole text is for its caller to ask.

## The model

* `Alphabet` has the code of a letter, and says which letters are skipped.
* `Integer` is the grammar, `scan` is the reader.

## What is proved

* `scan_iff` — the reader takes a prefix of the text that is an integer and cannot be longer.
* `scan_whole_iff` — it takes the whole text exactly when the text is an integer.
* `Integer.map` — an integer stays one in another alphabet, if the letters keep their codes.
-/

namespace ThreadLink.Decimals

/-- Letters some of which are digits and signs, in ASCII, and some of which are skipped. -/
structure Alphabet (α : Type) where
  /-- The code of a letter. -/
  code : α → ℕ
  /-- The letter may stand before a number. -/
  isSpace : α → Bool
  /-- Such a letter is neither a sign nor a digit. -/
  apart : ∀ a, isSpace a = true → code a ≠ 43 ∧ code a ≠ 45 ∧ ¬ (48 ≤ code a ∧ code a ≤ 57)

namespace Alphabet

variable {α : Type} (A : Alphabet α) {s front rest digits blanks : List α} {a : α} {v w : ℤ}

/-- A decimal digit. -/
def isDigit (a : α) : Bool := 48 ≤ A.code a && A.code a ≤ 57

/-- A sign. -/
def isSign (a : α) : Bool := A.code a == 43 || A.code a == 45

/-- The number that digits stand for. -/
def value (digits : List α) : ℕ := digits.foldl (fun n a => 10 * n + (A.code a - 48)) 0

/-- The text is one or more digits. -/
def Digits (s : List α) : Prop := s ≠ [] ∧ ∀ a ∈ s, A.isDigit a = true

/-- The number that digits stand for, after a minus or not. -/
def signed (negative : Bool) (digits : List α) : ℤ :=
  if negative then -(A.value digits : ℤ) else A.value digits

/-- **The text is an integer**: blanks, perhaps a sign, and digits. -/
inductive Integer : List α → ℤ → Prop where
  /-- Without a sign. -/
  | unsigned {blanks digits : List α} (hb : ∀ a ∈ blanks, A.isSpace a = true)
      (hd : A.Digits digits) :
    Integer (blanks ++ digits) (A.signed false digits)
  /-- With a sign. -/
  | signed {blanks digits : List α} {sign : α} (hb : ∀ a ∈ blanks, A.isSpace a = true)
    (hs : A.isSign sign = true) (hd : A.Digits digits) :
    Integer (blanks ++ sign :: digits) (A.signed (A.code sign == 45) digits)

/-- The digits at the front, negated or not, and what follows them. -/
def scanDigits (negative : Bool) (s : List α) : Option (ℤ × List α) :=
  let digits := s.takeWhile A.isDigit
  if digits.isEmpty then none
  else some (A.signed negative digits, s.dropWhile A.isDigit)

/-- The reader: the integer at the front, and what follows it. -/
def scan (s : List α) : Option (ℤ × List α) :=
  match s.dropWhile A.isSpace with
  | [] => none
  | a :: s => if A.isSign a then A.scanDigits (A.code a == 45) s else A.scanDigits false (a :: s)

/-! ### The pieces -/

/-- What a predicate holds of up to where it does not is what is taken. -/
theorem takeWhile_append {p : α → Bool} (hf : ∀ a ∈ front, p a = true)
    (hr : ∀ a ∈ rest.head?, p a = false) :
    (front ++ rest).takeWhile p = front ∧ (front ++ rest).dropWhile p = rest := by
  rw [List.takeWhile_append_of_pos hf, List.dropWhile_append_of_pos hf]
  cases rest with
  | nil => exact ⟨List.append_nil front, rfl⟩
  | cons a rest =>
    have ha : ¬ p a = true := by
      rw [hr a rfl]
      exact Bool.false_ne_true
    rw [List.takeWhile_cons_of_neg ha, List.dropWhile_cons_of_neg ha]
    exact ⟨List.append_nil front, rfl⟩

/-- What is not taken starts with what the predicate does not hold of. -/
theorem head?_dropWhile {p : α → Bool} : ∀ a ∈ (s.dropWhile p).head?, p a = false := by
  intro a ha
  have h := List.head?_dropWhile_not p s
  rw [Option.mem_def.mp ha] at h
  exact h

theorem not_isSpace_of_isDigit (h : A.isDigit a = true) : A.isSpace a = false := by
  simp only [isDigit, Bool.and_eq_true, decide_eq_true_eq] at h
  cases hs : A.isSpace a with
  | false => rfl
  | true => exact absurd h (A.apart a hs).2.2

theorem not_isSpace_of_isSign (h : A.isSign a = true) : A.isSpace a = false := by
  simp only [isSign, Bool.or_eq_true, beq_iff_eq] at h
  cases hs : A.isSpace a with
  | false => rfl
  | true =>
    rcases h with h | h
    · exact absurd h (A.apart a hs).1
    · exact absurd h (A.apart a hs).2.1

theorem not_isSign_of_isDigit (h : A.isDigit a = true) : A.isSign a = false := by
  simp only [isDigit, Bool.and_eq_true, decide_eq_true_eq] at h
  simp only [isSign, Bool.or_eq_false_iff, beq_eq_false_iff_ne]
  omega

/-- Digits, and what cannot be taken with them. -/
theorem scanDigits_append (negative : Bool) (hd : A.Digits digits)
    (hr : ∀ a ∈ rest.head?, A.isDigit a = false) :
    A.scanDigits negative (digits ++ rest) = some (A.signed negative digits, rest) := by
  obtain ⟨ht, hdrop⟩ := takeWhile_append hd.2 hr
  have hne : ¬ digits.isEmpty = true := fun h => hd.1 (List.isEmpty_iff.mp h)
  simp only [scanDigits, ht, hdrop, if_neg hne]

/-- What the reader takes as digits is digits. -/
theorem digits_of_scanDigits {negative : Bool} (h : A.scanDigits negative s = some (v, rest)) :
    ∃ digits, A.Digits digits ∧ s = digits ++ rest ∧ (∀ a ∈ rest.head?, A.isDigit a = false) ∧
      v = A.signed negative digits := by
  simp only [scanDigits] at h
  split_ifs at h with hempty
  · cases h
    refine ⟨_, ⟨fun h => hempty (List.isEmpty_iff.mpr h), fun a ha => List.mem_takeWhile_imp ha⟩,
      List.takeWhile_append_dropWhile.symm, head?_dropWhile, rfl⟩

/-! ### The reader -/

/-- An integer, and what cannot be taken with it. -/
theorem scan_of_integer (h : A.Integer front v) (hr : ∀ a ∈ rest.head?, A.isDigit a = false) :
    A.scan (front ++ rest) = some (v, rest) := by
  cases h with
  | @unsigned blanks digits hb hd =>
    obtain ⟨d, ds, rfl⟩ := List.exists_cons_of_ne_nil hd.1
    have hdigit := hd.2 d (.head ds)
    have hskip : (blanks ++ (d :: ds ++ rest)).dropWhile A.isSpace = d :: ds ++ rest := by
      refine (takeWhile_append hb ?_).2
      intro a ha
      rw [← Option.some.inj (Option.mem_def.mp ha)]
      exact A.not_isSpace_of_isDigit hdigit
    have hscan := A.scanDigits_append false hd hr
    rw [List.append_assoc, scan, hskip]
    simp only [List.cons_append, A.not_isSign_of_isDigit hdigit, Bool.false_eq_true,
      if_false] at hscan ⊢
    exact hscan
  | @signed blanks digits sign hb hs hd =>
    have hskip : (blanks ++ (sign :: digits ++ rest)).dropWhile A.isSpace =
        sign :: digits ++ rest := by
      refine (takeWhile_append hb ?_).2
      intro a ha
      rw [← Option.some.inj (Option.mem_def.mp ha)]
      exact A.not_isSpace_of_isSign hs
    rw [List.append_assoc, scan, hskip]
    simp only [List.cons_append, hs, if_true]
    exact A.scanDigits_append _ hd hr

/-- What the reader takes is an integer, and could not be longer. -/
theorem integer_of_scan (h : A.scan s = some (v, rest)) :
    ∃ front, s = front ++ rest ∧ A.Integer front v ∧ ∀ a ∈ rest.head?, A.isDigit a = false := by
  have hsplit : s.takeWhile A.isSpace ++ s.dropWhile A.isSpace = s :=
    List.takeWhile_append_dropWhile
  have hb : ∀ a ∈ s.takeWhile A.isSpace, A.isSpace a = true := fun a ha => List.mem_takeWhile_imp ha
  unfold scan at h
  split at h
  · cases h
  · rename_i a after hdrop
    rw [hdrop] at hsplit
    split_ifs at h with hsign
    · obtain ⟨digits, hd, rfl, hr, rfl⟩ := A.digits_of_scanDigits h
      refine ⟨s.takeWhile A.isSpace ++ a :: digits, ?_, ?_, hr⟩
      · rw [List.append_assoc, List.cons_append]
        exact hsplit.symm
      · exact .signed hb hsign hd
    · obtain ⟨digits, hd, hcons, hr, rfl⟩ := A.digits_of_scanDigits h
      refine ⟨s.takeWhile A.isSpace ++ digits, ?_, ?_, hr⟩
      · rw [List.append_assoc, ← hcons]
        exact hsplit.symm
      · exact .unsigned hb hd

/-- **The reader takes a prefix of the text that is an integer and cannot be longer.** -/
theorem scan_iff : A.scan s = some (v, rest) ↔
    ∃ front, s = front ++ rest ∧ A.Integer front v ∧ ∀ a ∈ rest.head?, A.isDigit a = false := by
  constructor
  · exact A.integer_of_scan
  · rintro ⟨front, rfl, hint, hr⟩
    exact A.scan_of_integer hint hr

/-- **It takes the whole text exactly when the text is an integer.** -/
theorem scan_whole_iff : A.scan s = some (v, []) ↔ A.Integer s v := by
  constructor
  · intro h
    obtain ⟨front, rfl, hint, -⟩ := A.scan_iff.mp h
    rw [List.append_nil]
    exact hint
  · intro h
    have hscan : A.scan (s ++ []) = some (v, []) := A.scan_of_integer h fun a ha => by cases ha
    rwa [List.append_nil] at hscan

/-- Two readings of one text take the same of it. -/
theorem rest_unique {rest' front' : List α} (h : A.Integer front v) (h' : A.Integer front' v)
    (hr : ∀ a ∈ rest.head?, A.isDigit a = false) (hr' : ∀ a ∈ rest'.head?, A.isDigit a = false)
    (hs : front ++ rest = front' ++ rest') : rest = rest' := by
  have hscan := A.scan_of_integer h hr
  rw [hs, A.scan_of_integer h' hr'] at hscan
  cases hscan
  rfl

/-- What follows the integer is a suffix of the text. -/
theorem length_of_scan (h : A.scan s = some (v, rest)) : rest.length ≤ s.length := by
  obtain ⟨front, rfl, -⟩ := A.scan_iff.mp h
  rw [List.length_append]
  omega

/-! ### Two alphabets -/

section Letters

variable {A}

/-- An integer is made of blanks, signs and digits. -/
theorem Integer.letters (h : A.Integer s v) :
    ∀ a ∈ s, A.isSpace a = true ∨ A.isSign a = true ∨ A.isDigit a = true := by
  intro a ha
  cases h with
  | unsigned hb hd =>
    rcases List.mem_append.mp ha with ha | ha
    · exact .inl (hb a ha)
    · exact .inr (.inr (hd.2 a ha))
  | signed hb hs hd =>
    rcases List.mem_append.mp ha with ha | ha
    · exact .inl (hb a ha)
    · rcases List.mem_cons.mp ha with rfl | ha
      · exact .inr (.inl hs)
      · exact .inr (.inr (hd.2 a ha))

/-- So it is ASCII, if the blanks in it are. -/
theorem Integer.code_lt (h : A.Integer s v) (hb : ∀ a ∈ s, A.isSpace a = true → A.code a < 128) :
    ∀ a ∈ s, A.code a < 128 := by
  intro a ha
  rcases h.letters a ha with hspace | hsign | hdigit
  · exact hb a ha hspace
  · rw [isSign, Bool.or_eq_true, beq_iff_eq, beq_iff_eq] at hsign
    omega
  · rw [isDigit, Bool.and_eq_true, decide_eq_true_eq, decide_eq_true_eq] at hdigit
    omega

/-- One that starts with no blank has none. -/
theorem Integer.not_isSpace (h : A.Integer s v) (hs : ∀ a ∈ s.head?, A.isSpace a = false) :
    ∀ a ∈ s, A.isSpace a = false := by
  have hnone {blanks rest : List α} (hb : ∀ a ∈ blanks, A.isSpace a = true)
      (hhead : ∀ a ∈ (blanks ++ rest).head?, A.isSpace a = false) : blanks = [] := by
    cases blanks with
    | nil => rfl
    | cons a blanks =>
      have hsp := hb a (.head _)
      rw [hhead a rfl] at hsp
      cases hsp
  intro a ha
  cases h with
  | unsigned hb hd =>
    rw [hnone hb hs] at ha
    exact A.not_isSpace_of_isDigit (hd.2 a ha)
  | signed hb hsign hd =>
    rw [hnone hb hs] at ha
    rcases List.mem_cons.mp ha with rfl | ha
    · exact A.not_isSpace_of_isSign hsign
    · exact A.not_isSpace_of_isDigit (hd.2 a ha)

/-- Digits are read alike in another alphabet, if the letters keep their codes. -/
theorem value_map {β : Type} {B : Alphabet β} {f : α → β}
    (hcode : ∀ a ∈ digits, B.code (f a) = A.code a) : B.value (digits.map f) = A.value digits := by
  unfold value
  rw [List.foldl_map]
  refine List.foldl_ext _ _ _ ?_
  intro n a ha
  rw [hcode a ha]

/-- So are integers, if blanks stay blanks. -/
theorem Integer.map {β : Type} {B : Alphabet β} {f : α → β} (h : A.Integer s v)
    (hcode : ∀ a ∈ s, B.code (f a) = A.code a)
    (hspace : ∀ a ∈ s, A.isSpace a = true → B.isSpace (f a) = true) :
    B.Integer (s.map f) v := by
  have hblank {blanks : List α} (hb : ∀ a ∈ blanks, A.isSpace a = true)
      (hsub : ∀ a ∈ blanks, a ∈ s) : ∀ b ∈ blanks.map f, B.isSpace b = true := by
    intro b hmem
    obtain ⟨a, ha, rfl⟩ := List.mem_map.mp hmem
    exact hspace a (hsub a ha) (hb a ha)
  have hdigit {digits : List α} (hd : A.Digits digits) (hsub : ∀ a ∈ digits, a ∈ s) :
      B.Digits (digits.map f) ∧ B.value (digits.map f) = A.value digits := by
    refine ⟨⟨?_, ?_⟩, value_map fun a ha => hcode a (hsub a ha)⟩
    · exact fun h => hd.1 (List.map_eq_nil_iff.mp h)
    · intro b hmem
      obtain ⟨a, ha, rfl⟩ := List.mem_map.mp hmem
      rw [isDigit, hcode a (hsub a ha)]
      exact hd.2 a ha
  cases h with
  | @unsigned blanks digits hb hd =>
    obtain ⟨hd', hv⟩ := hdigit hd fun a ha => List.mem_append_right _ ha
    rw [List.map_append, Alphabet.signed, ← hv]
    exact .unsigned (hblank hb fun a ha => List.mem_append_left _ ha) hd'
  | @signed blanks digits sign hb hs hd =>
    obtain ⟨hd', hv⟩ := hdigit hd fun a ha => List.mem_append_right _ (.tail _ ha)
    have hsign := hcode sign (List.mem_append_right _ (.head _))
    rw [List.map_append, List.map_cons, Alphabet.signed, ← hv, ← hsign]
    refine .signed (hblank hb fun a ha => List.mem_append_left _ ha) ?_ hd'
    rw [isSign, hsign]
    exact hs

end Letters

end Alphabet

end ThreadLink.Decimals
