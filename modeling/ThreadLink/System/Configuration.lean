import ThreadLink.Backend.Configuration
import ThreadLink.Gateway.Configuration

/-!
# The numbers of both configurations

The gateway reads its limits from the environment, in UTF-16, and the chat server reads its own from
a file, in UTF-8. A frame may only be as long as both of them allow, so a number should be taken by
both or by neither.

## What is proved

* `integer_utf8Encode_iff` — both tiers mean the same by an integer.
* `envAccepts_of_readInRange` — the gateway takes what the chat server takes.
* `readers_agree_iff` — **they take the same exactly when an integer in the range that the value
  starts with is all of it**: the gateway drops what follows.
* `frame_limits_agree` — then both have the same limit for a frame.
-/

namespace ThreadLink.System

open Text Decimals Backend Gateway

variable {s : Units} {v least greatest : ℤ}

/-! ### Integers in both encodings -/

/-- The blanks of the chat server are ASCII. -/
theorem toNat_of_isspace {b : UInt8} (h : cLocale.isSpace b = true) :
    b.toNat = 32 ∨ 9 ≤ b.toNat ∧ b.toNat ≤ 13 := by
  simp only [cLocale, isspace, Bool.or_eq_true, beq_iff_eq, Bool.and_eq_true,
    decide_eq_true_eq] at h
  rcases h with rfl | h
  · exact .inl rfl
  · exact .inr h

/-- The gateway skips them as well. -/
theorem isWhiteSpace_of_isspace {b : UInt8} (h : cLocale.isSpace b = true) :
    ecmaScript.isSpace b.toUInt16 = true := by
  rcases toNat_of_isspace h with h | h
  · obtain rfl : b = 32 := UInt8.toNat_inj.mp h
    rfl
  · change isWhiteSpace b.toUInt16 = true
    simp only [isWhiteSpace, UInt8.toNat_toUInt16, h.1, h.2, decide_true, Bool.and_self,
      Bool.true_or]

/-- What is an integer in UTF-8 is one in UTF-16. -/
theorem integer_of_utf8Encode (h : cLocale.Integer (utf8Encode s) v) : ecmaScript.Integer s v := by
  have hascii : ∀ b ∈ utf8Encode s, IsAscii b := by
    refine h.code_lt ?_
    intro b hb hspace
    have hcode := toNat_of_isspace hspace
    change b.toNat < 128
    omega
  have hs : s = (utf8Encode s).map UInt8.toUInt16 :=
    eq_of_utf8Encode_eq (toNat_lt_of_mem_map hascii) (utf8Encode_map_toUInt16 hascii).symm
  rw [hs]
  apply h.map
  · intro b hb
    rfl
  · intro b hb hspace
    exact isWhiteSpace_of_isspace hspace

/-- What is an integer in UTF-16 is one in UTF-8, if it starts with no white space. -/
theorem integer_utf8Encode (h : ecmaScript.Integer s v)
    (hs : ∀ u ∈ s.head?, isWhiteSpace u = false) : cLocale.Integer (utf8Encode s) v := by
  have hnot {u : UInt16} (hu : u ∈ s) : ¬ ecmaScript.isSpace u = true := by
    rw [h.not_isSpace hs u hu]
    exact Bool.false_ne_true
  have hascii : ∀ u ∈ s, u.toNat < 0x80 := h.code_lt fun u hu hspace => absurd hspace (hnot hu)
  rw [utf8Encode_ascii hascii]
  apply h.map
  · intro u hu
    have hlt := hascii u hu
    change u.toUInt8.toNat = u.toNat
    rw [UInt16.toNat_toUInt8]
    omega
  · intro u hu hspace
    exact absurd hspace (hnot hu)

/-- **Both tiers mean the same by an integer.** -/
theorem integer_utf8Encode_iff (hs : ∀ u ∈ s.head?, isWhiteSpace u = false) :
    cLocale.Integer (utf8Encode s) v ↔ ecmaScript.Integer s v := by
  constructor
  · exact integer_of_utf8Encode
  · intro h
    exact integer_utf8Encode h hs

/-! ### What each tier takes -/

/-- An integer in the range that the value starts with, and that cannot be longer, is all of it. -/
def Whole (s : Units) (least greatest : ℤ) : Prop :=
  ∀ front rest v, s = front ++ rest → ecmaScript.Integer front v →
    (∀ u ∈ rest.head?, isDigit u = false) → least ≤ v → v ≤ greatest → rest = []

/-- Where the reader stops says whether it is. -/
theorem whole_iff_scan : Whole s least greatest ↔
    ∀ read ∈ ecmaScript.scan s, least ≤ read.1 → read.1 ≤ greatest → read.2 = [] := by
  constructor
  · rintro h ⟨v, rest⟩ hscan hleast hgreatest
    obtain ⟨front, hs, hint, hr⟩ := ecmaScript.scan_iff.mp (Option.mem_def.mp hscan)
    exact h front rest v hs hint hr hleast hgreatest
  · intro h front rest v hs hint hr hleast hgreatest
    exact h (v, rest) (ecmaScript.scan_iff.mpr ⟨front, hs, hint, hr⟩) hleast hgreatest

instance instDecidableWhole (s : Units) (least greatest : ℤ) :
    Decidable (Whole s least greatest) :=
  decidable_of_iff _ whole_iff_scan.symm

section Readers

variable {lo hi : ℤ}

/-- The gateway takes what the chat server takes, as the same number. -/
theorem envAccepts_of_readInRange (hlo : lo ≤ least) (hhi : greatest ≤ hi)
    (h : readInRange (stoInteger lo hi) least greatest (utf8Encode s) = .ok v) :
    EnvAccepts s least greatest v := by
  obtain ⟨hint, hrange⟩ := (readInRange_iff hlo hhi).mp h
  have hfront := integer_of_utf8Encode hint
  refine envAccepts_iff.mpr ⟨s, [], (List.append_nil s).symm, hfront, ?_, hrange⟩
  intro u hu
  cases hu

/-- It takes no more exactly when it drops nothing. -/
theorem readInRange_iff_envAccepts (hs : ∀ u ∈ s.head?, isWhiteSpace u = false) (hlo : lo ≤ least)
    (hhi : greatest ≤ hi) :
    (∀ v, EnvAccepts s least greatest v ↔
      readInRange (stoInteger lo hi) least greatest (utf8Encode s) = .ok v) ↔
    Whole s least greatest := by
  constructor
  · rintro h front rest v rfl hint hr hleast hgreatest
    have haccepts : EnvAccepts (front ++ rest) least greatest v :=
      envAccepts_iff.mpr ⟨front, rest, rfl, hint, hr, hleast, hgreatest⟩
    have hall := integer_of_utf8Encode ((readInRange_iff hlo hhi).mp ((h v).mp haccepts)).1
    refine ecmaScript.rest_unique hint hall hr ?_ (List.append_nil _).symm
    intro u hu
    cases hu
  · intro h v
    constructor
    · intro haccepts
      obtain ⟨front, rest, rfl, hint, hr, hrange⟩ := envAccepts_iff.mp haccepts
      obtain rfl := h front rest v rfl hint hr hrange.1 hrange.2
      rw [List.append_nil] at hs ⊢
      exact (readInRange_iff hlo hhi).mpr ⟨integer_utf8Encode hint hs, hrange⟩
    · exact envAccepts_of_readInRange hlo hhi

end Readers

/-- **Both tiers take the same numbers exactly when nothing is dropped.** A value that starts with
no white space, and a range in that of `int`: the gateway and the chat server, whether it reads an
`int` or a `long long`, take the value as the same number or both refuse it, if and only if an
integer in the range that the value starts with is all of it. -/
theorem readers_agree_iff {s : Units} {least greatest : ℤ}
    (hs : ∀ u ∈ s.head?, isWhiteSpace u = false) (hleast : -2147483648 ≤ least)
    (hgreatest : greatest ≤ 2147483647) :
    ∀ parse ∈ [stoi, stoll],
      (∀ v, EnvAccepts s least greatest v ↔
        readInRange parse least greatest (utf8Encode s) = .ok v) ↔ Whole s least greatest := by
  intro parse hparse
  rcases List.mem_pair.mp hparse with rfl | rfl
  · exact readInRange_iff_envAccepts hs hleast hgreatest
  · exact readInRange_iff_envAccepts hs (by omega) (by omega)

/-- A limit that is written as a number is whole: the chat server takes what the gateway takes. -/
theorem readers_agree_on_limit :
    EnvAccepts (units "4096") 64 (16 * 1024 * 1024) 4096 ∧
    readInRange stoll 64 (16 * 1024 * 1024) (utf8Encode (units "4096")) = .ok 4096 := by
  have haccepts : EnvAccepts (units "4096") 64 (16 * 1024 * 1024) 4096 :=
    envAccepts_iff_frontInRange.mpr (by decide)
  have hagree := @readers_agree_iff (units "4096") 64 (16 * 1024 * 1024) (by decide) (by decide)
    (by decide) stoll (.tail _ (.head _))
  exact ⟨haccepts, (hagree.mpr (by decide) 4096).mp haccepts⟩

/-- With a unit after the number, the gateway takes the number and the chat server refuses; their
limits for a frame differ then. -/
theorem unit_is_dropped :
    (∀ u ∈ (units "1024k").head?, isWhiteSpace u = false) ∧
    (∀ u ∈ (units "1024k").getLast?, isWhiteSpace u = false) ∧
    EnvAccepts (units "1024k") 64 (16 * 1024 * 1024) 1024 ∧
    readInRange stoi 64 (16 * 1024 * 1024) (utf8Encode (units "1024k")) = .error .outOfRange ∧
    (¬ ∀ v, EnvAccepts (units "1024k") 64 (16 * 1024 * 1024) v ↔
      readInRange stoi 64 (16 * 1024 * 1024) (utf8Encode (units "1024k")) = .ok v) ∧
    (Gateway.loadConfig fun _ => some (units "1024k")).backendMaxMessageBytes = 1024 ∧
    (applyMaxMessageSize {} (utf8Encode (units "1024k"))).maxMessageSize = 8192 := by
  have haccepts : EnvAccepts (units "1024k") 64 (16 * 1024 * 1024) 1024 :=
    envAccepts_iff_frontInRange.mpr (by decide)
  have hrefused : readInRange stoi 64 (16 * 1024 * 1024) (utf8Encode (units "1024k")) =
      .error .outOfRange := by decide
  refine ⟨by decide, by decide, haccepts, hrefused, ?_, by decide, by decide⟩
  intro h
  have htaken := (h 1024).mp haccepts
  rw [hrefused] at htaken
  cases htaken

/-- **The limits for a frame.** If the gateway and the chat server are given one value, and both
take all of it or neither takes any, they have the same limit. -/
theorem frame_limits_agree {env : Units → Option Units}
    (hset : env (units "BACKEND_MAX_MESSAGE_BYTES") = some s)
    (hs : ∀ u ∈ s.head?, isWhiteSpace u = false) (hw : Whole s 64 (16 * 1024 * 1024)) :
    (Gateway.loadConfig env).backendMaxMessageBytes =
      (applyMaxMessageSize {} (utf8Encode s)).maxMessageSize := by
  have hagree : ∀ v, EnvAccepts s 64 (16 * 1024 * 1024) v ↔
      readInRange stoll 64 (16 * 1024 * 1024) (utf8Encode s) = .ok v :=
    (readInRange_iff_envAccepts hs (by omega) (by omega)).mpr hw
  simp only [Gateway.loadConfig, hset, applyMaxMessageSize, applyField]
  cases hread : readInRange stoll 64 (16 * 1024 * 1024) (utf8Encode s) with
  | ok v =>
    have hv := (hagree v).mpr hread
    obtain ⟨-, -, -, -, -, hleast, hgreatest⟩ := envAccepts_iff.mp hv
    rw [hv]
    dsimp only
    omega
  | error e =>
    have hnone : ∀ v, ¬ EnvAccepts s 64 (16 * 1024 * 1024) v := by
      intro v hv
      rw [(hagree v).mp hv] at hread
      cases hread
    rw [intFromEnv_of_not hnone]
    rfl

end ThreadLink.System
