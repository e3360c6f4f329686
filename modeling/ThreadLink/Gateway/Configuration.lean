import ThreadLink.Gateway.BackendMessages
import ThreadLink.Gateway.Server
import ThreadLink.Lib.Decimals

/-!
# The environment of the gateway

`gateway/src/config.ts`: the numbers that are read from environment variables.

## The model

* `intFromEnv` is given the value of the variable, or nothing if it is not set. That it warns is
  left out.
* `loadConfig` has the fields that the server uses.

## What is proved

* `parseInt_eq` — `Number.parseInt` takes the integer at the front, and drops the rest.
* `intFromEnv_inRange`, `loadConfig_inRange` — what is loaded is in range.
* `envAccepts_iff` — which values are taken, and as what.
-/

namespace ThreadLink.Gateway

open Text Decimals

variable {s : Units} {fallback least greatest v : ℤ}

/-! ### The loader -/

/-- `intFromEnv`. -/
def intFromEnv (raw : Option Units) (fallback least greatest : ℤ) : ℤ :=
  match raw with
  | none => fallback
  | some raw =>
    if raw.isEmpty then fallback
    else match parseInt raw with
      -- `NaN`; an infinite number is out of range as well
      | none => fallback
      | some value => if value < least ∨ greatest < value then fallback else value

/-- `DEFAULTS`. -/
def defaults : GatewayConfig := {}

/-- `loadConfig`, of the variables that are set. -/
def loadConfig (env : Units → Option Units) : GatewayConfig where
  maxClientMessageBytes := (intFromEnv (env (units "MAX_CLIENT_MESSAGE_BYTES"))
    defaults.maxClientMessageBytes 64 (1024 * 1024)).toNat
  backendMaxMessageBytes := (intFromEnv (env (units "BACKEND_MAX_MESSAGE_BYTES"))
    defaults.backendMaxMessageBytes 64 (16 * 1024 * 1024)).toNat

/-- What is loaded is in range, if the default is. -/
theorem intFromEnv_inRange (raw : Option Units) (h : least ≤ fallback ∧ fallback ≤ greatest) :
    least ≤ intFromEnv raw fallback least greatest ∧
      intFromEnv raw fallback least greatest ≤ greatest := by
  unfold intFromEnv
  split
  · exact h
  · split_ifs
    · exact h
    · split
      · exact h
      · split_ifs with hout
        · exact h
        · omega

/-- The limits that the gateway starts with. -/
theorem loadConfig_inRange (env : Units → Option Units) :
    (64 ≤ (loadConfig env).maxClientMessageBytes ∧
      (loadConfig env).maxClientMessageBytes ≤ 1024 * 1024) ∧
    64 ≤ (loadConfig env).backendMaxMessageBytes ∧
      (loadConfig env).backendMaxMessageBytes ≤ 16 * 1024 * 1024 := by
  have hclient := @intFromEnv_inRange defaults.maxClientMessageBytes 64 (1024 * 1024)
    (env (units "MAX_CLIENT_MESSAGE_BYTES")) (by decide)
  have hbackend := @intFromEnv_inRange defaults.backendMaxMessageBytes 64 (16 * 1024 * 1024)
    (env (units "BACKEND_MAX_MESSAGE_BYTES")) (by decide)
  unfold loadConfig
  dsimp only
  omega

/-! ### What is taken -/

/-- The white space, signs and digits of `Number.parseInt`. -/
def ecmaScript : Alphabet UInt16 where
  code := UInt16.toNat
  isSpace := isWhiteSpace
  apart u hu := by
    simp only [isWhiteSpace, Bool.or_eq_true, Bool.and_eq_true, decide_eq_true_eq, beq_iff_eq,
      ← UInt16.toNat_inj] at hu
    simp at hu
    omega

/-- A sign, as `Number.parseInt` looks for it. -/
theorem isSign_iff (u : UInt16) : ecmaScript.isSign u = true ↔ u = 43 ∨ u = 45 := by
  have hcode : ecmaScript.code u = u.toNat := rfl
  rw [Alphabet.isSign, hcode, Bool.or_eq_true, beq_iff_eq, beq_iff_eq, ← UInt16.toNat_inj,
    ← UInt16.toNat_inj]
  rfl

/-- `Number.parseInt` takes the integer at the front, and drops the rest. -/
theorem parseInt_eq (s : Units) : parseInt s = (ecmaScript.scan s).map Prod.fst := by
  have hdigits (negative : Bool) (r : Units) : (ecmaScript.scanDigits negative r).map Prod.fst =
      if (r.takeWhile isDigit).isEmpty then none
      else some (if negative = true then -(readDigits 0 (r.takeWhile isDigit) : ℤ)
        else readDigits 0 (r.takeWhile isDigit)) := by
    have hdigit : ecmaScript.isDigit = isDigit := rfl
    unfold Alphabet.scanDigits
    simp only [hdigit]
    by_cases hempty : (r.takeWhile isDigit).isEmpty = true
    · rw [if_pos hempty, if_pos hempty]
      rfl
    · rw [if_neg hempty, if_neg hempty]
      rfl
  have hspace : ecmaScript.isSpace = isWhiteSpace := rfl
  unfold parseInt Alphabet.scan
  simp only [hspace]
  cases s.dropWhile isWhiteSpace with
  | nil => rfl
  | cons u r =>
    have hminus : (ecmaScript.code u == 45) = true ↔ u = 45 := by
      rw [beq_iff_eq, ← UInt16.toNat_inj]
      rfl
    by_cases hsign : u = 43 ∨ u = 45
    · simp only [List.head?_cons, Option.some.injEq, if_pos hsign, List.tail_cons,
        if_pos ((isSign_iff u).mpr hsign), hdigits, hminus]
    · have hne : ¬ u = 45 := fun h => hsign (.inr h)
      simp only [List.head?_cons, Option.some.injEq, if_neg hsign,
        if_neg (mt (isSign_iff u).mp hsign), hdigits, if_neg hne, Bool.false_eq_true, if_false]

/-- The integer that a value starts with, if it starts with one and that is in range. -/
def frontInRange (s : Units) (least greatest : ℤ) : Option ℤ :=
  ((ecmaScript.scan s).map Prod.fst).filter fun v => decide (least ≤ v ∧ v ≤ greatest)

/-- A value is that integer, and else the default. -/
theorem intFromEnv_some (s : Units) (fallback least greatest : ℤ) :
    intFromEnv (some s) fallback least greatest =
      (frontInRange s least greatest).getD fallback := by
  cases s with
  | nil => rfl
  | cons u s =>
    have hne : ¬ (u :: s).isEmpty = true := Bool.false_ne_true
    simp only [intFromEnv, if_neg hne, parseInt_eq, frontInRange]
    cases (ecmaScript.scan (u :: s)).map Prod.fst with
    | none => rfl
    | some v =>
      by_cases hin : least ≤ v ∧ v ≤ greatest
      · have hnot : ¬ (v < least ∨ greatest < v) := by omega
        simp only [Option.filter_some, decide_eq_true_eq, if_pos hin, Option.getD_some, if_neg hnot]
      · have hout : v < least ∨ greatest < v := by omega
        simp only [Option.filter_some, decide_eq_true_eq, if_neg hin, Option.getD_none,
          if_pos hout]

theorem frontInRange_eq_some : frontInRange s least greatest = some v ↔
    ∃ front rest, s = front ++ rest ∧ ecmaScript.Integer front v ∧
      (∀ u ∈ rest.head?, isDigit u = false) ∧ least ≤ v ∧ v ≤ greatest := by
  rw [frontInRange, Option.filter_eq_some_iff, Option.map_eq_some_iff, decide_eq_true_eq]
  constructor
  · rintro ⟨⟨⟨w, rest⟩, hscan, rfl⟩, hrange⟩
    obtain ⟨front, hs, hint, hr⟩ := ecmaScript.scan_iff.mp hscan
    exact ⟨front, rest, hs, hint, hr, hrange⟩
  · rintro ⟨front, rest, hs, hint, hr, hrange⟩
    exact ⟨⟨(v, rest), ecmaScript.scan_iff.mpr ⟨front, hs, hint, hr⟩, rfl⟩, hrange⟩

/-- The value of a variable is taken as a number, and not the default in its place. -/
def EnvAccepts (s : Units) (least greatest v : ℤ) : Prop :=
  ∀ fallback, intFromEnv (some s) fallback least greatest = v

theorem envAccepts_iff_frontInRange :
    EnvAccepts s least greatest v ↔ frontInRange s least greatest = some v := by
  unfold EnvAccepts
  simp only [intFromEnv_some]
  cases frontInRange s least greatest with
  | none =>
    constructor
    · intro h
      have hv := h (v + 1)
      rw [Option.getD_none] at hv
      omega
    · intro h
      cases h
  | some w =>
    constructor
    · intro h
      exact congrArg some (h 0)
    · rintro h -
      exact Option.some.inj h

/-- **A value is taken as the integer it starts with**, whatever follows, if that is in range. -/
theorem envAccepts_iff : EnvAccepts s least greatest v ↔
    ∃ front rest, s = front ++ rest ∧ ecmaScript.Integer front v ∧
      (∀ u ∈ rest.head?, isDigit u = false) ∧ least ≤ v ∧ v ≤ greatest := by
  rw [envAccepts_iff_frontInRange, frontInRange_eq_some]

/-- If it is not taken, the default is. -/
theorem intFromEnv_of_not (h : ∀ v, ¬ EnvAccepts s least greatest v) :
    intFromEnv (some s) fallback least greatest = fallback := by
  rw [intFromEnv_some]
  cases hfront : frontInRange s least greatest with
  | none => rfl
  | some v => exact absurd (envAccepts_iff_frontInRange.mpr hfront) (h v)

end ThreadLink.Gateway
