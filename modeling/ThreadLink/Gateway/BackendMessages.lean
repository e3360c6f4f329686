import ThreadLink.Lib.Text

/-!
# The lines between gateway and chat server

`src/backendMessages.ts`: what the gateway makes of a line of the chat server, and
the lines it sends.

## What is proved

* `parse_welcome`, `parse_nick`, `parse_msg` and so on — a line with the fields of such an
  event, the first of two without a blank, is parsed to that event.
-/

namespace ThreadLink.Gateway

open Text

/-- `BackendEvent`. -/
inductive BackendEvent where
  /-- `welcome`. -/
  | welcome (nickname : Units)
  /-- `sys`. -/
  | sys (text : Units)
  /-- `msg`. -/
  | msg (sender text : Units)
  /-- `priv`. -/
  | priv (sender text : Units)
  /-- `privSent`. -/
  | privSent (recipient text : Units)
  /-- `nick`. -/
  | nick (oldNick newNick : Units)
  /-- `list`. -/
  | list (count : ℤ) (names : List Units)
  /-- `err`. -/
  | err (code text : Units)
  /-- `unknown`. -/
  | unknown (raw : Units)
  deriving DecidableEq, Repr

/-- `splitFirst`: at the first blank. -/
def splitFirst (s : Units) : Units × Units := Text.splitFirst 32 s

/-- White space and the ends of lines. -/
def isWhiteSpace (u : UInt16) : Bool :=
  (9 ≤ u.toNat && u.toNat ≤ 13) || u == 0x20 || u == 0xA0 || u == 0x1680 ||
  (0x2000 ≤ u.toNat && u.toNat ≤ 0x200A) ||
    u == 0x2028 || u == 0x2029 || u == 0x202F || u == 0x205F || u == 0x3000 || u == 0xFEFF

/-- A decimal digit. -/
def isDigit (u : UInt16) : Bool := 48 ≤ u.toNat && u.toNat ≤ 57

/-- The number that digits stand for, after those that stand for `n`. -/
def readDigits (n : ℕ) (digits : Units) : ℕ := digits.foldl (fun n u => 10 * n + (u.toNat - 48)) n

/-- `Number.parseInt(s, 10)`; `none` is `NaN`. A number above `2 ^ 53` is not rounded here. -/
def parseInt (s : Units) : Option ℤ :=
  let s := s.dropWhile isWhiteSpace
  let unsigned := if s.head? = some 43 ∨ s.head? = some 45 then s.tail else s
  let digits := unsigned.takeWhile isDigit
  if digits.isEmpty then none
  else some (if s.head? = some 45 then -readDigits 0 digits else readDigits 0 digits)

/-- `parseBackendLine`. -/
def parseBackendLine (payload : Units) : BackendEvent :=
  let (type, rest) := splitFirst payload
  if type = units "WELCOME" then .welcome rest
  else if type = units "SYS" then .sys rest
  else if type = units "MSG" then
    let (sender, text) := splitFirst rest
    .msg sender text
  else if type = units "PRIV" then
    let (sender, text) := splitFirst rest
    .priv sender text
  else if type = units "PRIV_SENT" then
    let (recipient, text) := splitFirst rest
    .privSent recipient text
  else if type = units "NICK" then
    let (oldNick, newNick) := splitFirst rest
    .nick oldNick newNick
  else if type = units "LIST" then
    let (countStr, namesRest) := splitFirst rest
    let names := if namesRest.isEmpty then [] else namesRest.splitOn 32
    .list ((parseInt countStr).getD names.length) names
  else if type = units "ERR" then
    let (code, text) := splitFirst rest
    .err code text
  else .unknown payload

/-- `formatNickCommand`. -/
def formatNickCommand (nickname : Units) : Units := units "/nick " ++ nickname

/-- `formatMsgCommand`. -/
def formatMsgCommand (targetNick text : Units) : Units :=
  units "/msg " ++ targetNick ++ units " " ++ text

/-- `formatChatLine`. -/
def formatChatLine (text : Units) : Units := text

/-! ### What a line is parsed to -/

/-- A line that starts with a keyword is parsed by that keyword. -/
theorem splitFirst_keyword {keyword : Units} (hk : 32 ∉ keyword) (rest : Units) :
    splitFirst (keyword ++ units " " ++ rest) = (keyword, rest) := by
  rw [List.append_assoc]
  exact splitFirst_append hk rest

theorem parse_welcome (nickname : Units) :
    parseBackendLine (units "WELCOME " ++ nickname) = .welcome nickname := by
  have h : splitFirst (units "WELCOME " ++ nickname) = (units "WELCOME", nickname) :=
    splitFirst_append (w := units "WELCOME") (by decide) nickname
  simp only [parseBackendLine, h, if_true]

theorem parse_nick {oldNick : Units} (h : 32 ∉ oldNick) (newNick : Units) :
    parseBackendLine (units "NICK " ++ oldNick ++ units " " ++ newNick) =
    .nick oldNick newNick := by
  have h1 : splitFirst (units "NICK " ++ oldNick ++ units " " ++ newNick) =
      (units "NICK", oldNick ++ units " " ++ newNick) := by
    rw [List.append_assoc, List.append_assoc, ← List.append_assoc oldNick]
    exact splitFirst_append (w := units "NICK") (by decide) _
  have hne : ∀ k ∈ [units "WELCOME", units "SYS", units "MSG", units "PRIV", units "PRIV_SENT"],
      units "NICK" ≠ k := by decide
  simp only [List.forall_mem_cons] at hne
  simp only [parseBackendLine, h1, hne, if_false, if_true, splitFirst_keyword h]

theorem parse_msg {sender : Units} (h : 32 ∉ sender) (text : Units) :
    parseBackendLine (units "MSG " ++ sender ++ units " " ++ text) = .msg sender text := by
  have h1 : splitFirst (units "MSG " ++ sender ++ units " " ++ text) =
      (units "MSG", sender ++ units " " ++ text) := by
    rw [List.append_assoc, List.append_assoc, ← List.append_assoc sender]
    exact splitFirst_append (w := units "MSG") (by decide) _
  have hne : ∀ k ∈ [units "WELCOME", units "SYS"], units "MSG" ≠ k := by decide
  simp only [List.forall_mem_cons] at hne
  simp only [parseBackendLine, h1, hne, if_false, if_true, splitFirst_keyword h]

theorem parse_priv {sender : Units} (h : 32 ∉ sender) (text : Units) :
    parseBackendLine (units "PRIV " ++ sender ++ units " " ++ text) = .priv sender text := by
  have h1 : splitFirst (units "PRIV " ++ sender ++ units " " ++ text) =
      (units "PRIV", sender ++ units " " ++ text) := by
    rw [List.append_assoc, List.append_assoc, ← List.append_assoc sender]
    exact splitFirst_append (w := units "PRIV") (by decide) _
  have hne : ∀ k ∈ [units "WELCOME", units "SYS", units "MSG"], units "PRIV" ≠ k := by decide
  simp only [List.forall_mem_cons] at hne
  simp only [parseBackendLine, h1, hne, if_false, if_true, splitFirst_keyword h]

theorem parse_privSent {recipient : Units} (h : 32 ∉ recipient) (text : Units) :
    parseBackendLine (units "PRIV_SENT " ++ recipient ++ units " " ++ text) =
    .privSent recipient text := by
  have h1 : splitFirst (units "PRIV_SENT " ++ recipient ++ units " " ++ text) =
      (units "PRIV_SENT", recipient ++ units " " ++ text) := by
    rw [List.append_assoc, List.append_assoc, ← List.append_assoc recipient]
    exact splitFirst_append (w := units "PRIV_SENT") (by decide) _
  have hne : ∀ k ∈ [units "WELCOME", units "SYS", units "MSG", units "PRIV"],
      units "PRIV_SENT" ≠ k := by decide
  simp only [List.forall_mem_cons] at hne
  simp only [parseBackendLine, h1, hne, if_false, if_true, splitFirst_keyword h]

theorem parse_err {code : Units} (h : 32 ∉ code) (text : Units) :
    parseBackendLine (units "ERR " ++ code ++ units " " ++ text) = .err code text := by
  have h1 : splitFirst (units "ERR " ++ code ++ units " " ++ text) =
      (units "ERR", code ++ units " " ++ text) := by
    rw [List.append_assoc, List.append_assoc, ← List.append_assoc code]
    exact splitFirst_append (w := units "ERR") (by decide) _
  have hne :
    ∀ k ∈ [units "WELCOME", units "SYS", units "MSG", units "PRIV", units "PRIV_SENT", units "NICK",
      units "LIST"], units "ERR" ≠ k := by decide
  simp only [List.forall_mem_cons] at hne
  simp only [parseBackendLine, h1, hne, if_false, if_true, splitFirst_keyword h]

theorem parse_sys (text : Units) : parseBackendLine (units "SYS " ++ text) = .sys text := by
  have h1 : splitFirst (units "SYS " ++ text) = (units "SYS", text) :=
    splitFirst_append (w := units "SYS") (by decide) text
  have hne : units "SYS" ≠ units "WELCOME" := by decide
  simp only [parseBackendLine, h1, hne, if_false, if_true]

theorem parse_list (rest : Units) :
    parseBackendLine (units "LIST " ++ rest) =
      let names := if (splitFirst rest).2.isEmpty then [] else (splitFirst rest).2.splitOn 32
      .list ((parseInt (splitFirst rest).1).getD names.length) names := by
  have h1 : splitFirst (units "LIST " ++ rest) = (units "LIST", rest) :=
    splitFirst_append (w := units "LIST") (by decide) rest
  have hne : ∀ k ∈ [units "WELCOME", units "SYS", units "MSG", units "PRIV", units "PRIV_SENT",
    units "NICK"],
      units "LIST" ≠ k := by decide
  simp only [List.forall_mem_cons] at hne
  simp only [parseBackendLine, h1, hne, if_false, if_true]

/-- Digits are read as the number they stand for. -/
theorem parseInt_digits {l : Units} (hne : l ≠ []) (hd : ∀ u ∈ l, isDigit u = true) :
    parseInt l = some (readDigits 0 l : ℤ) := by
  obtain ⟨u, l, rfl⟩ := List.exists_cons_of_ne_nil hne
  have hu := hd u (.head _)
  simp only [isDigit, Bool.and_eq_true, decide_eq_true_eq] at hu
  have hnot (v : UInt16) (hv : v.toNat < 48 ∨ 57 < v.toNat) : u ≠ v := by
    rintro rfl
    omega
  have hspace : isWhiteSpace u = false := by
    have hne := fun v hv => beq_eq_false_iff_ne.mpr (hnot v hv)
    simp [isWhiteSpace, hne, show ¬ u.toNat ≤ 13 by omega, show ¬ 8192 ≤ u.toNat by omega]
  have hplus : u ≠ 43 := hnot 43 (.inl (by decide))
  have hminus : u ≠ 45 := hnot 45 (.inl (by decide))
  have hall : (u :: l).takeWhile isDigit = u :: l := List.takeWhile_eq_self_iff.mpr hd
  simp only [parseInt, List.dropWhile_cons_of_neg (by simpa using hspace), List.head?_cons,
    Option.some.injEq, hplus,
    hminus, or_self, if_false, hall, List.isEmpty_cons, Bool.false_eq_true]

end ThreadLink.Gateway
