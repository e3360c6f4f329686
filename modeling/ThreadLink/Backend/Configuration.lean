import ThreadLink.Backend.Commands
import ThreadLink.Lib.Decimals

/-!
# The configuration file

`load_config` (`src/Config.cpp`) reads `KEY=VALUE` lines. It never throws, and what it returns is in
range: the rest of the server relies on both.

## The model

* An exception of the standard library is an error in `Except`; `substr` and the functions that read
  integers throw. `readInRange` is what the `apply_*` functions have in their `try`, `applyField`
  catches.
* `loadConfig` is given the content of the file, or nothing if there is no file. The number of a
  line is only logged and is left out.

## What is proved

* `trim_of_trims`, `foldlM_of_lines` — what is trimmed and what the lines are.
* `readInRange_iff` — what a value must be to be taken.
* `loadConfig_meets` — **every file is read without an exception, and each field is what the last
  valid assignment says**.
-/

namespace ThreadLink.Backend

open Text Decimals

variable {s t l r key value line file : Bytes} {lines before after : List Bytes} {cfg cfg' : Config}
  {b : UInt8} {v : ℤ}

/-! ### The standard library -/

/-- The exceptions the standard library throws here. -/
inductive StdException where
  /-- `std::invalid_argument`. -/
  | invalidArgument
  /-- `std::out_of_range`. -/
  | outOfRange
  deriving DecidableEq, Repr

/-- `s.substr(pos, n)`, or up to the end if there is no `n`. -/
def substr (s : Bytes) (pos : ℕ) (n : Option ℕ) : Except StdException Bytes :=
  if s.length < pos then .error .outOfRange
  else .ok ((s.drop pos).take (n.getD s.length))

/-- The letters, signs and digits of the "C" locale. -/
def cLocale : Alphabet UInt8 where
  code := UInt8.toNat
  isSpace := isspace
  apart b hb := by
    simp only [isspace, Bool.or_eq_true, beq_iff_eq, Bool.and_eq_true, decide_eq_true_eq] at hb
    rcases hb with rfl | hb
    · decide
    · omega

/-- `std::stoi` and its like for a type from `least` to `greatest`: the value, and the index of what
was not read. -/
def stoInteger (least greatest : ℤ) (s : Bytes) : Except StdException (ℤ × ℕ) :=
  match cLocale.scan s with
  | none => .error .invalidArgument
  | some (v, rest) =>
    if v < least ∨ greatest < v then .error .outOfRange else .ok (v, s.length - rest.length)

/-- `std::stoi`. -/
def stoi (s : Bytes) : Except StdException (ℤ × ℕ) := stoInteger (-2147483648) 2147483647 s

/-- `std::stoll`. -/
def stoll (s : Bytes) : Except StdException (ℤ × ℕ) :=
  stoInteger (-9223372036854775808) 9223372036854775807 s

/-- `std::getline`: the next line, and what is left; `none` when there is nothing to read. -/
def getline (file : Bytes) : Option (Bytes × Bytes) :=
  if file.isEmpty then none else some (Text.splitFirst 10 file)

/-! ### The loader -/

/-- A letter of `" \t\r\n"`. -/
def isBlank (b : UInt8) : Bool := b == 32 || b == 9 || b == 13 || b == 10

/-- `s.find_first_not_of(" \t\r\n")`; `none` is `npos`. -/
def findFirstNotBlank (s : Bytes) : Option ℕ := s.findIdx? fun b => !isBlank b

/-- `s.find_last_not_of(" \t\r\n")`; `none` is `npos`. -/
def findLastNotBlank (s : Bytes) : Option ℕ :=
  (s.reverse.findIdx? fun b => !isBlank b).map fun i => s.length - 1 - i

/-- `trim`. -/
def trim (s : Bytes) : Except StdException Bytes :=
  match findFirstNotBlank s with
  | none => .ok []
  | some start => substr s start ((findLastNotBlank s).map fun last => last - start + 1)

/-- What stands in the `try` of the `apply_*` functions: the integer must fill the value and be in
range. -/
def readInRange (parse : Bytes → Except StdException (ℤ × ℕ)) (least greatest : ℤ) (value : Bytes) :
    Except StdException ℤ :=
  match parse value with
  | .error e => .error e
  | .ok (v, idx) =>
    if idx ≠ value.length ∨ v < least ∨ greatest < v then .error .outOfRange else .ok v

/-- An `apply_*` function: a field is set, or an exception is caught and the configuration stays. -/
def applyField (parse : Bytes → Except StdException (ℤ × ℕ)) (least greatest : ℤ)
    (set : Config → ℤ → Config) (cfg : Config) (value : Bytes) : Config :=
  match readInRange parse least greatest value with
  | .ok v => set cfg v
  | .error _ => cfg

/-- `apply_port`. -/
def applyPort (cfg : Config) (value : Bytes) : Config :=
  applyField stoi 1 65535 (fun cfg v => { cfg with port := v }) cfg value

/-- `apply_max_clients`. -/
def applyMaxClients (cfg : Config) (value : Bytes) : Config :=
  applyField stoi 1 10000 (fun cfg v => { cfg with maxClients := v }) cfg value

/-- `apply_max_message_size`. -/
def applyMaxMessageSize (cfg : Config) (value : Bytes) : Config :=
  -- `static_cast<uint32_t>(v)`
  applyField stoll 64 (16 * 1024 * 1024)
    (fun cfg v => { cfg with maxMessageSize := (v % 4294967296).toNat }) cfg value

/-- The branches on the key of a line. -/
def applyKey (cfg : Config) (key value : Bytes) : Config :=
  if key = bytes "PORT" then applyPort cfg value
  else if key = bytes "MAX_CLIENTS" then applyMaxClients cfg value
  else if key = bytes "MAX_MESSAGE_SIZE" then applyMaxMessageSize cfg value
  else if key = bytes "LOG_LEVEL" then { cfg with logLevel := value }
  else cfg

/-- One round of the loop of `load_config`. -/
def applyLine (cfg : Config) (line : Bytes) : Except StdException Config := do
  let trimmed ← trim line
  -- empty lines and comments
  if trimmed.isEmpty ∨ trimmed.head? = some 35 then return cfg
  else match trimmed.findIdx? (· == 61) with
    | none => return cfg
    | some eq => do
      let key ← trim (← substr trimmed 0 (some eq))
      let value ← trim (← substr trimmed (eq + 1) none)
      return applyKey cfg key value

theorem length_of_getline {rest : Bytes} (h : getline file = some (line, rest)) :
    rest.length < file.length := by
  unfold getline at h
  split_ifs at h with hempty
  · cases h
    cases file with
    | nil => exact absurd rfl hempty
    | cons b file =>
      simp only [List.length_tail]
      have hle := List.length_dropWhile_le (fun a => decide (a ≠ (10 : UInt8))) (b :: file)
      simp only [List.length_cons] at hle ⊢
      omega

/-- The loop of `load_config`. -/
def readLines (cfg : Config) (file : Bytes) : Except StdException Config :=
  match h : getline file with
  | none => .ok cfg
  | some (line, rest) => (applyLine cfg line).bind fun cfg => readLines cfg rest
termination_by file.length
decreasing_by exact length_of_getline h

/-- `load_config`, for the content of the file; `none` if it could not be opened. -/
def loadConfig (file : Option Bytes) : Except StdException Config :=
  match file with
  | none => .ok {}
  | some content => readLines {} content

/-! ### What a file says -/

/-- `t` is `s` without the blanks around it. -/
structure Trims (s t : Bytes) : Prop where
  /-- There are only blanks around it. -/
  split : ∃ l r, s = l ++ t ++ r ∧ (∀ b ∈ l, isBlank b = true) ∧ ∀ b ∈ r, isBlank b = true
  /-- It does not start with one. -/
  head : ∀ b ∈ t.head?, isBlank b = false
  /-- Nor does it end with one. -/
  last : ∀ b ∈ t.getLast?, isBlank b = false

/-- The lines of a file; the last may lack its line feed. -/
inductive Lines : Bytes → List Bytes → Prop where
  /-- No line. -/
  | nil : Lines [] []
  /-- One without a line feed. -/
  | last {line : Bytes} (hne : line ≠ []) (hl : 10 ∉ line) : Lines line [line]
  /-- One, and those after it. -/
  | cons {line rest : Bytes} {lines : List Bytes} (hl : 10 ∉ line) (h : Lines rest lines) :
    Lines (line ++ 10 :: rest) (line :: lines)

/-- The line assigns a value to a key: it is no comment, and the key ends at its first `=`. -/
structure Assigns (line key value : Bytes) : Prop where
  /-- The line, trimmed, and its two sides. -/
  sides : ∃ l r, Trims line (l ++ 61 :: r) ∧ 61 ∉ l ∧ Trims l key ∧ Trims r value ∧
    (l ++ 61 :: r).head? ≠ some 35

/-- The line assigns an integer in the range to the key. -/
def SetsNumber (key : Bytes) (least greatest : ℤ) (line : Bytes) (v : ℤ) : Prop :=
  ∃ value, Assigns line key value ∧ cLocale.Integer value v ∧ least ≤ v ∧ v ≤ greatest

/-- What the last line that sets something sets it to, or the default if no line does. -/
inductive LastSet {β : Type} (Sets : Bytes → β → Prop) (lines : List Bytes) (default : β) :
    β → Prop where
  /-- A line does, and none after it. -/
  | line {before after : List Bytes} {line : Bytes} {v : β} (hl : lines = before ++ line :: after)
    (h : Sets line v)
    (hafter : ∀ l ∈ after, ∀ w, ¬ Sets l w) : LastSet Sets lines default v
  /-- No line does. -/
  | default (h : ∀ l ∈ lines, ∀ w, ¬ Sets l w) : LastSet Sets lines default default

/-- `PORT` is set. -/
def SetsPort : Bytes → ℤ → Prop := SetsNumber (bytes "PORT") 1 65535

/-- `MAX_CLIENTS` is set. -/
def SetsMaxClients : Bytes → ℤ → Prop := SetsNumber (bytes "MAX_CLIENTS") 1 10000

/-- `MAX_MESSAGE_SIZE` is set. -/
def SetsMaxMessageSize : Bytes → ℤ → Prop :=
  SetsNumber (bytes "MAX_MESSAGE_SIZE") 64 (16 * 1024 * 1024)

/-- `LOG_LEVEL` is set. -/
def SetsLogLevel (line value : Bytes) : Prop := Assigns line (bytes "LOG_LEVEL") value

/-- The line sets nothing: it is malformed, out of range or about something else. -/
structure SetsNothing (line : Bytes) : Prop where
  /-- Not the port. -/
  port : ∀ v, ¬ SetsPort line v
  /-- Not the number of clients. -/
  maxClients : ∀ v, ¬ SetsMaxClients line v
  /-- Not the size of a message. -/
  maxMessageSize : ∀ v, ¬ SetsMaxMessageSize line v
  /-- Not the level of the log. -/
  logLevel : ∀ v, ¬ SetsLogLevel line v

/-- **The configuration is what the lines say.** -/
structure Config.Follows (cfg : Config) (lines : List Bytes) : Prop where
  /-- The port. -/
  port : LastSet SetsPort lines 8080 cfg.port
  /-- The number of clients. -/
  maxClients : LastSet SetsMaxClients lines 100 cfg.maxClients
  /-- The size of a message. -/
  maxMessageSize : LastSet SetsMaxMessageSize lines 8192 (cfg.maxMessageSize : ℤ)
  /-- The level of the log. -/
  logLevel : LastSet SetsLogLevel lines (bytes "INFO") cfg.logLevel

/-! ### Trimming -/

theorem findIdx?_of_blank (hl : ∀ b ∈ l, isBlank b = true) :
    l.findIdx? (fun b => !isBlank b) = none := by
  rw [List.findIdx?_eq_none_iff]
  intro b hb
  rw [hl b hb]
  rfl

theorem findIdx?_append (hl : ∀ b ∈ l, isBlank b = true) (hb : isBlank b = false) :
    (l ++ b :: r).findIdx? (fun b => !isBlank b) = some l.length := by
  rw [List.findIdx?_append, findIdx?_of_blank hl, List.findIdx?_cons, hb]
  simp

/-- The first and the last letter that is not blank, around a text that has one. -/
theorem find_append (hl : ∀ b ∈ l, isBlank b = true) (hr : ∀ b ∈ r, isBlank b = true) (ht : t ≠ [])
    (hhead : ∀ b ∈ t.head?, isBlank b = false) (hlast : ∀ b ∈ t.getLast?, isBlank b = false) :
    findFirstNotBlank (l ++ t ++ r) = some l.length ∧
    findLastNotBlank (l ++ t ++ r) = some (l.length + t.length - 1) := by
  constructor
  · obtain ⟨b, t, rfl⟩ := List.exists_cons_of_ne_nil ht
    rw [findFirstNotBlank, List.append_assoc]
    exact findIdx?_append hl (hhead b rfl)
  · obtain rfl | ⟨t, b, rfl⟩ := List.eq_nil_or_concat t
    · exact absurd rfl ht
    · have hrev : (l ++ t.concat b ++ r).reverse = r.reverse ++ b :: (l ++ t).reverse := by simp
      have hb : isBlank b = false := hlast b (by simp)
      have hblank : ∀ a ∈ r.reverse, isBlank a = true := fun a ha => hr a (List.mem_reverse.mp ha)
      rw [findLastNotBlank, hrev, findIdx?_append hblank hb]
      simp only [Option.map_some, List.length_append, List.length_concat, List.length_reverse,
        Option.some.injEq]
      omega

/-- `trim` does not throw, and takes the blanks off both ends. -/
theorem trim_of_trims (h : Trims s t) : trim s = .ok t := by
  obtain ⟨l, r, rfl, hl, hr⟩ := h.split
  by_cases ht : t = []
  · subst ht
    have hnone : findFirstNotBlank (l ++ [] ++ r) = none := by
      refine findIdx?_of_blank fun b hb => ?_
      rw [List.append_nil] at hb
      rcases List.mem_append.mp hb with hb | hb
      · exact hl b hb
      · exact hr b hb
    rw [trim, hnone]
  · obtain ⟨hfirst, hlast⟩ := find_append hl hr ht h.head h.last
    have hpos := List.length_pos_iff.mpr ht
    have hcount : l.length + t.length - 1 - l.length + 1 = t.length := by omega
    have hlength : ¬ (l ++ t ++ r).length < l.length := by
      simp only [List.length_append]
      omega
    rw [trim, hfirst, hlast]
    simp only [substr, if_neg hlength, Option.map_some, Option.getD_some, hcount]
    rw [List.append_assoc, List.drop_left, List.take_left]

/-- Every text can be trimmed. -/
theorem exists_trims (s : Bytes) : ∃ t, Trims s t := by
  refine ⟨(s.dropWhile isBlank).rdropWhile isBlank,
    ⟨s.takeWhile isBlank, (s.dropWhile isBlank).rtakeWhile isBlank,
    ?_, fun b hb => List.mem_takeWhile_imp hb, fun b hb => List.mem_rtakeWhile_imp hb⟩, ?_, ?_⟩
  · rw [List.append_assoc, List.rdropWhile_append_rtakeWhile, List.takeWhile_append_dropWhile]
  · intro b hb
    obtain ⟨r, hr⟩ := List.rdropWhile_prefix isBlank (l := s.dropWhile isBlank)
    refine Alphabet.head?_dropWhile (s := s) b ?_
    rw [← hr, List.head?_append, Option.mem_def.mp hb]
    rfl
  · intro b hb
    rw [List.rdropWhile, List.getLast?_reverse] at hb
    exact Alphabet.head?_dropWhile b hb

/-- In one way only. -/
theorem Trims.unique (h : Trims s t) (h' : Trims s l) : t = l :=
  Except.ok.inj ((trim_of_trims h).symm.trans (trim_of_trims h'))

/-! ### Lines -/

/-- A line is taken off the file up to its line feed. -/
theorem getline_append (hl : 10 ∉ l) : getline (l ++ 10 :: r) = some (l, r) := by
  have hne : ¬ (l ++ 10 :: r).isEmpty = true := by simp
  rw [getline, if_neg hne, splitFirst_append hl]

/-- The last line needs none. -/
theorem getline_last (hne : l ≠ []) (hl : 10 ∉ l) : getline l = some (l, []) := by
  have hne : ¬ l.isEmpty = true := fun h => hne (List.isEmpty_iff.mp h)
  rw [getline, if_neg hne, splitFirst_of_notMem hl]

/-- There is nothing more to read. -/
theorem readLines_nil : readLines cfg [] = .ok cfg := by
  rw [readLines]
  rfl

/-- One round of the loop. -/
theorem readLines_cons (h : getline file = some (line, r)) :
    readLines cfg file = (applyLine cfg line).bind fun cfg => readLines cfg r := by
  rw [readLines]
  split
  · rename_i hnone
    rw [h] at hnone
    cases hnone
  · rename_i hsome
    rw [h] at hsome
    cases hsome
    rfl

/-- The loop goes through the lines one after the other. -/
theorem foldlM_of_lines (h : Lines file lines) :
    readLines cfg file = lines.foldlM applyLine cfg := by
  induction h generalizing cfg with
  | nil => exact readLines_nil
  | last hne hl =>
    rw [readLines_cons (getline_last hne hl), List.foldlM_cons]
    simp only [readLines_nil, List.foldlM_nil]
    rfl
  | cons hl hrest ih =>
    rw [readLines_cons (getline_append hl), List.foldlM_cons]
    simp only [ih]
    rfl

/-- Every file has lines. -/
theorem exists_lines (file : Bytes) : ∃ lines, Lines file lines := by
  induction h : file.length using Nat.strong_induction_on generalizing file with
  | _ n ih =>
    by_cases hmem : 10 ∈ file
    · obtain ⟨l, r, rfl, hl⟩ := List.eq_append_cons_of_mem hmem
      have hshorter : r.length < n := by
        rw [← h, List.length_append, List.length_cons]
        omega
      obtain ⟨lines, hlines⟩ := ih r.length hshorter r rfl
      exact ⟨l :: lines, .cons hl hlines⟩
    · by_cases hne : file = []
      · exact ⟨[], hne ▸ .nil⟩
      · exact ⟨[file], .last hne hmem⟩

/-! ### Values -/

section Values

variable {lo hi least greatest : ℤ} {set : Config → ℤ → Config}

/-- **A value is taken when it is an integer in the range**, if the type has the whole range. -/
theorem readInRange_iff (hlo : lo ≤ least) (hhi : greatest ≤ hi) :
    readInRange (stoInteger lo hi) least greatest value = .ok v ↔
      cLocale.Integer value v ∧ least ≤ v ∧ v ≤ greatest := by
  constructor
  · intro h
    simp only [readInRange, stoInteger] at h
    cases hscan : cLocale.scan value with
    | none =>
      rw [hscan] at h
      cases h
    | some read =>
      obtain ⟨w, rest⟩ := read
      have hle := cLocale.length_of_scan hscan
      simp only [hscan] at h
      by_cases hfits : w < lo ∨ hi < w
      · rw [if_pos hfits] at h
        cases h
      · simp only [if_neg hfits] at h
        split_ifs at h with hbad
        cases h
        have hrest : rest = [] := List.length_eq_zero_iff.mp (by omega)
        subst hrest
        exact ⟨cLocale.scan_whole_iff.mp hscan, by omega, by omega⟩
  · rintro ⟨hint, hleast, hgreatest⟩
    have hfits : ¬ (v < lo ∨ hi < v) := by omega
    have hgood : ¬ (value.length - 0 ≠ value.length ∨ v < least ∨ greatest < v) := by omega
    simp only [readInRange, stoInteger, cLocale.scan_whole_iff.mpr hint, if_neg hfits,
      List.length_nil, if_neg hgood]

theorem applyField_of_integer (hlo : lo ≤ least) (hhi : greatest ≤ hi)
    (hint : cLocale.Integer value v) (hleast : least ≤ v) (hgreatest : v ≤ greatest) :
    applyField (stoInteger lo hi) least greatest set cfg value = set cfg v := by
  rw [applyField, (readInRange_iff hlo hhi).mpr ⟨hint, hleast, hgreatest⟩]

theorem applyField_of_not (hlo : lo ≤ least) (hhi : greatest ≤ hi)
    (h : ∀ v, ¬ (cLocale.Integer value v ∧ least ≤ v ∧ v ≤ greatest)) :
    applyField (stoInteger lo hi) least greatest set cfg value = cfg := by
  rw [applyField]
  cases hread : readInRange (stoInteger lo hi) least greatest value with
  | ok v => exact absurd ((readInRange_iff hlo hhi).mp hread) (h v)
  | error e => rfl

end Values

/-! ### One line -/

/-- A line assigns at most one value to at most one key. -/
theorem Assigns.unique {key' value' : Bytes} (h : Assigns line key value)
    (h' : Assigns line key' value') : key = key' ∧ value = value' := by
  obtain ⟨l, r, ht, hl, hk, hv, -⟩ := h.sides
  obtain ⟨l', r', ht', hl', hk', hv', -⟩ := h'.sides
  have hsplit := congrArg (Text.splitFirst 61) (ht.unique ht')
  rw [splitFirst_append hl, splitFirst_append hl'] at hsplit
  cases hsplit
  exact ⟨hk.unique hk', hv.unique hv'⟩

theorem findIdx?_eq (hl : (61 : UInt8) ∉ l) :
    (l ++ 61 :: r).findIdx? (· == 61) = some l.length := by
  have hnone : l.findIdx? (· == 61) = none := by
    rw [List.findIdx?_eq_none_iff]
    intro b hb
    exact beq_eq_false_iff_ne.mpr fun h => hl (h ▸ hb)
  rw [List.findIdx?_append, hnone, List.findIdx?_cons]
  simp

/-- An assignment reaches the branches on the key. -/
theorem applyLine_of_assigns (h : Assigns line key value) :
    applyLine cfg line = .ok (applyKey cfg key value) := by
  obtain ⟨l, r, ht, hl, hk, hv, hcomment⟩ := h.sides
  have hgo : ¬ ((l ++ 61 :: r).isEmpty = true ∨ (l ++ 61 :: r).head? = some 35) := by
    rintro (hempty | hhead)
    · simp at hempty
    · exact hcomment hhead
  have hkey : substr (l ++ 61 :: r) 0 (some l.length) = .ok l := by
    simp only [substr, if_neg (Nat.not_lt_zero _), List.drop_zero, Option.getD_some, List.take_left]
  have hlength : ¬ (l ++ 61 :: r).length < l.length + 1 := by
    simp only [List.length_append, List.length_cons]
    omega
  have hvalue : substr (l ++ 61 :: r) (l.length + 1) none = .ok r := by
    simp only [substr, if_neg hlength, Option.getD_none]
    have hdrop : (l ++ 61 :: r).drop (l.length + 1) = r := by simp
    rw [hdrop, List.take_of_length_le]
    simp only [List.length_append, List.length_cons]
    omega
  rw [applyLine, trim_of_trims ht]
  simp only [bind, Except.bind, if_neg hgo, findIdx?_eq hl, hkey, hvalue, trim_of_trims hk,
    trim_of_trims hv]
  rfl

/-- A line that is none is skipped. -/
theorem applyLine_of_not (h : ∀ key value, ¬ Assigns line key value) :
    applyLine cfg line = .ok cfg := by
  obtain ⟨t, ht⟩ := exists_trims line
  rw [applyLine, trim_of_trims ht]
  simp only [bind, Except.bind]
  by_cases hskip : t.isEmpty = true ∨ t.head? = some 35
  · rw [if_pos hskip]
    rfl
  · rw [if_neg hskip]
    have hmem : (61 : UInt8) ∉ t := by
      intro hmem
      obtain ⟨l, r, rfl, hl⟩ := List.eq_append_cons_of_mem hmem
      obtain ⟨key, hk⟩ := exists_trims l
      obtain ⟨value, hv⟩ := exists_trims r
      exact h key value ⟨l, r, ht, hl, hk, hv, fun hhead => hskip (.inr hhead)⟩
    have hnone : t.findIdx? (· == 61) = none := by
      rw [List.findIdx?_eq_none_iff]
      intro b hb
      exact beq_eq_false_iff_ne.mpr fun h => hmem (h ▸ hb)
    rw [hnone]
    rfl

/-! ### The fields -/

/-- A field after a line: what the line sets it to, or what it was. -/
def Updates {β : Type} (Sets : Bytes → β → Prop) (line : Bytes) (old new : β) : Prop :=
  Sets line new ∨ (∀ w, ¬ Sets line w) ∧ new = old

section Fields

variable {β : Type} {Sets : Bytes → β → Prop} {old new result : β} {name : Bytes}
  {least greatest : ℤ}

/-- One more line at the front. -/
theorem LastSet.cons (h : Updates Sets line old new) (hl : LastSet Sets lines new result) :
    LastSet Sets (line :: lines) old result := by
  cases hl with
  | @line before after l _ hlines hset hafter =>
    exact @LastSet.line _ _ _ _ (line :: before) after l result (congrArg (line :: ·) hlines)
      hset hafter
  | default hnone =>
    rcases h with hset | ⟨hnot, rfl⟩
    · exact .line (List.nil_append _).symm hset hnone
    · refine .default ?_
      intro l hl
      rcases List.mem_cons.mp hl with rfl | hl
      · exact hnot
      · exact hnone l hl

/-- Only an assignment to the key sets a number. -/
theorem setsNumber_iff (h : Assigns line key value) :
    SetsNumber name least greatest line v ↔ key = name ∧ cLocale.Integer value v ∧ least ≤ v ∧
    v ≤ greatest := by
  constructor
  · rintro ⟨value', h', hint⟩
    obtain ⟨rfl, rfl⟩ := h.unique h'
    exact ⟨rfl, hint⟩
  · rintro ⟨rfl, hint⟩
    exact ⟨value, h, hint⟩

/-- A number after an assignment, if the branch of its key sets it and the others leave it. -/
theorem updates_number (get : Config → ℤ) (set : Config → ℤ → Config) (lo hi : ℤ)
    (h : Assigns line key value) (hlo : lo ≤ least) (hhi : greatest ≤ hi)
    (hget : ∀ v, least ≤ v → v ≤ greatest → get (set cfg v) = v)
    (hkey : key = name → get (applyKey cfg key value) = get
      (applyField (stoInteger lo hi) least greatest set cfg value))
    (hother : key ≠ name → get (applyKey cfg key value) = get cfg) :
    Updates (SetsNumber name least greatest) line (get cfg) (get (applyKey cfg key value)) := by
  by_cases hk : key = name
  · rw [hkey hk]
    by_cases hset : ∃ v, cLocale.Integer value v ∧ least ≤ v ∧ v ≤ greatest
    · obtain ⟨v, hint, hleast, hgreatest⟩ := hset
      rw [applyField_of_integer hlo hhi hint hleast hgreatest, hget v hleast hgreatest]
      exact .inl ((setsNumber_iff h).mpr ⟨hk, hint, hleast, hgreatest⟩)
    · rw [applyField_of_not hlo hhi fun v hv => hset ⟨v, hv⟩]
      exact .inr ⟨fun v hv => hset ⟨v, ((setsNumber_iff h).mp hv).2⟩, rfl⟩
  · exact .inr ⟨fun v hv => hk ((setsNumber_iff h).mp hv).1, hother hk⟩

/-- A function that sets one field leaves what does not depend on it. -/
theorem applyField_keeps {get : Config → β} {parse : Bytes → Except StdException (ℤ × ℕ)}
    {set : Config → ℤ → Config} (h : ∀ v, get (set cfg v) = get cfg) :
    get (applyField parse least greatest set cfg value) = get cfg := by
  rw [applyField]
  split
  · exact h _
  · rfl

/-- A line leaves what its key does not set. -/
theorem applyKey_keeps (get : Config → β)
    (hport : key = bytes "PORT" → ∀ v, get { cfg with port := v } = get cfg)
    (hclients : key = bytes "MAX_CLIENTS" → ∀ v, get { cfg with maxClients := v } = get cfg)
    (hsize : key = bytes "MAX_MESSAGE_SIZE" → ∀ v, get { cfg with maxMessageSize := v } = get cfg)
    (hlevel : key = bytes "LOG_LEVEL" → ∀ v, get { cfg with logLevel := v } = get cfg) :
    get (applyKey cfg key value) = get cfg := by
  unfold applyKey
  split_ifs with h₁ h₂ h₃ h₄
  · exact applyField_keeps (hport h₁)
  · exact applyField_keeps (hclients h₂)
  · exact applyField_keeps fun v => hsize h₃ _
  · exact hlevel h₄ value
  · rfl

end Fields

/-- **What one line does to each field.** -/
structure LineEffect (line : Bytes) (cfg cfg' : Config) : Prop where
  /-- The port. -/
  port : Updates SetsPort line cfg.port cfg'.port
  /-- The number of clients. -/
  maxClients : Updates SetsMaxClients line cfg.maxClients cfg'.maxClients
  /-- The size of a message. -/
  maxMessageSize :
    Updates SetsMaxMessageSize line (cfg.maxMessageSize : ℤ) (cfg'.maxMessageSize : ℤ)
  /-- The level of the log. -/
  logLevel : Updates SetsLogLevel line cfg.logLevel cfg'.logLevel

theorem updates_port (h : Assigns line key value) :
    Updates SetsPort line cfg.port (applyKey cfg key value).port := by
  refine updates_number (fun cfg => cfg.port) (fun cfg v => { cfg with port := v }) (-2147483648)
    2147483647 h (by omega) (by omega) (fun v _ _ => rfl) ?_ ?_
  · intro hk
    rw [applyKey, if_pos hk]
    rfl
  · intro hk
    exact applyKey_keeps Config.port (fun h => absurd h hk) (fun _ _ => rfl)
      (fun _ _ => rfl) fun _ _ => rfl

theorem updates_maxClients (h : Assigns line key value) :
    Updates SetsMaxClients line cfg.maxClients (applyKey cfg key value).maxClients := by
  refine updates_number (fun cfg => cfg.maxClients) (fun cfg v => { cfg with maxClients := v })
    (-2147483648) 2147483647 h (by omega) (by omega) (fun v _ _ => rfl) ?_ ?_
  · intro hk
    subst hk
    rw [applyKey, if_neg (by decide), if_pos rfl]
    rfl
  · intro hk
    exact applyKey_keeps Config.maxClients (fun _ _ => rfl) (fun h => absurd h hk)
      (fun _ _ => rfl) fun _ _ => rfl

theorem updates_maxMessageSize (h : Assigns line key value) :
    Updates SetsMaxMessageSize line (cfg.maxMessageSize : ℤ)
    ((applyKey cfg key value).maxMessageSize : ℤ) := by
  have hget : ∀ v : ℤ, 64 ≤ v → v ≤ 16 * 1024 * 1024 → (((v % 4294967296).toNat : ℕ) : ℤ) = v := by
    intro v hlow hhigh
    omega
  refine updates_number (fun cfg => (cfg.maxMessageSize : ℤ))
    (fun cfg v => { cfg with maxMessageSize := (v % 4294967296).toNat }) (-9223372036854775808)
      9223372036854775807 h (by omega) (by omega) hget ?_ ?_
  · intro hk
    subst hk
    rw [applyKey, if_neg (by decide), if_neg (by decide), if_pos rfl]
    rfl
  · intro hk
    exact applyKey_keeps (fun cfg => (cfg.maxMessageSize : ℤ)) (fun _ _ => rfl) (fun _ _ => rfl)
      (fun h => absurd h hk) fun _ _ => rfl

theorem updates_logLevel (h : Assigns line key value) :
    Updates SetsLogLevel line cfg.logLevel (applyKey cfg key value).logLevel := by
  by_cases hk : key = bytes "LOG_LEVEL"
  · subst hk
    rw [applyKey, if_neg (by decide), if_neg (by decide), if_neg (by decide), if_pos rfl]
    exact .inl h
  · refine .inr ⟨fun level hset => hk (h.unique hset).1, ?_⟩
    exact applyKey_keeps Config.logLevel (fun _ _ => rfl) (fun _ _ => rfl)
      (fun _ _ => rfl) fun h => absurd h hk

/-- A line is read without an exception, and does what it says. -/
theorem applyLine_spec (cfg : Config) (line : Bytes) :
    ∃ cfg', applyLine cfg line = .ok cfg' ∧ LineEffect line cfg cfg' := by
  by_cases h : ∃ key value, Assigns line key value
  · obtain ⟨key, value, h⟩ := h
    exact ⟨applyKey cfg key value, applyLine_of_assigns h, updates_port h, updates_maxClients h,
      updates_maxMessageSize h, updates_logLevel h⟩
  · have hnot : ∀ key value, ¬ Assigns line key value := fun key value ha => h ⟨key, value, ha⟩
    refine ⟨cfg, applyLine_of_not hnot, .inr ⟨?_, rfl⟩, .inr ⟨?_, rfl⟩, .inr ⟨?_, rfl⟩,
      .inr ⟨?_, rfl⟩⟩
    · rintro v ⟨value, ha, -⟩
      exact hnot _ _ ha
    · rintro v ⟨value, ha, -⟩
      exact hnot _ _ ha
    · rintro v ⟨value, ha, -⟩
      exact hnot _ _ ha
    · exact fun level ha => hnot _ _ ha

/-- It keeps the configuration in range. -/
theorem LineEffect.inRange (h : LineEffect line cfg cfg') (hr : cfg.InRange) : cfg'.InRange := by
  constructor
  · rcases h.port with ⟨_, _, _, hlow, hhigh⟩ | ⟨-, he⟩
    · exact ⟨hlow, hhigh⟩
    · exact he ▸ hr.port
  · rcases h.maxClients with ⟨_, _, _, hlow, hhigh⟩ | ⟨-, he⟩
    · exact ⟨hlow, hhigh⟩
    · exact he ▸ hr.maxClients
  · have hold := hr.maxMessageSize
    rcases h.maxMessageSize with ⟨_, _, _, hlow, hhigh⟩ | ⟨-, he⟩
    · omega
    · omega

/-- A line that sets nothing changes nothing. -/
theorem LineEffect.eq_of_setsNothing (h : LineEffect line cfg cfg') (hn : SetsNothing line) :
    cfg' = cfg := by
  have hport := (h.port.resolve_left (hn.port _)).2
  have hclients := (h.maxClients.resolve_left (hn.maxClients _)).2
  have hsize := Int.ofNat.inj (h.maxMessageSize.resolve_left (hn.maxMessageSize _)).2
  have hlevel := (h.logLevel.resolve_left (hn.logLevel _)).2
  cases cfg
  cases cfg'
  simp only at hport hclients hsize hlevel
  rw [hport, hclients, hsize, hlevel]

/-! ### All lines -/

/-- What the lines do, one after the other. -/
theorem foldlM_spec (lines : List Bytes) (hr : cfg.InRange) :
    ∃ cfg', lines.foldlM applyLine cfg = .ok cfg' ∧ cfg'.InRange ∧
      LastSet SetsPort lines cfg.port cfg'.port ∧
      LastSet SetsMaxClients lines cfg.maxClients cfg'.maxClients ∧
      LastSet SetsMaxMessageSize lines (cfg.maxMessageSize : ℤ) (cfg'.maxMessageSize : ℤ) ∧
      LastSet SetsLogLevel lines cfg.logLevel cfg'.logLevel := by
  induction lines generalizing cfg with
  | nil =>
    refine ⟨cfg, rfl, hr, .default ?_, .default ?_, .default ?_, .default ?_⟩
    all_goals
      intro l hl
      cases hl
  | cons line lines ih =>
    obtain ⟨cfg₁, happly, heffect⟩ := applyLine_spec cfg line
    obtain ⟨cfg', hfold, hrange, hport, hclients, hsize, hlevel⟩ := ih (heffect.inRange hr)
    refine ⟨cfg', ?_, hrange, .cons heffect.port hport, .cons heffect.maxClients hclients,
      .cons heffect.maxMessageSize hsize, .cons heffect.logLevel hlevel⟩
    rw [List.foldlM_cons, happly]
    exact hfold

/-- A line that sets nothing may as well not be there. -/
theorem foldlM_skip (hn : SetsNothing line) :
    (before ++ line :: after).foldlM applyLine cfg = (before ++ after).foldlM applyLine cfg := by
  have hskip : ∀ cfg, applyLine cfg line = .ok cfg := by
    intro cfg
    obtain ⟨cfg', happly, heffect⟩ := applyLine_spec cfg line
    rw [happly, heffect.eq_of_setsNothing hn]
  rw [List.foldlM_append, List.foldlM_append]
  congr 1
  funext cfg
  rw [List.foldlM_cons, hskip]
  rfl

/-- **The configuration file.** `load_config` does not throw, whatever the file has; what it returns
is in range, and each field is what the last line says that assigns its key a value that can be
taken, or the default. Lines that assign nothing may as well not be there. -/
theorem loadConfig_meets (content : Bytes) :
    ∃ lines, Lines content lines ∧
      (∃ cfg, loadConfig (some content) = .ok cfg ∧ cfg.InRange ∧ cfg.Follows lines) ∧
      ∀ before line after content', lines = before ++ line :: after → SetsNothing line →
        Lines content' (before ++ after) →
        loadConfig (some content') = loadConfig (some content) := by
  obtain ⟨lines, hlines⟩ := exists_lines content
  obtain ⟨cfg, hfold, hrange, hport, hclients, hsize, hlevel⟩ :=
    foldlM_spec lines Config.default_inRange
  refine ⟨lines, hlines, ⟨cfg, ?_, hrange, hport, hclients, hsize, hlevel⟩, ?_⟩
  · rw [loadConfig, foldlM_of_lines hlines]
    exact hfold
  · rintro before line after content' rfl hn hlines'
    rw [loadConfig, loadConfig, foldlM_of_lines hlines, foldlM_of_lines hlines', foldlM_skip hn]

end ThreadLink.Backend
