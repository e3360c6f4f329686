import ThreadLink.Backend.Sources
import ThreadLink.Gateway.BackendMessages
import Mathlib.Algebra.Group.Nat.Defs

/-!
# What the gateway makes of the lines of the chat server

The chat server writes a line as bytes; the gateway decodes them and splits at blanks.
Nicknames are ASCII and have no blank, so both sides mean the same by the first words of a
line. A text may have anything in it.

## What is proved

* `parse_payload` — the event of each line; `parse_list_payload` for a list of names, whose
  count is read as a number.
* `parse_serialised` — every line whose names are nicknames is parsed to its event, with the
  names and the text the chat server had.
* `name_injective` — nicknames are told apart after decoding.
* `legible_of_written` — what the chat server has written is parsed so.
-/

namespace ThreadLink.System

open Text Backend Gateway

/-- A nickname as the gateway has it. -/
def name (nickname : Bytes) : Units := utf8Decode nickname

/-- The event of a line. -/
def event : ServerLine → BackendEvent
  | .welcome n => .welcome (name n)
  | .sys t => .sys (utf8Decode t)
  | .msg s t => .msg (name s) (utf8Decode t)
  | .priv s t => .priv (name s) (utf8Decode t)
  | .privSent r t => .privSent (name r) (utf8Decode t)
  | .nick o n => .nick (name o) (name n)
  | .list ns => .list ns.length (ns.map name)
  | .err c t => .err (utf8Decode c) (utf8Decode t)

/-- What stands before the text of a line is a word. -/
def Legible : ServerLine → Prop
  | .msg w _ | .priv w _ | .privSent w _ | .nick w _ | .err w _ => IsWord w
  | .welcome _ | .sys _ | .list _ => True

/-! ### Words -/

theorem utf8Decode_word {w : Bytes} (h : IsWord w) : utf8Decode w = w.map UInt8.toUInt16 :=
  utf8Decode_ascii fun b hb => (h b hb).1

theorem blank_notMem {w : Bytes} (h : IsWord w) : 32 ∉ utf8Decode w := by
  rw [utf8Decode_word h, List.mem_map]
  rintro ⟨b, hb, hb'⟩
  refine (h b hb).2 (UInt8.toNat_inj.mp ?_)
  rw [← UInt8.toNat_toUInt16, hb']
  rfl

theorem toUInt16_injective : Function.Injective UInt8.toUInt16 := fun a b h =>
  UInt8.toNat_inj.mp (by rw [← UInt8.toNat_toUInt16, h, UInt8.toNat_toUInt16])

theorem name_injective {o n : Bytes} (ho : isValidNickname o = true) (hn : isValidNickname n = true)
    (h : name o = name n) : o = n := by
  unfold name at h
  rw [utf8Decode_word (isWord_of_valid ho), utf8Decode_word (isWord_of_valid hn)] at h
  exact List.map_injective_iff.mpr toUInt16_injective h

theorem name_ne_nil {n : Bytes} (h : isValidNickname n = true) : name n ≠ [] := by
  unfold name
  rw [utf8Decode_word (isWord_of_valid h)]
  exact fun he => (isValidNickname_iff.mp h).1 (List.map_eq_nil_iff.mp he)

/-! ### Lines -/

/-- A keyword is decoded as it is. -/
theorem utf8Decode_keyword {k : String} (hk : ∀ b ∈ bytes k, IsAscii b)
    (he : (bytes k).map UInt8.toUInt16 = units k) (l : Bytes) :
    utf8Decode (bytes k ++ l) = units k ++ utf8Decode l := by
  rw [utf8Decode_ascii_append hk, he]

/-- So are a keyword and a word. -/
theorem utf8Decode_fields {k : String} (hk : ∀ b ∈ bytes k, IsAscii b)
    (he : (bytes k).map UInt8.toUInt16 = units k) {w : Bytes} (hw : IsWord w) (t : Bytes) :
    utf8Decode (bytes k ++ w ++ bytes " " ++ t) =
    units k ++ utf8Decode w ++ units " " ++ utf8Decode t := by
  rw [List.append_assoc, List.append_assoc, utf8Decode_keyword hk he,
    utf8Decode_ascii_append fun b hb => (hw b hb).1,
    utf8Decode_keyword (k := " ") (by decide) (by decide),
    utf8Decode_word hw]
  simp only [List.append_assoc]

/-- **The event of a line**, however its text is written. -/
theorem parse_payload {line : ServerLine} (h : Legible line) (hl : ∀ ns, line ≠ .list ns) :
    parseBackendLine (utf8Decode line.payload) = event line := by
  cases line with
  | welcome n =>
    rw [ServerLine.payload, utf8Decode_keyword (by decide) (by decide)]
    exact parse_welcome _
  | sys t =>
    rw [ServerLine.payload, utf8Decode_keyword (by decide) (by decide)]
    exact parse_sys _
  | msg w t =>
    rw [ServerLine.payload, utf8Decode_fields (by decide) (by decide) h]
    exact parse_msg (blank_notMem h) _
  | priv w t =>
    rw [ServerLine.payload, utf8Decode_fields (by decide) (by decide) h]
    exact parse_priv (blank_notMem h) _
  | privSent w t =>
    rw [ServerLine.payload, utf8Decode_fields (by decide) (by decide) h]
    exact parse_privSent (blank_notMem h) _
  | nick o n =>
    rw [ServerLine.payload, utf8Decode_fields (by decide) (by decide) h]
    exact parse_nick (blank_notMem h) _
  | list ns => exact absurd rfl (hl ns)
  | err w t =>
    rw [ServerLine.payload, utf8Decode_fields (by decide) (by decide) h]
    exact parse_err (blank_notMem h) _

theorem parse_payload_list (ns : List Bytes) :
    ∃ count names, parseBackendLine (utf8Decode (ServerLine.list ns).payload) =
      .list count names := by
  rw [ServerLine.payload, List.append_assoc, utf8Decode_keyword (by decide) (by decide)]
  exact ⟨_, _, parse_list _⟩

/-! ### Lists of names -/

/-- The number of a list, in code units. -/
def numeral (n : ℕ) : Units := (Nat.toDigits 10 n).map fun c => c.toNat.toUInt16

theorem isDigit_numeral {n : ℕ} {u : UInt16} (h : u ∈ numeral n) : isDigit u = true := by
  obtain ⟨c, hc, rfl⟩ := List.mem_map.mp h
  obtain ⟨h1, h2, -⟩ := toNat_digit hc
  have hn : c.toNat.toUInt16.toNat = c.toNat := by
    rw [Nat.toUInt16, UInt16.toNat_ofNat']
    omega
  simp only [isDigit, hn, h1, h2, decide_true, Bool.and_self]

theorem readDigits_map {cs : List Char} (hcs : ∀ c ∈ cs, c.toNat < 2 ^ 16) (n : ℕ) :
    readDigits n (cs.map fun c => c.toNat.toUInt16) = Nat.ofDigitChars 10 cs n := by
  induction cs generalizing n with
  | nil => rfl
  | cons c cs ih =>
    have hn : c.toNat.toUInt16.toNat = c.toNat := by
      rw [Nat.toUInt16, UInt16.toNat_ofNat']
      exact Nat.mod_eq_of_lt (hcs c (.head _))
    rw [Nat.ofDigitChars_cons, ← ih fun d hd => hcs d (.tail _ hd)]
    simp only [readDigits, List.map_cons, List.foldl_cons, hn]
    rfl

/-- The gateway reads a number as the chat server wrote it. -/
theorem parseInt_numeral (n : ℕ) : parseInt (numeral n) = some (n : ℤ) := by
  have hlt : ∀ c ∈ Nat.toDigits 10 n, c.toNat < 2 ^ 16 := fun c hc => by
    have := (toNat_digit hc).2.1
    omega
  have hne : numeral n ≠ [] := fun h => Nat.toDigits_ne_nil (List.map_eq_nil_iff.mp h)
  rw [parseInt_digits hne fun u hu => isDigit_numeral hu, numeral, readDigits_map hlt,
    Nat.ofDigitChars_ten_toDigits]

/-- What the chat server writes for a number is its numeral. -/
theorem utf8Decode_numeral (n : ℕ) (l : Bytes) :
    utf8Decode (bytes (toString n) ++ l) = numeral n ++ utf8Decode l := by
  have ha : ∀ b ∈ bytes (toString n), IsAscii b := fun b hb => by
    rw [bytes_toString] at hb
    obtain ⟨c, hc, rfl⟩ := List.mem_map.mp hb
    have := toNat_digit hc
    exact show _ < _ by omega
  rw [utf8Decode_ascii_append ha, bytes_toString, List.map_map]
  refine congrArg (· ++ _) (List.map_congr_left fun c hc => UInt16.toNat_inj.mp ?_)
  have := toNat_digit hc
  rw [Function.comp_apply, UInt8.toNat_toUInt16, this.2.2, Nat.toUInt16, UInt16.toNat_ofNat']
  omega

theorem utf8Decode_names {ns : List Bytes} (h : ∀ n ∈ ns, IsWord n) :
    utf8Decode (ns.flatMap fun n => bytes " " ++ n) = ns.flatMap fun n => units " " ++ name n := by
  induction ns with
  | nil => rfl
  | cons n ns ih =>
    have hn := h n (.head _)
    rw [List.flatMap_cons, List.append_assoc, utf8Decode_keyword (by decide) (by decide),
      utf8Decode_ascii_append fun b hb => (hn b hb).1, ih fun m hm => h m (.tail _ hm),
      List.flatMap_cons,
      List.append_assoc, name, utf8Decode_word hn]

/-- Names that each have a blank before them are names with blanks between them. -/
theorem flatMap_blank (n : Units) (ns : List Units) :
    ((n :: ns).flatMap fun n => units " " ++ n) = 32 :: [32].intercalate (n :: ns) := by
  induction ns generalizing n with
  | nil => simp [units]
  | cons m ns ih =>
    rw [List.flatMap_cons, ih m, List.intercalate_cons_cons]
    simp [units]

/-- **The event of a list of names**: the number and the names. -/
theorem parse_list_payload {ns : List Bytes} (h : ∀ n ∈ ns, isValidNickname n = true) :
    parseBackendLine (utf8Decode (ServerLine.list ns).payload) = event (.list ns) := by
  have hb : (32 : UInt16) ∉ numeral ns.length := fun hm => by
    have := isDigit_numeral hm
    cases this
  rw [ServerLine.payload, List.append_assoc, utf8Decode_keyword (by decide) (by decide),
    utf8Decode_numeral,
    utf8Decode_names fun n hn => isWord_of_valid (h n hn), parse_list]
  cases ns with
  | nil =>
    have hsplit : Gateway.splitFirst (numeral 0) = (numeral 0, []) := splitFirst_of_notMem hb
    simp only [List.length_nil, List.flatMap_nil, List.append_nil, hsplit, parseInt_numeral,
      List.isEmpty_nil, if_true,
      Option.getD_some, event, List.map_nil]
  | cons n ns =>
    have hsplit : Gateway.splitFirst
      (numeral (n :: ns).length ++ ((n :: ns).flatMap fun n => units " " ++ name n)) =
        (numeral (n :: ns).length, [32].intercalate ((n :: ns).map name)) := by
      rw [← List.flatMap_map (f := name) (g := fun n => units " " ++ n), List.map_cons,
        flatMap_blank]
      exact splitFirst_append hb _
    have hnames : ([32].intercalate ((n :: ns).map name)).splitOn (32 : UInt16) =
        (n :: ns).map name := by
      refine List.splitOn_intercalate 32 ?_ (List.cons_ne_nil _ _)
      intro l hl
      obtain ⟨m, hm, rfl⟩ := List.mem_map.mp hl
      exact blank_notMem (isWord_of_valid (h m hm))
    have hne : ([32].intercalate ((n :: ns).map name)).isEmpty = false := by
      rw [List.isEmpty_eq_false_iff]
      intro he
      rw [he] at hnames
      cases ns with
      | nil => exact name_ne_nil (h n (.head _)) (List.cons_eq_cons.mp hnames).1.symm
      | cons => exact absurd (congrArg List.length hnames) (by simp)
    simp only [hsplit, parseInt_numeral, hne, hnames, Bool.false_eq_true, if_false,
      Option.getD_some, event]

/-! ### What the chat server had -/

/-- The nicknames in a line. -/
def nicknames : ServerLine → List Bytes
  | .welcome n | .msg n _ | .priv n _ | .privSent n _ => [n]
  | .nick o n => [o, n]
  | .list ns => ns
  | .sys _ | .err _ _ => []

/-- The text in a line. -/
def lineText : ServerLine → Option Bytes
  | .sys t | .msg _ t | .priv _ t | .privSent _ t | .err _ t => some t
  | .welcome _ | .nick _ _ | .list _ => none

/-- The text in an event. -/
def eventText : BackendEvent → Option Units
  | .sys t | .msg _ t | .priv _ t | .privSent _ t | .err _ t => some t
  | .welcome _ | .nick _ _ | .list _ _ | .unknown _ => none

/-- The code in a line that reports an error. -/
def errorCode : ServerLine → Option Bytes
  | .err c _ => some c
  | _ => none

/-- A nickname is encoded as it was. -/
theorem utf8Encode_name {n : Bytes} (h : IsWord n) : utf8Encode (name n) = n := by
  rw [name, utf8Decode_word h]
  exact utf8Encode_map_toUInt16 fun b hb => (h b hb).1

/-- **Every line the chat server can say is parsed to its event**, whatever its text is.
The names are those of the line, a text that was well formed is that text, and the number of
a list is its length. -/
theorem parse_serialised (line : ServerLine) (hn : ∀ n ∈ nicknames line, isValidNickname n = true)
    (hc : ∀ c ∈ errorCode line, IsWord c) :
    parseBackendLine (utf8Decode line.payload) = event line ∧
      (∀ n ∈ nicknames line, utf8Encode (name n) = n) ∧
      ∀ t, isWellFormed t = true → lineText line = some (utf8Encode t) →
        eventText (event line) = some t := by
  refine ⟨?_, fun n h => utf8Encode_name (isWord_of_valid (hn n h)), ?_⟩
  · have hw {n : Bytes} (h : n ∈ nicknames line) : IsWord n := isWord_of_valid (hn n h)
    cases line with
    | list ns => exact parse_list_payload hn
    | welcome | sys => exact parse_payload trivial nofun
    | msg | priv | privSent | nick => exact parse_payload (hw (.head _)) nofun
    | err c t => exact parse_payload (hc c rfl) nofun
  · intro t ht he
    have hd := (utf8Decode_utf8Encode_iff t).mpr ht
    cases line <;> cases he <;> exact congrArg some hd

/-- A text that looks like a line of its own. -/
theorem parse_serialised_msg :
    parseBackendLine
      (utf8Decode (ServerLine.msg (bytes "bob") (bytes "ERR MSG_SELF 7 bob LIST 2 a b")).payload) =
      .msg (units "bob") (units "ERR MSG_SELF 7 bob LIST 2 a b") :=
  (parse_serialised (.msg (bytes "bob") (bytes "ERR MSG_SELF 7 bob LIST 2 a b"))
    (fun n hn => by rw [List.mem_singleton.mp hn]; decide) (by nofun)).1

/-- What has been written is legible. -/
theorem legible_of_written {Q : ConnId → ClientFrame → Prop} {s : Server} {k : ConnId} {f : Frame}
    (hS : s.Sourced Q) (hP : s.Spoken) (hf : f ∈ s.written k) : Legible f.line := by
  have h := hS.names_valid hP hf
  generalize f.line = line at h
  cases line with
  | welcome | sys | list => trivial
  | msg | priv | privSent => exact isWord_of_valid h
  | nick => exact isWord_of_valid h.1
  | err => exact h

end ThreadLink.System
